/-!
# Lexical errors

Scanning stops at the first error. It is reported with the line it stands on, counted from
one, the text of that line through the offending character, and the position of that
character in the whole source.
-/

namespace LoxTools

/-- What can be wrong with a source. -/
inductive LexFault where
  /-- a double quote that no other one follows -/
  | unterminatedString
  /-- a character that no rule accepts -/
  | unexpectedCharacter (found : Char)
  deriving DecidableEq, Repr

/-- A lexical error with its place. -/
structure LexError where
  /-- what is wrong -/
  fault : LexFault
  /-- the line, counted from one -/
  line : Nat
  /-- the text of the line through the offending character -/
  context : String
  /-- where the offending character stands -/
  position : Nat
  deriving DecidableEq, Repr

namespace LexError

/-- The headline of the diagnostic. -/
def headline (error : LexError) : String :=
  match error.fault with
  | .unterminatedString => "Unterminated string starting at line " ++ toString error.line
  | .unexpectedCharacter found =>
    "Unexpected character " ++ found.toString ++ " at line " ++ toString error.line

/-- **The diagnostic**: the headline, an empty line, and the line of source indented. -/
def message (error : LexError) : String :=
  error.headline ++ ":\n\n   " ++ error.context

end LexError

end LoxTools
