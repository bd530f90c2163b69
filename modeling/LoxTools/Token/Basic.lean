import LoxTools.Token.Kind
import LoxTools.Text.Escape

/-!
# Tokens

A token is a kind, its text where the kind carries one, and the stretch of source that it
covers, counted in code points. It is shown in two ways, and each fits on one line:

* `Token.display` — kind, quoted text and stretch, as diagnostics quote it;
* `Token.line` — a line of a listing, from the stretch to the listed text.
-/

namespace LoxTools

/-- A token of the source. -/
structure Token where
  /-- what the token is -/
  kind : TokenKind
  /-- the content of an identifier, a number, or a string without its quotes -/
  text : Option String
  /-- where its first code point stands -/
  start : Nat
  /-- how many code points it covers -/
  length : Nat
  deriving DecidableEq, Repr

namespace Token

/-- The position just behind the token. -/
def stop (token : Token) : Nat :=
  token.start + token.length

/-- Whether a position lies inside the token. -/
def contains (token : Token) (position : Nat) : Bool :=
  token.start ≤ position && position < token.stop

/-- The same token further along by some code points. -/
def shift (token : Token) (offset : Nat) : Token :=
  { token with start := token.start + offset }

/-! ## Showing -/

/-- Kind, quoted text and stretch, as `KIND "text" @start+length`. -/
def display (token : Token) : String :=
  let text := match token.text with
    | none => ""
    | some text => " " ++ quotedText text
  token.kind.name ++ text ++ " @" ++ toString token.start ++ "+" ++ toString token.length

/-- **A line of a listing**, as `start:length KIND text` with its line feed. The space before
the text is there also when the text is empty. -/
def line (token : Token) : String :=
  let text := match token.text with
    | none => ""
    | some text => " " ++ listedText text
  toString token.start ++ ":" ++ toString token.length ++ " " ++ token.kind.name ++ text ++ "\n"

end Token

end LoxTools
