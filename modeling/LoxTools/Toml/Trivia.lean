/-!
# Blanks and comments in TOML

A reader takes the characters that are left and gives a value and the characters behind
it, or `none` where the document is not TOML. The readers here pass over what carries no
meaning: blanks, line ends and comments. A line ends with a line feed, with or without a
carriage return before it; a carriage return alone is nowhere allowed.
-/

namespace LoxTools.Toml

/-- A reader of a value from the front of the characters left. -/
abbrev Reader (α : Type) := List Char → Option (α × List Char)

/-- Space and tab. -/
def isSpace (c : Char) : Bool :=
  c == ' ' || c == '\t'

/-- What a comment, or a line of text, can contain: no control character but the tab. -/
def isInLine (c : Char) : Bool :=
  c == '\t' || (0x20 ≤ c.toNat && c.toNat != 0x7f)

/-- Past the blanks at the front. -/
def skipSpaces (cs : List Char) : List Char :=
  cs.dropWhile isSpace

/-- Past a line end, if one is at the front. -/
def newLine? : List Char → Option (List Char)
  | '\n' :: rest => some rest
  | '\r' :: '\n' :: rest => some rest
  | _ => none

/-- Past a line end, or at the end of the document. -/
def lineEnd? : List Char → Option (List Char)
  | [] => some []
  | cs => newLine? cs

/-- Past a comment, if one starts here. -/
def skipComment : List Char → List Char
  | '#' :: rest => rest.dropWhile isInLine
  | cs => cs

/-- Past the rest of a line on which nothing but a comment may follow. -/
def finishLine? (cs : List Char) : Option (List Char) :=
  lineEnd? (skipComment (skipSpaces cs))

/-- Past blanks, comments and line ends, at most `fuel` lines of them. -/
def skipLinesUpTo : Nat → List Char → Option (List Char)
  | 0, cs => some cs
  | fuel + 1, cs =>
    match skipSpaces cs with
    | '#' :: rest => do
      let rest ← newLine? (rest.dropWhile isInLine)
      skipLinesUpTo fuel rest
    | cs =>
      match newLine? cs with
      | some rest => skipLinesUpTo fuel rest
      | none => some cs

/-- Past blanks, comments and line ends between brackets. Each line has a character, so the
characters left bound the lines. -/
def skipLines? (cs : List Char) : Option (List Char) :=
  skipLinesUpTo (cs.length + 1) cs

end LoxTools.Toml
