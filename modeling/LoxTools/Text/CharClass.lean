/-!
# Character classes

Every lexical rule is stated with four classes of characters. Only ASCII letters,
digits and blanks carry meaning, so each class is a finite list of code points
however large Unicode is.

* `isDigit` — `0` to `9`;
* `isAlpha` — a letter or the underscore, the first character of a name;
* `isAlphaNumeric` — what a name goes on with;
* `isBlank` — space, tab, carriage return and line feed.
-/

namespace LoxTools

/-- A decimal digit, `0` to `9`. -/
def isDigit (c : Char) : Bool :=
  '0' ≤ c && c ≤ '9'

/-- A character that can start a name: an ASCII letter or the underscore. -/
def isAlpha (c : Char) : Bool :=
  ('a' ≤ c && c ≤ 'z') || ('A' ≤ c && c ≤ 'Z') || c == '_'

/-- A character that a name can go on with. -/
def isAlphaNumeric (c : Char) : Bool :=
  isAlpha c || isDigit c

/-- White space between tokens. -/
def isBlank (c : Char) : Bool :=
  c == ' ' || c == '\t' || c == '\r' || c == '\n'

end LoxTools
