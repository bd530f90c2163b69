import LoxTools.Text.Printable
import LoxTools.Text.GraphemeExtend

/-!
# Escaped text

Listings show text so that it stays on one line and every character can be told apart.
The characters with a short escape are NUL, tab, carriage return, line feed, the backslash
and the double quote; any other character that is not printable is written as its code point
in lower-case hexadecimal between braces.

Two forms are in use, and `EscapeForm` holds all that they differ in:

* **quoted** text stands between double quotes; combining marks are always numbers;
* **listed** text stands bare at the end of a line; the single quote is escaped too, and a
  combining mark is a number only at the start, where it would be drawn on the space before.
-/

namespace LoxTools

/-- What a form of escaped text decides by itself. -/
structure EscapeForm where
  /-- the single quote is written with a backslash -/
  singleQuote : Bool
  /-- a character that extends the one before is written as a number -/
  extenders : Bool
  deriving DecidableEq, Repr

/-- A code point as `\u` and lower-case hexadecimal digits between braces. -/
def escapeNumber (c : Char) : List Char :=
  '\\' :: 'u' :: '\x7b' :: Nat.toDigits 16 c.toNat ++ ['\x7d']

/-- One character, escaped where the form asks for it. -/
def escapeChar (form : EscapeForm) (c : Char) : List Char :=
  if c = '\x00' then ['\\', '0']
  else if c = '\t' then ['\\', 't']
  else if c = '\r' then ['\\', 'r']
  else if c = '\n' then ['\\', 'n']
  else if c = '\\' then ['\\', '\\']
  else if c = '"' then ['\\', '"']
  else if c = '\'' && form.singleQuote then ['\\', '\'']
  else if form.extenders && isGraphemeExtend c || !isPrintable c then escapeNumber c
  else [c]

/-! ## The two forms -/

/-- Inside double quotes. -/
def EscapeForm.quoted : EscapeForm := ⟨false, true⟩

/-- The first character of bare text. -/
def EscapeForm.listedFirst : EscapeForm := ⟨true, true⟩

/-- The later characters of bare text. -/
def EscapeForm.listedRest : EscapeForm := ⟨true, false⟩

/-- The characters of a text in the quoted form, without the quotes. -/
def escapeQuoted (text : List Char) : List Char :=
  text.flatMap (escapeChar .quoted)

/-- The characters of a text in the listed form. -/
def escapeListed : List Char → List Char
  | [] => []
  | c :: rest => escapeChar .listedFirst c ++ rest.flatMap (escapeChar .listedRest)

/-- **Quoted text**: escaped, between double quotes. -/
def quotedText (text : String) : String :=
  String.ofList ('"' :: escapeQuoted text.toList ++ ['"'])

/-- **Listed text**: escaped, with nothing around it. -/
def listedText (text : String) : String :=
  String.ofList (escapeListed text.toList)

end LoxTools
