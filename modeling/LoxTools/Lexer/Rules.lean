import LoxTools.Cursor
import LoxTools.Text.CharClass
import LoxTools.Token.Basic
import LoxTools.Lexer.Error

/-!
# Lexical rules

A rule looks at the source from one position and says which token starts there. The rules
are tried in a fixed order and the first that applies decides (`Lexer.tokenAt`):

* operators and punctuation, the two-character ones before their first characters;
* strings, from a double quote to the next one, with no escapes and across lines;
* numbers, digits with an optional dot that a digit follows;
* reserved words;
* identifiers, the longest run of letters, digits and underscores.

Reserved words match as plain beginnings of the source, so `andor` starts with `and`; under
*strict keywords* a reserved word must not be followed by an alphanumeric character.
-/

namespace LoxTools

/-- A source ready for scanning. -/
structure Lexer where
  /-- the code points of the source -/
  chars : Array Char
  /-- a reserved word must end where the word around it ends -/
  strictKeywords : Bool
  deriving DecidableEq, Repr

/-- The line that scanning is on. -/
structure Line where
  /-- its number, counted from one -/
  number : Nat
  /-- where its first character stands -/
  start : Nat
  deriving DecidableEq, Repr

/-- The first line of a source. -/
def Line.first : Line := ⟨1, 0⟩

/-- The line that starts behind the line feed at `index`. -/
def Line.next (line : Line) (index : Nat) : Line := ⟨line.number + 1, index + 1⟩

/-! ## Tables -/

/-- Punctuation that is complete in one character. -/
def punctuation? : Char → Option TokenKind
  | '(' => some .leftParen
  | ')' => some .rightParen
  | '\x7b' => some .leftBrace
  | '\x7d' => some .rightBrace
  | ',' => some .comma
  | '.' => some .dot
  | '-' => some .minus
  | '+' => some .plus
  | ';' => some .semicolon
  | '*' => some .star
  | '/' => some .slash
  | _ => none

/-- The operators that an equals sign can follow: the kind without it and the kind with it. -/
def equatable? : Char → Option (TokenKind × TokenKind)
  | '!' => some (.bang, .bangEqual)
  | '=' => some (.equal, .equalEqual)
  | '<' => some (.less, .lessEqual)
  | '>' => some (.greater, .greaterEqual)
  | _ => none

namespace Lexer

/-- A source with its settings. -/
def ofString (source : String) (strictKeywords : Bool) : Lexer :=
  ⟨source.toList.toArray, strictKeywords⟩

/-- The cursor at a position of the source. -/
def cursorAt (lexer : Lexer) (index : Nat) : Cursor :=
  Cursor.ofPosition lexer.chars index

/-- The text of a line through the character at `index`. -/
def context (lexer : Lexer) (line : Line) (index : Nat) : String :=
  (lexer.cursorAt line.start).slice line.start (index + 1)

/-- The error for the character at `index`. -/
def errorAt (lexer : Lexer) (fault : LexFault) (line : Line) (index : Nat) : LexError :=
  ⟨fault, line.number, lexer.context line index, index⟩

/-- The token from `start` up to a cursor. -/
def tokenTo (kind : TokenKind) (text : Option String) (start : Nat) (stop : Cursor) : Token :=
  ⟨kind, text, start, stop.position - start⟩

/-! ## The rules -/

/-- Whether a comment starts at `index`. -/
def commentStarts (lexer : Lexer) (index : Nat) : Bool :=
  (lexer.cursorAt index).startsWith "//"

/-- An operator or a punctuation mark. -/
def operator? (lexer : Lexer) (start : Nat) : Option Token :=
  let here := lexer.cursorAt start
  match equatable? here.current with
  | some (alone, withEqual) =>
    let kind := if here.advance.accepts '=' then withEqual else alone
    some (tokenTo kind none start (here.advance.accept '='))
  | none => (punctuation? here.current).map fun kind => tokenTo kind none start here.advance

/-- At the quote that closes the string opened under the cursor, or at the end of the
source. -/
def closingQuote (here : Cursor) : Cursor :=
  here.advance.advanceWhile (· != '"')

/-- A string whose opening quote stands at `start`. Its text leaves out the quotes. -/
def string (lexer : Lexer) (line : Line) (start : Nat) : Except LexError Token :=
  let close := closingQuote (lexer.cursorAt start)
  if close.atEnd then
    .error (lexer.errorAt .unterminatedString line start)
  else
    .ok (tokenTo .string (some (close.sliceFrom (start + 1))) start close.advance)

/-- Past the digits of a number, and past its dot and further digits if it has them. -/
def numberEnd (here : Cursor) : Cursor :=
  let whole := here.advanceWhile isDigit
  if whole.current == '.' && isDigit (whole.peek 1) then
    whole.advance.advanceWhile isDigit
  else
    whole

/-- A number whose first digit stands at `start`. -/
def number (lexer : Lexer) (start : Nat) : Token :=
  let stop := numberEnd (lexer.cursorAt start)
  tokenTo .number (some (stop.sliceFrom start)) start stop

/-- Whether a reserved word is spelled at the cursor, and ends there if it has to. -/
def spellsKeyword (lexer : Lexer) (here : Cursor) (word : String) : Bool :=
  here.startsWith word && !(lexer.strictKeywords && isAlphaNumeric (here.peek word.length))

/-- A reserved word. -/
def keyword? (lexer : Lexer) (start : Nat) : Option Token :=
  let here := lexer.cursorAt start
  (keywords.find? fun entry => lexer.spellsKeyword here entry.1).map fun entry =>
    ⟨entry.2, none, start, entry.1.length⟩

/-- Past the longest run of alphanumeric characters. -/
def wordEnd (here : Cursor) : Cursor :=
  here.advanceWhile isAlphaNumeric

/-- An identifier whose first character stands at `start`. -/
def identifier (lexer : Lexer) (start : Nat) : Token :=
  let stop := wordEnd (lexer.cursorAt start)
  tokenTo .identifier (some (stop.sliceFrom start)) start stop

/-- **Recognition**: the token at `index`, by the first rule that applies. -/
def tokenAt (lexer : Lexer) (line : Line) (index : Nat) : Except LexError Token :=
  let c := (lexer.cursorAt index).current
  match lexer.operator? index with
  | some token => .ok token
  | none =>
    if c == '"' then lexer.string line index
    else if isDigit c then .ok (lexer.number index)
    else match lexer.keyword? index with
      | some token => .ok token
      | none =>
        if isAlpha c then .ok (lexer.identifier index)
        else .error (lexer.errorAt (.unexpectedCharacter c) line index)

end Lexer

end LoxTools
