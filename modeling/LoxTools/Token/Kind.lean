/-!
# Token kinds

The closed vocabulary of the language. A kind has a *name*, which listings print, and most
kinds have one fixed *spelling* in source text; identifiers, strings and numbers carry their
text instead, and the end marker has neither.

`keywords` is the table of reserved words. No word of it is the beginning of another, so
the order in which they are tried does not matter (`keywords_not_nested`).
-/

namespace LoxTools

/-- The kinds of token, in their sorting order. -/
inductive TokenKind where
  | leftParen | rightParen | leftBrace | rightBrace
  | comma | dot | minus | plus | semicolon | slash | star
  | bang | bangEqual | equal | equalEqual | greater | greaterEqual | less | lessEqual
  | identifier | string | number
  | andWord | classWord | elseWord | falseWord | funWord | forWord | ifWord | nilWord
  | orWord | printWord | returnWord | superWord | thisWord | trueWord | varWord | whileWord
  /-- the end of the source; parsers use it, scanning never emits it -/
  | endOfFile
  deriving DecidableEq, Repr

namespace TokenKind

/-- Every kind, in order. -/
def all : List TokenKind :=
  [leftParen, rightParen, leftBrace, rightBrace,
   comma, dot, minus, plus, semicolon, slash, star,
   bang, bangEqual, equal, equalEqual, greater, greaterEqual, less, lessEqual,
   identifier, string, number,
   andWord, classWord, elseWord, falseWord, funWord, forWord, ifWord, nilWord,
   orWord, printWord, returnWord, superWord, thisWord, trueWord, varWord, whileWord,
   endOfFile]

/-- The upper-case name that listings and diagnostics print. -/
def name : TokenKind → String
  | leftParen => "LEFT_PAREN"
  | rightParen => "RIGHT_PAREN"
  | leftBrace => "LEFT_BRACE"
  | rightBrace => "RIGHT_BRACE"
  | comma => "COMMA"
  | dot => "DOT"
  | minus => "MINUS"
  | plus => "PLUS"
  | semicolon => "SEMICOLON"
  | slash => "SLASH"
  | star => "STAR"
  | bang => "BANG"
  | bangEqual => "BANG_EQUAL"
  | equal => "EQUAL"
  | equalEqual => "EQUAL_EQUAL"
  | greater => "GREATER"
  | greaterEqual => "GREATER_EQUAL"
  | less => "LESS"
  | lessEqual => "LESS_EQUAL"
  | identifier => "IDENTIFIER"
  | string => "STRING"
  | number => "NUMBER"
  | andWord => "AND"
  | classWord => "CLASS"
  | elseWord => "ELSE"
  | falseWord => "FALSE"
  | funWord => "FUN"
  | forWord => "FOR"
  | ifWord => "IF"
  | nilWord => "NIL"
  | orWord => "OR"
  | printWord => "PRINT"
  | returnWord => "RETURN"
  | superWord => "SUPER"
  | thisWord => "THIS"
  | trueWord => "TRUE"
  | varWord => "VAR"
  | whileWord => "WHILE"
  | endOfFile => "EOF"

/-- The kind with a given name. -/
def ofName? (name : String) : Option TokenKind :=
  all.find? fun kind => kind.name == name

/-- Kinds are ordered as they are declared. -/
def precedes (a b : TokenKind) : Bool :=
  a.ctorIdx ≤ b.ctorIdx

/-- Whether tokens of this kind carry text. -/
def hasText : TokenKind → Bool
  | identifier | string | number => true
  | _ => false

end TokenKind

/-! ## Reserved words -/

/-- The reserved words with their kinds, in the order in which they are tried. -/
def keywords : List (String × TokenKind) :=
  [("and", .andWord), ("class", .classWord), ("else", .elseWord), ("false", .falseWord),
   ("for", .forWord), ("fun", .funWord), ("if", .ifWord), ("nil", .nilWord),
   ("or", .orWord), ("print", .printWord), ("return", .returnWord), ("super", .superWord),
   ("this", .thisWord), ("true", .trueWord), ("var", .varWord), ("while", .whileWord)]

namespace TokenKind

/-- The kind of a whole word, if it is reserved. -/
def ofKeyword? (word : String) : Option TokenKind :=
  keywords.lookup word

/-- Whether the kind is a reserved word. -/
def isKeyword (kind : TokenKind) : Bool :=
  keywords.any fun entry => entry.2 == kind

/-- The fixed source spelling of punctuation, operators and reserved words. -/
def spelling? : TokenKind → Option String
  | leftParen => some "("
  | rightParen => some ")"
  | leftBrace => some "\x7b"
  | rightBrace => some "\x7d"
  | comma => some ","
  | dot => some "."
  | minus => some "-"
  | plus => some "+"
  | semicolon => some ";"
  | slash => some "/"
  | star => some "*"
  | bang => some "!"
  | bangEqual => some "!="
  | equal => some "="
  | equalEqual => some "=="
  | greater => some ">"
  | greaterEqual => some ">="
  | less => some "<"
  | lessEqual => some "<="
  | kind => (keywords.find? fun entry => entry.2 == kind).map Prod.fst

end TokenKind

/-! ## Facts about the tables -/

/-- Each reserved word is the spelling of its kind. -/
theorem spelling_of_keyword : ∀ entry ∈ keywords, entry.2.spelling? = some entry.1 := by
  decide

/-- No reserved word begins with another one. -/
theorem keywords_not_nested :
    ∀ a ∈ keywords, ∀ b ∈ keywords, a.1.toList.isPrefixOf b.1.toList = true → a = b := by
  decide

end LoxTools
