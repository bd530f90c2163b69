import LoxTools.Toml.Trivia

/-!
# TOML strings and keys

Strings come between double quotes, with escapes, or between single quotes, without; each
kind on one line or, between tripled quotes, over several. A key is a bare word or a string
on one line, and dotted keys are several of them.
-/

namespace LoxTools.Toml

/-! ## Escapes -/

/-- The value of a hexadecimal digit. -/
def hexValue? (c : Char) : Option Nat :=
  if '0' ≤ c && c ≤ '9' then some (c.toNat - '0'.toNat)
  else if 'a' ≤ c && c ≤ 'f' then some (c.toNat - 'a'.toNat + 10)
  else if 'A' ≤ c && c ≤ 'F' then some (c.toNat - 'A'.toNat + 10)
  else none

/-- The value of some hexadecimal digits. -/
def hexNumber? (digits : List Char) : Option Nat :=
  digits.foldlM (fun value c => (hexValue? c).map (16 * value + ·)) 0

/-- The character with a code point written in hexadecimal. Surrogates are no characters. -/
def codePoint? (digits : List Char) : Option Char := do
  let n ← hexNumber? digits
  if n.isValidChar then some (Char.ofNat n) else none

/-- The escapes of one letter. -/
def shortEscape? : Char → Option Char
  | 'b' => some '\x08'
  | 't' => some '\t'
  | 'n' => some '\n'
  | 'f' => some '\x0c'
  | 'r' => some '\r'
  | '"' => some '"'
  | '\\' => some '\\'
  | _ => none

/-! ## Strings on one line -/

/-- What follows one character of a string. -/
def consChar (c : Char) : Option (List Char × List Char) → Option (List Char × List Char)
  | some (text, rest) => some (c :: text, rest)
  | none => none

/-- A string between double quotes, behind its opening quote. -/
def basicBody : Reader (List Char)
  | [] => none
  | '"' :: rest => some ([], rest)
  | '\\' :: 'u' :: a :: b :: c :: d :: rest =>
    match codePoint? [a, b, c, d] with
    | some char => consChar char (basicBody rest)
    | none => none
  | '\\' :: 'U' :: a :: b :: c :: d :: e :: f :: g :: h :: rest =>
    match codePoint? [a, b, c, d, e, f, g, h] with
    | some char => consChar char (basicBody rest)
    | none => none
  | '\\' :: letter :: rest =>
    match shortEscape? letter with
    | some char => consChar char (basicBody rest)
    | none => none
  | c :: rest => if isInLine c && c != '\\' then consChar c (basicBody rest) else none

/-- A string between single quotes, behind its opening quote. -/
def literalBody : Reader (List Char)
  | [] => none
  | '\'' :: rest => some ([], rest)
  | c :: rest => if isInLine c then consChar c (literalBody rest) else none

/-! ## Strings over several lines -/

/-- Whether only blanks stand before the next line end. -/
def lineIsOver (cs : List Char) : Bool :=
  (newLine? (skipSpaces cs)).isSome

/-- The quotes of a closing run that belong to the text: up to two before the last three. -/
def closingQuotes (quote : Char) : List Char → List Char × List Char
  | a :: b :: rest =>
    if a = quote then if b = quote then ([a, b], rest) else ([a], b :: rest) else ([], a :: b :: rest)
  | [a] => if a = quote then ([a], []) else ([], [a])
  | [] => ([], [])

/-- A string between tripled double quotes, behind the first of its lines. While `trimming`,
blanks and line ends are passed over, as a backslash at the end of a line asks for. -/
def multiBasicBody : Bool → Reader (List Char)
  | _, [] => none
  | _, '"' :: '"' :: '"' :: rest => some (closingQuotes '"' rest)
  | _, '"' :: rest => consChar '"' (multiBasicBody false rest)
  | trimming, '\r' :: '\n' :: rest =>
    if trimming then multiBasicBody true rest else consChar '\n' (multiBasicBody false rest)
  | trimming, '\n' :: rest =>
    if trimming then multiBasicBody true rest else consChar '\n' (multiBasicBody false rest)
  | _, '\\' :: 'u' :: a :: b :: c :: d :: rest =>
    match codePoint? [a, b, c, d] with
    | some char => consChar char (multiBasicBody false rest)
    | none => none
  | _, '\\' :: 'U' :: a :: b :: c :: d :: e :: f :: g :: h :: rest =>
    match codePoint? [a, b, c, d, e, f, g, h] with
    | some char => consChar char (multiBasicBody false rest)
    | none => none
  | _, '\\' :: letter :: rest =>
    match shortEscape? letter with
    | some char => consChar char (multiBasicBody false rest)
    | none => if lineIsOver (letter :: rest) then multiBasicBody true (letter :: rest) else none
  | trimming, c :: rest =>
    if trimming && isSpace c then multiBasicBody true rest
    else if isInLine c && c != '\\' then consChar c (multiBasicBody false rest)
    else none

/-- A string between tripled single quotes, behind the first of its lines. -/
def multiLiteralBody : Reader (List Char)
  | [] => none
  | '\'' :: '\'' :: '\'' :: rest => some (closingQuotes '\'' rest)
  | '\r' :: '\n' :: rest => consChar '\n' (multiLiteralBody rest)
  | '\n' :: rest => consChar '\n' (multiLiteralBody rest)
  | c :: rest => if isInLine c then consChar c (multiLiteralBody rest) else none

/-- Past the line end that may follow the opening quotes of a string over several lines. -/
def dropFirstNewLine (cs : List Char) : List Char :=
  (newLine? cs).getD cs

/-- **A string** of any of the four kinds, from its opening quote on. -/
def string? : Reader String
  | '"' :: '"' :: '"' :: rest =>
    (multiBasicBody false (dropFirstNewLine rest)).map fun (text, rest) => (String.ofList text, rest)
  | '"' :: rest => (basicBody rest).map fun (text, rest) => (String.ofList text, rest)
  | '\'' :: '\'' :: '\'' :: rest =>
    (multiLiteralBody (dropFirstNewLine rest)).map fun (text, rest) => (String.ofList text, rest)
  | '\'' :: rest => (literalBody rest).map fun (text, rest) => (String.ofList text, rest)
  | _ => none

/-! ## Keys -/

/-- What a bare key consists of. -/
def isBareKeyChar (c : Char) : Bool :=
  ('a' ≤ c && c ≤ 'z') || ('A' ≤ c && c ≤ 'Z') || ('0' ≤ c && c ≤ '9') || c == '-' || c == '_'

/-- One part of a key. -/
def keyPart? : Reader String
  | '"' :: rest => (basicBody rest).map fun (text, rest) => (String.ofList text, rest)
  | '\'' :: rest => (literalBody rest).map fun (text, rest) => (String.ofList text, rest)
  | cs =>
    let word := cs.takeWhile isBareKeyChar
    if word.isEmpty then none else some (String.ofList word, cs.dropWhile isBareKeyChar)

/-- The parts of a dotted key, with blanks around each, at most `fuel` of them. -/
def keyPartsUpTo : Nat → Reader (List String)
  | 0, _ => none
  | fuel + 1, cs => do
    let (part, rest) ← keyPart? (skipSpaces cs)
    match skipSpaces rest with
    | '.' :: rest =>
      let (parts, rest) ← keyPartsUpTo fuel rest
      some (part :: parts, rest)
    | rest => some ([part], rest)

/-- How many parts a dotted key can have. -/
def maxKeyParts : Nat := 79

/-- **A key**: the path of names before its last part, and the last part. -/
def key? (cs : List Char) : Option ((List String × String) × List Char) := do
  let (parts, rest) ← keyPartsUpTo maxKeyParts cs
  let last ← parts.getLast?
  some ((parts.dropLast, last), rest)

end LoxTools.Toml
