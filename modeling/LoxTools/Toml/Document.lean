import LoxTools.Toml.Number

/-!
# TOML documents

A document is a sequence of statements, each on a line of its own: a header that opens a
table, a header that opens one more table of a list, or the definition of a value in the
table opened last. `statements?` reads the statements of a text and `Document.ofText?` the
table they describe; both give `none` for a text that is not TOML 1.0.
-/

namespace LoxTools.Toml

/-! ## Values -/

/-- How deep arrays and inline tables can be nested. -/
def maxNesting : Nat := 79

/-- A fixed word at the front. -/
def word? (word : List Char) (value : Value) (cs : List Char) : Option (Value × List Char) :=
  if word.isPrefixOf cs then some (value, cs.drop word.length) else none

mutual

/-- **A value.** `fuel` bounds the readers called below and `depth` the nesting. -/
def value? : Nat → Nat → List Char → Option (Value × List Char)
  | 0, _, _ => none
  | fuel + 1, depth, cs =>
    match cs with
    | '"' :: _ => (string? cs).map fun (text, rest) => (.string text, rest)
    | '\'' :: _ => (string? cs).map fun (text, rest) => (.string text, rest)
    | '[' :: rest =>
      if depth = 0 then none
      else (items? fuel (depth - 1) rest).map fun (items, rest) => (.array items, rest)
    | '\x7b' :: rest =>
      if depth = 0 then none
      else
        match skipSpaces rest with
        | '\x7d' :: rest => some (.table .inline [], rest)
        | _ =>
          (members? fuel (depth - 1) [] rest).map fun (entries, rest) =>
            (.table .inline entries, rest)
    | 't' :: _ => word? ['t', 'r', 'u', 'e'] (.boolean true) cs
    | 'f' :: _ => word? ['f', 'a', 'l', 's', 'e'] (.boolean false) cs
    | _ => numberOrDate? cs

/-- The items of an array from here to its closing bracket. -/
def items? : Nat → Nat → List Char → Option (List Value × List Char)
  | 0, _, _ => none
  | fuel + 1, depth, cs => do
    match ← skipLines? cs with
    | ']' :: rest => some ([], rest)
    | cs =>
      let (item, rest) ← value? fuel depth cs
      match ← skipLines? rest with
      | ',' :: rest =>
        let (items, rest) ← items? fuel depth rest
        some (item :: items, rest)
      | ']' :: rest => some ([item], rest)
      | _ => none

/-- The members of an inline table from here to its closing brace, added to those before. -/
def members? : Nat → Nat → Entries → List Char → Option (Entries × List Char)
  | 0, _, _, _ => none
  | fuel + 1, depth, entries, cs => do
    let ((path, name), rest) ← key? cs
    let rest ← expect? '=' rest
    let (value, rest) ← value? fuel depth (skipSpaces rest)
    let entries ← entries.insert path name value
    match skipSpaces rest with
    | ',' :: rest => members? fuel depth entries rest
    | '\x7d' :: rest => some (entries, rest)
    | _ => none

end

/-- A value at the top of a definition. No reader calls another more than twice before a
character is consumed. -/
def topValue? (cs : List Char) : Option (Value × List Char) :=
  value? (2 * cs.length + 2) maxNesting cs

/-! ## Statements -/

/-- One statement of a document. -/
inductive Statement where
  /-- a value defined in the table opened last -/
  | define (path : List String) (name : String) (value : Value)
  /-- a header that opens a table -/
  | header (path : List String) (name : String)
  /-- a header that opens one more table of a list -/
  | element (path : List String) (name : String)

/-- A header behind its opening bracket. -/
def header? : Reader Statement
  | '[' :: rest => do
    let ((path, name), rest) ← key? rest
    let rest ← expect? ']' rest
    let rest ← expect? ']' rest
    some (.element path name, rest)
  | cs => do
    let ((path, name), rest) ← key? cs
    let rest ← expect? ']' rest
    some (.header path name, rest)

/-- A definition. -/
def definition? (cs : List Char) : Option (Statement × List Char) := do
  let ((path, name), rest) ← key? cs
  let rest ← expect? '=' rest
  let (value, rest) ← topValue? (skipSpaces rest)
  some (.define path name value, rest)

/-- A statement, which starts with a bracket if it is a header. -/
def statement? : Reader Statement
  | '[' :: rest => header? rest
  | cs => definition? cs

/-- The statements of the lines left, at most `fuel` lines. -/
def statementsUpTo : Nat → List Char → Option (List Statement)
  | 0, cs => if cs.isEmpty then some [] else none
  | fuel + 1, cs =>
    match skipSpaces cs with
    | [] => some []
    | '#' :: rest => do
      let rest ← lineEnd? (rest.dropWhile isInLine)
      statementsUpTo fuel rest
    | cs =>
      match newLine? cs with
      | some rest => statementsUpTo fuel rest
      | none => do
        let (statement, rest) ← statement? cs
        let rest ← finishLine? rest
        let statements ← statementsUpTo fuel rest
        some (statement :: statements)

/-- Past the mark that may stand at the start of a text to show its encoding. -/
def skipMark : List Char → List Char
  | '\uFEFF' :: rest => rest
  | cs => cs

/-- **The statements of a text.** Each takes a character at least. -/
def statements? (text : List Char) : Option (List Statement) :=
  statementsUpTo (text.length + 1) (skipMark text)

/-! ## The table -/

/-- A document read so far: its table, and the path to the table opened last. -/
structure Document where
  /-- the whole table -/
  root : Entries
  /-- the names that lead to the table opened last -/
  opened : List String

namespace Document

/-- No statement yet: the whole table is open. -/
def empty : Document := ⟨[], []⟩

/-- One more statement. -/
def add (document : Document) : Statement → Option Document
  | .define path name value =>
    (document.root.enterWith (·.insert path name value) document.opened).map fun root =>
      { document with root := root }
  | .header path name =>
    (document.root.openTable path name).map fun root => ⟨root, path ++ [name]⟩
  | .element path name =>
    (document.root.openElement path name).map fun root => ⟨root, path ++ [name]⟩

/-- The table that some statements describe. -/
def ofStatements? (statements : List Statement) : Option Entries :=
  (statements.foldlM add empty).map Document.root

/-- **The table that a text describes.** -/
def ofText? (text : String) : Option Entries := do
  let statements ← statements? text.toList
  ofStatements? statements

end Document

end LoxTools.Toml
