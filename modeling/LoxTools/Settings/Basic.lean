import LoxTools.Toml.Document

/-!
# Settings

Three settings can be kept in a file: whether runs are verbose, which listing format `scan`
uses, and whether reserved words must be whole words. Each is optional by itself:

    verbose = false

    [scan]
    format = "json"
    strict_keywords = true

Keys with other names mean nothing, whatever their values are. The section may also be
written as an array, with the format first and the switch second; a date in its place is taken
for one that says nothing.
-/

namespace LoxTools

/-- The settings of a run. -/
structure Settings where
  /-- report more -/
  verbose : Bool
  /-- the name of the listing format -/
  format : String
  /-- reserved words must be whole words -/
  strictKeywords : Bool
  deriving DecidableEq, Repr

namespace Settings

/-- What holds where no file says anything else. -/
def default : Settings := ⟨false, "text", false⟩

/-! ## Reading -/

/-- A switch, off when it is absent. -/
def switch? : Option Toml.Value → Option Bool
  | none => some false
  | some (.boolean value) => some value
  | some _ => none

/-- The name of a format, `text` when it is absent. -/
def format? : Option Toml.Value → Option String
  | none => some default.format
  | some (.string name) => some name
  | some _ => none

/-- The items of a value that is a sequence. -/
def items? : Toml.Value → Option (List Toml.Value)
  | .array items => some items
  | .tables items => some (items.map (.table .headed))
  | _ => none

/-- The section on scanning: the format and the switch. -/
def section? : Option Toml.Value → Option (String × Bool)
  | none => some (default.format, default.strictKeywords)
  | some (.table _ entries) => do
    let format ← format? (entries.lookup "format")
    let strictKeywords ← switch? (entries.lookup "strict_keywords")
    some (format, strictKeywords)
  | some (.datetime _) => some (default.format, default.strictKeywords)
  | some value => do
    let items ← items? value
    let format ← format? items[0]?
    let strictKeywords ← switch? items[1]?
    some (format, strictKeywords)

/-- The settings that a document makes. -/
def ofEntries? (root : Toml.Entries) : Option Settings := do
  let verbose ← switch? (root.lookup "verbose")
  let (format, strictKeywords) ← section? (root.lookup "scan")
  some ⟨verbose, format, strictKeywords⟩

/-- **The settings that a text makes.** -/
def ofText? (text : String) : Option Settings :=
  (Toml.Document.ofText? text).bind ofEntries?

end Settings

end LoxTools
