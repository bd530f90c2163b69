/-!
# TOML values and tables

The content of a TOML document is a table, a list of named values. Tables come into being in
four ways, and the way decides how the document may add to them later:

* a table *implied* by a longer header may still get a header of its own;
* a table made by a *dotted* key grows by further dotted keys only;
* a table that has been *headed* is open for the lines below its header only;
* an *inline* table is complete at its closing brace.

`insertUnder` and `enterWith` state these rules for dotted keys and for headers; both give
`none` where the document breaks one, and a key defined twice always does.
-/

namespace LoxTools.Toml

/-- How a table came into being. -/
inductive Origin where
  | implied | dotted | headed | inline
  deriving DecidableEq, Repr

/-- The values of a document. Floats and dates are kept as they are written. -/
inductive Value where
  /-- a text -/
  | string (text : String)
  /-- a whole number -/
  | integer (n : Int)
  /-- a number with a fraction or an exponent, an infinity, or not-a-number -/
  | float (literal : String)
  /-- a truth value -/
  | boolean (value : Bool)
  /-- a date, a time, or both -/
  | datetime (literal : String)
  /-- a sequence between brackets -/
  | array (items : List Value)
  /-- a table -/
  | table (origin : Origin) (entries : List (String × Value))
  /-- tables with the same repeated header, in order -/
  | tables (items : List (List (String × Value)))

/-- The named values of a table, in the order in which they were defined. -/
abbrev Entries := List (String × Value)

namespace Entries

/-- Replace the value of a key, or define the key behind the others. -/
def set (key : String) (value : Value) : Entries → Entries
  | [] => [(key, value)]
  | entry :: more =>
    if entry.1 == key then (key, value) :: more else entry :: set key value more

/-- Change the last of some tables. -/
def updateLast (change : Entries → Option Entries) : List Entries → Option (List Entries)
  | [] => none
  | [last] => (change last).map fun last => [last]
  | item :: more => (updateLast change more).map fun more => item :: more

/-- **Define a value by a dotted key** below a table. Every table on the way is new, or is
not headed, and the last one is made by a dotted key; the name itself is new there. -/
def insertUnder (origin : Origin) (key : String) (value : Value) :
    List String → Entries → Option Entries
  | [], entries =>
    if origin = .dotted ∧ (entries.lookup key).isNone then some (set key value entries) else none
  | name :: path, entries =>
    match entries.lookup name with
    | none => do
      let inner ← insertUnder .dotted key value path []
      some (set name (.table .dotted inner) entries)
    | some (.table origin inner) =>
      if origin = .headed ∨ origin = .inline then none
      else do
        let inner ← insertUnder origin key value path inner
        some (set name (.table origin inner) entries)
    | some (.tables items) => do
      let items ← updateLast (insertUnder .headed key value path) items
      some (set name (.tables items) entries)
    | some _ => none

/-- **Define a value** in a table: by its name if the path is empty, else by a dotted key. -/
def insert (path : List String) (key : String) (value : Value) (entries : Entries) :
    Option Entries :=
  if path.isEmpty then
    if (entries.lookup key).isNone then some (set key value entries) else none
  else insertUnder .headed key value path entries

/-- **Change the table that a header path leads to.** Tables on the way that are not there
yet are implied; a table list leads to its last table. -/
def enterWith (change : Entries → Option Entries) : List String → Entries → Option Entries
  | [], entries => change entries
  | name :: path, entries =>
    match entries.lookup name with
    | none => do
      let inner ← enterWith change path []
      some (set name (.table .implied inner) entries)
    | some (.table origin inner) =>
      if origin = .inline then none
      else do
        let inner ← enterWith change path inner
        some (set name (.table origin inner) entries)
    | some (.tables items) => do
      let items ← updateLast (enterWith change path) items
      some (set name (.tables items) entries)
    | some _ => none

/-- **Open a table** by its header: it is new or only implied so far. -/
def openTable (path : List String) (key : String) : Entries → Option Entries :=
  enterWith (fun entries =>
    match entries.lookup key with
    | none => some (set key (.table .headed []) entries)
    | some (.table .implied inner) => some (set key (.table .headed inner) entries)
    | some _ => none) path

/-- **Open one more table of a table list.** -/
def openElement (path : List String) (key : String) : Entries → Option Entries :=
  enterWith (fun entries =>
    match entries.lookup key with
    | none => some (set key (.tables [[]]) entries)
    | some (.tables items) => some (set key (.tables (items ++ [[]])) entries)
    | some _ => none) path

end Entries

end LoxTools.Toml
