/-!
# JSON output

Token listings can be written as JSON. A value is laid out over several lines with two
spaces of indentation for each level, a comma at the end of every line but the last of a
level, and a space behind the colon of a member; empty arrays and objects stay on one line.
Strings escape the double quote, the backslash and the control characters below U+0020, and
nothing else.
-/

namespace LoxTools

/-- The values that output is made of. -/
inductive Json where
  /-- a natural number -/
  | number (n : Nat)
  /-- a string -/
  | string (text : String)
  /-- a sequence of values -/
  | array (items : List Json)
  /-- named values, in the order in which they are written -/
  | object (members : List (String × Json))

namespace Json

/-! ## Strings -/

/-- One character of a string, escaped where it has to be. -/
def escapeChar (c : Char) : List Char :=
  if c = '"' then ['\\', '"']
  else if c = '\\' then ['\\', '\\']
  else if c = '\x08' then ['\\', 'b']
  else if c = '\x0c' then ['\\', 'f']
  else if c = '\n' then ['\\', 'n']
  else if c = '\r' then ['\\', 'r']
  else if c = '\t' then ['\\', 't']
  else if c.toNat < 0x20 then
    ['\\', 'u', '0', '0', (c.toNat / 16).digitChar, (c.toNat % 16).digitChar]
  else [c]

/-- A string between double quotes. -/
def quote (text : String) : String :=
  String.ofList ('"' :: text.toList.flatMap escapeChar ++ ['"'])

/-! ## Layout -/

/-- A new line at a level of nesting. -/
def newLine (level : Nat) : String :=
  String.ofList ('\n' :: List.replicate (2 * level) ' ')

mutual

/-- **The text of a value** that stands at a level of nesting. -/
def pretty (level : Nat) : Json → String
  | number n => toString n
  | string text => quote text
  | array [] => "[]"
  | array (item :: more) =>
    "[" ++ newLine (level + 1) ++ pretty (level + 1) item ++ prettyItems (level + 1) more ++
      newLine level ++ "]"
  | object [] => "\x7b\x7d"
  | object (member :: more) =>
    "\x7b" ++ newLine (level + 1) ++ prettyMember (level + 1) member ++
      prettyMembers (level + 1) more ++ newLine level ++ "\x7d"

/-- The items behind the first one, each on a line of its own. -/
def prettyItems (level : Nat) : List Json → String
  | [] => ""
  | item :: more => "," ++ newLine level ++ pretty level item ++ prettyItems level more

/-- A member: its name and its value. -/
def prettyMember (level : Nat) : String × Json → String
  | (name, value) => quote name ++ ": " ++ pretty level value

/-- The members behind the first one, each on a line of its own. -/
def prettyMembers (level : Nat) : List (String × Json) → String
  | [] => ""
  | member :: more =>
    "," ++ newLine level ++ prettyMember level member ++ prettyMembers level more

end

end Json

end LoxTools
