import LoxTools.Json
import LoxTools.Token.Basic
import LoxTools.Tool.Error

/-!
# Listing formats

The tokens of a file are listed as text, one line for each token, or as a JSON array of
records. A format is chosen by a name in any mixture of cases.
-/

namespace LoxTools

/-- How tokens are listed. -/
inductive ListingFormat where
  /-- a line for each token -/
  | text
  /-- an array of records -/
  | json
  deriving DecidableEq, Repr

namespace ListingFormat

/-- The format that a name in lower case means. -/
def ofLowerName? : String → Option ListingFormat
  | "text" | "txt" => some .text
  | "json" => some .json
  | _ => none

/-- The format that a name means. Only ASCII letters are folded: no other character has a
letter of the three names as its lower case. -/
def ofName? (name : String) : Option ListingFormat :=
  ofLowerName? (String.ofList (name.toList.map Char.toLower))

/-- The format that a name means, or the complaint about it. -/
def parse (name : String) : Except ToolError ListingFormat :=
  match ofName? name with
  | some format => .ok format
  | none => .error (.unsupportedFormat name)

end ListingFormat

/-- A token as a record: its text is left out when it has none. -/
def Token.record (token : Token) : Json :=
  let text := match token.text with
    | none => []
    | some text => [("text", Json.string text)]
  .object ([("kind", .string token.kind.name)] ++ text ++
    [("start", .number token.start), ("length", .number token.length)])

/-- **The listing** of the tokens of one file. -/
def ListingFormat.listing : ListingFormat → List Token → String
  | .text, tokens => String.join (tokens.map Token.line)
  | .json, tokens => Json.pretty 0 (.array (tokens.map Token.record)) ++ "\n"

end LoxTools
