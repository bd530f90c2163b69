import Mathlib.Data.List.Forall2
import LoxTools.Proofs.JsonReading
import LoxTools.Proofs.TokenLines

/-!
# JSON listings and text listings

Both formats list the same. A JSON listing has an array for each file and an object for each token, from
which the token is read back; a run with either format has the same result, and lists the same tokens
before it.

* `Token.RecordedBy` — what an object says of a token, and `Token.ofRecord?_eq_some` that it says it all;
* `ListsAsJson` — what a JSON listing of several files keeps;
* `json_listing_agrees` — what this has to do with a text listing of the same files.
-/

namespace LoxTools

namespace Json

/-! ## Fields -/

/-- The value of a member of an object: of the first one with the given name, if there is any. Other
values have no members. -/
def field? (name : String) : Json → Option Json
  | .object members => members.lookup name
  | _ => none

def asString? : Json → Option String
  | .string text => some text
  | _ => none

def asNumber? : Json → Option Nat
  | .number n => some n
  | _ => none

def asArray? : Json → Option (List Json)
  | .array items => some items
  | _ => none

end Json

namespace Token

/-! ## Records -/

/-- **An object records a token**: it has its kind, its stretch, and its text when it has one, and
nothing else. -/
structure RecordedBy (token : Token) (value : Json) : Prop where
  /-- it has the name of the kind -/
  kind : value.field? "kind" = some (.string token.kind.name)
  /-- it has the position where the token starts -/
  start : value.field? "start" = some (.number token.start)
  /-- it has the length of the token -/
  length : value.field? "length" = some (.number token.length)
  /-- it has the text, code point by code point, if and only if the token has one -/
  text : value.field? "text" = token.text.map Json.string
  /-- it has no other members -/
  others : ∀ name, name ∉ ["kind", "start", "length", "text"] → value.field? name = none

/-- The object that a listing has for a token records this token. -/
theorem recordedBy_record (token : Token) : token.RecordedBy token.record := by
  obtain ⟨kind, text, start, length⟩ := token
  cases text with
  | none =>
    refine ⟨rfl, rfl, rfl, rfl, ?_⟩
    intro name hname
    simp only [List.mem_cons, List.not_mem_nil, or_false, not_or] at hname
    simp [record, Json.field?, List.lookup_eq_none_iff, hname]
  | some text =>
    refine ⟨rfl, rfl, rfl, rfl, ?_⟩
    intro name hname
    simp only [List.mem_cons, List.not_mem_nil, or_false, not_or] at hname
    simp [record, Json.field?, List.lookup_eq_none_iff, hname]

/-- The token that an object records, if its members have the right types. Members with other names are
not looked at. -/
def ofRecord? (value : Json) : Option Token := do
  let kind ← value.field? "kind"
  let kind ← kind.asString?
  let kind ← TokenKind.ofName? kind
  let start ← value.field? "start"
  let start ← start.asNumber?
  let length ← value.field? "length"
  let length ← length.asNumber?
  match value.field? "text" with
  | none => some ⟨kind, none, start, length⟩
  | some text => do
    let text ← text.asString?
    some ⟨kind, some text, start, length⟩

/-- **A token is read back** from every object that records it, in whatever order its members stand. -/
theorem RecordedBy.ofRecord? {token : Token} {value : Json} (h : token.RecordedBy value) :
    ofRecord? value = some token := by
  obtain ⟨kind, text, start, length⟩ := token
  rw [Token.ofRecord?, h.kind, h.start, h.length, h.text]
  cases text <;> simp [Json.asString?, Json.asNumber?, TokenKind.ofName?_name]

theorem ofRecord?_record (token : Token) : ofRecord? token.record = some token :=
  token.recordedBy_record.ofRecord?

/-! ## A JSON listing -/

/-- The tokens of an array of records, if each of its items records one. -/
def ofRecords? (value : Json) : Option (List Token) := do
  let records ← value.asArray?
  records.mapM ofRecord?

/-- **The tokens of a JSON listing**, file by file, if it is a stream of arrays of records. -/
def ofJsonListing? (listing : String) : Option (List (List Token)) := do
  let values ← Json.readAll? listing
  values.mapM ofRecords?

/-- The array that a listing has for the tokens of a file. -/
def records (tokens : List Token) : Json :=
  .array (tokens.map record)

theorem ofRecords?_records (tokens : List Token) : ofRecords? (records tokens) = some tokens :=
  mapM_map_eq_some ofRecord?_record tokens

end Token

/-- **A text lists the tokens of files as JSON**: in it they can be found both by whoever knows its
layout and by a reader that knows only JSON. -/
structure ListsAsJson (listing : String) (lists : List (List Token)) : Prop where
  /-- it is a stream of arrays, one for each file, laid out and followed by a line feed, and in each
  there is an object for each token of the file -/
  arrays : ∃ arrays : List (List Json),
    listing = String.join (arrays.map fun items => Json.pretty 0 (.array items) ++ "\n") ∧
    Json.readAll? listing = some (arrays.map .array) ∧
    List.Forall₂ (List.Forall₂ Token.RecordedBy) lists arrays
  /-- all of the tokens are read back, file by file -/
  decoded : Token.ofJsonListing? listing = some lists

/-- **JSON listings, one behind the other**, list the tokens that they were written for, file by file.
-/
theorem listsAsJson_join (lists : List (List Token)) :
    ListsAsJson (String.join (lists.map ListingFormat.json.listing)) lists := by
  have hread : Json.readAll? (String.join (lists.map ListingFormat.json.listing)) =
      some (lists.map Token.records) := by
    have hstream := Json.readAll?_join (lists.map Token.records)
    rwa [List.map_map] at hstream
  refine ⟨⟨lists.map (List.map Token.record), ?_, ?_, ?_⟩, ?_⟩
  · rw [List.map_map]
    rfl
  · rw [hread, List.map_map]
    rfl
  · rw [List.forall₂_map_right_iff, List.forall₂_same]
    intro tokens _
    rw [List.forall₂_map_right_iff, List.forall₂_same]
    intro token _
    exact token.recordedBy_record
  · rw [Token.ofJsonListing?, hread]
    exact mapM_map_eq_some Token.ofRecords?_records lists

/-- **Text listings, one behind the other**, are the listing of all their tokens. It does not tell where
one file ends and the next one starts. -/
theorem join_text_listing (lists : List (List Token)) :
    String.join (lists.map ListingFormat.text.listing) =
      ListingFormat.text.listing lists.flatten := by
  induction lists with
  | nil => rfl
  | cons tokens lists ih =>
    rw [List.map_cons, String.join_cons, ih, List.flatten_cons]
    simp only [ListingFormat.listing, List.map_append, String.join_append]

/-! ## Both formats -/

/-- **What JSON output has to do with text output** of runs over the same files: the result is the same,
and both list the same tokens, JSON file by file. -/
structure FormatsAgree (strict : Bool) (inputs : Inputs) (paths : List String)
    (json text : Run Nat) : Prop where
  /-- both end with the same total, or with the same error of the same file -/
  result : json.result = text.result
  /-- both list the tokens of the same files, those before the first one that fails -/
  lists : ∃ lists, Listed strict inputs paths json.result lists ∧
    ListsAsJson json.transcript.out lists ∧ KeepsTokens text.transcript.out lists.flatten

/-- **JSON listings keep all tokens**, whatever their texts, **and agree with text listings** on the
results and on the tokens of all files that they get to. -/
theorem json_listing_agrees :
    (∀ lists : List (List Token),
      ListsAsJson (String.join (lists.map ListingFormat.json.listing)) lists) ∧
    ∀ (inputs : Inputs) (paths : List String) (strict jsonVerbose textVerbose : Bool),
      Inputs.stdinPath ∉ paths → FormatsAgree strict inputs paths
        ((ScanOptions.mk jsonVerbose .json strict).scanFiles inputs paths)
        ((ScanOptions.mk textVerbose .text strict).scanFiles inputs paths) := by
  refine ⟨listsAsJson_join, ?_⟩
  intro inputs paths strict jsonVerbose textVerbose hfiles
  -- how far the files can be listed does not depend on the format
  obtain ⟨result, lists, hlisted⟩ := exists_listed strict inputs paths
  obtain ⟨hjson, hjsonOut⟩ :=
    (ScanOptions.mk jsonVerbose .json strict).scanFiles_of_listed hlisted hfiles
  obtain ⟨htext, htextOut⟩ :=
    (ScanOptions.mk textVerbose .text strict).scanFiles_of_listed hlisted hfiles
  refine ⟨hjson.trans htext.symm, lists, ?_, ?_, ?_⟩
  · rw [hjson]
    exact hlisted
  · rw [hjsonOut]
    exact listsAsJson_join lists
  · rw [htextOut, join_text_listing]
    exact Token.keepsTokens_listing lists.flatten

/-- There is an empty file, then one whose string has a backslash, a control character and a line
separator, and one that does not scan. The listing has an array for each of the first two. -/
theorem json_listing_agrees_partial :
    let inputs := Inputs.ofTexts
      [("empty.lox", ""), ("strings.lox", "\"a\\\x01\u2028\" b"), ("open.lox", "c \"")]
    let paths := ["empty.lox", "strings.lox", "open.lox", "empty.lox"]
    Inputs.stdinPath ∉ paths ∧
      FormatsAgree false inputs paths ((ScanOptions.mk true .json false).scanFiles inputs paths)
        ((ScanOptions.mk false .text false).scanFiles inputs paths) ∧
      Token.ofJsonListing? ((ScanOptions.mk true .json false).scanFiles inputs paths).transcript.out =
        some [[], [⟨.string, some "a\\\x01\u2028", 0, 6⟩, ⟨.identifier, some "b", 7, 1⟩]] := by
  intro inputs paths
  have hfiles : Inputs.stdinPath ∉ paths := by decide
  have hempty : inputs.tokens false "empty.lox" = .ok [] :=
    (Inputs.tokens_ofTexts false (by decide) rfl).trans (Source.tokens_eq_ok.mpr rfl)
  have hstrings : inputs.tokens false "strings.lox" =
      .ok [⟨.string, some "a\\\x01\u2028", 0, 6⟩, ⟨.identifier, some "b", 7, 1⟩] :=
    (Inputs.tokens_ofTexts false (by decide) rfl).trans (Source.tokens_eq_ok.mpr rfl)
  have hopen : inputs.tokens false "open.lox" =
      .error (.lexical "open.lox" ⟨.unterminatedString, 1, "c \"", 2⟩) :=
    (Inputs.tokens_ofTexts false (by decide) rfl).trans (Source.tokens_eq_error.mpr ⟨_, rfl, rfl⟩)
  have hbefore : ["empty.lox", "strings.lox"].map (inputs.tokens false) =
      [[], [⟨.string, some "a\\\x01\u2028", 0, 6⟩, ⟨.identifier, some "b", 7, 1⟩]].map .ok := by
    simp [hempty, hstrings]
  have hlisted : Listed false inputs paths _ _ := .upTo hbefore hopen
  have hout := ((ScanOptions.mk true .json false).scanFiles_of_listed hlisted hfiles).2
  exact ⟨hfiles, json_listing_agrees.2 inputs paths false true false hfiles,
    hout ▸ (json_listing_agrees.1 _).decoded⟩

end LoxTools
