import LoxTools.Settings.Load
import LoxTools.Proofs.InputRuns
import LoxTools.Proofs.TomlDocuments
import LoxTools.Proofs.TomlLines

/-!
# Settings kept in a file

A file that keeps settings has a line for each of them, the verbosity at the top and the other
two in the section `scan`, and between these lines whatever else the document needs or has: the
header of the section, comments, and keys and tables of other names.

* `Key` lists the three settings, with their places in the document and their values,
* `Key.Writes` says what may stand for a value; a format is written between double quotes, with
  escapes where they are needed,
* `Part` is a line with a setting or some other lines, and `Fits` says that parts make a file
  for some settings: a setting that is left out has its default, and the other lines are a
  document by themselves that says nothing about the settings,
* `plain` is the plain file of any settings, with any of the defaults left out,
* `settings_survive_file`: loading any of these files gives the settings back.
-/

namespace LoxTools.Settings

open Toml

/-! ## Settings and their places -/

/-- A setting that a file can have. -/
inductive Key where
  | verbose | format | strictKeywords
  deriving DecidableEq, Repr

namespace Key

/-- Where a setting stands in a document. -/
def place : Key → Place
  | verbose => ⟨[], "verbose"⟩
  | format => ⟨["scan"], "format"⟩
  | strictKeywords => ⟨["scan"], "strict_keywords"⟩

/-- What stands at the place of a setting in a document with certain settings. -/
def value (settings : Settings) : Key → Value
  | verbose => .boolean settings.verbose
  | format => .string settings.format
  | strictKeywords => .boolean settings.strictKeywords

/-- The places of all settings. -/
def places : List Place :=
  [place verbose, place format, place strictKeywords]

/-- The place of a setting is among the places of all of them. -/
theorem place_mem (key : Key) : key.place ∈ places := by
  cases key <;> decide

/-- Each of the places is that of a setting. -/
theorem exists_of_mem {place : Place} (h : place ∈ places) : ∃ key : Key, place = key.place := by
  simp only [places, List.mem_cons, List.not_mem_nil, or_false] at h
  obtain rfl | rfl | rfl := h
  · exact ⟨verbose, rfl⟩
  · exact ⟨format, rfl⟩
  · exact ⟨strictKeywords, rfl⟩

/-- No two settings have the same place. -/
theorem place_injective {key other : Key} (h : key.place = other.place) : key = other := by
  revert h
  cases key <;> cases other <;> decide

/-- No setting stands below another one, so they can all be defined. -/
theorem apart {key other : Key} (h : key ≠ other) : ¬ key.place.path <+: other.place.path := by
  revert h
  cases key <;> cases other <;> decide

/-- **What may stand for a setting** behind its name: a word for a switch, and any spelling between
double quotes for the format. -/
def Writes (settings : Settings) : Key → List Char → Prop
  | verbose, literal => literal = (if settings.verbose then "true" else "false").toList
  | format, literal =>
    ∃ body, Spells body settings.format.toList ∧ literal = '"' :: (body ++ ['"'])
  | strictKeywords, literal =>
    literal = (if settings.strictKeywords then "true" else "false").toList

end Key

/-! ## Files -/

/-- A part of a file: one line with a setting, or lines with anything else. -/
inductive Part where
  /-- a setting, and what stands for it -/
  | setting (key : Key) (literal : String)
  /-- other lines -/
  | lines (text : String)

namespace Part

/-- The text of a part, without the line feed behind it. -/
def text : Part → String
  | setting key literal => key.place.key ++ " = " ++ literal
  | lines text => text

/-- The setting in a part, if it has one. -/
def key? : Part → Option Key
  | setting key _ => some key
  | lines _ => none

end Part

/-- The text of a file with some parts, one below the other. -/
def fileText (parts : List Part) : String :=
  "\n".intercalate (parts.map Part.text)

/-- The settings that parts have, in their order. -/
def keys (parts : List Part) : List Key :=
  parts.filterMap Part.key?

/-- Whether each setting stands where its table is open, and all other lines can be read and spare the
settings. -/
def placed : List String → List Part → Bool
  | _, [] => true
  | opened, .setting key _ :: parts => decide (opened = key.place.home) && placed opened parts
  | opened, .lines text :: parts =>
    match lines? text.toList with
    | none => false
    | some statements => Statement.spareEach Key.places opened statements &&
        placed (Statement.opensEach opened statements) parts

/-- The other lines of a file. -/
def others (parts : List Part) : List Part :=
  parts.filter fun part => part.key?.isNone

/-- **Parts that make a file for some settings**, with anything else around them that is allowed there.
-/
structure Fits (settings : Settings) (parts : List Part) : Prop where
  /-- no setting is there twice -/
  once : (keys parts).Nodup
  /-- what is written for a setting stands for its value -/
  writes : ∀ key literal, .setting key literal ∈ parts → key.Writes settings literal.toList
  /-- a setting that is left out has its default -/
  omitted : ∀ key, key ∉ keys parts → key.value settings = key.value default
  /-- each setting stands in its own table, and other lines neither define it nor stand in its way -/
  placed : placed [] parts = true
  /-- the other lines would be a document without the settings -/
  document : (Document.ofText? (fileText (others parts))).isSome

/-! ## The statements of a file -/

section Reading

variable {settings : Settings} {parts : List Part}

/-- The statements that are read from a part. -/
def readings (settings : Settings) : Part → List Statement
  | .setting key _ => [.define [] key.place.key (key.value settings)]
  | .lines text => (lines? text.toList).getD []

/-- The names of settings need no quotes. -/
theorem isBareKey_key (key : Key) : IsBareKey key.place.key.toList where
  ne_nil := by cases key <;> decide
  bare := List.all_eq_true.mp (by cases key <;> decide)

/-- What may stand for a setting is read as its value. -/
theorem Key.Writes.topValue? {key : Key} {literal : List Char} (h : key.Writes settings literal) :
    skipSpaces literal = literal ∧ topValue? literal = some (key.value settings, []) := by
  cases key with
  | verbose =>
    obtain rfl := h
    exact ⟨by cases settings.verbose <;> rfl, topValue?_boolean _⟩
  | format =>
    obtain ⟨body, hbody, rfl⟩ := h
    have hvalue := topValue?_of_spells hbody
    rw [String.ofList_toList] at hvalue
    exact ⟨rfl, hvalue⟩
  | strictKeywords =>
    obtain rfl := h
    exact ⟨by cases settings.strictKeywords <;> rfl, topValue?_boolean _⟩

/-- **A line with a setting defines it** and says nothing else. -/
theorem lines?_setting {key : Key} {literal : String} (h : key.Writes settings literal.toList) :
    lines? (Part.setting key literal).text.toList =
      some [.define [] key.place.key (key.value settings)] := by
  obtain ⟨hblank, hvalue⟩ := h.topValue?
  have hline := lines?_definition (isBareKey_key key) hblank hvalue
  rw [String.ofList_toList] at hline
  rw [Part.text, String.toList_append, String.toList_append, List.append_assoc]
  exact hline

/-- If every part of a file can be read, so can the file, part by part. -/
theorem lines?_fileText (h : ∀ part ∈ parts, lines? part.text.toList = some (readings settings part)) :
    lines? (fileText parts).toList = some (parts.flatMap (readings settings)) := by
  rw [fileText, String.toList_intercalate, List.map_map]
  exact lines?_intercalate h

/-- Lines among parts that are placed can be read. -/
theorem lines?_of_placed {opened : List String} (h : placed opened parts = true) :
    ∀ text, .lines text ∈ parts → lines? text.toList = some (readings settings (.lines text)) := by
  induction parts generalizing opened with
  | nil => exact fun _ hmem => nomatch hmem
  | cons part parts ih =>
    intro text hmem
    cases part with
    | setting key literal =>
      obtain ⟨-, hparts⟩ := Bool.and_eq_true_iff.mp h
      rcases List.mem_cons.mp hmem with heq | hmem
      · cases heq
      · exact ih hparts text hmem
    | lines first =>
      rw [placed] at h
      split at h
      · cases h
      · next statements hstatements =>
        obtain ⟨-, hparts⟩ := Bool.and_eq_true_iff.mp h
        rcases List.mem_cons.mp hmem with heq | hmem
        · obtain rfl := Part.lines.inj heq
          rw [readings, hstatements, Option.getD_some]
        · exact ih hparts text hmem

/-- **Every part of a file can be read.** -/
theorem Fits.lines? (h : Fits settings parts) :
    ∀ part ∈ parts, lines? part.text.toList = some (readings settings part) := by
  intro part hpart
  cases part with
  | setting key literal => exact lines?_setting (h.writes key literal hpart)
  | lines text => exact lines?_of_placed h.placed text hpart

/-! ## The table of a file -/

/-- What stands at the place of a setting in a file that has some of the settings. -/
def standing (settings : Settings) (keys : List Key) (key : Key) : Option Value :=
  if key ∈ keys then some (key.value settings) else none

/-- **The parts of a file define its settings**, and the other lines define the same with and
without them. -/
theorem exists_document {document bare bareNext : Document}
    (hdiffers : Document.Differs Key.places document bare)
    (hplaced : placed document.opened parts = true) (honce : (keys parts).Nodup)
    (hfree : ∀ key ∈ keys parts, document.root.get? key.place.home key.place.key = some none)
    (hbare : ((others parts).flatMap (readings settings)).foldlM Document.add bare = some bareNext) :
    ∃ next, (parts.flatMap (readings settings)).foldlM Document.add document = some next ∧
      ∀ key : Key, next.root.get? key.place.home key.place.key =
        if key ∈ keys parts then some (some (key.value settings))
        else document.root.get? key.place.home key.place.key := by
  induction parts generalizing document bare with
  | nil => exact ⟨document, rfl, fun key => (if_neg List.not_mem_nil).symm⟩
  | cons part parts ih =>
    cases part with
    | setting key literal =>
      obtain ⟨hopened, hparts⟩ := Bool.and_eq_true_iff.mp hplaced
      obtain ⟨hnew, honce⟩ := List.nodup_cons.mp honce
      have hapart (place : Place) (hplace : place ∈ Key.places) (hne : place ≠ key.place) :
          ¬ place.path <+: key.place.path ∧ ¬ key.place.path <+: place.path := by
        obtain ⟨other, rfl⟩ := Key.exists_of_mem hplace
        have hne : other ≠ key := fun heq => hne (congrArg Key.place heq)
        exact ⟨Key.apart hne, Key.apart hne.symm⟩
      obtain ⟨middle, hmiddle, hdiffers, hvalue, hkept⟩ := hdiffers.define (key.value settings)
        (Key.place_mem key) (of_decide_eq_true hopened) hapart (hfree key (List.mem_cons_self ..))
      have hget (other : Key) (hne : other ≠ key) :
          middle.root.get? other.place.home other.place.key =
            document.root.get? other.place.home other.place.key :=
        hkept _ (Key.place_mem other) fun heq => hne (Key.place_injective heq)
      have hopened : middle.opened = document.opened := Document.opened_of_add hmiddle
      obtain ⟨next, hnext, hstanding⟩ := ih hdiffers (hopened ▸ hparts) honce (fun other hother => by
        rw [hget other (ne_of_mem_of_not_mem hother hnew)]
        exact hfree other (List.mem_cons_of_mem _ hother)) hbare
      refine ⟨next, ?_, fun other => ?_⟩
      · rw [List.flatMap_cons, readings, List.singleton_append, List.foldlM_cons, hmiddle]
        exact hnext
      · rw [hstanding, show keys (.setting key literal :: parts) = key :: keys parts from rfl]
        by_cases hother : other ∈ keys parts
        · rw [if_pos hother, if_pos (List.mem_cons_of_mem _ hother)]
        · rw [if_neg hother]
          by_cases heq : other = key
          · rw [heq, if_pos (List.mem_cons_self ..), hvalue]
          · rw [if_neg (List.not_mem_cons_of_ne_of_not_mem heq hother), hget other heq]
    | lines text =>
      rw [placed] at hplaced
      split at hplaced
      · cases hplaced
      · next statements hstatements =>
        obtain ⟨hspares, hparts⟩ := Bool.and_eq_true_iff.mp hplaced
        have hreadings : readings settings (.lines text) = statements := by
          rw [readings, hstatements, Option.getD_some]
        have hothers : others (.lines text :: parts) = .lines text :: others parts := rfl
        rw [hothers, List.flatMap_cons, hreadings, List.foldlM_append] at hbare
        obtain ⟨bareMiddle, hbareMiddle, hbare⟩ := Option.bind_eq_some_iff.mp hbare
        obtain ⟨middle, hmiddle, hdiffers, hopened, hget⟩ := hdiffers.addEach hspares hbareMiddle
        obtain ⟨next, hnext, hstanding⟩ := ih hdiffers (hopened ▸ hparts) honce (fun key hkey => by
          rw [hget _ (Key.place_mem key)]
          exact hfree key hkey) hbare
        refine ⟨next, ?_, fun key => ?_⟩
        · rw [List.flatMap_cons, hreadings, List.foldlM_append, hmiddle]
          exact hnext
        · rw [hstanding, hget _ (Key.place_mem key)]
          rfl

/-- **What stands in a file at the places of the settings.** -/
theorem Fits.exists_entries (h : Fits settings parts) :
    ∃ root, Document.ofText? (fileText parts) = some root ∧
      ∀ key : Key, root.get? key.place.home key.place.key =
        some (standing settings (keys parts) key) := by
  have hothers (part : Part) (hpart : part ∈ others parts) :
      Toml.lines? part.text.toList = some (readings settings part) :=
    h.lines? part (List.mem_filter.mp hpart).1
  obtain ⟨bare, hbare⟩ := Option.isSome_iff_exists.mp h.document
  rw [Document.ofText?, statements?_of_lines? (lines?_fileText hothers)] at hbare
  obtain ⟨bareNext, hread, -⟩ := Option.map_eq_some_iff.mp hbare
  have hempty (key : Key) : Document.empty.root.get? key.place.home key.place.key = some none :=
    Entries.get?_empty ..
  obtain ⟨next, hnext, hstanding⟩ := exists_document (Document.differs_empty _) h.placed h.once
    (fun key _ => hempty key) hread
  refine ⟨next.root, ?_, fun key => ?_⟩
  · rw [Document.ofText?, statements?_of_lines? (lines?_fileText h.lines?)]
    exact Option.map_eq_some_iff.mpr ⟨next, hnext, rfl⟩
  · rw [hstanding, standing]
    split
    · rfl
    · exact hempty key

/-! ## The settings of a file -/

/-- A switch is read as it is where it is written, and also where it is left out and off. -/
theorem switch?_standing {keys : List Key} {key : Key} {on : Bool} (hvalue : key.value settings = .boolean on)
    (homitted : key ∉ keys → on = false) : switch? (standing settings keys key) = some on := by
  rw [standing]
  split
  · rw [hvalue, switch?]
  · next hout => rw [homitted hout, switch?]

/-- The format is read as it is where it is written, and also where it is left out and the default. -/
theorem format?_standing {keys : List Key}
    (homitted : .format ∉ keys → settings.format = default.format) :
    format? (standing settings keys .format) = some settings.format := by
  rw [standing]
  split
  · rfl
  · next hout => rw [homitted hout, format?]

/-- The section on scanning is read at its places, if nothing stands in their way. It need not be there.
-/
theorem section?_of_getBelow? {found format strict : Option Value}
    (hformat : Entries.getBelow? [] "format" found = some format)
    (hstrict : Entries.getBelow? [] "strict_keywords" found = some strict) :
    Settings.section? found = (do
      let format ← format? format
      let strict ← switch? strict
      some (format, strict)) := by
  cases found with
  | none =>
    obtain rfl := Option.some.inj hformat
    obtain rfl := Option.some.inj hstrict
    rfl
  | some value =>
    cases value with
    | table origin inner =>
      obtain rfl := Option.some.inj hformat
      obtain rfl := Option.some.inj hstrict
      rfl
    | string | integer | float | boolean | datetime | array | tables => cases hformat

/-- **The document of a file** has the settings that the file is made for, each where it is looked for:
the switch for verbose runs at the top, and the other two in the section on scanning. -/
theorem Fits.exists_root (h : Fits settings parts) :
    ∃ root, Document.ofText? (fileText parts) = some root ∧ switch? (root.lookup "verbose") =
      some settings.verbose ∧ section? (root.lookup "scan") =
        some (settings.format, settings.strictKeywords) := by
  obtain ⟨root, hroot, hget⟩ := h.exists_entries
  have hverbose : root.lookup "verbose" = standing settings (keys parts) .verbose :=
    Option.some.inj (hget .verbose)
  have hformat : Entries.getBelow? [] "format" (root.lookup "scan") =
      some (standing settings (keys parts) .format) := (Entries.get?_cons ..).symm.trans (hget .format)
  have hstrict : Entries.getBelow? [] "strict_keywords" (root.lookup "scan") =
      some (standing settings (keys parts) .strictKeywords) :=
    (Entries.get?_cons ..).symm.trans (hget .strictKeywords)
  have hvalues : switch? (standing settings (keys parts) .verbose) = some settings.verbose ∧
      format? (standing settings (keys parts) .format) = some settings.format ∧
      switch? (standing settings (keys parts) .strictKeywords) = some settings.strictKeywords :=
    ⟨switch?_standing rfl fun hout => Value.boolean.inj (h.omitted _ hout),
      format?_standing fun hout => Value.string.inj (h.omitted _ hout),
      switch?_standing rfl fun hout => Value.boolean.inj (h.omitted _ hout)⟩
  refine ⟨root, hroot, hverbose ▸ hvalues.1, ?_⟩
  rw [section?_of_getBelow? hformat hstrict, hvalues.2.1, hvalues.2.2]
  rfl

/-- **A file makes the settings that it is made for.** -/
theorem Fits.ofText? (h : Fits settings parts) : ofText? (fileText parts) = some settings := by
  obtain ⟨root, hroot, hverbose, hsection⟩ := h.exists_root
  rw [Settings.ofText?, hroot, Option.bind_some, ofEntries?, hverbose, hsection]
  rfl

end Reading

/-! ## Plain files -/

/-- What is written between double quotes for a character: quotes, backslashes and controls are escaped,
and any other character stands for itself. -/
def escapeBasic (c : Char) : List Char :=
  if c = '"' then ['\\', '"']
  else if c = '\\' then ['\\', '\\']
  else if isControl c then
    ['\\', 'u', '0', '0', (c.toNat / 16).digitChar, (c.toNat % 16).digitChar]
  else [c]

/-- A control character is read back from the digits that are written for it. -/
theorem codePoint?_two_digits : ∀ n < 0xa0,
    Toml.codePoint? ['0', '0', (n / 16).digitChar, (n % 16).digitChar] = some (Char.ofNat n) := by
  decide +kernel

/-- What is no control character may stand in a line. -/
theorem isInLine_of_isControl {c : Char} (h : isControl c = false) : isInLine c = true := by
  simp only [isControl, Bool.or_eq_false_iff, Bool.and_eq_false_iff, decide_eq_false_iff_not] at h
  have hlow : 0x20 ≤ c.toNat := by omega
  have hdelete : c.toNat ≠ 0x7f := by omega
  simp [isInLine, hlow, hdelete]

/-- **Escapes stand for what is escaped.** -/
theorem spells_escapeBasic (text : List Char) : Spells (text.flatMap escapeBasic) text := by
  induction text with
  | nil => exact .nil
  | cons c text ih =>
    rw [List.flatMap_cons, escapeBasic]
    split
    · next hquote =>
      obtain rfl := hquote
      exact .short rfl ih
    · next hquote =>
      split
      · next hescape =>
        obtain rfl := hescape
        exact .short rfl ih
      · next hescape =>
        split
        · next hcontrol =>
          have hlow : c.toNat < 0xa0 := by
            simp only [isControl, Bool.or_eq_true, Bool.and_eq_true, decide_eq_true_eq] at hcontrol
            omega
          have hpoint := codePoint?_two_digits c.toNat hlow
          rw [Char.ofNat_toNat] at hpoint
          exact .four hpoint ih
        · next hcontrol =>
          exact .plain (isInLine_of_isControl (Bool.eq_false_iff.mpr hcontrol)) hquote hescape ih

/-- What the plain file has for a setting. -/
def literal (settings : Settings) : Key → String
  | .verbose => if settings.verbose then "true" else "false"
  | .format => String.ofList ('"' :: (settings.format.toList.flatMap escapeBasic ++ ['"']))
  | .strictKeywords => if settings.strictKeywords then "true" else "false"

/-- What the plain file has for a setting may stand for it. -/
theorem writes_literal (settings : Settings) (key : Key) :
    key.Writes settings (settings.literal key).toList := by
  cases key with
  | verbose => rfl
  | format => exact ⟨_, spells_escapeBasic settings.format.toList, String.toList_ofList ..⟩
  | strictKeywords => rfl

/-- The lines with some of the settings, one below the other. -/
def lines (settings : Settings) (keys : List Key) : List Part :=
  keys.map fun key => .setting key (settings.literal key)

/-- The section with some of the settings, if there are any; otherwise its header is left out too. -/
def scanSection (settings : Settings) : List Key → List Part
  | [] => []
  | keys => .lines "\n[scan]" :: settings.lines keys

/-- **The plain file of some settings**: the verbosity, and the section with the format and the
switch. What is not kept is left out, and the section too if nothing of it is kept. -/
def plain (settings : Settings) (kept : Key → Bool) : List Part :=
  settings.lines ([.verbose].filter kept) ++
    (settings.scanSection ([.format, .strictKeywords].filter kept) ++ [.lines ""])

section Plain

variable {settings : Settings} {kept : Key → Bool}

theorem keys_lines (settings : Settings) (list : List Key) : keys (settings.lines list) = list := by
  rw [keys, lines, List.filterMap_map]
  exact List.filterMap_some

theorem keys_scanSection (settings : Settings) (list : List Key) :
    keys (settings.scanSection list) = list := by
  cases list with
  | nil => rfl
  | cons key list => exact keys_lines settings (key :: list)

/-- The plain file has the settings that are kept. -/
theorem keys_plain : keys (settings.plain kept) = [.verbose, .format, .strictKeywords].filter kept := by
  rw [plain, keys, List.filterMap_append, List.filterMap_append, ← keys, ← keys, keys_lines,
    keys_scanSection]
  exact (congrArg _ (List.append_nil _)).trans (List.filter_append ..).symm

theorem literal_of_mem_lines {list : List Key} {key : Key} {literal : String}
    (h : .setting key literal ∈ settings.lines list) : literal = settings.literal key := by
  obtain ⟨other, -, heq⟩ := List.mem_map.mp h
  obtain ⟨rfl, rfl⟩ := Part.setting.inj heq
  rfl

theorem literal_of_mem_scanSection {list : List Key} {key : Key} {literal : String}
    (h : .setting key literal ∈ settings.scanSection list) : literal = settings.literal key := by
  cases list with
  | nil => cases h
  | cons first list =>
    rcases List.mem_cons.mp h with heq | hmem
    · cases heq
    · exact literal_of_mem_lines hmem

/-- What the plain file has for a setting is what it always writes for it. -/
theorem literal_of_mem_plain {key : Key} {literal : String}
    (h : .setting key literal ∈ settings.plain kept) : literal = settings.literal key := by
  rcases List.mem_append.mp h with hmem | hmem
  · exact literal_of_mem_lines hmem
  · rcases List.mem_append.mp hmem with hmem | hmem
    · exact literal_of_mem_scanSection hmem
    · cases List.mem_singleton.mp hmem

theorem others_lines (settings : Settings) (list : List Key) : others (settings.lines list) = [] := by
  refine List.filter_eq_nil_iff.mpr fun part hpart => ?_
  obtain ⟨key, -, rfl⟩ := List.mem_map.mp hpart
  exact Bool.false_ne_true

/-- Apart from settings the section has its header, or nothing. -/
theorem others_scanSection (settings : Settings) (list : List Key) :
    others (settings.scanSection list) = [] ∨
      others (settings.scanSection list) = [.lines "\n[scan]"] := by
  cases list with
  | nil => exact .inl rfl
  | cons key list =>
    exact .inr (congrArg (Part.lines "\n[scan]" :: ·) (others_lines settings (key :: list)))

/-- The lines of settings of one table do not leave it. -/
theorem placed_lines {opened : List String} {list : List Key} (parts : List Part)
    (h : ∀ key ∈ list, key.place.home = opened) :
    placed opened (settings.lines list ++ parts) = placed opened parts := by
  induction list with
  | nil => rfl
  | cons key list ih =>
    rw [List.forall_mem_cons] at h
    have hopened : decide (opened = key.place.home) = true := decide_eq_true h.1.symm
    rw [lines, List.map_cons, List.cons_append, placed, hopened, Bool.true_and]
    exact ih h.2

theorem placed_end (opened : List String) : placed opened [.lines ""] = true := rfl

/-- The header of the section spares its settings. -/
theorem placed_scan (parts : List Part) :
    placed [] (.lines "\n[scan]" :: parts) = placed ["scan"] parts := by
  have hlines : lines? "\n[scan]".toList = some [.header [] "scan"] := rfl
  rw [placed, hlines]
  rfl

theorem placed_scanSection {list : List Key} (h : ∀ key ∈ list, key.place.home = ["scan"]) :
    placed [] (settings.scanSection list ++ [.lines ""]) = true := by
  cases list with
  | nil => exact placed_end []
  | cons key list =>
    rw [scanSection, List.cons_append, placed_scan, placed_lines _ h, placed_end]
    exact List.cons_ne_nil key list

/-- **The plain file is one that fits** its settings, if only defaults are left out. -/
theorem fits_plain (hkept : ∀ key, kept key = false → key.value settings = key.value default) :
    Fits settings (settings.plain kept) where
  once := by
    rw [keys_plain]
    exact List.Pairwise.filter _ (by decide)
  writes key literal hmem := literal_of_mem_plain hmem ▸ writes_literal settings key
  omitted key hout := by
    refine hkept key (Bool.eq_false_iff.mpr fun hkeep => hout ?_)
    rw [keys_plain]
    exact List.mem_filter.mpr ⟨by cases key <;> decide, hkeep⟩
  placed := by
    rw [plain, placed_lines]
    · refine placed_scanSection fun key hkey => ?_
      have hmem : key ∈ [Key.format, Key.strictKeywords] := (List.mem_filter.mp hkey).1
      simp only [List.mem_cons, List.not_mem_nil, or_false] at hmem
      obtain rfl | rfl := hmem <;> rfl
    · intro key hkey
      obtain rfl := List.mem_singleton.mp (List.mem_filter.mp hkey).1
      rfl
  document := by
    rw [plain, others, List.filter_append, List.filter_append, ← others, ← others, others_lines]
    rcases others_scanSection settings ([.format, .strictKeywords].filter kept) with hnone | hsome
    · rw [hnone]
      decide +kernel
    · rw [hsome]
      decide +kernel

end Plain

/-- Settings are loaded from a file whose text makes them. -/
theorem loadFrom_of_text [Wording] {settings : Settings} {files : FileSystem} {path text : String}
    (hfile : files.entry path = .file text.toByteArray) (h : ofText? text = some settings) :
    loadFrom files path = .ok settings := by
  rw [loadFrom, hfile, ofEntry, ofContent_toByteArray, h]

end LoxTools.Settings

namespace LoxTools

open Settings

/-- **Settings survive their file**: the plain file of some settings makes these settings, with
any of the defaults left out, and so does every other file that fits them. -/
theorem settings_survive_file [Wording] (settings : Settings) (files : FileSystem)
    (path : String) :
    (∀ kept : Key → Bool, (∀ key, kept key = false → key.value settings = key.value Settings.default) →
      files.entry path = .file (fileText (settings.plain kept)).toByteArray →
      loadFrom files path = .ok settings) ∧
    ∀ parts, Fits settings parts → files.entry path = .file (fileText parts).toByteArray →
      loadFrom files path = .ok settings := by
  refine ⟨fun kept hkept hfile => ?_, fun parts hfits hfile => ?_⟩
  · exact loadFrom_of_text hfile (fits_plain hkept).ofText?
  · exact loadFrom_of_text hfile hfits.ofText?

/-- A file with its settings in another order, one of them left out, and keys of other names
around them, in the section, in tables before and behind it, and over several lines; and the
plain file of the same settings. -/
theorem settings_survive_file_among_others :
    let settings : Settings := ⟨false, "a\"\\\n\u00e9", true⟩
    let parts : List Part :=
      [.lines "# by hand\ntitle = \"\"\"\nverbose = true\"\"\"\n\n[other.scan]\nformat = 1979-05-27\n\n[scan]",
        .setting .strictKeywords "true",
        .lines "formats = [\n  'json', # and\n  'text',\n]",
        .setting .format "\"a\\u0022\\\\\\n\u00e9\"",
        .lines "\n[[scan.more]]\nformat = \x7b a.b = +inf \x7d\n"]
    let kept (key : Key) : Bool := key ≠ .verbose
    let files := (Inputs.ofTexts [("loxt.toml", fileText parts),
      ("plain.toml", fileText (settings.plain kept))]).files
    Fits settings parts ∧ loadFrom files "loxt.toml" = .ok settings ∧
      loadFrom files "plain.toml" = .ok settings := by
  intro settings parts kept files
  have hfits : Fits settings parts := by
    refine ⟨by decide, fun key literal hmem => ?_, fun key hout => ?_, by decide +kernel,
      by decide +kernel⟩
    · simp only [parts, List.mem_cons, List.not_mem_nil, or_false, false_or, reduceCtorEq,
        Part.setting.injEq] at hmem
      obtain ⟨rfl, rfl⟩ | ⟨rfl, rfl⟩ := hmem
      · rfl
      · have htext : settings.format.toList = ['a', '"', '\\', '\n', '\u00e9'] := by decide +kernel
        rw [Key.Writes, htext]
        refine ⟨"a\\u0022\\\\\\n\u00e9".toList, ?_, by decide +kernel⟩
        exact .plain rfl (by decide) (by decide) (.four rfl (.short rfl (.short rfl
          (.plain rfl (by decide) (by decide) .nil))))
    · cases key with
      | verbose => rfl
      | format | strictKeywords => exact absurd (by decide) hout
  have hkept (key : Key) (hleft : kept key = false) : key.value settings = key.value Settings.default := by
    cases key with
    | verbose => rfl
    | format | strictKeywords => cases hleft
  exact ⟨hfits, (settings_survive_file settings files "loxt.toml").2 parts hfits rfl,
    (settings_survive_file settings files "plain.toml").1 kept hkept rfl⟩

end LoxTools
