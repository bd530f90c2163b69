import LoxTools.Toml.Document

/-!
# TOML tables, place by place

A value stands at a place of a table: some names lead from table to table, and the last is its
own. Every change that a document makes works at one place too, and what stands at other
places decides neither what it does nor whether it is allowed, unless one of the two places
lies on the way to the other.

* `Entries.get?` tells what stands at a place, `Entries.forget` takes it away,
* `LeavesAlone` says that a change can be exchanged with `forget` and keeps `get?`,
* `leavesAlone_insert`, `leavesAlone_openTable` and `leavesAlone_openElement` say which places
  are left alone by definitions, headers and repeated headers,
* `exists_define` says what a definition does where nothing stands, `reaches_openTable` that
  a header makes definitions possible.
-/

namespace LoxTools.Toml

/-- A value that is changed inside, if it is a table; any other value stays. -/
def Value.mapTable (change : List (String × Value) → List (String × Value)) : Value → Value
  | .table origin entries => .table origin (change entries)
  | value => value

namespace Entries

/-! ## One name -/

theorem lookup_entry (name : String) (entry : String × Value) (more : Entries) :
    List.lookup name (entry :: more) = if name = entry.1 then some entry.2 else more.lookup name := by
  rw [List.lookup_cons]
  by_cases hname : name = entry.1
  · rw [if_pos hname, beq_iff_eq.mpr hname]
  · rw [if_neg hname, beq_eq_false_iff_ne.mpr hname]

theorem lookup_set (name key : String) (value : Value) (entries : Entries) :
    (set key value entries).lookup name = if name = key then some value else entries.lookup name := by
  induction entries with
  | nil => exact lookup_entry name (key, value) []
  | cons entry more ih =>
    by_cases hfirst : entry.1 = key
    · by_cases hname : name = key <;> simp [set, lookup_entry, hfirst, hname]
    · by_cases hname : name = entry.1
      · simp [set, lookup_entry, hfirst, hname]
      · simp [set, lookup_entry, hfirst, hname, ih]

theorem set_eq_self {key : String} {value : Value} {entries : Entries}
    (h : entries.lookup key = some value) : set key value entries = entries := by
  induction entries with
  | nil => cases h
  | cons entry more ih =>
    rw [lookup_entry] at h
    split at h
    · next hfirst =>
      obtain rfl := hfirst
      obtain rfl := Option.some.inj h
      simp [set]
    · next hfirst => simp [set, Ne.symm hfirst, ih h]

/-- The table in which a name is taken away. -/
def without (name : String) (entries : Entries) : Entries :=
  entries.filter (·.1 != name)

theorem lookup_without {name key : String} (h : name ≠ key) (entries : Entries) :
    (without key entries).lookup name = entries.lookup name := by
  induction entries with
  | nil => rfl
  | cons entry more ih =>
    rw [without] at ih
    by_cases hfirst : entry.1 = key
    · simp [without, lookup_entry, hfirst, h, ih]
    · simp [without, lookup_entry, hfirst, ih]

theorem without_set_self (key : String) (value : Value) (entries : Entries) :
    without key (set key value entries) = without key entries := by
  induction entries with
  | nil => simp [without, set]
  | cons entry more ih =>
    rw [without, without] at ih
    by_cases hfirst : entry.1 = key
    · simp [without, set, hfirst]
    · simp [without, set, hfirst, ih]

theorem without_set {name key : String} (h : name ≠ key) (value : Value) (entries : Entries) :
    without key (set name value entries) = set name value (without key entries) := by
  induction entries with
  | nil => simp [without, set, h]
  | cons entry more ih =>
    rw [without, without] at ih
    by_cases hname : entry.1 = name
    · simp [without, set, hname, h]
    · by_cases hkey : entry.1 = key
      · simp [without, set, hkey, Ne.symm h, ih]
      · simp [without, set, hname, hkey, ih]

/-- The table in which the value of a name is changed, if it has one. -/
def mapAt (name : String) (change : Value → Value) (entries : Entries) : Entries :=
  entries.map fun entry => if entry.1 = name then (entry.1, change entry.2) else entry

/-- Where the value of a name is changed, this name has the changed value, and all others keep theirs.
-/
theorem lookup_mapAt (name key : String) (change : Value → Value) (entries : Entries) :
    (mapAt key change entries).lookup name =
      if name = key then (entries.lookup name).map change else entries.lookup name := by
  induction entries with
  | nil => simp [mapAt]
  | cons entry more ih =>
    rw [mapAt] at ih
    rw [mapAt, List.map_cons, lookup_entry, ih, lookup_entry]
    by_cases hfirst : key = entry.1
    · subst hfirst
      by_cases hname : name = entry.1 <;> simp [hname]
    · by_cases hname : name = entry.1 <;> simp [hname, Ne.symm hfirst]

theorem mapAt_set (name key : String) (value : Value) (change : Value → Value) (entries : Entries) :
    mapAt key change (set name value entries) =
      set name (if name = key then change value else value) (mapAt key change entries) := by
  induction entries with
  | nil => by_cases h : name = key <;> simp [mapAt, set, h]
  | cons entry more ih =>
    rw [mapAt, mapAt] at ih
    by_cases hname : name = entry.1
    · subst hname
      by_cases hkey : entry.1 = key <;> simp [mapAt, set, hkey]
    · by_cases hkey : key = entry.1
      · subst hkey
        simp [mapAt, set, Ne.symm hname, ih]
      · simp [mapAt, set, Ne.symm hname, Ne.symm hkey, ih]

theorem without_comm (name key : String) (entries : Entries) :
    without name (without key entries) = without key (without name entries) := by
  rw [without, without, without, without, List.filter_filter, List.filter_filter]
  exact congrArg (List.filter · entries) (funext fun entry => Bool.and_comm ..)

theorem without_mapAt (name key : String) (change : Value → Value) (entries : Entries) :
    without name (mapAt key change entries) = mapAt key change (without name entries) := by
  rw [without, mapAt, List.filter_map]
  congr 2
  funext entry
  by_cases h : entry.1 = key <;> simp [h]

theorem mapAt_comm {name key : String} {change other : Value → Value}
    (h : name = key → ∀ value, change (other value) = other (change value)) (entries : Entries) :
    mapAt name change (mapAt key other entries) = mapAt key other (mapAt name change entries) := by
  simp only [mapAt, List.map_map]
  refine List.map_congr_left fun entry _ => ?_
  by_cases hname : name = entry.1
  · subst hname
    by_cases hkey : key = entry.1
    · simp [hkey, h hkey.symm]
    · simp [Ne.symm hkey]
  · by_cases hkey : key = entry.1
    · simp [hkey, Ne.symm hname]
    · simp [Ne.symm hname, Ne.symm hkey]

/-! ## What stands at a place -/

/-- **What stands at a place**: a value, or nothing. It is `none` where a value on the way is
no table. -/
def get? : List String → String → Entries → Option (Option Value)
  | [], key, entries => some (entries.lookup key)
  | name :: home, key, entries =>
    match entries.lookup name with
    | none => some none
    | some (.table _ inner) => get? home key inner
    | some _ => none

/-- **The table without what stands at a place.** -/
def forget : List String → String → Entries → Entries
  | [], key, entries => without key entries
  | name :: home, key, entries => mapAt name (·.mapTable (forget home key)) entries

/-- What stands at a place below a value, or below nothing. It is `none` where the value is no table. -/
def getBelow? (home : List String) (key : String) : Option Value → Option (Option Value)
  | none => some none
  | some (.table _ inner) => get? home key inner
  | some _ => none

theorem get?_cons (name : String) (home : List String) (key : String) (entries : Entries) :
    get? (name :: home) key entries = getBelow? home key (entries.lookup name) := by
  rw [get?]
  cases entries.lookup name with
  | none => rfl
  | some value => cases value <;> rfl

theorem get?_empty (home : List String) (key : String) : get? home key [] = some none := by
  cases home <;> rfl

theorem forget_empty (home : List String) (key : String) : forget home key [] = [] := by
  cases home <;> rfl

theorem lookup_forget_of_ne {name : String} {home : List String} {key : String}
    (h : (home ++ [key]).head? ≠ some name) (entries : Entries) :
    (forget home key entries).lookup name = entries.lookup name := by
  cases home with
  | nil => exact lookup_without (fun heq => h (congrArg some heq.symm)) entries
  | cons first home =>
    exact (lookup_mapAt ..).trans (if_neg fun heq => h (congrArg some heq.symm))

theorem lookup_forget_cons (name : String) (home : List String) (key : String) (entries : Entries) :
    (forget (name :: home) key entries).lookup name =
      (entries.lookup name).map (·.mapTable (forget home key)) := by
  rw [forget, lookup_mapAt, if_pos rfl]

theorem forget_set_of_ne {name : String} {home : List String} {key : String}
    (h : (home ++ [key]).head? ≠ some name) (value : Value) (entries : Entries) :
    forget home key (set name value entries) = set name value (forget home key entries) := by
  cases home with
  | nil => exact without_set (fun heq => h (congrArg some heq.symm)) value entries
  | cons first home =>
    rw [forget, mapAt_set, if_neg fun heq => h (congrArg some heq.symm), forget]

theorem forget_set_cons (name : String) (home : List String) (key : String) (value : Value)
    (entries : Entries) :
    forget (name :: home) key (set name value entries) =
      set name (value.mapTable (forget home key)) (forget (name :: home) key entries) := by
  rw [forget, mapAt_set, if_pos rfl, forget]

theorem get?_set_of_ne {name : String} {home : List String} {key : String}
    (h : (home ++ [key]).head? ≠ some name) (value : Value) (entries : Entries) :
    get? home key (set name value entries) = get? home key entries := by
  cases home with
  | nil =>
    rw [get?, get?, lookup_set, if_neg fun heq => h (congrArg some heq)]
  | cons first home =>
    rw [get?_cons, get?_cons, lookup_set, if_neg fun heq => h (congrArg some heq)]

/-- Of two places either one can be forgotten first. -/
theorem forget_comm (home home' : List String) (key key' : String) (entries : Entries) :
    forget home key (forget home' key' entries) = forget home' key' (forget home key entries) := by
  induction home generalizing home' entries with
  | nil =>
    cases home' with
    | nil => exact without_comm key key' entries
    | cons name' home' => exact without_mapAt key name' _ entries
  | cons name home ih =>
    cases home' with
    | nil => exact (without_mapAt key' name _ entries).symm
    | cons name' home' =>
      refine mapAt_comm (fun _ value => ?_) entries
      cases value with
      | table origin inner => exact congrArg (Value.table origin) (ih home' inner)
      | string | integer | float | boolean | datetime | array | tables => rfl

/-! ## Changes that leave a place alone -/

/-- **A change that leaves a place alone**: it does the same, and is possible in the same
tables, whatever stands there, and what stands there stays. -/
structure LeavesAlone (home : List String) (key : String) (change : Entries → Option Entries) :
    Prop where
  /-- what stands at the place can be forgotten before or after the change -/
  forget_change : ∀ entries,
    (change entries).map (forget home key) = change (forget home key entries)
  /-- what stands at the place is kept -/
  get?_change : ∀ entries changed, change entries = some changed →
    get? home key changed = get? home key entries

/-- The table in which a name gets the value that is made of the one it has, or of none. -/
def alter (name : String) (change : Option Value → Option Value) (entries : Entries) :
    Option Entries :=
  (change (entries.lookup name)).map fun value => set name value entries

/-- A change of the value of a name leaves a place alone to which another name leads first. -/
theorem leavesAlone_alter_of_ne {name : String} {home : List String} {key : String}
    (h : (home ++ [key]).head? ≠ some name) (change : Option Value → Option Value) :
    LeavesAlone home key (alter name change) where
  forget_change entries := by
    rw [alter, alter, lookup_forget_of_ne h, Option.map_map]
    exact congrArg (Option.map · _) (funext fun value => forget_set_of_ne h value entries)
  get?_change entries changed hchanged := by
    obtain ⟨value, -, rfl⟩ := Option.map_eq_some_iff.mp hchanged
    exact get?_set_of_ne h value entries

/-- **A change of a value, or of nothing, that leaves a place below it alone**: it does the same
whatever stands there, and what stands there stays. -/
structure LeavesBelow (home : List String) (key : String) (change : Option Value → Option Value) :
    Prop where
  /-- what stands at the place can be forgotten before or after the change -/
  forget_change : ∀ current,
    (change current).map (·.mapTable (forget home key)) =
      change (current.map (·.mapTable (forget home key)))
  /-- what stands at the place is kept -/
  get?_change : ∀ current value, change current = some value →
    getBelow? home key (some value) = getBelow? home key current

/-- A change of the value of a name that leaves a place below this value alone leaves this place of the
table alone. -/
theorem LeavesBelow.alter {name : String} {home : List String} {key : String}
    {change : Option Value → Option Value} (h : LeavesBelow home key change) :
    LeavesAlone (name :: home) key (alter name change) where
  forget_change entries := by
    rw [Entries.alter, Entries.alter, lookup_forget_cons, ← h.forget_change, Option.map_map,
      Option.map_map]
    exact congrArg (Option.map · _) (funext fun value => forget_set_cons name home key value entries)
  get?_change entries changed hchanged := by
    obtain ⟨value, hvalue, rfl⟩ := Option.map_eq_some_iff.mp hchanged
    rw [get?_cons, get?_cons, lookup_set, if_pos rfl]
    exact h.get?_change _ value hvalue

/-- A change of the value of a name leaves a place alone that is not this name, if it does so where the
place is below the value. -/
theorem leavesAlone_alter {name : String} {home : List String} {key : String}
    {change : Option Value → Option Value} (hhere : home ++ [key] ≠ [name])
    (hbelow : ∀ inner, home = name :: inner → LeavesBelow inner key change) :
    LeavesAlone home key (alter name change) := by
  by_cases hfirst : (home ++ [key]).head? = some name
  · cases home with
    | nil => exact absurd (congrArg ([·]) (Option.some.inj hfirst)) hhere
    | cons first inner =>
      obtain rfl : first = name := Option.some.inj hfirst
      exact (hbelow inner rfl).alter
  · exact leavesAlone_alter_of_ne hfirst change

/-- A change of the value of a name leaves a place alone that is neither this name nor below its value.
-/
theorem leavesAlone_alter_of_not_prefix {name : String} {home : List String} {key : String}
    (h : ¬ [name] <+: home ++ [key]) (change : Option Value → Option Value) :
    LeavesAlone home key (alter name change) := by
  refine leavesAlone_alter (fun heq => h (heq ▸ List.prefix_rfl)) fun inner hinner => absurd ?_ h
  subst hinner
  exact ⟨inner ++ [key], rfl⟩

/-! ## Definitions and headers leave other places alone -/

theorem LeavesAlone.refuse (home : List String) (key : String) :
    LeavesAlone home key fun _ => none where
  forget_change _ := rfl
  get?_change _ _ h := nomatch h

/-- What becomes of the value of a name when a change is made below it: in a new table, in the table
that is there, or in the last of some tables. -/
def descend (fresh : Origin) (inside : Origin → Entries → Option Entries)
    (last : List Entries → Option (List Entries)) : Option Value → Option Value
  | none => (inside fresh []).map (.table fresh)
  | some (.table origin entries) => (inside origin entries).map (.table origin)
  | some (.tables items) => (last items).map .tables
  | some _ => none

/-- Going into the value of a name leaves a place below alone, if the change inside does. -/
theorem leavesBelow_descend {home : List String} {key : String} {fresh : Origin}
    {inside : Origin → Entries → Option Entries} (last : List Entries → Option (List Entries))
    (h : ∀ origin, LeavesAlone home key (inside origin)) :
    LeavesBelow home key (descend fresh inside last) where
  forget_change current := by
    have htable (origin : Origin) (entries : Entries) :
        ((inside origin entries).map (Value.table origin)).map (·.mapTable (forget home key)) =
          (inside origin (forget home key entries)).map (Value.table origin) := by
      rw [← (h origin).forget_change, Option.map_map, Option.map_map]
      rfl
    cases current with
    | none => exact (htable fresh []).trans (by rw [forget_empty]; rfl)
    | some value =>
      cases value with
      | table origin entries => exact htable origin entries
      | tables items => simp [descend, Value.mapTable, Function.comp_def]
      | string | integer | float | boolean | datetime | array => rfl
  get?_change current value hvalue := by
    cases current with
    | none =>
      obtain ⟨entries, hentries, rfl⟩ := Option.map_eq_some_iff.mp hvalue
      exact ((h fresh).get?_change [] entries hentries).trans (get?_empty home key)
    | some current =>
      cases current with
      | table origin before =>
        obtain ⟨entries, hentries, rfl⟩ := Option.map_eq_some_iff.mp hvalue
        exact (h origin).get?_change before entries hentries
      | tables items =>
        obtain ⟨items', -, rfl⟩ := Option.map_eq_some_iff.mp hvalue
        rfl
      | string | integer | float | boolean | datetime | array => cases hvalue

theorem insertUnder_nil (origin : Origin) (key : String) (value : Value) :
    insertUnder origin key value [] =
      alter key fun current => if origin = .dotted ∧ current.isNone then some value else none := by
  funext entries
  rw [insertUnder, alter]
  split <;> simp_all

theorem insertUnder_cons (origin : Origin) (key : String) (value : Value) (name : String)
    (path : List String) :
    insertUnder origin key value (name :: path) =
      alter name (descend .dotted
        (fun origin => if origin = .headed ∨ origin = .inline then fun _ => none
          else insertUnder origin key value path)
        (updateLast (insertUnder .headed key value path))) := by
  funext entries
  rw [insertUnder, alter]
  cases entries.lookup name with
  | none =>
    simp only [descend, reduceCtorEq, or_self, if_false]
    cases insertUnder .dotted key value path [] <;> rfl
  | some value' =>
    cases value' with
    | table origin inner =>
      simp only [descend]
      split
      · rfl
      · cases insertUnder origin key value path inner <;> rfl
    | tables items =>
      simp only [descend]
      cases updateLast (insertUnder .headed key value path) items <;> rfl
    | string | integer | float | boolean | datetime | array => rfl

theorem enterWith_cons (change : Entries → Option Entries) (name : String) (path : List String) :
    enterWith change (name :: path) =
      alter name (descend .implied
        (fun origin => if origin = .inline then fun _ => none else enterWith change path)
        (updateLast (enterWith change path))) := by
  funext entries
  rw [enterWith, alter]
  cases entries.lookup name with
  | none =>
    simp only [descend, reduceCtorEq, if_false]
    cases enterWith change path [] <;> rfl
  | some value' =>
    cases value' with
    | table origin inner =>
      simp only [descend]
      split
      · rfl
      · cases enterWith change path inner <;> rfl
    | tables items =>
      simp only [descend]
      cases updateLast (enterWith change path) items <;> rfl
    | string | integer | float | boolean | datetime | array => rfl

/-- A change below some tables leaves a place alone if it does so where the place is below the same
tables, and if the place is not one of these tables. By induction on the path. -/
theorem leavesAlone_enterWith {change : Entries → Option Entries} {key : String} {path : List String}
    {home : List String} (hchange : ∀ below, home = path ++ below → LeavesAlone below key change)
    (hpath : ¬ home ++ [key] <+: path) : LeavesAlone home key (enterWith change path) := by
  induction path generalizing home with
  | nil => exact hchange home rfl
  | cons name path ih =>
    rw [enterWith_cons]
    refine leavesAlone_alter (fun hhere => hpath (hhere ▸ ⟨path, rfl⟩)) fun inner hinner => ?_
    subst hinner
    have hinside : LeavesAlone inner key (enterWith change path) :=
      ih (fun below hbelow => hchange below (congrArg (name :: ·) hbelow))
        fun hfront => hpath (List.cons_prefix_cons.mpr ⟨rfl, hfront⟩)
    refine leavesBelow_descend _ fun origin => ?_
    split
    · exact .refuse inner key
    · exact hinside

/-- A definition by a dotted key leaves a place alone that is not on its way and not below it. By
induction on the dotted key. -/
theorem leavesAlone_insertUnder {origin : Origin} {name key : String} {value : Value}
    {path home : List String} (hspared : ¬ home ++ [key] <+: path ++ [name])
    (hreached : ¬ path ++ [name] <+: home ++ [key]) :
    LeavesAlone home key (insertUnder origin name value path) := by
  induction path generalizing origin home with
  | nil =>
    rw [insertUnder_nil]
    exact leavesAlone_alter_of_not_prefix hreached _
  | cons first path ih =>
    rw [insertUnder_cons]
    refine leavesAlone_alter (fun hhere => hspared (hhere ▸ ⟨path ++ [name], rfl⟩)) fun inner hinner => ?_
    subst hinner
    refine leavesBelow_descend _ fun origin => ?_
    split
    · exact .refuse inner key
    · exact ih (fun hfront => hspared (List.cons_prefix_cons.mpr ⟨rfl, hfront⟩))
        fun hfront => hreached (List.cons_prefix_cons.mpr ⟨rfl, hfront⟩)

theorem insert_nil (key : String) (value : Value) :
    insert [] key value = alter key fun current => if current.isNone then some value else none := by
  funext entries
  rw [insert, alter]
  split <;> simp_all

/-- A definition in a table leaves a place alone that is not on its way and not below it. -/
theorem leavesAlone_insert {name key : String} {value : Value} {path home : List String}
    (hspared : ¬ home ++ [key] <+: path ++ [name]) (hreached : ¬ path ++ [name] <+: home ++ [key]) :
    LeavesAlone home key (insert path name value) := by
  cases path with
  | nil =>
    rw [insert_nil]
    exact leavesAlone_alter_of_not_prefix hreached _
  | cons first path => exact leavesAlone_insertUnder hspared hreached

/-- What a header makes of the value of a name: a new table, or the table that was there without a
header of its own. -/
def head : Option Value → Option Value
  | none => some (.table .headed [])
  | some (.table .implied inner) => some (.table .headed inner)
  | some _ => none

theorem openTable_eq (path : List String) (key : String) :
    openTable path key = enterWith (alter key head) path := by
  refine congrArg (enterWith · path) (funext fun entries => ?_)
  rw [alter]
  cases entries.lookup key with
  | none => rfl
  | some value =>
    cases value with
    | table origin inner => cases origin <;> rfl
    | string | integer | float | boolean | datetime | array | tables => rfl

theorem leavesBelow_head (home : List String) (key : String) : LeavesBelow home key head where
  forget_change current := by
    cases current with
    | none => exact congrArg (fun entries => some (Value.table .headed entries)) (forget_empty home key)
    | some value =>
      cases value with
      | table origin inner => cases origin <;> rfl
      | string | integer | float | boolean | datetime | array | tables => rfl
  get?_change current value hvalue := by
    cases current with
    | none =>
      obtain rfl := Option.some.inj hvalue
      exact get?_empty home key
    | some current =>
      cases current with
      | table origin inner =>
        cases origin with
        | implied =>
          obtain rfl := Option.some.inj hvalue
          rfl
        | dotted | headed | inline => cases hvalue
      | string | integer | float | boolean | datetime | array | tables => cases hvalue

/-- A header leaves a place alone that is not on its way; the place may be below its table. -/
theorem leavesAlone_openTable {name key : String} {path home : List String}
    (hspared : ¬ home ++ [key] <+: path ++ [name]) : LeavesAlone home key (openTable path name) := by
  rw [openTable_eq]
  refine leavesAlone_enterWith (fun below hbelow => ?_)
    fun hfront => hspared (hfront.trans (List.prefix_append ..))
  subst hbelow
  refine leavesAlone_alter (fun hhere => hspared ?_) fun inner hinner => leavesBelow_head inner key
  have hsame : path ++ below ++ [key] = path ++ [name] := by rw [List.append_assoc, hhere]
  exact hsame ▸ List.prefix_rfl

/-- What a repeated header makes of the value of a name: one more table behind those that are there. -/
def addTable : Option Value → Option Value
  | none => some (.tables [[]])
  | some (.tables items) => some (.tables (items ++ [[]]))
  | some _ => none

theorem openElement_eq (path : List String) (key : String) :
    openElement path key = enterWith (alter key addTable) path := by
  refine congrArg (enterWith · path) (funext fun entries => ?_)
  rw [alter]
  cases entries.lookup key with
  | none => rfl
  | some value => cases value <;> rfl

/-- A repeated header leaves a place alone that is not on its way and not below its tables. -/
theorem leavesAlone_openElement {name key : String} {path home : List String}
    (hspared : ¬ home ++ [key] <+: path ++ [name]) (hreached : ¬ path ++ [name] <+: home ++ [key]) :
    LeavesAlone home key (openElement path name) := by
  rw [openElement_eq]
  refine leavesAlone_enterWith (fun below hbelow => ?_)
    fun hfront => hspared (hfront.trans (List.prefix_append ..))
  subst hbelow
  refine leavesAlone_alter_of_not_prefix (fun hfront => hreached ?_) _
  rw [List.append_assoc]
  exact (List.prefix_append_right_inj path).mpr hfront

/-! ## Definitions -/

/-- **A table that is open for definitions**: every name on the way leads to a table that is
not complete. -/
def Reaches : List String → Entries → Prop
  | [], _ => True
  | name :: home, entries => ∃ origin inner, entries.lookup name = some (.table origin inner) ∧
      origin ≠ .inline ∧ Reaches home inner

/-- A change below a table that is not complete is made in this table. -/
theorem enterWith_of_lookup {change : Entries → Option Entries} {name : String} {home : List String}
    {origin : Origin} {inner entries : Entries} (h : entries.lookup name = some (.table origin inner))
    (horigin : origin ≠ .inline) :
    enterWith change (name :: home) entries =
      (enterWith change home inner).map fun inner => set name (.table origin inner) entries := by
  rw [enterWith_cons, alter, h]
  simp only [descend, if_neg horigin, Option.map_map]
  rfl

/-- A change in a table that is open for definitions leaves it open. -/
theorem Reaches.enterWith {change : Entries → Option Entries} {home : List String}
    {entries changed : Entries} (h : Reaches home entries)
    (hchanged : enterWith change home entries = some changed) : Reaches home changed := by
  induction home generalizing entries changed with
  | nil => exact trivial
  | cons name home ih =>
    obtain ⟨origin, inner, hlookup, horigin, hinner⟩ := h
    rw [enterWith_of_lookup hlookup horigin] at hchanged
    obtain ⟨inner', hinner', rfl⟩ := Option.map_eq_some_iff.mp hchanged
    exact ⟨origin, inner', by rw [lookup_set, if_pos rfl], horigin, ih hinner hinner'⟩

/-- **What a definition does** in a table that is open, if its name is new there: it is possible, it
changes the table at this place only, and then its value stands there. -/
theorem exists_define {home : List String} {key : String} {entries : Entries} (value : Value)
    (h : Reaches home entries) (hfree : get? home key entries = some none) :
    ∃ changed, enterWith (insert [] key value) home entries = some changed ∧
      forget home key changed = forget home key entries ∧
      get? home key changed = some (some value) := by
  induction home generalizing entries with
  | nil =>
    have hlookup : entries.lookup key = none := Option.some.inj hfree
    refine ⟨set key value entries, ?_, without_set_self key value entries, ?_⟩
    · rw [enterWith, insert, hlookup]
      rfl
    · rw [get?, lookup_set, if_pos rfl]
  | cons name home ih =>
    obtain ⟨origin, inner, hlookup, horigin, hinner⟩ := h
    rw [get?_cons, hlookup] at hfree
    obtain ⟨inner', hinner', hforget, hget⟩ := ih hinner hfree
    refine ⟨set name (.table origin inner') entries, ?_, ?_, ?_⟩
    · rw [enterWith_of_lookup hlookup horigin, hinner']
      rfl
    · rw [forget_set_cons, Value.mapTable, hforget]
      exact set_eq_self (by rw [lookup_forget_cons, hlookup]; rfl)
    · rw [get?_cons, lookup_set, if_pos rfl]
      exact hget

theorem head_eq_some {current : Option Value} {value : Value} (h : head current = some value) :
    ∃ inner, value = .table .headed inner := by
  cases current with
  | none => exact ⟨[], (Option.some.inj h).symm⟩
  | some current =>
    cases current with
    | table origin inner =>
      cases origin with
      | implied => exact ⟨inner, (Option.some.inj h).symm⟩
      | dotted | headed | inline => cases h
    | string | integer | float | boolean | datetime | array | tables => cases h

/-- **A header opens its table**, if only tables are on the way. -/
theorem reaches_openTable {path : List String} {name key : String} {entries changed : Entries}
    (hchanged : openTable path name entries = some changed)
    (hway : (get? (path ++ [name]) key entries).isSome) : Reaches (path ++ [name]) changed := by
  rw [openTable_eq] at hchanged
  induction path generalizing entries changed with
  | nil =>
    obtain ⟨value, hvalue, rfl⟩ := Option.map_eq_some_iff.mp hchanged
    obtain ⟨inner, rfl⟩ := head_eq_some hvalue
    exact ⟨.headed, inner, by rw [lookup_set, if_pos rfl], nofun, trivial⟩
  | cons first path ih =>
    rw [enterWith_cons] at hchanged
    obtain ⟨value, hvalue, rfl⟩ := Option.map_eq_some_iff.mp hchanged
    rw [List.cons_append, get?_cons] at hway
    -- a new table and one that is there are entered in the same way
    have hinside {origin : Origin} {before : Entries} (hbefore : (get? (path ++ [name]) key before).isSome)
        (h : ((if origin = .inline then fun _ => none else enterWith (alter name head) path) before).map
          (Value.table origin) = some value) :
        Reaches (first :: (path ++ [name])) (set first value entries) := by
      obtain ⟨inner, hinner, rfl⟩ := Option.map_eq_some_iff.mp h
      split at hinner
      · cases hinner
      · next horigin =>
        exact ⟨origin, inner, by rw [lookup_set, if_pos rfl], horigin, ih hinner hbefore⟩
    cases hlookup : entries.lookup first with
    | none =>
      rw [hlookup] at hvalue
      exact hinside (by rw [get?_empty]; rfl) hvalue
    | some current =>
      rw [hlookup] at hvalue hway
      cases current with
      | table origin before => exact hinside hway hvalue
      | string | integer | float | boolean | datetime | array | tables => cases hway

end Entries

end LoxTools.Toml
