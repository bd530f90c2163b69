import LoxTools.Proofs.TomlTables

/-!
# TOML documents, place by place

A document is read statement by statement. Here some places are singled out, none of them
below another, and two documents are compared: one with definitions at these places, and one
without them. The statements that spare the places (`Statement.Spares`) do the same to both
(`Differs.add`), and a definition at one of the places changes the first at this place only
(`Differs.define`).
-/

namespace LoxTools.Toml

/-! ## Places and statements -/

/-- A place for a value: the tables that lead to it, and its name in the last of them. -/
structure Place where
  /-- the names of the tables on the way -/
  home : List String
  /-- the name of the value -/
  key : String
  deriving DecidableEq

/-- All names that lead from the root to what stands at a place. -/
def Place.path (place : Place) : List String :=
  place.home ++ [place.key]

namespace Statement

/-- The names that lead from the root to what a statement defines or opens. A definition starts at the
table opened last, a header at the root. -/
def target (opened : List String) : Statement → List String
  | define path name _ => opened ++ (path ++ [name])
  | header path name => path ++ [name]
  | element path name => path ++ [name]

/-- Whether a statement opens a table by a header of its own, which is not repeated. -/
def isHeader : Statement → Bool
  | header _ _ => true
  | _ => false

/-- The path to the table opened last, behind a statement. -/
def opens (statement : Statement) (opened : List String) : List String :=
  match statement with
  | define _ _ _ => opened
  | header path name => path ++ [name]
  | element path name => path ++ [name]

/-- What a statement does to the whole table, if it is allowed there. -/
def change (opened : List String) : Statement → Entries → Option Entries
  | define path name value => Entries.enterWith (·.insert path name value) opened
  | header path name => Entries.openTable path name
  | element path name => Entries.openElement path name

/-- **A statement that spares a place**: it defines or opens nothing there or below, and nothing
on the way to it but a table with a header. -/
structure Spares (statement : Statement) (place : Place) (opened : List String) : Prop where
  /-- it works neither at the place nor below it -/
  apart : ¬ place.path <+: statement.target opened
  /-- on the way to the place it does nothing but open a table by a header -/
  clear : statement.target opened <+: place.path → statement.isHeader = true

instance (statement : Statement) (place : Place) (opened : List String) :
    Decidable (statement.Spares place opened) :=
  decidable_of_iff (¬ place.path <+: statement.target opened ∧
      (statement.target opened <+: place.path → statement.isHeader = true))
    ⟨fun h => ⟨h.1, h.2⟩, fun h => ⟨h.apart, h.clear⟩⟩

/-- Whether statements spare some places, one after the other. -/
def spareEach (places : List Place) : List String → List Statement → Bool
  | _, [] => true
  | opened, statement :: statements =>
    places.all (fun place => decide (statement.Spares place opened)) &&
      spareEach places (statement.opens opened) statements

/-- The path to the table opened last, behind some statements that are read one after the other. -/
def opensEach (opened : List String) (statements : List Statement) : List String :=
  statements.foldl (fun opened statement => statement.opens opened) opened

/-- **What a statement spares it leaves alone**, whatever stands there. -/
theorem Spares.leavesAlone {statement : Statement} {place : Place} {opened : List String}
    (h : statement.Spares place opened) :
    Entries.LeavesAlone place.home place.key (statement.change opened) := by
  cases statement with
  | define path name value =>
    have hclear : ¬ opened ++ (path ++ [name]) <+: place.path :=
      fun hfront => Bool.false_ne_true (h.clear hfront)
    refine Entries.leavesAlone_enterWith (fun below hbelow => ?_)
      fun hfront => h.apart (hfront.trans (List.prefix_append ..))
    have hpath : place.path = opened ++ (below ++ [place.key]) := by
      rw [Place.path, hbelow, List.append_assoc]
    refine Entries.leavesAlone_insert (fun hfront => h.apart ?_) fun hfront => hclear ?_
    · exact hpath ▸ (List.prefix_append_right_inj opened).mpr hfront
    · exact hpath ▸ (List.prefix_append_right_inj opened).mpr hfront
  | header path name => exact Entries.leavesAlone_openTable h.apart
  | element path name =>
    exact Entries.leavesAlone_openElement h.apart fun hfront => Bool.false_ne_true (h.clear hfront)

end Statement

namespace Entries

/-- The table without what stands at any of some places. -/
def forgetAll (places : List Place) (entries : Entries) : Entries :=
  places.foldl (fun entries place => forget place.home place.key entries) entries

/-- A change that leaves all of some places alone can be made before or after they are forgotten. -/
theorem forgetAll_change {places : List Place} {change : Entries → Option Entries}
    (h : ∀ place ∈ places, LeavesAlone place.home place.key change) (entries : Entries) :
    (change entries).map (forgetAll places) = change (forgetAll places entries) := by
  induction places generalizing entries with
  | nil => exact Option.map_id' ..
  | cons place places ih =>
    rw [List.forall_mem_cons] at h
    have hrest := ih h.2 (forget place.home place.key entries)
    rw [← h.1.forget_change, Option.map_map] at hrest
    exact hrest

/-- What stands at one of some places does not count when they are forgotten. -/
theorem forgetAll_congr {places : List Place} {place : Place} (hplace : place ∈ places)
    {entries others : Entries}
    (h : forget place.home place.key entries = forget place.home place.key others) :
    forgetAll places entries = forgetAll places others := by
  induction places generalizing entries others with
  | nil => cases hplace
  | cons first places ih =>
    rcases List.mem_cons.mp hplace with rfl | hplace
    · exact congrArg (forgetAll places) h
    · refine ih hplace ?_
      rw [forget_comm, h, forget_comm]

end Entries

/-! ## Documents -/

namespace Document

/-- A statement can be added to a document exactly if its change can be made to the root; then the table
is open that it opens. -/
theorem add_eq_some_iff {document next : Document} {statement : Statement} :
    document.add statement = some next ↔
      ∃ root, statement.change document.opened document.root = some root ∧
        ⟨root, statement.opens document.opened⟩ = next := by
  cases statement <;> exact Option.map_eq_some_iff

/-- **Two documents that differ at some places only**, where the second one has nothing: the same table
is open in both, and the places can be reached in the first one. -/
structure Differs (places : List Place) (document bare : Document) : Prop where
  /-- the same table is open -/
  opened : document.opened = bare.opened
  /-- apart from the places, the same values are defined -/
  root : Entries.forgetAll places document.root = bare.root
  /-- only tables are on the way to a place -/
  way : ∀ place ∈ places, (document.root.get? place.home place.key).isSome
  /-- a place in the table opened last can be defined there -/
  reaches : ∀ place ∈ places, document.opened = place.home → Entries.Reaches place.home document.root

variable {places : List Place} {document bare : Document}

/-- Two documents without statements differ at no places: nothing is defined, and the whole table is
open. -/
theorem differs_empty (places : List Place) : Differs places empty empty where
  opened := rfl
  root := by
    induction places with
    | nil => rfl
    | cons place places ih =>
      rw [Entries.forgetAll, List.foldl_cons]
      exact (congrArg (places.foldl _) (Entries.forget_empty ..)).trans ih
  way place _ := by
    rw [empty, Entries.get?_empty]
    rfl
  reaches place _ hopened := hopened ▸ trivial

/-- **A statement that spares the places** is possible in the first document where it is possible in the
second one. It keeps what stands at the places. -/
theorem Differs.add {statement : Statement} {bareNext : Document} (h : Differs places document bare)
    (hspares : ∀ place ∈ places, statement.Spares place document.opened)
    (hnext : bare.add statement = some bareNext) :
    ∃ next, document.add statement = some next ∧ Differs places next bareNext ∧
      ∀ place ∈ places, next.root.get? place.home place.key =
        document.root.get? place.home place.key := by
  obtain ⟨bareRoot, hbareRoot, rfl⟩ := add_eq_some_iff.mp hnext
  rw [← h.opened, ← h.root,
    ← Entries.forgetAll_change fun place hplace => (hspares place hplace).leavesAlone] at hbareRoot
  obtain ⟨root, hroot, rfl⟩ := Option.map_eq_some_iff.mp hbareRoot
  have hget (place : Place) (hplace : place ∈ places) :
      root.get? place.home place.key = document.root.get? place.home place.key :=
    (hspares place hplace).leavesAlone.get?_change _ _ hroot
  refine ⟨_, add_eq_some_iff.mpr ⟨root, hroot, rfl⟩, ⟨congrArg statement.opens h.opened, rfl, ?_, ?_⟩, hget⟩
  · intro place hplace
    exact (congrArg Option.isSome (hget place hplace)).trans (h.way place hplace)
  · intro place hplace hopened
    cases statement with
    | define path name value =>
      have hreaches : Entries.Reaches place.home document.root := h.reaches place hplace hopened
      exact hreaches.enterWith (hopened ▸ hroot)
    | header path name =>
      have hhome : path ++ [name] = place.home := hopened
      rw [← hhome]
      exact Entries.reaches_openTable hroot (hhome ▸ h.way place hplace)
    | element path name =>
      have hhome : path ++ [name] = place.home := hopened
      have hfront : path ++ [name] <+: place.path := hhome ▸ List.prefix_append ..
      exact absurd ((hspares place hplace).clear hfront) Bool.false_ne_true

/-- **A definition at one of the places** is possible if nothing stands there and its table is
open, and it makes no difference apart from the place. -/
theorem Differs.define {place : Place} (value : Value) (h : Differs places document bare)
    (hplace : place ∈ places) (hopened : document.opened = place.home)
    (hapart : ∀ other ∈ places, other ≠ place →
      ¬ other.path <+: place.path ∧ ¬ place.path <+: other.path)
    (hfree : document.root.get? place.home place.key = some none) :
    ∃ next, document.add (.define [] place.key value) = some next ∧ Differs places next bare ∧
      next.root.get? place.home place.key = some (some value) ∧
      ∀ other ∈ places, other ≠ place → next.root.get? other.home other.key =
        document.root.get? other.home other.key := by
  obtain ⟨root, hroot, hforget, hvalue⟩ :=
    Entries.exists_define value (h.reaches place hplace hopened) hfree
  have hget (other : Place) (hother : other ∈ places) (hne : other ≠ place) :
      root.get? other.home other.key = document.root.get? other.home other.key := by
    have hspares : (Statement.define [] place.key value).Spares other place.home :=
      ⟨(hapart other hother hne).1, fun hfront => absurd hfront (hapart other hother hne).2⟩
    exact hspares.leavesAlone.get?_change _ _ hroot
  refine ⟨⟨root, document.opened⟩, ?_, ⟨h.opened, ?_, ?_, ?_⟩, hvalue, hget⟩
  · exact add_eq_some_iff.mpr ⟨root, hopened ▸ hroot, rfl⟩
  · exact (Entries.forgetAll_congr hplace hforget).trans h.root
  · intro other hother
    by_cases hne : other = place
    · rw [hne, hvalue]
      rfl
    · rw [hget other hother hne]
      exact h.way other hother
  · intro other hother hhome
    have hsame : place.home = other.home := hopened.symm.trans hhome
    exact (h.reaches other hother hhome).enterWith (hsame ▸ hroot)

/-- Behind a statement that has been added the table is open that this statement opens. -/
theorem opened_of_add {next : Document} {statement : Statement} (h : document.add statement = some next) :
    next.opened = statement.opens document.opened := by
  obtain ⟨root, -, rfl⟩ := add_eq_some_iff.mp h
  rfl

/-- **Statements that spare the places** are possible in the first document, one after the other, where
they are possible in the second one. -/
theorem Differs.addEach {statements : List Statement} {bareNext : Document}
    (h : Differs places document bare)
    (hspares : Statement.spareEach places document.opened statements = true)
    (hnext : statements.foldlM Document.add bare = some bareNext) :
    ∃ next, statements.foldlM Document.add document = some next ∧ Differs places next bareNext ∧
      next.opened = Statement.opensEach document.opened statements ∧
      ∀ place ∈ places, next.root.get? place.home place.key =
        document.root.get? place.home place.key := by
  induction statements generalizing document bare with
  | nil =>
    obtain rfl := Option.some.inj hnext
    exact ⟨document, rfl, h, rfl, fun _ _ => rfl⟩
  | cons statement statements ih =>
    obtain ⟨hfirst, hothers⟩ := Bool.and_eq_true_iff.mp hspares
    obtain ⟨bareMiddle, hbareMiddle, hnext⟩ := Option.bind_eq_some_iff.mp hnext
    obtain ⟨middle, hmiddle, hdiffers, hget⟩ := h.add
      (fun place hplace => of_decide_eq_true (List.all_eq_true.mp hfirst place hplace)) hbareMiddle
    rw [← opened_of_add hmiddle] at hothers
    obtain ⟨next, hread, hdiffers', hopened, hget'⟩ := ih hdiffers hothers hnext
    refine ⟨next, ?_, hdiffers', ?_, fun place hplace => (hget' place hplace).trans (hget place hplace)⟩
    · rw [List.foldlM_cons, hmiddle]
      exact hread
    · rw [hopened, opened_of_add hmiddle]
      rfl

end Document

end LoxTools.Toml
