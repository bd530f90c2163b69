import LoxTools.Proofs.Automaton
import LoxTools.Proofs.Tokenisation
import LoxTools.Tool.Check

/-!
# What strict keywords change

Whether reserved words have to be whole words decides where tokens end, and nothing else. The two
scans of a source drift apart (`or1.5` begins with `or` or with `or1`, and its dot belongs to a
number or to none), so they are not compared token by token. Both are compared with the automaton,
which does not know of words:

* `Lexer.error_agrees` — the errors are the same;
* `Reading.toStrict` — the tokens are the same if every reserved word is a whole word;
* `Run.Alike` — runs that show the same but for token counts, closed under sequence;
* `strict_keywords_only_tokens` — what this means for scans and for checks.
-/

namespace LoxTools

/-! ## Errors -/

namespace Lexer

/-- Two scans of the same characters give the same error, if any. The automaton has no setting, so both
of them come to the end that it comes to. -/
theorem error_agrees {lexer other : Lexer} (hchars : lexer.chars = other.chars)
    {error : LexError} (h : lexer.scan = .error error) : other.scan = .error error := by
  have hverdict := lexer.scan_verdict
  have hother := other.scan_verdict
  have herrorAt : lexer.errorAt = other.errorAt := by
    funext fault line index
    rw [errorAt, errorAt, context, context, cursorAt, cursorAt, hchars]
  -- both verdicts are about one run of the automaton, so they are of one kind
  rw [← hchars] at hother
  rw [h] at hverdict
  generalize Walk.start.run lexer.chars.toList = ended at hverdict hother
  generalize other.scan = scanned at hother ⊢
  cases hverdict with
  | unterminated hmode =>
    cases hother with
    | accepted hidle =>
      rcases hidle with hcode | hcomment
      · cases hmode.symm.trans hcode
      · cases hmode.symm.trans hcomment
    | unterminated hagain =>
      rw [herrorAt, Mode.string.inj (hmode.symm.trans hagain)]
  | unexpected hfound =>
    cases hother with
    | unexpected hagain =>
      rw [hchars] at hfound
      rw [herrorAt, Option.some.inj (hfound.symm.trans hagain)]

/-- **Errors do not depend on strict keywords**: fault, line, context and position are the same. -/
theorem scan_error_iff {source : String} {error : LexError} :
    (ofString source true).scan = .error error ↔ (ofString source false).scan = .error error :=
  ⟨fun h => @error_agrees (ofString source true) (ofString source false) rfl error h,
    fun h => @error_agrees (ofString source false) (ofString source true) rfl error h⟩

end Lexer

/-! ## Tokens -/

/-- No reserved word among the tokens has an alphanumeric character right behind it. This is what strict
keywords demand, said of the tokens of any scan. -/
def WholeWords (source : List Char) (tokens : List Token) : Prop :=
  ∀ token ∈ tokens, token.kind.isKeyword = true →
    ∀ c, source[token.stop]? = some c → isAlphaNumeric c = false

/-- A lexeme that fits plainly fits strictly if it is a whole word, should it be a reserved one. A name
that begins with a reserved word cannot have fitted plainly. -/
theorem Lexeme.Fits.toStrict {lexeme : Lexeme} {after : List Char}
    (fits : lexeme.Fits false after)
    (hword : lexeme.kind.isKeyword = true → StopsBefore isAlphaNumeric after) :
    lexeme.Fits true after :=
  { fits with
    word_ends := fun _ => hword
    name_free := fun hname entry he heq => by
      have hfree := fits.name_free hname entry he
      rw [if_neg Bool.false_ne_true] at hfree
      exact hfree (heq ▸ List.prefix_rfl) }

/-- Pieces whose reserved words are whole words fit strictly. -/
theorem Piece.Fit.toStrict {source after : List Char} {pieces : List Piece} {start : Nat}
    (fit : Piece.Fit false pieces after) (h : source.drop start = Piece.spell pieces ++ after)
    (hwords : WholeWords source (Piece.tokens start pieces)) : Piece.Fit true pieces after := by
  induction pieces generalizing start with
  | nil => trivial
  | cons piece pieces ih =>
    obtain ⟨hgap, fits, fit⟩ := fit
    obtain ⟨-, -, htail⟩ := Piece.drop_cons h
    rw [Piece.tokens_cons] at hwords
    refine ⟨hgap, fits.toStrict fun hkind c hc => ?_, ih fit htail fun token htoken =>
      hwords token (List.mem_cons_of_mem _ htoken)⟩
    refine hwords _ (List.mem_cons_self ..) hkind c ?_
    rw [← List.head?_drop]
    exact (congrArg List.head? htail).trans hc

/-- A reading whose reserved words are whole words is a strict reading too. -/
def Reading.toStrict {source rest : List Char} (reading : Reading false source rest)
    (hwords : WholeWords source reading.tokens) : Reading true source rest where
  pieces := reading.pieces
  last := reading.last
  source_eq := reading.source_eq
  fit := @Piece.Fit.toStrict source _ _ 0 reading.fit reading.source_eq hwords
  last_gap := reading.last_gap

/-- A strict reading has whole words only. -/
theorem Reading.wholeWords {source rest : List Char} (reading : Reading true source rest) :
    WholeWords source reading.tokens := by
  intro token htoken hkind c hc
  rw [← List.head?_drop] at hc
  exact (reading.fits_token htoken).word_ends rfl hkind c hc

/-- **Both scans have the same tokens** where reserved words are whole words. A plain reading with whole
words is a strict one, and there is only one strict reading; conversely a strict reading has whole words
only. -/
theorem tokens_agree_iff {source : String} {plain strict : List Token}
    (hplain : (Lexer.ofString source false).scan = .ok plain)
    (hstrict : (Lexer.ofString source true).scan = .ok strict) :
    plain = strict ↔ WholeWords source.toList plain := by
  constructor
  · rintro rfl
    obtain ⟨reading, rfl⟩ := Lexer.exists_reading_of_ok hstrict
    exact reading.wholeWords
  · -- the plain reading is a strict one, and the strict scan has no other
    intro hwords
    obtain ⟨reading, rfl⟩ := Lexer.exists_reading_of_ok hplain
    have hscan := @Lexer.scan_eq_ok (Lexer.ofString source true) (reading.toStrict hwords)
    exact Except.ok.inj (hscan.symm.trans hstrict)

/-! ## Checks -/

/-- A scan by itself warns of nothing: none of its reports is a warning. -/
theorem Lexer.no_warning_of_mem_log {lexer : Lexer} {event : Log.Event} (h : event ∈ lexer.log) :
    event.level ≠ .warn := by
  have hreports : ∀ report ∈ reports, report.1 ≠ .warn := by decide
  exact hreports _ (mem_reports h)

theorem Lexer.warnings_log (lexer : Lexer) :
    lexer.log.filter (fun event => event.level = .warn) = [] := by
  refine List.filter_eq_nil_iff.mpr fun event hevent => ?_
  rw [decide_eq_true_eq]
  exact no_warning_of_mem_log hevent

/-- **Two outputs of a check that differ in token counts only**, entry by entry. The entries are written
out here as a check writes them. -/
inductive SameButCounts : String → String → Prop
  /-- two empty outputs -/
  | nil : SameButCounts "" ""
  /-- an entry of a file that scans in front of both, each with a number of tokens of its own -/
  | passed (name : String) (tokens others : Nat) {out other : String} : SameButCounts out other →
    SameButCounts ("ok " ++ name ++ " (" ++ toString tokens ++ " tokens)\n" ++ out)
      ("ok " ++ name ++ " (" ++ toString others ++ " tokens)\n" ++ other)
  /-- the same entry of a file that does not scan in front of both -/
  | failed (name : String) (error : LexError) {out other : String} : SameButCounts out other →
    SameButCounts (name ++ ": " ++ error.message ++ "\n" ++ out)
      (name ++ ": " ++ error.message ++ "\n" ++ other)

/-- Outputs that differ in token counts only are joined to such outputs. -/
theorem SameButCounts.append {out other more others : String} (h : SameButCounts out other)
    (hmore : SameButCounts more others) : SameButCounts (out ++ more) (other ++ others) := by
  induction h with
  | nil => rwa [String.empty_append, String.empty_append]
  | @passed name tokens counted out other _ ih =>
    rw [@String.append_assoc _ out more, @String.append_assoc _ other others]
    exact .passed name tokens counted ih
  | @failed name error out other _ ih =>
    rw [@String.append_assoc _ out more, @String.append_assoc _ other others]
    exact .failed name error ih

namespace Run

variable {α β : Type}

/-- The warnings of a run, in the order in which they were reported. -/
def warnings (run : Run α) : List Log.Event :=
  run.transcript.log.filter fun event => event.level = .warn

/-- **Two runs that show the same** but for token counts: they end alike, with the same warnings and the
same output entries. What they report besides may differ. -/
structure Alike (run other : Run α) : Prop where
  /-- how they end -/
  result : run.result = other.result
  /-- what they warn of -/
  warnings : run.warnings = other.warnings
  /-- what they write, token counts apart -/
  out : SameButCounts run.transcript.out other.transcript.out

theorem alike_ofExcept (outcome : Except ToolError α) :
    Alike (ofExcept outcome) (ofExcept outcome) := by
  cases outcome with
  | ok a => exact ⟨rfl, rfl, .nil⟩
  | error error => exact ⟨rfl, rfl, .nil⟩

theorem alike_report {events others : List Log.Event}
    (h : events.filter (fun event => event.level = .warn) =
      others.filter fun event => event.level = .warn) : Alike (report events) (report others) :=
  ⟨rfl, h, .nil⟩

/-- The warnings of a sequence are those of its parts. -/
theorem warnings_bind_ok (transcript : Transcript) (a : α) (next : α → Run β) :
    ((⟨transcript, .ok a⟩ : Run α) >>= next).warnings =
      (⟨transcript, .ok a⟩ : Run α).warnings ++ (next a).warnings :=
  List.filter_append ..

/-- **Sequence keeps runs alike**: it is enough to look at the parts. -/
theorem Alike.bind {first other : Run α} {next after : α → Run β} (h : Alike first other)
    (hnext : ∀ a, Alike (next a) (after a)) : Alike (first >>= next) (other >>= after) := by
  obtain ⟨shown, outcome⟩ := first
  obtain ⟨shown', outcome'⟩ := other
  obtain ⟨rfl, hwarnings, hout⟩ := h
  cases outcome with
  | error error => exact ⟨rfl, hwarnings, hout⟩
  | ok a =>
    obtain ⟨hresult, hmore, hrest⟩ := hnext a
    refine ⟨hresult, ?_, hout.append hrest⟩
    rw [warnings_bind_ok, warnings_bind_ok, hwarnings, hmore]

end Run

namespace CheckOptions

variable {verbose : Bool}

theorem alike_log (lexer other : Lexer) :
    Run.Alike (Run.report lexer.log) (Run.report other.log) :=
  Run.alike_report (lexer.warnings_log.trans other.warnings_log.symm)

/-- A source is checked alike in both settings, since it has the same error in both or none. -/
theorem alike_checkSource (source : Source) :
    Run.Alike ((CheckOptions.mk verbose true).checkSource source)
      ((CheckOptions.mk verbose false).checkSource source) := by
  refine (alike_log (Lexer.ofString source.text true) (Lexer.ofString source.text false)).bind
    fun _ => ?_
  rcases hstrict : (Lexer.ofString source.text true).scan with error | tokens
  · have hplain := Lexer.scan_error_iff.mp hstrict
    rw [Lexer.scan] at hstrict hplain
    simp only [hstrict, hplain]
    refine (Run.alike_report rfl).bind fun _ => ?_
    exact ⟨rfl, rfl, .failed source.name error .nil⟩
  · rcases hplain : (Lexer.ofString source.text false).scan with error | others
    · rw [Lexer.scan_error_iff.mpr hplain] at hstrict
      cases hstrict
    · rw [Lexer.scan] at hstrict hplain
      simp only [hstrict, hplain]
      exact ⟨rfl, rfl, .passed source.name tokens.length others.length .nil⟩

theorem alike_checkFile (inputs : Inputs) (path : String) :
    Run.Alike ((CheckOptions.mk verbose true).checkFile inputs path)
      ((CheckOptions.mk verbose false).checkFile inputs path) :=
  (Run.alike_ofExcept _).bind alike_checkSource

/-- All inputs are checked alike, by induction on the list of them. -/
theorem alike_checkEach (inputs : Inputs) (paths : List String) :
    Run.Alike ((CheckOptions.mk verbose true).checkEach inputs paths)
      ((CheckOptions.mk verbose false).checkEach inputs paths) := by
  induction paths generalizing inputs with
  | nil => exact ⟨rfl, rfl, .nil⟩
  | cons path paths ih =>
    refine (alike_checkFile inputs path).bind fun tally => ?_
    refine (ih (inputs.after path)).bind fun tallies => ?_
    exact ⟨rfl, rfl, .nil⟩

theorem alike_checkFiles (inputs : Inputs) (paths : List String) :
    Run.Alike ((CheckOptions.mk verbose true).checkFiles inputs paths)
      ((CheckOptions.mk verbose false).checkFiles inputs paths) := by
  refine (alike_checkEach inputs paths).bind fun tally => ?_
  refine (Run.alike_report rfl).bind fun _ => ?_
  exact ⟨rfl, rfl, .nil⟩

end CheckOptions

/-! ## Altogether -/

/-- **Strict keywords change tokens only**: with and without them a source has the same error, or
none. Without an error the tokens are the same if and only if no reserved word of the plain scan
has an alphanumeric character right behind it. Checks of any inputs end alike and show the same
but for token counts. -/
theorem strict_keywords_only_tokens (source : String) :
    (∀ error, (Lexer.ofString source true).scan = .error error ↔
      (Lexer.ofString source false).scan = .error error) ∧
    (∀ plain strict, (Lexer.ofString source false).scan = .ok plain →
      (Lexer.ofString source true).scan = .ok strict →
      (plain = strict ↔ WholeWords source.toList plain)) ∧
    ∀ verbose inputs paths,
      Run.Alike ((CheckOptions.mk verbose true).checkFiles inputs paths)
        ((CheckOptions.mk verbose false).checkFiles inputs paths) :=
  ⟨fun _ => Lexer.scan_error_iff, fun _ _ => tokens_agree_iff,
    fun _ => CheckOptions.alike_checkFiles⟩

/-- The scans of `or1.5` drift apart: its first token, plainly a reserved word, is not a whole
word, so a strict scan reads a longer name there and goes on with a dot. -/
theorem strict_keywords_drift :
    let plain : List Token := [⟨.orWord, none, 0, 2⟩, ⟨.number, some "1.5", 2, 3⟩]
    let strict : List Token :=
      [⟨.identifier, some "or1", 0, 3⟩, ⟨.dot, none, 3, 1⟩, ⟨.number, some "5", 4, 1⟩]
    (Lexer.ofString "or1.5" false).scan = .ok plain ∧ (Lexer.ofString "or1.5" true).scan = .ok strict ∧
      (plain = strict ↔ WholeWords "or1.5".toList plain) ∧ ¬ WholeWords "or1.5".toList plain := by
  intro plain strict
  have hplain : (Lexer.ofString "or1.5" false).scan = .ok plain := by rfl
  have hstrict : (Lexer.ofString "or1.5" true).scan = .ok strict := by rfl
  have hagree := (strict_keywords_only_tokens "or1.5").2.1 plain strict hplain hstrict
  have hdiffer : plain ≠ strict := by decide
  exact ⟨hplain, hstrict, hagree, fun hwords => hdiffer (hagree.mpr hwords)⟩

end LoxTools
