import LoxTools.Expr.Printer
import LoxTools.Proofs.NumberTexts

/-!
# Operator-first notation is unambiguous

A printed expression can be read in one way only, whatever stands behind it: a literal is a word, which
ends at a space or a closing parenthesis, and an application opens with a parenthesis, names its operator
and has a space before each operand.

* `EndsWord` — where the notation goes on behind a word;
* `Expr.Plain` — what is asked of the leaves;
* `Expr.operator?` and `Expr.operands` — an application as the notation sees it;
* `Expr.Settled` — the text of an expression settles it, with any text behind;
* `operator_first_unambiguous` — so no two expressions look the same.
-/

namespace LoxTools

/-! ## Words -/

/-- The end of a word: nothing follows, or something that no word contains. -/
abbrev EndsWord (rest : List Char) : Prop :=
  StopsBefore (!isMark ·) rest

/-- **A word ends in one place only**: texts that begin with words which end there begin with the same
one. -/
theorem IsWord.append_cancel {word other rest more : List Char} (hword : IsWord word)
    (hother : IsWord other) (hrest : EndsWord rest) (hmore : EndsWord more)
    (h : word ++ rest = other ++ more) : word = other ∧ rest = more :=
  hrest.append_cancel hmore (fun c hc => by rw [hword.2 c hc, Bool.not_false])
    (fun c hc => by rw [hother.2 c hc, Bool.not_false]) h

/-! ## Operators -/

theorem UnaryOp.spelling_injective {op other : UnaryOp} (h : op.spelling = other.spelling) :
    op = other := by
  revert h
  cases op <;> cases other <;> decide

theorem BinaryOp.spelling_injective {op other : BinaryOp} (h : op.spelling = other.spelling) :
    op = other := by
  revert h
  cases op <;> cases other <;> decide

/-! ## Leaves -/

namespace Expr

variable {number : Binary64 → String}

/-- **An expression with plain leaves**: its number literals are numbers, and its string literals are
words that no other literal has. -/
def Plain (number : Binary64 → String) : Expr → Prop
  | .number x => x.isNaN = false
  | .string text => IsWord text.toList ∧ text ∉ constantWords ∧
      ∀ x, x.isNaN = false → text ≠ number x
  | .bool _ => True
  | .nil => True
  | .group inner => inner.Plain number
  | .unary _ operand => operand.Plain number
  | .binary left _ right => left.Plain number ∧ right.Plain number

/-- Whether an expression is one of the two truth values or the absent value. -/
def isConstant : Expr → Bool
  | bool _ | nil => true
  | _ => false

/-- A constant is written as its own word, whatever the rendering of numbers is. -/
theorem renderWith_constant (number : Binary64 → String) {e : Expr} (h : e.isConstant = true) :
    e = bool true ∧ e.renderWith number = "true" ∨ e = bool false ∧ e.renderWith number = "false" ∨
      e = nil ∧ e.renderWith number = "nil" := by
  cases e with
  | bool value =>
    cases value with
    | true => exact Or.inl ⟨rfl, rfl⟩
    | false => exact Or.inr (Or.inl ⟨rfl, rfl⟩)
  | nil => exact Or.inr (Or.inr ⟨rfl, rfl⟩)
  | number | string | group | unary | binary => cases h

theorem constant_mem {e : Expr} (h : e.isConstant = true) : e.renderWith number ∈ constantWords := by
  rcases renderWith_constant number h with ⟨-, hword⟩ | ⟨-, hword⟩ | ⟨-, hword⟩
  all_goals rw [hword]; decide

theorem isWord_constant {word : String} (h : word ∈ constantWords) : IsWord word.toList := by
  revert word
  decide

/-- Constants that look the same are the same. -/
theorem constant_eq {e f : Expr} (he : e.isConstant = true) (hf : f.isConstant = true)
    (h : e.renderWith number = f.renderWith number) : e = f := by
  rcases renderWith_constant number he with ⟨rfl, he⟩ | ⟨rfl, he⟩ | ⟨rfl, he⟩
  all_goals
    rcases renderWith_constant number hf with ⟨rfl, hf⟩ | ⟨rfl, hf⟩ | ⟨rfl, hf⟩
    all_goals first
      | rfl
      | exact absurd (he.symm.trans (h.trans hf)) (by decide)

/-- Among plain literals only constants have the words of constants. -/
theorem Plain.isConstant_of_mem {e : Expr} (hnumber : TellsApart number) (h : e.Plain number)
    (hliteral : e.isLiteral = true) (hmem : e.renderWith number ∈ constantWords) :
    e.isConstant = true := by
  cases e with
  | number x => exact absurd hmem (hnumber.constant x h)
  | string text => exact absurd hmem h.2.1
  | bool | nil => rfl
  | group | unary | binary => cases hliteral

/-- A plain literal is written as a word. -/
theorem Plain.isWord {e : Expr} (hnumber : TellsApart number) (h : e.Plain number)
    (hliteral : e.isLiteral = true) : IsWord (e.renderWith number).toList := by
  cases e with
  | number x => exact hnumber.word x h
  | string text => exact h.1
  | bool | nil => exact isWord_constant (constant_mem rfl)
  | group | unary | binary => cases hliteral

/-- **Literals that look the same are the same**, since the words of numbers, of strings and of
constants are apart. -/
theorem Plain.literal_eq {e f : Expr} (hnumber : TellsApart number) (he : e.Plain number)
    (hf : f.Plain number) (heliteral : e.isLiteral = true) (hfliteral : f.isLiteral = true)
    (h : e.renderWith number = f.renderWith number) : e = f := by
  by_cases hconstant : e.isConstant = true
  · have hmem : f.renderWith number ∈ constantWords := h ▸ constant_mem hconstant
    exact constant_eq hconstant (hf.isConstant_of_mem hnumber hfliteral hmem) h
  by_cases hconstant' : f.isConstant = true
  · have hmem : e.renderWith number ∈ constantWords := h ▸ constant_mem hconstant'
    exact absurd (he.isConstant_of_mem hnumber heliteral hmem) hconstant
  -- what is left are numbers and strings
  cases e with
  | number x =>
    cases f with
    | number y => exact congrArg Expr.number (hnumber.injective x y he hf h)
    | string text => exact absurd h.symm (hf.2.2 x he)
    | bool | nil => exact absurd rfl hconstant'
    | group | unary | binary => cases hfliteral
  | string text =>
    cases f with
    | number y => exact absurd h (he.2.2 y hf)
    | string other => exact congrArg Expr.string h
    | bool | nil => exact absurd rfl hconstant'
    | group | unary | binary => cases hfliteral
  | bool | nil => exact absurd rfl hconstant
  | group | unary | binary => cases heliteral

/-! ## Applications -/

/-- The operator of an application, as it is written; a literal has none. -/
def operator? : Expr → Option String
  | .group _ => some "group"
  | .unary op _ => some op.spelling
  | .binary _ op _ => some op.spelling
  | _ => none

/-- What an operator is applied to, in order; a literal has no operands. -/
def operands : Expr → List Expr
  | .group inner => [inner]
  | .unary _ operand => [operand]
  | .binary left _ right => [left, right]
  | _ => []

/-- The text of an expression as a list of characters. -/
def letters (number : Binary64 → String) (e : Expr) : List Char :=
  (e.renderWith number).toList

/-- The text of some operands, each of them behind a space. -/
def spaced (number : Binary64 → String) (operands : List Expr) : List Char :=
  operands.flatMap fun operand => ' ' :: operand.letters number

theorem spaced_cons (operand : Expr) (operands : List Expr) :
    spaced number (operand :: operands) =
      ' ' :: (operand.letters number ++ spaced number operands) := rfl

/-- What is no literal is an application and has an operator. -/
theorem exists_operator {e : Expr} (h : e.isLiteral = false) : ∃ name, e.operator? = some name := by
  cases e with
  | group | unary | binary => exact ⟨_, rfl⟩
  | number | string | bool | nil => cases h

/-- The operator of an application is written as a word. -/
theorem isWord_operator {e : Expr} {name : String} (h : e.operator? = some name) :
    IsWord name.toList := by
  cases e with
  | group inner => obtain rfl := Option.some.inj h; decide
  | unary op operand => obtain rfl := Option.some.inj h; cases op <;> decide
  | binary left op right => obtain rfl := Option.some.inj h; cases op <;> decide
  | number | string | bool | nil => cases h

/-- **How an application is written**: in parentheses, with its operator in front and a space before
each of its operands. -/
theorem letters_application {e : Expr} {name : String} (h : e.operator? = some name) :
    e.letters number = '(' :: (name.toList ++ (spaced number e.operands ++ [')'])) := by
  cases e with
  | group inner =>
    obtain rfl := Option.some.inj h
    simp [letters, renderWith, spaced, operands]
  | unary op operand =>
    obtain rfl := Option.some.inj h
    simp [letters, renderWith, spaced, operands]
  | binary left op right =>
    obtain rfl := Option.some.inj h
    simp [letters, renderWith, spaced, operands]
  | number | string | bool | nil => cases h

/-- **An application is its operator and its operands.** One spelling may be that of two operators, but
then they have different numbers of operands. -/
theorem eq_of_operator_of_operands {e f : Expr} {name : String} (he : e.operator? = some name)
    (hf : f.operator? = some name) (h : e.operands = f.operands) : e = f := by
  have hname := he.trans hf.symm
  cases e with
  | group inner =>
    cases f with
    | group other => exact congrArg group (List.singleton_inj.mp h)
    | unary op operand => exact absurd (Option.some.inj hname) (by cases op <;> decide)
    | binary left op right => exact absurd (congrArg List.length h) (by simp [operands])
    | number | string | bool | nil => cases hf
  | unary op operand =>
    cases f with
    | group inner => exact absurd (Option.some.inj hname) (by cases op <;> decide)
    | unary op' operand' =>
      obtain rfl := UnaryOp.spelling_injective (Option.some.inj hname)
      exact congrArg (unary op) (List.singleton_inj.mp h)
    | binary left op' right => exact absurd (congrArg List.length h) (by simp [operands])
    | number | string | bool | nil => cases hf
  | binary left op right =>
    cases f with
    | group inner => exact absurd (congrArg List.length h) (by simp [operands])
    | unary op' operand => exact absurd (congrArg List.length h) (by simp [operands])
    | binary left' op' right' =>
      obtain rfl := BinaryOp.spelling_injective (Option.some.inj hname)
      obtain ⟨rfl, hright⟩ := List.cons.inj h
      exact congrArg (binary left op) (List.singleton_inj.mp hright)
    | number | string | bool | nil => cases hf
  | number | string | bool | nil => cases he

/-! ## One way to read -/

/-- **An expression is settled** by its text: whatever stands behind it and behind another expression,
if the whole is the same text, then both expressions are the same, and so is what stands behind. -/
def Settled (number : Binary64 → String) (e : Expr) : Prop :=
  ∀ (f : Expr) (rest more : List Char), f.Plain number → EndsWord rest → EndsWord more →
    e.letters number ++ rest = f.letters number ++ more → e = f ∧ rest = more

/-- A text that begins with a word does not begin like an application. -/
theorem IsWord.ne_application {word rest more : List Char} (hword : IsWord word) :
    word ++ rest ≠ '(' :: more := by
  intro h
  cases word with
  | nil => exact hword.1 rfl
  | cons c word =>
    obtain rfl : c = '(' := (List.cons.inj h).1
    exact absurd (hword.2 '(' (List.mem_cons_self ..)) (by decide)

/-- A plain literal does not look like an application. -/
theorem letters_ne_application {e : Expr} {rest more : List Char} (hnumber : TellsApart number)
    (he : e.Plain number) (hliteral : e.isLiteral = true) : e.letters number ++ rest ≠ '(' :: more :=
  IsWord.ne_application (he.isWord hnumber hliteral)

/-- A plain literal is settled, as its text is a word and ends where words end. -/
theorem settled_literal {e : Expr} (hnumber : TellsApart number) (he : e.Plain number)
    (hliteral : e.isLiteral = true) : e.Settled number := by
  intro f rest more hf hrest hmore h
  cases hfliteral : f.isLiteral with
  | true =>
    obtain ⟨htext, hrests⟩ :=
      (he.isWord hnumber hliteral).append_cancel (hf.isWord hnumber hfliteral) hrest hmore h
    exact ⟨he.literal_eq hnumber hf hliteral hfliteral (String.toList_injective htext), hrests⟩
  | false =>
    obtain ⟨name, hname⟩ := exists_operator hfliteral
    rw [letters_application hname] at h
    exact absurd h (letters_ne_application hnumber he hliteral)

/-- What stands behind an operand ends every word: the space before the next operand, or the closing
parenthesis. -/
theorem endsWord_spaced (operands : List Expr) (rest : List Char) :
    EndsWord (spaced number operands ++ ')' :: rest) := by
  cases operands with
  | nil => exact stopsBefore_cons.mpr rfl
  | cons operand operands => exact stopsBefore_cons.mpr rfl

/-- Operands that are settled are settled as a list: the closing parenthesis tells how many there are. -/
theorem spaced_cancel {operands others : List Expr} {rest more : List Char}
    (hsettled : ∀ operand ∈ operands, operand.Settled number)
    (hothers : ∀ other ∈ others, other.Plain number)
    (h : spaced number operands ++ ')' :: rest = spaced number others ++ ')' :: more) :
    operands = others ∧ rest = more := by
  induction operands generalizing others with
  | nil =>
    cases others with
    | nil => exact ⟨rfl, (List.cons.inj h).2⟩
    | cons other others => exact absurd (List.cons.inj h).1 (by decide)
  | cons operand operands ih =>
    cases others with
    | nil => exact absurd (List.cons.inj h).1 (by decide)
    | cons other others =>
      rw [List.forall_mem_cons] at hsettled hothers
      rw [spaced_cons, spaced_cons, List.cons_append, List.cons_append, List.append_assoc,
        List.append_assoc] at h
      obtain ⟨rfl, hmore⟩ := hsettled.1 other _ _ hothers.1 (endsWord_spaced _ _)
        (endsWord_spaced _ _) (List.cons.inj h).2
      obtain ⟨rfl, hrests⟩ := ih hsettled.2 hothers.2 hmore
      exact ⟨rfl, hrests⟩

/-- The operands of an expression with plain leaves have plain leaves. -/
theorem Plain.operands {e : Expr} (h : e.Plain number) : ∀ o ∈ e.operands, o.Plain number := by
  cases e with
  | group inner => exact List.forall_mem_singleton.mpr h
  | unary op operand => exact List.forall_mem_singleton.mpr h
  | binary left op right => exact List.forall_mem_cons.mpr ⟨h.1, List.forall_mem_singleton.mpr h.2⟩
  | number | string | bool | nil => nofun

/-- An application is settled if its operands are: the operator is a word, and then come the operands.
-/
theorem settled_application {e : Expr} {name : String} (hnumber : TellsApart number)
    (hname : e.operator? = some name) (hsettled : ∀ operand ∈ e.operands, operand.Settled number) :
    e.Settled number := by
  intro f rest more hf hrest hmore h
  cases hliteral : f.isLiteral with
  | true =>
    rw [letters_application hname] at h
    exact absurd h.symm (letters_ne_application hnumber hf hliteral)
  | false =>
    obtain ⟨other, hother⟩ := exists_operator hliteral
    rw [letters_application hname, letters_application hother] at h
    simp only [List.cons_append, List.append_assoc] at h
    obtain ⟨hnames, hoperands⟩ := (isWord_operator hname).append_cancel (isWord_operator hother)
      (endsWord_spaced _ _) (endsWord_spaced _ _) (List.cons.inj h).2
    obtain rfl := String.toList_injective hnames
    obtain ⟨hsame, hrests⟩ := spaced_cancel hsettled hf.operands hoperands
    exact ⟨eq_of_operator_of_operands hname hother hsame, hrests⟩

/-- **Every expression with plain leaves is settled.** By induction on the expression, with any text
behind it. -/
theorem Plain.settled {e : Expr} (hnumber : TellsApart number) (he : e.Plain number) :
    e.Settled number := by
  induction e with
  | number | string | bool | nil => exact settled_literal hnumber he rfl
  | group inner ih =>
    exact settled_application hnumber rfl (List.forall_mem_singleton.mpr (ih he))
  | unary op operand ih =>
    exact settled_application hnumber rfl (List.forall_mem_singleton.mpr (ih he))
  | binary left op right ihl ihr =>
    exact settled_application hnumber rfl
      (List.forall_mem_cons.mpr ⟨ihl he.1, List.forall_mem_singleton.mpr (ihr he.2)⟩)

end Expr

/-- **Operator-first notation is unambiguous**: with a rendering that tells numbers apart, expressions
with plain leaves that look the same are the same. -/
theorem operator_first_unambiguous (number : Binary64 → String) (hnumber : TellsApart number)
    (e f : Expr) (he : e.Plain number) (hf : f.Plain number)
    (h : e.renderWith number = f.renderWith number) : e = f := by
  have hend : EndsWord [] := stopsBefore_nil _
  have hletters : e.letters number ++ [] = f.letters number ++ [] := by
    rw [Expr.letters, Expr.letters, h]
  exact (he.settled hnumber f [] [] hf hend hend hletters).1

/-- A product with a negation, a negative number, a group and a string in it; its numbers are given once
by hexadecimal bits and once by decimal ones. -/
theorem operator_first_unambiguous_product :
    let e : Expr := .binary (.unary .negate (.number ⟨0x405ec00000000000⟩)) .multiply
      (.group (.binary (.number ⟨0xc046d5c28f5c28f6⟩) .subtract (.string "x")))
    let f : Expr := .binary (.unary .negate (.number ⟨4638355772470722560⟩)) .multiply
      (.group (.binary (.number ⟨13854996335257463030⟩) .subtract (.string "x")))
    TellsApart Binary64.render ∧ e.Plain Binary64.render ∧ f.Plain Binary64.render ∧
      e.renderWith Binary64.render = "(* (- 123) (group (- -45.67 x)))" ∧
      f.renderWith Binary64.render = "(* (- 123) (group (- -45.67 x)))" ∧ e = f := by
  intro e f
  have hstring : (Expr.string "x").Plain Binary64.render :=
    ⟨by decide, by decide, fun y hy => Binary64.ne_render (by decide) hy⟩
  have he : e.Plain Binary64.render := ⟨rfl, rfl, hstring⟩
  have hf : f.Plain Binary64.render := ⟨rfl, rfl, hstring⟩
  have hetext : e.renderWith Binary64.render = "(* (- 123) (group (- -45.67 x)))" := by decide +kernel
  have hftext : f.renderWith Binary64.render = "(* (- 123) (group (- -45.67 x)))" := by decide +kernel
  exact ⟨Binary64.tellsApart_render, he, hf, hetext, hftext,
    operator_first_unambiguous Binary64.render Binary64.tellsApart_render e f he hf
      (hetext.trans hftext.symm)⟩

end LoxTools
