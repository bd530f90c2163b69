import LoxTools.Number.Shortest
import Mathlib.Algebra.Order.Field.Power
import Mathlib.Data.Rat.Cast.Order
import Mathlib.Tactic.LinearCombination
import Mathlib.Tactic.Positivity
import Mathlib.Tactic.Ring

/-!
# Shortest decimals read back

The search for a shortest decimal finds one, and what it finds rounds to one number only.

* `Decimal.value` and `RoundingInterval.Has` — decimals and intervals as rationals;
* `RoundingInterval.search_has` — a search that comes to a grid no coarser than a quarter of the last
  place ends inside the interval, and `Binary64.IsNonzero.last_grid`: with twenty-four grids it does;
* `Binary64.Below.not_rounds` — the intervals of two numbers have nothing in common: of two neighbours
  one has an odd significand, and does not include its ends;
* `Binary64.Reads.eq` — so a decimal and a sign determine a finite number.
-/

namespace LoxTools

/-- The number that a decimal is. -/
def Decimal.value (d : Decimal) : ℚ := d.units * 10 ^ d.exponent

/-! ## Intervals of reals -/

namespace RoundingInterval

/-- Whether a number lies in an interval that is counted in steps of `2 ^ quarter`, with or without its
ends. -/
def Has (i : RoundingInterval) (quarter : ℤ) (v : ℚ) : Prop :=
  if i.closed then i.lower * 2 ^ quarter ≤ v ∧ v ≤ i.upper * 2 ^ quarter
  else i.lower * 2 ^ quarter < v ∧ v < i.upper * 2 ^ quarter

variable {i j : RoundingInterval} {quarter grid : ℤ}

theorem Has.le {v : ℚ} (h : i.Has quarter v) :
    i.lower * 2 ^ quarter ≤ v ∧ v ≤ i.upper * 2 ^ quarter := by
  rw [Has] at h
  split at h
  · exact h
  · exact ⟨h.1.le, h.2.le⟩

theorem Has.lt {v : ℚ} (h : i.Has quarter v) (hopen : i.closed = false) :
    i.lower * 2 ^ quarter < v ∧ v < i.upper * 2 ^ quarter := by
  rw [Has, hopen, if_neg Bool.false_ne_true] at h
  exact h

theorem power_pos {base : ℕ} (hbase : 0 < base) (n : ℤ) : 0 < power base n :=
  Nat.pow_pos hbase

/-- A power with a negative exponent is left out of natural numbers; multiplied with the power itself,
what is left out comes back. -/
theorem power_neg_mul {base : ℕ} (hbase : 0 < base) (n : ℤ) :
    (power base (-n) : ℚ) * base ^ n = power base n := by
  have hne : (base : ℚ) ≠ 0 := Nat.cast_ne_zero.mpr hbase.ne'
  have hpower (m : ℤ) : (power base m : ℚ) = (base : ℚ) ^ (m.toNat : ℤ) := by
    rw [zpow_natCast, ← Nat.cast_pow]
    rfl
  rw [hpower, hpower, ← zpow_add₀ hne]
  congr 1
  omega

/-- A quarter and a grid step have one common measure, in which each of them is a whole number. -/
theorem grid_steps (quarter grid : ℤ) :
    ((power 2 quarter * power 10 (-grid) : ℕ) : ℚ) * 10 ^ grid =
      (power 2 (-quarter) * power 10 grid : ℕ) * 2 ^ quarter := by
  have htwo : ((power 2 (-quarter) : ℕ) : ℚ) * 2 ^ quarter = power 2 quarter :=
    power_neg_mul (by decide) quarter
  have hten : ((power 10 (-grid) : ℕ) : ℚ) * 10 ^ grid = power 10 grid :=
    power_neg_mul (by decide) grid
  rw [Nat.cast_mul, Nat.cast_mul, ← htwo, ← hten]
  ring

theorem den_pos (quarter grid : ℤ) : 0 < power 2 (-quarter) * power 10 grid :=
  Nat.mul_pos (power_pos (by decide) _) (power_pos (by decide) _)

/-- Comparing with a grid point in grid steps or in quarters is the same, since both have this common
measure. -/
theorem scaled {num den : ℕ} {x y : ℚ} (hden : 0 < den) (hx : 0 < x) (h : num * x = den * y) (a t : ℕ) :
    (a * num ≤ t * den ↔ a * y ≤ t * x) ∧ (t * den ≤ a * num ↔ t * x ≤ a * y) := by
  have hden' : (0 : ℚ) < den := Nat.cast_pos.mpr hden
  have hleft : (a * num : ℕ) * x = a * y * den := by
    push_cast
    linear_combination a * h
  have hright : (t * den : ℕ) * x = t * x * den := by
    push_cast
    ring
  constructor
  · rw [← Nat.cast_le (α := ℚ), ← mul_le_mul_iff_left₀ hx, hleft, hright, mul_le_mul_iff_left₀ hden']
  · rw [← Nat.cast_le (α := ℚ), ← mul_le_mul_iff_left₀ hx, hleft, hright, mul_le_mul_iff_left₀ hden']

/-- **A grid point that holds lies in the interval**, as the rational number that it is. -/
theorem has_of_holds {t : ℕ} (h : i.holds (power 2 quarter * power 10 (-grid))
    (power 2 (-quarter) * power 10 grid) t = true) : i.Has quarter (Decimal.mk t grid).value := by
  have hscaled := scaled (den_pos quarter grid) (by positivity) (grid_steps quarter grid)
  rw [holds] at h
  rw [Has, Decimal.value]
  split at h
  · next hclosed =>
    rw [Bool.and_eq_true_iff, decide_eq_true_iff, decide_eq_true_iff] at h
    rw [if_pos hclosed]
    exact ⟨(hscaled i.lower t).1.mp h.1, (hscaled i.upper t).2.mp h.2⟩
  · next hopen =>
    rw [Bool.and_eq_true_iff, decide_eq_true_iff, decide_eq_true_iff, ← not_le, ← not_le] at h
    rw [if_neg hopen, ← not_le, ← not_le]
    exact ⟨fun hle => h.1 ((hscaled i.lower t).2.mpr hle), fun hle => h.2 ((hscaled i.upper t).1.mpr hle)⟩

variable {num den : ℕ}

/-- What is found on a grid holds there. -/
theorem holds_of_nearest? {t : ℕ} (h : i.nearest? num den = some t) : i.holds num den t = true := by
  simp only [nearest?] at h
  split at h
  · next hbelow =>
    split at h
    · next habove =>
      obtain rfl := Option.some.inj h
      exact (Bool.and_eq_true_iff.mp habove).1
    · obtain rfl := Option.some.inj h
      exact hbelow
  · split at h
    · next habove =>
      obtain rfl := Option.some.inj h
      exact habove
    · cases h

/-- **A grid no coarser than a quarter has a point inside**: the one next above the number. -/
theorem exists_nearest? (hden : 0 < den) (hfine : den ≤ num) (hlower : i.lower ≤ i.value)
    (hupper : i.value + 2 ≤ i.upper) : ∃ t, i.nearest? num den = some t := by
  have habove : i.holds num den (i.value * num / den + 1) = true := by
    have hnext : i.value * num < (i.value * num / den + 1) * den := by
      rw [Nat.add_one_mul]
      exact Nat.lt_div_mul_add hden
    have hstep : (i.value * num / den + 1) * den < i.upper * num := by
      calc (i.value * num / den + 1) * den
          ≤ i.value * num + num := by
            rw [Nat.add_one_mul]
            exact Nat.add_le_add (Nat.div_mul_le_self ..) hfine
        _ < (i.value + 2) * num := by
            rw [Nat.add_mul]
            omega
        _ ≤ i.upper * num := Nat.mul_le_mul_right num hupper
    have hbase : i.lower * num ≤ i.value * num := Nat.mul_le_mul_right num hlower
    have hlow : i.lower * num < (i.value * num / den + 1) * den := hbase.trans_lt hnext
    rw [holds]
    split
    · exact Bool.and_eq_true_iff.mpr ⟨decide_eq_true hlow.le, decide_eq_true hstep.le⟩
    · exact Bool.and_eq_true_iff.mpr ⟨decide_eq_true hlow, decide_eq_true hstep⟩
  simp only [nearest?, habove]
  split
  · split
    · exact ⟨_, rfl⟩
    · exact ⟨_, rfl⟩
  · exact ⟨_, rfl⟩

/-- A grid that is no coarser than a quarter is so in their common measure too. -/
theorem le_of_grid (h : (10 : ℚ) ^ (grid - (0 : ℕ)) ≤ 2 ^ quarter) :
    power 2 (-quarter) * power 10 grid ≤ power 2 quarter * power 10 (-grid) := by
  rw [Nat.cast_zero, sub_zero] at h
  have hscaled := (scaled (den_pos quarter grid) (by positivity) (grid_steps quarter grid) 1 1).2
  rw [Nat.cast_one, one_mul, one_mul, one_mul, one_mul] at hscaled
  exact hscaled.mpr h

/-- **What the search finds lies in the interval**, if one of its grids is fine enough. By induction on
the fuel, with the number of grids up to that one. -/
theorem search_has {fuel : ℕ} (steps : ℕ) (hsteps : steps < fuel)
    (hfine : (10 : ℚ) ^ (grid - steps) ≤ 2 ^ quarter) (hlower : i.lower ≤ i.value)
    (hupper : i.value + 2 ≤ i.upper) : i.Has quarter (i.search quarter fuel grid).value := by
  induction fuel generalizing grid steps with
  | zero => exact absurd hsteps (Nat.not_lt_zero steps)
  | succ fuel ih =>
    rw [search]
    split
    · next t hfound => exact has_of_holds (holds_of_nearest? hfound)
    · next hnone =>
      cases steps with
      | zero =>
        obtain ⟨t, hfound⟩ := exists_nearest? (den_pos quarter grid) (le_of_grid hfine) hlower hupper
        rw [hnone] at hfound
        cases hfound
      | succ steps =>
        refine ih steps (Nat.lt_of_succ_lt_succ hsteps) ?_
        rw [Nat.cast_succ, add_comm, ← sub_sub] at hfine
        exact hfine

end RoundingInterval

namespace Binary64

variable {x y : Binary64}

/-! ## Finite numbers -/

/-- A finite number other than zero. -/
structure IsNonzero (x : Binary64) : Prop where
  finite : x.biasedExponent < 2047
  nonzero : x.isZero = false

theorem fraction_lt (x : Binary64) : x.fraction < 2 ^ 52 :=
  Nat.mod_lt _ (by decide)

theorem significand_lt (x : Binary64) : x.significand < 2 ^ 53 := by
  have hfraction := x.fraction_lt
  rw [significand]
  split <;> omega

theorem IsNonzero.significand_pos (h : x.IsNonzero) : 0 < x.significand := by
  have hzero := h.nonzero
  rw [isZero] at hzero
  rw [significand]
  split
  · next hexponent =>
    rw [hexponent] at hzero
    have hfraction : x.fraction ≠ 0 := by simpa using hzero
    exact Nat.pos_of_ne_zero hfraction
  · exact Nat.add_pos_right _ (by decide)

/-- The exponent of a finite number lies between that of the smallest and that of the largest one. -/
theorem exponent_bounds (h : x.IsNonzero) : -1074 ≤ x.exponent ∧ x.exponent ≤ 971 := by
  have hfinite := h.finite
  rw [exponent]
  omega

/-- A power of ten is no more than a power of two if the exponents are on one side of `3 / 10` and of
`10 / 33`. -/
theorem ten_zpow_le {g n : ℤ} (hpos : 10 * g ≤ 3 * n) (hneg : 33 * g ≤ 10 * n) :
    (10 : ℚ) ^ g ≤ 2 ^ n := by
  rcases le_total 0 g with hg | hg
  · have hcube : ((10 : ℚ) ^ g) ^ 3 ≤ (2 ^ n) ^ 3 := by
      calc ((10 : ℚ) ^ g) ^ 3 = (10 ^ 3) ^ g := by
            rw [← zpow_natCast, zpow_comm, zpow_natCast]
        _ ≤ (2 ^ 10) ^ g := zpow_le_zpow_left₀ hg (by norm_num) (by norm_num)
        _ = 2 ^ (10 * g) := by rw [zpow_mul, zpow_ofNat]
        _ ≤ 2 ^ (n * 3) := zpow_le_zpow_right₀ (by norm_num) (by omega)
        _ = (2 ^ n) ^ 3 := by rw [zpow_mul, zpow_ofNat]
    exact le_of_pow_le_pow_left₀ (by decide) (by positivity) hcube
  · have htenth : ((2 : ℚ) ^ (-n)) ^ 10 ≤ (10 ^ (-g)) ^ 10 := by
      calc ((2 : ℚ) ^ (-n)) ^ 10 = 2 ^ (-n * 10) := by rw [zpow_mul, zpow_ofNat]
        _ ≤ 2 ^ (33 * -g) := zpow_le_zpow_right₀ (by norm_num) (by omega)
        _ = (2 ^ 33) ^ (-g) := by rw [zpow_mul, zpow_ofNat]
        _ ≤ (10 ^ 10) ^ (-g) := zpow_le_zpow_left₀ (by omega) (by norm_num) (by norm_num)
        _ = (10 ^ (-g)) ^ 10 := by
            rw [← zpow_natCast, zpow_comm, zpow_natCast]
    have hinverse := le_of_pow_le_pow_left₀ (by decide) (by positivity) htenth
    rw [zpow_neg, zpow_neg] at hinverse
    exact (inv_le_inv₀ (by positivity) (by positivity)).mp hinverse

/-- **The last grid of the search is fine enough** for every finite number. -/
theorem IsNonzero.last_grid (h : x.IsNonzero) :
    (10 : ℚ) ^ (x.coarseGrid - (23 : ℕ)) ≤ 2 ^ (x.exponent - 2) := by
  obtain ⟨hlow, hhigh⟩ := exponent_bounds h
  have hlog : x.significand.log2 < 53 :=
    (Nat.log2_lt h.significand_pos.ne').mpr x.significand_lt
  rw [coarseGrid]
  exact ten_zpow_le (by omega) (by omega)

/-! ## Numbers and their intervals -/

/-- The interval of a number begins no more than half of the last place below the number, and not above
it. -/
theorem lower_interval (x : Binary64) : 4 * x.significand - 2 ≤ x.interval.lower ∧
    x.interval.lower ≤ 4 * x.significand := by
  rw [interval]
  dsimp only
  split <;> omega

/-- Whether a decimal rounds to a number: it lies in the interval of the number. -/
def Rounds (x : Binary64) (v : ℚ) : Prop :=
  x.interval.Has (x.exponent - 2) v

/-- **The shortest decimal of a number rounds to it.** -/
theorem IsNonzero.rounds_shortest (h : x.IsNonzero) : x.Rounds x.shortest.value := by
  rw [shortest, if_neg (by rw [h.nonzero]; exact Bool.false_ne_true)]
  exact RoundingInterval.search_has 23 (by decide) h.last_grid x.lower_interval.2 le_rfl

/-- What rounds to a number other than zero is not zero itself. -/
theorem IsNonzero.pos_of_rounds (h : x.IsNonzero) {v : ℚ} (hv : x.Rounds v) : 0 < v := by
  have hlower : 0 < x.interval.lower := by
    have hlow := x.lower_interval.1
    have hpos := h.significand_pos
    omega
  have hstart : (0 : ℚ) < x.interval.lower * 2 ^ (x.exponent - 2) := by positivity
  exact hstart.trans_le hv.le.1

/-- Whether a number is below another one, among the finite numbers without their signs: it has a
smaller exponent, or a smaller significand with the same exponent. -/
def Below (x y : Binary64) : Prop :=
  x.exponent < y.exponent ∨ x.exponent = y.exponent ∧ x.significand < y.significand

/-- A number whose exponent is higher than that of another one has its leading bit, so its interval
begins high up. -/
theorem lower_of_exponent (h : x.exponent < y.exponent) : 2 ^ 54 - 1 ≤ y.interval.lower := by
  have hnormal : 1 < y.biasedExponent := by
    rw [exponent, exponent] at h
    omega
  have hsignificand : y.significand = y.fraction + 2 ^ 52 := if_neg (by omega)
  rw [interval]
  dsimp only
  split
  · omega
  · next hstart =>
    have hfraction : y.fraction ≠ 0 := by
      intro hzero
      exact hstart (by rw [isBinadeStart, hzero]; simpa using hnormal)
    omega

/-- **The interval of a number that is below ends where the other begins, or before**; where both have
their ends, it ends before. -/
theorem Below.upper_le (h : x.Below y) :
    (x.interval.upper : ℚ) * 2 ^ (x.exponent - 2) ≤ y.interval.lower * 2 ^ (y.exponent - 2) ∧
      (x.interval.closed = true → y.interval.closed = true →
        (x.interval.upper : ℚ) * 2 ^ (x.exponent - 2) < y.interval.lower * 2 ^ (y.exponent - 2)) := by
  have hupper : x.interval.upper = 4 * x.significand + 2 := rfl
  have heven (z : Binary64) (hclosed : z.interval.closed = true) : z.significand % 2 = 0 :=
    beq_iff_eq.mp hclosed
  rcases h with hexponent | ⟨hexponent, hsignificand⟩
  · have hlower := lower_of_exponent hexponent
    have hlt := x.significand_lt
    have hdouble : 2 * (2 : ℚ) ^ (x.exponent - 2) ≤ 2 ^ (y.exponent - 2) := by
      rw [← zpow_one_add₀ two_ne_zero]
      exact zpow_le_zpow_right₀ (by norm_num) (by omega)
    have hpos : (0 : ℚ) < 2 ^ (x.exponent - 2) := by positivity
    have hscale : (y.interval.lower * 2 : ℕ) * (2 : ℚ) ^ (x.exponent - 2) ≤
        y.interval.lower * 2 ^ (y.exponent - 2) := by
      rw [Nat.cast_mul, mul_assoc]
      exact mul_le_mul_of_nonneg_left hdouble (Nat.cast_nonneg _)
    refine ⟨le_trans ?_ hscale, fun hx _ => lt_of_lt_of_le ?_ hscale⟩
    · exact mul_le_mul_of_nonneg_right (Nat.cast_le.mpr (by omega)) hpos.le
    · have hx := heven x hx
      exact mul_lt_mul_of_pos_right (Nat.cast_lt.mpr (by omega)) hpos
  · have hlower := y.lower_interval.1
    have hpos : (0 : ℚ) < 2 ^ (y.exponent - 2) := by positivity
    rw [hexponent]
    refine ⟨?_, fun hx hy => ?_⟩
    · exact mul_le_mul_of_nonneg_right (Nat.cast_le.mpr (by omega)) hpos.le
    · have hx := heven x hx
      have hy := heven y hy
      exact mul_lt_mul_of_pos_right (Nat.cast_lt.mpr (by omega)) hpos

/-- **No decimal rounds to two numbers**, one of them below the other. -/
theorem Below.not_rounds (h : x.Below y) {v : ℚ} (hx : x.Rounds v) (hy : y.Rounds v) : False := by
  obtain ⟨hle, hlt⟩ := h.upper_le
  cases hxclosed : x.interval.closed with
  | false => exact absurd (hx.lt hxclosed).2 (not_lt.mpr (hle.trans hy.le.1))
  | true =>
    cases hyclosed : y.interval.closed with
    | false => exact absurd (hy.lt hyclosed).1 (not_lt.mpr (hx.le.2.trans hle))
    | true => exact absurd (hlt hxclosed hyclosed) (not_lt.mpr (hy.le.1.trans hx.le.2))

/-- A number is determined by its sign, its exponent bits and its fraction bits. -/
theorem ext_bits (hsign : x.isNegative = y.isNegative) (hexponent : x.biasedExponent = y.biasedExponent)
    (hfraction : x.fraction = y.fraction) : x = y := by
  have hbits : x.bits.toNat = y.bits.toNat := by
    have hx := x.bits.toNat_lt
    have hy := y.bits.toNat_lt
    simp only [isNegative, decide_eq_decide, Nat.shiftLeft_eq] at hsign
    simp only [biasedExponent, Nat.shiftLeft_eq] at hexponent
    simp only [fraction, Nat.shiftLeft_eq] at hfraction
    omega
  cases x
  cases y
  exact congrArg mk (UInt64.toNat_inj.mp hbits)

/-- A decimal and a sign determine the number that the decimal rounds to. -/
theorem eq_of_rounds {v : ℚ} (hsign : x.isNegative = y.isNegative) (hx : x.Rounds v) (hy : y.Rounds v) :
    x = y := by
  have hexponent : x.exponent = y.exponent := by
    rcases lt_trichotomy x.exponent y.exponent with hlt | heq | hgt
    · exact absurd hy (Below.not_rounds (.inl hlt) hx)
    · exact heq
    · exact absurd hx (Below.not_rounds (.inl hgt) hy)
  have hsignificand : x.significand = y.significand := by
    rcases lt_trichotomy x.significand y.significand with hlt | heq | hgt
    · exact absurd hy (Below.not_rounds (.inr ⟨hexponent, hlt⟩) hx)
    · exact heq
    · exact absurd hx (Below.not_rounds (.inr ⟨hexponent.symm, hgt⟩) hy)
  have hxfraction := x.fraction_lt
  have hyfraction := y.fraction_lt
  rw [exponent, exponent] at hexponent
  rw [significand, significand] at hsignificand
  have hbiased : x.biasedExponent = y.biasedExponent := by
    split at hsignificand <;> split at hsignificand <;> omega
  rw [hbiased] at hsignificand
  refine ext_bits hsign hbiased ?_
  split at hsignificand <;> omega

/-! ## Reading back -/

/-- What a decimal says about a finite number: it is zero with the number, and otherwise it rounds to
it. -/
def Reads (x : Binary64) (v : ℚ) : Prop :=
  x.isZero = true ∧ v = 0 ∨ x.IsNonzero ∧ x.Rounds v

/-- **The shortest decimal of a finite number says which one it is**, up to its sign. -/
theorem reads_shortest (hfinite : x.biasedExponent < 2047) : x.Reads x.shortest.value := by
  cases hzero : x.isZero with
  | true =>
    refine .inl ⟨hzero, ?_⟩
    rw [shortest, if_pos hzero, Decimal.value, Nat.cast_zero, zero_mul]
  | false =>
    have hnonzero : x.IsNonzero := ⟨hfinite, hzero⟩
    exact .inr ⟨hnonzero, hnonzero.rounds_shortest⟩

/-- A finite number is the only one of its sign that a decimal says. -/
theorem Reads.eq {v : ℚ} (hx : x.Reads v) (hy : y.Reads v) (hsign : x.isNegative = y.isNegative) :
    x = y := by
  rcases hx with ⟨hxzero, rfl⟩ | ⟨hxnonzero, hx⟩
  · rcases hy with ⟨hyzero, -⟩ | ⟨hynonzero, hy⟩
    · simp only [isZero, Bool.and_eq_true, beq_iff_eq] at hxzero hyzero
      exact ext_bits hsign (hxzero.1.trans hyzero.1.symm) (hxzero.2.trans hyzero.2.symm)
    · exact absurd (hynonzero.pos_of_rounds hy) (lt_irrefl 0)
  · rcases hy with ⟨-, rfl⟩ | ⟨-, hy⟩
    · exact absurd (hxnonzero.pos_of_rounds hx) (lt_irrefl 0)
    · exact eq_of_rounds hsign hx hy

end Binary64

end LoxTools
