import Mathlib.Algebra.Order.Field.Basic
import Mathlib.Algebra.Order.Ring.Rat
import ContainerNet.Binary.Format

/-!
# The numbers that patterns stand for

A finite pattern stands for a rational number, so what is decided on patterns can be said of
numbers. `isWithin_iff` does so for bounds: what is found within them is a number there, and neither
an infinity nor what is no number. The two zeros stand for the same number, and the lower bound is
zero, so the one with a sign is the only pattern with a sign that is within bounds.

Comparing patterns is comparing whole numbers: the size of a finite pattern is a whole number of the
smallest units, and a bound is multiplied by as many of them as make up one (`size_le_iff`).
-/

namespace ContainerNet.Binary.Number

variable {f : Format} {x : Number f} {n : Nat}

/-- How far a finite number is from zero. -/
def size (x : Number f) : ℚ := x.units / 2 ^ f.scale

/-- The number that a pattern stands for, if it is finite. -/
def value? (x : Number f) : Option ℚ :=
  if x.isFinite then some (if x.negative then -x.size else x.size) else none

theorem units_eq_zero_iff : x.units = 0 ↔ x.magnitude = 0 := by
  have hpos : 0 < Nat.pow 2 f.fractionBits := Nat.pow_pos (by decide)
  rw [units, significand]
  rcases he : x.magnitude / Nat.pow 2 f.fractionBits with _ | e
  · have hlt : x.magnitude < Nat.pow 2 f.fractionBits := (Nat.div_eq_zero_iff_lt hpos).mp he
    rw [Nat.mod_eq_of_lt hlt]
    exact Nat.mul_eq_zero.trans (or_iff_left Nat.one_ne_zero)
  · have hmagnitude : x.magnitude ≠ 0 := by
      intro h
      rw [h, Nat.zero_div] at he
      exact absurd he (Nat.succ_ne_zero e).symm
    have hshift : 0 < Nat.pow 2 e := Nat.pow_pos (by decide)
    refine iff_of_false (Nat.mul_ne_zero ?_ hshift.ne') hmagnitude
    omega

theorem size_nonneg (x : Number f) : 0 ≤ x.size :=
  div_nonneg (Nat.cast_nonneg _) (pow_nonneg two_pos.le _)

theorem size_le_iff : x.size ≤ n ↔ x.units ≤ n * Nat.pow 2 f.scale := by
  rw [size, div_le_iff₀ (pow_pos two_pos _)]
  exact_mod_cast Iff.rfl

theorem size_eq_zero_iff : x.size = 0 ↔ x.magnitude = 0 := by
  rw [size, div_eq_zero_iff, or_iff_left (pow_ne_zero _ two_ne_zero), Nat.cast_eq_zero,
    units_eq_zero_iff]

theorem isWithin_iff (hf : 0 < f.infinity) :
    x.isWithin n = true ↔ ∃ q, x.value? = some q ∧ 0 ≤ q ∧ q ≤ n := by
  by_cases hfinite : x.magnitude < f.infinity
  · have hvalue : x.value? = some (if x.negative then -x.size else x.size) :=
      if_pos (decide_eq_true hfinite)
    have hwithin : x.isWithin n = true ↔ x.size = 0 ∨ (x.negative = false ∧ x.size ≤ n) := by
      simp [isWithin, isNaN, isFinite, hfinite, hfinite.le, size_eq_zero_iff, size_le_iff]
    rw [hwithin, hvalue]
    simp only [Option.some.injEq, exists_eq_left']
    have hsize := x.size_nonneg
    cases x.negative with
    | false =>
      rw [if_neg Bool.false_ne_true]
      constructor
      · rintro (hzero | ⟨-, hle⟩)
        · exact ⟨hsize, hzero.trans_le (Nat.cast_nonneg n)⟩
        · exact ⟨hsize, hle⟩
      · exact fun h ↦ .inr ⟨rfl, h.2⟩
    | true =>
      -- with the sign there is nothing but the other zero
      rw [if_pos rfl]
      constructor
      · rintro (hzero | ⟨hsign, -⟩)
        · rw [hzero, neg_zero]
          exact ⟨le_refl 0, Nat.cast_nonneg n⟩
        · exact absurd hsign.symm Bool.false_ne_true
      · exact fun h ↦ .inl (le_antisymm (neg_nonneg.mp h.1) hsize)
  · have hfalse : x.isFinite = false := decide_eq_false hfinite
    have hne : x.magnitude ≠ 0 := by omega
    have hvalue : x.value? = none := if_neg (by rw [hfalse]; exact Bool.false_ne_true)
    simp [isWithin, hfalse, hne, hvalue]

end ContainerNet.Binary.Number
