import Mathlib.Algebra.Order.Field.Basic
import Mathlib.Algebra.Order.Field.Power
import Mathlib.Algebra.Order.Ring.Rat
import Mathlib.Order.Monotone.Basic
import Mathlib.Tactic.Linarith
import Mathlib.Tactic.Ring
import ContainerNet.Binary.Shortest

/-!
# What the texts of numbers tell apart

A positive number is written as the shortest decimal that rounds to it. `finite_injective` says
that no two numbers share a text: the text denotes the decimal, the decimal lies in the interval of
the number, and no two intervals have a point in common.

## Intervals

The interval of a number ends where that of the next one begins, also where the numbers become less
dense (`low_eq_high`). So two intervals share at most an end. It belongs to the one with the even
significand, and of two neighbours only one has that.

## The search

A decimal is looked for on grids that become finer. Once a grid is finer than the numbers are, one
of its points lies in the interval (`isSome_onGrid?`), and twenty grids are enough for that. There
the widths of the format come in.
-/

namespace ContainerNet.Binary

namespace Number

variable {f : Format} {x y : Number f}

/-! ## Neighbours -/

theorem significand_eq {e r : Nat} (hr : r < Nat.pow 2 f.fractionBits)
    (h : x.magnitude = Nat.pow 2 f.fractionBits * e + r) :
    x.significand = (if e = 0 then r else Nat.pow 2 f.fractionBits + r, e - 1) := by
  have hdiv : x.magnitude / Nat.pow 2 f.fractionBits = e := by
    rw [h, Nat.mul_add_div (Nat.zero_lt_of_lt hr), Nat.div_eq_of_lt hr, Nat.add_zero]
  have hmod : x.magnitude % Nat.pow 2 f.fractionBits = r := by
    rw [h, Nat.mul_add_mod, Nat.mod_eq_of_lt hr]
  rw [significand, hdiv, hmod]
  cases e <;> rfl

theorem exists_magnitude_eq (x : Number f) : ∃ e r, r < Nat.pow 2 f.fractionBits ∧
    x.magnitude = Nat.pow 2 f.fractionBits * e + r :=
  ⟨_, _, Nat.mod_lt _ (Nat.pow_pos (by decide)), (Nat.div_add_mod _ _).symm⟩

/-- A significand that is shifted has its leading bit. -/
theorem le_significand (hshift : 0 < x.significand.2) :
    Nat.pow 2 f.fractionBits ≤ x.significand.1 := by
  obtain ⟨e, r, hr, h⟩ := x.exists_magnitude_eq
  rw [significand_eq hr h] at hshift ⊢
  dsimp only at hshift ⊢
  rw [if_neg (by omega)]
  exact Nat.le_add_right _ _

theorem significand_lt : x.significand.1 < 2 * Nat.pow 2 f.fractionBits := by
  obtain ⟨e, r, hr, h⟩ := x.exists_magnitude_eq
  rw [significand_eq hr h]
  dsimp only
  split <;> omega

/-- The number behind has the next significand, or the least with a leading bit and the next
shift. -/
theorem significand_succ (h : y.magnitude = x.magnitude + 1) :
    y.significand = (x.significand.1 + 1, x.significand.2) ∨
      x.significand.1 + 1 = 2 * Nat.pow 2 f.fractionBits ∧
        y.significand = (Nat.pow 2 f.fractionBits, x.significand.2 + 1) := by
  obtain ⟨e, r, hr, hx⟩ := x.exists_magnitude_eq
  rw [significand_eq hr hx]
  by_cases hcarry : r + 1 < Nat.pow 2 f.fractionBits
  · rw [significand_eq hcarry (h.trans (congrArg Nat.succ hx))]
    refine .inl (Prod.ext ?_ rfl)
    dsimp only
    split <;> rfl
  · have hzero : 0 < Nat.pow 2 f.fractionBits := Nat.zero_lt_of_lt hr
    have hy : y.magnitude = Nat.pow 2 f.fractionBits * (e + 1) + 0 := by
      rw [h, hx, Nat.mul_succ]
      omega
    rw [significand_eq hzero hy, if_neg (Nat.succ_ne_zero e)]
    rcases e with _ | e
    · exact .inl (Prod.ext (show _ = r + 1 by omega) rfl)
    · exact .inr ⟨show Nat.pow 2 f.fractionBits + r + 1 = _ by omega, rfl⟩

theorem significand_mod_two (hf : 0 < f.fractionBits) :
    x.significand.1 % 2 = x.magnitude % 2 := by
  obtain ⟨e, r, hr, h⟩ := x.exists_magnitude_eq
  obtain ⟨half, hhalf⟩ : ∃ half, Nat.pow 2 f.fractionBits = 2 * half :=
    ⟨2 ^ (f.fractionBits - 1), by rw [Nat.pow_eq, mul_comm, pow_sub_one_mul hf.ne']⟩
  rw [significand_eq hr h, h, hhalf, Nat.mul_assoc, Nat.mul_add_mod]
  dsimp only
  split
  · rfl
  · rw [Nat.mul_add_mod]

theorem significand_ne_zero (h : x.magnitude ≠ 0) : x.significand.1 ≠ 0 := by
  obtain ⟨e, r, hr, hx⟩ := x.exists_magnitude_eq
  rw [significand_eq hr hx]
  rw [hx] at h
  dsimp only
  split
  next he =>
    rintro rfl
    exact h (by rw [he, Nat.mul_zero])
  next => omega

/-! ## Intervals -/

theorem interval_value : x.interval.value = 4 * x.significand.1 * Nat.pow 2 x.significand.2 := rfl

theorem interval_high :
    x.interval.high = (4 * x.significand.1 + 2) * Nat.pow 2 x.significand.2 := rfl

theorem interval_closed : x.interval.closed = (x.significand.1 % 2 == 0) := rfl

theorem low_eq_high (h : y.magnitude = x.magnitude + 1) : y.interval.low = x.interval.high := by
  rw [interval_high, interval]
  rcases significand_succ h with hnext | ⟨hlast, hnext⟩
  · have hthin : ¬(y.significand.1 == Nat.pow 2 f.fractionBits && 0 < y.significand.2) = true := by
      rw [hnext]
      intro hboth
      simp only [Bool.and_eq_true, beq_iff_eq, decide_eq_true_eq] at hboth
      have := le_significand hboth.2
      omega
    dsimp only
    rw [if_neg hthin, hnext]
    congr 1
  · dsimp only
    rw [hnext, if_pos (by simp),
      show 4 * x.significand.1 + 2 = (4 * Nat.pow 2 f.fractionBits - 1) * 2 by omega]
    rw [Nat.mul_assoc, Nat.mul_comm 2]
    rfl

theorem low_add_le (h : x.magnitude ≠ 0) :
    x.interval.low + Nat.pow 2 x.significand.2 ≤ x.interval.value := by
  have hpos := significand_ne_zero h
  rw [interval_value, interval]
  dsimp only
  rw [← Nat.succ_mul]
  refine Nat.mul_le_mul_right _ ?_
  split <;> omega

theorem value_add_le : x.interval.value + Nat.pow 2 x.significand.2 ≤ x.interval.high := by
  rw [interval_value, interval_high, ← Nat.succ_mul]
  exact Nat.mul_le_mul_right _ (by omega)

theorem low_lt_high (x : Number f) : x.interval.low < x.interval.high := by
  rw [interval_high, interval]
  refine Nat.mul_lt_mul_of_pos_right ?_ (Nat.pow_pos (by decide))
  split <;> omega

/-- Where the interval of a magnitude begins. -/
def lowOf (f : Format) (n : Nat) : Nat := (⟨false, n⟩ : Number f).interval.low

theorem high_eq_lowOf (x : Number f) : x.interval.high = lowOf f (x.magnitude + 1) :=
  (low_eq_high (x := x) (y := ⟨false, x.magnitude + 1⟩) rfl).symm

theorem strictMono_lowOf : StrictMono (lowOf f) :=
  strictMono_nat_of_lt_succ fun n ↦
    (low_lt_high ⟨false, n⟩).trans_eq (high_eq_lowOf ⟨false, n⟩)

/-- Whether a rational number, counted in quarters of the least positive number, lies in an
interval. -/
def Interval.Mem (i : Interval) (q : ℚ) : Prop :=
  if i.closed then i.low ≤ q ∧ q ≤ i.high else i.low < q ∧ q < i.high

theorem Interval.Mem.low_le {i : Interval} {q : ℚ} (h : i.Mem q) : i.low ≤ q := by
  rw [Mem] at h
  split at h
  exacts [h.1, h.1.le]

theorem Interval.Mem.le_high {i : Interval} {q : ℚ} (h : i.Mem q) : q ≤ i.high := by
  rw [Mem] at h
  split at h
  exacts [h.2, h.2.le]

/-- Two intervals have at most an end in common, and then it belongs to one of them only. -/
theorem magnitude_le_of_mem (hf : 0 < f.fractionBits) {q : ℚ} (hx : x.interval.Mem q)
    (hy : y.interval.Mem q) : y.magnitude ≤ x.magnitude := by
  by_contra hlt
  have hends : lowOf f y.magnitude ≤ lowOf f (x.magnitude + 1) := by
    have hle : (y.interval.low : ℚ) ≤ x.interval.high := hy.low_le.trans hx.le_high
    rw [← high_eq_lowOf]
    exact_mod_cast hle
  have hnext : y.magnitude = x.magnitude + 1 :=
    le_antisymm (strictMono_lowOf.le_iff_le.mp hends) (Nat.lt_of_not_le hlt)
  have hend : q = x.interval.high :=
    le_antisymm hx.le_high (low_eq_high hnext ▸ hy.low_le)
  have heven (z : Number f) (hz : z.interval.Mem q)
      (hend : q = z.interval.low ∨ q = z.interval.high) : z.magnitude % 2 = 0 := by
    rw [Interval.Mem] at hz
    split at hz
    next hclosed => rwa [interval_closed, beq_iff_eq, significand_mod_two hf] at hclosed
    next =>
      rcases hend with rfl | rfl
      exacts [absurd hz.1 (lt_irrefl _), absurd hz.2 (lt_irrefl _)]
  have hxeven := heven x hx (.inr hend)
  have hyeven := heven y hy (.inl (low_eq_high hnext ▸ hend))
  omega

end Number

/-! ## Decimals -/

/-- The number that a decimal stands for. -/
def Decimal.value (d : Decimal) : ℚ := d.digits * 10 ^ d.exponent

theorem scaleTen_snd_pos (n : Nat) (e : Int) : 0 < (scaleTen n e).2 := by
  rw [scaleTen]
  split
  exacts [Nat.one_pos, Nat.pow_pos (by decide)]

theorem scaleTen_eq (n : Nat) (e : Int) :
    ((scaleTen n e).1 : ℚ) = n * 10 ^ e * (scaleTen n e).2 := by
  rw [scaleTen]
  split
  next he =>
    obtain ⟨k, rfl⟩ := Int.eq_ofNat_of_zero_le he
    simp
  next he =>
    obtain ⟨k, hk⟩ := Int.eq_ofNat_of_zero_le (show 0 ≤ -e by omega)
    obtain rfl : e = -k := by omega
    simp

theorem scaleTen_eq_mul (n : Nat) (e : Int) :
    scaleTen n e = (n * (scaleTen 1 e).1, (scaleTen 1 e).2) := by
  rw [scaleTen, scaleTen]
  split <;> simp

namespace Number

variable {f : Format} {x y : Number f} {i : Interval} {tie : Tie} {e : Int}

theorem Interval.holds_iff {n : Nat} :
    i.holds f n e = true ↔ i.Mem (4 * 2 ^ f.scale * (n * 10 ^ e)) := by
  have hq : (0 : ℚ) < (scaleTen n e).2 := Nat.cast_pos.mpr (scaleTen_snd_pos n e)
  have hpoint : (((scaleTen n e).1 * 4 * Nat.pow 2 f.scale : Nat) : ℚ) =
      4 * 2 ^ f.scale * (n * 10 ^ e) * (scaleTen n e).2 := by
    rw [Nat.pow_eq]
    push_cast
    rw [scaleTen_eq]
    ring
  have hle {a b : Nat} : a ≤ b ↔ (a : ℚ) ≤ b := Nat.cast_le.symm
  have hlt {a b : Nat} : a < b ↔ (a : ℚ) < b := Nat.cast_lt.symm
  rw [holds, Mem]
  dsimp only
  split
  · rw [Bool.and_eq_true, decide_eq_true_iff, decide_eq_true_iff, hle, hle, hpoint, Nat.cast_mul,
      Nat.cast_mul, mul_le_mul_iff_left₀ hq, mul_le_mul_iff_left₀ hq]
  · rw [Bool.and_eq_true, decide_eq_true_iff, decide_eq_true_iff, hlt, hlt, hpoint, Nat.cast_mul,
      Nat.cast_mul, mul_lt_mul_iff_left₀ hq, mul_lt_mul_iff_left₀ hq]

theorem Interval.mem_of_onGrid? {d : Decimal} (h : i.onGrid? f tie e = some d) :
    d.digits ≠ 0 ∧ i.Mem (4 * 2 ^ f.scale * d.value) := by
  have hit {n : Nat} (hn : (n != 0 && i.holds f n e) = true) :
      n ≠ 0 ∧ i.Mem (4 * 2 ^ f.scale * (n * 10 ^ e)) := by
    rwa [Bool.and_eq_true, bne_iff_ne, holds_iff] at hn
  simp only [onGrid?] at h
  split at h
  next hnearest =>
    obtain rfl := Option.some.inj h
    exact hit hnearest
  next =>
    rw [Option.ite_none_right_eq_some] at h
    obtain rfl := Option.some.inj h.2
    exact hit h.1

theorem Interval.exists_onGrid?_eq_search {fuel : Nat}
    (h : ∃ j < fuel, (i.onGrid? f tie (e - j)).isSome) :
    ∃ e', i.onGrid? f tie e' = some (i.search f tie e fuel) := by
  induction fuel generalizing e with
  | zero =>
    obtain ⟨j, hj, -⟩ := h
    exact absurd hj (Nat.not_lt_zero j)
  | succ fuel ih =>
    rw [search]
    split
    next d hd => exact ⟨e, hd⟩
    next hnone =>
      obtain ⟨j, hj, hsome⟩ := h
      rcases j with _ | j
      · simp [hnone] at hsome
      · refine ih ⟨j, Nat.lt_of_succ_lt_succ hj, ?_⟩
        rwa [show e - 1 - (j : Int) = e - (j + 1 : Nat) by omega]

theorem roundQuotient_near (tie : Tie) (num : Nat) {den : Nat} (hden : 0 < den) :
    2 * num ≤ 2 * (roundQuotient tie num den * den) + den ∧
      2 * (roundQuotient tie num den * den) ≤ 2 * num + den := by
  have hsplit : num / den * den + num % den = num := Nat.div_add_mod' num den
  have hrest := Nat.mod_lt num hden
  have hsucc : (num / den + 1) * den = num / den * den + den := Nat.succ_mul _ _
  have heven : num / den % 2 * den = 0 ∨ num / den % 2 * den = den := by
    rcases Nat.mod_two_eq_zero_or_one (num / den) with h | h <;> simp [h]
  unfold roundQuotient
  dsimp only
  split
  next => omega
  next hle =>
    split
    next => omega
    next hge =>
      cases tie with
      | up => dsimp only; omega
      | toEven =>
        dsimp only
        rw [Nat.add_mul]
        omega

theorem Interval.holds_of_lt {n : Nat}
    (hlow : i.low * (scaleTen 1 e).2 < n * (4 * Nat.pow 2 f.scale * (scaleTen 1 e).1))
    (hhigh : n * (4 * Nat.pow 2 f.scale * (scaleTen 1 e).1) < i.high * (scaleTen 1 e).2) :
    i.holds f n e = true := by
  have hpoint : n * (4 * Nat.pow 2 f.scale * (scaleTen 1 e).1) =
      n * (scaleTen 1 e).1 * 4 * Nat.pow 2 f.scale := by ring
  rw [hpoint] at hlow hhigh
  rw [holds, scaleTen_eq_mul]
  dsimp only
  split
  · exact Bool.and_eq_true_iff.mpr ⟨decide_eq_true hlow.le, decide_eq_true hhigh.le⟩
  · exact Bool.and_eq_true_iff.mpr ⟨decide_eq_true hlow, decide_eq_true hhigh⟩

/-- A grid that is fine enough meets the interval. -/
theorem isSome_onGrid? (hx : x.magnitude ≠ 0)
    (hfine : 4 * 2 ^ f.scale * (10 : ℚ) ^ e < 2 * 2 ^ x.significand.2) :
    (x.interval.onGrid? f tie e).isSome = true := by
  have hq : (0 : ℚ) < (scaleTen 1 e).2 := Nat.cast_pos.mpr (scaleTen_snd_pos 1 e)
  have hp : ((scaleTen 1 e).1 : ℚ) = 10 ^ e * (scaleTen 1 e).2 := by
    rw [scaleTen_eq, Nat.cast_one, one_mul]
  have hstep : 4 * Nat.pow 2 f.scale * (scaleTen 1 e).1 <
      2 * (Nat.pow 2 x.significand.2 * (scaleTen 1 e).2) := by
    have hscaled := mul_lt_mul_of_pos_right hfine hq
    rw [mul_assoc, ← hp, mul_assoc 2] at hscaled
    exact_mod_cast hscaled
  have hden : 0 < 4 * Nat.pow 2 f.scale * (scaleTen 1 e).1 := by
    have hpos : (0 : ℚ) < (scaleTen 1 e).1 := hp ▸ mul_pos (zpow_pos (by norm_num) e) hq
    exact Nat.mul_pos (Nat.mul_pos (by decide) (Nat.pow_pos (by decide))) (by exact_mod_cast hpos)
  have hnear := roundQuotient_near tie (x.interval.value * (scaleTen 1 e).2) hden
  have hlow := Nat.mul_le_mul_right (scaleTen 1 e).2 (low_add_le hx)
  have hhigh := Nat.mul_le_mul_right (scaleTen 1 e).2 (value_add_le (x := x))
  rw [Nat.add_mul] at hlow hhigh
  have hhit : (roundQuotient tie (x.interval.value * (scaleTen 1 e).2)
      (4 * Nat.pow 2 f.scale * (scaleTen 1 e).1) != 0 && x.interval.holds f
      (roundQuotient tie (x.interval.value * (scaleTen 1 e).2)
        (4 * Nat.pow 2 f.scale * (scaleTen 1 e).1)) e) = true := by
    rw [Bool.and_eq_true, bne_iff_ne]
    refine ⟨fun hzero ↦ ?_, Interval.holds_of_lt (by omega) (by omega)⟩
    rw [hzero] at hnear
    omega
  simp only [Interval.onGrid?, hhit, if_true, Option.isSome_some]

theorem pow_length_toDigits_le {n : Nat} (hn : 0 < n) :
    10 ^ ((Nat.toDigits 10 n).length - 1) ≤ n := by
  by_contra hlt
  have hlength := Nat.length_toDigits_pos (b := 10) (n := n)
  by_cases hone : (Nat.toDigits 10 n).length - 1 = 0
  · rw [hone, Nat.pow_zero] at hlt
    exact hlt hn
  · have hshort := (Nat.length_toDigits_le_iff (by decide) (Nat.pos_of_ne_zero hone)).mpr
      (Nat.lt_of_not_le hlt)
    omega

theorem leadingExponent_le {num den : Nat} (hnum : 0 < num) (hden : 0 < den) :
    (10 : ℚ) ^ leadingExponent num den * den ≤ num := by
  have hneg {k : Nat} (h : den ≤ num * 10 ^ k) : (10 : ℚ) ^ (-(k : Int)) * den ≤ num := by
    rw [zpow_neg, zpow_natCast, inv_mul_le_iff₀ (pow_pos (by norm_num) k), mul_comm]
    exact_mod_cast h
  rw [leadingExponent]
  split
  next hle =>
    have hpow := pow_length_toDigits_le (Nat.div_pos hle hden)
    have hexp : ((Nat.toDigits 10 (num / den)).length : Int) - 1 =
        ((Nat.toDigits 10 (num / den)).length - 1 : Nat) := by
      have := Nat.length_toDigits_pos (b := 10) (n := num / den)
      omega
    rw [hexp, zpow_natCast]
    exact_mod_cast (Nat.le_div_iff_mul_le hden).mp hpow
  next hlt =>
    have hpos := Nat.length_toDigits_pos (b := 10) (n := den / num)
    dsimp only
    split
    next hle =>
      rw [show -(((Nat.toDigits 10 (den / num)).length : Int) - 1) =
        -(((Nat.toDigits 10 (den / num)).length - 1 : Nat) : Int) by omega]
      exact hneg hle
    next =>
      refine hneg ?_
      have hlength := (Nat.length_toDigits_le_iff (by decide) hpos).mp (le_refl _)
      rw [Nat.div_lt_iff_lt_mul hnum] at hlength
      rw [Nat.mul_comm]
      exact hlength.le

/-- The shortest decimal of a number rounds to the number. -/
theorem mem_shortest (hf : f.fractionBits ≤ 52) (hx : x.magnitude ≠ 0) :
    (x.shortest tie).digits ≠ 0 ∧
      x.interval.Mem (4 * 2 ^ f.scale * (x.shortest tie).value) := by
  have hvalue : 0 < x.interval.value :=
    Nat.lt_of_lt_of_le (Nat.pow_pos (by decide)) (Nat.le_of_add_left_le (low_add_le hx))
  have hden : 0 < 4 * Nat.pow 2 f.scale := Nat.mul_pos (by decide) (Nat.pow_pos (by decide))
  have hlead := leadingExponent_le hvalue hden
  set lead := leadingExponent x.interval.value (4 * Nat.pow 2 f.scale)
  have hbits : x.significand.1 < 2 * 2 ^ 52 :=
    significand_lt.trans_le (Nat.mul_le_mul_left 2 (Nat.pow_le_pow_right (by decide) hf))
  -- with nineteen digits behind the first one the grid is finer than the numbers are
  have hfine : 4 * 2 ^ f.scale * (10 : ℚ) ^ (lead - (19 : Nat)) < 2 * 2 ^ x.significand.2 := by
    rw [zpow_sub₀ (by norm_num), zpow_natCast, mul_div_assoc', div_lt_iff₀ (by norm_num)]
    calc 4 * 2 ^ f.scale * (10 : ℚ) ^ lead
        = 10 ^ lead * (4 * Nat.pow 2 f.scale : Nat) := by
          rw [Nat.pow_eq]
          push_cast
          ring
      _ ≤ x.interval.value := hlead
      _ = 4 * x.significand.1 * 2 ^ x.significand.2 := by
          rw [interval_value, Nat.pow_eq]
          push_cast
          rfl
      _ < 2 * 2 ^ x.significand.2 * 10 ^ 19 := by
          have hm : (x.significand.1 : ℚ) < 2 * 2 ^ 52 := by exact_mod_cast hbits
          have hpow : (0 : ℚ) < 2 ^ x.significand.2 := pow_pos two_pos _
          nlinarith
  have hfound : ∃ e, x.interval.onGrid? f tie e = some (x.shortest tie) :=
    Interval.exists_onGrid?_eq_search ⟨19, by decide, isSome_onGrid? hx hfine⟩
  exact Interval.mem_of_onGrid? hfound.choose_spec

theorem sign_of_isPositive (h : x.isPositive = true) : x.negative = false ∧ x.magnitude ≠ 0 := by
  simp only [isPositive, Bool.and_eq_true, Bool.not_eq_true', decide_eq_true_eq] at h
  exact ⟨h.1.1, h.2.ne'⟩

/-- Different magnitudes have different shortest decimals. -/
theorem magnitude_eq_of_shortest (hpos : 0 < f.fractionBits) (hf : f.fractionBits ≤ 52)
    (hx : x.magnitude ≠ 0) (hy : y.magnitude ≠ 0)
    (h : (x.shortest tie).value = (y.shortest tie).value) : x.magnitude = y.magnitude := by
  have hmemx : x.interval.Mem (4 * 2 ^ f.scale * (x.shortest tie).value) := (mem_shortest hf hx).2
  have hmemy : y.interval.Mem (4 * 2 ^ f.scale * (y.shortest tie).value) := (mem_shortest hf hy).2
  rw [h] at hmemx
  exact le_antisymm (magnitude_le_of_mem hpos hmemy hmemx) (magnitude_le_of_mem hpos hmemx hmemy)

end Number
/-! ## Texts -/

/-- The number that a text denotes: digits, of which some may stand behind a point. -/
def denoted (s : List Char) : ℚ :=
  let fraction := (s.dropWhile Char.isDigit).drop 1
  Nat.ofDigitChars 10 (s.takeWhile Char.isDigit ++ fraction) 0 / 10 ^ fraction.length

theorem denoted_digits {s : List Char} (h : ∀ c ∈ s, c.isDigit = true) :
    denoted s = Nat.ofDigitChars 10 s 0 := by
  rw [← List.append_nil s, denoted, List.takeWhile_append_of_pos h, List.dropWhile_append_of_pos h]
  simp

theorem denoted_point {s t : List Char} (h : ∀ c ∈ s, c.isDigit = true) :
    denoted (s ++ '.' :: t) = Nat.ofDigitChars 10 (s ++ t) 0 / 10 ^ t.length := by
  have hpoint : ¬ '.'.isDigit = true := by decide
  rw [denoted, List.takeWhile_append_of_pos h, List.dropWhile_append_of_pos h,
    List.takeWhile_cons_of_neg hpoint, List.dropWhile_cons_of_neg hpoint, List.append_nil,
    List.drop_one, List.tail_cons]

theorem ofDigitChars_append_zeros (s : List Char) (n : Nat) :
    Nat.ofDigitChars 10 (s ++ List.replicate n '0') 0 = 10 ^ n * Nat.ofDigitChars 10 s 0 := by
  rw [Nat.ofDigitChars_append, Nat.ofDigitChars_replicate_zero]

namespace Layout

variable {f : Format} {l : Layout} {x y : Number f}

/-- Digits mean the same wherever the point is put. -/
theorem denoted_positional {digits : List Char} (h : ∀ c ∈ digits, c.isDigit = true) (first : Int) :
    denoted (l.positional digits first) =
      Nat.ofDigitChars 10 digits 0 * 10 ^ (first + 1 - digits.length) := by
  have hzeros (n : Nat) : ∀ c ∈ digits ++ List.replicate n '0', c.isDigit = true := by
    intro c hc
    rcases List.mem_append.mp hc with hc | hc
    · exact h c hc
    · exact (List.mem_replicate.mp hc).2 ▸ rfl
  rw [positional]
  split
  next hwhole =>
    obtain ⟨n, hn⟩ := Int.eq_ofNat_of_zero_le (show 0 ≤ first + 1 - digits.length by omega)
    rw [hn]
    cases l.wholePoint with
    | false =>
      simp only [Bool.false_eq_true, if_false, List.append_nil]
      rw [Int.toNat_natCast, denoted_digits (hzeros n), ofDigitChars_append_zeros]
      push_cast
      rw [zpow_natCast, mul_comm]
    | true =>
      simp only [if_true]
      rw [Int.toNat_natCast, denoted_point (hzeros n), show ['0'] = List.replicate 1 '0' from rfl,
        ofDigitChars_append_zeros, ofDigitChars_append_zeros, List.length_replicate]
      push_cast
      rw [zpow_natCast]
      ring
  next hpoint =>
    split
    next hfirst =>
      obtain ⟨n, hn⟩ := Int.eq_ofNat_of_zero_le (show 0 ≤ first + 1 by omega)
      obtain ⟨m, hm⟩ := Nat.exists_eq_add_of_lt (show n < digits.length by omega)
      have hlength : (digits.drop n).length = m + 1 := by rw [List.length_drop]; omega
      rw [hn, Int.toNat_natCast, denoted_point fun c hc ↦ h c (List.mem_of_mem_take hc),
        List.take_append_drop, hlength, div_eq_mul_inv, ← zpow_natCast, ← zpow_neg]
      congr 2
      omega
    next hfirst =>
      obtain ⟨n, hn⟩ := Int.eq_ofNat_of_zero_le (show 0 ≤ -first - 1 by omega)
      have htext : '0' :: '.' :: List.replicate n '0' ++ digits =
          ['0'] ++ '.' :: (List.replicate n '0' ++ digits) := rfl
      have hdigits : Nat.ofDigitChars 10 (['0'] ++ (List.replicate n '0' ++ digits)) 0 =
          Nat.ofDigitChars 10 digits 0 := by
        rw [Nat.ofDigitChars_append, Nat.ofDigitChars_append, Nat.ofDigitChars_replicate_zero]
        rfl
      rw [hn, Int.toNat_natCast, htext, denoted_point (by simp), hdigits, List.length_append,
        List.length_replicate, div_eq_mul_inv, ← zpow_natCast, ← zpow_neg]
      congr 2
      omega

theorem denoted_trimmed (d : Decimal) :
    (∀ c ∈ (trimmed d).1, c.isDigit = true) ∧
      Nat.ofDigitChars 10 (trimmed d).1 0 * (10 : ℚ) ^ ((trimmed d).2 + 1 - (trimmed d).1.length) =
        d.value := by
  have hdigits := List.all_eq_true.mp (Text.all_isDigit_natChars d.digits)
  obtain ⟨n, hn⟩ : ∃ n, Text.natChars d.digits = (trimmed d).1 ++ List.replicate n '0' := by
    set zeros := (Text.natChars d.digits).reverse.takeWhile (· == '0') with hzeros
    have hall : zeros.reverse = List.replicate zeros.length '0' := by
      refine List.eq_replicate_iff.mpr ⟨List.length_reverse, fun c hc ↦ ?_⟩
      exact beq_iff_eq.mp (List.all_eq_true.mp List.all_takeWhile c (List.mem_reverse.mp hc))
    refine ⟨zeros.length, ?_⟩
    rw [← hall, trimmed, ← List.reverse_append, hzeros, List.takeWhile_append_dropWhile,
      List.reverse_reverse]
  have hvalue : d.digits = 10 ^ n * Nat.ofDigitChars 10 (trimmed d).1 0 := by
    rw [← ofDigitChars_append_zeros, ← hn]
    exact (Nat.ofDigitChars_toDigits (by decide) (by decide)).symm
  refine ⟨fun c hc ↦ hdigits c (hn ▸ List.mem_append_left _ hc), ?_⟩
  have hfirst : (trimmed d).2 + 1 - (trimmed d).1.length = d.exponent + n := by
    have : (trimmed d).2 = d.exponent + (Text.natChars d.digits).length - 1 := rfl
    rw [this, hn, List.length_append, List.length_replicate]
    omega
  rw [hfirst, Decimal.value, hvalue, zpow_add₀ (by norm_num), zpow_natCast]
  push_cast
  ring

/-- A text without an exponent denotes the shortest decimal of the number. -/
theorem denoted_finite (hfrom : l.positionalFrom = none) (hbelow : l.positionalBelow = none)
    (hsign : x.negative = false) (hx : x.magnitude ≠ 0) :
    denoted (l.finite x) = (x.shortest l.tie).value := by
  obtain ⟨hdigits, hvalue⟩ := denoted_trimmed (x.shortest l.tie)
  have hfinite : l.finite x =
      l.positional (trimmed (x.shortest l.tie)).1 (trimmed (x.shortest l.tie)).2 := by
    simp [finite, hfrom, hbelow, hsign, hx]
  rw [hfinite, denoted_positional hdigits, hvalue]

theorem finite_injective (hfrom : l.positionalFrom = none) (hbelow : l.positionalBelow = none)
    (hpos : 0 < f.fractionBits) (hf : f.fractionBits ≤ 52) (hx : x.isPositive = true)
    (hy : y.isPositive = true) (h : l.finite x = l.finite y) : x = y := by
  obtain ⟨hxsign, hxne⟩ := Number.sign_of_isPositive hx
  obtain ⟨hysign, hyne⟩ := Number.sign_of_isPositive hy
  have hshortest := congrArg denoted h
  rw [denoted_finite hfrom hbelow hxsign hxne, denoted_finite hfrom hbelow hysign hyne] at hshortest
  have hmagnitude := Number.magnitude_eq_of_shortest hpos hf hxne hyne hshortest
  cases x
  cases y
  exact congrArg₂ Number.mk (hxsign.trans hysign.symm) hmagnitude

end Layout

end ContainerNet.Binary
