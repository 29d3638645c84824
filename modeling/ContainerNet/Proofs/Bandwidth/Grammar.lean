import ContainerNet.Bandwidth
import ContainerNet.Proofs.Text.Blank
import Mathlib.Algebra.Group.Nat.Defs
import Mathlib.Tactic.SplitIfs

/-!
# What texts of rates denote

A rate is a whole number of bits per second, or of a unit, and there may be blanks around it and in
front of the unit. `Denotes` is that grammar with its meaning. `parse_denotes` says that the texts
of the grammar are read as what they mean, and that of any other text it is said what is wrong.

All units end in the letters of the smallest. So what stands at the end of a text is known from the
one letter in front of those (`splitUnit?_append`), and that letter is none of a number.
-/

namespace ContainerNet

/-! ## Whole numbers -/

namespace Text

variable {s : List Char} {n bound : ℕ}

/-- The texts of whole numbers, and what they denote: decimal digits, perhaps behind a plus sign. -/
inductive IsUnsigned : List Char → ℕ → Prop
  | digits {s : List Char} (hne : s ≠ []) (h : ∀ c ∈ s, c.isDigit = true) :
    IsUnsigned s (Nat.ofDigitChars 10 s 0)
  | plus {s : List Char} (hne : s ≠ []) (h : ∀ c ∈ s, c.isDigit = true) :
    IsUnsigned ('+' :: s) (Nat.ofDigitChars 10 s 0)

theorem isUnsigned_natChars (n : ℕ) : IsUnsigned (natChars n) n := by
  have h := IsUnsigned.digits (natChars_ne_nil n) (List.all_eq_true.mp (all_isDigit_natChars n))
  rwa [natChars, Nat.ofDigitChars_toDigits (by decide) (by decide)] at h

theorem readNat?_eq_some_iff : readNat? s = some n ↔
    s ≠ [] ∧ (∀ c ∈ s, c.isDigit = true) ∧ n = Nat.ofDigitChars 10 s 0 := by
  rw [readNat?]
  split
  next h =>
    rw [List.all_eq_true] at h
    rw [Option.some.injEq]
    exact ⟨fun heq ↦ ⟨h.1, h.2, heq.symm⟩, fun heq ↦ heq.2.2.symm⟩
  next h =>
    rw [List.all_eq_true] at h
    exact iff_of_false (Option.some_ne_none n).symm fun hs ↦ h ⟨hs.1, hs.2.1⟩

theorem readUnsigned?_eq_some_iff :
    readUnsigned? bound s = some n ↔ IsUnsigned s n ∧ n < bound := by
  unfold readUnsigned?
  simp only [Option.filter_eq_some_iff, decide_eq_true_eq, readNat?_eq_some_iff]
  refine and_congr_left fun _ ↦ ?_
  split
  next r =>
    constructor
    · rintro ⟨hne, hdigits, rfl⟩
      exact .plus hne hdigits
    · intro h
      cases h with
      | plus hne hdigits => exact ⟨hne, hdigits, rfl⟩
      | digits _ hdigits => exact absurd (hdigits '+' List.mem_cons_self) (by decide)
  next s hplus =>
    constructor
    · rintro ⟨hne, hdigits, rfl⟩
      exact .digits hne hdigits
    · intro h
      cases h with
      | plus => exact absurd rfl (hplus _)
      | digits hne hdigits => exact ⟨hne, hdigits, rfl⟩

theorem isBlank_eq_false_of_isDigit {c : Char} (h : c.isDigit = true) : isBlank c = false := by
  have hdigit : 48 ≤ c.toNat ∧ c.toNat ≤ 57 := by
    simpa [Char.isDigit, UInt32.le_iff_toNat_le] using h
  simp only [isBlank, Bool.or_eq_false_iff, Bool.and_eq_false_iff, decide_eq_false_iff_not,
    beq_eq_false_iff_ne]
  omega

/-- Whether a text can end a number, with or without blanks behind it: it does not end in any other
character than a digit or a blank. -/
def EndsNumber (s : List Char) : Prop :=
  ∀ c ∈ s.getLast?, c.isDigit = true ∨ isBlank c = true

namespace IsUnsigned

theorem ne_nil (h : IsUnsigned s n) : s ≠ [] := by
  cases h with
  | digits hne => exact hne
  | plus => exact List.cons_ne_nil _ _

theorem isDigit_of_last (h : IsUnsigned s n) : ∀ c ∈ s.getLast?, c.isDigit = true := by
  intro c hc
  cases h with
  | digits _ hdigits => exact hdigits c (List.mem_of_getLast? hc)
  | plus hne hdigits =>
    rw [List.getLast?_cons_of_ne_nil hne] at hc
    exact hdigits c (List.mem_of_getLast? hc)

theorem isBare (h : IsUnsigned s n) : IsBare s where
  first c hc := by
    cases h with
    | digits _ hdigits => exact isBlank_eq_false_of_isDigit (hdigits c (List.mem_of_head? hc))
    | plus =>
      obtain rfl : '+' = c := Option.some.inj hc
      decide
  last c hc := isBlank_eq_false_of_isDigit (h.isDigit_of_last c hc)

theorem endsNumber (h : IsUnsigned s n) {gap : List Char} (hgap : IsBlank gap) :
    EndsNumber (s ++ gap) := by
  intro c hc
  rw [List.getLast?_append, Option.mem_def, Option.or_eq_some_iff] at hc
  rcases hc with hc | ⟨-, hc⟩
  · exact .inr (hgap c (List.mem_of_getLast? hc))
  · exact .inl (h.isDigit_of_last c hc)

theorem trim_append (h : IsUnsigned s n) {gap : List Char} (hgap : IsBlank gap) :
    trim (s ++ gap) = s :=
  trim_eq_iff.mpr ⟨[], gap, rfl, List.forall_mem_nil _, hgap, h.isBare⟩

end IsUnsigned

end Text

namespace Bandwidth

variable {s front unit : List Char} {n factor : ℕ}

/-! ## Units -/

/-- The units that a rate can be given in, and how many bits per second they are. -/
def unitFactor? (unit : List Char) : Option Nat :=
  if unit = "bit".toList then some 1
  else if unit = "kbit".toList then some (10 ^ 3)
  else if unit = "mbit".toList then some (10 ^ 6)
  else if unit = "gbit".toList then some (10 ^ 9)
  else if unit = "tbit".toList then some (10 ^ 12)
  else none

theorem unitFactor?_eq_some_iff : unitFactor? unit = some factor ↔
    ∃ u ∈ scales, unit = u.name.toList ∧ factor = u.factor := by
  constructor
  · intro h
    unfold unitFactor? at h
    split_ifs at h with hbit hkbit hmbit hgbit htbit
    all_goals cases h
    · exact ⟨⟨"bit", 1⟩, by decide, hbit, rfl⟩
    · exact ⟨⟨"kbit", 1000⟩, by decide, hkbit, rfl⟩
    · exact ⟨⟨"mbit", 1000000⟩, by decide, hmbit, rfl⟩
    · exact ⟨⟨"gbit", 1000000000⟩, by decide, hgbit, rfl⟩
    · exact ⟨⟨"tbit", 1000000000000⟩, by decide, htbit, rfl⟩
  · rintro ⟨u, hu, rfl, rfl⟩
    have hall : ∀ u ∈ scales, unitFactor? u.name.toList = some u.factor := by decide +kernel
    exact hall u hu

theorem before?_eq_some_iff {ending : List Char} :
    before? ending s = some front ↔ s = front ++ ending := by
  rw [before?]
  split
  next h =>
    obtain ⟨front', rfl⟩ := List.isSuffixOf_iff_suffix.mp h
    rw [List.length_append, Nat.add_sub_cancel, List.take_left, Option.some.injEq,
      List.append_left_inj]
  next h =>
    refine iff_of_false (Option.some_ne_none _).symm ?_
    rintro rfl
    exact h (List.isSuffixOf_iff_suffix.mpr (List.suffix_append _ _))

theorem before?_cons_append (c : Char) (s ending : List Char) :
    before? (c :: ending) (s ++ ending) =
      if s.getLast? = some c then some s.dropLast else none := by
  ext front
  rw [before?_eq_some_iff, List.append_cons, List.append_left_inj]
  rcases List.eq_nil_or_concat s with rfl | ⟨s, d, rfl⟩
  · exact iff_of_false (by simp) (by simp)
  · rw [List.concat_eq_append, List.getLast?_concat, List.dropLast_concat]
    by_cases hd : d = c
    · subst hd
      rw [if_pos rfl, List.append_left_inj, Option.some.injEq]
    · rw [if_neg fun h ↦ hd (Option.some.inj h)]
      refine iff_of_false (fun h ↦ hd ?_) (Option.some_ne_none front).symm
      have hlast := congrArg List.getLast? h
      rw [List.getLast?_concat, List.getLast?_concat] at hlast
      exact Option.some.inj hlast

/-- What stands in front of the unit at the end of a text, and how many bits per second the unit
is. -/
def splitUnit? (s : List Char) : Option (List Char × ℕ) :=
  scales.findSome? fun u ↦ (before? u.name.toList s).map fun number ↦ (number, u.factor)

theorem splitUnit?_append (s : List Char) : splitUnit? (s ++ "bit".toList) =
    if s.getLast? = some 't' then some (s.dropLast, 10 ^ 12)
    else if s.getLast? = some 'g' then some (s.dropLast, 10 ^ 9)
    else if s.getLast? = some 'm' then some (s.dropLast, 10 ^ 6)
    else if s.getLast? = some 'k' then some (s.dropLast, 10 ^ 3)
    else some (s, 1) := by
  have ht : "tbit".toList = 't' :: "bit".toList := rfl
  have hg : "gbit".toList = 'g' :: "bit".toList := rfl
  have hm : "mbit".toList = 'm' :: "bit".toList := rfl
  have hk : "kbit".toList = 'k' :: "bit".toList := rfl
  have hbit : before? "bit".toList (s ++ "bit".toList) = some s := before?_eq_some_iff.mpr rfl
  simp only [splitUnit?, scales, List.findSome?_cons, ht, hg, hm, hk, before?_cons_append, hbit]
  split_ifs <;> rfl

/-- The unit at the end of a text is found if it stands behind a number. -/
theorem splitUnit?_append_unit (hunit : unitFactor? unit = some factor)
    (hfront : Text.EndsNumber front) : splitUnit? (front ++ unit) = some (front, factor) := by
  have hnot {c : Char} (hc : ¬(c.isDigit = true ∨ Text.isBlank c = true)) :
      front.getLast? ≠ some c := fun hlast ↦ hc (hfront c hlast)
  have hletter (c : Char) : splitUnit? (front ++ c :: "bit".toList) =
      if some c = some 't' then some (front, 10 ^ 12)
      else if some c = some 'g' then some (front, 10 ^ 9)
      else if some c = some 'm' then some (front, 10 ^ 6)
      else if some c = some 'k' then some (front, 10 ^ 3)
      else some (front ++ [c], 1) := by
    rw [List.append_cons, splitUnit?_append, List.getLast?_concat, List.dropLast_concat]
  unfold unitFactor? at hunit
  split_ifs at hunit with hbit hkbit hmbit hgbit htbit
  all_goals cases hunit
  · rw [hbit, splitUnit?_append, if_neg (hnot (by decide)), if_neg (hnot (by decide)),
      if_neg (hnot (by decide)), if_neg (hnot (by decide))]
  · rw [hkbit]
    exact hletter 'k'
  · rw [hmbit]
    exact hletter 'm'
  · rw [hgbit]
    exact hletter 'g'
  · rw [htbit]
    exact hletter 't'

theorem exists_unit_of_splitUnit? {number : List Char} (h : splitUnit? s = some (number, factor)) :
    ∃ unit, unitFactor? unit = some factor ∧ s = number ++ unit := by
  obtain ⟨u, hu, hfound⟩ := List.exists_of_findSome?_eq_some h
  obtain ⟨number', hbefore, heq⟩ := Option.map_eq_some_iff.mp hfound
  cases heq
  exact ⟨u.name.toList, unitFactor?_eq_some_iff.mpr ⟨u, hu, rfl, rfl⟩,
    before?_eq_some_iff.mp hbefore⟩

theorem getLast?_of_unitFactor? (hunit : unitFactor? unit = some factor) :
    unit.getLast? = some 't' := by
  obtain ⟨u, hu, rfl, -⟩ := unitFactor?_eq_some_iff.mp hunit
  have hall : ∀ u ∈ scales, u.name.toList.getLast? = some 't' := by decide +kernel
  exact hall u hu

theorem pos_of_unitFactor? (hunit : unitFactor? unit = some factor) : 0 < factor := by
  obtain ⟨u, hu, -, rfl⟩ := unitFactor?_eq_some_iff.mp hunit
  have hall : ∀ u ∈ scales, 0 < u.factor := by decide
  exact hall u hu

theorem splitUnit?_eq_none (h : Text.EndsNumber s) : splitUnit? s = none := by
  rw [Option.eq_none_iff_forall_ne_some]
  rintro ⟨number, factor⟩ hsplit
  obtain ⟨unit, hunit, rfl⟩ := exists_unit_of_splitUnit? hsplit
  have hlast : (number ++ unit).getLast? = some 't' := by
    rw [List.getLast?_append, getLast?_of_unitFactor? hunit, Option.some_or]
  exact absurd (h 't' hlast) (by decide)

/-! ## The grammar -/

/-- The texts of rates, and how many bits per second they denote: a number of bits, or a number of
units with or without blanks in front of the unit. -/
inductive Denotes : List Char → ℕ → Prop
  | plain {s : List Char} {n : ℕ} (h : Text.IsUnsigned s n) (hn : n < 2 ^ 64) : Denotes s n
  | scaled {s gap unit : List Char} {n factor : ℕ} (h : Text.IsUnsigned s n)
    (hgap : Text.IsBlank gap) (hunit : unitFactor? unit = some factor) (hn : n * factor < 2 ^ 64) :
    Denotes (s ++ gap ++ unit) (n * factor)

theorem readBits?_eq (s : List Char) : readBits? s =
    match splitUnit? s with
    | some (number, factor) =>
      ((Text.readUnsigned? bound (Text.trim number)).map (· * factor)).filter (· < bound)
    | none => Text.readUnsigned? bound s := rfl

theorem denotes_of_readBits? (hs : Text.IsBare s) (h : readBits? s = some n) : Denotes s n := by
  rw [readBits?_eq] at h
  split at h
  next number factor hsplit =>
    obtain ⟨unit, hunit, rfl⟩ := exists_unit_of_splitUnit? hsplit
    obtain ⟨hmap, hn⟩ := Option.filter_eq_some_iff.mp h
    obtain ⟨m, hread, rfl⟩ := Option.map_eq_some_iff.mp hmap
    obtain ⟨hm, -⟩ := Text.readUnsigned?_eq_some_iff.mp hread
    obtain ⟨front, gap, hnumber, hfront, hgap, -⟩ := Text.trim_eq_iff.mp
      (rfl : Text.trim number = Text.trim number)
    -- what is left of the number begins the text, so there are no blanks in front of it
    have hnil : front = [] := by
      cases front with
      | nil => rfl
      | cons c front =>
        rw [hnumber] at hs
        exact absurd (hfront c List.mem_cons_self) (Bool.eq_false_iff.mp (hs.first c rfl))
    rw [hnil, List.nil_append] at hnumber
    rw [hnumber]
    exact .scaled hm hgap hunit (of_decide_eq_true hn)
  next =>
    obtain ⟨hm, hn⟩ := Text.readUnsigned?_eq_some_iff.mp h
    exact .plain hm hn

theorem readBits?_of_denotes (h : Denotes s n) : readBits? s = some n := by
  cases h with
  | plain h hn =>
    have hsplit : splitUnit? s = none :=
      splitUnit?_eq_none fun c hc ↦ .inl (h.isDigit_of_last c hc)
    rw [readBits?_eq, hsplit]
    exact Text.readUnsigned?_eq_some_iff.mpr ⟨h, hn⟩
  | @scaled s gap unit n factor h hgap hunit hn =>
    have hread : Text.readUnsigned? bound s = some n :=
      Text.readUnsigned?_eq_some_iff.mpr ⟨h,
        Nat.lt_of_le_of_lt (Nat.le_mul_of_pos_right n (pos_of_unitFactor? hunit)) hn⟩
    rw [readBits?_eq, splitUnit?_append_unit hunit (h.endsNumber hgap)]
    simp only [h.trim_append hgap, hread, Option.map_some]
    exact Option.filter_eq_some_iff.mpr ⟨rfl, decide_eq_true hn⟩

theorem readBits?_eq_some_iff (hs : Text.IsBare s) : readBits? s = some n ↔ Denotes s n :=
  ⟨denotes_of_readBits? hs, readBits?_of_denotes⟩

namespace Denotes

theorem lt (h : Denotes s n) : n < 2 ^ 64 := by
  cases h with
  | plain _ hn => exact hn
  | scaled _ _ _ hn => exact hn

theorem isBare (h : Denotes s n) : Text.IsBare s := by
  cases h with
  | plain h => exact h.isBare
  | @scaled s gap unit _ _ h _ hunit =>
    constructor
    · intro c hc
      obtain ⟨d, r, rfl⟩ := List.exists_cons_of_ne_nil h.ne_nil
      exact h.isBare.first c hc
    · intro c hc
      rw [List.getLast?_append, getLast?_of_unitFactor? hunit, Option.some_or] at hc
      obtain rfl : 't' = c := Option.some.inj hc
      decide

end Denotes

/-- A text is read as what is left of it without blanks. -/
theorem parse_eq_ok_iff {s : String} {b : Bandwidth} :
    parse s = .ok b ↔ Denotes (Text.trim s.toList) b.bits.toNat := by
  rw [parse, ← readBits?_eq_some_iff (Text.isBare_trim _)]
  cases hread : readBits? (Text.trim s.toList) with
  | none => exact iff_of_false nofun (Option.some_ne_none _).symm
  | some n =>
    have hn : (UInt64.ofNat n).toNat = n := UInt64.toNat_ofNat_of_lt'
      ((readBits?_eq_some_iff (Text.isBare_trim _)).mp hread).lt
    rw [Option.some.injEq]
    constructor
    · intro h
      cases h
      exact hn.symm
    · rintro rfl
      exact congrArg (fun bits ↦ (.ok ⟨bits⟩ : Outcome Bandwidth)) UInt64.ofNat_toNat

theorem parse_eq_error_iff {s : String} :
    parse s = .error (.invalidBandwidth (String.ofList (Text.trim s.toList))) ↔
      ∀ n, ¬Denotes (Text.trim s.toList) n := by
  simp only [parse, ← readBits?_eq_some_iff (Text.isBare_trim _),
    ← Option.eq_none_iff_forall_ne_some]
  cases readBits? (Text.trim s.toList) with
  | none => exact iff_of_true rfl rfl
  | some n => exact iff_of_false nofun (Option.some_ne_none n)

/-- **Exactly the texts of the grammar are read, as what they denote.** What is read is the text
without the blanks around it. If that denotes nothing, then nothing is read, and it is named as what
is wrong. -/
theorem parse_denotes (s : String) :
    (∃ front back, s.toList = front ++ Text.trim s.toList ++ back ∧
      Text.IsBlank front ∧ Text.IsBlank back ∧ Text.IsBare (Text.trim s.toList)) ∧
    (∀ n, (∃ b, parse s = .ok b ∧ b.bits.toNat = n) ↔ Denotes (Text.trim s.toList) n) ∧
    (parse s = .error (.invalidBandwidth (String.ofList (Text.trim s.toList))) ↔
      ∀ n, ¬Denotes (Text.trim s.toList) n) := by
  refine ⟨Text.trim_eq_iff.mp rfl, fun n ↦ ⟨?_, fun h ↦ ?_⟩, parse_eq_error_iff⟩
  · rintro ⟨b, hb, rfl⟩
    exact parse_eq_ok_iff.mp hb
  · have hn : (UInt64.ofNat n).toNat = n := UInt64.toNat_ofNat_of_lt' h.lt
    refine ⟨⟨.ofNat n⟩, parse_eq_ok_iff.mpr ?_, hn⟩
    rwa [hn]

end Bandwidth

end ContainerNet
