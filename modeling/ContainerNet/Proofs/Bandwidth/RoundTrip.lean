import ContainerNet.Proofs.Bandwidth.Grammar
import ContainerNet.Proofs.Wire.Config

/-!
# Rates are read back from their texts

A rate is written in the largest unit of which it is a multiple (`exists_chars_eq`), so nothing of
it is lost, and its text is one of the texts that denote it. `text_round_trip` says so for the text,
for the text as a JSON value and for the number that a rate is in JSON.

The text is compared with the grammar and not with the reader: what a text denotes is said by the
grammar, and what is denoted is read. Units stand in falling order, so the first one that fits a
rate is the largest. Zero is a multiple of every unit and is written in bits.
-/

namespace ContainerNet.Bandwidth

/-- Whether a unit is the largest one of which a number of bits per second is a multiple. Zero is a
multiple of every unit, and is given in bits. -/
structure IsLargestUnit (n : ℕ) (unit : List Char) (factor : ℕ) : Prop where
  isUnit : unitFactor? unit = some factor
  dvd : factor ∣ n
  zero : n = 0 → unit = "bit".toList
  largest : n ≠ 0 → ∀ unit' factor', unitFactor? unit' = some factor' → factor' ∣ n →
    factor' ≤ factor

theorem pairwise_scales : scales.Pairwise fun u v ↦ v.factor < u.factor := by
  simp [scales]

theorem isLargestUnit_of_find? {n : ℕ} {u : Scale}
    (h : scales.find? (fun u ↦ u.factor ≤ n && n % u.factor == 0) = some u) :
    IsLargestUnit n u.name.toList u.factor := by
  obtain ⟨hfits, before, after, hsplit, hbefore⟩ := List.find?_eq_some_iff_append.mp h
  rw [Bool.and_eq_true, decide_eq_true_eq, beq_iff_eq] at hfits
  have hunit : unitFactor? u.name.toList = some u.factor :=
    unitFactor?_eq_some_iff.mpr ⟨u, hsplit ▸ by simp, rfl, rfl⟩
  refine ⟨hunit, Nat.dvd_of_mod_eq_zero hfits.2, fun hzero ↦ ?_,
    fun hn unit' factor' hunit' hdvd ↦ ?_⟩
  · exact absurd (Nat.lt_of_lt_of_le (pos_of_unitFactor? hunit) hfits.1) (by omega)
  · obtain ⟨v, hv, -, rfl⟩ := unitFactor?_eq_some_iff.mp hunit'
    rw [hsplit, List.mem_append, List.mem_cons] at hv
    rcases hv with hv | rfl | hv
    · have hfails := hbefore v hv
      simp [Nat.le_of_dvd (Nat.pos_of_ne_zero hn) hdvd, Nat.mod_eq_zero_of_dvd hdvd] at hfails
    · exact Nat.le_refl _
    · have hpairwise := pairwise_scales
      rw [hsplit, List.pairwise_append, List.pairwise_cons] at hpairwise
      exact Nat.le_of_lt (hpairwise.2.1.1 v hv)

/-- A rate is written in its largest unit. -/
theorem exists_chars_eq (b : Bandwidth) : ∃ unit factor, IsLargestUnit b.bits.toNat unit factor ∧
    b.chars = Text.natChars (b.bits.toNat / factor) ++ unit := by
  rw [chars]
  split
  next u hfound => exact ⟨u.name.toList, u.factor, isLargestUnit_of_find? hfound, rfl⟩
  next hnone =>
    -- only zero is less than a bit
    have hzero : b.bits.toNat = 0 := by
      have hbit := List.find?_eq_none.mp hnone ⟨"bit", 1⟩ (by decide)
      simp [Nat.mod_one] at hbit
      omega
    refine ⟨"bit".toList, 1, ⟨rfl, Nat.one_dvd _, fun _ ↦ rfl, fun h ↦ absurd hzero h⟩, ?_⟩
    rw [Nat.div_one]

theorem denotes_chars (b : Bandwidth) : Denotes b.chars b.bits.toNat := by
  obtain ⟨unit, factor, hlargest, hchars⟩ := b.exists_chars_eq
  have hmul : b.bits.toNat / factor * factor = b.bits.toNat := Nat.div_mul_cancel hlargest.dvd
  have hlt : b.bits.toNat / factor * factor < 2 ^ 64 := hmul.symm ▸ b.toNat_bits_lt
  have h := Denotes.scaled (Text.isUnsigned_natChars (b.bits.toNat / factor))
    (List.forall_mem_nil _) hlargest.isUnit hlt
  rwa [List.append_nil, hmul, ← hchars] at h

theorem parse_text (b : Bandwidth) : parse b.text = .ok b := by
  rw [parse_eq_ok_iff, text, String.toList_ofList, b.denotes_chars.isBare.trim_eq]
  exact b.denotes_chars

theorem read_text (b : Bandwidth) : read (.text b.text) = .ok b := by
  rw [read, Json.Tree.value]
  simp only [bind, Except.bind, b.parse_text]
  rfl

/-- **A rate is read back.** Its text, in the largest unit of which it is a multiple, is read as the
rate, by itself and as a JSON value, and so is the number that it is in JSON. -/
theorem text_round_trip (b : Bandwidth) :
    parse b.text = .ok b ∧
    (∃ unit factor, IsLargestUnit b.bits.toNat unit factor ∧
      b.text.toList = Text.natChars (b.bits.toNat / factor) ++ unit) ∧
    (Json.Document.ofText (Json.text b.text).render).decode read = .ok b ∧
    (Json.Document.ofText b.toJson.render).decode read = .ok b := by
  refine ⟨b.parse_text, ?_, ?_, ?_⟩
  · rw [text, String.toList_ofList]
    exact b.exists_chars_eq
  · rw [Json.Document.ofText_render (.text _), Json.reread_text,
      Json.Document.decode_complete, Json.Tree.ofJson, read_text]
  · have hreadable : Json.IsReadable Json.Tree.maxDepth b.toJson :=
      Json.isReadable_nat b.toNat_bits_lt
    rw [Json.Document.ofText_render hreadable, Json.Document.decode_complete, read_reread]

end ContainerNet.Bandwidth
