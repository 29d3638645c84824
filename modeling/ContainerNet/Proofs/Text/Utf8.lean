import ContainerNet.Text.Utf8
import Mathlib.Tactic.IntervalCases

/-!
# UTF-8 is read back

The bytes of a text are read as the characters of the text (`glyphs_utf8`). So what is known of
reading a text is known of reading its bytes.

A character is followed through its bytes one by one. After the first the decoder knows how many
bytes are missing and where the next has to lie, and that is where the next byte does lie, because a
character is none of the numbers that are encoded shorter, no surrogate and not too great.
-/

namespace ContainerNet.Text

namespace Utf8

/-! ## One byte -/

theorem toNat_ofNat {b : Nat} (h : b < 256) : (UInt8.ofNat b).toNat = b :=
  Nat.mod_eq_of_lt h

/-- A first byte that more bytes have to follow. -/
theorem glyphsFrom_start {b : Nat} {p : Pending} (hb : b < 256) (h : lead b = .start p)
    (rest : List UInt8) : glyphsFrom none (.ofNat b :: rest) = glyphsFrom (some p) rest := by
  rw [glyphsFrom, begin, toNat_ofNat hb, h]
  rfl

/-- A byte that lies where it has to and that is not the last one. -/
theorem glyphsFrom_more {missing low high code b : Nat} (hlow : low ≤ b) (hhigh : b ≤ high)
    (hb : b < 256) (hmissing : 1 < missing) (rest : List UInt8) :
    glyphsFrom (some ⟨missing, low, high, code⟩) (.ofNat b :: rest) =
      glyphsFrom (some ⟨missing - 1, 0x80, 0xBF, code * 64 + b % 64⟩) rest := by
  rw [glyphsFrom, toNat_ofNat hb]
  simp [hlow, hhigh, Nat.not_le_of_lt hmissing]

/-- The last byte of a character. -/
theorem glyphsFrom_last {low high code b : Nat} (hlow : low ≤ b) (hhigh : b ≤ high)
    (hb : b < 256) (rest : List UInt8) :
    glyphsFrom (some ⟨1, low, high, code⟩) (.ofNat b :: rest) =
      some (Char.ofNat (code * 64 + b % 64)) :: glyphsFrom none rest := by
  rw [glyphsFrom, toNat_ofNat hb]
  simp [hlow, hhigh]

theorem lead_two {q : Nat} (hq : 2 ≤ q) (hq' : q < 32) :
    lead (q + 192) = .start ⟨1, 0x80, 0xBF, q⟩ := by
  interval_cases q <;> rfl

theorem lead_three {q : Nat} (hq : q < 16) : lead (q + 224) =
    .start ⟨2, if q = 0 then 0xA0 else 0x80, if q = 13 then 0x9F else 0xBF, q⟩ := by
  interval_cases q <;> rfl

theorem lead_four {q : Nat} (hq : q < 5) : lead (q + 240) =
    .start ⟨3, if q = 0 then 0x90 else 0x80, if q = 4 then 0x8F else 0xBF, q⟩ := by
  interval_cases q <;> rfl

/-! ## One character -/

theorem glyphsFrom_utf8EncodeChar (c : Char) (rest : List UInt8) :
    glyphsFrom none (String.utf8EncodeChar c ++ rest) = some c :: glyphsFrom none rest := by
  obtain ⟨v, hv⟩ : ∃ v, c.val.toNat = v := ⟨_, rfl⟩
  have hchar : Char.ofNat v = c := hv ▸ Char.ofNat_toNat c
  have hvalid : v < 0xD800 ∨ 0xDFFF < v ∧ v < 0x110000 := hv ▸ c.valid
  rw [String.utf8EncodeChar, hv]
  split_ifs with h1 h2 h3
  · rw [List.singleton_append, glyphsFrom, begin, toNat_ofNat (by omega), lead,
      if_pos (by omega), hchar]
    rfl
  · have hlead := lead_two (q := v / 64 % 32) (by omega) (by omega)
    rw [List.cons_append, glyphsFrom_start (by omega) hlead, List.singleton_append,
      glyphsFrom_last (by omega) (by omega) (by omega), ← hchar]
    congr 3
    omega
  · have hlead := lead_three (q := v / 4096 % 16) (by omega)
    rw [List.cons_append, glyphsFrom_start (by omega) hlead, List.cons_append,
      glyphsFrom_more (by split_ifs <;> omega) (by split_ifs <;> omega) (by omega) (by omega),
      List.singleton_append, glyphsFrom_last (by omega) (by omega) (by omega), ← hchar]
    congr 3
    omega
  · have hlead := lead_four (q := v / 262144 % 8) (by omega)
    rw [List.cons_append, glyphsFrom_start (by omega) hlead, List.cons_append,
      glyphsFrom_more (by split_ifs <;> omega) (by split_ifs <;> omega) (by omega) (by omega),
      List.cons_append, glyphsFrom_more (by omega) (by omega) (by omega) (by omega),
      List.singleton_append, glyphsFrom_last (by omega) (by omega) (by omega), ← hchar]
    congr 3
    omega

end Utf8

/-! ## Whole texts -/

/-- The bytes of a text. -/
def utf8 (s : String) : List UInt8 := s.toUTF8.data.toList

theorem utf8_eq (s : String) : utf8 s = s.toList.flatMap String.utf8EncodeChar := by
  rw [utf8, String.toUTF8, ← String.utf8Encode_toList, List.utf8Encode,
    List.toList_data_toByteArray]

theorem glyphs_utf8 (s : String) : glyphs (utf8 s) = ofChars s.toList := by
  rw [glyphs, utf8_eq]
  induction s.toList with
  | nil => rfl
  | cons c l ih => rw [List.flatMap_cons, Utf8.glyphsFrom_utf8EncodeChar, ih, ofChars_cons]

end ContainerNet.Text
