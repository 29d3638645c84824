import ContainerNet.Proofs.Text.Utf8
import Mathlib.Data.List.Basic

/-!
# The lines of a text

A line ends with a line feed, and a carriage return before that belongs to the end of the line. What
stands behind the last line feed is a line too, if it is not empty, and then it is taken as it is.

Lines that are joined by line feeds are the lines of what comes out, if none of them is empty, holds
a line feed or ends in a carriage return (`lines_intercalate`).

Below the lines there are the bytes. A text is cut where its bytes are cut
(`firstBytes?_eq_some_iff`).
-/

namespace ContainerNet.Text

/-- What stands in front of a line feed, without a carriage return at its end. -/
def withoutReturn (s : List Char) : List Char :=
  if s.getLast? = some '\r' then s.dropLast else s

/-- The lines of a text. -/
def lines (s : List Char) : List (List Char) :=
  (s.splitOn '\n').dropLast.map withoutReturn ++
    (s.splitOn '\n').getLast?.toList.filter (· ≠ [])

variable {s rest : List Char} {l : List (List Char)}

theorem lines_of_not_mem (h : '\n' ∉ s) : lines s = [s].filter (· ≠ []) := by
  rw [lines, List.splitOn_eq_singleton h]
  rfl

theorem lines_append_cons (h : '\n' ∉ s) (rest : List Char) :
    lines (s ++ '\n' :: rest) = withoutReturn s :: lines rest := by
  have hne : rest.splitOn '\n' ≠ [] := List.splitOn_ne_nil _ _
  rw [lines, List.splitOn_append_cons_self_of_not_mem h, List.dropLast_cons_of_ne_nil hne,
    List.getLast?_cons_of_ne_nil hne]
  rfl

theorem lines_induction {P : List Char → Prop} (last : ∀ s, '\n' ∉ s → P s)
    (line : ∀ s rest, '\n' ∉ s → P rest → P (s ++ '\n' :: rest)) (s : List Char) : P s := by
  by_cases h : '\n' ∈ s
  · obtain ⟨front, rest, hs, hfront⟩ := List.eq_append_cons_of_mem h
    rw [hs]
    exact line front rest hfront (lines_induction last line rest)
  · exact last s h
termination_by s.length
decreasing_by
  rw [hs, List.length_append, List.length_cons]
  omega

/-- Lines that are joined are told apart again. -/
theorem lines_intercalate (hne : ∀ s ∈ l, s ≠ []) (hfeed : ∀ s ∈ l, '\n' ∉ s)
    (hreturn : ∀ s ∈ l, s.getLast? ≠ some '\r') : lines (['\n'].intercalate l) = l := by
  induction l with
  | nil => rfl
  | cons s l ih =>
    rw [List.forall_mem_cons] at hne hfeed hreturn
    cases l with
    | nil =>
      rw [List.intercalate_singleton, lines_of_not_mem hfeed.1]
      exact List.filter_cons_of_pos (decide_eq_true hne.1)
    | cons t l =>
      rw [List.intercalate_cons_cons, List.append_assoc, List.singleton_append,
        lines_append_cons hfeed.1, withoutReturn, if_neg hreturn.1, ih hne.2 hfeed.2 hreturn.2]

/-! ## Bytes -/

theorem eq_of_mem_utf8EncodeChar {c : Char} {b : Nat} (hb : b < 0x80)
    (h : UInt8.ofNat b ∈ String.utf8EncodeChar c) : c = Char.ofNat b := by
  obtain ⟨v, hv⟩ : ∃ v, c.val.toNat = v := ⟨_, rfl⟩
  have hchar : Char.ofNat v = c := hv ▸ Char.ofNat_toNat c
  rw [String.utf8EncodeChar, hv] at h
  split_ifs at h with hone
  all_goals simp only [List.mem_cons, List.not_mem_nil, or_false, ← UInt8.toNat_inj,
    UInt8.toNat_ofNat'] at h
  · obtain rfl : v = b := by omega
    exact hchar.symm
  -- the bytes of the longer forms are all above
  all_goals omega

/-- The bytes of a text that is given by its characters. -/
def bytes (s : List Char) : List UInt8 := s.flatMap String.utf8EncodeChar

theorem utf8_ofList (s : List Char) : utf8 (String.ofList s) = bytes s := by
  rw [utf8_eq, String.toList_ofList, bytes]

theorem decode?_bytes (s : List Char) : decode? (bytes s) = some s := by
  rw [decode?, ← utf8_ofList, glyphs_utf8, String.toList_ofList, ofChars]
  induction s with
  | nil => rfl
  | cons c s ih => simp [ih]

theorem bytes_ne_nil (h : s ≠ []) : bytes s ≠ [] := by
  intro hnil
  have hread := decode?_bytes s
  rw [hnil] at hread
  exact h (Option.some.inj hread).symm

/-! ### Cutting -/

theorem bytes_cons (c : Char) (s : List Char) :
    bytes (c :: s) = String.utf8EncodeChar c ++ bytes s := List.flatMap_cons

theorem bytes_append (s t : List Char) : bytes (s ++ t) = bytes s ++ bytes t :=
  List.flatMap_append

theorem glyphs_bytes_append (s : List Char) (more : List UInt8) :
    glyphs (bytes s ++ more) = ofChars s ++ glyphs more := by
  induction s with
  | nil => rfl
  | cons c s ih =>
    rw [glyphs] at ih
    rw [bytes_cons, List.append_assoc, glyphs, Utf8.glyphsFrom_utf8EncodeChar, ih, ofChars_cons,
      List.cons_append]

/-- No text begins within a character of another one. -/
theorem isPrefix_of_bytes {t : List Char} (h : bytes t <+: bytes s) : t <+: s := by
  obtain ⟨more, hmore⟩ := h
  have hglyphs : ofChars s = ofChars t ++ glyphs more := by
    rw [← glyphs_bytes_append, hmore, ← utf8_ofList, glyphs_utf8, String.toList_ofList]
  obtain ⟨front, back, rfl, hfront, -⟩ := List.map_eq_append_iff.mp hglyphs
  obtain rfl : front = t := List.map_injective_iff.mpr (Option.some_injective _) hfront
  exact List.prefix_append _ _

theorem firstBytes?_append (t more : List Char) :
    firstBytes? (bytes t).length (t ++ more) = some t := by
  induction t with
  | nil => rw [bytes, List.flatMap_nil, List.length_nil, firstBytes?]
  | cons c t ih =>
    obtain ⟨n, hn⟩ := Nat.exists_eq_add_one.mpr c.utf8Size_pos
    rw [bytes_cons, List.length_append, String.length_utf8EncodeChar, hn, Nat.add_right_comm,
      List.cons_append, firstBytes?, hn, if_pos (by omega), Nat.add_right_comm,
      Nat.add_sub_cancel_left, ih]
    rfl

theorem bytes_of_firstBytes? {t : List Char} {n : Nat} (h : firstBytes? n s = some t) :
    n ≤ (bytes s).length ∧ bytes t = (bytes s).take n := by
  induction s generalizing n t with
  | nil =>
    cases n with
    | zero =>
      cases h
      exact ⟨Nat.le_refl 0, rfl⟩
    | succ n => cases h
  | cons c s ih =>
    cases n with
    | zero =>
      cases h
      exact ⟨Nat.zero_le _, rfl⟩
    | succ n =>
      rw [firstBytes?] at h
      split at h
      next hfits =>
        obtain ⟨t, ht, rfl⟩ := Option.map_eq_some_iff.mp h
        obtain ⟨hle, hbytes⟩ := ih ht
        have hlength : (String.utf8EncodeChar c).length = c.utf8Size :=
          String.length_utf8EncodeChar c
        have hfront : (String.utf8EncodeChar c).take (n + 1) = String.utf8EncodeChar c :=
          List.take_of_length_le (hlength ▸ hfits)
        rw [bytes_cons, bytes_cons, hbytes, List.length_append, List.take_append, hfront, hlength]
        exact ⟨by omega, rfl⟩
      next => cases h

/-- **A text is cut where its bytes are cut**, if what is cut off are the bytes of a text. -/
theorem firstBytes?_eq_some_iff {t : List Char} {n : Nat} :
    firstBytes? n s = some t ↔ n ≤ (bytes s).length ∧ bytes t = (bytes s).take n := by
  refine ⟨bytes_of_firstBytes?, ?_⟩
  rintro ⟨hn, hbytes⟩
  have hlength : (bytes t).length = n := by rw [hbytes, List.length_take_of_le hn]
  obtain ⟨more, rfl⟩ := isPrefix_of_bytes (hbytes ▸ List.take_prefix n (bytes s))
  exact hlength ▸ firstBytes?_append t more

end ContainerNet.Text
