import ContainerNet.Text.Blank
import Mathlib.Data.List.TakeWhile

/-!
# What is left without blanks

`trim` takes blanks from both ends of a text and nothing else: `trim_eq_iff` says what is left by
what was taken away and by how it begins and ends, without the order in which that is done.

The two ends are cut one after the other, and `IsBare` is what remains to be known when one forgets
in which order: neither the first nor the last character is a blank. Of a text of blanks only the
empty text is left, which is bare because it has no such characters.
-/

namespace ContainerNet.Text

variable {s t : List Char}

/-- Whether a text consists of blanks. -/
def IsBlank (s : List Char) : Prop := ∀ c ∈ s, isBlank c = true

/-- Whether a text neither begins nor ends with a blank. -/
structure IsBare (s : List Char) : Prop where
  first : ∀ c ∈ s.head?, isBlank c = false
  last : ∀ c ∈ s.getLast?, isBlank c = false

theorem trimLeft_eq_iff : trimLeft s = t ↔
    ∃ front, s = front ++ t ∧ IsBlank front ∧ ∀ c ∈ t.head?, isBlank c = false := by
  constructor
  · rintro rfl
    refine ⟨s.takeWhile isBlank, List.takeWhile_append_dropWhile.symm,
      fun c hc ↦ List.mem_takeWhile_imp hc, fun c hc ↦ ?_⟩
    have hnot := List.head?_dropWhile_not isBlank s
    rw [trimLeft, Option.mem_def] at hc
    rw [hc] at hnot
    exact hnot
  · rintro ⟨front, rfl, hfront, hfirst⟩
    rw [trimLeft, List.dropWhile_append_of_pos hfront]
    cases t with
    | nil => rfl
    | cons c t => exact trimLeft_cons (hfirst c rfl)

theorem trimRight_eq_iff : trimRight s = t ↔
    ∃ back, s = t ++ back ∧ IsBlank back ∧ ∀ c ∈ t.getLast?, isBlank c = false := by
  have hreverse : trimRight s = t ↔ trimLeft s.reverse = t.reverse := by
    rw [trimRight, trimLeft, List.reverse_eq_iff]
  rw [hreverse, trimLeft_eq_iff, List.head?_reverse]
  constructor
  · rintro ⟨front, hs, hfront, hlast⟩
    refine ⟨front.reverse, ?_, fun c hc ↦ hfront c (List.mem_reverse.mp hc), hlast⟩
    rw [← List.reverse_reverse s, hs, List.reverse_append, List.reverse_reverse]
  · rintro ⟨back, rfl, hback, hlast⟩
    exact ⟨back.reverse, List.reverse_append, fun c hc ↦ hback c (List.mem_reverse.mp hc), hlast⟩

/-- What is left of a text is what stands between blanks and is bare. -/
theorem trim_eq_iff : trim s = t ↔
    ∃ front back, s = front ++ t ++ back ∧ IsBlank front ∧ IsBlank back ∧ IsBare t := by
  rw [trim, trimRight_eq_iff]
  constructor
  · rintro ⟨back, hleft, hback, hlast⟩
    obtain ⟨front, rfl, hfront, hfirst⟩ := trimLeft_eq_iff.mp hleft
    refine ⟨front, back, (List.append_assoc ..).symm, hfront, hback, fun c hc ↦ ?_, hlast⟩
    cases t with
    | nil => exact absurd hc (Option.not_mem_none c)
    | cons => exact hfirst c hc
  · rintro ⟨front, back, rfl, hfront, hback, hbare⟩
    cases t with
    | nil =>
      -- where nothing is left, all blanks are taken from the front
      have hall : IsBlank (front ++ [] ++ back) := by
        rw [List.append_nil]
        exact List.forall_mem_append.mpr ⟨hfront, hback⟩
      have hnil : trimLeft (front ++ [] ++ back) = [] :=
        trimLeft_eq_iff.mpr ⟨_, (List.append_nil _).symm, hall, hbare.first⟩
      exact ⟨[], hnil, List.forall_mem_nil _, hbare.last⟩
    | cons c t =>
      have hleft : trimLeft (front ++ c :: t ++ back) = c :: t ++ back :=
        trimLeft_eq_iff.mpr ⟨front, List.append_assoc .., hfront, hbare.first⟩
      exact ⟨back, hleft, hback, hbare.last⟩

theorem IsBare.trim_eq (h : IsBare s) : trim s = s :=
  trim_eq_iff.mpr
    ⟨[], [], (List.append_nil s).symm, List.forall_mem_nil _, List.forall_mem_nil _, h⟩

theorem isBare_trim (s : List Char) : IsBare (trim s) := by
  obtain ⟨_, _, -, -, -, hbare⟩ := trim_eq_iff.mp (rfl : trim s = trim s)
  exact hbare

end ContainerNet.Text
