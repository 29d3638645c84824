import ContainerNet.Proofs.Json.Nesting

/-!
# A text is one line

Values are written without blanks between their parts, and in a quoted text every control character
is escaped. So the text of a value, whatever characters are in it, holds no control character at
all, and in particular no line break (`isPlain_chars`): it can be a line among others.

The proof is a bound on characters that everything keeps that writes: the digits, signs, points and
exponents of numbers, the letters of escapes, and the brackets, commas and colons around values.
What the text says does not matter. A tighter bound would not hold, since any other character of a
text is written as it is.
-/

namespace ContainerNet

/-- A text without control characters. -/
def Text.IsPlain (s : List Char) : Prop := ∀ c ∈ s, 0x20 ≤ c.toNat

instance (s : List Char) : Decidable (Text.IsPlain s) := List.decidableBAll _ s

namespace Text

variable {s t : List Char}

theorem isPlain_append : IsPlain (s ++ t) ↔ IsPlain s ∧ IsPlain t := List.forall_mem_append

theorem isPlain_cons {c : Char} : IsPlain (c :: s) ↔ 0x20 ≤ c.toNat ∧ IsPlain s :=
  List.forall_mem_cons

theorem isPlain_nil : IsPlain [] := List.forall_mem_nil _

theorem IsPlain.sublist (h : IsPlain t) (hs : s.Sublist t) : IsPlain s :=
  fun c hc ↦ h c (hs.subset hc)

theorem isPlain_of_isDigit (h : ∀ c ∈ s, c.isDigit = true) : IsPlain s := by
  intro c hc
  have hdigit := h c hc
  simp only [Char.isDigit, Bool.and_eq_true, decide_eq_true_eq, ge_iff_le, UInt32.le_iff_toNat_le]
    at hdigit
  exact Nat.le_trans (by decide) hdigit.1

theorem isPlain_natChars (n : Nat) : IsPlain (natChars n) :=
  isPlain_of_isDigit (List.all_eq_true.mp (all_isDigit_natChars n))

theorem isPlain_zeros (n : Nat) : IsPlain (List.replicate n '0') :=
  isPlain_of_isDigit fun _ hc ↦ (List.mem_replicate.mp hc).2 ▸ rfl

end Text

open Text

namespace Binary.Layout

variable {f : Format} {digits : List Char}

theorem isPlain_positional (l : Layout) (h : IsPlain digits) (first : Int) :
    IsPlain (l.positional digits first) := by
  rw [positional]
  split
  · refine isPlain_append.mpr ⟨isPlain_append.mpr ⟨h, isPlain_zeros _⟩, ?_⟩
    split <;> simp [IsPlain]
  · split
    · refine isPlain_append.mpr ⟨h.sublist (List.take_sublist _ _), ?_⟩
      exact isPlain_cons.mpr ⟨by decide, h.sublist (List.drop_sublist _ _)⟩
    · simp only [List.cons_append]
      exact isPlain_cons.mpr ⟨by decide, isPlain_cons.mpr ⟨by decide,
        isPlain_append.mpr ⟨isPlain_zeros _, h⟩⟩⟩

theorem isPlain_scientific (h : IsPlain digits) (first : Int) :
    IsPlain (scientific digits first) := by
  have hexponent (sign : Char) (hsign : 0x20 ≤ sign.toNat) :
      IsPlain ('e' :: sign :: natChars first.natAbs) :=
    isPlain_cons.mpr ⟨by decide, isPlain_cons.mpr ⟨hsign, isPlain_natChars _⟩⟩
  refine isPlain_append.mpr ⟨?_, hexponent _ (by split <;> decide)⟩
  match digits with
  | [] => exact isPlain_nil
  | [_] => exact h
  | d :: d' :: r =>
    obtain ⟨hd, hr⟩ := isPlain_cons.mp h
    exact isPlain_cons.mpr ⟨hd, isPlain_cons.mpr ⟨by decide, hr⟩⟩

theorem isPlain_signed (negative : Bool) {s : List Char} (h : IsPlain s) :
    IsPlain (if negative then '-' :: s else s) := by
  split
  · exact isPlain_cons.mpr ⟨by decide, h⟩
  · exact h

theorem isPlain_finite (l : Layout) (x : Number f) : IsPlain (l.finite x) := by
  have hdigits : IsPlain (trimmed (x.shortest l.tie)).1 := by
    refine (isPlain_natChars (x.shortest l.tie).digits).sublist ?_
    exact (List.dropWhile_sublist _).reverse.trans (by rw [List.reverse_reverse])
  rw [finite]
  refine isPlain_signed x.negative ?_
  split
  · split <;> simp [IsPlain]
  · dsimp only
    split
    · exact isPlain_scientific hdigits _
    · exact isPlain_positional l hdigits _

end Binary.Layout

namespace Json

theorem isPlain_number (n : Number) : IsPlain n.chars := by
  have hnull : IsPlain "null".toList := by decide
  cases n with
  | whole n => exact isPlain_natChars n
  | below n => exact isPlain_cons.mpr ⟨by decide, isPlain_natChars n⟩
  | double x | single x =>
    rw [Number.chars]
    split
    · exact Binary.Layout.isPlain_finite _ x
    · exact hnull

/-- A character is escaped, or it is none of the control characters. -/
theorem isPlain_escape (c : Char) : IsPlain (escape c) := by
  have hhex : ∀ n < 0x20, IsPlain ('\\' :: 'u' :: hexPadded 4 n) := by decide +kernel
  unfold escape
  split_ifs
  any_goals decide
  · exact hhex _ ‹c.toNat < 0x20›
  · exact isPlain_cons.mpr ⟨Nat.le_of_not_lt ‹¬c.toNat < 0x20›, isPlain_nil⟩

theorem isPlain_quoted (s : List Char) : IsPlain (quoted s) := by
  refine isPlain_append.mpr ⟨isPlain_cons.mpr ⟨by decide, fun c hc ↦ ?_⟩, by decide⟩
  obtain ⟨d, -, hd⟩ := List.mem_flatMap.mp hc
  exact isPlain_escape d c hd

theorem isPlain_itemChars {items : List Json} (h : ∀ v ∈ items, IsPlain v.chars) :
    IsPlain (itemChars items) := by
  induction items with
  | nil => simp [itemChars, IsPlain]
  | cons v r ih =>
    obtain ⟨hv, hr⟩ := List.forall_mem_cons.mp h
    rw [itemChars]
    exact isPlain_cons.mpr ⟨by decide, isPlain_append.mpr ⟨hv, ih hr⟩⟩

theorem isPlain_memberChars {members : List (String × Json)}
    (h : ∀ m ∈ members, IsPlain m.2.chars) : IsPlain (memberChars members) := by
  induction members with
  | nil => simp [memberChars, IsPlain]
  | cons m r ih =>
    obtain ⟨hm, hr⟩ := List.forall_mem_cons.mp h
    rw [memberChars]
    exact isPlain_cons.mpr ⟨by decide, isPlain_append.mpr ⟨isPlain_quoted _,
      isPlain_cons.mpr ⟨by decide, isPlain_append.mpr ⟨hm, ih hr⟩⟩⟩⟩

/-- **The text of a value has no control characters.** -/
theorem isPlain_chars (v : Json) : IsPlain v.chars := by
  induction v using induction with
  | null => decide
  | bool b => cases b <;> decide
  | number n => exact isPlain_number n
  | text s => exact isPlain_quoted _
  | array items ih =>
    cases items with
    | nil => decide
    | cons v r =>
      obtain ⟨hv, hr⟩ := List.forall_mem_cons.mp ih
      rw [chars_array_cons]
      exact isPlain_cons.mpr ⟨by decide, isPlain_append.mpr ⟨hv, isPlain_itemChars hr⟩⟩
  | object members ih =>
    cases members with
    | nil => decide
    | cons m r =>
      obtain ⟨hm, hr⟩ := List.forall_mem_cons.mp ih
      rw [chars_object_cons]
      exact isPlain_cons.mpr ⟨by decide, isPlain_append.mpr ⟨isPlain_quoted _,
        isPlain_cons.mpr ⟨by decide, isPlain_append.mpr ⟨hm, isPlain_memberChars hr⟩⟩⟩⟩

end Json

end ContainerNet
