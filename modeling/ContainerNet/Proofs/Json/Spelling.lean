import ContainerNet.Json.Decode

/-!
# How values are spelled

However a text is laid out, and in whatever way its numbers and characters are written, its tokens
are those of a value, and a value has one sequence of tokens, its *spelling*. A value that is
spelled out is read as it is, if it is not nested too deep (`IsRead`).

The reader is a machine with a stack, so this is said of every place in which the value may stand:
with frames open below, and with tokens behind that the machine goes on to read. `readBehind` is the
machine after the value. Only the depth needs care, since what lies too deep is read as nothing.
-/

namespace ContainerNet.Json

mutual

/-- The tokens of a value. -/
def spelling : Json → List Token
  | .null => [.null]
  | .bool b => [.bool b]
  | .number n => [.number (some n)]
  | .text s => [.text (some s)]
  | .array [] => [.openBracket, .closeBracket]
  | .array (v :: r) => .openBracket :: (spelling v ++ itemSpelling r)
  | .object [] => [.openBrace, .closeBrace]
  | .object ((k, v) :: r) =>
    .openBrace :: .text (some k) :: .colon :: (spelling v ++ memberSpelling r)

/-- The tokens of the items after the first, up to the closing bracket. -/
def itemSpelling : List Json → List Token
  | [] => [.closeBracket]
  | v :: r => .comma :: (spelling v ++ itemSpelling r)

/-- The tokens of the members after the first, up to the closing brace. -/
def memberSpelling : List (String × Json) → List Token
  | [] => [.closeBrace]
  | (k, v) :: r => .comma :: .text (some k) :: .colon :: (spelling v ++ memberSpelling r)

end

namespace Tree

/-! ## The machine -/

/-- What is read from the tokens behind a value. -/
def readBehind (t : Tree) : List Frame → (complete : Bool) → List Token → Document
  | [], complete, r => ⟨t, complete && r.isEmpty⟩
  | .array items :: below, complete, r => read .separator (.array (t :: items) :: below) complete r
  | .object members key :: below, complete, r =>
    read .separator (.object ((key, t) :: members) key :: below) complete r

variable {e e' : Expect} {frames frames' : List Frame} {complete : Bool} {t : Token}
  {rest : List Token} {v : Tree} {levels : Nat}

theorem read_of_next (h : step e t frames = .next e' frames') :
    read e frames complete (t :: rest) = read e' frames' complete rest := by
  rw [read, h]

theorem read_of_place (h : step e t frames = place v frames') :
    read e frames complete (t :: rest) = readBehind v frames' complete rest := by
  rw [read, h]
  match frames' with
  | [] | .array _ :: _ | .object _ _ :: _ => rfl

theorem tooDeep_eq_false (h : frames.length < maxDepth) : tooDeep frames = false := by
  have : frames.drop (maxDepth - 1) = [] := List.drop_eq_nil_of_le (by unfold maxDepth at *; omega)
  rw [tooDeep, this]
  rfl

theorem step_closeBracket (he : e = .firstItem ∨ e = .separator) {items : List Tree}
    (h : frames.length < maxDepth) :
    step e .closeBracket (.array items :: frames) = place (.array items.reverse true) frames := by
  have hstep : step e .closeBracket (.array items :: frames) =
      place (if tooDeep frames then .unreadable else .array items.reverse true) frames := by
    obtain rfl | rfl := he <;> rfl
  rw [hstep, tooDeep_eq_false h]
  rfl

theorem step_closeBrace (he : e = .firstKey ∨ e = .separator)
    {members : List (Option String × Tree)} {key : Option String}
    (h : frames.length < maxDepth) :
    step e .closeBrace (.object members key :: frames) =
      place (.object members.reverse true) frames := by
  have hstep : step e .closeBrace (.object members key :: frames) =
      place (if tooDeep frames then .unreadable else .object members.reverse true) frames := by
    obtain rfl | rfl := he <;> rfl
  rw [hstep, tooDeep_eq_false h]
  rfl

/-- Where a value may stand. -/
def Expect.TakesValue (e : Expect) : Prop := e = .value ∨ e = .firstItem

theorem step_ofToken? (he : e.TakesValue) (h : ofToken? t = some v) :
    step e t frames = place v frames := by
  obtain rfl | rfl := he
  all_goals
    unfold step
    split <;> simp_all [ofToken?]

/-! ## Values -/

/-- Whether a value that is spelled out is read, in whatever it stands and whatever follows, as long
as it may be nested that deep. -/
def IsRead (levels : Nat) (v : Json) : Prop :=
  ∀ (e : Expect) (frames : List Frame) (complete : Bool) (rest : List Token), e.TakesValue →
    frames.length + levels ≤ maxDepth →
    read e frames complete (v.spelling ++ rest) = readBehind (ofJson v) frames complete rest

/-- The items of an array behind the first of them are read one by one. -/
theorem read_itemSpelling {items : List Json} (h : ∀ v ∈ items, IsRead levels v)
    {front : List Tree} {below : List Frame} (hdepth : below.length + (levels + 1) ≤ maxDepth) :
    read .separator (.array front :: below) complete (itemSpelling items ++ rest) =
      readBehind (.array (front.reverse ++ ofItems items) true) below complete rest := by
  induction items generalizing front with
  | nil =>
    rw [itemSpelling, ofItems, List.append_nil]
    exact read_of_place (step_closeBracket (.inr rfl) (by omega))
  | cons v r ih =>
    have hv := h v List.mem_cons_self
    rw [itemSpelling, List.cons_append, List.append_assoc]
    calc read .separator (.array front :: below) complete _
      _ = read .value (.array front :: below) complete
          (v.spelling ++ (itemSpelling r ++ rest)) := read_of_next rfl
      _ = read .separator (.array (ofJson v :: front) :: below) complete
          (itemSpelling r ++ rest) :=
        hv _ _ _ _ (.inl rfl) (by rw [List.length_cons]; omega)
      _ = _ := by
        rw [ih (fun w hw ↦ h w (List.mem_cons_of_mem _ hw)), ofItems, List.reverse_cons,
          List.append_assoc, List.singleton_append]

theorem read_member {k : String} {v : Json} (hv : IsRead levels v)
    (he : e = .firstKey ∨ e = .key) {front : List (Option String × Tree)}
    {key : Option String} {below : List Frame} (hdepth : below.length + (levels + 1) ≤ maxDepth) :
    read e (.object front key :: below) complete
        (.text (some k) :: .colon :: (v.spelling ++ rest)) =
      read .separator (.object ((some k, ofJson v) :: front) (some k) :: below) complete rest := by
  have hkey : step e (.text (some k)) (.object front key :: below) =
      .next .colon (.object front (some k) :: below) := by
    obtain rfl | rfl := he <;> rfl
  calc read e (.object front key :: below) complete _
    _ = read .colon (.object front (some k) :: below) complete
        (.colon :: (v.spelling ++ rest)) := read_of_next hkey
    _ = read .value (.object front (some k) :: below) complete (v.spelling ++ rest) :=
      read_of_next rfl
    _ = _ := hv _ _ _ _ (.inl rfl) (by rw [List.length_cons]; omega)

theorem read_memberSpelling {members : List (String × Json)}
    (h : ∀ m ∈ members, IsRead levels m.2) {front : List (Option String × Tree)}
    {key : Option String} {below : List Frame} (hdepth : below.length + (levels + 1) ≤ maxDepth) :
    read .separator (.object front key :: below) complete (memberSpelling members ++ rest) =
      readBehind (.object (front.reverse ++ ofMembers members) true) below complete rest := by
  induction members generalizing front key with
  | nil =>
    rw [memberSpelling, ofMembers, List.append_nil]
    exact read_of_place (step_closeBrace (.inr rfl) (by omega))
  | cons m r ih =>
    obtain ⟨k, v⟩ := m
    have hv := h (k, v) List.mem_cons_self
    rw [memberSpelling, List.cons_append, List.cons_append, List.cons_append, List.append_assoc]
    calc read .separator (.object front key :: below) complete _
      _ = read .key (.object front key :: below) complete
          (.text (some k) :: .colon :: (v.spelling ++ (memberSpelling r ++ rest))) :=
        read_of_next rfl
      _ = read .separator (.object ((some k, ofJson v) :: front) (some k) :: below) complete
          (memberSpelling r ++ rest) := read_member hv (.inr rfl) hdepth
      _ = _ := by
        rw [ih (fun w hw ↦ h w (List.mem_cons_of_mem _ hw)), ofMembers, List.reverse_cons,
          List.append_assoc, List.singleton_append]

theorem isRead_of_token {v : Json} (hv : v.spelling = [t]) (ht : ofToken? t = some (ofJson v)) :
    IsRead levels v := by
  intro e frames complete rest he _
  rw [hv]
  exact read_of_place (step_ofToken? he ht)

theorem isRead_array {items : List Json} (h : ∀ v ∈ items, IsRead levels v) :
    IsRead (levels + 1) (.array items) := by
  intro e frames complete rest he hdepth
  have hopen : step e .openBracket frames = .next .firstItem (.array [] :: frames) := by
    obtain rfl | rfl := he <;> rfl
  match items with
  | [] =>
    have hclose : step .firstItem .closeBracket (.array [] :: frames) =
        place (.array [] true) frames := step_closeBracket (.inl rfl) (by omega)
    exact (read_of_next hopen).trans (read_of_place hclose)
  | v :: r =>
    have hv := h v List.mem_cons_self
    rw [spelling, List.cons_append, List.append_assoc]
    calc read e frames complete _
      _ = read .firstItem (.array [] :: frames) complete
          (v.spelling ++ (itemSpelling r ++ rest)) := read_of_next hopen
      _ = read .separator (.array [ofJson v] :: frames) complete (itemSpelling r ++ rest) :=
        hv _ _ _ _ (.inr rfl) (by rw [List.length_cons]; omega)
      _ = _ := read_itemSpelling (fun w hw ↦ h w (List.mem_cons_of_mem _ hw)) hdepth

theorem isRead_object {members : List (String × Json)} (h : ∀ m ∈ members, IsRead levels m.2) :
    IsRead (levels + 1) (.object members) := by
  intro e frames complete rest he hdepth
  have hopen : step e .openBrace frames = .next .firstKey (.object [] none :: frames) := by
    obtain rfl | rfl := he <;> rfl
  match members with
  | [] =>
    have hclose : step .firstKey .closeBrace (.object [] none :: frames) =
        place (.object [] true) frames := step_closeBrace (.inl rfl) (by omega)
    exact (read_of_next hopen).trans (read_of_place hclose)
  | (k, v) :: r =>
    have hv := h (k, v) List.mem_cons_self
    rw [spelling, List.cons_append, List.cons_append, List.cons_append, List.append_assoc]
    calc read e frames complete _
      _ = read .firstKey (.object [] none :: frames) complete
          (.text (some k) :: .colon :: (v.spelling ++ (memberSpelling r ++ rest))) :=
        read_of_next hopen
      _ = read .separator (.object [(some k, ofJson v)] (some k) :: frames) complete
          (memberSpelling r ++ rest) := read_member hv (.inl rfl) hdepth
      _ = _ := read_memberSpelling (fun w hw ↦ h w (List.mem_cons_of_mem _ hw)) hdepth

theorem isRead_null : IsRead levels .null := isRead_of_token rfl rfl

theorem isRead_bool (b : Bool) : IsRead levels (.bool b) := isRead_of_token rfl rfl

theorem isRead_number (n : Number) : IsRead levels (.number n) := isRead_of_token rfl rfl

theorem isRead_text (s : String) : IsRead levels (.text s) := isRead_of_token rfl rfl

end Tree

/-- A text that spells a value out is read as the value. -/
theorem Document.ofText_of_isRead {s : String} {v : Json} (hv : Tree.IsRead Tree.maxDepth v)
    (hs : tokens (Text.ofChars s.toList) = ⟨v.spelling, true⟩) : ofText s = ⟨.ofJson v, true⟩ := by
  have hread := hv .value [] true [] (.inl rfl) (Nat.le_of_eq (Nat.zero_add _))
  rw [List.append_nil] at hread
  rw [ofText, ofGlyphs, hs]
  exact hread

end ContainerNet.Json
