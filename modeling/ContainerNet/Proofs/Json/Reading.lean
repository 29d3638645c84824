import ContainerNet.Proofs.Json.Spelling
import ContainerNet.Proofs.Json.Tokens

/-!
# Values that are read back

The compact text of a value is read as the value itself, up to its numbers: a number comes back as
whatever its numeral denotes. `IsReadable` says for which values that holds, and
`Document.ofText_render` is the law.

The tokens of the text are the spelling of what it denotes (`tokens_chars`), and whatever is spelled
out is read. A numeral ends where the text goes on with something else, so the induction over the
value speaks of whatever may follow.

Numbers are the exception because they are written by their value and read by their digits. A whole
number that fits eight bytes comes back as it is (`reread_nat`). Whether a floating-point number
does depends on its digits, and is left to whoever has one (`ReadsBack`).
-/

namespace ContainerNet.Json

open Text (Glyph ofChars)
open Binary (Single)

/-! ## What is read -/

mutual

/-- The value that the text of a value denotes: every number is the one its numeral denotes. -/
def reread : Json → Json
  | .number n => .number ((Number.ofChars? n.chars).getD n)
  | .array items => .array (rereadItems items)
  | .object members => .object (rereadMembers members)
  | v => v

def rereadItems : List Json → List Json
  | [] => []
  | v :: r => reread v :: rereadItems r

def rereadMembers : List (String × Json) → List (String × Json)
  | [] => []
  | (k, v) :: r => (k, reread v) :: rereadMembers r

end

@[simp] theorem reread_text (s : String) : (Json.text s).reread = .text s := rfl

@[simp] theorem reread_bool (b : Bool) : (Json.bool b).reread = .bool b := rfl

theorem reread_nat {n : Nat} (h : n < UInt64.size) : (nat n).reread = nat n := by
  rw [nat, reread, Number.chars, Number.ofChars?_natChars h, Option.getD_some]

theorem rereadItems_eq (l : List Json) : rereadItems l = l.map reread := by
  induction l with
  | nil => rfl
  | cons v l ih => rw [rereadItems, ih, List.map_cons]

theorem rereadMembers_append (l m : List (String × Json)) :
    rereadMembers (l ++ m) = rereadMembers l ++ rereadMembers m := by
  induction l with
  | nil => rfl
  | cons p l ih => rw [List.cons_append, rereadMembers, rereadMembers, ih, List.cons_append]

@[simp] theorem map_fst_rereadMembers (l : List (String × Json)) :
    (rereadMembers l).map (·.1) = l.map (·.1) := by
  induction l with
  | nil => rfl
  | cons p l ih => rw [rereadMembers, List.map_cons, List.map_cons, ih]

theorem forall_mem_rereadMembers {P : Json → Prop} {l : List (String × Json)} :
    (∀ m ∈ rereadMembers l, P m.2) ↔ ∀ m ∈ l, P m.2.reread := by
  induction l with
  | nil => exact iff_of_true (List.forall_mem_nil _) (List.forall_mem_nil _)
  | cons p l ih => rw [rereadMembers, List.forall_mem_cons, List.forall_mem_cons, ih]

/-- Whether a value can be read from its text where arrays and objects may be nested so deep: its
numbers are written as numerals that denote numbers. -/
inductive IsReadable : (levels : Nat) → Json → Prop
  | null {levels : Nat} : IsReadable levels .null
  | bool {levels : Nat} (b : Bool) : IsReadable levels (.bool b)
  | number {levels : Nat} {n : Number} (h : (Number.ofChars? n.chars).isSome) :
    IsReadable levels (.number n)
  | text {levels : Nat} (s : String) : IsReadable levels (.text s)
  | array {levels : Nat} {items : List Json} (h : ∀ v ∈ items, IsReadable levels v) :
    IsReadable (levels + 1) (.array items)
  | object {levels : Nat} {members : List (String × Json)}
    (h : ∀ m ∈ members, IsReadable levels m.2) : IsReadable (levels + 1) (.object members)

variable {levels : Nat}

theorem isReadable_nat {n : Nat} (h : n < UInt64.size) : IsReadable levels (nat n) :=
  .number (by rw [Number.chars, Number.ofChars?_natChars h]; rfl)

theorem isReadable_optional {β : Type} {k : String} {f : β → Json}
    (hf : ∀ x, IsReadable levels (f x)) (o : Option β) :
    ∀ m ∈ optional k f o, IsReadable levels m.2 := by
  match o with
  | none => exact fun m hm ↦ absurd hm List.not_mem_nil
  | some x =>
    intro m hm
    obtain rfl := List.mem_singleton.1 hm
    exact hf x

/-! ## Four-byte numbers -/

/-- The four-byte number that a whole text is read as. -/
def readSingle? (s : List Char) : Option Single :=
  (Number.ofChars? s).bind fun n ↦ (Tree.asSingle (.number n)).toOption

/-- Whether a four-byte number is read back from its text. -/
def ReadsBack (x : Single) : Prop := readSingle? (Number.chars (.single x)) = some x

instance (x : Single) : Decidable (ReadsBack x) := inferInstanceAs (Decidable (_ = _))

theorem ReadsBack.exists {x : Single} (h : ReadsBack x) :
    ∃ n, Number.ofChars? (Number.chars (.single x)) = some n ∧
      Tree.asSingle (.number n) = .ok x := by
  obtain ⟨n, hn, hx⟩ := Option.bind_eq_some_iff.1 h
  refine ⟨n, hn, ?_⟩
  match hread : Tree.asSingle (.number n) with
  | .ok y =>
    rw [hread] at hx
    exact congrArg _ (Option.some.inj hx)
  | .error e => rw [hread] at hx; exact absurd hx nofun

/-! ## The tokens of a text -/

/-- Whether the tokens of a value's text are those of the value that it denotes, whatever follows it
that ends a numeral. -/
def IsSpelled (v : Json) : Prop :=
  ∀ rest : List Glyph, endsNumeral rest = true → tokens (ofChars v.chars ++ rest) =
    ⟨v.reread.spelling ++ (tokens rest).tokens, (tokens rest).complete⟩

theorem chars_array_cons (v : Json) (r : List Json) :
    chars (.array (v :: r)) = '[' :: (chars v ++ itemChars r) := rfl

theorem chars_object_cons (k : String) (v : Json) (r : List (String × Json)) :
    chars (.object ((k, v) :: r)) =
      '{' :: (quoted k.toList ++ ':' :: (chars v ++ memberChars r)) := rfl

theorem endsNumeral_itemChars (items : List Json) (rest : List Glyph) :
    endsNumeral (ofChars (itemChars items) ++ rest) = true := by
  cases items with
  | nil => rfl
  | cons => rfl

theorem endsNumeral_memberChars (members : List (String × Json)) (rest : List Glyph) :
    endsNumeral (ofChars (memberChars members) ++ rest) = true := by
  match members with
  | [] | _ :: _ => rfl

theorem tokens_itemChars {items : List Json} (h : ∀ v ∈ items, IsSpelled v) (rest : List Glyph) :
    tokens (ofChars (itemChars items) ++ rest) =
      ⟨itemSpelling (rereadItems items) ++ (tokens rest).tokens, (tokens rest).complete⟩ := by
  induction items with
  | nil => exact tokens_cons rfl
  | cons v r ih =>
    have hv := h v List.mem_cons_self _ (endsNumeral_itemChars r rest)
    rw [itemChars, Text.ofChars_cons, Text.ofChars_append, List.cons_append, List.append_assoc,
      tokens_cons rfl, hv, ih fun w hw ↦ h w (List.mem_cons_of_mem _ hw), rereadItems, itemSpelling,
      List.cons_append, List.append_assoc]

theorem tokens_member {k : String} {v : Json} (hv : IsSpelled v) {rest : List Glyph}
    (hrest : endsNumeral rest = true) :
    tokens (ofChars (quoted k.toList) ++ some ':' :: (ofChars v.chars ++ rest)) =
      ⟨.text (some k) :: .colon :: (v.reread.spelling ++ (tokens rest).tokens),
        (tokens rest).complete⟩ := by
  rw [tokens_quoted, tokens_cons rfl, hv rest hrest, String.ofList_toList]

theorem tokens_memberChars {members : List (String × Json)} (h : ∀ m ∈ members, IsSpelled m.2)
    (rest : List Glyph) :
    tokens (ofChars (memberChars members) ++ rest) =
      ⟨memberSpelling (rereadMembers members) ++ (tokens rest).tokens, (tokens rest).complete⟩ := by
  induction members with
  | nil => exact tokens_cons rfl
  | cons m r ih =>
    obtain ⟨k, v⟩ := m
    have hv := h (k, v) List.mem_cons_self
    rw [memberChars, Text.ofChars_cons, Text.ofChars_append, Text.ofChars_cons,
      Text.ofChars_append, List.cons_append, List.append_assoc, List.cons_append,
      List.append_assoc, tokens_cons rfl, tokens_member hv (endsNumeral_memberChars r rest),
      ih fun w hw ↦ h w (List.mem_cons_of_mem _ hw), rereadMembers, memberSpelling,
      List.cons_append, List.cons_append, List.cons_append, List.append_assoc]

theorem isSpelled_array {items : List Json} (h : ∀ v ∈ items, IsSpelled v) :
    IsSpelled (.array items) := by
  intro rest _
  match items with
  | [] =>
    have hclose := tokens_itemChars h rest
    have hopen : tokens (some '[' :: (ofChars (itemChars []) ++ rest)) = _ := tokens_cons rfl
    rwa [hclose] at hopen
  | v :: r =>
    have hv := h v List.mem_cons_self _ (endsNumeral_itemChars r rest)
    rw [chars_array_cons, Text.ofChars_cons, Text.ofChars_append, List.cons_append,
      List.append_assoc, tokens_cons rfl, hv,
      tokens_itemChars fun w hw ↦ h w (List.mem_cons_of_mem _ hw), reread, rereadItems, spelling,
      List.cons_append, List.append_assoc]

theorem isSpelled_object {members : List (String × Json)} (h : ∀ m ∈ members, IsSpelled m.2) :
    IsSpelled (.object members) := by
  intro rest _
  match members with
  | [] =>
    have hclose := tokens_memberChars h rest
    have hopen : tokens (some '{' :: (ofChars (memberChars []) ++ rest)) = _ := tokens_cons rfl
    rwa [hclose] at hopen
  | (k, v) :: r =>
    have hv := h (k, v) List.mem_cons_self
    rw [chars_object_cons, Text.ofChars_cons, Text.ofChars_append, Text.ofChars_cons,
      Text.ofChars_append, List.cons_append, List.append_assoc, List.cons_append,
      List.append_assoc, tokens_cons rfl, tokens_member hv (endsNumeral_memberChars r rest),
      tokens_memberChars fun w hw ↦ h w (List.mem_cons_of_mem _ hw), reread, rereadMembers,
      spelling, List.cons_append, List.cons_append, List.cons_append, List.append_assoc]

/-- The text of a readable value spells out what it denotes. -/
theorem tokens_chars {v : Json} (h : IsReadable levels v) : IsSpelled v := by
  induction h with
  | null => exact fun rest _ ↦ tokens_cons rfl
  | bool b =>
    match b with
    | true => exact fun rest _ ↦ tokens_cons rfl
    | false => exact fun rest _ ↦ tokens_cons rfl
  | @number _ n h =>
    obtain ⟨m, hm⟩ := Option.isSome_iff_exists.1 h
    intro rest hrest
    rw [chars, reread, hm]
    exact tokens_numeral hm hrest
  | text s =>
    intro rest _
    rw [chars, tokens_quoted, String.ofList_toList]
    rfl
  | array _ ih => exact isSpelled_array ih
  | object _ ih => exact isSpelled_object ih

/-! ## What is read of it -/

theorem isRead_reread {v : Json} (h : IsReadable levels v) : Tree.IsRead levels v.reread := by
  induction h with
  | null => exact Tree.isRead_null
  | bool b => exact Tree.isRead_bool b
  | number => exact Tree.isRead_number _
  | text s => exact Tree.isRead_text s
  | array _ ih =>
    rw [reread, rereadItems_eq]
    exact Tree.isRead_array (List.forall_mem_map.mpr ih)
  | object _ ih =>
    rw [reread]
    exact Tree.isRead_object (forall_mem_rereadMembers.mpr ih)

/-- The text of a readable value is read in whole, and offers what the value offers. -/
theorem Document.ofText_render {v : Json} (h : IsReadable Tree.maxDepth v) :
    ofText v.render = ⟨.ofJson v.reread, true⟩ := by
  refine ofText_of_isRead (isRead_reread h) ?_
  have htokens := tokens_chars h [] rfl
  rw [List.append_nil, tokens, List.append_nil] at htokens
  rwa [render, String.toList_ofList]

end ContainerNet.Json
