import ContainerNet.Proofs.Json.Reading

/-!
# Records from known members

Where an object holds members with different keys, and all that a record requires, the order of
its members is the order in which the fields are filled, and nothing can go wrong but a field
refusing its value. That leaves `Record.put`, member by member: a decoder is run without looking
at duplicates, at missing fields or at members that are passed over.

## Which keys matter

The condition on keys is about those that name a field. Members that no field knows may occur as
often as they like: they are passed over, or kept. A field that may be left out is put in if it is
there, and otherwise it keeps what the record starts with (`foldlM_put_optional`), so a record that
was written without its empty fields is filled like one that was written in full.
-/

namespace ContainerNet.Json

namespace Tree

/-! ## Values that are known -/

mutual

@[simp] theorem value_ofJson : ∀ v : Json, value (ofJson v) = .ok v
  | .null | .bool _ | .number _ | .text _ => by rw [ofJson, value]
  | .array items => by
    rw [ofJson, value, valueItems_ofItems items]
    rfl
  | .object members => by
    rw [ofJson, value, valueMembers_ofMembers members]
    rfl

theorem valueItems_ofItems : ∀ l : List Json, valueItems (ofItems l) = .ok l
  | [] => by rw [ofItems, valueItems]
  | v :: r => by
    rw [ofItems, valueItems, value_ofJson v, valueItems_ofItems r]
    rfl

theorem valueMembers_ofMembers : ∀ l : List (String × Json), valueMembers (ofMembers l) = .ok l
  | [] => by rw [ofMembers, valueMembers]
  | (k, v) :: r => by
    rw [ofMembers, valueMembers, value_ofJson v, valueMembers_ofMembers r]
    rfl

end

theorem ofJson_injective : Function.Injective ofJson := fun v v' heq ↦ by
  simpa using congrArg value heq

mutual

@[simp] theorem skip_ofJson : ∀ v : Json, skip (ofJson v) = .ok ()
  | .null | .bool _ | .number _ | .text _ => by simp [ofJson, skip]
  | .array items => by
    rw [ofJson, skip, skipItems_ofItems items]
    rfl
  | .object members => by
    rw [ofJson, skip, skipMembers_ofMembers members]
    rfl

theorem skipItems_ofItems : ∀ l : List Json, skipItems (ofItems l) = .ok ()
  | [] => by rw [ofItems, skipItems]
  | v :: r => by
    rw [ofItems, skipItems, skip_ofJson v]
    exact skipItems_ofItems r

theorem skipMembers_ofMembers : ∀ l : List (String × Json), skipMembers (ofMembers l) = .ok ()
  | [] => by rw [ofMembers, skipMembers]
  | (k, v) :: r => by
    rw [ofMembers, skipMembers, skip_ofJson v]
    exact skipMembers_ofMembers r

end

end Tree

theorem Document.decode_complete {α : Type} (t : Tree) (read : Tree → Decoded α) :
    (Document.mk t true).decode read = read t := by
  change (read t >>= fun a ↦ .ok a) = read t
  cases read t with
  | error e => rfl
  | ok a => rfl

namespace Record

variable {α : Type} {r : Record α} {a b : α} {l : List (String × Json)}

/-- Whether a record has a field of that name. -/
def has (r : Record α) (k : String) : Bool := (r.fields.find? (·.name = k)).isSome

/-- Puts a value into the field of that name, if the record has one. -/
def put (r : Record α) (a : α) (m : String × Json) : Decoded α :=
  match r.fields.find? (·.name = m.1) with
  | some f => f.set (.ofJson m.2) a
  | none => .ok a

theorem put_of_not_has {k : String} (h : r.has k = false) (v : Json) (a : α) :
    r.put a (k, v) = .ok a := by
  rw [has, Option.isSome_eq_false_iff, Option.isNone_iff_eq_none] at h
  rw [put, h]

theorem foldlM_put_of_not_has (h : ∀ m ∈ l, r.has m.1 = false) (a : α) :
    l.foldlM r.put a = .ok a := by
  induction l with
  | nil => rfl
  | cons m l ih =>
    rw [List.foldlM_cons, put_of_not_has (h m List.mem_cons_self) m.2]
    exact ih fun m' hm' ↦ h m' (List.mem_cons_of_mem _ hm')

theorem foldlM_put_filter (l : List (String × Json)) (a : α) :
    (l.filter (r.has ·.1)).foldlM r.put a = l.foldlM r.put a := by
  induction l generalizing a with
  | nil => rfl
  | cons m l ih =>
    rw [List.filter_cons, List.foldlM_cons]
    split
    next => simp only [List.foldlM_cons, ih]
    next h =>
      rw [put_of_not_has (Bool.not_eq_true _ ▸ h) m.2, ih]
      rfl

/-- A member that may be left out is put in if it is there. -/
theorem foldlM_put_optional {β : Type} {k : String} {f : β → Json} {o : Option β}
    (hnone : o = none → a = b) (hsome : ∀ x, o = some x → r.put a (k, f x) = .ok b) :
    (optional k f o).foldlM r.put a = .ok b := by
  match o with
  | none => exact congrArg _ (hnone rfl)
  | some x =>
    rw [optional, List.foldlM_cons, hsome x rfl]
    rfl

theorem foldlM_optional {β : Type} {k : String} {f : β → Json} {o : Option β}
    (hnone : o = none → a = b)
    (hsome : ∀ x, o = some x → r.put a (k, (f x).reread) = .ok b) :
    (rereadMembers (optional k f o)).foldlM r.put a = .ok b := by
  have hmembers : rereadMembers (optional k f o) = optional k (fun x ↦ (f x).reread) o := by
    cases o with
    | none => rfl
    | some x => rfl
  rw [hmembers]
  exact foldlM_put_optional hnone hsome

theorem keys_optional {β : Type} (k : String) (f : β → Json) (o : Option β) :
    ((optional k f o).map (·.1)).Sublist [k] := by
  match o with
  | none => exact List.nil_sublist _
  | some _ => exact List.Sublist.refl _

/-- The names of fields that stand among the keys of members. -/
def namesIn (r : Record α) (l : List (String × Json)) : List String := (l.map (·.1)).filter r.has

theorem nodup_namesIn (r : Record α) (h : (l.map (·.1)).Nodup) : (r.namesIn l).Nodup :=
  h.filter _

/-- Members fill the fields that they name, in their order, if they name each of them once; the
others are kept if that is asked for. -/
theorem members_ofMembers (keep : Bool) {s : Filling α} (hnodup : (r.namesIn l).Nodup)
    (hseen : ∀ k ∈ r.namesIn l, k ∉ s.seen) (h : l.foldlM r.put s.value = .ok a) :
    r.members keep (Tree.ofMembers l) s =
      .ok ⟨a, (r.namesIn l).reverse ++ s.seen,
        if keep then (l.filter (!r.has ·.1)).reverse ++ s.extra else s.extra⟩ := by
  induction l generalizing s with
  | nil =>
    obtain rfl : s.value = a := Except.ok.inj h
    rw [Tree.ofMembers, members]
    split <;> rfl
  | cons m l ih =>
    obtain ⟨k, v⟩ := m
    obtain ⟨b, hput, h⟩ : ∃ b, r.put s.value (k, v) = .ok b ∧ l.foldlM r.put b = .ok a := by
      rw [List.foldlM_cons] at h
      match hput : r.put s.value (k, v) with
      | .ok b => exact ⟨b, rfl, by rwa [hput] at h⟩
      | .error e => rw [hput] at h; exact absurd h (by rintro ⟨⟩)
    rw [Tree.ofMembers, members]
    match hf : r.fields.find? (·.name = k) with
    | some f =>
      have hset : f.set (.ofJson v) s.value = .ok b := by rw [put, hf] at hput; exact hput
      have hhas : r.has k = true := by rw [has, hf]; rfl
      have hnames : r.namesIn ((k, v) :: l) = k :: r.namesIn l := List.filter_cons_of_pos hhas
      rw [hnames] at hnodup hseen
      have hk : k ∉ s.seen := hseen k List.mem_cons_self
      have hmember : r.member keep k (.ofJson v) s =
          .ok { s with value := b, seen := k :: s.seen } := by
        simp only [member, hf, List.contains_eq_mem, hk, hset]
        rfl
      rw [hmember]
      refine (ih hnodup.of_cons ?_ h).trans ?_
      · intro k' hk' hmem
        obtain rfl | hmem := List.mem_cons.1 hmem
        · exact (List.nodup_cons.mp hnodup).1 hk'
        · exact hseen k' (List.mem_cons_of_mem _ hk') hmem
      · simp [hhas, hnames]
    | none =>
      obtain rfl : s.value = b := by rw [put, hf] at hput; exact Except.ok.inj hput
      have hhas : r.has k = false := by rw [has, hf]; rfl
      have hnames : r.namesIn ((k, v) :: l) = r.namesIn l :=
        List.filter_cons_of_neg (by simp [hhas])
      rw [hnames] at hnodup hseen
      have hmember : r.member keep k (.ofJson v) s =
          .ok { s with extra := if keep then (k, v) :: s.extra else s.extra } := by
        simp only [member, hf, Tree.value_ofJson, Tree.skip_ofJson]
        split <;> rfl
      rw [hmember]
      refine (ih (s := { s with extra := if keep then (k, v) :: s.extra else s.extra }) hnodup
        hseen h).trans ?_
      rw [hnames, List.filter_cons_of_pos (by simp [hhas])]
      split <;> simp

/-- An object of members that name each field at most once, and all that are required, fills the
record. -/
theorem ofObject_ofMembers (keep : Bool) (hnodup : (r.namesIn l).Nodup)
    (hrequired : ∀ f ∈ r.fields, f.required = true → f.name ∈ l.map (·.1))
    (h : l.foldlM r.put r.initial = .ok a) :
    r.ofObject keep (Tree.ofMembers l) true =
      .ok (a, if keep then l.filter (!r.has ·.1) else []) := by
  have hmembers := members_ofMembers keep (s := ⟨r.initial, [], []⟩) hnodup
    (fun _ _ ↦ List.not_mem_nil) h
  have hmissing : r.missing? ((r.namesIn l).reverse ++ []) = none := by
    rw [missing?, Option.map_eq_none_iff, List.find?_eq_none]
    intro f hf hmiss
    rw [Bool.and_eq_true] at hmiss
    have hhas : r.has f.name = true := List.find?_isSome.2 ⟨f, hf, by simp⟩
    have hmem : f.name ∈ r.namesIn l := List.mem_filter.mpr ⟨hrequired f hf hmiss.1, hhas⟩
    simp [hmem] at hmiss
  rw [ofObject, hmembers]
  simp only [bind, Except.bind, Tree.ended, if_true, hmissing]
  split <;> simp [pure, Except.pure]

variable (hnodup : (l.map (·.1)).Nodup)
  (hrequired : ∀ f ∈ r.fields, f.required = true → f.name ∈ l.map (·.1))
  (h : l.foldlM r.put r.initial = .ok a)

include hnodup hrequired h

theorem read_object : r.read (.object (Tree.ofMembers l) true) = .ok a := by
  rw [read, ofObject_ofMembers _ (r.nodup_namesIn hnodup) hrequired h]
  rfl

theorem readOpen_object :
    r.readOpen (.object (Tree.ofMembers l) true) = .ok (a, l.filter (!r.has ·.1)) := by
  rw [readOpen, ofObject_ofMembers _ (r.nodup_namesIn hnodup) hrequired h, if_pos rfl]

theorem ofMembers_eq : r.ofMembers l = .ok a := by
  rw [ofMembers, ofObject_ofMembers _ (r.nodup_namesIn hnodup) hrequired h]
  rfl

end Record

/-! ## Lists and values that may be absent -/

theorem asList_ofJson {α : Type} {read : Tree → Decoded α} {f : α → Json} {l : List α}
    (h : ∀ a ∈ l, read (.ofJson (f a)) = .ok a) :
    Tree.asList read (.ofJson (.array (l.map f))) = .ok l := by
  have hitems : (Tree.ofItems (l.map f)).mapM read = .ok l := by
    induction l with
    | nil => rfl
    | cons a l ih =>
      rw [List.map_cons, Tree.ofItems, List.mapM_cons, h a List.mem_cons_self,
        ih fun b hb ↦ h b (List.mem_cons_of_mem _ hb)]
      rfl
  rw [Tree.ofJson, Tree.asList, hitems]
  rfl

theorem asList_reread {α : Type} {read : Tree → Decoded α} {f : α → Json} {l : List α}
    (h : ∀ a ∈ l, read (.ofJson (f a).reread) = .ok a) :
    Tree.asList read (.ofJson (Json.array (l.map f)).reread) = .ok l := by
  rw [reread, rereadItems_eq, List.map_map]
  exact asList_ofJson h

theorem asOption_text {α : Type} {read : Tree → Decoded α} {s : String} {a : α}
    (h : read (.text s) = .ok a) : Tree.asOption read (.text s) = .ok (some a) := by
  rw [Tree.asOption, h]
  · rfl
  · exact nofun

end ContainerNet.Json
