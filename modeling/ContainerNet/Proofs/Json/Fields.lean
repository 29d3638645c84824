import ContainerNet.Proofs.Json.Records
import Mathlib.Data.List.Forall2

/-!
# What a record was read from

A record that was read tells about the object that it was read from: every key is a text, no field
occurs twice, and all that are required are there (`Record.Fills`). What a field came to is what its
own member says, since no other member has to do with it (`Record.Fills.exists_set`).

## Member by member

Reading goes through the members one after the other. A member sets the field that it names, and
otherwise it is passed over, or kept for whoever reads the rest (`member_eq_ok`); `keep` stands for
the choice, and the lemmas are made for both at once. An array in place of an object has an item for
each field, in their order, if all fields are required (`positional_eq_ok`).

The other direction, from members that are known to the record, is what `Record.put` is there for.
-/

namespace ContainerNet.Json

theorem Decoded.ok_bind {α β : Type} (a : α) (f : α → Decoded β) :
    (Except.ok a : Decoded α) >>= f = f a := rfl

theorem Decoded.bind_eq_ok_iff {α β : Type} {x : Decoded α} {f : α → Decoded β} {b : β} :
    x >>= f = .ok b ↔ ∃ a, x = .ok a ∧ f a = .ok b := by
  match x with
  | .ok a =>
    refine ⟨fun h ↦ ⟨a, rfl, h⟩, ?_⟩
    rintro ⟨a', heq, h⟩
    cases heq
    exact h
  | .error e => exact ⟨nofun, fun ⟨_, heq, _⟩ ↦ nomatch heq⟩

theorem mapError_eq_ok_iff {ε ε' α : Type} {f : ε → ε'} {x : Except ε α} {a : α} :
    x.mapError f = .ok a ↔ x = .ok a := by
  cases x <;> simp [Except.mapError]

/-- Where something is read and then put in somewhere, what is not touched is as it was. -/
theorem Decoded.eq_of_put {α β γ : Type} {x : Decoded α} {put : α → β} {part : β → γ} {b : β}
    {c : γ} (h : (do return put (← x)) = .ok b) (hpart : ∀ a, part (put a) = c) : part b = c := by
  obtain ⟨a, -, heq⟩ := bind_eq_ok_iff.mp h
  rw [← Except.ok.inj heq, hpart]

theorem Decoded.mapM_eq_ok_iff {α β : Type} {f : α → Decoded β} {l : List α} {l' : List β} :
    l.mapM f = .ok l' ↔ List.Forall₂ (fun a b ↦ f a = .ok b) l l' := by
  induction l generalizing l' with
  | nil =>
    rw [List.forall₂_nil_left_iff]
    exact ⟨fun h ↦ (Except.ok.inj h).symm, fun h ↦ congrArg Except.ok h.symm⟩
  | cons a l ih =>
    rw [List.mapM_cons, List.forall₂_cons_left_iff]
    constructor
    · intro h
      obtain ⟨b, hb, h⟩ := bind_eq_ok_iff.mp h
      obtain ⟨bs, hbs, h⟩ := bind_eq_ok_iff.mp h
      exact ⟨b, bs, hb, ih.mp hbs, (Except.ok.inj h).symm⟩
    · rintro ⟨b, bs, hb, hbs, rfl⟩
      exact bind_eq_ok_iff.mpr ⟨b, hb, bind_eq_ok_iff.mpr ⟨bs, ih.mpr hbs, rfl⟩⟩

theorem Decoded.exists_mapM_eq_ok_iff {α β : Type} {f : α → Decoded β} {l : List α} :
    (∃ l', l.mapM f = .ok l') ↔ ∀ a ∈ l, ∃ b, f a = .ok b := by
  simp only [mapM_eq_ok_iff]
  induction l with
  | nil => exact ⟨fun _ ↦ List.forall_mem_nil _, fun _ ↦ ⟨[], .nil⟩⟩
  | cons a l ih =>
    rw [List.forall_mem_cons, ← ih]
    simp only [List.forall₂_cons_left_iff]
    constructor
    · rintro ⟨_, b, bs, hb, hbs, -⟩
      exact ⟨⟨b, hb⟩, bs, hbs⟩
    · rintro ⟨⟨b, hb⟩, bs, hbs⟩
      exact ⟨b :: bs, b, bs, hb, hbs, rfl⟩

theorem Tree.asList_eq_ok {α : Type} {read : Tree → Decoded α} {t : Tree} {l : List α}
    (h : t.asList read = .ok l) :
    ∃ items closed, t = .array items closed ∧ items.mapM read = .ok l := by
  cases t with
  | array items closed =>
    obtain ⟨l', hl, h⟩ := Decoded.bind_eq_ok_iff.mp h
    obtain ⟨_, -, h⟩ := Decoded.bind_eq_ok_iff.mp h
    cases h
    exact ⟨items, closed, rfl, hl⟩
  | _ => exact absurd h nofun

/-- The members of an object whose keys are texts. -/
def Tree.keyed (l : List (String × Tree)) : List (Option String × Tree) :=
  l.map fun m ↦ (some m.1, m.2)

/-- What stands under a key in an object. -/
def Tree.member? (k : String) : Tree → Option Tree
  | .object l _ => (l.find? (·.1 = some k)).map (·.2)
  | _ => none

theorem Tree.mem_of_member? {k : String} {t : Tree} {l : List (String × Tree)} {closed : Bool}
    (h : (Tree.object (keyed l) closed).member? k = some t) : (k, t) ∈ l := by
  obtain ⟨⟨_, t'⟩, hfound, rfl⟩ := Option.map_eq_some_iff.mp h
  obtain ⟨⟨j, t⟩, hmem, heq⟩ := List.mem_map.mp (List.mem_of_find?_eq_some hfound)
  cases heq
  obtain rfl : j = k := by simpa using List.find?_some hfound
  exact hmem

theorem Tree.exists_member? {k : String} {l : List (String × Tree)} (hk : k ∈ l.map (·.1))
    (closed : Bool) : ∃ t, (Tree.object (keyed l) closed).member? k = some t := by
  obtain ⟨⟨_, t⟩, hmem, rfl⟩ := List.mem_map.mp hk
  rw [member?, ← Option.isSome_iff_exists, Option.isSome_map, List.find?_isSome]
  exact ⟨_, List.mem_map_of_mem hmem, decide_eq_true rfl⟩

theorem Tree.ofMembers_eq (m : Members) :
    Tree.ofMembers m = Tree.keyed (m.map fun p ↦ (p.1, Tree.ofJson p.2)) := by
  induction m with
  | nil => rfl
  | cons p m ih =>
    rw [ofMembers, ih]
    rfl

theorem Tree.ofItems_eq (l : List Json) : Tree.ofItems l = l.map Tree.ofJson := by
  induction l with
  | nil => rfl
  | cons v l ih => rw [ofItems, ih, List.map_cons]

theorem Tree.keyed_injective : Function.Injective Tree.keyed :=
  List.map_injective_iff.mpr fun _ _ heq ↦ by simpa [Prod.ext_iff] using heq

theorem Tree.eq_text_of_asText {v : Json} {s : String} (h : (ofJson v).asText = .ok s) :
    v = .text s := by
  cases v with
  | text => exact congrArg Json.text (Except.ok.inj h)
  | _ => exact absurd h nofun

theorem Tree.eq_true_of_ended {closed : Bool} (h : ended closed = .ok ()) : closed = true := by
  cases closed with
  | true => rfl
  | false => exact absurd h nofun

mutual

/-- A tree that has a value offers nothing but the value. -/
theorem Tree.eq_ofJson_of_value : ∀ {t : Tree} {v : Json}, t.value = .ok v → t = ofJson v
  | .array items closed, v, h => by
    rw [value] at h
    obtain ⟨l, hl, h⟩ := Decoded.bind_eq_ok_iff.mp h
    obtain ⟨_, hclosed, h⟩ := Decoded.bind_eq_ok_iff.mp h
    cases h
    rw [eq_ofItems_of_valueItems hl, eq_true_of_ended hclosed, ofJson]
  | .object members closed, v, h => by
    rw [value] at h
    obtain ⟨l, hl, h⟩ := Decoded.bind_eq_ok_iff.mp h
    obtain ⟨_, hclosed, h⟩ := Decoded.bind_eq_ok_iff.mp h
    cases h
    rw [eq_ofMembers_of_valueMembers hl, eq_true_of_ended hclosed, ofJson]
  | .null, v, h | .bool _, v, h | .number _, v, h | .text _, v, h => by
    rw [value] at h
    cases h
    rfl
  | .unreadable, v, h | .broken, v, h => by
    rw [value] at h
    exact absurd h nofun

theorem Tree.eq_ofItems_of_valueItems :
    ∀ {items : List Tree} {l : List Json}, valueItems items = .ok l → items = ofItems l
  | [], l, h => by
    rw [valueItems] at h
    cases h
    rfl
  | t :: items, l, h => by
    rw [valueItems] at h
    obtain ⟨v, hv, h⟩ := Decoded.bind_eq_ok_iff.mp h
    obtain ⟨r, hr, h⟩ := Decoded.bind_eq_ok_iff.mp h
    cases h
    rw [ofItems, ← eq_ofJson_of_value hv, ← eq_ofItems_of_valueItems hr]

theorem Tree.eq_ofMembers_of_valueMembers :
    ∀ {members : List (Option String × Tree)} {l : List (String × Json)},
      valueMembers members = .ok l → members = ofMembers l
  | [], l, h => by
    rw [valueMembers] at h
    cases h
    rfl
  | (none, _) :: _, l, h => by
    rw [valueMembers] at h
    exact absurd h nofun
  | (some k, t) :: members, l, h => by
    rw [valueMembers] at h
    obtain ⟨v, hv, h⟩ := Decoded.bind_eq_ok_iff.mp h
    obtain ⟨r, hr, h⟩ := Decoded.bind_eq_ok_iff.mp h
    cases h
    rw [ofMembers, ← eq_ofJson_of_value hv, ← eq_ofMembers_of_valueMembers hr]

end

namespace Record

open Decoded (bind_eq_ok_iff)

variable {α β : Type} {r : Record α} {keep closed : Bool} {k : String} {t : Tree} {a b : α}
  {s s' : Filling α} {l : List (String × Tree)}

/-- Puts what stands under a key into the field of that name, if the record has one. -/
def putTree (r : Record α) (a : α) (m : String × Tree) : Decoded α :=
  match r.fields.find? (·.name = m.1) with
  | some f => f.set m.2 a
  | none => .ok a

/-- The names of fields that stand among the keys. -/
def named (r : Record α) (l : List (String × Tree)) : List String := (l.map (·.1)).filter r.has

/-! ## One member -/

/-- A member that names a field sets it, and did not occur before. Every other member is passed over
or kept. -/
theorem member_eq_ok (h : r.member keep k t s = .ok s') :
    r.putTree s.value (k, t) = .ok s'.value ∧
      ((r.has k = true ∧ k ∉ s.seen ∧ s'.seen = k :: s.seen ∧ s'.extra = s.extra) ∨
        (r.has k = false ∧ s'.seen = s.seen ∧
          ∀ m ∈ s'.extra, (m.1 = k ∧ t = .ofJson m.2) ∨ m ∈ s.extra)) := by
  rw [member] at h
  cases hf : r.fields.find? (·.name = k) with
  | some f =>
    have hhas : r.has k = true := by rw [has, hf]; rfl
    have hk : k ∉ s.seen := by
      intro hk
      simp [hf, hk, bind, Except.bind, throw, throwThe, MonadExceptOf.throw] at h
    simp only [hf, List.contains_eq_mem, hk, decide_false, Bool.false_eq_true, if_false] at h
    obtain ⟨value, hset, h⟩ := bind_eq_ok_iff.mp h
    cases h
    exact ⟨by rw [putTree, hf]; exact hset, .inl ⟨hhas, hk, rfl, rfl⟩⟩
  | none =>
    have hhas : r.has k = false := by rw [has, hf]; rfl
    have hput : r.putTree s.value (k, t) = .ok s.value := by rw [putTree, hf]
    simp only [hf] at h
    cases keep with
    | true =>
      obtain ⟨v, hv, h⟩ := bind_eq_ok_iff.mp h
      cases h
      refine ⟨hput, .inr ⟨hhas, rfl, fun m hm ↦ (List.mem_cons.mp hm).imp_left ?_⟩⟩
      rintro rfl
      exact ⟨rfl, Tree.eq_ofJson_of_value hv⟩
    | false =>
      obtain ⟨_, -, h⟩ := bind_eq_ok_iff.mp h
      cases h
      exact ⟨hput, .inr ⟨hhas, rfl, fun m hm ↦ .inr hm⟩⟩

/-! ## All members -/

/-- Members that are taken in fill the fields that they name, each of them once. What is kept are
members that name no field. -/
theorem members_eq_ok {l : List (Option String × Tree)} (h : r.members keep l s = .ok s') :
    ∃ l', l = Tree.keyed l' ∧ l'.foldlM r.putTree s.value = .ok s'.value ∧
      (r.named l').Nodup ∧ (∀ k ∈ r.named l', k ∉ s.seen) ∧
      (∀ k ∈ s'.seen, k ∈ l'.map (·.1) ∨ k ∈ s.seen) ∧
      ∀ m ∈ s'.extra, (r.has m.1 = false ∧ (m.1, .ofJson m.2) ∈ l') ∨ m ∈ s.extra := by
  induction l generalizing s with
  | nil =>
    cases h
    exact ⟨[], rfl, rfl, .nil, List.forall_mem_nil _, fun _ ↦ .inr, fun _ ↦ .inr⟩
  | cons m l ih =>
    obtain ⟨_ | k, t⟩ := m
    · exact absurd h nofun
    obtain ⟨s₁, hmember, h⟩ := bind_eq_ok_iff.mp h
    obtain ⟨hput, hone⟩ := member_eq_ok hmember
    obtain ⟨l', rfl, hfold, hnodup, hfresh, hseen, hextra⟩ := ih h
    refine ⟨(k, t) :: l', rfl, ?_, ?_⟩
    · rw [List.foldlM_cons]
      exact bind_eq_ok_iff.mpr ⟨_, hput, hfold⟩
    rcases hone with ⟨hhas, hk, hseen₁, hextra₁⟩ | ⟨hhas, hseen₁, hextra₁⟩
    · have hnamed : r.named ((k, t) :: l') = k :: r.named l' := List.filter_cons_of_pos hhas
      rw [hseen₁] at hfresh hseen
      rw [hextra₁] at hextra
      rw [hnamed]
      refine ⟨List.nodup_cons.mpr ⟨fun hmem ↦ hfresh k hmem List.mem_cons_self, hnodup⟩,
        List.forall_mem_cons.mpr ⟨hk, fun j hj hmem ↦ hfresh j hj (List.mem_cons_of_mem _ hmem)⟩,
        fun j hj ↦ ?_, fun m hm ↦ (hextra m hm).imp_left
          (And.imp_right (List.mem_cons_of_mem _))⟩
      rcases hseen j hj with hj | hj
      · exact .inl (List.mem_cons_of_mem _ hj)
      · exact (List.mem_cons.mp hj).imp_left fun heq ↦ List.mem_cons.mpr (.inl heq)
    · have hnamed : r.named ((k, t) :: l') = r.named l' :=
        List.filter_cons_of_neg (by simp [hhas])
      rw [hseen₁] at hfresh hseen
      rw [hnamed]
      refine ⟨hnodup, hfresh, fun j hj ↦ (hseen j hj).imp_left (List.mem_cons_of_mem _),
        fun m hm ↦ ?_⟩
      rcases hextra m hm with ⟨hno, hm⟩ | hm
      · exact .inl ⟨hno, List.mem_cons_of_mem _ hm⟩
      · refine (hextra₁ m hm).imp_left ?_
        rintro ⟨rfl, rfl⟩
        exact ⟨hhas, List.mem_cons_self⟩

/-! ## The whole object -/

/-- What is known of members that fill a record. -/
structure Fills (r : Record α) (l : List (String × Tree)) (a : α) : Prop where
  nodup : (r.named l).Nodup
  required : ∀ f ∈ r.fields, f.required = true → f.name ∈ l.map (·.1)
  foldlM_eq : l.foldlM r.putTree r.initial = .ok a

/-- An object that a record was read from has members that fill it, and what is left over are
members that name no field. -/
theorem ofObject_eq_ok {l : List (Option String × Tree)} {rest : Members}
    (h : r.ofObject keep l closed = .ok (a, rest)) :
    ∃ l', l = Tree.keyed l' ∧ r.Fills l' a ∧
      ∀ m ∈ rest, r.has m.1 = false ∧ (m.1, .ofJson m.2) ∈ l' := by
  obtain ⟨s, hmembers, hended⟩ := bind_eq_ok_iff.mp h
  obtain ⟨_, -, hfilled⟩ := bind_eq_ok_iff.mp hended
  obtain ⟨l', rfl, hfold, hnodup, -, hseen, hextra⟩ := members_eq_ok hmembers
  match hmissing : r.missing? s.seen with
  | some name =>
    rw [hmissing] at hfilled
    exact absurd hfilled nofun
  | none =>
    rw [hmissing] at hfilled
    cases hfilled
    refine ⟨l', rfl, ⟨hnodup, fun f hf hrequired ↦ ?_, hfold⟩, fun m hm ↦ ?_⟩
    · rw [missing?, Option.map_eq_none_iff, List.find?_eq_none] at hmissing
      have hmem : f.name ∈ s.seen := by simpa [hrequired] using hmissing f hf
      exact (hseen _ hmem).resolve_right List.not_mem_nil
    · exact (hextra m (List.mem_reverse.mp hm)).resolve_right List.not_mem_nil

theorem read_object_eq_ok {l : List (Option String × Tree)}
    (h : r.read (.object l closed) = .ok a) : ∃ l', l = Tree.keyed l' ∧ r.Fills l' a := by
  obtain ⟨⟨a', rest⟩, hobject, heq⟩ := bind_eq_ok_iff.mp h
  obtain rfl : a' = a := Except.ok.inj heq
  obtain ⟨l', hl, hfills, -⟩ := ofObject_eq_ok hobject
  exact ⟨l', hl, hfills⟩

theorem readOpen_eq_ok {t : Tree} {rest : Members} (h : r.readOpen t = .ok (a, rest)) :
    ∃ l closed, t = .object (Tree.keyed l) closed ∧ r.Fills l a ∧
      ∀ m ∈ rest, r.has m.1 = false ∧ (m.1, .ofJson m.2) ∈ l := by
  cases t with
  | object l closed =>
    obtain ⟨l', rfl, hfills⟩ := ofObject_eq_ok h
    exact ⟨l', closed, rfl, hfills⟩
  | _ => exact absurd h nofun

/-- An array that a record was read from has an item for each field, if all of them are required. -/
theorem positional_eq_ok {fs : List (Field α)} {items : List Tree}
    (hrequired : ∀ f ∈ fs, f.required = true) (h : positional closed fs items a = .ok b) :
    items.length = fs.length ∧ (fs.zip items).foldlM (fun a p ↦ p.1.set p.2 a) a = .ok b := by
  induction fs generalizing items a with
  | nil =>
    cases items with
    | nil =>
      obtain ⟨_, -, h⟩ := bind_eq_ok_iff.mp h
      exact ⟨rfl, h⟩
    | cons => exact absurd h nofun
  | cons f fs ih =>
    obtain ⟨hf, hfs⟩ := List.forall_mem_cons.mp hrequired
    cases items with
    | nil =>
      obtain ⟨_, -, h⟩ := bind_eq_ok_iff.mp h
      rw [if_pos (by rw [List.any_cons, hf, Bool.true_or])] at h
      exact absurd h nofun
    | cons t items =>
      obtain ⟨a', hset, h⟩ := bind_eq_ok_iff.mp h
      obtain ⟨hlength, hfold⟩ := ih hfs h
      refine ⟨congrArg (· + 1) hlength, ?_⟩
      rw [List.zip_cons_cons, List.foldlM_cons]
      exact bind_eq_ok_iff.mpr ⟨a', hset, hfold⟩

/-! ## One field -/

/-- Whether a part of the record is left as it is by all fields but one. -/
def SetsAlone (r : Record α) (k : String) (part : α → β) : Prop :=
  ∀ f ∈ r.fields, f.name ≠ k → ∀ t a b, f.set t a = .ok b → part b = part a

theorem SetsAlone.putTree {part : α → β} (h : r.SetsAlone k part) {m : String × Tree}
    (hk : m.1 ≠ k) (hput : r.putTree a m = .ok b) : part b = part a := by
  rw [Record.putTree] at hput
  split at hput
  next f hf =>
    have hname : f.name = m.1 := by simpa using List.find?_some hf
    exact h f (List.mem_of_find?_eq_some hf) (by rwa [hname]) _ _ _ hput
  next => rw [Except.ok.inj hput]

theorem SetsAlone.foldlM {part : α → β} (h : r.SetsAlone k part) (hk : k ∉ l.map (·.1))
    (hfold : l.foldlM r.putTree a = .ok b) : part b = part a := by
  induction l generalizing a with
  | nil => rw [Except.ok.inj hfold]
  | cons m l ih =>
    rw [List.map_cons, List.mem_cons, not_or] at hk
    rw [List.foldlM_cons] at hfold
    obtain ⟨a', hput, hfold⟩ := bind_eq_ok_iff.mp hfold
    rw [ih hk.2 hfold, h.putTree (Ne.symm hk.1) hput]

theorem Fills.exists_set {part : α → β} (h : r.Fills l a) (hpart : r.SetsAlone k part)
    (hmem : (k, t) ∈ l) {f : Field α} (hf : r.fields.find? (·.name = k) = some f) :
    ∃ a₀ a₁, f.set t a₀ = .ok a₁ ∧ part a = part a₁ := by
  obtain ⟨pre, post, rfl⟩ := List.append_of_mem hmem
  have hhas : r.has k = true := by rw [has, hf]; rfl
  have hpost : k ∉ post.map (·.1) := by
    have hnodup := h.nodup
    rw [named, List.map_append, List.filter_append, List.map_cons,
      List.filter_cons_of_pos hhas] at hnodup
    have hlast := (List.nodup_append.mp hnodup).2.1
    exact fun hk ↦ (List.nodup_cons.mp hlast).1 (List.mem_filter.mpr ⟨hk, hhas⟩)
  have hfold := h.foldlM_eq
  rw [List.foldlM_append] at hfold
  obtain ⟨a₀, -, hfold⟩ := bind_eq_ok_iff.mp hfold
  rw [List.foldlM_cons] at hfold
  obtain ⟨a₁, hput, hfold⟩ := bind_eq_ok_iff.mp hfold
  rw [putTree, hf] at hput
  exact ⟨a₀, a₁, hput, hpart.foldlM hpost hfold⟩

end Record

end ContainerNet.Json
