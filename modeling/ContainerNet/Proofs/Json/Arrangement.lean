import ContainerNet.Proofs.Json.Nesting
import Mathlib.Data.List.Pairwise

/-!
# In another arrangement

A record is filled from members in their order, and what its fields have in common is only the
record that they fill. So if the fields do not get in each other's way, the order of the members
does not matter, nor do members that name no field (`Record.Respects.ofObject`).

What a field holds can itself be arranged in another way. So members are said to agree up to a
relation for each key, and readers of values up to a relation are put together from readers of their
parts (`Respects`).
-/

namespace ContainerNet.Json

open Decoded (bind_eq_ok_iff)

/-! ## Arrangements -/

/-- A relation between values for each key. -/
abbrev Relations := String → Json → Json → Prop

/-- Members agree if under the known keys there stands the same in both, up to the order of the
members and a relation for each key. Under other keys there may stand anything in either. -/
def Agree (known : String → Bool) (R : Relations) (l l' : Members) : Prop :=
  ∃ p, (l.filter (known ·.1)).Perm p ∧
    List.Forall₂ (fun m m' ↦ m'.1 = m.1 ∧ R m.1 m.2 m'.2) p (l'.filter (known ·.1))

/-- Items in place of the fields of these names, related one by one. -/
inductive AgreeItems (R : Relations) : List String → List Json → List Json → Prop
  | nil {names : List String} : AgreeItems R names [] []
  | cons {k : String} {names : List String} {v v' : Json} {l l' : List Json} : R k v v' →
    AgreeItems R names l l' → AgreeItems R (k :: names) (v :: l) (v' :: l')

/-- One record in two arrangements: an object by its members, an array item by item. -/
inductive Arranged (names : List String) (R : Relations) : Json → Json → Prop
  | object {l l' : Members} : Agree names.contains R l l' →
    Arranged names R (.object l) (.object l')
  | array {l l' : List Json} : AgreeItems R names l l' → Arranged names R (.array l) (.array l')
  | refl (v : Json) : Arranged names R v v

/-- Two arrays of related items. -/
inductive ArrangedItems (R : Json → Json → Prop) : Json → Json → Prop
  | array {l l' : List Json} : List.Forall₂ R l l' → ArrangedItems R (.array l) (.array l')
  | refl (v : Json) : ArrangedItems R v v

namespace Agree

variable {known known' : String → Bool} {R : Relations} {l l' extra : Members}

/-- Members in another order agree, with any others that are not known. -/
theorem of_perm (hR : ∀ k v, R k v v) (h : (l ++ extra).Perm l')
    (hextra : ∀ m ∈ extra, known m.1 = false) : Agree known R l l' := by
  refine ⟨l'.filter (known ·.1), ?_, List.forall₂_same.mpr fun m _ ↦ ⟨rfl, hR m.1 m.2⟩⟩
  have hnone : extra.filter (known ·.1) = [] :=
    List.filter_eq_nil_iff.mpr fun m hm ↦ by simp [hextra m hm]
  have hfilter := h.filter (known ·.1)
  rwa [List.filter_append, hnone, List.append_nil] at hfilter

/-- What agrees agrees where less is known, also among the members that are left over then. -/
theorem mono (h : Agree known R l l') (hknown : ∀ k, known' k = true → known k = true) :
    Agree known' R l l' := by
  obtain ⟨p, hp, hagree⟩ := h
  have hfilter (l : Members) :
      (l.filter (known ·.1)).filter (known' ·.1) = l.filter (known' ·.1) := by
    rw [List.filter_filter]
    refine List.filter_congr fun m _ ↦ ?_
    cases hm : known' m.1 with
    | true => rw [hknown _ hm]; rfl
    | false => rfl
  refine ⟨p.filter (known' ·.1), hfilter l ▸ hp.filter _, hfilter l' ▸ ?_⟩
  refine List.rel_filter (fun m m' h ↦ ?_) hagree
  show known' m.1 = true ↔ known' m'.1 = true
  rw [h.1]

theorem filter (h : Agree known R l l') (keep : String → Bool)
    (hkeep : ∀ k, known k = true → keep k = true) :
    Agree known R (l.filter (keep ·.1)) (l'.filter (keep ·.1)) := by
  have hfilter (l : Members) :
      (l.filter (keep ·.1)).filter (known ·.1) = l.filter (known ·.1) := by
    rw [List.filter_filter]
    refine List.filter_congr fun m _ ↦ ?_
    cases hm : known m.1 with
    | true => rw [hkeep _ hm]; rfl
    | false => rfl
  rw [Agree, hfilter, hfilter]
  exact h

theorem imp {R' : Relations} (h : Agree known R l l')
    (hR : ∀ k, known k = true → ∀ v v', R k v v' → R' k v v') : Agree known R' l l' := by
  obtain ⟨p, hp, hagree⟩ := h
  have hknown : ∀ m ∈ p, known m.1 = true := fun m hm ↦
    (List.mem_filter.mp (hp.mem_iff.mpr hm)).2
  have hboth := (List.forall₂_and_left _ _).mpr ⟨hknown, hagree⟩
  exact ⟨p, hp, hboth.imp fun m _ ⟨hm, hkey, hvalue⟩ ↦ ⟨hkey, hR m.1 hm _ _ hvalue⟩⟩

/-- Where the values are the same, it does not matter which members come first. -/
theorem symm (h : Agree known (fun _ ↦ Eq) l l') : Agree known (fun _ ↦ Eq) l' l := by
  obtain ⟨p, hp, hagree⟩ := h
  have hsame : p = l'.filter (known ·.1) := by
    rw [← List.forall₂_eq_eq_eq]
    exact hagree.imp fun _ _ hm ↦ Prod.ext hm.1.symm hm.2
  exact ⟨_, (hsame ▸ hp).symm, List.forall₂_same.mpr fun _ _ ↦ ⟨rfl, rfl⟩⟩

theorem keys_perm (h : Agree known R l l') :
    ((l.map (·.1)).filter known).Perm ((l'.map (·.1)).filter known) := by
  obtain ⟨p, hp, hagree⟩ := h
  have hkeys : p.map (·.1) = (l'.filter (known ·.1)).map (·.1) := by
    rw [← List.forall₂_eq_eq_eq, List.forall₂_map_left_iff, List.forall₂_map_right_iff]
    exact hagree.imp fun _ _ hm ↦ hm.1.symm
  have hmap (l : Members) : (l.map (·.1)).filter known = (l.filter (known ·.1)).map (·.1) :=
    List.filter_map
  rw [hmap, hmap, ← hkeys]
  exact hp.map _

end Agree

/-! ## Fields that do not get in each other's way -/

/-- Whether two fields can be set in either order. -/
def Field.Commutes {α : Type} (f g : Field α) : Prop :=
  f.name ≠ g.name → ∀ t u a b, (f.set t a >>= g.set u) = .ok b ↔ (g.set u a >>= f.set t) = .ok b

instance {α : Type} : Std.Symm (Field.Commutes (α := α)) where
  symm _ _ h hne t u a b := (h hne.symm u t a b).symm

/-- Fields can be set in either order if each puts in what it has read, and the parts of the record
that they put it into are different ones. -/
theorem Field.Commutes.of_put {α β γ : Type} {name name' : String} {required required' : Bool}
    {read : Tree → Decoded β} {read' : Tree → Decoded γ} {put : β → α → α} {put' : γ → α → α}
    (h : ∀ x y a, put' y (put x a) = put x (put' y a)) :
    Field.Commutes ⟨name, fun t a ↦ do return put (← read t) a, required⟩
      ⟨name', fun t a ↦ do return put' (← read' t) a, required'⟩ := by
  intro _ t u a b
  cases hx : read t with
  | error e => cases hy : read' u <;> simp [hx, hy, bind, Except.bind, pure, Except.pure]
  | ok x => cases hy : read' u <;> simp [hx, hy, h, bind, Except.bind, pure, Except.pure]

/-! ## Related values -/

/-- Whether a reader reads from related values the same. -/
def Respects {α : Type} (read : Tree → Decoded α) (R : Json → Json → Prop) : Prop :=
  ∀ ⦃v v' : Json⦄ ⦃a : α⦄, R v v' → read (.ofJson v) = .ok a → read (.ofJson v') = .ok a

/-- Whether related values set a field to the same. -/
def Field.Respects {α : Type} (f : Field α) (R : Json → Json → Prop) : Prop :=
  ∀ ⦃v v' : Json⦄ ⦃a b : α⦄, R v v' → f.set (.ofJson v) a = .ok b → f.set (.ofJson v') a = .ok b

theorem Field.respects_eq {α : Type} (f : Field α) : f.Respects Eq := by
  rintro v _ a b rfl h
  exact h

theorem Field.Respects.of_read {α β : Type} {name : String} {required : Bool}
    {read : Tree → Decoded β} {put : β → α → α} {R : Json → Json → Prop}
    (h : Json.Respects read R) :
    Field.Respects ⟨name, fun t a ↦ do return put (← read t) a, required⟩ R := by
  intro v v' a b hv hset
  obtain ⟨x, hx, heq⟩ := bind_eq_ok_iff.mp hset
  exact bind_eq_ok_iff.mpr ⟨x, h hv hx, heq⟩

namespace Record

variable {α : Type} {r : Record α} {R : Relations} {a b : α} {keep : Bool} {l l' : Members}
  {rest : Members}

/-- Whether the fields of a record can be set in any order, and from related values the same. -/
structure Respects (r : Record α) (R : Relations) : Prop where
  commutes : r.fields.Pairwise Field.Commutes
  set : ∀ f ∈ r.fields, f.Respects (R f.name)

theorem Respects.single {f : Field α} (h : f.Respects (R f.name)) :
    (⟨a, [f]⟩ : Record α).Respects R where
  commutes := List.pairwise_singleton _ _
  set := List.forall_mem_singleton.mpr h

theorem has_eq_contains (r : Record α) (k : String) :
    r.has k = (r.fields.map (·.name)).contains k := by
  rw [Bool.eq_iff_iff, has, List.find?_isSome, List.contains_iff_mem, List.mem_map]
  simp

/-- What agrees on enough keys agrees on the fields. -/
theorem agree_has (r : Record α) {names : List String} (h : Agree names.contains R l l')
    (hnames : r.fields.map (·.name) ⊆ names) : Agree r.has R l l' := by
  refine h.mono fun k hk ↦ ?_
  rw [has_eq_contains, List.contains_iff_mem] at hk
  exact List.contains_iff_mem.mpr (hnames hk)

/-- What agrees on keys that name no field agrees on them also where the fields are taken out. -/
theorem agree_rest (r : Record α) {names names' : List String} (h : Agree names.contains R l l')
    (hnames : names' ⊆ names) (hrest : ∀ k ∈ names', r.has k = false) :
    Agree names'.contains R (l.filter (!r.has ·.1)) (l'.filter (!r.has ·.1)) := by
  have hsome := h.mono fun k hk ↦
    List.contains_iff_mem.mpr (hnames (List.contains_iff_mem.mp hk))
  refine hsome.filter (!r.has ·) fun k hk ↦ ?_
  rw [hrest k (List.contains_iff_mem.mp hk), Bool.not_false]

/-- Exactly the objects with members that name each field at most once, and all that are required,
fill a record. -/
theorem ofObject_ofMembers_eq_ok_iff : r.ofObject keep (Tree.ofMembers l) true = .ok (a, rest) ↔
    (r.namesIn l).Nodup ∧ (∀ f ∈ r.fields, f.required = true → f.name ∈ l.map (·.1)) ∧
      l.foldlM r.put r.initial = .ok a ∧ rest = if keep then l.filter (!r.has ·.1) else [] := by
  constructor
  · intro h
    obtain ⟨l', hl, ⟨hnodup, hrequired, hfold⟩, -⟩ := ofObject_eq_ok h
    rw [Tree.ofMembers_eq] at hl
    obtain rfl := Tree.keyed_injective hl
    rw [named, List.map_map] at hnodup
    rw [List.map_map] at hrequired
    rw [List.foldlM_map] at hfold
    have hobject := ofObject_ofMembers keep hnodup hrequired hfold
    rw [hobject] at h
    cases h
    exact ⟨hnodup, hrequired, hfold, rfl⟩
  · rintro ⟨hnodup, hrequired, hfold, rfl⟩
    exact ofObject_ofMembers keep hnodup hrequired hfold

/-! ## Any order -/

theorem put_comm (h : r.fields.Pairwise Field.Commutes) {m m' : String × Json}
    (hne : r.has m.1 = true → m.1 ≠ m'.1) (hput : (r.put a m >>= (r.put · m')) = .ok b) :
    (r.put a m' >>= (r.put · m)) = .ok b := by
  have hany := h.forall_of_forall fun f _ hself ↦ absurd rfl hself
  -- a member that names no field changes nothing, so the order matters for two fields only
  cases hf : r.fields.find? (·.name = m.1) with
  | none =>
    have hid (a : α) : r.put a m = .ok a := by rw [put, hf]
    rw [hid, Decoded.ok_bind] at hput
    exact bind_eq_ok_iff.mpr ⟨b, hput, hid b⟩
  | some f =>
    cases hg : r.fields.find? (·.name = m'.1) with
    | none =>
      have hid (a : α) : r.put a m' = .ok a := by rw [put, hg]
      obtain ⟨b', hb', hb⟩ := bind_eq_ok_iff.mp hput
      cases (hid b').symm.trans hb
      rw [hid, Decoded.ok_bind, hb']
    | some g =>
      have hname : f.name = m.1 := by simpa using List.find?_some hf
      have hname' : g.name = m'.1 := by simpa using List.find?_some hg
      have hfg : f.name ≠ g.name := by
        rw [hname, hname']
        exact hne (by rw [has, hf]; rfl)
      simp only [put, hf, hg] at hput ⊢
      have hcommutes : f.Commutes g :=
        hany (List.mem_of_find?_eq_some hf) (List.mem_of_find?_eq_some hg)
      exact (hcommutes hfg _ _ _ _).mp hput

theorem namesIn_perm (hperm : l.Perm l') : (r.namesIn l).Perm (r.namesIn l') :=
  (hperm.map _).filter _

/-- The order of members does not matter if none of them names a field again. -/
theorem foldlM_put_perm (h : r.fields.Pairwise Field.Commutes) (hperm : l.Perm l')
    (hnodup : (r.namesIn l).Nodup) (hfold : l.foldlM r.put a = .ok b) :
    l'.foldlM r.put a = .ok b := by
  induction hperm generalizing a with
  | nil => exact hfold
  | @cons m l l' _ ih =>
    have hrest : (r.namesIn l).Nodup :=
      hnodup.sublist (((List.sublist_cons_self m l).map _).filter _)
    rw [List.foldlM_cons] at hfold ⊢
    obtain ⟨a', hput, hfold⟩ := bind_eq_ok_iff.mp hfold
    exact bind_eq_ok_iff.mpr ⟨a', hput, ih hrest hfold⟩
  | swap m m' l =>
    -- the two may both name no field, but not the same field
    have hne : r.has m'.1 = true → m'.1 ≠ m.1 := by
      intro hhas heq
      have hnames : r.namesIn (m' :: m :: l) = m'.1 :: m.1 :: r.namesIn l := by
        simp [namesIn, hhas, heq ▸ hhas]
      rw [hnames, heq] at hnodup
      exact (List.nodup_cons.mp hnodup).1 List.mem_cons_self
    rw [List.foldlM_cons] at hfold ⊢
    obtain ⟨a₁, hput, hfold⟩ := bind_eq_ok_iff.mp hfold
    rw [List.foldlM_cons] at hfold
    obtain ⟨a₂, hput', hfold⟩ := bind_eq_ok_iff.mp hfold
    have hboth := put_comm h hne (bind_eq_ok_iff.mpr ⟨a₁, hput, hput'⟩)
    obtain ⟨a₁', hput, hput'⟩ := bind_eq_ok_iff.mp hboth
    refine bind_eq_ok_iff.mpr ⟨a₁', hput, ?_⟩
    rw [List.foldlM_cons]
    exact bind_eq_ok_iff.mpr ⟨a₂, hput', hfold⟩
  | trans hperm _ ih ih' =>
    exact ih' ((namesIn_perm hperm).nodup_iff.mp hnodup) (ih hnodup hfold)

theorem Respects.put (h : r.Respects R) {m m' : String × Json} (hkey : m'.1 = m.1)
    (hm : R m.1 m.2 m'.2) (hput : r.put a m = .ok b) : r.put a m' = .ok b := by
  rw [Record.put] at hput ⊢
  rw [hkey]
  split at hput
  next f hf =>
    have hname : f.name = m.1 := by simpa using List.find?_some hf
    exact h.set f (List.mem_of_find?_eq_some hf) (hname ▸ hm) hput
  next => exact hput

theorem Respects.foldlM_put (h : r.Respects R)
    (hagree : List.Forall₂ (fun m m' ↦ m'.1 = m.1 ∧ R m.1 m.2 m'.2) l l')
    (hfold : l.foldlM r.put a = .ok b) : l'.foldlM r.put a = .ok b := by
  induction hagree generalizing a with
  | nil => exact hfold
  | cons hm _ ih =>
    rw [List.foldlM_cons] at hfold ⊢
    obtain ⟨a', hput, hfold⟩ := bind_eq_ok_iff.mp hfold
    exact bind_eq_ok_iff.mpr ⟨a', h.put hm.1 hm.2 hput, ih hfold⟩

/-- **An object may be arranged otherwise.** If it fills a record then every object does that agrees
with it on the fields, and fills it with the same. -/
theorem Respects.ofObject (h : r.Respects R) (hagree : Agree r.has R l l')
    (hobject : r.ofObject keep (Tree.ofMembers l) true = .ok (a, rest)) :
    r.ofObject keep (Tree.ofMembers l') true =
      .ok (a, if keep then l'.filter (!r.has ·.1) else []) := by
  obtain ⟨hnodup, hrequired, hfold, -⟩ := ofObject_ofMembers_eq_ok_iff.mp hobject
  have hkeys : (r.namesIn l).Perm (r.namesIn l') := hagree.keys_perm
  refine ofObject_ofMembers_eq_ok_iff.mpr ⟨hkeys.nodup_iff.mp hnodup, fun f hf hreq ↦ ?_, ?_, rfl⟩
  · have hhas : r.has f.name = true := List.find?_isSome.mpr ⟨f, hf, decide_eq_true rfl⟩
    have hmem : f.name ∈ r.namesIn l := List.mem_filter.mpr ⟨hrequired f hf hreq, hhas⟩
    exact (List.mem_filter.mp (hkeys.mem_iff.mp hmem)).1
  · obtain ⟨p, hp, hagree⟩ := hagree
    rw [← foldlM_put_filter] at hfold ⊢
    refine h.foldlM_put hagree (foldlM_put_perm h.commutes hp ?_ hfold)
    refine hnodup.sublist ?_
    exact (List.filter_sublist.map _).filter _

theorem Respects.positional {fs : List (Field α)} (hset : ∀ f ∈ fs, f.Respects (R f.name))
    {items items' : List Json} (hagree : AgreeItems R (fs.map (·.name)) items items')
    (hitems : positional true fs (Tree.ofItems items) a = .ok b) :
    positional true fs (Tree.ofItems items') a = .ok b := by
  induction fs generalizing items items' a with
  | nil =>
    cases hagree with
    | nil => exact hitems
  | cons f fs ih =>
    obtain ⟨hf, hfs⟩ := List.forall_mem_cons.mp hset
    rw [List.map_cons] at hagree
    cases hagree with
    | nil => exact hitems
    | cons hv hagree =>
      obtain ⟨a', hput, hitems⟩ := bind_eq_ok_iff.mp hitems
      exact bind_eq_ok_iff.mpr ⟨a', hf hv hput, ih hfs hagree hitems⟩

/-- **A record may be arranged otherwise.** -/
theorem Respects.read (h : r.Respects R) :
    Json.Respects r.read (Arranged (r.fields.map (·.name)) R) := by
  intro v v' a harranged hread
  cases harranged with
  | refl => exact hread
  | array hagree => exact Respects.positional h.set hagree hread
  | object hagree =>
    rw [← funext r.has_eq_contains] at hagree
    obtain ⟨⟨a', rest⟩, hobject, heq⟩ := bind_eq_ok_iff.mp hread
    exact bind_eq_ok_iff.mpr ⟨_, h.ofObject hagree hobject, heq⟩

theorem eq_filter_of_readOpen (hread : r.readOpen (.ofJson (.object l)) = .ok (a, rest)) :
    rest = l.filter (!r.has ·.1) :=
  (ofObject_ofMembers_eq_ok_iff.mp hread).2.2.2

theorem Respects.readOpen (h : r.Respects R) (hagree : Agree r.has R l l')
    (hread : r.readOpen (.ofJson (.object l)) = .ok (a, rest)) :
    r.readOpen (.ofJson (.object l')) = .ok (a, l'.filter (!r.has ·.1)) :=
  h.ofObject hagree hread

theorem Respects.ofMembers (h : r.Respects R) (hagree : Agree r.has R l l')
    (hread : r.ofMembers l = .ok a) : r.ofMembers l' = .ok a := by
  obtain ⟨⟨a', rest⟩, hobject, heq⟩ := bind_eq_ok_iff.mp hread
  exact bind_eq_ok_iff.mpr ⟨_, h.ofObject hagree hobject, heq⟩

end Record

theorem Respects.asList {α : Type} {read : Tree → Decoded α} {R : Json → Json → Prop}
    (h : Respects read R) : Respects (Tree.asList read) (ArrangedItems R) := by
  intro v v' a harranged hread
  cases harranged with
  | refl => exact hread
  | @array l l' hitems =>
    obtain ⟨as, has, hread⟩ := bind_eq_ok_iff.mp hread
    refine bind_eq_ok_iff.mpr ⟨as, ?_, hread⟩
    clear * - h hitems has
    induction hitems generalizing as with
    | nil => exact has
    | cons hv _ ih =>
      rw [Tree.ofItems, List.mapM_cons] at has ⊢
      obtain ⟨b, hb, has⟩ := bind_eq_ok_iff.mp has
      obtain ⟨bs, hbs, has⟩ := bind_eq_ok_iff.mp has
      exact bind_eq_ok_iff.mpr ⟨b, h hv hb, bind_eq_ok_iff.mpr ⟨bs, ih bs hbs, has⟩⟩

end ContainerNet.Json
