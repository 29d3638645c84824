import ContainerNet.Json.Value
import Mathlib.Data.List.Induction
import Mathlib.Data.String.Basic

/-!
# Canonical form

A map is a list of members with sorted keys. What a key stands for in it is all that matters:
`Members.get?_insert` says it for one member that is put in, and `Members.get?_ofList` for a whole
list, of which the last member with the key counts.

A value in canonical form is its own canonical form (`canonical_canonical`), since the members of
its objects are sorted already and putting sorted members in one after the other changes nothing.

## Equations between maps

Sorted maps are equal if every key stands for the same in both (`IsSorted.ext`), so equations
between maps come down to looking up. To change all values commutes with putting members in
(`mapValues_ofList`): the values of an object may be brought into canonical form before its members
are sorted or after that.
-/

namespace ContainerNet.Json

namespace Members

variable {k l : String} {v : Json} {m : Members} {p : String × Json}

/-! ## Looking up -/

theorem get?_cons : get? k (p :: m) = if p.1 = k then some p.2 else get? k m := by
  rw [get?, List.find?_cons]
  by_cases hk : p.1 = k <;> simp [hk, get?]

/-- A member that is put in is found under its key, and under every other key is what was there. -/
theorem get?_insert (k l : String) (v : Json) (m : Members) :
    get? l (insert k v m) = if k = l then some v else get? l m := by
  induction m with
  | nil => rw [insert, get?_cons]
  | cons p m ih =>
    obtain ⟨j, w⟩ := p
    rw [insert]
    split
    · rw [get?_cons]
    split
    next hj =>
      subst hj
      rw [get?_cons, get?_cons]
      split <;> rfl
    next hj =>
      rw [get?_cons, ih, get?_cons]
      by_cases hl : j = l
      · rw [if_pos hl, if_neg (fun hk ↦ hj (hk.trans hl.symm)), if_pos hl]
      · rw [if_neg hl, if_neg hl]

theorem get?_insert_of_ne (h : k ≠ l) (v : Json) (m : Members) :
    get? l (insert k v m) = get? l m := by
  rw [get?_insert, if_neg h]

theorem ofList_concat (m : Members) (p : String × Json) :
    ofList (m ++ [p]) = insert p.1 p.2 (ofList m) := by
  rw [ofList, List.foldl_append]
  rfl

theorem get?_ofList (k : String) (m : Members) :
    get? k (ofList m) = (m.reverse.find? (·.1 = k)).map (·.2) := by
  induction m using List.reverseRecOn with
  | nil => rfl
  | append_singleton m p ih =>
    rw [ofList_concat, get?_insert, ih, List.reverse_concat, List.find?_cons]
    by_cases hk : p.1 = k <;> simp [hk]

/-- If all members with a key agree, it stands for what they say. -/
theorem get?_ofList_of_mem (hmem : (k, v) ∈ m) (hsame : ∀ w, (k, w) ∈ m → w = v) :
    get? k (ofList m) = some v := by
  rw [get?_ofList, Option.map_eq_some_iff]
  have hfound : (m.reverse.find? (·.1 = k)).isSome :=
    List.find?_isSome.mpr ⟨(k, v), List.mem_reverse.mpr hmem, decide_eq_true rfl⟩
  obtain ⟨⟨j, w⟩, hjw⟩ := Option.isSome_iff_exists.mp hfound
  obtain rfl : j = k := by simpa using List.find?_some hjw
  exact ⟨(j, w), hjw, hsame w (List.mem_reverse.mp (List.mem_of_find?_eq_some hjw))⟩

theorem isSome_get?_ofList : (get? k (ofList m)).isSome ↔ k ∈ m.map (·.1) := by
  rw [get?_ofList, Option.isSome_map, List.find?_isSome, List.mem_map]
  simp only [List.mem_reverse, decide_eq_true_eq]

theorem mem_of_mem_insert {m : Members} (h : p ∈ insert k v m) : p = (k, v) ∨ p ∈ m := by
  induction m with
  | nil => exact .inl (List.mem_singleton.mp h)
  | cons q m ih =>
    obtain ⟨j, w⟩ := q
    rw [insert] at h
    split at h
    · exact List.mem_cons.mp h
    split at h
    · exact (List.mem_cons.mp h).imp_right (List.mem_cons_of_mem _)
    · rcases List.mem_cons.mp h with rfl | h
      · exact .inr List.mem_cons_self
      · exact (ih h).imp_right (List.mem_cons_of_mem _)

theorem mem_of_mem_ofList (h : p ∈ ofList m) : p ∈ m := by
  induction m using List.reverseRecOn with
  | nil => exact h
  | append_singleton m q ih =>
    rw [ofList_concat] at h
    rcases mem_of_mem_insert h with rfl | h
    · exact List.mem_append_right _ List.mem_cons_self
    · exact List.mem_append_left _ (ih h)

/-! ## Sorted maps -/

/-- Whether the keys are sorted, and no key occurs twice. -/
def IsSorted (m : Members) : Prop := m.Pairwise (·.1 < ·.1)

theorem IsSorted.insert (h : IsSorted m) (k : String) (v : Json) :
    IsSorted (Members.insert k v m) := by
  induction m with
  | nil => exact List.pairwise_singleton _ _
  | cons p m ih =>
    obtain ⟨j, w⟩ := p
    obtain ⟨hfirst, hrest⟩ := List.pairwise_cons.mp h
    rw [Members.insert]
    split
    next hlt =>
      refine List.pairwise_cons.mpr ⟨fun q hq ↦ ?_, h⟩
      rcases List.mem_cons.mp hq with rfl | hq
      · exact hlt
      · exact lt_trans hlt (hfirst q hq)
    next hlt =>
    split
    next heq =>
      subst heq
      exact List.pairwise_cons.mpr ⟨hfirst, hrest⟩
    next hne =>
      refine List.pairwise_cons.mpr ⟨fun q hq ↦ ?_, ih hrest⟩
      rcases mem_of_mem_insert hq with rfl | hq
      · exact lt_of_le_of_ne (not_lt.mp hlt) (Ne.symm hne)
      · exact hfirst q hq

theorem isSorted_ofList (m : Members) : IsSorted (ofList m) := by
  induction m using List.reverseRecOn with
  | nil => exact .nil
  | append_singleton m p ih =>
    rw [ofList_concat]
    exact ih.insert p.1 p.2

theorem insert_of_forall_lt {m : Members} (h : ∀ p ∈ m, p.1 < k) :
    insert k v m = m ++ [(k, v)] := by
  induction m with
  | nil => rfl
  | cons p m ih =>
    obtain ⟨hlt, hrest⟩ := List.forall_mem_cons.mp h
    rw [insert, if_neg (lt_asymm hlt), if_neg hlt.ne', ih hrest]
    rfl

theorem IsSorted.ofList_eq (h : IsSorted m) : ofList m = m := by
  induction m using List.reverseRecOn with
  | nil => rfl
  | append_singleton m p ih =>
    obtain ⟨hm, -, hlast⟩ := List.pairwise_append.mp h
    rw [ofList_concat, ih hm]
    exact insert_of_forall_lt fun q hq ↦ hlast q hq p List.mem_cons_self

theorem IsSorted.get?_eq_some_iff (h : IsSorted m) : get? k m = some v ↔ (k, v) ∈ m := by
  induction m with
  | nil => exact ⟨nofun, nofun⟩
  | cons p m ih =>
    obtain ⟨j, w⟩ := p
    obtain ⟨hfirst, hrest⟩ := List.pairwise_cons.mp h
    rw [get?_cons, List.mem_cons]
    split
    next hj =>
      -- the key of the first member is in no other
      obtain rfl : j = k := hj
      have hno : (j, v) ∉ m := fun hmem ↦ lt_irrefl j (hfirst _ hmem)
      simp [hno, eq_comm]
    next hj =>
      have hne : (k, v) ≠ (j, w) := fun heq ↦ hj (congrArg Prod.fst heq).symm
      simp [ih hrest, hne]

theorem IsSorted.ext {m' : Members} (h : IsSorted m) (h' : IsSorted m')
    (hget : ∀ k, get? k m = get? k m') : m = m' := by
  have hnodup {m : Members} (hm : IsSorted m) : m.Nodup := by
    refine List.Pairwise.imp (fun hlt heq ↦ ?_) hm
    subst heq
    exact lt_irrefl _ hlt
  have hperm : m.Perm m' := by
    rw [List.perm_ext_iff_of_nodup (hnodup h) (hnodup h')]
    rintro ⟨k, v⟩
    rw [← h.get?_eq_some_iff, ← h'.get?_eq_some_iff, hget]
  exact hperm.eq_of_pairwise (fun a b _ _ hab hba ↦ absurd hab (lt_asymm hba)) h h'

/-- A map with two keys has no others exactly if it is the sorted list of the two. -/
theorem pair_eq_ofList_iff {w : Json} (hlt : k < l) (hk : get? k (ofList m) = some v)
    (hl : get? l (ofList m) = some w) :
    [(k, v), (l, w)] = ofList m ↔ ∀ p ∈ m, p.1 = k ∨ p.1 = l := by
  constructor
  · intro heq p hp
    have hsome : (get? p.1 (ofList m)).isSome :=
      isSome_get?_ofList.mpr (List.mem_map_of_mem hp)
    rw [← heq, get?_cons, get?_cons] at hsome
    by_contra hne
    rw [not_or] at hne
    rw [if_neg (Ne.symm hne.1), if_neg (Ne.symm hne.2)] at hsome
    exact absurd hsome nofun
  · intro hkeys
    have hpair : IsSorted [(k, v), (l, w)] := List.pairwise_pair.mpr hlt
    refine hpair.ext (isSorted_ofList m) fun j ↦ ?_
    rw [get?_cons, get?_cons]
    split
    next hj => rw [← hj, hk]
    split
    next hj => rw [← hj, hl]
    next hjk hjl =>
      have hj : j ∉ m.map (·.1) := by
        intro hj
        obtain ⟨p, hp, rfl⟩ := List.mem_map.mp hj
        rcases hkeys p hp with heq | heq
        · exact hjk heq.symm
        · exact hjl heq.symm
      exact (Option.not_isSome_iff_eq_none.mp (mt isSome_get?_ofList.mp hj)).symm

/-! ## Changing the values -/

/-- The members with their values changed. -/
def mapValues (f : Json → Json) (m : Members) : Members := m.map fun p ↦ (p.1, f p.2)

theorem mapValues_insert (f : Json → Json) (k : String) (v : Json) (m : Members) :
    mapValues f (insert k v m) = insert k (f v) (mapValues f m) := by
  induction m with
  | nil => rfl
  | cons p m ih =>
    obtain ⟨j, w⟩ := p
    have hcons : mapValues f ((j, w) :: m) = (j, f w) :: mapValues f m := rfl
    rw [insert, hcons, insert, ← ih]
    split
    · rfl
    split <;> rfl

theorem mapValues_ofList (f : Json → Json) (m : Members) :
    mapValues f (ofList m) = ofList (mapValues f m) := by
  induction m using List.reverseRecOn with
  | nil => rfl
  | append_singleton m p ih =>
    rw [ofList_concat, mapValues_insert, ih, mapValues, mapValues, List.map_append]
    exact (ofList_concat _ (p.1, f p.2)).symm

end Members

theorem mem_optional_iff {α : Type} {j k : String} {f : α → Json} {o : Option α} {v : Json} :
    (j, v) ∈ optional k f o ↔ j = k ∧ ∃ a, o = some a ∧ v = f a := by
  cases o with
  | none => simp [optional]
  | some a => simp [optional]

/-! ## Canonical values -/

@[simp] theorem canonical_text (s : String) : (text s).canonical = .text s := rfl

theorem canonicalItems_eq (l : List Json) : canonicalItems l = l.map canonical := by
  induction l with
  | nil => rfl
  | cons v l ih => rw [canonicalItems, ih, List.map_cons]

theorem canonicalMembers_eq (m : Members) : canonicalMembers m = m.mapValues canonical := by
  induction m with
  | nil => rfl
  | cons p m ih =>
    rw [canonicalMembers, ih]
    rfl

theorem canonicalMembers_ofList (m : Members) :
    canonicalMembers (Members.ofList m) = Members.ofList (canonicalMembers m) := by
  rw [canonicalMembers_eq, canonicalMembers_eq, Members.mapValues_ofList]

theorem mem_canonicalMembers_iff {k : String} {w : Json} {m : Members} :
    (k, w) ∈ canonicalMembers m ↔ ∃ u, (k, u) ∈ m ∧ u.canonical = w := by
  rw [canonicalMembers_eq, Members.mapValues, List.mem_map, Prod.exists]
  simp [Prod.ext_iff]

theorem forall_mem_canonicalMembers {m : Members} {P : String → Prop} :
    (∀ p ∈ canonicalMembers m, P p.1) ↔ ∀ p ∈ m, P p.1 := by
  rw [canonicalMembers_eq, Members.mapValues, List.forall_mem_map]

/-- What stands under a key in a canonical object, if the members with the key agree about it. -/
theorem get?_canonicalMembers {k : String} {v : Json} {m : Members} (hkey : k ∈ m.map (·.1))
    (hsame : ∀ w, (k, w) ∈ m → w.canonical = v) :
    Members.get? k (Members.ofList (canonicalMembers m)) = some v := by
  obtain ⟨⟨_, u⟩, hu, rfl⟩ := List.mem_map.mp hkey
  refine Members.get?_ofList_of_mem (mem_canonicalMembers_iff.mpr ⟨u, hu, hsame u hu⟩) fun w hw ↦ ?_
  obtain ⟨u', hu', rfl⟩ := mem_canonicalMembers_iff.mp hw
  exact hsame u' hu'

mutual

@[simp] theorem canonical_canonical : ∀ v : Json, v.canonical.canonical = v.canonical
  | .null | .bool _ | .number _ | .text _ => by simp only [canonical]
  | .array items => by
    rw [canonical, canonical, canonicalItems_canonicalItems items]
  | .object members => by
    rw [canonical, canonical, canonicalMembers_ofList, canonicalMembers_canonicalMembers members,
      (Members.isSorted_ofList _).ofList_eq]

theorem canonicalItems_canonicalItems :
    ∀ l : List Json, canonicalItems (canonicalItems l) = canonicalItems l
  | [] => rfl
  | v :: r => by
    rw [canonicalItems, canonicalItems, canonical_canonical v, canonicalItems_canonicalItems r]

theorem canonicalMembers_canonicalMembers :
    ∀ m : List (String × Json), canonicalMembers (canonicalMembers m) = canonicalMembers m
  | [] => rfl
  | (k, v) :: r => by
    rw [canonicalMembers, canonicalMembers, canonical_canonical v,
      canonicalMembers_canonicalMembers r]

end

theorem ofList_canonicalMembers_ofList (m : Members) :
    Members.ofList (canonicalMembers (Members.ofList (canonicalMembers m))) =
      Members.ofList (canonicalMembers m) := by
  rw [canonicalMembers_ofList, canonicalMembers_canonicalMembers,
    (Members.isSorted_ofList _).ofList_eq]

end ContainerNet.Json
