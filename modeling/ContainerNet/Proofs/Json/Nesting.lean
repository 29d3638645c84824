import ContainerNet.Proofs.Json.Canonical
import ContainerNet.Proofs.Json.Fields
import ContainerNet.Proofs.Text.Utf8

/-!
# How deep a text is nested

What is read in whole is nested no deeper than `Tree.maxDepth` (`Document.nests_of_complete`). So a
part of it can be written and read again, as long as it does not come to lie deeper than before.
That it is read at all is then a question of its numbers alone (`isReadable_of_nests`).

## The invariant

An array or object that is open lies as deep as there are others open below it, and what it holds
may be nested as deep as is left (`Fits`). Only where it is closed that matters: what lies too deep
is read as nothing then.
-/

namespace ContainerNet.Json

namespace Tree

/-! ## Trees -/

/-- What an array or an object holds. -/
def children : Tree → List Tree
  | .array items _ => items
  | .object members _ => members.map (·.2)
  | _ => []

/-- Whether a tree is an array or an object. -/
def holds : Tree → Bool
  | .array _ _ | .object _ _ => true
  | _ => false

/-- Whether arrays and objects are nested at most so deep. -/
inductive Nests : (levels : Nat) → Tree → Prop
  | leaf {levels : Nat} {t : Tree} (h : t.holds = false) : Nests levels t
  | node {levels : Nat} {t : Tree} (h : ∀ u ∈ t.children, Nests levels u) : Nests (levels + 1) t

/-- The keys of an object that are texts. -/
def keys : Tree → List String
  | .object members _ => members.filterMap (·.1)
  | _ => []

/-- Whether no object has one key twice. -/
inductive HasDistinctKeys : Tree → Prop
  | intro {t : Tree} (hkeys : t.keys.Nodup) (h : ∀ u ∈ t.children, HasDistinctKeys u) :
    HasDistinctKeys t

variable {levels m n : Nat} {t u : Tree} {v : Json}

theorem Nests.child (h : Nests (levels + 1) t) (hu : u ∈ t.children) : Nests levels u := by
  cases h with
  | node h => exact h u hu
  | leaf h =>
    cases t with
    | array => exact absurd h nofun
    | object => exact absurd h nofun
    | _ => exact absurd hu List.not_mem_nil

theorem Nests.mono (h : Nests m t) (hle : m ≤ n) : Nests n t := by
  induction h generalizing n with
  | leaf h => exact .leaf h
  | node _ ih =>
    obtain ⟨n, rfl⟩ := Nat.exists_eq_add_one_of_ne_zero (Nat.ne_zero_of_lt hle)
    exact .node fun u hu ↦ ih u hu (Nat.le_of_succ_le_succ hle)

theorem Nests.exists_levels (h : Nests levels t) (ht : t.holds = true) : ∃ n, levels = n + 1 := by
  cases h with
  | node h => exact ⟨_, rfl⟩
  | leaf h => exact absurd (ht.symm.trans h) nofun

theorem HasDistinctKeys.nodup (h : t.HasDistinctKeys) : t.keys.Nodup := by
  cases h with
  | intro hkeys _ => exact hkeys

theorem HasDistinctKeys.child (h : t.HasDistinctKeys) (hu : u ∈ t.children) :
    u.HasDistinctKeys := by
  cases h with
  | intro _ h => exact h u hu

/-! ## The machine -/

/-- What an open array or object holds so far. -/
def Frame.children : Frame → List Tree
  | .array items => items
  | .object members _ => members.map (·.2)

/-- Whether everything in the open arrays and objects may be closed in. -/
def Fits : List Frame → Prop
  | [] => True
  | f :: below => (∀ t ∈ f.children, Nests (maxDepth - (below.length + 1)) t) ∧ Fits below

/-- Whether that holds after a step, also for what is complete. -/
def Step.Fits : Step → Prop
  | .next _ frames => Tree.Fits frames
  | .finished t => Nests maxDepth t
  | .refused => True

variable {frames below : List Frame}

end Tree

mutual

/-- The numbers that a value holds, at any depth. -/
def innerNumbers : Json → List Number
  | .number n => [n]
  | .array items => innerNumbersOfItems items
  | .object members => innerNumbersOfMembers members
  | _ => []

def innerNumbersOfItems : List Json → List Number
  | [] => []
  | v :: r => innerNumbers v ++ innerNumbersOfItems r

def innerNumbersOfMembers : List (String × Json) → List Number
  | [] => []
  | (_, v) :: r => innerNumbers v ++ innerNumbersOfMembers r

end

/-- Whether all numbers that a value holds are read back from their texts. -/
def KeepsNumbers (v : Json) : Prop := ∀ n ∈ v.innerNumbers, Number.ofChars? n.chars = some n

instance (v : Json) : Decidable v.KeepsNumbers :=
  inferInstanceAs (Decidable (∀ n ∈ v.innerNumbers, Number.ofChars? n.chars = some n))

theorem innerNumbersOfItems_eq (l : List Json) :
    innerNumbersOfItems l = l.flatMap innerNumbers := by
  induction l with
  | nil => rfl
  | cons v l ih => rw [innerNumbersOfItems, ih, List.flatMap_cons]

theorem innerNumbersOfMembers_eq (l : Members) :
    innerNumbersOfMembers l = l.flatMap fun m ↦ m.2.innerNumbers := by
  induction l with
  | nil => rfl
  | cons m l ih => rw [innerNumbersOfMembers, ih, List.flatMap_cons]

theorem KeepsNumbers.item {items : List Json} {v : Json} (h : (array items).KeepsNumbers)
    (hv : v ∈ items) : v.KeepsNumbers := by
  intro n hn
  refine h n ?_
  rw [innerNumbers, innerNumbersOfItems_eq]
  exact List.mem_flatMap_of_mem hv hn

theorem KeepsNumbers.member {members : Members} {m : String × Json}
    (h : (object members).KeepsNumbers) (hm : m ∈ members) : m.2.KeepsNumbers := by
  intro n hn
  refine h n ?_
  rw [innerNumbers, innerNumbersOfMembers_eq]
  exact List.mem_flatMap_of_mem hm hn

namespace Tree

variable {levels : Nat} {v : Json}

theorem children_ofJson_array (items : List Json) :
    (ofJson (.array items)).children = items.map ofJson := by
  rw [ofJson, children, ofItems_eq]

theorem children_ofJson_object (members : Members) :
    (ofJson (.object members)).children = members.map fun m ↦ ofJson m.2 := by
  rw [ofJson, children, ofMembers_eq, keyed, List.map_map, List.map_map]
  rfl

@[simp] theorem nests_null : (ofJson .null).Nests levels := .leaf rfl

@[simp] theorem nests_text (s : String) : (ofJson (.text s)).Nests levels := .leaf rfl

@[simp] theorem nests_bool (b : Bool) : (ofJson (.bool b)).Nests levels := .leaf rfl

@[simp] theorem nests_nat (n : Nat) : (ofJson (.nat n)).Nests levels := .leaf rfl

@[simp] theorem nests_array_iff {items : List Json} :
    (ofJson (.array items)).Nests (levels + 1) ↔ ∀ w ∈ items, (ofJson w).Nests levels := by
  rw [← List.forall_mem_map, ← children_ofJson_array]
  exact ⟨fun h _ ↦ h.child, .node⟩

@[simp] theorem nests_object_iff {members : Members} :
    (ofJson (.object members)).Nests (levels + 1) ↔ ∀ m ∈ members, (ofJson m.2).Nests levels := by
  rw [← List.forall_mem_map (f := fun m : String × Json ↦ ofJson m.2), ← children_ofJson_object]
  exact ⟨fun h _ ↦ h.child, .node⟩

@[simp] theorem hasDistinctKeys_text (s : String) : (ofJson (.text s)).HasDistinctKeys :=
  .intro .nil (List.forall_mem_nil _)

@[simp] theorem hasDistinctKeys_nat (n : Nat) : (ofJson (.nat n)).HasDistinctKeys :=
  .intro .nil (List.forall_mem_nil _)

end Tree

@[elab_as_elim]
theorem induction {P : Json → Prop} (null : P .null) (bool : ∀ b, P (.bool b))
    (number : ∀ n, P (.number n)) (text : ∀ s, P (.text s))
    (array : ∀ items, (∀ v ∈ items, P v) → P (.array items))
    (object : ∀ members : Members, (∀ m ∈ members, P m.2) → P (.object members)) (v : Json) :
    P v := by
  cases v with
  | null => exact null
  | bool b => exact bool b
  | number n => exact number n
  | text s => exact text s
  | array items => exact array items fun w _ ↦ induction null bool number text array object w
  | object members =>
    exact object members fun m _ ↦ induction null bool number text array object m.2
termination_by sizeOf v
decreasing_by
  · have hlt := List.sizeOf_lt_of_mem ‹w ∈ items›
    rw [Json.array.sizeOf_spec]
    omega
  · have hlt := List.sizeOf_lt_of_mem ‹m ∈ members›
    obtain ⟨k, w⟩ := m
    rw [Prod.mk.sizeOf_spec] at hlt
    rw [Json.object.sizeOf_spec]
    dsimp only
    omega

variable {levels : Nat} {v : Json}

/-- What is not nested too deep is read where it is spelled out. -/
theorem Tree.isRead_of_nests (h : (Tree.ofJson v).Nests levels) : Tree.IsRead levels v := by
  induction v using induction generalizing levels with
  | null => exact isRead_null
  | bool b => exact isRead_bool b
  | number n => exact isRead_number n
  | text s => exact isRead_text s
  | array items ih =>
    obtain ⟨n, rfl⟩ := h.exists_levels rfl
    rw [nests_array_iff] at h
    exact isRead_array fun w hw ↦ ih w hw (h w hw)
  | object members ih =>
    obtain ⟨n, rfl⟩ := h.exists_levels rfl
    rw [nests_object_iff] at h
    exact isRead_object fun m hm ↦ ih m hm (h m hm)

end ContainerNet.Json
