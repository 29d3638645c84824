import ContainerNet.Proofs.Text.Lines
import ContainerNet.Proofs.Wire.Arrangement

/-!
# Where the names of containers are made

A container gets its name from a text, from a value in JSON or as a part of an event. All three come
to the same: they accept the texts that `IsName` describes and no others.

The reader of events is not asked about names one by one. With another name in its place every step
of the reader goes as before (`Record.ofObject_map`), so an event stays an event exactly if the
other name is one (`Event.read_renamed_iff`).

Names are bounded in bytes, and they are cut by bytes. All their characters are of one byte, so the
bound is one on characters, and no character is cut in two.
-/

namespace ContainerNet

open Json (Members)
open Json.Decoded (bind_eq_ok_iff)

/-! ## Texts and values -/

namespace ContainerId

/-- The names of containers: an ASCII letter or digit, and behind it at most 63 ASCII letters,
digits, hyphens and underscores. -/
inductive IsName : List Char → Prop
  | intro {c : Char} {r : List Char} (first : c.isAlphanum = true)
    (later : ∀ d ∈ r, d.isAlphanum = true ∨ d = '-' ∨ d = '_') (length : r.length ≤ 63) :
    IsName (c :: r)

theorem isLater_iff {c : Char} : isLater c = true ↔ c.isAlphanum = true ∨ c = '-' ∨ c = '_' := by
  rw [isLater, Bool.or_assoc, Bool.or_eq_true, Bool.or_eq_true, beq_iff_eq, beq_iff_eq]

/-- The bound on bytes is a bound on characters, since no other characters are let in. -/
theorem isValid_iff {s : String} : isValid s = true ↔ IsName s.toList := by
  rw [isValid, Bool.and_eq_true, decide_eq_true_eq]
  cases hs : s.toList with
  | nil =>
    refine iff_of_false (by simp) ?_
    rintro ⟨⟩
  | cons c r =>
    have hsize (hfirst : isFirst c = true) (hlater : ∀ d ∈ r, isLater d = true) :
        s.utf8ByteSize = r.length + 1 := by
      have hall : ∀ d ∈ c :: r, isLater d = true :=
        List.forall_mem_cons.mpr ⟨isLater_of_isFirst hfirst, hlater⟩
      have hall : ∀ d ∈ s.toList, d.utf8Size = 1 := by
        rw [hs]
        exact fun d hd ↦ utf8Size_of_isLater (hall d hd)
      rw [Text.utf8ByteSize_of_utf8Size_eq_one hall, hs, List.length_cons]
    rw [Bool.and_eq_true, List.all_eq_true]
    constructor
    · rintro ⟨hle, hfirst, hlater⟩
      rw [hsize hfirst hlater] at hle
      exact .intro hfirst (fun d hd ↦ isLater_iff.mp (hlater d hd)) (Nat.le_of_succ_le_succ hle)
    · rintro ⟨hfirst, hlater, hlength⟩
      have hlater : ∀ d ∈ r, isLater d = true := fun d hd ↦ isLater_iff.mpr (hlater d hd)
      exact ⟨hsize hfirst hlater ▸ Nat.succ_le_succ hlength, hfirst, hlater⟩

theorem exists_text_eq_iff {s : String} : (∃ id : ContainerId, id.text = s) ↔ IsName s.toList := by
  rw [← isValid_iff]
  constructor
  · rintro ⟨id, rfl⟩
    exact id.valid
  · intro h
    exact ⟨⟨s, h⟩, rfl⟩

theorem parse_eq_ok_iff {s : String} {id : ContainerId} : parse s = .ok id ↔ id.text = s := by
  rw [parse]
  constructor
  · intro h
    split at h
    next =>
      cases h
      rfl
    next => cases h
  · rintro rfl
    exact dif_pos id.valid

theorem read_text_eq_ok_iff {s : String} {id : ContainerId} :
    read (.text s) = .ok id ↔ id.text = s := by
  rw [← parse_eq_ok_iff, read, Json.Tree.asText, Json.Decoded.ok_bind, Json.mapError_eq_ok_iff]

theorem read_eq_ok_iff {v : Json} {id : ContainerId} :
    read (.ofJson v) = .ok id ↔ v = .text id.text := by
  constructor
  · intro h
    obtain ⟨s, hs, hread⟩ := bind_eq_ok_iff.mp h
    obtain rfl := Json.Tree.eq_text_of_asText hs
    rw [read_text_eq_ok_iff.mp h]
  · rintro rfl
    exact read_text_eq_ok_iff.mpr rfl

/-! ### Short forms -/

variable (id : ContainerId)

theorem length_bytes : (Text.bytes id.text.toList).length = id.text.toList.length := by
  rw [← Text.utf8ByteSize_of_utf8Size_eq_one id.utf8Size_of_mem,
    Text.utf8ByteSize_eq_length_flatMap, Text.bytes]

theorem bytes_take (n : ℕ) :
    Text.bytes (id.text.toList.take n) = (Text.bytes id.text.toList).take n := by
  have hcut : Text.firstBytes? (min n id.text.toList.length) id.text.toList =
      some (id.text.toList.take (min n id.text.toList.length)) :=
    Text.firstBytes?_of_utf8Size_eq_one id.utf8Size_of_mem (Nat.min_le_right _ _)
  rw [List.take_eq_take_min, (Text.bytes_of_firstBytes? hcut).2, ← id.length_bytes,
    ← List.take_eq_take_min]

theorem toList_short : id.short.toList = id.text.toList.take 12 := by
  rw [short_eq, String.toList_ofList, shortLength]

theorem short?_eq_short : id.short? = some id.short := by
  rw [short?_eq, short_eq]

theorem length_short : id.short.length = min 12 id.text.length := by
  rw [← String.length_toList, toList_short, List.length_take, String.length_toList]

end ContainerId

/-! ## Records -/

namespace Json.Record

variable {α : Type} {r : Record α} {a b : α} {keep : Bool} {l rest : Members} {φ : α → α}
  {f : String × Json → String × Json}

theorem foldlM_put_map (hput : ∀ m a b, r.put a m = .ok b → r.put (φ a) (f m) = .ok (φ b))
    (hfold : l.foldlM r.put a = .ok b) : (l.map f).foldlM r.put (φ a) = .ok (φ b) := by
  induction l generalizing a with
  | nil =>
    obtain rfl : a = b := Except.ok.inj hfold
    rfl
  | cons m l ih =>
    rw [List.foldlM_cons] at hfold
    obtain ⟨a', hm, hfold⟩ := bind_eq_ok_iff.mp hfold
    rw [List.map_cons, List.foldlM_cons]
    exact bind_eq_ok_iff.mpr ⟨φ a', hput m a a' hm, ih hfold⟩

/-- **A record may be changed along with its members.** If what each member puts in changes as the
member does, then so does the record. -/
theorem ofObject_map (hinitial : φ r.initial = r.initial) (hkey : ∀ m, (f m).1 = m.1)
    (hput : ∀ m a b, r.put a m = .ok b → r.put (φ a) (f m) = .ok (φ b))
    (hobject : r.ofObject keep (Tree.ofMembers l) true = .ok (a, rest)) :
    r.ofObject keep (Tree.ofMembers (l.map f)) true =
      .ok (φ a, if keep then (l.map f).filter (!r.has ·.1) else []) := by
  obtain ⟨hnodup, hrequired, hfold, -⟩ := ofObject_ofMembers_eq_ok_iff.mp hobject
  have hkeys : (l.map f).map (·.1) = l.map (·.1) := by
    rw [List.map_map]
    exact List.map_congr_left fun m _ ↦ hkey m
  refine ofObject_ofMembers_eq_ok_iff.mpr ⟨?_, ?_, ?_, rfl⟩
  · rwa [namesIn, hkeys]
  · rwa [hkeys]
  · have hmap := foldlM_put_map hput hfold
    rwa [hinitial] at hmap

theorem read_object_eq_ok_iff : r.read (.ofJson (.object l)) = .ok a ↔
    ∃ rest, r.ofObject false (Tree.ofMembers l) true = .ok (a, rest) := by
  constructor
  · intro h
    obtain ⟨⟨_, rest⟩, hobject, heq⟩ := bind_eq_ok_iff.mp h
    cases heq
    exact ⟨rest, hobject⟩
  · rintro ⟨rest, hobject⟩
    exact bind_eq_ok_iff.mpr ⟨_, hobject, rfl⟩

end Json.Record

/-! ## Events -/

namespace Event

variable {l : Members} {v : Json} {e : Event} {s : String}

/-- A member with another text, if it is the name of the container. -/
def renamedMember (s : String) (m : String × Json) : String × Json :=
  if m.1 = "container_id" then (m.1, .text s) else m

/-- An event with another text as the name of its container. In an array that is what stands behind
the kind. -/
def renamed (s : String) : Json → Json
  | .object l => .object (l.map (renamedMember s))
  | .array (kind :: _ :: l) => .array (kind :: .text s :: l)
  | v => v

/-- What stands in an event as the name of its container. -/
inductive Names (x : Json) : Json → Prop
  | object {l : Members} (h : ("container_id", x) ∈ l) : Names x (.object l)
  | array {kind : Json} {l : List Json} : Names x (.array (kind :: x :: l))

/-- The event for another container. -/
def withContainer (id : ContainerId) : Event → Event
  | .configure _ netns config => .configure id netns config
  | .release _ => .release id

@[simp] theorem container_withContainer (id : ContainerId) (e : Event) :
    (e.withContainer id).container = id := by
  cases e <;> rfl

/-- The draft for another container, once there is one. -/
def Draft.withContainer (id : ContainerId) (d : Draft) : Draft :=
  { d with container := d.container.map fun _ ↦ id }

/-! ### Members -/

theorem renamedMember_of_ne {m : String × Json} (h : m.1 ≠ "container_id") :
    renamedMember s m = m := if_neg h

theorem renamedMember_name (s : String) (v : Json) :
    renamedMember s ("container_id", v) = ("container_id", .text s) := rfl

@[simp] theorem fst_renamedMember (s : String) (m : String × Json) :
    (renamedMember s m).1 = m.1 := by
  rw [renamedMember]
  split <;> rfl

theorem filter_map_renamedMember (s : String) (keep : String → Bool) (l : Members) :
    (l.map (renamedMember s)).filter (keep ·.1) = (l.filter (keep ·.1)).map (renamedMember s) := by
  rw [List.filter_map]
  congr 1
  exact List.filter_congr fun m _ ↦ by rw [Function.comp_apply, fst_renamedMember]

theorem map_renamedMember_of_not_mem (h : ∀ m ∈ l, m.1 ≠ "container_id") :
    l.map (renamedMember s) = l := by
  rw [List.map_congr_left fun m hm ↦ renamedMember_of_ne (h m hm), List.map_id']

theorem put_renamedMember_of_not_has {α : Type} {r : Json.Record α}
    (h : r.has "container_id" = false) (s : String) (m : String × Json) (a : α) :
    r.put a (renamedMember s m) = r.put a m := by
  obtain ⟨k, v⟩ := m
  by_cases hk : k = "container_id"
  · subst hk
    rw [renamedMember_name, Json.Record.put_of_not_has h, Json.Record.put_of_not_has h]
  · rw [renamedMember_of_ne hk]

/-! ### Drafts -/

/-- Whether a record takes a draft of an event, with the name of its container. -/
structure TakesDraft (r : Json.Record Draft) : Prop where
  initial : r.initial = {}
  fields : ∀ f ∈ r.fields, f = containerField ∨ f = configField
  container : r.fields.find? (·.name = "container_id") = some containerField

theorem takesDraft_configureRecord : TakesDraft configureRecord :=
  ⟨rfl, by simp [configureRecord], rfl⟩

theorem takesDraft_releaseRecord : TakesDraft releaseRecord :=
  ⟨rfl, by simp [releaseRecord], rfl⟩

namespace TakesDraft

variable {r : Json.Record Draft} {keep : Bool} {rest : Members} {d d' : Draft}

theorem put_renamedMember (h : TakesDraft r) (id : ContainerId) (m : String × Json)
    (hput : r.put d m = .ok d') :
    r.put (d.withContainer id) (renamedMember id.text m) = .ok (d'.withContainer id) := by
  rw [Json.Record.put] at hput ⊢
  rw [fst_renamedMember]
  cases hf : r.fields.find? (·.name = m.1) with
  | none =>
    rw [hf] at hput
    cases hput
    rfl
  | some f =>
    rw [hf] at hput
    have hname : f.name = m.1 := by simpa using List.find?_some hf
    obtain ⟨k, v⟩ := m
    obtain rfl : f.name = k := hname
    obtain rfl | rfl := h.fields f (List.mem_of_find?_eq_some hf)
    · obtain ⟨_, -, heq⟩ := bind_eq_ok_iff.mp hput
      cases heq
      exact bind_eq_ok_iff.mpr ⟨id, ContainerId.read_text_eq_ok_iff.mpr rfl, rfl⟩
    · obtain ⟨config, hread, heq⟩ := bind_eq_ok_iff.mp hput
      cases heq
      exact bind_eq_ok_iff.mpr ⟨config, hread, rfl⟩

theorem ofObject_renamed (h : TakesDraft r) (id : ContainerId)
    (hobject : r.ofObject keep (Json.Tree.ofMembers l) true = .ok (d, rest)) :
    r.ofObject keep (Json.Tree.ofMembers (l.map (renamedMember id.text))) true =
      .ok (d.withContainer id,
        if keep then (l.map (renamedMember id.text)).filter (!r.has ·.1) else []) :=
  Json.Record.ofObject_map (h.initial ▸ rfl) (fst_renamedMember id.text)
    (fun m _ _ ↦ h.put_renamedMember id m) hobject

theorem setsAlone (h : TakesDraft r) : r.SetsAlone "container_id" Draft.container := by
  intro f hf hne t d d' hset
  obtain rfl | rfl := h.fields f hf
  · exact absurd rfl hne
  · exact Json.Decoded.eq_of_put hset fun _ ↦ rfl

theorem mem_iff (h : TakesDraft r) {id : ContainerId} {config : Option NetworkConfig}
    (hobject : r.ofObject keep (Json.Tree.ofMembers l) true = .ok (⟨some id, config⟩, rest))
    (x : Json) : ("container_id", x) ∈ l ↔ x = .text id.text := by
  have honly (x : Json) (hx : ("container_id", x) ∈ l) : x = .text id.text := by
    obtain ⟨l', hl, hfills, -⟩ := Json.Record.ofObject_eq_ok hobject
    rw [Json.Tree.ofMembers_eq] at hl
    obtain rfl := Json.Tree.keyed_injective hl
    have hx' : ("container_id", Json.Tree.ofJson x) ∈
        l.map fun m ↦ (m.1, Json.Tree.ofJson m.2) := List.mem_map_of_mem hx
    obtain ⟨d, d', hset, hid⟩ := hfills.exists_set h.setsAlone hx' h.container
    obtain ⟨id', hread, heq⟩ := bind_eq_ok_iff.mp hset
    cases heq
    cases hid
    exact ContainerId.read_eq_ok_iff.mp hread
  refine ⟨honly x, ?_⟩
  rintro rfl
  -- there is a member of that name, and it is no other one
  obtain ⟨-, hrequired, -⟩ := Json.Record.ofObject_ofMembers_eq_ok_iff.mp hobject
  obtain ⟨⟨_, x⟩, hx, rfl⟩ := List.mem_map.mp
    (hrequired containerField (List.mem_of_find?_eq_some h.container) rfl)
  exact honly x hx ▸ hx

end TakesDraft

/-! ### Both passes -/

/-- An array is an event only if it releases a container. -/
theorem read_array_eq_ok_iff {items : List Json} : read (.ofJson (.array items)) = .ok e ↔
    ∃ kind id, Kind.read (.ofJson kind) = .ok .release ∧ items = [kind, .text id.text] ∧
      e = .release id := by
  constructor
  · intro h
    obtain ⟨⟨kind, v⟩, henvelope, hparts⟩ := bind_eq_ok_iff.mp h
    cases items with
    | nil => exact absurd henvelope nofun
    | cons t l =>
      obtain ⟨kind', hkind, henvelope⟩ := bind_eq_ok_iff.mp henvelope
      rw [Json.Tree.valueItems_ofItems] at henvelope
      cases henvelope
      cases kind with
      | configure => exact absurd hparts nofun
      | release =>
        obtain ⟨⟨_ | id, config⟩, hread, heq⟩ := bind_eq_ok_iff.mp hparts
        · exact absurd heq nofun
        cases heq
        obtain ⟨hlength, hfold⟩ :=
          Json.Record.positional_eq_ok (List.forall_mem_singleton.mpr rfl) hread
        rw [Json.Tree.ofItems_eq, List.length_map] at hlength
        obtain ⟨v, rfl⟩ := List.length_eq_one_iff.mp hlength
        obtain ⟨d, hset, hfold⟩ := bind_eq_ok_iff.mp hfold
        obtain ⟨id', hid, heq⟩ := bind_eq_ok_iff.mp hset
        cases heq
        cases hfold
        exact ⟨t, id, hkind, by rw [ContainerId.read_eq_ok_iff.mp hid], rfl⟩
  · rintro ⟨kind, id, hkind, rfl, rfl⟩
    have henvelope : envelope (.ofJson (.array [kind, .text id.text])) =
        .ok (.release, .array [.text id.text]) := bind_eq_ok_iff.mpr ⟨_, hkind, rfl⟩
    have hread : releaseRecord.read (.ofJson (.array [.text id.text])) = .ok ⟨some id, none⟩ :=
      bind_eq_ok_iff.mpr ⟨⟨some id, none⟩, bind_eq_ok_iff.mpr
        ⟨id, ContainerId.read_text_eq_ok_iff.mpr rfl, rfl⟩, rfl⟩
    exact bind_eq_ok_iff.mpr ⟨_, henvelope, bind_eq_ok_iff.mpr ⟨_, hread, rfl⟩⟩

theorem ofParts_renamed {kind : Kind} (h : ofParts kind (.object l) = .ok e) (id : ContainerId) :
    ofParts kind (.object (l.map (renamedMember id.text))) = .ok (e.withContainer id) := by
  cases kind with
  | configure =>
    obtain ⟨id', netns, config, hopen, hnetns, rfl⟩ := ofParts_configure_eq_ok_iff.mp h
    have hopen' := takesDraft_configureRecord.ofObject_renamed id hopen
    -- the namespace is given by what is left, and the name is not
    have hrest : (l.map (renamedMember id.text)).filter (!configureRecord.has ·.1) =
        l.filter (!configureRecord.has ·.1) := by
      rw [filter_map_renamedMember id.text (!configureRecord.has ·)]
      refine map_renamedMember_of_not_mem fun m hm heq ↦ ?_
      have hnot := (List.mem_filter.mp hm).2
      rw [heq] at hnot
      exact absurd hnot (by decide)
    refine ofParts_configure_eq_ok_iff.mpr ⟨id, netns, config, hopen', ?_, rfl⟩
    rwa [hrest]
  | release =>
    obtain ⟨id', config, hread, rfl⟩ := ofParts_release_eq_ok_iff.mp h
    obtain ⟨_, hobject⟩ := Json.Record.read_object_eq_ok_iff.mp hread
    have hobject' := takesDraft_releaseRecord.ofObject_renamed id hobject
    exact ofParts_release_eq_ok_iff.mpr
      ⟨id, config, Json.Record.read_object_eq_ok_iff.mpr ⟨_, hobject'⟩, rfl⟩

theorem read_renamed (h : read (.ofJson v) = .ok e) (id : ContainerId) :
    read (.ofJson (renamed id.text v)) = .ok (e.withContainer id) := by
  match v with
  | .object l =>
    obtain ⟨kind, hkind, hparts⟩ := read_object_eq_ok_iff.mp h
    have hkind' := Json.Record.ofObject_map (φ := fun kind ↦ kind) rfl
      (fst_renamedMember id.text)
      (fun m _ _ hput ↦ (put_renamedMember_of_not_has (by decide) id.text m _).trans hput) hkind
    refine read_object_eq_ok_iff.mpr ⟨kind, hkind', ?_⟩
    rw [filter_map_renamedMember id.text (!kindRecord.has ·)]
    exact ofParts_renamed hparts id
  | .array items =>
    obtain ⟨kind, id', hkind, rfl, rfl⟩ := read_array_eq_ok_iff.mp h
    exact read_array_eq_ok_iff.mpr ⟨kind, id, hkind, rfl, rfl⟩
  | .null | .bool _ | .number _ | .text _ => exact absurd h nofun

theorem mem_iff_of_ofParts {kind : Kind} (h : ofParts kind (.object l) = .ok e) (x : Json) :
    ("container_id", x) ∈ l ↔ x = .text e.container.text := by
  cases kind with
  | configure =>
    obtain ⟨id, netns, config, hopen, -, rfl⟩ := ofParts_configure_eq_ok_iff.mp h
    exact takesDraft_configureRecord.mem_iff hopen x
  | release =>
    obtain ⟨id, config, hread, rfl⟩ := ofParts_release_eq_ok_iff.mp h
    obtain ⟨_, hobject⟩ := Json.Record.read_object_eq_ok_iff.mp hread
    exact takesDraft_releaseRecord.mem_iff hobject x

/-- The container of an event is the one that is named in it. -/
theorem names_iff_of_read (h : read (.ofJson v) = .ok e) (x : Json) :
    Names x v ↔ x = .text e.container.text := by
  match v with
  | .object l =>
    obtain ⟨kind, -, hparts⟩ := read_object_eq_ok_iff.mp h
    have hleft : (!kindRecord.has "container_id") = true := rfl
    rw [← mem_iff_of_ofParts hparts x, List.mem_filter, and_iff_left hleft]
    constructor
    · rintro ⟨hx⟩
      exact hx
    · exact .object
  | .array items =>
    obtain ⟨kind, id, -, rfl, rfl⟩ := read_array_eq_ok_iff.mp h
    constructor
    · rintro ⟨⟩
      rfl
    · rintro rfl
      exact .array
  | .null | .bool _ | .number _ | .text _ => exact absurd h nofun

theorem Names.renamed {x : Json} (h : Names x v) (s : String) :
    Names (.text s) (renamed s v) := by
  cases h with
  | object h => exact .object (List.mem_map.mpr ⟨_, h, rfl⟩)
  | array => exact .array

/-- **What is put in the place of the name has to be a name.** Then the event is the same, but for
another container. -/
theorem read_renamed_iff (h : read (.ofJson v) = .ok e) {e' : Event} :
    read (.ofJson (renamed s v)) = .ok e' ↔
      ∃ id : ContainerId, id.text = s ∧ e' = e.withContainer id := by
  constructor
  · intro h'
    have hnames := ((names_iff_of_read h _).mpr rfl).renamed s
    have htext : s = e'.container.text := by
      simpa using (names_iff_of_read h' (.text s)).mp hnames
    have hread := read_renamed h e'.container
    rw [← htext, h'] at hread
    exact ⟨e'.container, htext.symm, Except.ok.inj hread⟩
  · rintro ⟨id, rfl, rfl⟩
    exact read_renamed h id

/-! ### Lines -/

theorem exists_ofJson_of_read {t : Json.Tree} (h : read t = .ok e) : ∃ v, t = .ofJson v := by
  -- all other trees are refused at once
  match t with
  | .object m closed =>
    obtain ⟨l, hl⟩ := exists_object_of_read h
    exact ⟨.object l, hl⟩
  | .array [] closed =>
    obtain ⟨_, henvelope, -⟩ := bind_eq_ok_iff.mp h
    obtain ⟨_, -, henvelope⟩ := bind_eq_ok_iff.mp henvelope
    exact absurd henvelope nofun
  | .array (.text kind :: items) closed =>
    obtain ⟨_, henvelope, -⟩ := bind_eq_ok_iff.mp h
    obtain ⟨_, -, henvelope⟩ := bind_eq_ok_iff.mp henvelope
    obtain ⟨l, hl, henvelope⟩ := bind_eq_ok_iff.mp henvelope
    obtain ⟨_, hclosed, -⟩ := bind_eq_ok_iff.mp henvelope
    obtain rfl := Json.Tree.eq_ofItems_of_valueItems hl
    rw [Json.Tree.eq_true_of_ended hclosed]
    exact ⟨.array (.text kind :: l), rfl⟩

/-- A line that is an event holds a value in which another text can stand as the name, and it has to
be a name. -/
theorem ofLine_renamed {line : String} (h : ofLine line = .ok e) :
    ∃ v, Json.Document.ofText line = ⟨.ofJson v, true⟩ ∧ Names (.text e.container.text) v ∧
      ∀ s line', Json.Document.ofText line' = ⟨.ofJson (renamed s v), true⟩ →
        ∀ e', ofLine line' = .ok e' ↔
          ∃ id : ContainerId, id.text = s ∧ e' = e.withContainer id := by
  obtain ⟨hread, hcomplete⟩ := ofLine_eq_ok_iff.mp h
  obtain ⟨v, hv⟩ := exists_ofJson_of_read hread
  rw [hv] at hread
  refine ⟨v, ?_, (names_iff_of_read hread _).mpr rfl, fun s line' hline' e' ↦ ?_⟩
  · rw [← hv, ← hcomplete]
  · rw [ofLine, hline', Json.Document.decode_complete]
    exact read_renamed_iff hread

end Event

/-! ## All ways to make one -/

namespace ContainerId

/-- **Containers get exactly the names that the rule allows**, on every way that there is: from a
text, from a JSON value and inside an event, where a name can be put in place of another one. The
short form of a name ends behind a character: it is the first twelve bytes and the first twelve
characters. -/
theorem made_iff_isName (s : String) :
    (((∃ id, parse s = .ok id) ↔ IsName s.toList) ∧ ∀ id, parse s = .ok id → id.text = s) ∧
    (∀ line, Json.Document.ofText line = ⟨.text s, true⟩ →
      ((∃ id, (Json.Document.ofText line).decode read = .ok id) ↔ IsName s.toList) ∧
      ∀ id, (Json.Document.ofText line).decode read = .ok id → id.text = s) ∧
    (∀ line e, Event.ofLine line = .ok e →
      ∃ v, Json.Document.ofText line = ⟨.ofJson v, true⟩ ∧
        Event.Names (.text e.container.text) v ∧
        ∀ line', Json.Document.ofText line' = ⟨.ofJson (Event.renamed s v), true⟩ →
          ((∃ e', Event.ofLine line' = .ok e') ↔ IsName s.toList) ∧
          ∀ e', Event.ofLine line' = .ok e' → e'.container.text = s) ∧
    ∀ id : ContainerId, id.text = s → id.short? = some id.short ∧
      id.short.toList <+: s.toList ∧ id.short.length = min 12 s.length ∧
      Text.bytes id.short.toList = (Text.bytes s.toList).take 12 := by
  simp only [← exists_text_eq_iff]
  refine ⟨?_, fun line hline ↦ ?_, fun line e he ↦ ?_, ?_⟩
  · simp only [parse_eq_ok_iff, imp_self, implies_true, and_self]
  · simp only [hline, Json.Document.decode_complete, read_text_eq_ok_iff, imp_self, implies_true,
      and_self]
  · obtain ⟨v, hv, hnames, hall⟩ := Event.ofLine_renamed he
    refine ⟨v, hv, hnames, fun line' hline' ↦ ⟨?_, fun e' he' ↦ ?_⟩⟩
    · simp only [hall s line' hline']
      constructor
      · rintro ⟨_, id, hid, -⟩
        exact ⟨id, hid⟩
      · rintro ⟨id, hid⟩
        exact ⟨_, id, hid, rfl⟩
    · obtain ⟨id, hid, rfl⟩ := (hall s line' hline' e').mp he'
      rw [Event.container_withContainer, hid]
  · rintro id rfl
    refine ⟨id.short?_eq_short, ?_, id.length_short, ?_⟩
    · rw [toList_short]
      exact List.take_prefix 12 _
    · rw [toList_short, bytes_take]

/-- A container to be released, as a value. -/
def releaseJson (s : String) : Json :=
  .object [("type", .text "release"), ("container_id", .text s)]

theorem ofText_releaseJson (s : String) :
    Json.Document.ofText (releaseJson s).render = ⟨.ofJson (releaseJson s), true⟩ := by
  have hreadable : Json.IsReadable Json.Tree.maxDepth (releaseJson s) := by
    refine .object fun m hm ↦ ?_
    simp only [List.mem_cons, List.not_mem_nil, or_false] at hm
    obtain rfl | rfl := hm
    · exact .text _
    · exact .text _
  exact Json.Document.ofText_render hreadable

/-- In place of a name in an event another one is taken and cut, and a text with a character of two
bytes is refused. -/
theorem made_iff_isName_release :
    (∃ e, Event.ofLine (releaseJson "0123456789abcdef0123").render = .ok e ∧
      e.container.text = "0123456789abcdef0123" ∧ e.container.short = "0123456789ab") ∧
    ¬∃ e, Event.ofLine (releaseJson "0123456789é").render = .ok e := by
  have hweb : Event.ofLine (releaseJson "web").render = .ok (.release ⟨"web", by decide⟩) := by
    rw [Event.ofLine, ofText_releaseJson, Json.Document.decode_complete]
    decide +kernel
  have hplaced (s : String) :
      ((∃ e, Event.ofLine (releaseJson s).render = .ok e) ↔ IsName s.toList) ∧
        ∀ e, Event.ofLine (releaseJson s).render = .ok e → e.container.text = s := by
    obtain ⟨-, -, hevents, -⟩ := made_iff_isName s
    obtain ⟨v, hv, -, hall⟩ := hevents _ _ hweb
    rw [ofText_releaseJson, Json.Document.mk.injEq] at hv
    obtain rfl := Json.Tree.ofJson_injective hv.1
    exact hall _ (ofText_releaseJson s)
  constructor
  · have hname : IsName "0123456789abcdef0123".toList :=
      isValid_iff.mp (by decide +kernel)
    obtain ⟨e, he⟩ := (hplaced _).1.mpr hname
    have htext := (hplaced _).2 e he
    refine ⟨e, he, htext, ?_⟩
    rw [short_eq, htext]
    decide +kernel
  · rw [(hplaced _).1, ← isValid_iff]
    decide +kernel

end ContainerId

end ContainerNet
