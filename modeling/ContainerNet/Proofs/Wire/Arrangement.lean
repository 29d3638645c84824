import ContainerNet.Proofs.Json.Arrangement
import ContainerNet.Proofs.Wire.Event

/-!
# Events in another arrangement

An event can be written with the keys of its objects in any order, and with other keys beside them,
and it is the same event (`Event.ofLine_rearranged`). That holds at every level: of the event, its
configuration, the shapes, the rules and the policy.

The levels are read in different ways. The kind and then the container and the configuration are
taken out of the event, and what is left is tried as one way to give a namespace and then as the
other; a rule is what is left of its object without the subnet; a policy is first taken in whole.
What all of them come to is a record, so what is said of records is put together here: for every
type a relation between values, and that its reader respects the relation.
-/

namespace ContainerNet

open Json (Agree Arranged ArrangedItems Members Relations)
open Json.Decoded (bind_eq_ok_iff)

/-! ## Shapes and rules -/

namespace Shape

def keys : List String :=
  ["latency", "jitter", "bandwidth", "filter", "loss", "corrupt", "corrupt_corr", "reorder",
    "reorder_corr", "duplicate", "duplicate_corr"]

/-- Two arrangements of one shape. -/
def Rearranged : Json → Json → Prop := Arranged keys fun _ ↦ Eq

theorem respects_record (source : Json.Tree.Source) :
    (record source).Respects fun _ ↦ Eq where
  commutes := by
    simp only [record, List.pairwise_cons, List.forall_mem_cons, List.not_mem_nil, false_imp_iff,
      implies_true, and_true, List.Pairwise.nil]
    and_intros <;> exact .of_put fun _ _ _ ↦ rfl
  set f _ := f.respects_eq

theorem respects_read (source : Json.Tree.Source) : Json.Respects (read source) Rearranged :=
  (respects_record source).read

end Shape

namespace Rule

/-- Two arrangements of one rule. -/
def Rearranged : Json → Json → Prop := Arranged ("subnet" :: Shape.keys) fun _ ↦ Eq

theorem respects_subnetRecord : subnetRecord.Respects fun _ ↦ Eq :=
  .single (Json.Field.respects_eq _)

/-- The subnet may stand anywhere among the keys of the shape. -/
theorem respects_read : Json.Respects read Rearranged := by
  intro v v' r hrearranged hread
  cases hrearranged with
  | refl => exact hread
  | array => exact absurd hread nofun
  | @object l l' hagree =>
    obtain ⟨⟨subnet, rest⟩, hopen, hread⟩ := bind_eq_ok_iff.mp hread
    -- what is left without the subnet agrees on the keys of the shape
    have hsubnet := subnetRecord.agree_has hagree (by decide)
    have hrest := subnetRecord.agree_rest hagree (List.subset_cons_self "subnet" Shape.keys)
      (by decide)
    have hshape := (Shape.record .parts).agree_has hrest (List.Subset.refl Shape.keys)
    obtain rfl := Json.Record.eq_filter_of_readOpen hopen
    refine bind_eq_ok_iff.mpr ⟨_, respects_subnetRecord.readOpen hsubnet hopen, ?_⟩
    cases subnet with
    | none => exact absurd hread nofun
    | some subnet =>
      obtain ⟨shape, hread, heq⟩ := bind_eq_ok_iff.mp hread
      exact bind_eq_ok_iff.mpr ⟨shape, (Shape.respects_record _).ofMembers hshape hread, heq⟩

end Rule

/-! ## Policies and configurations -/

namespace RoutingPolicy

def keys : List String := ["default", "exceptions"]

/-- Two arrangements of one policy. -/
def Rearranged : Json → Json → Prop := Arranged keys fun _ ↦ Eq

theorem respects_record : record.Respects fun _ ↦ Eq where
  commutes := List.pairwise_pair.mpr (.of_put fun _ _ _ ↦ rfl)
  set f _ := f.respects_eq

theorem read_ofJson_eq_ok_iff {v : Json} (hv : ∀ s, v ≠ .text s) {p : RoutingPolicy} :
    read (.ofJson v) = .ok p ↔ record.read (.ofJson v) = .ok p := by
  rw [read, Json.Tree.value_ofJson, Json.Decoded.ok_bind]
  split
  next s => exact absurd rfl (hv s)
  next => exact Json.mapError_eq_ok_iff

theorem respects_read : Json.Respects read Rearranged := by
  intro v v' p hrearranged hread
  cases hrearranged with
  | refl => exact hread
  | object hagree =>
    rw [read_ofJson_eq_ok_iff (by simp)] at hread ⊢
    exact respects_record.read (.object hagree) hread
  | array hagree =>
    rw [read_ofJson_eq_ok_iff (by simp)] at hread ⊢
    exact respects_record.read (.array hagree) hread

end RoutingPolicy

namespace NetworkConfig

def keys : List String :=
  ["network", "enable", "ipv4", "ipv6", "default", "rules", "routing_policy", "callback_state"]

/-- What stands under a key of a configuration, in two arrangements. -/
def FieldRearranged : Relations
  | "default" => Shape.Rearranged
  | "rules" => ArrangedItems Rule.Rearranged
  | "routing_policy" => RoutingPolicy.Rearranged
  | _ => Eq

/-- Two arrangements of one configuration. -/
def Rearranged : Json → Json → Prop := Arranged keys FieldRearranged

theorem respects_record (source : Json.Tree.Source) :
    (record source).Respects FieldRearranged where
  commutes := by
    simp only [record, List.pairwise_cons, List.forall_mem_cons, List.not_mem_nil, false_imp_iff,
      implies_true, and_true, List.Pairwise.nil]
    and_intros <;> exact .of_put fun _ _ _ ↦ rfl
  set := by
    simp only [record, List.forall_mem_cons, List.not_mem_nil, false_imp_iff, implies_true,
      and_true]
    have hsame := @Json.Field.respects_eq NetworkConfig
    have hshape := Shape.respects_read source
    have hrules := Rule.respects_read.asList
    have hpolicy := RoutingPolicy.respects_read
    exact ⟨hsame _, hsame _, hsame _, hsame _, Json.Field.Respects.of_read hshape,
      Json.Field.Respects.of_read hrules, Json.Field.Respects.of_read hpolicy, hsame _⟩

theorem respects_read (source : Json.Tree.Source) : Json.Respects (read source) Rearranged :=
  (respects_record source).read

end NetworkConfig

/-! ## Events -/

namespace NetnsRef

theorem ofMembers_eq_path_iff {l : Members} {p : String} :
    ofMembers l = .ok (.path p) ↔ pathRecord.ofMembers l = .ok (some p) := by
  rw [ofMembers]
  split
  next q _ hq => simp [hq]
  next _ _ m hpid hpath => simpa using fun h ↦ hpath p h
  next _ _ hpath hpid => simpa using fun h ↦ hpath p h

theorem ofMembers_eq_pid_iff {l : Members} {n : Nat} : ofMembers l = .ok (.pid n) ↔
    (∀ p, pathRecord.ofMembers l ≠ .ok (some p)) ∧ pidRecord.ofMembers l = .ok (some n) := by
  rw [ofMembers]
  split
  next q _ hq => simp [hq]
  next _ _ m hpid hpath => simpa [hpid] using fun _ p hp ↦ hpath p hp
  next _ _ hpath hpid => simpa using fun _ ↦ hpid n

theorem respects_pathRecord : pathRecord.Respects fun _ ↦ Eq :=
  .single (Json.Field.respects_eq _)

theorem respects_pidRecord : pidRecord.Respects fun _ ↦ Eq :=
  .single (Json.Field.respects_eq _)

/-- How a namespace is given does not depend on other members. No path is found in the one
arrangement if none is found in the other. -/
theorem ofMembers_of_agree {l l' : Members} {netns : NetnsRef}
    (h : Agree ["netns_path", "pid"].contains (fun _ ↦ Eq) l l') (hread : ofMembers l = .ok netns) :
    ofMembers l' = .ok netns := by
  have hpath := pathRecord.agree_has h (by decide)
  have hpid := pidRecord.agree_has h (by decide)
  cases netns with
  | path p =>
    rw [ofMembers_eq_path_iff] at hread ⊢
    exact respects_pathRecord.ofMembers hpath hread
  | pid n =>
    rw [ofMembers_eq_pid_iff] at hread ⊢
    exact ⟨fun p hp ↦ hread.1 p (respects_pathRecord.ofMembers hpath.symm hp),
      respects_pidRecord.ofMembers hpid hread.2⟩

/-- A path that is given once counts, whatever stands beside it. -/
theorem ofMembers_of_mem {l : Members} {p : String} (hnodup : (l.map (·.1)).Nodup)
    (hmem : ("netns_path", .text p) ∈ l) : ofMembers l = .ok (.path p) := by
  obtain ⟨front, back, rfl⟩ := List.append_of_mem hmem
  have hperm : (("netns_path", Json.text p) :: (front ++ back)).Perm
      (front ++ ("netns_path", Json.text p) :: back) := List.perm_middle.symm
  have hothers : ∀ m ∈ front ++ back, pathRecord.has m.1 = false := by
    intro m hm
    rw [← (hperm.map _).nodup_iff, List.map_cons, List.nodup_cons] at hnodup
    have hne : m.1 ≠ "netns_path" := fun heq ↦
      hnodup.1 (List.mem_map.mpr ⟨m, hm, heq⟩)
    simp [Json.Record.has_eq_contains, pathRecord, hne]
  have hagree : Agree pathRecord.has (fun _ ↦ Eq) [("netns_path", Json.text p)] _ :=
    .of_perm (fun _ _ ↦ rfl) hperm hothers
  exact ofMembers_eq_path_iff.mpr (respects_pathRecord.ofMembers hagree rfl)

end NetnsRef

namespace Event

/-! ### The first pass -/

/-- The kind of an event, as the only field of a record. -/
def kindRecord : Json.Record (Option Kind) where
  initial := none
  fields := [
    { name := "type", required := true, set := fun t _ ↦ some <$> Kind.read t }]

/-- How far a record of the kind is filled when the kind is known or not. -/
def filling (kind : Option Kind) (rest : Members) : Json.Record.Filling (Option Kind) :=
  ⟨kind, if kind.isSome then ["type"] else [], rest⟩

theorem members_kindRecord (l : List (Option String × Json.Tree)) (kind : Option Kind)
    (rest : Members) : kindRecord.members true l (filling kind rest) =
      (fun p ↦ filling p.1 p.2.reverse) <$> members l kind rest := by
  induction l generalizing kind rest with
  | nil => simp [Json.Record.members, members]
  | cons m l ih =>
    obtain ⟨_ | k, t⟩ := m
    · rfl
    rw [Json.Record.members, members]
    split
    next hk =>
      subst hk
      -- a second kind is refused by both, and the first one fills the only field
      cases kind with
      | some kind => rfl
      | none =>
        have hmember : kindRecord.member true "type" t (filling none rest) =
            (do return filling (some (← Kind.read t)) rest) := by
          simp [Json.Record.member, kindRecord, filling]
        rw [hmember]
        cases Kind.read t with
        | error e => rfl
        | ok kind => exact ih _ _
    next hk =>
      have hmember : kindRecord.member true k t (filling kind rest) =
          (do return filling kind ((k, ← t.value) :: rest)) := by
        simp [Json.Record.member, kindRecord, filling, Ne.symm hk]
      rw [hmember]
      cases t.value with
      | error e => rfl
      | ok v => exact ih _ _

/-- The first pass is the reading of a record that has the kind as its only field. -/
theorem envelope_object (l : List (Option String × Json.Tree)) (closed : Bool) :
    envelope (.object l closed) = kindRecord.ofObject true l closed >>= fun (kind, rest) ↦
      match kind with
      | some kind => .ok (kind, .object rest)
      | none => .error (.missingField "type") := by
  have hinitial : (⟨kindRecord.initial, [], []⟩ : Json.Record.Filling _) = filling none [] := rfl
  rw [envelope, Json.Record.ofObject, hinitial, members_kindRecord]
  cases members l none [] with
  | error e => rfl
  | ok p =>
    obtain ⟨kind, rest⟩ := p
    cases closed with
    | false => rfl
    | true =>
      cases kind with
      | none => rfl
      | some kind =>
        have hmissing : kindRecord.missing? ["type"] = none := by decide
        simp [Json.Tree.ended, filling, hmissing, bind, Except.bind, pure, Except.pure]

/-- An object is an event of some kind if that is said in it and the other members make an event of
that kind. -/
theorem read_object_eq_ok_iff {l : Members} {e : Event} : read (.ofJson (.object l)) = .ok e ↔
    ∃ kind, kindRecord.readOpen (.ofJson (.object l)) =
        .ok (some kind, l.filter (!kindRecord.has ·.1)) ∧
      ofParts kind (.object (l.filter (!kindRecord.has ·.1))) = .ok e := by
  constructor
  · intro h
    obtain ⟨⟨kind, v⟩, henvelope, hparts⟩ := bind_eq_ok_iff.mp h
    rw [Json.Tree.ofJson, envelope_object] at henvelope
    obtain ⟨⟨_ | kind, rest⟩, hobject, heq⟩ := bind_eq_ok_iff.mp henvelope
    · exact absurd heq nofun
    · cases heq
      obtain rfl := Json.Record.eq_filter_of_readOpen hobject
      exact ⟨kind, hobject, hparts⟩
  · rintro ⟨kind, hobject, hparts⟩
    refine bind_eq_ok_iff.mpr ⟨(kind, .object _), ?_, hparts⟩
    rw [Json.Tree.ofJson, envelope_object]
    exact bind_eq_ok_iff.mpr ⟨_, hobject, rfl⟩

/-! ### The second pass -/

theorem ofParts_configure_eq_ok_iff {l : Members} {e : Event} :
    ofParts .configure (.object l) = .ok e ↔ ∃ id netns config,
      configureRecord.readOpen (.ofJson (.object l)) =
        .ok (⟨some id, some config⟩, l.filter (!configureRecord.has ·.1)) ∧
      NetnsRef.ofMembers (l.filter (!configureRecord.has ·.1)) = .ok netns ∧
      e = .configure id netns config := by
  constructor
  · intro h
    obtain ⟨⟨d, rest⟩, hopen, h⟩ := bind_eq_ok_iff.mp h
    obtain rfl := Json.Record.eq_filter_of_readOpen hopen
    obtain ⟨netns, hnetns, h⟩ := bind_eq_ok_iff.mp h
    obtain ⟨_ | id, _ | config⟩ := d
    case some.some =>
      cases h
      exact ⟨id, netns, config, hopen, hnetns, rfl⟩
    all_goals exact absurd h nofun
  · rintro ⟨id, netns, config, hopen, hnetns, rfl⟩
    exact bind_eq_ok_iff.mpr ⟨_, hopen, bind_eq_ok_iff.mpr ⟨netns, hnetns, rfl⟩⟩

theorem ofParts_release_eq_ok_iff {l : Members} {e : Event} :
    ofParts .release (.object l) = .ok e ↔ ∃ id config,
      releaseRecord.read (.ofJson (.object l)) = .ok ⟨some id, config⟩ ∧ e = .release id := by
  constructor
  · intro h
    obtain ⟨⟨_ | id, config⟩, hread, h⟩ := bind_eq_ok_iff.mp h
    · exact absurd h nofun
    · cases h
      exact ⟨id, config, hread, rfl⟩
  · rintro ⟨id, config, hread, rfl⟩
    exact bind_eq_ok_iff.mpr ⟨_, hread, rfl⟩

/-- What stands under a key of an event, in two arrangements. -/
def FieldRearranged : Relations
  | "config" => NetworkConfig.Rearranged
  | _ => Eq

theorem respects_kindRecord : kindRecord.Respects FieldRearranged :=
  .single (Json.Field.respects_eq _)

theorem respects_configureRecord : configureRecord.Respects FieldRearranged where
  commutes := List.pairwise_pair.mpr (.of_put fun _ _ _ ↦ rfl)
  set := by
    simp only [configureRecord, List.forall_mem_cons, List.not_mem_nil, false_imp_iff,
      implies_true, and_true]
    exact ⟨containerField.respects_eq,
      Json.Field.Respects.of_read (NetworkConfig.respects_read .parts)⟩

theorem respects_releaseRecord : releaseRecord.Respects FieldRearranged :=
  .single containerField.respects_eq

/-- The kind of an event. -/
def kind : Event → Kind
  | .configure _ _ _ => .configure
  | .release _ => .release

/-- The keys that count in an event of a kind. -/
def Kind.keys : Kind → List String
  | .configure => ["type", "container_id", "netns_path", "pid", "config"]
  | .release => ["type", "container_id"]

/-- Two arrangements of an event of a kind. -/
def Rearranged (kind : Kind) : Members → Members → Prop :=
  Agree kind.keys.contains FieldRearranged

theorem kind_of_ofParts {kind : Kind} {l : Members} {e : Event}
    (h : ofParts kind (.object l) = .ok e) : e.kind = kind := by
  cases kind with
  | configure =>
    obtain ⟨id, netns, config, -, -, rfl⟩ := ofParts_configure_eq_ok_iff.mp h
    rfl
  | release =>
    obtain ⟨id, config, -, rfl⟩ := ofParts_release_eq_ok_iff.mp h
    rfl

theorem ofParts_rearranged {kind : Kind} {l l' : Members} {e : Event}
    (h : ofParts kind (.object l) = .ok e)
    (hagree : Agree (kind.keys.erase "type").contains FieldRearranged l l') :
    ofParts kind (.object l') = .ok e := by
  cases kind with
  | configure =>
    obtain ⟨id, netns, config, hopen, hnetns, rfl⟩ := ofParts_configure_eq_ok_iff.mp h
    have hfields := configureRecord.agree_has hagree (by decide)
    have hrest : Agree ["netns_path", "pid"].contains (fun _ ↦ Eq)
        (l.filter (!configureRecord.has ·.1)) (l'.filter (!configureRecord.has ·.1)) := by
      -- only what is left over decides, so these two have to be the same and not just related
      refine (configureRecord.agree_rest hagree (by decide) (by decide)).imp fun k hk v v' hv ↦ ?_
      simp only [List.contains_iff_mem, List.mem_cons, List.not_mem_nil, or_false] at hk
      obtain rfl | rfl := hk
      all_goals exact hv
    have hopen' := respects_configureRecord.readOpen hfields hopen
    exact ofParts_configure_eq_ok_iff.mpr
      ⟨id, netns, config, hopen', NetnsRef.ofMembers_of_agree hrest hnetns, rfl⟩
  | release =>
    obtain ⟨id, config, hread, rfl⟩ := ofParts_release_eq_ok_iff.mp h
    have hfields : Agree (releaseRecord.fields.map (·.name)).contains FieldRearranged l l' := hagree
    exact ofParts_release_eq_ok_iff.mpr ⟨id, config,
      respects_releaseRecord.read (.object hfields) hread, rfl⟩

theorem read_rearranged {l l' : Members} {e : Event} (h : read (.ofJson (.object l)) = .ok e)
    (hagree : Rearranged e.kind l l') : read (.ofJson (.object l')) = .ok e := by
  obtain ⟨kind, hkind, hparts⟩ := read_object_eq_ok_iff.mp h
  rw [kind_of_ofParts hparts, Rearranged] at hagree
  have htype := kindRecord.agree_has hagree (by cases kind <;> decide)
  have hrest := kindRecord.agree_rest hagree (List.erase_subset (a := "type"))
    (by cases kind <;> decide)
  exact read_object_eq_ok_iff.mpr ⟨kind, respects_kindRecord.readOpen htype hkind,
    ofParts_rearranged hparts hrest⟩

/-! ### Lines -/

theorem exists_ofMembers_of_members {l : List (Option String × Json.Tree)} {kind : Option Kind}
    {rest : Members} {x : Option Kind × Members} (h : members l kind rest = .ok x) :
    ∃ m, l = Json.Tree.ofMembers m := by
  induction l generalizing kind rest with
  | nil => exact ⟨[], rfl⟩
  | cons p l ih =>
    obtain ⟨_ | k, t⟩ := p
    · cases h
    have hvalue : ∃ v kind rest, t = .ofJson v ∧ members l kind rest = .ok x := by
      rw [members] at h
      split at h
      next =>
        split at h
        next => cases h
        next =>
          obtain ⟨word, hword, hrest⟩ := bind_eq_ok_iff.mp h
          cases t with
          | text s => exact ⟨.text s, some word, rest, rfl, hrest⟩
          | _ => cases hword
      next =>
        obtain ⟨v, hv, hrest⟩ := bind_eq_ok_iff.mp h
        exact ⟨v, kind, _, Json.Tree.eq_ofJson_of_value hv, hrest⟩
    obtain ⟨v, kind, rest, rfl, hrest⟩ := hvalue
    obtain ⟨m, rfl⟩ := ih hrest
    exact ⟨(k, v) :: m, rfl⟩

theorem exists_object_of_read {m : List (Option String × Json.Tree)} {closed : Bool} {e : Event}
    (h : read (.object m closed) = .ok e) :
    ∃ l : Members, Json.Tree.object m closed = .ofJson (.object l) := by
  obtain ⟨_, henvelope, -⟩ := bind_eq_ok_iff.mp h
  obtain ⟨_, hmembers, henvelope⟩ := bind_eq_ok_iff.mp henvelope
  obtain ⟨_, hclosed, -⟩ := bind_eq_ok_iff.mp henvelope
  obtain ⟨l, rfl⟩ := exists_ofMembers_of_members hmembers
  rw [Json.Tree.eq_true_of_ended hclosed]
  exact ⟨l, rfl⟩

theorem ofLine_eq_ok_iff {line : String} {e : Event} : ofLine line = .ok e ↔
    read (Json.Document.ofText line).tree = .ok e ∧
      (Json.Document.ofText line).complete = true := by
  constructor
  · intro h
    obtain ⟨a, hread, h⟩ := bind_eq_ok_iff.mp h
    split at h
    next hcomplete =>
      cases h
      exact ⟨hread, hcomplete⟩
    next => exact absurd h nofun
  · rintro ⟨hread, hcomplete⟩
    exact bind_eq_ok_iff.mpr ⟨e, hread, if_pos hcomplete⟩

theorem netns_eq_path {l : Members} {id : ContainerId} {netns : NetnsRef} {config : NetworkConfig}
    {p : String} (h : read (.ofJson (.object l)) = .ok (.configure id netns config))
    (hnodup : (l.map (·.1)).Nodup) (hmem : ("netns_path", .text p) ∈ l) : netns = .path p := by
  obtain ⟨kind, -, hparts⟩ := read_object_eq_ok_iff.mp h
  obtain rfl : Kind.configure = kind := kind_of_ofParts hparts
  obtain ⟨_, _, _, -, hnetns, heq⟩ := ofParts_configure_eq_ok_iff.mp hparts
  cases heq
  have hrest : ("netns_path", .text p) ∈
      (l.filter (!kindRecord.has ·.1)).filter (!configureRecord.has ·.1) :=
    List.mem_filter.mpr ⟨List.mem_filter.mpr ⟨hmem, rfl⟩, rfl⟩
  have hsub : ((l.filter (!kindRecord.has ·.1)).filter (!configureRecord.has ·.1)).Sublist l :=
    List.filter_sublist.trans List.filter_sublist
  have hpath := NetnsRef.ofMembers_of_mem (hnodup.sublist (hsub.map _)) hrest
  exact Except.ok.inj (hnetns.symm.trans hpath)

/-- **The arrangement of an event does not matter.** If an object is read as an event, so is every
line that spells it out in another arrangement, and it is the same event. Whatever else is in it, a
path counts as the way to the namespace. -/
theorem ofLine_rearranged {line : String} {m : List (Option String × Json.Tree)} {closed : Bool}
    {e : Event} (hobject : (Json.Document.ofText line).tree = .object m closed)
    (h : ofLine line = .ok e) :
    (∃ l, Json.Document.ofText line = ⟨.ofJson (.object l), true⟩) ∧
      ∀ l, Json.Document.ofText line = ⟨.ofJson (.object l), true⟩ →
        (∀ l' line', Rearranged e.kind l l' →
          (Json.Tree.ofJson (.object l')).Nests Json.Tree.maxDepth →
          Json.tokens (Text.ofChars line'.toList) = ⟨(Json.object l').spelling, true⟩ →
          ofLine line' = .ok e) ∧
        ∀ id netns config p, e = .configure id netns config → (l.map (·.1)).Nodup →
          ("netns_path", .text p) ∈ l → netns = .path p := by
  obtain ⟨hread, hcomplete⟩ := ofLine_eq_ok_iff.mp h
  constructor
  · rw [hobject] at hread
    obtain ⟨l, hl⟩ := exists_object_of_read hread
    refine ⟨l, ?_⟩
    rw [← hl, ← hobject, ← hcomplete]
  · intro l hl
    rw [hl] at hread
    constructor
    · intro l' line' hagree hnests hspelled
      have hline' : Json.Document.ofText line' = ⟨.ofJson (.object l'), true⟩ :=
        Json.Document.ofText_of_isRead (Json.Tree.isRead_of_nests hnests) hspelled
      rw [ofLine_eq_ok_iff, hline']
      exact ⟨read_rearranged hread hagree, rfl⟩
    · rintro id netns config p rfl hnodup hmem
      exact netns_eq_path hread hnodup hmem

/-- An event with a rule, and with two ways to give the namespace. -/
def ruled : Event :=
  .configure ⟨"web", by decide⟩ (.path "/n")
    { NetworkConfig.enabled "lan" with rules := [⟨.ofOctets 10 0 0 0 8, { loss := .ofNat 50 }⟩] }

/-- The members of that event, the last one first. -/
def ruledMembers : Members :=
  [("config", .object
      [("rules", .array [.object [("loss", .nat 50), ("subnet", .text "10.0.0.0/8")]]),
        ("enable", .bool true), ("network", .text "lan")]),
    ("pid", .nat 7), ("netns_path", .text "/n"), ("container_id", .text "web"),
    ("type", .text "configure")]

/-- The members of that event, with keys that do not count at each level. -/
def ruledMembersExtended : Members :=
  [("type", .text "configure"), ("container_id", .text "web"), ("note", .array [.null]),
    ("netns_path", .text "/n"), ("pid", .nat 7), ("config", .object
      [("network", .text "lan"), ("enable", .bool true), ("type", .text "release"),
        ("rules", .array [.object [("subnet", .text "10.0.0.0/8"), ("loss", .nat 50),
          ("netns_path", .null)]])])]

theorem rearranged_ruledMembers :
    Rearranged .configure ruledMembers ruledMembersExtended := by
  have hrule : Rule.Rearranged (.object [("loss", .nat 50), ("subnet", .text "10.0.0.0/8")])
      (.object [("subnet", .text "10.0.0.0/8"), ("loss", .nat 50), ("netns_path", .null)]) :=
    .object (@Agree.of_perm _ _ _ _ [("netns_path", .null)] (fun _ _ ↦ rfl) (.swap _ _ _)
      (by decide))
  have hconfig : NetworkConfig.Rearranged (.object
        [("rules", .array [.object [("loss", .nat 50), ("subnet", .text "10.0.0.0/8")]]),
          ("enable", .bool true), ("network", .text "lan")]) (.object
        [("network", .text "lan"), ("enable", .bool true), ("type", .text "release"),
          ("rules", .array [.object [("subnet", .text "10.0.0.0/8"), ("loss", .nat 50),
            ("netns_path", .null)]])]) :=
    .object ⟨_, (List.reverse_perm _).symm, .cons ⟨rfl, rfl⟩ (.cons ⟨rfl, rfl⟩
      (.cons ⟨rfl, .array (.cons hrule .nil)⟩ .nil))⟩
  exact ⟨_, (List.reverse_perm _).symm, .cons ⟨rfl, rfl⟩ (.cons ⟨rfl, rfl⟩ (.cons ⟨rfl, rfl⟩
    (.cons ⟨rfl, rfl⟩ (.cons ⟨rfl, hconfig⟩ .nil))))⟩

/-- Both arrangements are the same event, and of the two ways the path counts. -/
theorem ofLine_rearranged_ruled : ofLine (Json.object ruledMembers).render = .ok ruled ∧
    ofLine (Json.object ruledMembersExtended).render = .ok ruled := by
  have hnests : (Json.Tree.ofJson (.object ruledMembers)).Nests 4 := by simp [ruledMembers]
  have hnests' : (Json.Tree.ofJson (.object ruledMembersExtended)).Nests 4 := by
    simp [ruledMembersExtended]
  have htokens : Json.tokens (Text.ofChars (Json.object ruledMembers).render.toList) =
      ⟨(Json.object ruledMembers).spelling, true⟩ := by
    rw [Json.render, String.toList_ofList]
    decide +kernel
  have htokens' : Json.tokens (Text.ofChars (Json.object ruledMembersExtended).render.toList) =
      ⟨(Json.object ruledMembersExtended).spelling, true⟩ := by
    rw [Json.render, String.toList_ofList]
    decide +kernel
  have hline : Json.Document.ofText (Json.object ruledMembers).render =
      ⟨.ofJson (.object ruledMembers), true⟩ :=
    Json.Document.ofText_of_isRead (Json.Tree.isRead_of_nests (hnests.mono (by decide))) htokens
  have hread : ofLine (Json.object ruledMembers).render = .ok ruled := by
    rw [ofLine_eq_ok_iff, hline]
    exact ⟨by decide +kernel, rfl⟩
  obtain ⟨-, hall⟩ := ofLine_rearranged (congrArg Json.Document.tree hline) hread
  exact ⟨hread, (hall _ hline).1 _ _ rearranged_ruledMembers (hnests'.mono (by decide)) htokens'⟩

end Event

end ContainerNet
