import ContainerNet.Event
import ContainerNet.Proofs.Wire.Config

/-!
# Events are read back from their lines

An event is one flat object for the reader as for the writer, but it is read in two passes and by
three tables: the kind is set apart wherever it stands, the container and the configuration are
taken out of what is left, and what is left then has to be the reference to a namespace. So each
table sees the members of the others, and the proof says for each that it passes over them.

`Event.read_back` is the law for events and for the configurations that they carry.
-/

namespace ContainerNet

namespace ContainerId

theorem read_toJson (id : ContainerId) : read (.ofJson id.toJson) = .ok id := by
  rw [toJson, Json.Tree.ofJson, read, Json.Tree.asText]
  simp only [bind, Except.bind, parse, id.valid, dif_pos]
  rfl

end ContainerId

namespace NetnsRef

/-- Whether a reference to a namespace is one that a text can carry: the number of a process fits
four bytes. -/
def IsPortable : NetnsRef → Prop
  | .path _ => True
  | .pid n => n < UInt32.size

theorem ofMembers_member {netns : NetnsRef} (h : netns.IsPortable) :
    ofMembers [(netns.member.1, netns.member.2.reread)] = .ok netns := by
  match netns with
  | .path p => rfl
  | .pid n =>
    have hn : n < UInt32.size := h
    have hread : Json.Tree.asNat UInt32.size (.ofJson (.nat n)) = .ok n := if_pos hn
    have hfill : [("pid", Json.nat n)].foldlM pidRecord.put none = .ok (some n) := by
      simp only [List.foldlM_cons, Json.Record.put, pidRecord, List.find?, decide_true, hread]
      rfl
    have hpath : pathRecord.ofMembers [("pid", Json.nat n)] =
        .error (.missingField "netns_path") := rfl
    have hpid : pidRecord.ofMembers [("pid", Json.nat n)] = .ok (some n) :=
      Json.Record.ofMembers_eq (by simp) (by simp [pidRecord]) hfill
    rw [member]
    simp only [Json.reread_nat (Nat.lt_trans hn (by decide)), ofMembers, hpath, hpid]

theorem key_member (netns : NetnsRef) :
    netns.member.1 = "netns_path" ∨ netns.member.1 = "pid" := by
  match netns with
  | .path _ => exact .inl rfl
  | .pid _ => exact .inr rfl

theorem isReadable_member {levels : Nat} {netns : NetnsRef} (h : netns.IsPortable) :
    Json.IsReadable levels netns.member.2 := by
  match netns with
  | .path _ => exact .text _
  | .pid _ => exact Json.isReadable_nat (Nat.lt_trans h (by decide))

end NetnsRef

namespace Event

/-- The configuration that an event carries. -/
def config? : Event → Option NetworkConfig
  | .configure _ _ config => some config
  | .release _ => none

/-- Whether an event is one that a text can carry. -/
def IsPortable : Event → Prop
  | .configure _ netns config => netns.IsPortable ∧ config.IsPortable
  | .release _ => True

theorem members_ofMembers {l : List (String × Json)} (h : ∀ m ∈ l, m.1 ≠ "type")
    (kind : Option Kind) (rest : List (String × Json)) :
    members (Json.Tree.ofMembers l) kind rest = .ok (kind, rest.reverse ++ l) := by
  induction l generalizing rest with
  | nil => rw [Json.Tree.ofMembers, members, List.append_nil]
  | cons m l ih =>
    rw [Json.Tree.ofMembers, members, if_neg (h m List.mem_cons_self), Json.Tree.value_ofJson]
    refine (ih (fun m' hm' ↦ h m' (List.mem_cons_of_mem _ hm')) _).trans ?_
    rw [List.reverse_cons, List.append_assoc, List.singleton_append]

/-- The kind of an event is set apart, and all other members are left. -/
theorem envelope_ofMembers {word : String} {kind : Kind} (hkind : Kind.read (.text word) = .ok kind)
    {l : List (String × Json)} (h : ∀ m ∈ l, m.1 ≠ "type") :
    envelope (.ofJson (.object (("type", .text word) :: l))) = .ok (kind, .object l) := by
  rw [Json.Tree.ofJson, Json.Tree.ofMembers, envelope, members, if_pos rfl, Json.Tree.ofJson, hkind]
  simp only [bind, Except.bind, Option.isSome_none, members_ofMembers h]
  rfl

theorem put_container {r : Json.Record Draft} {d : Draft}
    (h : r.fields.find? (·.name = "container_id") = some containerField) (id : ContainerId) :
    r.put d ("container_id", id.toJson) = .ok { d with container := some id } := by
  simp only [Json.Record.put, h, containerField, id.read_toJson]
  rfl

/-- In the second pass the container and the configuration are taken out, and the reference to the
namespace is left. -/
theorem readOpen_configure {config : NetworkConfig} (hc : config.IsPortable)
    (hback : config.ReadsBack) (id : ContainerId) (netns : NetnsRef) :
    configureRecord.readOpen (.ofJson (.object [("container_id", id.toJson),
        (netns.member.1, netns.member.2.reread), ("config", config.toJson.reread)])) =
      .ok (⟨some id, some config⟩, [(netns.member.1, netns.member.2.reread)]) := by
  have hnot : configureRecord.has netns.member.1 = false := by
    obtain h | h := netns.key_member <;> rw [h] <;> decide
  have hconfig : configureRecord.put ⟨some id, none⟩ ("config", config.toJson.reread) =
      .ok ⟨some id, some config⟩ := by
    have hfind : configureRecord.fields.find? (·.name = "config") = some configField := rfl
    simp only [Json.Record.put, hfind, configField, NetworkConfig.read_reread hc hback]
    rfl
  have hmember : configureRecord.put ⟨some id, none⟩ (netns.member.1, netns.member.2.reread) =
      .ok ⟨some id, none⟩ := Json.Record.put_of_not_has hnot _ _
  have hfill : [("container_id", id.toJson), (netns.member.1, netns.member.2.reread),
      ("config", config.toJson.reread)].foldlM configureRecord.put {} =
      .ok ⟨some id, some config⟩ := by
    rw [List.foldlM_cons, put_container rfl]
    simp only [List.foldlM_cons, List.foldlM_nil, bind, Except.bind, hmember, hconfig]
    rfl
  have hcontainer : configureRecord.has "container_id" = true := by decide
  have hkey : configureRecord.has "config" = true := by decide
  rw [Json.Tree.ofJson, Json.Record.readOpen_object ?_ ?_ hfill]
  · simp [hnot, hcontainer, hkey]
  · obtain h | h := netns.key_member <;> simp [h]
  · simp [configureRecord, containerField, configField]

theorem read_configure {id : ContainerId} {netns : NetnsRef} {config : NetworkConfig}
    (hnetns : netns.IsPortable) (hc : config.IsPortable) (hback : config.ReadsBack) :
    read (.ofJson (toJson (.configure id netns config)).reread) =
      .ok (.configure id netns config) := by
  have hkeys : ∀ m ∈ [("container_id", id.toJson), (netns.member.1, netns.member.2.reread),
      ("config", config.toJson.reread)], m.1 ≠ "type" := by
    obtain h | h := netns.key_member <;> simp [h]
  have henvelope : envelope (.ofJson (toJson (.configure id netns config)).reread) =
      .ok (.configure, .object [("container_id", id.toJson),
        (netns.member.1, netns.member.2.reread), ("config", config.toJson.reread)]) :=
    envelope_ofMembers rfl hkeys
  rw [read, henvelope]
  simp only [bind, Except.bind, ofParts, readOpen_configure hc hback,
    NetnsRef.ofMembers_member hnetns]
  rfl

theorem read_release (id : ContainerId) :
    read (.ofJson (toJson (.release id)).reread) = .ok (.release id) := by
  have hkeys : ∀ m ∈ [("container_id", id.toJson)], m.1 ≠ "type" := by simp
  have henvelope : envelope (.ofJson (toJson (.release id)).reread) =
      .ok (.release, .object [("container_id", id.toJson)]) := envelope_ofMembers rfl hkeys
  have hfill : [("container_id", id.toJson)].foldlM releaseRecord.put {} = .ok ⟨some id, none⟩ := by
    rw [List.foldlM_cons, put_container rfl]
    rfl
  have hrelease : releaseRecord.read (.ofJson (.object [("container_id", id.toJson)])) =
      .ok ⟨some id, none⟩ :=
    Json.Record.read_object (by simp) (by simp [releaseRecord, containerField]) hfill
  rw [read, henvelope]
  simp only [bind, Except.bind, ofParts, hrelease]
  rfl

theorem isReadable_toJson {e : Event} (he : e.IsPortable) (hback : ∀ c ∈ e.config?, c.ReadsBack)
    {levels : Nat} : Json.IsReadable (levels + 4) e.toJson := by
  match e with
  | .configure id netns config =>
    refine .object fun m hm ↦ ?_
    simp only [List.mem_cons, List.not_mem_nil, or_false] at hm
    obtain rfl | rfl | rfl | rfl := hm
    · exact .text _
    · exact .text _
    · exact NetnsRef.isReadable_member he.1
    · exact NetworkConfig.isReadable_toJson he.2 (hback config rfl)
  | .release id =>
    refine .object fun m hm ↦ ?_
    simp only [List.mem_cons, List.not_mem_nil, or_false] at hm
    obtain rfl | rfl := hm
    · exact .text _
    · exact .text _

theorem ofLine_line {e : Event} (he : e.IsPortable) (hback : ∀ c ∈ e.config?, c.ReadsBack) :
    ofLine e.line = .ok e := by
  have hreadable : Json.IsReadable Json.Tree.maxDepth e.toJson := isReadable_toJson he hback
  have hread : read (.ofJson e.toJson.reread) = .ok e := by
    match e with
    | .configure id netns config => exact read_configure he.1 he.2 (hback config rfl)
    | .release id => exact read_release id
  rw [ofLine, line, Json.Document.ofText_render hreadable, Json.Document.decode_complete, hread]

theorem isPortable_config {e : Event} (he : e.IsPortable) : ∀ c ∈ e.config?, c.IsPortable := by
  intro c hc
  match e with
  | .configure _ _ config =>
    obtain rfl : config = c := Option.some.inj hc
    exact he.2
  | .release _ => exact absurd hc (Option.not_mem_none c)

/-- What a text can carry is carried: an event is read back from its line, and the configuration in
it from a text of its own. -/
theorem read_back (e : Event) (he : e.IsPortable) (hback : ∀ c ∈ e.config?, c.ReadsBack) :
    ofLine e.line = .ok e ∧ ∀ c ∈ e.config?,
      (Json.Document.ofText c.toJson.render).decode (NetworkConfig.read .stream) = .ok c :=
  ⟨ofLine_line he hback, fun c hc ↦
    NetworkConfig.ofText_render (isPortable_config he c hc) (hback c hc)⟩

/-- A shape with a value in every field. -/
def manifold : Shape where
  latency := .ofMillis 20
  jitter := .ofMillis (UInt64.size - 1)
  bandwidth := ⟨UInt64.ofNat (UInt64.size - 1)⟩
  filter := .reject
  loss := .ofRatio false 1 2
  corrupt := .ofRatio false 1 10
  corruptCorrelation := .ofNat 100
  reorder := .ofRatio true 0 1
  reorderCorrelation := .ofRatio false 1 3
  duplicate := .ofRatio false 1 10000000
  duplicateCorrelation := .ofNat 1

/-- A configuration in which nothing is left out. -/
def manifoldConfig : NetworkConfig where
  network := "lan \"a\"\n"
  enable := true
  ipv4 := some (.ofOctets 10 1 2 3 16)
  ipv6 := some { address := .ofGroups [0xfd00, 0, 0, 1, 0, 0, 0, 5], length := 64 }
  shape := manifold
  rules := [⟨.ofOctets 10 2 0 9 24, { manifold with filter := .drop }⟩]
  policy := ⟨.allow, [.ofOctets 8 8 8 8 32]⟩
  callbackState := some "\x01é"

theorem isPortable_manifold (a : FilterAction) : { manifold with filter := a }.IsPortable where
  latency := ⟨20, by decide, rfl⟩
  jitter := ⟨UInt64.size - 1, by decide, rfl⟩
  finite := by
    have : ∀ p ∈ manifold.percentages, p.2.isFinite = true := by decide +kernel
    exact this

/-- Nothing of such an event is lost. -/
theorem read_back_manifold :
    let e : Event := .configure ⟨"web-1", by decide⟩ (.path "/proc/42/ns/net") manifoldConfig
    ofLine e.line = .ok e ∧ ∀ c ∈ e.config?,
      (Json.Document.ofText c.toJson.render).decode (NetworkConfig.read .stream) = .ok c := by
  intro e
  have hportable : manifoldConfig.IsPortable := by
    intro s hs
    obtain rfl | hs := List.mem_cons.1 hs
    · exact isPortable_manifold .reject
    · obtain rfl := List.mem_singleton.1 hs
      exact isPortable_manifold .drop
  have hback : manifoldConfig.ReadsBack := by decide +kernel
  refine read_back e ⟨trivial, hportable⟩ fun c hc ↦ ?_
  obtain rfl : manifoldConfig = c := Option.some.inj hc
  exact hback

end Event

end ContainerNet
