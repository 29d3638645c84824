import ContainerNet.NetworkConfig
import ContainerNet.Proofs.Address.Text6
import ContainerNet.Proofs.Json.Records

/-!
# Configurations are read back from their text

The writer and the reader of a configuration are two tables that have to agree field by field:
values that may be left out, delays in whole milliseconds, rules that are the object of their
shape with one more key, and policies for which there is a short form that is never written. For
every type the module says that what is written reads back, from the parts up to
`NetworkConfig.read_reread`, and `NetworkConfig.ofText_render` is the same for a whole text.

What a text cannot carry is excluded by `IsPortable`. Percentages are written as floating-point
numbers, and whether such a text is read back is `ReadsBack`, a condition on the numbers that the
configuration holds.
-/

namespace ContainerNet

open Binary (Single)

/-! ## Simple values -/

namespace Subnet

theorem read_of_parse? {s : String} {net : Subnet} (h : parse? s = some net) :
    read (.text s) = .ok net := by
  rw [read, Json.Tree.asParsed, Json.Tree.asText]
  simp only [bind, Except.bind, h]
  rfl

theorem read_text (net : Subnet) : read (.text net.text) = .ok net :=
  read_of_parse? net.parse?_text

theorem read_reread (net : Subnet) : read (.ofJson net.toJson.reread) = .ok net := net.read_text

end Subnet

namespace Subnet6

theorem read_text (net : Subnet6) : read (.text net.text) = .ok net := by
  rw [read, Json.Tree.asParsed, Json.Tree.asText]
  simp only [bind, Except.bind, parse?_text]
  rfl

end Subnet6

namespace Bandwidth

theorem toNat_bits_lt (b : Bandwidth) : b.bits.toNat < UInt64.size := b.bits.toNat_lt

theorem read_reread (b : Bandwidth) : read (.ofJson b.toJson.reread) = .ok b := by
  rw [toJson, Json.reread_nat b.toNat_bits_lt, read, Json.Tree.value_ofJson, Json.nat]
  simp only [bind, Except.bind, UInt64.ofNat_toNat]
  rfl

end Bandwidth

namespace FilterAction

theorem read_reread (a : FilterAction) (source : Json.Tree.Source) :
    read source (.ofJson a.toJson.reread) = .ok a := by
  rw [toJson, Json.reread_text]
  match a with
  | .accept | .reject | .drop => rfl

end FilterAction

namespace PolicyAction

theorem read_reread (a : PolicyAction) (source : Json.Tree.Source) :
    read source (.ofJson a.toJson.reread) = .ok a := by
  rw [toJson, Json.reread_text]
  match a with
  | .allow | .deny => rfl

end PolicyAction

namespace Duration

/-- Whether a delay is a whole number of milliseconds that fits eight bytes. -/
def IsWholeMillis (d : Duration) : Prop := ∃ n < UInt64.size, d = ofMillis n

end Duration

/-! ## Shapes -/

namespace Shape

/-- Whether a shape is one that a text can carry: its delays are whole milliseconds, and its
percentages are numbers. -/
structure IsPortable (s : Shape) : Prop where
  latency : s.latency.IsWholeMillis
  jitter : s.jitter.IsWholeMillis
  finite : ∀ p ∈ s.percentages, p.2.isFinite = true

/-- Whether the percentages of a shape are read back from their texts. -/
def ReadsBack (s : Shape) : Prop := ∀ p ∈ s.percentages, Json.ReadsBack p.2

variable {s : Shape} {d : Duration} {x : Single} {levels : Nat}

theorem delayJson_eq {n : Nat} (h : n < UInt64.size) :
    delayJson (.ofMillis n) = .nat n := by
  have hmillis : (Duration.ofMillis n).millis = n := Nat.mul_div_cancel n (by decide)
  rw [delayJson, hmillis, Nat.min_eq_left (Nat.le_sub_one_of_lt h)]

theorem readDelay_reread (h : d.IsWholeMillis) :
    readDelay (.ofJson (delayJson d).reread) = .ok d := by
  obtain ⟨n, hn, rfl⟩ := h
  rw [delayJson_eq hn, Json.reread_nat hn, Json.nat, Json.Tree.ofJson, readDelay,
    Json.Tree.asNat, if_pos hn]
  rfl

theorem asSingle_reread (h : Json.ReadsBack x) :
    Json.Tree.asSingle (.ofJson (percentJson x).reread) = .ok x := by
  obtain ⟨n, hn, hx⟩ := h.exists
  rw [percentJson, Json.reread, hn]
  exact hx

theorem foldlM_members (hs : s.IsPortable) (hback : s.ReadsBack) (source : Json.Tree.Source)
    (t : Shape) : (Json.rereadMembers s.members).foldlM (record source).put t = .ok s := by
  rw [ReadsBack, percentages] at hback
  simp only [List.forall_mem_cons] at hback
  simp [members, percentages, Json.rereadMembers, Json.Record.put, record,
    readDelay_reread hs.latency, readDelay_reread hs.jitter, Bandwidth.read_reread,
    FilterAction.read_reread, asSingle_reread, hback, bind, Except.bind, pure, Except.pure]

theorem keys_members (s : Shape) : s.members.map (·.1) =
    ["latency", "jitter", "bandwidth", "filter", "loss", "corrupt", "corrupt_corr", "reorder",
      "reorder_corr", "duplicate", "duplicate_corr"] := rfl

theorem nodup_keys (s : Shape) : ((Json.rereadMembers s.members).map (·.1)).Nodup := by
  rw [Json.map_fst_rereadMembers, keys_members]
  decide

/-- The members of a shape are read back, in an object of their own or among others. -/
theorem ofMembers_members (hs : s.IsPortable) (hback : s.ReadsBack) (source : Json.Tree.Source) :
    (record source).ofMembers (Json.rereadMembers s.members) = .ok s :=
  Json.Record.ofMembers_eq s.nodup_keys (by simp [record]) (foldlM_members hs hback source _)

theorem read_reread (hs : s.IsPortable) (hback : s.ReadsBack) (source : Json.Tree.Source) :
    read source (.ofJson s.toJson.reread) = .ok s :=
  Json.Record.read_object s.nodup_keys (by simp [record]) (foldlM_members hs hback source _)

theorem isReadable_delayJson (h : d.IsWholeMillis) : Json.IsReadable levels (delayJson d) := by
  obtain ⟨n, hn, rfl⟩ := h
  rw [delayJson_eq hn]
  exact Json.isReadable_nat hn

theorem isReadable_percentJson (h : Json.ReadsBack x) :
    Json.IsReadable levels (percentJson x) := by
  obtain ⟨n, hn, -⟩ := h.exists
  exact .number (by rw [hn]; rfl)

theorem isReadable_members (hs : s.IsPortable) (hback : s.ReadsBack) :
    ∀ m ∈ s.members, Json.IsReadable levels m.2 := by
  intro m hm
  rw [members, List.mem_append] at hm
  obtain hm | hm := hm
  · simp only [List.mem_cons, List.not_mem_nil, or_false] at hm
    obtain rfl | rfl | rfl | rfl := hm
    · exact isReadable_delayJson hs.latency
    · exact isReadable_delayJson hs.jitter
    · exact Json.isReadable_nat s.bandwidth.toNat_bits_lt
    · exact .text _
  · obtain ⟨p, hp, rfl⟩ := List.mem_map.1 hm
    exact isReadable_percentJson (hback p hp)

end Shape

/-! ## Rules and policies -/

namespace Rule

variable {r : Rule}

theorem not_has_of_mem_members {s : Shape} :
    ∀ m ∈ Json.rereadMembers s.members, subnetRecord.has m.1 = false := by
  intro m hm
  have hnone : ∀ k ∈ s.members.map (·.1), subnetRecord.has k = false := by
    rw [Shape.keys_members]
    decide
  apply hnone
  rw [← Json.map_fst_rereadMembers]
  exact List.mem_map_of_mem hm

theorem readOpen_reread (r : Rule) : subnetRecord.readOpen (.ofJson r.toJson.reread) =
    .ok (some r.subnet, Json.rereadMembers r.shape.members) := by
  have hkeys : (Json.rereadMembers (("subnet", r.subnet.toJson) :: r.shape.members)).map (·.1) =
      "subnet" :: r.shape.members.map (·.1) := Json.map_fst_rereadMembers _
  have hsubnet : subnetRecord.put none ("subnet", r.subnet.toJson.reread) =
      .ok (some r.subnet) := by
    simp only [Json.Record.put, subnetRecord, List.find?, decide_true, Subnet.read_reread]
    rfl
  have hfill : (Json.rereadMembers (("subnet", r.subnet.toJson) :: r.shape.members)).foldlM
      subnetRecord.put none = .ok (some r.subnet) := by
    rw [Json.rereadMembers, List.foldlM_cons, hsubnet]
    exact Json.Record.foldlM_put_of_not_has (not_has_of_mem_members (s := r.shape)) _
  have hrest : (Json.rereadMembers (("subnet", r.subnet.toJson) :: r.shape.members)).filter
      (!subnetRecord.has ·.1) = Json.rereadMembers r.shape.members := by
    have hhas : subnetRecord.has "subnet" = true := by decide
    rw [Json.rereadMembers, List.filter_cons_of_neg (by simp [hhas]), List.filter_eq_self]
    intro m hm
    rw [not_has_of_mem_members m hm, Bool.not_false]
  rw [toJson, Json.reread, Json.Tree.ofJson,
    Json.Record.readOpen_object (by rw [hkeys, Shape.keys_members]; decide)
      (by rw [hkeys]; simp [subnetRecord]) hfill, hrest]

theorem read_reread (hs : r.shape.IsPortable) (hback : r.shape.ReadsBack) :
    read (.ofJson r.toJson.reread) = .ok r := by
  rw [read, readOpen_reread]
  simp only [bind, Except.bind, Shape.ofMembers_members hs hback]
  rfl

theorem isReadable_toJson {levels : Nat} (hs : r.shape.IsPortable) (hback : r.shape.ReadsBack) :
    Json.IsReadable (levels + 1) r.toJson := by
  refine .object fun m hm ↦ ?_
  obtain rfl | hm := List.mem_cons.1 hm
  · exact .text _
  · exact Shape.isReadable_members hs hback m hm

end Rule

namespace RoutingPolicy

/-- A policy is written as an object, never as one word. -/
theorem read_reread (p : RoutingPolicy) : read (.ofJson p.toJson.reread) = .ok p := by
  have hexceptions : Json.Tree.asList Subnet.read
      (.ofJson (Json.array (p.exceptions.map Subnet.toJson)).reread) = .ok p.exceptions :=
    Json.asList_reread fun net _ ↦ net.read_reread
  have hfill : (Json.rereadMembers [("default", p.action.toJson),
      ("exceptions", .array (p.exceptions.map Subnet.toJson))]).foldlM record.put {} = .ok p := by
    simp [Json.rereadMembers, Json.Record.put, record, PolicyAction.read_reread, hexceptions,
      bind, Except.bind, pure, Except.pure]
  have hread : record.read (.ofJson p.toJson.reread) = .ok p :=
    Json.Record.read_object (by rw [Json.map_fst_rereadMembers]; simp) (by simp [record]) hfill
  have hvalue : p.toJson.reread = .object (Json.rereadMembers [("default", p.action.toJson),
      ("exceptions", .array (p.exceptions.map Subnet.toJson))]) := rfl
  rw [hvalue] at hread
  rw [read, Json.Tree.value_ofJson, hvalue]
  simp only [bind, Except.bind, hread]
  rfl

theorem isReadable_toJson {levels : Nat} (p : RoutingPolicy) :
    Json.IsReadable (levels + 2) p.toJson := by
  refine .object fun m hm ↦ ?_
  simp only [List.mem_cons, List.not_mem_nil, or_false] at hm
  obtain rfl | rfl := hm
  · exact .text _
  · refine .array fun v hv ↦ ?_
    obtain ⟨net, -, rfl⟩ := List.mem_map.1 hv
    exact .text _

end RoutingPolicy

/-! ## Configurations -/

namespace NetworkConfig

/-- The default shape and the shapes of the rules. -/
def shapes (c : NetworkConfig) : List Shape := c.shape :: c.rules.map Rule.shape

/-- Whether a configuration is one that a text can carry. -/
def IsPortable (c : NetworkConfig) : Prop := ∀ s ∈ c.shapes, s.IsPortable

/-- Whether the percentages that the configuration holds, as far as they are numbers, are read back
from their texts. -/
def ReadsBack (c : NetworkConfig) : Prop :=
  ∀ s ∈ c.shapes, ∀ p ∈ s.percentages, p.2.isFinite = true → Json.ReadsBack p.2

instance (c : NetworkConfig) : Decidable c.ReadsBack := inferInstanceAs (Decidable (∀ _ ∈ _, _))

variable {c : NetworkConfig}

/-- The members of the object of a configuration. -/
def members (c : NetworkConfig) : List (String × Json) :=
  [("network", .text c.network), ("enable", .bool c.enable)] ++
    Json.optional "ipv4" Subnet.toJson c.ipv4 ++
    Json.optional "ipv6" Subnet6.toJson c.ipv6 ++
    [("default", c.shape.toJson), ("rules", .array (c.rules.map Rule.toJson)),
      ("routing_policy", c.policy.toJson)] ++
    Json.optional "callback_state" .text c.callbackState

theorem toJson_eq (c : NetworkConfig) : c.toJson = .object c.members := rfl

theorem keys_members (c : NetworkConfig) : (c.members.map (·.1)).Sublist
    ["network", "enable", "ipv4", "ipv6", "default", "rules", "routing_policy",
      "callback_state"] := by
  simp only [members, List.map_append]
  have haddresses := (Json.Record.keys_optional "ipv4" Subnet.toJson c.ipv4).append
    (Json.Record.keys_optional "ipv6" Subnet6.toJson c.ipv6)
  have hfront := (List.Sublist.refl ["network", "enable"]).append haddresses
  rw [← List.append_assoc] at hfront
  exact (hfront.append (.refl _)).append (Json.Record.keys_optional "callback_state" _ _)

theorem shape_readsBack (hc : c.IsPortable) (hback : c.ReadsBack) :
    ∀ s ∈ c.shapes, s.ReadsBack :=
  fun s hs p hp ↦ hback s hs p hp ((hc s hs).finite p hp)

theorem shape_mem_shapes (c : NetworkConfig) : c.shape ∈ c.shapes := List.mem_cons_self

theorem mem_shapes_of_mem_rules {r : Rule} (h : r ∈ c.rules) : r.shape ∈ c.shapes :=
  List.mem_cons_of_mem _ (List.mem_map_of_mem h)

/-- Member by member a configuration is put together again; what is left out keeps what the
reader starts with. -/
theorem foldlM_members (hc : c.IsPortable) (hback : c.ReadsBack) (source : Json.Tree.Source) :
    (Json.rereadMembers c.members).foldlM (record source).put (enabled "") = .ok c := by
  have hshapes := shape_readsBack hc hback
  have hrules : Json.Tree.asList Rule.read
      (.ofJson (Json.array (c.rules.map Rule.toJson)).reread) = .ok c.rules :=
    Json.asList_reread fun r hr ↦
      r.read_reread (hc _ (mem_shapes_of_mem_rules hr)) (hshapes _ (mem_shapes_of_mem_rules hr))
  have hfront : (Json.rereadMembers
      [("network", .text c.network), ("enable", .bool c.enable)]).foldlM (record source).put
        (enabled "") = .ok { network := c.network, enable := c.enable } := by
    simp [Json.rereadMembers, Json.Record.put, record, enabled, Json.Tree.ofJson,
      Json.Tree.asText, Json.Tree.asBool, bind, Except.bind, pure, Except.pure]
  have hipv4 : (Json.rereadMembers (Json.optional "ipv4" Subnet.toJson c.ipv4)).foldlM
      (record source).put { network := c.network, enable := c.enable } =
        .ok { network := c.network, enable := c.enable, ipv4 := c.ipv4 } := by
    refine Json.Record.foldlM_optional (fun h ↦ by rw [h]) fun net h ↦ ?_
    simp [Json.Record.put, record, Subnet.toJson, Json.Tree.ofJson,
      Json.asOption_text net.read_text, h, bind, Except.bind, pure, Except.pure]
  have hipv6 : (Json.rereadMembers (Json.optional "ipv6" Subnet6.toJson c.ipv6)).foldlM
      (record source).put { network := c.network, enable := c.enable, ipv4 := c.ipv4 } =
        .ok { network := c.network, enable := c.enable, ipv4 := c.ipv4, ipv6 := c.ipv6 } := by
    refine Json.Record.foldlM_optional (fun h ↦ by rw [h]) fun net h ↦ ?_
    simp [Json.Record.put, record, Subnet6.toJson, Json.Tree.ofJson,
      Json.asOption_text net.read_text, h, bind, Except.bind, pure, Except.pure]
  have hmiddle : (Json.rereadMembers [("default", c.shape.toJson),
      ("rules", .array (c.rules.map Rule.toJson)), ("routing_policy", c.policy.toJson)]).foldlM
      (record source).put
        { network := c.network, enable := c.enable, ipv4 := c.ipv4, ipv6 := c.ipv6 } =
      .ok { c with callbackState := none } := by
    simp [Json.rereadMembers, Json.Record.put, record, hrules, RoutingPolicy.read_reread,
      Shape.read_reread (hc _ c.shape_mem_shapes) (hshapes _ c.shape_mem_shapes),
      bind, Except.bind, pure, Except.pure]
  have hlabel : (Json.rereadMembers (Json.optional "callback_state" .text c.callbackState)).foldlM
      (record source).put { c with callbackState := none } = .ok c := by
    refine Json.Record.foldlM_optional (fun h ↦ by rw [← h]) fun label h ↦ ?_
    have htext : Json.Tree.asText (.text label) = .ok label := rfl
    simp [Json.Record.put, record, Json.Tree.ofJson, Json.asOption_text htext, bind, Except.bind,
      pure, Except.pure, ← h]
  simp only [members, Json.rereadMembers_append, List.foldlM_append]
  rw [hfront]
  simp only [bind, Except.bind, hipv4, hipv6, hmiddle, hlabel]

theorem nodup_keys (c : NetworkConfig) : ((Json.rereadMembers c.members).map (·.1)).Nodup := by
  rw [Json.map_fst_rereadMembers]
  exact c.keys_members.nodup (by decide)

theorem read_reread (hc : c.IsPortable) (hback : c.ReadsBack) (source : Json.Tree.Source) :
    read source (.ofJson c.toJson.reread) = .ok c := by
  have hrequired : ∀ f ∈ (record source).fields, f.required = true →
      f.name ∈ (Json.rereadMembers c.members).map (·.1) := by simp [record, members]
  rw [toJson_eq, Json.reread, Json.Tree.ofJson]
  exact Json.Record.read_object c.nodup_keys hrequired (foldlM_members hc hback source)

theorem isReadable_toJson {levels : Nat} (hc : c.IsPortable) (hback : c.ReadsBack) :
    Json.IsReadable (levels + 3) c.toJson := by
  have hshapes := shape_readsBack hc hback
  rw [toJson_eq]
  refine .object fun m hm ↦ ?_
  simp only [members, List.mem_append, List.mem_cons, List.not_mem_nil, or_false] at hm
  obtain ((((rfl | rfl) | hm) | hm) | (rfl | rfl | rfl)) | hm := hm
  · exact .text _
  · exact .bool _
  · exact Json.isReadable_optional (fun _ ↦ .text _) _ m hm
  · exact Json.isReadable_optional (fun _ ↦ .text _) _ m hm
  · exact .object (Shape.isReadable_members (hc _ c.shape_mem_shapes)
      (hshapes _ c.shape_mem_shapes))
  · refine .array fun v hv ↦ ?_
    obtain ⟨r, hr, rfl⟩ := List.mem_map.1 hv
    exact r.isReadable_toJson (hc _ (mem_shapes_of_mem_rules hr))
      (hshapes _ (mem_shapes_of_mem_rules hr))
  · exact c.policy.isReadable_toJson
  · exact Json.isReadable_optional .text _ m hm

theorem ofText_render (hc : c.IsPortable) (hback : c.ReadsBack) :
    (Json.Document.ofText c.toJson.render).decode (read .stream) = .ok c := by
  rw [Json.Document.ofText_render (isReadable_toJson hc hback), Json.Document.decode_complete,
    read_reread hc hback]

end NetworkConfig

end ContainerNet
