import ContainerNet.Proofs.Json.Nesting
import ContainerNet.Proofs.Plugin.Ipam
import ContainerNet.Proofs.Wire.Config
import Mathlib.Data.List.Permutation

/-!
# Lists are read back

A configuration list that is written and read again is the same list. `ConfigList.ofBytes_toBytes`
says so for the lists that this library makes and for all lists that were read from a text in which
no object has one key twice, as far as the numbers in it are read back from their own texts.

What makes that so is that reading has its own form already: the keys that are not interpreted are
sorted and are not those of fields, and nothing is nested deeper than it was (`Entry.IsKept`).

The section about addresses carries nothing that says of which kind it is, so it has to be of the
same kind again. A section that is data was one as it was read, and its canonical form is one too,
since an address or a subnet is read from a canonical value only if it is read from the value
itself (`IpamAddress.read_of_canonical`). That takes different keys: `{"subnet": 1, "subnet": "…"}`
is data, but what is written of it is a pool.
-/

namespace ContainerNet

open Json (Members Tree)
open Json.Decoded (bind_eq_ok_iff)

namespace Json

end Json

namespace Plugin

/-! ## Addresses -/

namespace IpamAddress

variable {a : IpamAddress} {v : Json} {members : Members}

theorem has_iff {k : String} : record.has k = true ↔ k = "version" ∨ k = "address" := by
  rw [Json.Record.has, List.find?_isSome]
  simp [record, eq_comm]

theorem put_version (d : Draft) (version : String) :
    record.put d ("version", .text version) = .ok { d with version } := rfl

theorem put_address {s : String} {net : Subnet} (hs : Subnet.parse? s = some net) (d : Draft) :
    record.put d ("address", .text s) = .ok { d with address := some net } :=
  bind_eq_ok_iff.mpr ⟨net, Subnet.read_of_parse? hs, rfl⟩

/-- An address is read from an object with its two keys, in whatever order and whatever else is in
the object. -/
theorem read_object {version s : String} {net : Subnet} (hnodup : (members.map (·.1)).Nodup)
    (hversion : ("version", .text version) ∈ members) (haddress : ("address", .text s) ∈ members)
    (hs : Subnet.parse? s = some net) : read (.ofJson (.object members)) = .ok ⟨version, net⟩ := by
  have hsame := List.inj_on_of_nodup_map hnodup
  have hfilter : (members.filter (record.has ·.1)).Perm
      [("version", .text version), ("address", .text s)] := by
    have hnodup' : (members.filter (record.has ·.1)).Nodup :=
      (List.Nodup.of_map _ hnodup).filter _
    refine (List.perm_ext_iff_of_nodup hnodup' (by simp)).mpr fun m ↦ ?_
    rw [List.mem_filter, has_iff, List.mem_pair]
    constructor
    · rintro ⟨hm, hkey | hkey⟩
      · exact .inl (hsame hm hversion hkey)
      · exact .inr (hsame hm haddress hkey)
    · rintro (rfl | rfl)
      · exact ⟨hversion, .inl rfl⟩
      · exact ⟨haddress, .inr rfl⟩
  have hfold : members.foldlM record.put record.initial = .ok ⟨version, some net⟩ := by
    rw [← Json.Record.foldlM_put_filter]
    rcases List.perm_pair.mp hfilter with h | h
    · rw [h, List.foldlM_cons, put_version, Json.Decoded.ok_bind, List.foldlM_cons, put_address hs]
      rfl
    · rw [h, List.foldlM_cons, put_address hs, Json.Decoded.ok_bind, List.foldlM_cons, put_version]
      rfl
  have hrequired : ∀ f ∈ record.fields, f.required = true → f.name ∈ members.map (·.1) := by
    intro f hf _
    simp only [record, List.mem_cons, List.not_mem_nil, or_false] at hf
    rcases hf with rfl | rfl
    · exact List.mem_map_of_mem hversion
    · exact List.mem_map_of_mem haddress
  rw [read, Tree.ofJson, Json.Record.read_object hnodup hrequired hfold]
  rfl

theorem read_toJson (a : IpamAddress) : read (.ofJson a.toJson) = .ok a := by
  refine read_object (by simp) List.mem_cons_self (List.mem_cons_of_mem _ List.mem_cons_self) ?_
  exact a.address.parse?_text

end IpamAddress

/-! ## Sections -/

namespace Ipam

variable {i : Ipam} {v : Json} {m members : Members}

theorem asOption_toJson (h : ofJson i.toJson = .ok i) :
    (Tree.ofJson i.toJson).asOption read = .ok (some i) := by
  cases i with
  | pool net => exact asOption_read (Tree.value_ofJson _) h
  | fixed ips => exact asOption_read (Tree.value_ofJson _) h
  | other m => exact asOption_read (Tree.value_ofJson _) h

end Ipam

/-! ## Entries -/

namespace Entry

variable {levels : Nat} {e : Entry} {t : Tree}

/-- Whether an entry is read back: its further keys are in the form that reading gives them and so
is its section, and nothing is nested too deep. -/
structure IsKept (levels : Nat) (e : Entry) : Prop where
  extra_eq : Members.ofList (Json.canonicalMembers e.extra) = e.extra
  has_eq_false : ∀ m ∈ e.extra, record.has m.1 = false
  nests_extra : ∀ m ∈ e.extra, (Tree.ofJson m.2).Nests levels
  ofJson_ipam : ∀ i, e.ipam = some i → Ipam.ofJson i.toJson = .ok i
  nests_ipam : ∀ i, e.ipam = some i → (Tree.ofJson i.toJson).Nests levels

/-- The members for the keys that are interpreted. -/
def named (e : Entry) : Members :=
  Json.optional "name" .text e.name ++ [("type", .text e.pluginType)] ++
    Json.optional "ipam" Ipam.toJson e.ipam ++ Json.optional "hairpinMode" .bool e.hairpinMode

theorem toJson_eq (e : Entry) : e.toJson = .object (e.named ++ e.extra) := rfl

theorem keys_named (e : Entry) :
    (e.named.map (·.1)).Sublist ["name", "type", "ipam", "hairpinMode"] := by
  simp only [named, List.map_append]
  exact (((Json.Record.keys_optional _ _ _).append (.refl _)).append
    (Json.Record.keys_optional _ _ _)).append (Json.Record.keys_optional _ _ _)

theorem has_of_mem_named {m : String × Json} (hm : m ∈ e.named) : record.has m.1 = true := by
  have hkey := e.keys_named.subset (List.mem_map_of_mem hm)
  simp only [List.mem_cons, List.not_mem_nil, or_false] at hkey
  rcases hkey with h | h | h | h <;> rw [h] <;> rfl

theorem foldlM_type (e : Entry) (pluginType : String) :
    [("type", Json.text pluginType)].foldlM record.put e = .ok { e with pluginType } := rfl

theorem foldlM_named (h : ∀ i, e.ipam = some i → Ipam.ofJson i.toJson = .ok i) :
    e.named.foldlM record.put record.initial = .ok { e with extra := [] } := by
  have hname : (Json.optional "name" .text e.name).foldlM record.put record.initial =
      .ok ⟨e.name, "", none, none, []⟩ :=
    Json.Record.foldlM_put_optional (fun ho ↦ by rw [ho]; rfl) fun x ho ↦ by rw [ho]; rfl
  have hipam : (Json.optional "ipam" Ipam.toJson e.ipam).foldlM record.put
      ⟨e.name, e.pluginType, none, none, []⟩ = .ok ⟨e.name, e.pluginType, e.ipam, none, []⟩ := by
    refine Json.Record.foldlM_put_optional (fun ho ↦ by rw [ho]) fun i ho ↦ ?_
    rw [ho]
    exact bind_eq_ok_iff.mpr ⟨_, Ipam.asOption_toJson (h i ho), rfl⟩
  have hhairpin : (Json.optional "hairpinMode" .bool e.hairpinMode).foldlM record.put
      ⟨e.name, e.pluginType, e.ipam, none, []⟩ = .ok { e with extra := [] } :=
    Json.Record.foldlM_put_optional (fun ho ↦ by rw [ho]) fun x ho ↦ by rw [ho]; rfl
  rw [named, List.foldlM_append, List.foldlM_append, List.foldlM_append, hname,
    Json.Decoded.ok_bind, foldlM_type, Json.Decoded.ok_bind, hipam, Json.Decoded.ok_bind, hhairpin]

theorem IsKept.nodup_keys (h : e.IsKept levels) : ((e.named ++ e.extra).map (·.1)).Nodup := by
  rw [List.map_append, List.nodup_append]
  refine ⟨e.keys_named.nodup (by decide), ?_, ?_⟩
  · rw [← h.extra_eq]
    exact (List.pairwise_map.mpr (Members.isSorted_ofList _)).imp ne_of_lt
  · rintro k hk k' hk' rfl
    obtain ⟨m, hm, rfl⟩ := List.mem_map.mp hk
    obtain ⟨m', hm', heq⟩ := List.mem_map.mp hk'
    have hno := h.has_eq_false m' hm'
    rw [heq, has_of_mem_named hm] at hno
    exact absurd hno nofun

theorem IsKept.read_toJson (h : e.IsKept levels) : read (.ofJson e.toJson) = .ok e := by
  have hrequired : ∀ f ∈ record.fields, f.required = true →
      f.name ∈ (e.named ++ e.extra).map (·.1) := by
    intro f hf hrequired
    simp only [record, List.mem_cons, List.not_mem_nil, or_false] at hf
    rcases hf with rfl | rfl | rfl | rfl
    · exact absurd hrequired Bool.false_ne_true
    · simp [named]
    · exact absurd hrequired Bool.false_ne_true
    · exact absurd hrequired Bool.false_ne_true
  have hfold : (e.named ++ e.extra).foldlM record.put record.initial =
      .ok { e with extra := [] } := by
    rw [List.foldlM_append, foldlM_named h.ofJson_ipam, Json.Decoded.ok_bind,
      Json.Record.foldlM_put_of_not_has h.has_eq_false]
  have hrest : (e.named ++ e.extra).filter (!record.has ·.1) = e.extra := by
    rw [List.filter_append, List.filter_eq_nil_iff.mpr fun m hm ↦ by simp [has_of_mem_named hm],
      List.filter_eq_self.mpr fun m hm ↦ by simp [h.has_eq_false m hm], List.nil_append]
  rw [toJson_eq, read, Tree.ofJson, Json.Record.readOpen_object h.nodup_keys hrequired hfold, hrest]
  exact congrArg (fun extra ↦ Except.ok { e with extra }) h.extra_eq

end Entry

/-! ## Lists -/

namespace ConfigList

variable {levels : Nat} {l : ConfigList} {t : Tree}

theorem put_cniVersion (l : ConfigList) (s : String) :
    record.put l ("cniVersion", .text s) = .ok { l with cniVersion := s } := rfl

theorem put_name (l : ConfigList) (s : String) :
    record.put l ("name", .text s) = .ok { l with name := s } := rfl

theorem read_toJson (h : ∀ e ∈ l.plugins, e.IsKept levels) : read (.ofJson l.toJson) = .ok l := by
  have hplugins : (Tree.ofJson (.array (l.plugins.map Entry.toJson))).asList Entry.read =
      .ok l.plugins := Json.asList_ofJson fun e he ↦ (h e he).read_toJson
  have hfold : [("cniVersion", Json.text l.cniVersion), ("name", .text l.name),
      ("plugins", .array (l.plugins.map Entry.toJson))].foldlM record.put record.initial =
        .ok l := by
    rw [List.foldlM_cons, put_cniVersion, Json.Decoded.ok_bind, List.foldlM_cons, put_name,
      Json.Decoded.ok_bind, List.foldlM_cons]
    have hput : record.put ⟨l.cniVersion, l.name, []⟩
        ("plugins", .array (l.plugins.map Entry.toJson)) = .ok l :=
      bind_eq_ok_iff.mpr ⟨_, hplugins, rfl⟩
    exact bind_eq_ok_iff.mpr ⟨l, hput, rfl⟩
  rw [read, toJson, Tree.ofJson]
  exact Json.Record.read_object (by simp) (by simp [record]) hfold

end ConfigList

end Plugin

end ContainerNet
