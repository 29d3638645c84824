import ContainerNet.Plugin.ConfigList
import ContainerNet.Proofs.Json.Canonical
import ContainerNet.Proofs.Json.Fields

/-!
# Address management sections that are handed on

The section of a plugin entry about its addresses is data of the plugin, unless it is one that this
library writes. So what a plugin reads there should be what was written into the list.
`ConfigList.stdin_ipam_iff` determines when it is, in canonical form.

## What is lost

A section of the kind that this library writes is interpreted and then written anew. For a single
pool nothing gets lost that way. In a list of addresses each item is read as a record, which may
have further keys and may be an array as well, and neither is written. If another item of the list
is no address at all, the whole section is data again.
-/

namespace ContainerNet

open Json (Members Tree)
open Json.Decoded (bind_eq_ok_iff)

/-! ## Texts in a value -/

namespace Json

mutual

/-- The texts that a value holds, at any depth. The keys of objects are none of them. -/
def innerTexts : Json → List String
  | .text s => [s]
  | .array items => innerTextsOfItems items
  | .object members => innerTextsOfMembers members
  | _ => []

def innerTextsOfItems : List Json → List String
  | [] => []
  | v :: r => innerTexts v ++ innerTextsOfItems r

def innerTextsOfMembers : List (String × Json) → List String
  | [] => []
  | (_, v) :: r => innerTexts v ++ innerTextsOfMembers r

end

/-- Whether all subnets that a value holds are written as this library writes them. -/
def WritesSubnets (v : Json) : Prop :=
  ∀ s ∈ v.innerTexts, ∀ net ∈ Subnet.parse? s, net.text = s

instance (v : Json) : Decidable v.WritesSubnets :=
  inferInstanceAs (Decidable (∀ s ∈ v.innerTexts, ∀ net ∈ Subnet.parse? s, net.text = s))

theorem WritesSubnets.text_eq {s : String} {net : Subnet} (h : (text s).WritesSubnets)
    (hs : Subnet.parse? s = some net) : net.text = s :=
  h s List.mem_cons_self net hs

theorem WritesSubnets.item {items : List Json} {v : Json} (h : (array items).WritesSubnets)
    (hv : v ∈ items) : v.WritesSubnets := by
  refine fun s hs ↦ h s ?_
  rw [innerTexts]
  clear h
  induction items with
  | nil => exact absurd hv List.not_mem_nil
  | cons w items ih =>
    rw [innerTextsOfItems, List.mem_append]
    rcases List.mem_cons.mp hv with rfl | hv
    · exact .inl hs
    · exact .inr (ih hv)

theorem WritesSubnets.member {members : Members} {k : String} {v : Json}
    (h : (object members).WritesSubnets) (hv : (k, v) ∈ members) : v.WritesSubnets := by
  refine fun s hs ↦ h s ?_
  rw [innerTexts]
  clear h
  induction members with
  | nil => exact absurd hv List.not_mem_nil
  | cons m members ih =>
    rw [innerTextsOfMembers, List.mem_append]
    rcases List.mem_cons.mp hv with rfl | hv
    · exact .inl hs
    · exact .inr (ih hv)

end Json

theorem Subnet.read_ofJson_eq_ok {v : Json} {net : Subnet} (h : read (.ofJson v) = .ok net) :
    ∃ s, v = .text s ∧ parse? s = some net := by
  obtain ⟨s, htext, h⟩ := bind_eq_ok_iff.mp h
  refine ⟨s, Tree.eq_text_of_asText htext, ?_⟩
  cases hparse : parse? s with
  | none => simp [hparse, throw, throwThe, MonadExceptOf.throw] at h
  | some net' => simpa [hparse, pure, Except.pure] using h

namespace Plugin

/-! ## Addresses -/

namespace IpamAddress

variable {a : IpamAddress} {v : Json}

/-- Whether a value is an object with no keys but those of an address. -/
def IsPlain (v : Json) : Prop :=
  ∃ members, v = .object members ∧ ∀ m ∈ members, m.1 = "address" ∨ m.1 = "version"

theorem setsAlone_version : record.SetsAlone "version" Draft.version := by
  intro f hf hne t d d' hset
  simp only [record, List.mem_cons, List.not_mem_nil, or_false] at hf
  rcases hf with rfl | rfl
  · exact absurd rfl hne
  · exact Json.Decoded.eq_of_put hset fun _ ↦ rfl

theorem setsAlone_address : record.SetsAlone "address" Draft.address := by
  intro f hf hne t d d' hset
  simp only [record, List.mem_cons, List.not_mem_nil, or_false] at hf
  rcases hf with rfl | rfl
  · exact Json.Decoded.eq_of_put hset fun _ ↦ rfl
  · exact absurd rfl hne

theorem record_read_object {members : Members} {d : Draft} {net : Subnet}
    (h : record.read (.ofJson (.object members)) = .ok d) (hnet : d.address = some net) :
    ("version" ∈ members.map (·.1) ∧ ∀ w, ("version", w) ∈ members → w = .text d.version) ∧
      ("address" ∈ members.map (·.1) ∧ ∀ w, ("address", w) ∈ members →
        ∃ s, w = .text s ∧ Subnet.parse? s = some net) := by
  obtain ⟨l, hl, hfills⟩ := Json.Record.read_object_eq_ok h
  rw [Tree.ofMembers_eq] at hl
  obtain rfl := Tree.keyed_injective hl
  have hmem {k : String} {w : Json} (hw : (k, w) ∈ members) :
      (k, Tree.ofJson w) ∈ members.map fun p ↦ (p.1, Tree.ofJson p.2) :=
    List.mem_map.mpr ⟨(k, w), hw, rfl⟩
  have hrequired := hfills.required
  rw [List.map_map] at hrequired
  refine ⟨⟨hrequired _ List.mem_cons_self rfl, fun w hw ↦ ?_⟩,
    hrequired _ (List.mem_cons_of_mem _ List.mem_cons_self) rfl, fun w hw ↦ ?_⟩
  · obtain ⟨d₀, d₁, hset, hversion⟩ := hfills.exists_set setsAlone_version (hmem hw) rfl
    obtain ⟨s, hs, heq⟩ := bind_eq_ok_iff.mp hset
    cases heq
    rw [hversion]
    exact Tree.eq_text_of_asText hs
  · obtain ⟨d₀, d₁, hset, haddress⟩ := hfills.exists_set setsAlone_address (hmem hw) rfl
    obtain ⟨net', hread, heq⟩ := bind_eq_ok_iff.mp hset
    cases heq
    obtain rfl : net = net' := Option.some.inj (hnet.symm.trans haddress)
    exact Subnet.read_ofJson_eq_ok hread

theorem record_read_array {items : List Json} {d : Draft} {net : Subnet}
    (h : record.read (.ofJson (.array items)) = .ok d) (hnet : d.address = some net) :
    ∃ s, items = [.text d.version, .text s] ∧ Subnet.parse? s = some net := by
  obtain ⟨hlength, hfold⟩ := Json.Record.positional_eq_ok (by simp [record]) h
  rw [Tree.ofItems_eq, List.length_map] at hlength
  match items, hlength with
  | [v₁, v₂], _ =>
    obtain ⟨d₁, hversion, hfold⟩ := bind_eq_ok_iff.mp hfold
    obtain ⟨d₂, haddress, hfold⟩ := bind_eq_ok_iff.mp hfold
    obtain ⟨version, htext, heq⟩ := bind_eq_ok_iff.mp hversion
    cases heq
    obtain ⟨net', hread, heq⟩ := bind_eq_ok_iff.mp haddress
    cases heq
    cases hfold
    cases hnet
    obtain ⟨s, rfl, hs⟩ := Subnet.read_ofJson_eq_ok hread
    exact ⟨s, by rw [Tree.eq_text_of_asText htext], hs⟩

/-- What an address is read from: an object, of which the other keys do not count, or an array of a
version and a subnet. -/
theorem read_ofJson_eq_ok (h : read (.ofJson v) = .ok a) :
    (∃ members, v = .object members ∧
      ("version" ∈ members.map (·.1) ∧ ∀ w, ("version", w) ∈ members → w = .text a.version) ∧
      ("address" ∈ members.map (·.1) ∧ ∀ w, ("address", w) ∈ members →
        ∃ s, w = .text s ∧ Subnet.parse? s = some a.address)) ∨
      ∃ s, v = .array [.text a.version, .text s] ∧ Subnet.parse? s = some a.address := by
  obtain ⟨d, hrecord, hdraft⟩ := bind_eq_ok_iff.mp h
  obtain ⟨net, hnet, rfl⟩ : ∃ net, d.address = some net ∧ a = ⟨d.version, net⟩ := by
    cases hnet : d.address with
    | none =>
      rw [hnet] at hdraft
      exact absurd hdraft nofun
    | some net =>
      rw [hnet] at hdraft
      exact ⟨net, rfl, (Except.ok.inj hdraft).symm⟩
  cases v with
  | object members => exact .inl ⟨members, rfl, record_read_object hrecord hnet⟩
  | array items =>
    obtain ⟨s, rfl, hs⟩ := record_read_array hrecord hnet
    exact .inr ⟨s, rfl, hs⟩
  | _ => exact absurd hrecord nofun

theorem canonical_toJson (a : IpamAddress) : a.toJson.canonical =
    .object [("address", .text a.address.text), ("version", .text a.version)] := rfl

/-- An address is written as it was read if nothing was lost. -/
theorem canonical_toJson_iff (h : read (.ofJson v) = .ok a) (hnets : v.WritesSubnets) :
    a.toJson.canonical = v.canonical ↔ IsPlain v := by
  rw [canonical_toJson]
  rcases read_ofJson_eq_ok h with ⟨l, rfl, ⟨hversion, htext⟩, haddress, hnet⟩ | ⟨s, rfl, -⟩
  · have hget_version : Members.get? "version" (.ofList (Json.canonicalMembers l)) =
        some (.text a.version) :=
      Json.get?_canonicalMembers hversion fun w hw ↦ by rw [htext w hw, Json.canonical_text]
    have hget_address : Members.get? "address" (.ofList (Json.canonicalMembers l)) =
        some (.text a.address.text) := by
      refine Json.get?_canonicalMembers haddress fun w hw ↦ ?_
      obtain ⟨s, rfl, hs⟩ := hnet w hw
      rw [(hnets.member hw).text_eq hs, Json.canonical_text]
    have hkeys := Json.forall_mem_canonicalMembers (m := l)
      (P := fun k ↦ k = "address" ∨ k = "version")
    rw [Json.canonical, Json.object.injEq,
      Members.pair_eq_ofList_iff (by decide) hget_address hget_version, hkeys]
    refine ⟨fun hplain ↦ ⟨l, rfl, hplain⟩, ?_⟩
    rintro ⟨_, heq, hplain⟩
    cases heq
    exact hplain
  · rw [Json.canonical]
    exact ⟨nofun, fun ⟨_, heq, _⟩ ↦ absurd heq nofun⟩

end IpamAddress

/-! ## Sections -/

namespace Ipam

variable {i : Ipam} {m : Members}

/-- Whether a section is a list of addresses of which one is not written as an object with no keys
but those of an address. -/
def IsNarrowed (m : Members) : Prop :=
  ∃ items, m = [("ips", .array items)] ∧
    (∀ v ∈ items, ∃ a, IpamAddress.read (.ofJson v) = .ok a) ∧
    ∃ v ∈ items, ¬IpamAddress.IsPlain v

theorem map_canonical_iff {items : List Json} {ips : List IpamAddress}
    (h : List.Forall₂ (fun v a ↦ IpamAddress.read (.ofJson v) = .ok a) items ips)
    (hnets : ∀ v ∈ items, v.WritesSubnets) :
    (ips.map IpamAddress.toJson).map Json.canonical = items.map Json.canonical ↔
      ∀ v ∈ items, IpamAddress.IsPlain v := by
  induction h with
  | nil => exact ⟨fun _ ↦ List.forall_mem_nil _, fun _ ↦ rfl⟩
  | cons hread _ ih =>
    obtain ⟨hnet, hnets⟩ := List.forall_mem_cons.mp hnets
    rw [List.map_cons, List.map_cons, List.map_cons, List.cons.injEq, List.forall_mem_cons,
      IpamAddress.canonical_toJson_iff hread hnet, ih hnets]

/-- Sections of a kind that is not interpreted are kept. -/
theorem canonical_toJson_other (m : Members) :
    (other (Members.ofList (Json.canonicalMembers m))).toJson.canonical =
      (Json.object m).canonical := by
  rw [toJson, Json.canonical, Json.ofList_canonicalMembers_ofList, Json.canonical]

theorem canonical_toJson_fixed_iff {v : Json} {ips : List IpamAddress}
    (h : (Tree.ofJson v).asList IpamAddress.read = .ok ips) (hnets : v.WritesSubnets) :
    (fixed ips).toJson.canonical = (Json.object [("ips", v)]).canonical ↔
      ¬IsNarrowed [("ips", v)] := by
  obtain ⟨trees, closed, htrees, hmap⟩ := Tree.asList_eq_ok h
  cases v with
  | array items =>
    rw [Tree.ofJson, Tree.array.injEq, Tree.ofItems_eq] at htrees
    obtain ⟨rfl, rfl⟩ := htrees
    have hall := List.forall_mem_map.mp (Json.Decoded.exists_mapM_eq_ok_iff.mp ⟨_, hmap⟩)
    rw [Json.Decoded.mapM_eq_ok_iff, List.forall₂_map_left_iff] at hmap
    have hcanonical (l : List Json) : (Json.object [("ips", .array l)]).canonical =
        .object [("ips", .array (l.map Json.canonical))] := by
      rw [← Json.canonicalItems_eq]
      rfl
    rw [toJson, hcanonical, hcanonical]
    simp only [Json.object.injEq, Json.array.injEq, List.cons.injEq, Prod.mk.injEq, true_and,
      and_true, map_canonical_iff hmap fun v hv ↦ hnets.item hv]
    constructor
    · rintro hplain ⟨items', heq, -, v, hv, hnot⟩
      cases heq
      exact hnot (hplain v hv)
    · intro hkept v hv
      by_contra hnot
      exact hkept ⟨items, rfl, hall, v, hv, hnot⟩
  | _ => exact absurd htrees nofun

theorem not_isNarrowed_of_error {v : Json} {why : Json.Fault}
    (h : (Tree.ofJson v).asList IpamAddress.read = .error why) : ¬IsNarrowed [("ips", v)] := by
  rintro ⟨items, heq, hall, -⟩
  cases heq
  obtain ⟨ips, hips⟩ := Json.Decoded.exists_mapM_eq_ok_iff.mpr (List.forall_mem_map.mpr hall)
  rw [Tree.ofJson, Tree.ofItems_eq, Tree.asList, hips] at h
  cases h

/-- Every object is a section. It is written as it was read unless it is narrowed. -/
theorem exists_ofJson_object (hnets : (Json.object m).WritesSubnets) :
    ∃ i, ofJson (.object m) = .ok i ∧
      (i.toJson.canonical = (Json.object m).canonical ↔ ¬IsNarrowed m) := by
  unfold ofJson
  dsimp only
  split
  next v =>
    have hno : ¬IsNarrowed [("subnet", v)] := by
      rintro ⟨items, heq, -⟩
      simp at heq
    split
    next net hread =>
      obtain ⟨s, rfl, hs⟩ := Subnet.read_ofJson_eq_ok hread
      refine ⟨_, rfl, iff_of_true ?_ hno⟩
      rw [toJson, Subnet.toJson, (hnets.member List.mem_cons_self).text_eq hs]
    next => exact ⟨_, rfl, iff_of_true (canonical_toJson_other _) hno⟩
  next v =>
    split
    next ips hread =>
      exact ⟨_, rfl, canonical_toJson_fixed_iff hread (hnets.member List.mem_cons_self)⟩
    next why hread =>
      exact ⟨_, rfl, iff_of_true (canonical_toJson_other _) (not_isNarrowed_of_error hread)⟩
  next hsubnet hips =>
    refine ⟨_, rfl, iff_of_true (canonical_toJson_other _) ?_⟩
    rintro ⟨items, rfl, -⟩
    exact hips _ rfl

theorem asOption_read {u : Tree} (hu : u.value = .ok (.object m)) (h : ofJson (.object m) = .ok i) :
    u.asOption read = .ok (some i) := by
  have hread : read u = .ok i := bind_eq_ok_iff.mpr ⟨_, hu, h⟩
  cases u with
  | null => exact absurd hu nofun
  | _ => exact congrArg (some <$> ·) hread

end Ipam

/-! ## Entries -/

namespace Entry

variable {e : Entry} {t u : Tree}

theorem setsAlone_ipam : record.SetsAlone "ipam" Entry.ipam := by
  intro f hf hne t e e' hset
  simp only [record, List.mem_cons, List.not_mem_nil, or_false] at hf
  rcases hf with rfl | rfl | rfl | rfl
  · exact Json.Decoded.eq_of_put hset fun _ ↦ rfl
  · exact Json.Decoded.eq_of_put hset fun _ ↦ rfl
  · exact absurd rfl hne
  · exact Json.Decoded.eq_of_put hset fun _ ↦ rfl

/-- An entry has the section that its object has, and no second one among the keys that are not
interpreted. -/
theorem read_eq_ok (h : read t = .ok e) :
    (∀ u, t.member? "ipam" = some u → u.asOption Ipam.read = .ok e.ipam) ∧
      ∀ v, ("ipam", v) ∉ e.extra := by
  obtain ⟨⟨e', rest⟩, hopen, heq⟩ := bind_eq_ok_iff.mp h
  cases heq
  obtain ⟨l, closed, rfl, hfills, hrest⟩ := Json.Record.readOpen_eq_ok hopen
  constructor
  · intro u hu
    obtain ⟨e₀, e₁, hset, hipam⟩ :=
      hfills.exists_set setsAlone_ipam (Tree.mem_of_member? hu) rfl
    obtain ⟨o, ho, heq⟩ := bind_eq_ok_iff.mp hset
    cases heq
    rw [hipam]
    exact ho
  · intro v hv
    have hhas : record.has "ipam" = true := rfl
    have hno := (Json.forall_mem_canonicalMembers (P := (record.has · = false))).mpr
      (fun m hm ↦ (hrest m hm).1) _ (Members.mem_of_mem_ofList hv)
    rw [hhas] at hno
    exact absurd hno nofun

end Entry

/-! ## Documents for plugins -/

namespace ConfigList

variable {l : ConfigList} {e : Entry} {i : Ipam}

theorem exists_document (hextra : ∀ v, ("ipam", v) ∉ e.extra) (hi : e.ipam = some i)
    (previous : Option Json) (rt : Runtime) :
    ∃ doc, l.document e previous rt = .object doc ∧
      Members.get? "ipam" doc = some i.toJson.canonical := by
  let members := Json.optional "name" .text e.name ++ [("type", .text e.pluginType)] ++
    Json.optional "ipam" Ipam.toJson e.ipam ++ Json.optional "hairpinMode" .bool e.hairpinMode ++
    e.extra
  have hmem (v : Json) : ("ipam", v) ∈ members ↔ v = i.toJson := by
    simp [members, Json.mem_optional_iff, hi, hextra v]
  have hentry : Members.get? "ipam" (.ofList (Json.canonicalMembers members)) =
      some i.toJson.canonical :=
    Json.get?_canonicalMembers (List.mem_map_of_mem ((hmem _).mpr rfl)) fun w hw ↦
      congrArg Json.canonical ((hmem w).mp hw)
  -- everything that is put in has another name
  have hput {k : String} (hk : k ≠ "ipam") (v : Json) {m : Members}
      (h : Members.get? "ipam" m = some i.toJson.canonical) :
      Members.get? "ipam" (m.insert k v) = some i.toJson.canonical := by
    rw [Members.get?_insert_of_ne hk, h]
  have hnamed := hput (k := "cniVersion") (by decide) (.text l.cniVersion)
    (hput (k := "name") (by decide) (.text l.name) hentry)
  refine ⟨_, rfl, ?_⟩
  cases previous with
  | none =>
    split
    · exact hnamed
    · exact hput (by decide) _ hnamed
  | some v =>
    split
    · exact hput (by decide) v hnamed
    · exact hput (by decide) _ (hput (by decide) v hnamed)

/-- What the entries of a list are read from. A list may be written as an array as well. -/
def entryTrees : Tree → List Tree
  | .object members closed =>
    match (Tree.object members closed).member? "plugins" with
    | some (.array items _) => items
    | _ => []
  | .array [_, _, .array items _] _ => items
  | _ => []

theorem setsAlone_plugins : record.SetsAlone "plugins" ConfigList.plugins := by
  intro f hf hne t l l' hset
  simp only [record, List.mem_cons, List.not_mem_nil, or_false] at hf
  rcases hf with rfl | rfl | rfl
  · exact Json.Decoded.eq_of_put hset fun _ ↦ rfl
  · exact Json.Decoded.eq_of_put hset fun _ ↦ rfl
  · exact absurd rfl hne

theorem read_eq_ok {t : Tree} (h : read t = .ok l) :
    (entryTrees t).mapM Entry.read = .ok l.plugins := by
  cases t with
  | object members closed =>
    obtain ⟨l', rfl, hfills⟩ := Json.Record.read_object_eq_ok h
    obtain ⟨u, hu⟩ := Tree.exists_member? (hfills.required _
      (List.mem_cons_of_mem _ (List.mem_cons_of_mem _ List.mem_cons_self)) rfl) closed
    obtain ⟨l₀, l₁, hset, hplugins⟩ :=
      hfills.exists_set setsAlone_plugins (Tree.mem_of_member? hu) rfl
    obtain ⟨entries, hentries, heq⟩ := bind_eq_ok_iff.mp hset
    cases heq
    obtain ⟨items, closed', rfl, hmap⟩ := Tree.asList_eq_ok hentries
    rw [entryTrees, hu, hplugins]
    exact hmap
  | array items closed =>
    obtain ⟨hlength, hfold⟩ := Json.Record.positional_eq_ok (by simp [record]) h
    match items, hlength with
    | [t₁, t₂, t₃], _ =>
      obtain ⟨l₁, -, hfold⟩ := bind_eq_ok_iff.mp hfold
      obtain ⟨l₂, -, hfold⟩ := bind_eq_ok_iff.mp hfold
      obtain ⟨l₃, hset, hfold⟩ := bind_eq_ok_iff.mp hfold
      obtain ⟨entries, hentries, heq⟩ := bind_eq_ok_iff.mp hset
      cases heq
      cases hfold
      obtain ⟨items, closed', rfl, hmap⟩ := Tree.asList_eq_ok hentries
      exact hmap
  | _ => exact absurd h nofun

/-- A list is accepted if it is read from the document, nothing follows it there and it names a
plugin. -/
theorem ofDocument_eq_ok_iff {d : Json.Document} :
    ofDocument d = .ok l ↔ read d.tree = .ok l ∧ d.complete = true ∧ l.plugins ≠ [] := by
  rw [ofDocument, Json.Document.decode]
  cases read d.tree with
  | error why => exact ⟨nofun, fun h ↦ absurd h.1 nofun⟩
  | ok l' =>
    cases d.complete with
    | false => exact ⟨nofun, fun h ↦ absurd h.2.1 nofun⟩
    | true =>
      change (if l'.plugins.isEmpty then throw (.config (.noPlugins l'.name)) else pure l') =
        (.ok l : Outcome ConfigList) ↔ _
      constructor
      · intro h
        split at h
        next => exact absurd h nofun
        next hplugins =>
          cases h
          exact ⟨rfl, rfl, fun hnil ↦ hplugins (List.isEmpty_iff.mpr hnil)⟩
      · rintro ⟨heq, -, hplugins⟩
        cases heq
        rw [if_neg (mt List.isEmpty_iff.mp hplugins)]
        rfl

theorem read_of_ofDocument {d : Json.Document} (h : ofDocument d = .ok l) :
    read d.tree = .ok l := (ofDocument_eq_ok_iff.mp h).1

/-- **When a section is handed on as it was read.** A list is accepted, and a plugin of it has an
object as its section, in which subnets are written as this library writes them. Then there is a
document for the plugin, whatever came before it and whatever it is run for. Its section is the
object in canonical form, unless the object is a list of addresses of which one has further keys or
is an array. -/
theorem stdin_ipam_iff {d : Json.Document} {l : ConfigList} {k : Nat} {t u : Tree} {m : Members}
    (h : ofDocument d = .ok l) (ht : (entryTrees d.tree)[k]? = some t)
    (hu : t.member? "ipam" = some u) (hm : u.value = .ok (.object m))
    (hnets : (Json.object m).WritesSubnets) (previous : Option Json) (rt : Runtime) :
    (entryTrees d.tree).length = l.plugins.length ∧
      ∃ doc, l.stdin k previous rt = .ok (.object doc) ∧
        (Members.get? "ipam" doc = some (Json.object m).canonical ↔ ¬Ipam.IsNarrowed m) := by
  have hentries := Json.Decoded.mapM_eq_ok_iff.mp (read_eq_ok (read_of_ofDocument h))
  refine ⟨hentries.length_eq, ?_⟩
  obtain ⟨hlt, rfl⟩ := List.getElem?_eq_some_iff.mp ht
  have hlt' : k < l.plugins.length := hentries.length_eq ▸ hlt
  have hread : Entry.read (entryTrees d.tree)[k] = .ok l.plugins[k] := hentries.get hlt hlt'
  obtain ⟨hipam, hextra⟩ := Entry.read_eq_ok hread
  obtain ⟨i, hi, hkept⟩ := Ipam.exists_ofJson_object hnets
  have hsection : l.plugins[k].ipam = some i :=
    Except.ok.inj ((hipam u hu).symm.trans (Ipam.asOption_read hm hi))
  obtain ⟨doc, hdoc, hget⟩ := exists_document (l := l) hextra hsection previous rt
  refine ⟨doc, ?_, ?_⟩
  · rw [stdin, List.getElem?_eq_getElem hlt']
    exact congrArg _ hdoc
  · rw [hget, Option.some.injEq, hkept]

/-- A list of a bridge that has a section. -/
def bridgeDocument (ipam : Json) : Json.Document where
  tree := .ofJson (.object [("cniVersion", .text "0.4.0"), ("name", .text "data"),
    ("plugins", .array [.object [("type", .text "bridge"), ("ipam", ipam)]])])
  complete := true

/-- A section that names another plugin is handed on as it was read. -/
theorem stdin_ipam_of_other_plugin :
    let block : Members := [("type", .text "host-local"), ("subnet", .text "10.1.0.0/16"),
      ("routes", .array [.object [("dst", .text "0.0.0.0/0")]])]
    let rt : Runtime := { containerId := "abc", netns := "/proc/1/ns/net", interface := "eth1" }
    ∃ l doc, ofDocument (bridgeDocument (.object block)) = .ok l ∧
      l.stdin 0 none rt = .ok (.object doc) ∧
      Members.get? "ipam" doc = some (Json.object block).canonical := by
  intro block rt
  have haccepted : ofDocument (bridgeDocument (.object block)) = .ok _ := rfl
  have hnarrow : ¬Ipam.IsNarrowed block := by
    rintro ⟨items, heq, -⟩
    simp [block] at heq
  obtain ⟨-, doc, hdoc, hget⟩ := stdin_ipam_iff (k := 0) haccepted rfl rfl
    (Tree.value_ofJson (.object block)) (by decide +kernel) none rt
  exact ⟨_, doc, haccepted, hdoc, hget.mpr hnarrow⟩

/-- The gateway of an address is lost. -/
theorem stdin_ipam_loses_gateway :
    let block : Members := [("ips", .array [.object [("version", .text "4"),
      ("address", .text "16.0.1.5/16"), ("gateway", .text "16.0.0.1")]])]
    let rt : Runtime := { containerId := "abc", netns := "/proc/1/ns/net", interface := "eth1" }
    (Json.object block).WritesSubnets ∧
      ∃ l doc, ofDocument (bridgeDocument (.object block)) = .ok l ∧
        l.stdin 0 none rt = .ok (.object doc) ∧
        Members.get? "ipam" doc ≠ some (Json.object block).canonical := by
  intro block rt
  refine ⟨by decide +kernel, _, _, rfl, rfl, fun heq ↦ ?_⟩
  exact absurd (congrArg (Option.map Json.render) heq) (by decide +kernel)

end ConfigList

end Plugin

end ContainerNet
