import ContainerNet.Plugin.ConfigList
import ContainerNet.Proofs.Json.Canonical

/-!
# What a plugin reads

The document for a plugin is the object of its entry with up to four members put in: the name and
the version of the list, the result of the plugin before it, and the arguments for its capabilities.
An entry may have members with these keys already, and it may hold anything under `capabilities`.
`ConfigList.stdin_document` says what stands under every key of the document.

The arguments are those of the run that the entry asks for: `IsArguments` says of a map that it
holds what was given for the capabilities that are declared as true, and nothing else. They are put
in only if there are any, so an entry that has a member `runtimeConfig` of its own keeps it then.
-/

namespace ContainerNet

open Json (Members)

namespace Json.Members

variable {k : String} {v : Json} {m : Members}

theorem get?_ofList_eq_some_iff (hsame : ∀ v w, (k, v) ∈ m → (k, w) ∈ m → v = w) :
    get? k (ofList m) = some v ↔ (k, v) ∈ m := by
  constructor
  · intro h
    exact mem_of_mem_ofList ((isSorted_ofList m).get?_eq_some_iff.mp h)
  · intro h
    exact get?_ofList_of_mem h fun w hw ↦ hsame w v hw h

/-- Puts a member into a map if there is a value for it. -/
def insert? (k : String) (o : Option Json) (m : Members) : Members :=
  match o with
  | some v => insert k v m
  | none => m

theorem get?_insert? (k l : String) (o : Option Json) (m : Members) :
    get? l (insert? k o m) = if k = l then o.or (get? l m) else get? l m := by
  cases o with
  | none => rw [insert?, Option.none_or, ite_self]
  | some v => rw [insert?, get?_insert, Option.some_or]

theorem IsSorted.insert? (h : IsSorted m) (k : String) (o : Option Json) :
    IsSorted (Members.insert? k o m) := by
  cases o with
  | none => exact h
  | some v => exact h.insert k v

end Json.Members

namespace Plugin

/-! ## Capabilities -/

namespace Entry

/-- Whether an entry declares a capability: its object of capabilities has it as true. -/
def Declares (e : Entry) (name : String) : Prop :=
  ∃ members : Members, Members.get? "capabilities" e.extra = some (.object members) ∧
    (name, Json.bool true) ∈ members

variable {e : Entry} {name : String}

theorem mem_capabilities_iff : name ∈ e.capabilities ↔ e.Declares name := by
  rw [capabilities, Declares]
  split
  next members hmembers =>
    rw [List.mem_filterMap]
    constructor
    · rintro ⟨⟨k, v⟩, hkv, heq⟩
      split at heq
      next k' hk' =>
        obtain rfl : k' = name := Option.some.inj heq
        exact ⟨members, hmembers, hk' ▸ hkv⟩
      next => exact absurd heq nofun
    · rintro ⟨members', heq, hname⟩
      rw [hmembers, Option.some.injEq, Json.object.injEq] at heq
      exact ⟨(name, .bool true), heq ▸ hname, rfl⟩
  next hno =>
    constructor
    · exact fun hname ↦ absurd hname List.not_mem_nil
    · rintro ⟨members, hmembers, -⟩
      exact absurd hmembers (hno members)

end Entry

/-! ## Arguments -/

/-- Whether a map holds the arguments of a run for the capabilities that an entry declares. -/
structure IsArguments (e : Entry) (rt : Runtime) (config : Members) : Prop where
  isSorted : config.IsSorted
  get?_iff : ∀ (name : String) (v : Json), config.get? name = some v ↔
    e.Declares name ∧ rt.capabilityArgs.get? name = some v

namespace ConfigList

variable {l : ConfigList} {e : Entry} {previous : Option Json} {rt rt' : Runtime}

theorem isArguments_runtimeConfig (e : Entry) (rt : Runtime) :
    IsArguments e rt (runtimeConfig e rt) where
  isSorted := Members.isSorted_ofList _
  get?_iff name v := by
    have hmem (w : Json) : (name, w) ∈ e.capabilities.filterMap (fun name ↦
        (rt.capabilityArgs.get? name).map fun v ↦ (name, v)) ↔
          e.Declares name ∧ rt.capabilityArgs.get? name = some w := by
      rw [← Entry.mem_capabilities_iff, List.mem_filterMap]
      constructor
      · rintro ⟨k, hk, hw⟩
        obtain ⟨v, hv, heq⟩ := Option.map_eq_some_iff.mp hw
        obtain ⟨rfl, rfl⟩ := Prod.mk.inj heq
        exact ⟨hk, hv⟩
      · rintro ⟨hname, hw⟩
        exact ⟨name, hname, by rw [hw]; rfl⟩
    rw [runtimeConfig, Members.get?_ofList_eq_some_iff, hmem]
    intro v w hv hw
    exact Option.some.inj (((hmem v).mp hv).2.symm.trans ((hmem w).mp hw).2)

/-- Arguments for capabilities that are not declared do not count. -/
theorem runtimeConfig_congr
    (h : ∀ name, e.Declares name → rt'.capabilityArgs.get? name = rt.capabilityArgs.get? name) :
    runtimeConfig e rt' = runtimeConfig e rt := by
  have hargs := isArguments_runtimeConfig e rt
  have hargs' := isArguments_runtimeConfig e rt'
  refine hargs'.isSorted.ext hargs.isSorted fun name ↦ Option.ext fun v ↦ ?_
  rw [hargs'.get?_iff, hargs.get?_iff]
  constructor
  · rintro ⟨hname, hv⟩
    exact ⟨hname, by rwa [← h name hname]⟩
  · rintro ⟨hname, hv⟩
    exact ⟨hname, by rwa [h name hname]⟩

/-! ## Documents -/

/-- Whether a map is the object of an entry with what a run needs put in, and nothing else
changed. -/
structure IsDocument (l : ConfigList) (previous : Option Json) (entry config doc : Members) :
    Prop where
  isSorted : doc.IsSorted
  name : doc.get? "name" = some (.text l.name)
  cniVersion : doc.get? "cniVersion" = some (.text l.cniVersion)
  prevResult : doc.get? "prevResult" = previous.or (entry.get? "prevResult")
  runtimeConfig : doc.get? "runtimeConfig" =
    if config = [] then entry.get? "runtimeConfig" else some (.object config)
  other : ∀ key ∉ ["name", "cniVersion", "prevResult", "runtimeConfig"],
    doc.get? key = entry.get? key

/-- The document of an entry, member by member. -/
theorem document_eq {entry : Members} (h : e.toJson.canonical = .object entry) :
    l.document e previous rt = .object
      (((((entry.insert "name" (.text l.name)).insert "cniVersion" (.text l.cniVersion)).insert?
        "prevResult" previous)).insert? "runtimeConfig"
          (if runtimeConfig e rt = [] then none else some (.object (runtimeConfig e rt)))) := by
  unfold document
  rw [h]
  by_cases hnone : runtimeConfig e rt = []
  · simp only [hnone, List.isEmpty_nil, if_true]
    cases previous <;> rfl
  · simp only [hnone, List.isEmpty_iff, if_false]
    cases previous <;> rfl

theorem exists_isDocument (l : ConfigList) {entry : Members}
    (h : e.toJson.canonical = .object entry) (hsorted : entry.IsSorted) (previous : Option Json)
    (rt : Runtime) :
    ∃ doc, l.document e previous rt = .object doc ∧
      IsDocument l previous entry (runtimeConfig e rt) doc := by
  refine ⟨_, document_eq h, ?_⟩
  constructor
  case isSorted => exact (((hsorted.insert _ _).insert _ _).insert? _ _).insert? _ _
  case name => simp [Members.get?_insert?, Members.get?_insert]
  case cniVersion => simp [Members.get?_insert?, Members.get?_insert]
  case prevResult => simp [Members.get?_insert?, Members.get?_insert]
  case runtimeConfig =>
    by_cases hnone : runtimeConfig e rt = []
    · simp [Members.get?_insert?, Members.get?_insert, hnone]
    · simp [Members.get?_insert?, hnone]
  case other =>
    intro key hkey
    simp only [List.mem_cons, List.not_mem_nil, or_false, not_or] at hkey
    obtain ⟨hname, hversion, hresult, hconfig⟩ := hkey
    simp [Members.get?_insert?, Members.get?_insert, Ne.symm hname, Ne.symm hversion,
      Ne.symm hresult, Ne.symm hconfig]

/-- Of the run a plugin is told nothing but its arguments. -/
theorem document_congr (l : ConfigList) (previous : Option Json)
    (h : runtimeConfig e rt' = runtimeConfig e rt) :
    l.document e previous rt' = l.document e previous rt := by
  unfold document
  rw [h]

/-- **What a plugin reads.** There is a document for every place of the list and for no other. It
is the object of the entry there with the name and the version of the list, the result of the plugin
before it if there is one, and the arguments for the capabilities of the entry if there are any; all
else is as it is in the entry. So arguments for other capabilities make no difference. -/
theorem stdin_document (l : ConfigList) (k : Nat) (previous : Option Json) (rt : Runtime) :
    ((∃ why, l.stdin k previous rt = .error why) ↔ ¬k < l.plugins.length) ∧
      ∀ e, l.plugins[k]? = some e → ∃ entry config doc,
        e.toJson.canonical = .object entry ∧ IsArguments e rt config ∧
        l.stdin k previous rt = .ok (.object doc) ∧ IsDocument l previous entry config doc ∧
        ∀ rt' : Runtime, (∀ name, e.Declares name →
            rt'.capabilityArgs.get? name = rt.capabilityArgs.get? name) →
          l.stdin k previous rt' = l.stdin k previous rt := by
  constructor
  · constructor
    · rintro ⟨why, hwhy⟩ hlt
      rw [stdin, List.getElem?_eq_getElem hlt] at hwhy
      exact absurd hwhy nofun
    · intro hge
      rw [stdin, List.getElem?_eq_none (Nat.le_of_not_lt hge)]
      exact ⟨_, rfl⟩
  · intro e he
    have hstdin (rt : Runtime) : l.stdin k previous rt = .ok (l.document e previous rt) := by
      rw [stdin, he]
    obtain ⟨doc, hdoc, hspec⟩ :=
      exists_isDocument (e := e) l rfl (Members.isSorted_ofList _) previous rt
    refine ⟨_, _, doc, rfl, isArguments_runtimeConfig e rt, ?_, hspec, ?_⟩
    · rw [hstdin, hdoc]
    · intro rt' hsame
      rw [hstdin, hstdin, document_congr l previous (runtimeConfig_congr hsame)]

/-- A plugin behind another one, with a result and a configuration of its own in its entry. Both
are replaced; the argument for a capability that it declares as false is left out, and so are those
that it does not declare. -/
theorem stdin_document_of_limiter :
    let e : Entry := {
      name := some "limits", pluginType := "bandwidth", ipam := none, hairpinMode := none
      extra := [
        ("capabilities", .object [("bandwidth", .bool true), ("portMappings", .bool false)]),
        ("prevResult", .null), ("runtimeConfig", .bool true)] }
    let bridge : Entry := ⟨none, "bridge", none, none, []⟩
    let l : ConfigList := ⟨"0.4.0", "data", [bridge, e]⟩
    let rt : Runtime := {
      containerId := "abc", netns := "/proc/1/ns/net", interface := "eth1"
      capabilityArgs := [("bandwidth", .nat 1000), ("portMappings", .array [])] }
    let rt' : Runtime := { rt with capabilityArgs := ("aliases", .array []) :: rt.capabilityArgs }
    l.plugins[1]? = some e ∧ ∃ config doc : Members,
      l.stdin 1 (some (.array [])) rt = .ok (.object doc) ∧
      doc.get? "name" = some (.text "data") ∧ doc.get? "prevResult" = some (.array []) ∧
      doc.get? "type" = some (.text "bandwidth") ∧
      doc.get? "runtimeConfig" = some (.object config) ∧
      config.get? "bandwidth" = some (.nat 1000) ∧ config.get? "portMappings" = none ∧
      l.stdin 1 (some (.array [])) rt' = l.stdin 1 (some (.array [])) rt := by
  intro e bridge l rt rt'
  have hdeclares (name : String) : e.Declares name ↔ name = "bandwidth" := by
    constructor
    · rintro ⟨members, heq, hmem⟩
      cases heq
      simpa using hmem
    · rintro rfl
      exact ⟨_, rfl, List.mem_cons_self⟩
  obtain ⟨entry, config, doc, hentry, hargs, hdoc, hspec, hsame⟩ :=
    (stdin_document l 1 (some (.array [])) rt).2 e rfl
  have hbandwidth : config.get? "bandwidth" = some (.nat 1000) :=
    (hargs.get?_iff _ _).mpr ⟨(hdeclares _).mpr rfl, rfl⟩
  have hports : config.get? "portMappings" = none := by
    refine Option.eq_none_iff_forall_ne_some.mpr fun v hv ↦ ?_
    have hname := (hdeclares _).mp ((hargs.get?_iff _ _).mp hv).1
    exact absurd hname (by decide)
  have hnone : config ≠ [] := by
    rintro rfl
    exact absurd hbandwidth nofun
  refine ⟨rfl, config, doc, hdoc, hspec.name, hspec.prevResult, ?_, ?_, hbandwidth, hports, ?_⟩
  · rw [hspec.other "type" (by decide)]
    cases hentry
    rfl
  · rw [hspec.runtimeConfig, if_neg hnone]
  · refine hsame rt' fun name hname ↦ ?_
    rw [(hdeclares name).mp hname]
    rfl

end ConfigList

end Plugin

end ContainerNet
