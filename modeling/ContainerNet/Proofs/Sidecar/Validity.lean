import ContainerNet.Proofs.Json.Fields
import ContainerNet.Sidecar.Run
import Mathlib.Tactic.SplitIfs

/-!
# Which settings a sidecar starts with

Settings come from a file that was asked for, from the usual file, or from neither, and then they
are the usual settings. On all three ways they are valid: a text is checked when it has been read,
and the usual settings are what the check asks for.

The name of the network can be given again on the command line or in the environment, and that name
is put in after the check. So it is the only thing that can be wrong with settings that were loaded,
and it is wrong exactly if it was given and is empty (`Options.loadConfig_isValid_iff`).
-/

namespace ContainerNet.Sidecar

namespace Config

variable {files : FileAccess} {path text : String} {c : Config}

/-- What the sidecar relies on: the managed network has a name, the kernel accepts the name of the
interface, and a configuration can wait. -/
structure IsValid (c : Config) : Prop where
  name : c.network.name ≠ ""
  interface : 1 ≤ c.network.interface.utf8ByteSize ∧ c.network.interface.utf8ByteSize ≤ 15
  queue : 1 ≤ c.queueDepth

/-- The settings with another name for the network. -/
def named (c : Config) (name : String) : Config := { c with network := { c.network with name } }

theorem IsValid.named (h : c.IsValid) {name : String} (hname : name ≠ "") :
    (c.named name).IsValid :=
  ⟨hname, h.interface, h.queue⟩

theorem validate_eq_ok_iff : c.validate = .ok () ↔ c.IsValid := by
  have hsize : c.network.interface.utf8ByteSize = 0 ↔ c.network.interface = "" :=
    String.utf8ByteSize_eq_zero_iff
  rw [validate, maxInterface]
  split_ifs with hname hinterface hqueue
  · rw [String.isEmpty_iff] at hname
    exact iff_of_false nofun fun h ↦ h.name hname
  · rw [Bool.or_eq_true, String.isEmpty_iff, decide_eq_true_eq] at hinterface
    refine iff_of_false nofun fun h ↦ ?_
    have hbounds := h.interface
    rcases hinterface with hempty | hlong
    · have := hsize.mpr hempty
      omega
    · omega
  · exact iff_of_false nofun fun h ↦ absurd h.queue (by omega)
  · rw [String.isEmpty_iff] at hname
    rw [Bool.or_eq_true, not_or, String.isEmpty_iff, decide_eq_true_eq, ← hsize] at hinterface
    exact iff_of_true rfl ⟨hname, by omega, by omega⟩

/-! ## The ways to settings -/

theorem isValid_usual : ({} : Config).IsValid := validate_eq_ok_iff.mp (by decide +kernel)

theorem ofToml_eq_ok_iff : ofToml text = .ok c ↔
    ∃ v, Toml.parse? text = some v ∧ record.read v.tree = .ok c ∧ c.validate = .ok () := by
  rw [ofToml]
  cases Toml.parse? text with
  | none => exact iff_of_false nofun fun ⟨_, hnone, _⟩ ↦ Option.some_ne_none _ hnone.symm
  | some v =>
    simp only [Option.some.injEq, exists_eq_left', bind, Except.bind, pure, Except.pure]
    cases record.read v.tree with
    | error e => exact iff_of_false nofun fun ⟨herror, _⟩ ↦ nomatch herror
    | ok c' =>
      simp only [Except.mapError, Except.ok.injEq]
      cases hcheck : c'.validate with
      | error e =>
        refine iff_of_false nofun ?_
        rintro ⟨rfl, hvalid⟩
        exact nomatch hcheck.symm.trans hvalid
      | ok u =>
        constructor
        · intro h
          cases h
          exact ⟨rfl, hcheck⟩
        · exact fun h ↦ congrArg _ h.1

theorem isValid_of_load (h : load files path = .ok c) : c.IsValid := by
  rw [load] at h
  split at h
  next => exact absurd h nofun
  next =>
    obtain ⟨v, -, -, hvalid⟩ := ofToml_eq_ok_iff.mp h
    exact validate_eq_ok_iff.mp hvalid

theorem isValid_of_loadOrDefault (h : loadOrDefault files path = .ok c) : c.IsValid := by
  rw [loadOrDefault] at h
  split at h
  next => exact isValid_of_load h
  next =>
    cases h
    exact isValid_usual

end Config

namespace Options

variable {o : Options} {files : FileAccess} {usual : String} {c : Config}

theorem isValid_of_readConfig (h : o.readConfig files usual = .ok c) : c.IsValid := by
  rw [readConfig] at h
  split at h
  next => exact Config.isValid_of_load (Json.mapError_eq_ok_iff.mp h)
  next => exact Config.isValid_of_loadOrDefault (Json.mapError_eq_ok_iff.mp h)

/-- Settings are loaded if they are read, whatever name the options put in. -/
theorem loadConfig_eq_ok_iff : o.loadConfig files usual = .ok c ↔
    ∃ c', o.readConfig files usual = .ok c' ∧ c = o.dataNetwork.elim c' c'.named := by
  rw [loadConfig]
  cases o.readConfig files usual with
  | error e => exact iff_of_false nofun fun ⟨_, herror, _⟩ ↦ nomatch herror
  | ok c' =>
    simp only [bind, Except.bind, Except.ok.injEq, exists_eq_left']
    cases o.dataNetwork with
    | none => exact ⟨fun h ↦ (Except.ok.inj h).symm, fun h ↦ congrArg _ h.symm⟩
    | some name => exact ⟨fun h ↦ (Except.ok.inj h).symm, fun h ↦ congrArg _ h.symm⟩

/-- **Settings that were loaded are valid unless an empty name was given.** They are valid exactly
if the options do not put an empty name in, and then with any other name, too. -/
theorem loadConfig_isValid_iff (h : o.loadConfig files usual = .ok c) :
    (c.IsValid ↔ o.dataNetwork ≠ some "") ∧ ∀ name ≠ "", (c.named name).IsValid := by
  obtain ⟨c', hread, rfl⟩ := loadConfig_eq_ok_iff.mp h
  have hvalid := isValid_of_readConfig hread
  cases hname : o.dataNetwork with
  | none => exact ⟨iff_of_true hvalid (Option.some_ne_none "").symm, fun _ ↦ hvalid.named⟩
  | some given =>
    have hgiven : given ≠ "" ↔ some given ≠ some "" := not_congr (Option.some_inj).symm
    exact ⟨⟨fun h ↦ hgiven.mp h.name, fun h ↦ hvalid.named (hgiven.mpr h)⟩, fun _ ↦ hvalid.named⟩

/-- A file with a name of fifteen bytes for the interface and with a queue for one. -/
def boundsFile : FileAccess where
  find _ := .ok ()
  bytes _ := .ok "queue_depth = 1\ninterface_name = \"éth01234567890\"".toUTF8.data.toList

/-- Settings at the bounds of what is valid, under another name. -/
theorem loadConfig_isValid_at_bounds : ∃ c,
    loadConfig { config := some "sidecar.toml", dataNetwork := some "lan" } boundsFile "" = .ok c ∧
      c.network.interface.utf8ByteSize = 15 ∧ c.queueDepth = 1 ∧
      c.IsValid ∧ ∀ name ≠ "", (c.named name).IsValid := by
  have hload : ((loadConfig { config := some "sidecar.toml", dataNetwork := some "lan" } boundsFile
      "").toOption.any fun c ↦
        c.network.interface.utf8ByteSize = 15 && c.queueDepth = 1) = true := by
    decide +kernel
  have hok {x : Except RunFault Config} {c : Config} (h : x.toOption = some c) : x = .ok c := by
    cases x with
    | error e => exact nomatch h
    | ok c' => exact congrArg _ (Option.some.inj h)
  obtain ⟨c, hc, hbounds⟩ := (Option.any_eq_true _ _).mp hload
  rw [Bool.and_eq_true, decide_eq_true_eq, decide_eq_true_eq] at hbounds
  obtain ⟨hvalid, hnamed⟩ := loadConfig_isValid_iff (hok hc)
  exact ⟨c, hok hc, hbounds.1, hbounds.2, hvalid.mpr (by decide), hnamed⟩

/-- An empty name on the command line is put into the usual settings, and they are not valid. -/
theorem loadConfig_empty_name : ∃ o c, parse ["--data-network", ""] = .ok o ∧
    loadConfig o ⟨fun _ ↦ .error .notFound, fun _ ↦ .error .notFound⟩ usualSettings = .ok c ∧
    ¬c.IsValid := by
  have hparse : parse ["--data-network", ""] = .ok { dataNetwork := some "" } := by decide +kernel
  have hread : readConfig { dataNetwork := some "" }
      ⟨fun _ ↦ .error .notFound, fun _ ↦ .error .notFound⟩ usualSettings = .ok {} := rfl
  exact ⟨_, _, hparse, loadConfig_eq_ok_iff.mpr ⟨{}, hread, rfl⟩, fun h ↦ h.name rfl⟩

end Options

end ContainerNet.Sidecar
