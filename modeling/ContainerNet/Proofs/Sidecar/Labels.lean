import ContainerNet.Proofs.Sidecar.Order

/-!
# Which configuration a report is on

Whoever sends configurations tells the reports apart by the container, the network and the label
that they carry. `Staff.Run.identifies_iff` pairs the reports of every run of a staff with the
configurations and determines which of them carry all three.

## The pairs

A worker reports on a configuration before it takes the next one, so the reports of workers belong
to the accepted configurations in order. A report on a configuration that was turned away has a task
of its own, and these come in any order; but each is made from its configuration alone
(`Crew.Shifts.rejections`). The container and the network are right on every path. The label is
missing on one: when the namespace could not be opened (`Report.Answers.identifies_iff_label`).
-/

namespace ContainerNet.Sidecar

variable {t : Terms} {id : ContainerId}

/-! ## What a report carries -/

/-- The report carries the container, the network and the label of a configuration. -/
structure Report.Identifies (r : Report) (id : ContainerId) (config : NetworkConfig) : Prop where
  container_eq : r.container = id
  network_eq : r.network = some config.network
  label_eq : r.callbackState = config.callbackState

/-- Whether the report is of a configuration for a namespace that could not be opened. -/
def Report.isRefusal (r : Report) : Bool :=
  match r.result with
  | .failed (.noNamespace _ _) => true
  | _ => false

namespace Report

variable {config : NetworkConfig} {r : Report}

theorem identifies_report (outcome : Outcome Unit) (c : Configurator) :
    (Worker.report id config outcome c).Identifies id config :=
  ⟨rfl, rfl, rfl⟩

theorem identifies_declined (why : Failure) : (declined id config why).Identifies id config :=
  ⟨rfl, rfl, rfl⟩

/-- A report on a configuration names its container and its network. It carries the label too,
unless the namespace could not be opened; then there is none. -/
theorem Answers.identifies_iff_label (h : r.Answers t id config) :
    (r.container = id ∧ r.network = some config.network) ∧
      (r.Identifies id config ↔ (r.isRefusal = true → config.callbackState = none)) := by
  cases h with
  | acted outcome c =>
    have hidentifies : (Worker.report id config outcome c).Identifies id config :=
      identifies_report outcome c
    have hacted : (Worker.report id config outcome c).isRefusal = false := by
      cases outcome <;> rfl
    refine ⟨⟨rfl, rfl⟩, fun _ hrefusal ↦ ?_, fun _ ↦ hidentifies⟩
    rw [hacted] at hrefusal
    exact absurd hrefusal nofun
  | refused netns why =>
    refine ⟨⟨rfl, rfl⟩, fun hidentifies _ ↦ hidentifies.label_eq.symm, fun hnone ↦ ?_⟩
    exact ⟨rfl, rfl, (hnone rfl).symm⟩
  | turnedAway => exact ⟨⟨rfl, rfl⟩, fun _ ↦ nofun, fun _ ↦ identifies_declined _⟩

end Report

/-! ## Configurations that were turned away -/

/-- The configuration that found no room. -/
def Happening.turnedAway? : Happening → Option NetworkConfig
  | .turnedAway config => some config
  | _ => none

/-- The configurations that were turned away. -/
def turnedAway (seen : List Happening) : List NetworkConfig := seen.filterMap (·.turnedAway?)

/-- The reports on configurations that were turned away. -/
def rejections (seen : List Happening) : List Report :=
  (reports seen).filter (·.isTurnedAway)

theorem turnedAway_append (seen more : List Happening) :
    turnedAway (seen ++ more) = turnedAway seen ++ turnedAway more :=
  List.filterMap_append

theorem rejections_append (seen more : List Happening) :
    rejections (seen ++ more) = rejections seen ++ rejections more := by
  rw [rejections, reports_append, List.filter_append]
  rfl

namespace Crew

variable {c c' : Crew} {called : List NetworkConfig} {seen more : List Happening}

@[simp] theorem undelivered_release (c : Crew) : c.release.undelivered = c.undelivered := by
  rw [release]
  split <;> rfl

@[simp] theorem undelivered_hire (c : Crew) (netns : String) :
    (c.hire netns).undelivered = c.undelivered := by
  rw [hire]
  split <;> rfl

theorem rejects_nothing {w w' : Worker} {isSealed : Bool} {e : Happening}
    (h : w.Advance t id isSealed w' e) : turnedAway [e] = [] ∧ rejections [e] = [] := by
  have hworker := h.isOfWorker
  cases e with
  | turnedAway => exact absurd hworker nofun
  | reported r =>
    refine ⟨rfl, List.filter_eq_nil_iff.mpr fun r' hr' ↦ ?_⟩
    rw [List.mem_singleton.mp hr']
    simpa [Happening.isOfWorker] using hworker
  | _ => exact ⟨rfl, rfl⟩

/-- Each report on a configuration that was turned away is made from that configuration, and is
delivered or will be. -/
def Rejects (t : Terms) (id : ContainerId) (seen : List Happening) (c : Crew) : Prop :=
  (rejections seen ++ c.undelivered).Perm
    ((turnedAway seen).map fun config ↦ .declined id config (.queueFull t.depth))

theorem Rejects.congr (h : c.Rejects t id seen) (hundelivered : c'.undelivered = c.undelivered)
    (hturned : turnedAway more = []) (hreports : rejections more = []) :
    c'.Rejects t id (seen ++ more) := by
  rw [Rejects, rejections_append, turnedAway_append, hundelivered, hturned, hreports,
    List.append_nil, List.append_nil]
  exact h

theorem Rejects.shift {config : Option NetworkConfig} (h : c.Rejects t id seen)
    (hsound : c.Sound t id) (hundelivered : ∀ r ∈ c.undelivered, r.isTurnedAway = true)
    (hshift : Shift t id c config more c') : c'.Rejects t id (seen ++ more) := by
  cases hshift with
  | goes _ _ _ hgoes =>
    obtain ⟨hturned, hreports⟩ := rejects_nothing hgoes.advance
    exact h.congr rfl hturned hreports
  | letsGo => exact h.congr (undelivered_release c) rfl rfl
  | hires netns => exact h.congr (undelivered_hire c netns) rfl rfl
  | ends | reports | finishes | tidies | notes | handsOver | joins | accepts =>
    exact h.congr rfl rfl rfl
  | @turnsAway k s why config note hduty hwhy =>
    have hnone : rejections [.noted note, .turnedAway config] = [] := rfl
    have hone : turnedAway [.noted note, .turnedAway config] = [config] := rfl
    rw [Rejects, rejections_append, turnedAway_append, hnone, hone, List.append_nil,
      hsound.eq_queueFull hduty hwhy, List.map_append, ← List.append_assoc]
    exact h.append_right _
  | @delivers i r hr =>
    have hone : rejections [.reported r] = [r] :=
      List.filter_cons_of_pos (hundelivered r (List.mem_of_getElem? hr))
    have hnone : turnedAway [.reported r] = [] := rfl
    obtain ⟨hlt, rfl⟩ := List.getElem?_eq_some_iff.mp hr
    rw [Rejects, rejections_append, turnedAway_append, hone, hnone, List.append_nil,
      List.append_assoc]
    exact (List.Perm.append_left _ (List.getElem_cons_eraseIdx_perm hlt)).trans h

theorem Shifts.rejections (h : Shifts t id {} called seen c) : c.Rejects t id seen := by
  induction h with
  | refl => exact .refl _
  | tail hshifts hshift ih => exact ih.shift hshifts.sound hshifts.tells.turnedAway hshift

end Crew

/-! ## Configurations that were accepted -/

theorem taken_jobs (seen : List Happening) : taken (jobs seen) = taken seen := by
  rw [taken, jobs, List.filterMap_filter]
  refine List.filterMap_congr fun e _ ↦ ?_
  cases e with
  | reported r => exact ite_self _
  | _ => rfl

theorem taken_done (done : List (NetworkConfig × Report)) :
    taken (done.flatMap fun d ↦ [.took d.1, .reported d.2]) = done.map (·.1) := by
  induction done with
  | nil => rfl
  | cons d done ih =>
    rw [List.flatMap_cons, taken_append, ih]
    rfl

theorem reports_done (done : List (NetworkConfig × Report)) :
    reports (done.flatMap fun d ↦ [.took d.1, .reported d.2]) = done.map (·.2) := by
  induction done with
  | nil => rfl
  | cons d done ih =>
    rw [List.flatMap_cons, reports_append, ih]
    rfl

/-- What was accepted was reported, is in hand, or waits, in this order. -/
theorem Crew.Queues.exists_done {c : Crew} {called : List NetworkConfig} {seen : List Happening}
    (h : c.Queues t id called seen) :
    ∃ done : List (NetworkConfig × Report), (∀ d ∈ done, d.2.Answers t id d.1) ∧
      jobs seen = (done.flatMap fun d ↦ [.took d.1, .reported d.2]) ++ c.inHand.map .took ∧
      accepted seen = done.map (·.1) ++ c.inHand ++ c.waiting := by
  obtain ⟨done, hdone, hjobs⟩ := h.jobs_eq
  have htaken : taken seen = done.map (·.1) ++ c.inHand := by
    rw [← taken_jobs, hjobs, taken_append, taken_done, taken, List.filterMap_map]
    exact congrArg _ List.filterMap_some
  exact ⟨done, hdone, hjobs, by rw [h.accepted_eq, htaken]⟩

/-! ## Every run of a staff -/

/-- Which report is on which configuration. Workers have reported on what they took, one
configuration after the other; `inHand` and `waiting` are not reported yet. Reports on what was
turned away come in any order. -/
structure Pairing (seen : List Happening) (c : Crew)
    (done rejected : List (NetworkConfig × Report)) : Prop where
  accepted_eq : accepted seen = done.map (·.1) ++ c.inHand ++ c.waiting
  jobs_eq : jobs seen = (done.flatMap fun d ↦ [.took d.1, .reported d.2]) ++ c.inHand.map .took
  turnedAway_eq : turnedAway seen = rejected.map (·.1)
  rejections_perm : (rejections seen ++ c.undelivered).Perm (rejected.map (·.2))

theorem Pairing.mem_reports {seen : List Happening} {c : Crew}
    {done rejected : List (NetworkConfig × Report)} {d : NetworkConfig × Report}
    (h : Pairing seen c done rejected) (hd : d ∈ done ++ rejected) :
    d.2 ∈ reports seen ++ c.undelivered := by
  rcases List.mem_append.mp hd with hd | hd
  · have hjob : .reported d.2 ∈ jobs seen := by
      rw [h.jobs_eq]
      exact List.mem_append_left _ (List.mem_flatMap.mpr ⟨d, hd, by simp⟩)
    exact List.mem_append_left _ (List.mem_filterMap.mpr ⟨_, (List.mem_filter.mp hjob).1, rfl⟩)
  · rcases List.mem_append.mp (h.rejections_perm.mem_iff.mpr (List.mem_map_of_mem hd)) with hr | hr
    · exact List.mem_append_left _ (List.mem_filter.mp hr).1
    · exact List.mem_append_right _ hr

namespace Staff

variable {s : Staff} {events : List Event}

/-- **Which reports identify their configurations.** In every run, the configurations that came with
calls were accepted or turned away, and the reports belong to them. Every report names the container
and the network of its configuration. It carries the label too, except on one path: the report of a
configuration for a namespace that could not be opened carries none. -/
theorem Run.identifies_iff (h : Run t events s) (id : ContainerId) :
    offered (seen id events) = called id events ∧
      ∃ done rejected : List (NetworkConfig × Report),
        Pairing (seen id events) (s.crews id) done rejected ∧
        ∀ d ∈ done ++ rejected,
          (d.2.container = id ∧ d.2.network = some d.1.network) ∧
            (d.2.Identifies id d.1 ↔ (d.2.isRefusal = true → d.1.callbackState = none)) := by
  have hqueues := (h.shifts id).queues
  obtain ⟨done, hdone, hjobs, haccepted⟩ := hqueues.exists_done
  let rejected := (turnedAway (seen id events)).map fun config ↦
    (config, Report.declined id config (.queueFull t.depth))
  refine ⟨hqueues.offered_eq, done, rejected, ⟨haccepted, hjobs, ?_, ?_⟩, fun d hd ↦ ?_⟩
  · rw [List.map_map]
    exact (List.map_id _).symm
  · have hrejections := (h.shifts id).rejections
    rwa [List.map_map]
  · refine Report.Answers.identifies_iff_label (t := t) ?_
    rcases List.mem_append.mp hd with hd | hd
    · exact hdone d hd
    · obtain ⟨config, -, rfl⟩ := List.mem_map.mp hd
      exact .turnedAway

/-- Two configurations with labels: one is acted on, and for the other there is no room. Both
reports identify theirs. -/
theorem Run.identifies_when_opened :
    let id : ContainerId := ⟨"web-1", by decide⟩
    let t : Terms := { queueDepth := 1 }
    let labelled (label : String) : NetworkConfig :=
      { NetworkConfig.disabled "default" with callbackState := some label }
    ∃ events s, Run t events s ∧ called id events = [labelled "first", labelled "second"] ∧
      ∃ done rejected : List (NetworkConfig × Report),
        Pairing (seen id events) (s.crews id) done rejected ∧
        done.map (·.1) = [labelled "first"] ∧ rejected.map (·.1) = [labelled "second"] ∧
        ∀ d ∈ done ++ rejected, d.2.Identifies id d.1 := by
  intro id t labelled
  let first : Stint := { worker := { netns := "/run/netns/a", waiting := [labelled "first"] } }
  let crew : Crew := { stints := [first], onDuty := some 0 }
  let full : Crew :=
    { crew with undelivered := [.declined id (labelled "second") (.queueFull 1)] }
  let tasks : List Crew.Move :=
    [.work 0 .advance, .work 0 (.opened (.ok ())), .work 0 .advance, .work 0 .advance, .deliver 0]
  have hsame : Path.same first.worker.netns "/run/netns/a" = true := beq_self_eq_true _
  have hhired : Crew.configure {} t id "/run/netns/a" (labelled "first") =
      (crew, [.accepted (labelled "first")]) := rfl
  have hstays : crew.configure t id "/run/netns/a" (labelled "second") = (full, _) :=
    (Crew.configure_eq_offer (k := 0) (s := first) rfl hsame rfl _).trans rfl
  have hrun : Run t _ (alone t id false full) :=
    (Run.alone_start.alone_call (.configure "/run/netns/a" (labelled "first"))
      (congrArg some hhired)).alone_call (.configure "/run/netns/a" (labelled "second"))
        (congrArg some hstays)
  have hend : (moveAll (fun c m ↦ Crew.step c t id m) tasks full).any
      (fun x ↦ x.1.undelivered = [] && x.1.inHand = [] && x.1.waiting = [] &&
        accepted x.2 = [] && turnedAway x.2 = [] && (reports x.2).all (!·.isRefusal)) = true := by
    decide +kernel
  obtain ⟨⟨c, happenings⟩, hmoves, hc⟩ := (Option.any_eq_true _ _).mp hend
  have hrun := hrun.alone_tasks (by decide) hmoves
  simp only [Bool.and_eq_true, decide_eq_true_eq, List.all_eq_true, Bool.not_eq_true'] at hc
  obtain ⟨⟨⟨⟨⟨hdelivered, hhand⟩, hwaiting⟩, haccepted⟩, hturned⟩, hopened⟩ := hc
  obtain ⟨-, done, rejected, hpairing, hidentifies⟩ := hrun.identifies_iff id
  refine ⟨_, _, hrun, ?_, done, rejected, hpairing, ?_, ?_, fun d hd ↦ ?_⟩
  · simp only [called_append, called_cons, called_map]
    rfl
  · have haccepted_eq := hpairing.accepted_eq
    simp only [seen_append, seen_called_cons, seen_map, if_true, accepted_append, haccepted,
      alone_crews_self, hhand, hwaiting, List.append_nil] at haccepted_eq
    exact haccepted_eq.symm
  · have hturned_eq := hpairing.turnedAway_eq
    simp only [seen_append, seen_called_cons, seen_map, if_true, turnedAway_append,
      hturned, List.append_nil] at hturned_eq
    exact hturned_eq.symm
  · refine (hidentifies d hd).2.mpr fun hrefusal ↦ ?_
    have hmem := hpairing.mem_reports hd
    simp only [seen_append, seen_called_cons, seen_map, if_true, reports_append,
      alone_crews_self, hdelivered, List.append_nil] at hmem
    have hreported : d.2 ∈ reports happenings := hmem
    rw [hopened _ hreported] at hrefusal
    exact absurd hrefusal Bool.false_ne_true

/-- The namespace cannot be opened, and the report on the configuration has lost its label. -/
theorem Run.label_lost :
    let id : ContainerId := ⟨"web-1", by decide⟩
    let config : NetworkConfig :=
      { NetworkConfig.disabled "default" with callbackState := some "ready" }
    ∃ events s, Run {} events s ∧ called id events = [config] ∧
      accepted (seen id events) = [config] ∧
      ∃ r, reports (seen id events) = [r] ∧ ¬r.Identifies id config := by
  intro id config
  let crew : Crew :=
    { stints := [{ worker := { netns := "/run/netns/a", waiting := [config] } }], onDuty := some 0 }
  let tasks : List Crew.Move :=
    [.work 0 .advance, .work 0 (.opened (.error .closed)), .work 0 .advance, .work 0 .advance]
  have hrun : Run {} _ (alone {} id false crew) :=
    Run.alone_start.alone_call (.configure "/run/netns/a" config) rfl
  have hend : (moveAll (fun c m ↦ Crew.step c {} id m) tasks crew).any
      (fun x ↦ accepted x.2 = [] && (reports x.2).map (·.callbackState) = [none]) = true := by
    decide +kernel
  obtain ⟨⟨c, happenings⟩, hmoves, hc⟩ := (Option.any_eq_true _ _).mp hend
  obtain ⟨haccepted, hlabels⟩ := Bool.and_eq_true_iff.mp hc
  obtain ⟨r, hr, hlabel⟩ := List.map_eq_singleton_iff.mp (of_decide_eq_true hlabels)
  refine ⟨_, _, hrun.alone_tasks (by decide) hmoves, ?_, ?_, r, ?_, fun hidentifies ↦ ?_⟩
  · simp only [called_append, called_cons, called_map]
    rfl
  · simp only [seen_append, seen_called_cons, seen_map, if_true, accepted_append,
      of_decide_eq_true haccepted]
    rfl
  · simp only [seen_append, seen_called_cons, seen_map, if_true, reports_append, hr]
    rfl
  · rw [hidentifies.label_eq] at hlabel
    cases hlabel

end Staff

end ContainerNet.Sidecar
