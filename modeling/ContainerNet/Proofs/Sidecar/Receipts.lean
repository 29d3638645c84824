import Mathlib.Data.List.Perm.Basic
import ContainerNet.Proofs.Configurator.History
import ContainerNet.Proofs.Sidecar.Staffs

/-!
# One report for each configuration

Every configuration that comes with a call is reported once: after it was acted on, or refused since
the namespace could not be opened, or turned away since the queue was full. And every worker is
reported once as released. `Staff.Run.receipts` says so of all runs of a staff.

On the way there a configuration is pending: it waits for a worker, or is in hand. `Crew.Settles`
says that at any time the configurations that came are those that are answered for and those that
are pending, and that the reports so far, with those that are to be delivered, are the answers.
-/

namespace ContainerNet.Sidecar

variable {t : Terms} {id : ContainerId} {isSealed : Bool}

/-! ## Reports -/

/-- The reports that a configuration can come to. -/
inductive Report.Answers (t : Terms) (id : ContainerId) (config : NetworkConfig) : Report → Prop
  | acted (outcome : Outcome Unit) (c : Configurator) :
    Answers t id config (Worker.report id config outcome c)
  | refused (netns : String) (why : Error) :
    Answers t id config (({ netns } : Worker).refusal id config why)
  | turnedAway : Answers t id config (.declined id config (.queueFull t.depth))

/-- Whether the report is of a worker that was released. -/
def Report.isReleased (r : Report) : Bool := r.result = .released

/-- The report that is seen. -/
def Happening.report? : Happening → Option Report
  | .reported r => some r
  | _ => none

/-- All reports that are seen. -/
def reports (seen : List Happening) : List Report := seen.filterMap (·.report?)

@[simp] theorem reports_append (seen more : List Happening) :
    reports (seen ++ more) = reports seen ++ reports more :=
  List.filterMap_append

@[simp] theorem reports_reported (r : Report) : reports [.reported r] = [r] := rfl

@[simp] theorem isReleased_released : (Report.released id).isReleased = true := rfl

namespace Report.Answers

variable {config : NetworkConfig} {r : Report}

theorem isReleased_eq (h : r.Answers t id config) : r.isReleased = false := by
  cases h with
  | acted outcome => cases outcome <;> rfl
  | refused | turnedAway => rfl

theorem container_eq (h : r.Answers t id config) : r.container = id := by
  cases h <;> rfl

end Report.Answers

/-! ## What is pending -/

namespace Worker

variable {w w' : Worker} {e : Happening}

/-- The configuration that the worker has taken and not reported. -/
def inHand (w : Worker) : List NetworkConfig :=
  match w.stage with
  | .refused _ (some config) | .busy config _ => [config]
  | _ => []

/-- The configurations that the worker has not reported. -/
def pending (w : Worker) : List NetworkConfig := w.inHand ++ w.waiting

/-- A worker does not lose a configuration. If it reports, it is on the one in hand. -/
theorem Advance.pending (h : w.Advance t id isSealed w' e) :
    (e.report? = none ∧ w'.pending = w.pending) ∨
      ∃ config r, e = .reported r ∧ r.Answers t id config ∧ w.pending = config :: w'.pending := by
  obtain ⟨netns, waiting, stage⟩ := w
  cases h with
  | opening hstage | opened hstage | notOpened _ hstage | ask _ hstage | close _ hstage
  | closing _ hstage =>
    cases hstage
    exact .inl ⟨rfl, rfl⟩
  | takeRefused hstage hwaiting | take hstage hwaiting =>
    cases hstage
    cases hwaiting
    exact .inl ⟨rfl, rfl⟩
  | @refuse why config hstage =>
    cases hstage
    exact .inr ⟨config, _, rfl, .refused netns why, rfl⟩
  | @report config outcome c hstage =>
    cases hstage
    exact .inr ⟨config, _, rfl, .acted outcome c, rfl⟩

end Worker

theorem Stint.Sound.pending_eq_nil {s : Stint} (h : s.Sound t id) (hover : s.isOver = true) :
    s.worker.pending = [] := by
  have hwaiting := h.waiting_of_closing
  have hturn := h.turn_of_over hover
  obtain ⟨⟨netns, waiting, stage⟩, after, isOver, drain⟩ := s
  rcases Worker.stage_of_over hturn with
    ⟨why, hstage, hnil, -⟩ | ⟨c, c', hstage, hnil, -⟩ | ⟨c, hstage⟩
  · cases hstage
    cases hnil
    rfl
  · cases hstage
    cases hnil
    rfl
  · cases hstage
    exact hwaiting rfl

namespace Crew

variable {c c' : Crew} {k : Nat} {s s' : Stint} {called : List NetworkConfig}
  {seen more : List Happening}

/-- The configurations that are neither reported nor turned away. -/
def pending (c : Crew) : List NetworkConfig := c.stints.flatMap (·.worker.pending)

/-- How many workers were reported as released. -/
def gone (c : Crew) : Nat := c.stints.countP (·.isGone)

@[simp] theorem undelivered_put : (c.put k s).undelivered = c.undelivered := rfl

/-- One stint changes, and with it what is pending and how many are gone. -/
theorem exists_put (hs : c.stints[k]? = some s) :
    ∃ rest n, c.pending.Perm (s.worker.pending ++ rest) ∧
      c.gone = n + (if s.isGone then 1 else 0) ∧
      ∀ s', (c.put k s').pending.Perm (s'.worker.pending ++ rest) ∧
        (c.put k s').gone = n + if s'.isGone then 1 else 0 := by
  obtain ⟨pre, post, -, hsplit, hput⟩ := exists_split hs
  have hmiddle (d : Crew) (u : Stint) (hd : d.stints = pre ++ u :: post) :
      d.pending.Perm (u.worker.pending ++ (pre ++ post).flatMap (·.worker.pending)) ∧
        d.gone = (pre ++ post).countP (·.isGone) + if u.isGone then 1 else 0 := by
    constructor
    · rw [pending, hd, List.flatMap_append, List.flatMap_cons, List.flatMap_append]
      exact List.perm_append_comm_assoc ..
    · rw [gone, hd, List.countP_append, List.countP_cons, List.countP_append]
      omega
  obtain ⟨hpending, hgone⟩ := hmiddle c s hsplit
  exact ⟨_, _, hpending, hgone, fun s' ↦ hmiddle _ s' (hput s')⟩

/-! ## Accounts -/

/-- What became of the configurations that came: some are answered for, each by one report, and the
others are pending. And each worker that is gone was reported once. -/
structure Settles (t : Terms) (id : ContainerId) (called : List NetworkConfig)
    (seen : List Happening) (c : Crew) : Prop where
  answered : ∃ answered : List (NetworkConfig × Report), (∀ a ∈ answered, a.2.Answers t id a.1) ∧
    called.Perm (answered.map (·.1) ++ c.pending) ∧
    ((reports seen).filter (!·.isReleased) ++ c.undelivered).Perm (answered.map (·.2))
  released : (reports seen).filter (·.isReleased) = List.replicate c.gone (.released id)

namespace Settles

/-- Nothing is seen that matters, and nothing is done to what is pending. -/
theorem congr (h : c.Settles t id called seen) (hpending : c'.pending.Perm c.pending)
    (hgone : c'.gone = c.gone) (hundelivered : c'.undelivered = c.undelivered)
    (hmore : reports more = []) : c'.Settles t id called (seen ++ more) := by
  obtain ⟨⟨answered, hanswers, hcalled, hreports⟩, hreleased⟩ := h
  refine ⟨⟨answered, hanswers, ?_, ?_⟩, ?_⟩
  · exact hcalled.trans (hpending.symm.append_left _)
  · rwa [reports_append, hmore, List.append_nil, hundelivered]
  · rw [reports_append, hmore, List.append_nil, hgone, hreleased]

/-- A worker changes, but not in what it has pending or in whether it was reported. -/
theorem put (h : c.Settles t id called seen) (hs : c.stints[k]? = some s)
    (hpending : s'.worker.pending = s.worker.pending) (hgone : s'.isGone = s.isGone)
    (hmore : reports more = []) : (c.put k s').Settles t id called (seen ++ more) := by
  obtain ⟨rest, n, hold, hgone', hput⟩ := exists_put hs
  refine h.congr ?_ ?_ rfl hmore
  · exact (hput s').1.trans (hpending ▸ hold.symm)
  · rw [(hput s').2, hgone, hgone']

/-- A configuration is answered for: a worker reports on it, or it is turned away. -/
theorem answer {config : NetworkConfig} {r : Report} {came : List NetworkConfig}
    (h : c.Settles t id called seen) (hanswer : r.Answers t id config)
    (hpending : (came ++ c.pending).Perm (config :: c'.pending)) (hgone : c'.gone = c.gone)
    (hreports : (reports more ++ c'.undelivered).Perm (c.undelivered ++ [r]))
    (hmore : ∀ r ∈ reports more, r.isReleased = false) :
    c'.Settles t id (called ++ came) (seen ++ more) := by
  obtain ⟨⟨answered, hanswers, hcalled, hanswered⟩, hreleased⟩ := h
  have hkept : (reports more).filter (!·.isReleased) = reports more :=
    List.filter_eq_self.mpr fun r hr ↦ by simp [hmore r hr]
  have hnone : (reports more).filter (·.isReleased) = [] :=
    List.filter_eq_nil_iff.mpr fun r hr ↦ by simp [hmore r hr]
  refine ⟨⟨answered ++ [(config, r)], ?_, ?_, ?_⟩, ?_⟩
  · exact List.forall_mem_append.mpr ⟨hanswers, List.forall_mem_singleton.mpr hanswer⟩
  · rw [List.map_append, List.append_assoc]
    refine (hcalled.append_right came).trans ?_
    rw [List.append_assoc]
    exact (List.perm_append_comm.trans hpending).append_left _
  · rw [reports_append, List.filter_append, hkept, List.map_append, List.append_assoc]
    refine (hreports.append_left _).trans ?_
    rw [← List.append_assoc]
    exact hanswered.append_right _
  · rw [reports_append, List.filter_append, hnone, List.append_nil, hreleased, hgone]

theorem accept {config : NetworkConfig} (h : c.Settles t id called seen)
    (hs : c.stints[k]? = some s) :
    (c.put k { s with worker := { s.worker with waiting := s.worker.waiting ++ [config] } }).Settles
      t id (called ++ [config]) (seen ++ [.accepted config]) := by
  obtain ⟨⟨answered, hanswers, hcalled, hanswered⟩, hreleased⟩ := h
  obtain ⟨rest, n, hold, hgone, hput⟩ := exists_put hs
  let s' : Stint := { s with worker := { s.worker with waiting := s.worker.waiting ++ [config] } }
  have hpending : s'.worker.pending = s.worker.pending ++ [config] := (List.append_assoc ..).symm
  have hperm : (c.pending ++ [config]).Perm (c.put k s').pending := by
    refine (hold.append_right [config]).trans (.trans ?_ (hput s').1.symm)
    rw [hpending, List.append_assoc, List.append_assoc]
    exact List.perm_append_comm.append_left _
  have hnone : reports (seen ++ [.accepted config]) = reports seen := by
    rw [reports_append, show reports [.accepted config] = [] from rfl, List.append_nil]
  refine ⟨⟨answered, hanswers, ?_, ?_⟩, ?_⟩
  · refine (hcalled.append_right [config]).trans ?_
    rw [List.append_assoc]
    exact hperm.append_left _
  · rwa [hnone]
  · rw [hnone]
    exact hreleased.trans (congrArg (List.replicate · _) (hgone.trans (hput s').2.symm))

theorem letGo (h : c.Settles t id called seen) (hs : c.stints[k]? = some s)
    (hdrain : s.drain = some .waiting) :
    (c.put k { s with drain := some .reported }).Settles t id called
      (seen ++ [.reported (.released id)]) := by
  obtain ⟨⟨answered, hanswers, hcalled, hanswered⟩, hreleased⟩ := h
  obtain ⟨rest, n, hold, hgone, hput⟩ := exists_put hs
  obtain ⟨hnew, hgone'⟩ := hput { s with drain := some .reported }
  refine ⟨⟨answered, hanswers, ?_, ?_⟩, ?_⟩
  · exact hcalled.trans ((hold.trans hnew.symm).append_left _)
  · simpa using hanswered
  · rw [reports_append, List.filter_append, hreleased, hgone', hgone]
    simp [Stint.isGone, hdrain, List.replicate_succ']

theorem deliver {i : Nat} {r : Report} (h : c.Settles t id called seen)
    (hr : c.undelivered[i]? = some r) :
    Settles t id called (seen ++ [.reported r])
      { c with undelivered := c.undelivered.eraseIdx i } := by
  obtain ⟨⟨answered, hanswers, hcalled, hanswered⟩, hreleased⟩ := h
  -- what is to be delivered is among the answers, so it is no report of a release
  have hnot : r.isReleased = false := by
    have hmem := hanswered.mem_iff.mp (List.mem_append_right _ (List.mem_of_getElem? hr))
    obtain ⟨a, ha, rfl⟩ := List.mem_map.mp hmem
    exact (hanswers a ha).isReleased_eq
  obtain ⟨hlt, rfl⟩ := List.getElem?_eq_some_iff.mp hr
  refine ⟨⟨answered, hanswers, hcalled, ?_⟩, ?_⟩
  · rw [reports_append, reports_reported, List.filter_append, List.append_assoc]
    refine .trans (.append_left _ ?_) hanswered
    simpa [hnot] using List.getElem_cons_eraseIdx_perm hlt
  · rw [reports_append, reports_reported, List.filter_append, List.filter_singleton, hnot]
    exact (List.append_nil _).trans hreleased

theorem append_none (h : c.Settles t id called seen) :
    c.Settles t id (called ++ (none : Option NetworkConfig).toList) seen := by
  rwa [Option.toList_none, List.append_nil]

/-- **Every shift keeps the accounts.** -/
theorem shift {config : Option NetworkConfig} (h : c.Settles t id called seen)
    (hsound : c.Sound t id) (hshift : Shift t id c config more c') :
    c'.Settles t id (called ++ config.toList) (seen ++ more) := by
  cases hshift with
  | @goes k s m w e hs hmay hover hgoes =>
    rcases hgoes.advance.pending with ⟨hnone, hpending⟩ | ⟨config, r, rfl, hanswer, hpending⟩
    · exact append_none (h.put hs hpending rfl (by simp [reports, hnone]))
    · -- the report answers the configuration that the worker no longer has in hand
      obtain ⟨rest, n, hold, hgone, hput⟩ := exists_put hs
      obtain ⟨hnew, hgone'⟩ := hput { s with worker := w }
      refine h.answer hanswer ?_ (hgone'.trans hgone.symm) List.perm_append_comm ?_
      · rw [hpending] at hold
        exact hold.trans (hnew.symm.cons config)
      · exact List.forall_mem_singleton.mpr hanswer.isReleased_eq
  | ends hs => exact append_none (h.put hs rfl rfl rfl)
  | reports hs hdrain hover => exact append_none (h.letGo hs hdrain)
  | finishes hs hdrain => exact append_none (h.put hs rfl (by simp [Stint.isGone, hdrain]) rfl)
  | tidies | handsOver | joins => exact append_none (h.congr .rfl rfl rfl rfl)
  | notes entry => exact append_none (h.congr .rfl rfl rfl rfl)
  | @letsGo k s hduty =>
    obtain ⟨hk, hs⟩ := onDuty?_eq_some_iff.mp hduty
    have hdrain := (hsound.onDuty_iff hs).mpr hk
    have hput : (c.put k { s with drain := some .waiting }).Settles t id called (seen ++ []) :=
      h.put hs rfl (by simp [Stint.isGone, hdrain]) rfl
    rw [Crew.release, hduty]
    exact append_none ⟨hput.answered, hput.released⟩
  | hires netns hduty =>
    rw [Crew.hire, hduty]
    refine append_none (h.congr (.of_eq ?_) ?_ rfl rfl)
    · simp [Crew.pending, Worker.pending, Worker.inHand]
    · simp [gone, Stint.isGone]
  | @accepts k s config hduty hover => exact h.accept (onDuty?_eq_some_iff.mp hduty).2
  | @turnsAway k s why config note hduty hwhy =>
    rw [hsound.eq_queueFull hduty hwhy]
    exact h.answer .turnedAway .rfl rfl .rfl (by simp [reports, Happening.report?])
  | delivers hr => exact append_none (h.deliver hr)

end Settles

theorem Shifts.settles (h : Shifts t id {} called seen c) : c.Settles t id called seen := by
  induction h with
  | refl => exact ⟨⟨[], by simp, by simp [Crew.pending], by simp [reports]⟩, rfl⟩
  | tail hshifts hshift ih => exact ih.shift hshifts.sound hshift

/-! ## When all tasks have finished -/

/-- Whether all tasks of a container have finished: those of workers, drains and deliveries. -/
structure IsDone (c : Crew) : Prop where
  ended : ∀ s ∈ c.stints, s.isOver = true
  drained : ∀ s ∈ c.stints, ∀ d ∈ s.drain, d = .finished
  delivered : c.undelivered = []

/-- Whoever has ended was let go, so if all tasks have finished everybody was reported. -/
theorem IsDone.gone_eq (h : c.IsDone) (hsound : c.Sound t id) : c.gone = c.stints.length := by
  rw [gone, List.countP_eq_length]
  intro s hs
  obtain ⟨k, hk⟩ := List.mem_iff_getElem?.mp hs
  have hsealed := (hsound.stint hk).sealed_of_over (h.ended s hs)
  obtain ⟨d, hd⟩ := Option.isSome_iff_exists.mp hsealed
  exact Stint.isGone_of_finished (hd.trans (congrArg some (h.drained s hs d hd)))

theorem IsDone.pending_eq_nil (h : c.IsDone) (hsound : c.Sound t id) : c.pending = [] := by
  rw [pending, List.flatMap_eq_nil_iff]
  intro s hs
  obtain ⟨k, hk⟩ := List.mem_iff_getElem?.mp hs
  exact (hsound.stint hk).pending_eq_nil (h.ended s hs)

theorem configure_eq_offer {netns : String} (hduty : c.tidy.onDuty? = some (k, s))
    (hsame : Path.same s.worker.netns netns = true) (hover : s.isOver = false)
    (config : NetworkConfig) : c.configure t id netns config = c.tidy.offer t id config := by
  have hstays : c.tidy.isToReplace netns = false := by simp [isToReplace, hduty, hsame, hover]
  simp [configure, ensure, noteReplaced, hstays, hire, hduty]

end Crew

theorem Crew.Settles.container_eq {c : Crew} {called : List NetworkConfig} {seen : List Happening}
    {r : Report} (h : c.Settles t id called seen) (hr : r ∈ reports seen) : r.container = id := by
  cases hreleased : r.isReleased with
  | true =>
    have hmem : r ∈ (reports seen).filter (·.isReleased) := List.mem_filter.mpr ⟨hr, hreleased⟩
    rw [h.released] at hmem
    rw [List.eq_of_mem_replicate hmem]
    rfl
  | false =>
    obtain ⟨answered, hanswers, -, hanswered⟩ := h.answered
    have hmem : r ∈ (reports seen).filter (!·.isReleased) :=
      List.mem_filter.mpr ⟨hr, by simp [hreleased]⟩
    obtain ⟨a, ha, rfl⟩ := List.mem_map.mp (hanswered.mem_iff.mp (List.mem_append_left _ hmem))
    exact (hanswers a ha).container_eq

namespace Staff

variable {s s' : Staff} {events more : List Event}

/-- All reports that were delivered. -/
def received (events : List Event) : List Report :=
  events.filterMap fun
    | .happening _ h => h.report?
    | _ => none

theorem received_append : received (events ++ more) = received events ++ received more :=
  List.filterMap_append

theorem filter_received (h : ∀ id, ∀ r ∈ reports (seen id events), r.container = id)
    (id : ContainerId) :
    (received events).filter (·.container = id) = reports (seen id events) := by
  induction events with
  | nil => rfl
  | cons event events ih =>
    have hsplit (id : ContainerId) : reports (seen id (event :: events)) =
        reports (seen id [event]) ++ reports (seen id events) := by
      rw [← List.singleton_append, seen_append, reports_append]
    have hrest := ih fun id r hr ↦ h id r (by rw [hsplit]; exact List.mem_append_right _ hr)
    rw [hsplit, ← hrest, ← List.singleton_append, received_append, List.filter_append]
    refine congrArg (· ++ _) ?_
    cases event with
    | called | shutDown | stopped => rfl
    | happening other e =>
      have hseen (id : ContainerId) :
          seen id [.happening other e] = if other = id then [e] else [] := by
        rw [← seen_map, List.map_singleton]
      have hother (r : Report) (hr : r ∈ reports [e]) : r.container = other := by
        refine h other r (by rw [hsplit, hseen, if_pos rfl]; exact List.mem_append_left _ hr)
      have hreceived : received [.happening other e] = reports [e] := rfl
      rw [hseen, hreceived]
      split
      next hid => exact List.filter_eq_self.mpr fun r hr ↦ by simp [hother r hr, hid]
      next hid => exact List.filter_eq_nil_iff.mpr fun r hr ↦ by simp [hother r hr, hid]

/-- **Every configuration is reported once, and every worker is released once.** In every run, when
all tasks of a container have finished, the configurations that came with calls for it and the
reports on it other than those of releases belong to each other one by one, and there is one report
of a release for each worker that was hired. To release a container that nobody is on duty for does
nothing. -/
theorem Run.receipts (h : Run t events s) (id : ContainerId) :
    ((s.crews id).IsDone →
      (∃ answered : List (NetworkConfig × Report), (∀ a ∈ answered, a.2.Answers t id a.1) ∧
        (called id events).Perm (answered.map (·.1)) ∧
        (((received events).filter (·.container = id)).filter (!·.isReleased)).Perm
          (answered.map (·.2))) ∧
      ((received events).filter (·.container = id)).filter (·.isReleased) =
        List.replicate (s.crews id).stints.length (.released id)) ∧
    ∀ more s', (s.crews id).onDuty = none → s.Step (.called id .release :: more) s' →
      more = [] ∧ s'.crews id = s.crews id := by
  have hsettles := (h.shifts id).settles
  have hcontainer (id : ContainerId) (r : Report) (hr : r ∈ reports (seen id events)) :
      r.container = id := (h.shifts id).settles.container_eq hr
  have hreports := filter_received hcontainer id
  refine ⟨fun hdone ↦ ?_, fun more s' hduty hstep ↦ ?_⟩
  · rw [hreports]
    obtain ⟨⟨answered, hanswers, hcalled, hanswered⟩, hreleased⟩ := hsettles
    rw [hdone.pending_eq_nil (h.sound id), List.append_nil] at hcalled
    rw [hdone.delivered, List.append_nil] at hanswered
    rw [hdone.gone_eq (h.sound id)] at hreleased
    exact ⟨⟨answered, hanswers, hcalled, hanswered⟩, hreleased⟩
  · obtain ⟨happenings, hmove, rfl, -⟩ := hstep.of_call
    obtain ⟨-, hmove⟩ := Option.ite_none_right_eq_some.mp hmove
    have hnobody : (s.crews id).release = s.crews id := by
      rw [Crew.release, (h.sound id).onDuty?_eq_none_iff.mpr hduty]
    obtain ⟨hcrew, hnothing⟩ := Prod.mk.inj (Option.some.inj hmove)
    exact ⟨by rw [← hnothing, List.map_nil], hcrew.symm.trans hnobody⟩

/-- A configuration finds no room, and another one is for a namespace that cannot be opened. The
second release finds nobody on duty. -/
theorem Run.receipts_one_of_each :
    let id : ContainerId := ⟨"web-1", by decide⟩
    let t : Terms := { queueDepth := 1 }
    ∃ events s, Run t events s ∧ (s.crews id).IsDone ∧ (called id events).length = 3 ∧
      (∃ answered : List (NetworkConfig × Report), (∀ a ∈ answered, a.2.Answers t id a.1) ∧
        (called id events).Perm (answered.map (·.1)) ∧
        (((received events).filter (·.container = id)).filter (!·.isReleased)).Perm
          (answered.map (·.2))) ∧
      ((received events).filter (·.container = id)).filter (·.isReleased) =
        List.replicate 2 (.released id) := by
  intro id t
  let config := NetworkConfig.disabled "default"
  -- the queue has room for one configuration, so a second one is turned away at once
  let first : Stint := { worker := { netns := "/run/netns/a", waiting := [config] } }
  let full : Crew := { stints := [first], onDuty := some 0 }
  let crew : Crew :=
    { stints := [{ first with drain := some .waiting },
        { worker := { netns := "/run/netns/b", waiting := [config] }, after := some 0
          drain := some .waiting }]
      joining := some 1
      undelivered := [.declined id config (.queueFull 1)] }
  let tasks : List Crew.Move :=
    [.work 0 .advance, .work 0 (.opened (.ok ())), .work 0 .advance, .work 0 .advance,
      .work 0 (.answered (Configurator.holdingOn (.ofOctets 16 0 1 5 16))), .work 0 .advance,
      .drain 0, .drain 0, .work 1 .advance, .work 1 (.opened (.error .closed)), .work 1 .advance,
      .work 1 .advance, .work 1 .advance, .drain 1, .drain 1, .deliver 0]
  have hstays : full.configure t id "/run/netns/a" config =
      ({ full with undelivered := [.declined id config (.queueFull 1)] }, _) :=
    (Crew.configure_eq_offer (k := 0) (s := first) rfl (beq_self_eq_true _) rfl config).trans rfl
  have hfull : Run t _ (alone t id false full) :=
    Run.alone_start.alone_call (.configure "/run/netns/a" config) rfl
  have hreleased : Run t _ (alone t id false _) :=
    ((hfull.alone_call (.configure "/run/netns/a" config) (congrArg some hstays)).alone_call
      .release rfl).alone_call .release rfl
  have hrun : Run t _ (alone t id true crew) :=
    (hreleased.alone_call (.configure "/run/netns/b" config) rfl).alone_shutDown
  have hend : (moveAll (fun c m ↦ Crew.step c t id m) tasks crew).any (fun x ↦
      x.1.stints.length = 2 && x.1.stints.all (·.isOver) &&
        x.1.stints.all (·.drain.all (· = .finished)) && x.1.undelivered = []) = true := by
    decide +kernel
  obtain ⟨⟨c, happenings⟩, hmoves, hc⟩ := (Option.any_eq_true _ _).mp hend
  have hrun := hrun.alone_tasks (by decide) hmoves
  simp only [Bool.and_eq_true, decide_eq_true_eq, List.all_eq_true, Option.all_eq_true] at hc
  obtain ⟨⟨⟨hlength, hover⟩, hdrained⟩, hdelivered⟩ := hc
  have hdone : c.IsDone := ⟨hover, hdrained, hdelivered⟩
  have hreceipts := (hrun.receipts id).1 (by rwa [alone_crews_self])
  rw [alone_crews_self, hlength] at hreceipts
  refine ⟨_, _, hrun, by rwa [alone_crews_self], ?_, hreceipts⟩
  simp only [called_append, called_cons, called_map]
  rfl

end Staff

end ContainerNet.Sidecar
