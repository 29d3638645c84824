import ContainerNet.Proofs.Sidecar.Receipts
import ContainerNet.Proofs.Sidecar.Succession
import ContainerNet.Proofs.Sidecar.Tasks

/-!
# Configurations are taken in order

A container has one worker after the other, each with a queue of its own, and still its
configurations are taken as if there were one queue: in the order in which they came, each once, and
none is lost when a worker is replaced. The queue that takes what comes is bounded, and a
configuration is turned away only if that queue is full. `Staff.Run.in_order` says so of every run
of a staff.

## Why many queues are one

Read one after the other, in the order of the workers, the queues are what was accepted and not yet
taken (`Crew.Queues.accepted_eq`). A configuration goes to the end of it, since the worker on duty
is the last. And one is taken from its front, since whoever goes on comes after workers that have
ended, with empty queues (`Crew.Sound.exists_put_active`). For the same reason at most one
configuration is in hand, so reports come in the order of the configurations.
-/

namespace ContainerNet.Sidecar

variable {t : Terms} {id : ContainerId} {isSealed : Bool}

/-! ## What is seen of configurations -/

namespace Happening

/-- The configuration that found room in a queue. -/
def accepted? : Happening → Option NetworkConfig
  | .accepted config => some config
  | _ => none

/-- The configuration that found room in a queue or did not. -/
def offered? : Happening → Option NetworkConfig
  | .accepted config | .turnedAway config => some config
  | _ => none

/-- The configuration that a worker took. -/
def took? : Happening → Option NetworkConfig
  | .took config => some config
  | _ => none

/-- Whether a worker took a configuration, or reported on one. -/
def isOfJob : Happening → Bool
  | .took _ => true
  | .reported r => !r.isTurnedAway && !r.isReleased
  | _ => false

/-- The happening is neither of a configuration that comes nor of one that a worker has. -/
def IsAside (e : Happening) : Prop := e.offered? = none ∧ e.isOfJob = false

end Happening

/-- The configurations that were accepted. -/
def accepted (seen : List Happening) : List NetworkConfig := seen.filterMap (·.accepted?)

/-- The configurations that were accepted or turned away. -/
def offered (seen : List Happening) : List NetworkConfig := seen.filterMap (·.offered?)

/-- The configurations that were taken. -/
def taken (seen : List Happening) : List NetworkConfig := seen.filterMap (·.took?)

/-- What workers did with configurations: to take them and to report on them. -/
def jobs (seen : List Happening) : List Happening := seen.filter (·.isOfJob)

section

variable {seen more : List Happening}

@[simp] theorem accepted_append : accepted (seen ++ more) = accepted seen ++ accepted more :=
  List.filterMap_append

@[simp] theorem offered_append : offered (seen ++ more) = offered seen ++ offered more :=
  List.filterMap_append

@[simp] theorem taken_append : taken (seen ++ more) = taken seen ++ taken more :=
  List.filterMap_append

@[simp] theorem jobs_append : jobs (seen ++ more) = jobs seen ++ jobs more :=
  List.filter_append ..

theorem eq_nil_of_isAside (h : ∀ e ∈ more, e.IsAside) :
    accepted more = [] ∧ offered more = [] ∧ taken more = [] ∧ jobs more = [] := by
  refine ⟨?_, ?_, ?_, ?_⟩
  · refine List.filterMap_eq_nil_iff.mpr fun e he ↦ ?_
    have hoffered := (h e he).1
    cases e <;> first | rfl | exact absurd hoffered nofun
  · exact List.filterMap_eq_nil_iff.mpr fun e he ↦ (h e he).1
  · refine List.filterMap_eq_nil_iff.mpr fun e he ↦ ?_
    have hjob := (h e he).2
    cases e <;> first | rfl | exact absurd hjob nofun
  · exact List.filter_eq_nil_iff.mpr fun e he ↦ by simp [(h e he).2]

end

/-! ## What a worker does with configurations -/

/-- A worker takes the first configuration of its queue when it has none in hand, and lets go of the
one in hand by a report on it. -/
theorem Worker.Advance.job {w w' : Worker} {e : Happening} (h : w.Advance t id isSealed w' e) :
    (e.IsAside ∧ w'.inHand = w.inHand ∧ w'.waiting = w.waiting) ∨
      (∃ config, e = .took config ∧ w.inHand = [] ∧ w'.inHand = [config] ∧
        w.waiting = config :: w'.waiting) ∨
      ∃ config r, e = .reported r ∧ e.isOfJob = true ∧ r.Answers t id config ∧
        w.inHand = [config] ∧ w'.inHand = [] ∧ w'.waiting = w.waiting := by
  obtain ⟨netns, waiting, stage⟩ := w
  cases h with
  | opening hstage | opened hstage | notOpened _ hstage | ask _ hstage | close _ hstage
  | closing _ hstage =>
    cases hstage
    exact .inl ⟨⟨rfl, rfl⟩, rfl, rfl⟩
  | takeRefused hstage hwaiting | take hstage hwaiting =>
    cases hstage
    cases hwaiting
    exact .inr (.inl ⟨_, rfl, rfl, rfl, rfl⟩)
  | @refuse why config hstage =>
    cases hstage
    exact .inr (.inr ⟨config, _, rfl, rfl, .refused netns why, rfl, rfl, rfl⟩)
  | @report config outcome c hstage =>
    cases hstage
    exact .inr (.inr ⟨config, _, rfl, by cases outcome <;> rfl, .acted outcome c, rfl, rfl, rfl⟩)

namespace Crew

variable {c c' : Crew} {k : Nat} {s s' : Stint} {called : List NetworkConfig}
  {seen more : List Happening}

/-- The configurations that were accepted and not taken, queue after queue. -/
def waiting (c : Crew) : List NetworkConfig := c.stints.flatMap (·.worker.waiting)

/-- The configurations that were taken and not reported. -/
def inHand (c : Crew) : List NetworkConfig := c.stints.flatMap (·.worker.inHand)

theorem waiting_congr (h : c'.stints.map (·.worker) = c.stints.map (·.worker)) :
    c'.waiting = c.waiting ∧ c'.inHand = c.inHand := by
  have hflat (f : Worker → List NetworkConfig) :
      c'.stints.flatMap (fun s ↦ f s.worker) = c.stints.flatMap fun s ↦ f s.worker := by
    rw [← List.flatMap_map, h, List.flatMap_map]
  exact ⟨hflat (·.waiting), hflat (·.inHand)⟩

theorem map_worker_put (hs : c.stints[k]? = some s) (hworker : s'.worker = s.worker) :
    (c.put k s').stints.map (·.worker) = c.stints.map (·.worker) := by
  obtain ⟨pre, post, -, hsplit, hput⟩ := exists_split hs
  rw [hput, hsplit, List.map_append, List.map_append, List.map_cons, List.map_cons, hworker]

/-- A worker that goes on has the front of what waits in its queue, and nobody else has anything in
hand: those before it have ended, and those after it have not begun. -/
theorem Sound.exists_put_active (h : c.Sound t id) (hs : c.stints[k]? = some s)
    (hmay : c.mayBegin s = true) (hover : s.isOver = false) :
    ∃ later, c.waiting = s.worker.waiting ++ later ∧ c.inHand = s.worker.inHand ∧
      ∀ s', (c.put k s').waiting = s'.worker.waiting ++ later ∧
        (c.put k s').inHand = s'.worker.inHand := by
  obtain ⟨pre, post, hlength, hsplit, hput⟩ := exists_split hs
  have hbefore : ∀ p ∈ pre, p.worker.pending = [] := by
    intro p hp
    obtain ⟨j, hj, rfl⟩ := List.getElem_of_mem hp
    have hget : c.stints[j]? = some pre[j] := by
      rw [hsplit, List.getElem?_append_left hj, List.getElem?_eq_getElem hj]
    have hfin := h.finished_of_lt hs (.inr hmay) (hlength ▸ hj) hget
    exact (h.stint hget).pending_eq_nil
      ((h.stint hget).over_of_gone (Stint.isGone_of_finished hfin))
  have hafter : ∀ u ∈ post, u.worker.inHand = [] := by
    intro u hu
    obtain ⟨j, hj, rfl⟩ := List.getElem_of_mem hu
    have hget : c.stints[k + (j + 1)]? = some post[j] := by
      rw [hsplit, ← hlength, List.getElem?_append_right (Nat.le_add_right _ _)]
      simp [hj]
    have hfin : s.drain ≠ some .finished := fun hfin ↦
      absurd (Stint.isGone_of_finished hfin) (by simp [(h.stint hs).not_gone hover])
    have hfresh := (not_or.mp (h.not_begun hs hfin (by omega) hget)).1
    rw [Worker.inHand, not_not.mp hfresh]
  have hmiddle (d : Crew) (u : Stint) (hd : d.stints = pre ++ u :: post) :
      d.waiting = u.worker.waiting ++ post.flatMap (·.worker.waiting) ∧
        d.inHand = u.worker.inHand := by
    have hwaiting : pre.flatMap (·.worker.waiting) = [] :=
      List.flatMap_eq_nil_iff.mpr fun p hp ↦ (List.append_eq_nil_iff.mp (hbefore p hp)).2
    have hhand : pre.flatMap (·.worker.inHand) = [] :=
      List.flatMap_eq_nil_iff.mpr fun p hp ↦ (List.append_eq_nil_iff.mp (hbefore p hp)).1
    have hlater : post.flatMap (·.worker.inHand) = [] := List.flatMap_eq_nil_iff.mpr hafter
    simp [waiting, inHand, hd, hwaiting, hhand, hlater]
  obtain ⟨hwaiting, hhand⟩ := hmiddle c s hsplit
  exact ⟨_, hwaiting, hhand, fun s' ↦ hmiddle _ s' (hput s')⟩

/-- What is put into the queue of the worker on duty is the last that waits. -/
theorem Sound.waiting_accepts (h : c.Sound t id) (hduty : c.onDuty? = some (k, s))
    (config : NetworkConfig) :
    let s' := { s with worker := { s.worker with waiting := s.worker.waiting ++ [config] } }
    (c.put k s').waiting = c.waiting ++ [config] ∧ (c.put k s').inHand = c.inHand := by
  intro s'
  obtain ⟨-, pre, hsplit, hput⟩ := h.exists_split_onDuty hduty
  have hhand : s'.worker.inHand = s.worker.inHand := rfl
  simp [waiting, inHand, hput, hsplit, hhand, s']

/-! ## Queues in order -/

/-- What became of the configurations that came, in order. -/
structure Queues (t : Terms) (id : ContainerId) (called : List NetworkConfig)
    (seen : List Happening) (c : Crew) : Prop where
  offered_eq : offered seen = called
  accepted_eq : accepted seen = taken seen ++ c.waiting
  /-- Each configuration that was taken was reported before the next one was. -/
  jobs_eq : ∃ done : List (NetworkConfig × Report), (∀ d ∈ done, d.2.Answers t id d.1) ∧
    jobs seen = (done.flatMap fun d ↦ [.took d.1, .reported d.2]) ++ c.inHand.map .took
  inHand_length : c.inHand.length ≤ 1
  room : ∀ s ∈ c.stints, s.worker.waiting.length ≤ t.depth

namespace Queues

/-- No worker takes or reports anything, and none gets anything. -/
theorem congr {came : List NetworkConfig} (h : c.Queues t id called seen)
    (hworkers : c'.stints.map (·.worker) = c.stints.map (·.worker)) (hoffered : offered more = came)
    (haccepted : accepted more = []) (htaken : taken more = []) (hjobs : jobs more = []) :
    c'.Queues t id (called ++ came) (seen ++ more) := by
  obtain ⟨hwaiting, hhand⟩ := waiting_congr hworkers
  refine ⟨?_, ?_, ?_, hhand ▸ h.inHand_length, fun s hs ↦ ?_⟩
  · rw [offered_append, hoffered, h.offered_eq]
  · rw [accepted_append, taken_append, haccepted, htaken, hwaiting, List.append_nil,
      List.append_nil, h.accepted_eq]
  · rw [jobs_append, hjobs, List.append_nil, hhand]
    exact h.jobs_eq
  · have hmem : s.worker ∈ c.stints.map (·.worker) := hworkers ▸ List.mem_map_of_mem hs
    obtain ⟨u, hu, heq⟩ := List.mem_map.mp hmem
    rw [← heq]
    exact h.room u hu

theorem append_none (h : c.Queues t id called seen) :
    c.Queues t id (called ++ (none : Option NetworkConfig).toList) seen := by
  rwa [Option.toList_none, List.append_nil]

theorem hire (h : c.Queues t id called seen) (netns : String) :
    (c.hire netns).Queues t id called seen := by
  rw [Crew.hire]
  split
  · exact h
  · refine ⟨h.offered_eq, ?_, ?_, ?_, ?_⟩
    · simpa [waiting] using h.accepted_eq
    · simpa [inHand, Worker.inHand] using h.jobs_eq
    · simpa [inHand, Worker.inHand] using h.inHand_length
    · simpa [or_imp, forall_and] using h.room

theorem release (h : c.Queues t id called seen) : c.release.Queues t id called seen := by
  rw [Crew.release]
  split
  · exact h
  next k s hduty =>
    have hput : (c.put k { s with drain := some .waiting }).stints.map (·.worker) =
        c.stints.map (·.worker) := map_worker_put (onDuty?_eq_some_iff.mp hduty).2 rfl
    have hcongr : Queues t id (called ++ []) (seen ++ [])
        (c.put k { s with drain := some .waiting }) := h.congr hput rfl rfl rfl rfl
    rw [List.append_nil, List.append_nil] at hcongr
    exact ⟨hcongr.offered_eq, hcongr.accepted_eq, hcongr.jobs_eq, hcongr.inHand_length,
      hcongr.room⟩

theorem room_put (h : c.Queues t id called seen) (hroom : s'.worker.waiting.length ≤ t.depth) :
    ∀ u ∈ (c.put k s').stints, u.worker.waiting.length ≤ t.depth := by
  intro u hu
  rcases List.mem_or_eq_of_mem_set hu with hu | rfl
  · exact h.room u hu
  · exact hroom

theorem aside {e : Happening} (h : c.Queues t id called seen) (he : e.IsAside)
    (hwaiting : c'.waiting = c.waiting) (hhand : c'.inHand = c.inHand)
    (hroom : ∀ s ∈ c'.stints, s.worker.waiting.length ≤ t.depth) :
    c'.Queues t id called (seen ++ [e]) := by
  obtain ⟨hacc, hoff, htak, hjob⟩ := eq_nil_of_isAside (List.forall_mem_singleton.mpr he)
  refine ⟨?_, ?_, ?_, hhand ▸ h.inHand_length, hroom⟩
  · rw [offered_append, hoff, List.append_nil, h.offered_eq]
  · rw [accepted_append, taken_append, hacc, htak, hwaiting, List.append_nil, List.append_nil,
      h.accepted_eq]
  · rw [jobs_append, hjob, List.append_nil, hhand]
    exact h.jobs_eq

theorem take {config : NetworkConfig} (h : c.Queues t id called seen) (hhand : c.inHand = [])
    (hwaiting : c.waiting = config :: c'.waiting) (hhand' : c'.inHand = [config])
    (hroom : ∀ s ∈ c'.stints, s.worker.waiting.length ≤ t.depth) :
    c'.Queues t id called (seen ++ [.took config]) := by
  obtain ⟨done, hdone, hjobs⟩ := h.jobs_eq
  refine ⟨?_, ?_, ⟨done, hdone, ?_⟩, ?_, hroom⟩
  · exact (offered_append.trans (List.append_nil _)).trans h.offered_eq
  · have haccepted : accepted (seen ++ [.took config]) = accepted seen :=
      accepted_append.trans (List.append_nil _)
    have htaken : taken (seen ++ [.took config]) = taken seen ++ [config] := taken_append
    rw [haccepted, htaken, h.accepted_eq, hwaiting, List.append_assoc, List.singleton_append]
  · have hjob : jobs (seen ++ [.took config]) = jobs seen ++ [.took config] := jobs_append
    rw [hjob, hjobs, hhand, hhand', List.map_nil, List.append_nil, List.map_singleton]
  · rw [hhand']
    exact Nat.le_refl 1

theorem report {config : NetworkConfig} {r : Report} (h : c.Queues t id called seen)
    (hjob : (Happening.reported r).isOfJob = true) (hanswer : r.Answers t id config)
    (hhand : c.inHand = [config]) (hwaiting : c'.waiting = c.waiting) (hhand' : c'.inHand = [])
    (hroom : ∀ s ∈ c'.stints, s.worker.waiting.length ≤ t.depth) :
    c'.Queues t id called (seen ++ [.reported r]) := by
  obtain ⟨done, hdone, hjobs⟩ := h.jobs_eq
  refine ⟨?_, ?_, ⟨done ++ [(config, r)], ?_, ?_⟩, ?_, hroom⟩
  · exact (offered_append.trans (List.append_nil _)).trans h.offered_eq
  · have haccepted : accepted (seen ++ [.reported r]) = accepted seen :=
      accepted_append.trans (List.append_nil _)
    have htaken : taken (seen ++ [.reported r]) = taken seen :=
      taken_append.trans (List.append_nil _)
    rw [haccepted, htaken, hwaiting, h.accepted_eq]
  · exact List.forall_mem_append.mpr ⟨hdone, List.forall_mem_singleton.mpr hanswer⟩
  · have hlast : jobs [.reported r] = [.reported r] := List.filter_cons_of_pos hjob
    rw [jobs_append, hlast, hjobs, hhand, hhand', List.map_singleton, List.append_assoc]
    simp
  · rw [hhand']
    exact Nat.zero_le 1

/-- A worker goes on: it takes a configuration, reports on one, or does something else. -/
theorem goes {m : Lane.Move} {w : Worker} {e : Happening} (h : c.Queues t id called seen)
    (hsound : c.Sound t id) (hs : c.stints[k]? = some s) (hmay : c.mayBegin s = true)
    (hover : s.isOver = false) (hgoes : s.worker.Goes t id s.drain.isSome m w e) :
    (c.put k { s with worker := w }).Queues t id called (seen ++ [e]) := by
  obtain ⟨later, hwaiting, hhand, hput⟩ := hsound.exists_put_active hs hmay hover
  obtain ⟨hwaiting', hhand'⟩ := hput { s with worker := w }
  have hroom := h.room s (List.mem_of_getElem? hs)
  rcases hgoes.advance.job with ⟨haside, hsame, hkept⟩ | ⟨config, rfl, hnone, hone, htake⟩ |
    ⟨config, r, rfl, hjob, hanswer, hone, hnone, hkept⟩
  · refine h.aside haside ?_ ?_ (h.room_put (hkept ▸ hroom))
    · rw [hwaiting', hkept, hwaiting]
    · rw [hhand', hsame, hhand]
  · rw [htake] at hwaiting hroom
    refine h.take (hhand.trans hnone) ?_ (hhand'.trans hone)
      (h.room_put (Nat.le_of_succ_le hroom))
    rw [hwaiting, hwaiting', List.cons_append]
  · refine h.report hjob hanswer (hhand.trans hone) ?_ (hhand'.trans hnone)
      (h.room_put (hkept ▸ hroom))
    rw [hwaiting', hkept, hwaiting]

theorem accepts (h : c.Queues t id called seen) (hsound : c.Sound t id)
    (hduty : c.onDuty? = some (k, s)) (hroom : s.worker.waiting.length < t.depth)
    (config : NetworkConfig) :
    (c.put k { s with worker := { s.worker with waiting := s.worker.waiting ++ [config] } }).Queues
      t id (called ++ [config]) (seen ++ [.accepted config]) := by
  obtain ⟨hwaiting, hhand⟩ := hsound.waiting_accepts hduty config
  refine ⟨?_, ?_, ?_, hhand ▸ h.inHand_length, h.room_put ?_⟩
  · rw [offered_append, h.offered_eq]
    rfl
  · have haccepted : accepted (seen ++ [.accepted config]) = accepted seen ++ [config] :=
      accepted_append
    have htaken : taken (seen ++ [.accepted config]) = taken seen :=
      taken_append.trans (List.append_nil _)
    rw [haccepted, htaken, hwaiting, h.accepted_eq, List.append_assoc]
  · have hjob : jobs (seen ++ [.accepted config]) = jobs seen :=
      jobs_append.trans (List.append_nil _)
    rw [hjob, hhand]
    exact h.jobs_eq
  · rw [List.length_append]
    exact hroom

/-- **Every shift keeps the queues in order.** -/
theorem shift {config : Option NetworkConfig} (h : c.Queues t id called seen)
    (hsound : c.Sound t id) (hundelivered : ∀ r ∈ c.undelivered, r.isTurnedAway = true)
    (hshift : Shift t id c config more c') :
    c'.Queues t id (called ++ config.toList) (seen ++ more) := by
  cases hshift with
  | goes hs hmay hover hgoes => exact append_none (h.goes hsound hs hmay hover hgoes)
  | ends hs | reports hs | finishes hs => exact h.congr (map_worker_put hs rfl) rfl rfl rfl rfl
  | tidies | notes | handsOver | joins => exact h.congr rfl rfl rfl rfl rfl
  | letsGo =>
    rw [List.append_nil]
    exact append_none h.release
  | hires netns =>
    rw [List.append_nil]
    exact append_none (h.hire netns)
  | accepts config hduty hover hroom => exact h.accepts hsound hduty hroom config
  | turnsAway config note => exact h.congr rfl rfl rfl rfl rfl
  | @delivers i r hr =>
    -- what is delivered is of a configuration that no worker took
    have hjob : (Happening.reported r).isOfJob = false := by
      simp [Happening.isOfJob, hundelivered r (List.mem_of_getElem? hr)]
    exact h.congr rfl rfl rfl rfl (List.filter_cons_of_neg (by simp [hjob]))

end Queues

theorem Shifts.queues (h : Shifts t id {} called seen c) : c.Queues t id called seen := by
  induction h with
  | refl => exact ⟨rfl, rfl, ⟨[], by simp, rfl⟩, Nat.zero_le 1, by simp⟩
  | tail hshifts hshift ih => exact ih.shift hshifts.sound hshifts.tells.turnedAway hshift

theorem IsDone.waiting_eq_nil (h : c.IsDone) (hsound : c.Sound t id) :
    c.waiting = [] ∧ c.inHand = [] := by
  have hnone := h.pending_eq_nil hsound
  rw [pending, List.flatMap_eq_nil_iff] at hnone
  constructor
  · exact List.flatMap_eq_nil_iff.mpr fun s hs ↦ (List.append_eq_nil_iff.mp (hnone s hs)).2
  · exact List.flatMap_eq_nil_iff.mpr fun s hs ↦ (List.append_eq_nil_iff.mp (hnone s hs)).1

/-! ## When there is no room -/

/-- Whether the worker on duty is in the namespace, and as many configurations wait for it as
may. -/
def IsFull (t : Terms) (netns : String) (c : Crew) : Prop :=
  ∃ k s, c.onDuty? = some (k, s) ∧ Path.same s.worker.netns netns = true ∧
    s.worker.waiting.length = t.depth

theorem onDuty?_of_not_stays {netns : String}
    (hstays : ¬∃ k s, c.onDuty? = some (k, s) ∧ Path.same s.worker.netns netns = true) :
    (if c.isToReplace netns then c.release else c).onDuty? = none := by
  split
  next => exact onDuty?_release c
  next hkept =>
    cases hduty : c.onDuty? with
    | none => rfl
    | some duty =>
      refine absurd ⟨duty.1, duty.2, hduty, ?_⟩ hstays
      simp only [isToReplace, hduty, Option.any_some, Bool.or_eq_true, not_or] at hkept
      simpa using hkept.1

/-- A worker stays on duty in its namespace. In any other case a new one is hired, for which nothing
waits. -/
theorem Sound.ensure_cases (h : c.Sound t id) (netns : String) :
    (∃ k s, c.onDuty? = some (k, s) ∧ Path.same s.worker.netns netns = true ∧
      c.ensure netns = c) ∨
    ¬c.IsFull t netns ∧ ∃ k s, (c.ensure netns).onDuty? = some (k, s) ∧ s.isOver = false ∧
      s.worker.waiting = [] := by
  by_cases hstays : ∃ k s, c.onDuty? = some (k, s) ∧ Path.same s.worker.netns netns = true
  · obtain ⟨k, s, hduty, hsame⟩ := hstays
    have hkept : c.isToReplace netns = false := by
      simp [isToReplace, hduty, hsame, h.isOver_of_onDuty hduty]
    exact .inl ⟨k, s, hduty, hsame, by simp [ensure, hkept, Crew.hire, hduty]⟩
  · have hnobody := onDuty?_of_not_stays hstays
    refine .inr ⟨?_, ?_⟩
    · rintro ⟨k, s, hduty, hsame, -⟩
      exact hstays ⟨k, s, hduty, hsame⟩
    · rw [ensure, Crew.hire, hnobody]
      exact ⟨_, _, onDuty?_eq_some_iff.mpr ⟨rfl, List.getElem?_concat_length⟩, rfl, rfl⟩

/-- **A configuration is turned away** just if the worker on duty stays and its queue is full, and
then no worker gets to know of it. -/
theorem Sound.configure_isFull (h : c.Sound t id)
    (hroom : ∀ s ∈ c.stints, s.worker.waiting.length ≤ t.depth) (netns : String)
    (config : NetworkConfig) :
    (.turnedAway config ∈ (c.configure t id netns config).2 ↔ c.IsFull t netns) ∧
      (c.IsFull t netns → (c.configure t id netns config).1 =
        { c.tidy with
          undelivered := c.undelivered ++ [.declined id config (.queueFull t.depth)] }) := by
  have hnote : (.turnedAway config : Happening) ∉ c.tidy.noteReplaced id netns := by
    rw [noteReplaced]
    split <;> simp
  simp only [configure, List.mem_append, hnote, false_or]
  rcases h.tidy.ensure_cases netns with ⟨k, s, hduty, hsame, hstays⟩ |
    ⟨hnot, k, s, hduty, hover, hnil⟩
  · have hfull : c.IsFull t netns ↔ ¬s.worker.waiting.length < t.depth := by
      have hle := hroom s (List.mem_of_getElem? (onDuty?_eq_some_iff.mp hduty).2)
      constructor
      · rintro ⟨k', s', hduty', -, heq⟩
        cases hduty.symm.trans hduty'
        exact Nat.not_lt_of_le (Nat.le_of_eq heq.symm)
      · exact fun hlt ↦ ⟨k, s, hduty, hsame, Nat.le_antisymm hle (Nat.le_of_not_lt hlt)⟩
    rw [hstays, offer, hduty, hfull]
    by_cases hlt : s.worker.waiting.length < t.depth
    · simp [h.tidy.isOver_of_onDuty hduty, hlt]
    · simp [h.tidy.isOver_of_onDuty hduty, hlt, turnAway, Crew.tidy]
  · have hlt : s.worker.waiting.length < t.depth := by
      rw [hnil, Terms.depth]
      exact Nat.lt_of_lt_of_le Nat.one_pos (Nat.le_max_right ..)
    have hnot : ¬c.IsFull t netns := hnot
    rw [offer, hduty]
    simp [hover, hlt, hnot]

end Crew

/-! ## Every run of a staff -/

namespace Staff

variable {s s' : Staff} {events : List Event}

/-- **Configurations are taken in order.** In every run, each configuration that comes with a call
is accepted or turned away, in the order of the calls. Those that were accepted are those that
workers took, one worker after the other, and then those that still wait. Each one that was taken
was reported before the next one was. When all tasks have finished, what was accepted was taken and
reported. A configuration is turned away just if the worker on duty stays and as many wait for it as
may, and then no queue changes. -/
theorem Run.in_order (h : Run t events s) (id : ContainerId) :
    (s.crews id).Queues t id (called id events) (seen id events) ∧
      ((s.crews id).IsDone →
        accepted (seen id events) = taken (seen id events) ∧ (s.crews id).inHand = []) ∧
      ∀ netns config more s', s.Step (.called id (.configure netns config) :: more) s' →
        (.happening id (.turnedAway config) ∈ more ↔ (s.crews id).IsFull t netns) ∧
          ((s.crews id).IsFull t netns → s'.crews id =
            { (s.crews id).tidy with undelivered :=
                (s.crews id).undelivered ++ [.declined id config (.queueFull t.depth)] }) := by
  have hqueues := (h.shifts id).queues
  refine ⟨hqueues, fun hdone ↦ ?_, fun netns config more s' hstep ↦ ?_⟩
  · obtain ⟨hwaiting, hhand⟩ := hdone.waiting_eq_nil (h.sound id)
    have haccepted := hqueues.accepted_eq
    rw [hwaiting, List.append_nil] at haccepted
    exact ⟨haccepted, hhand⟩
  · obtain ⟨happenings, hmove, rfl, -⟩ := hstep.of_call
    rw [h.terms_eq] at hmove
    obtain ⟨-, hmove⟩ := Option.ite_none_right_eq_some.mp hmove
    obtain ⟨hcrew, hseen⟩ := Prod.mk.inj (Option.some.inj hmove)
    have hturned : .happening id (.turnedAway config) ∈ happenings.map (Event.happening id) ↔
        .turnedAway config ∈ happenings := by simp
    rw [hturned, ← hcrew, ← hseen]
    exact (h.sound id).configure_isFull hqueues.room netns config

/-- A configuration finds no room, and the next one is for another namespace. What was accepted is
taken by two workers. -/
theorem Run.in_order_two_namespaces :
    let id : ContainerId := ⟨"web-1", by decide⟩
    let t : Terms := { queueDepth := 1 }
    ∃ events s, Run t events s ∧ (s.crews id).IsDone ∧
      called id events = [.disabled "a", .disabled "b", .disabled "c"] ∧
      accepted (seen id events) = [.disabled "a", .disabled "c"] ∧
      accepted (seen id events) = taken (seen id events) := by
  intro id t
  let first : Stint := { worker := { netns := "/run/netns/a", waiting := [.disabled "a"] } }
  let full : Crew := { stints := [first], onDuty := some 0 }
  let crew : Crew :=
    { stints := [{ first with drain := some .waiting },
        { worker := { netns := "/run/netns/b", waiting := [.disabled "c"] }, after := some 0 }]
      onDuty := some 1
      undelivered := [.declined id (.disabled "b") (.queueFull 1)] }
  let refusing : Crew :=
    { full with undelivered := [.declined id (.disabled "b") (.queueFull 1)] }
  let tasks : List Crew.Move :=
    [.work 0 .advance, .work 0 (.opened (.ok ())), .work 0 .advance, .work 0 .advance,
      .work 0 (.answered (Configurator.holdingOn (.ofOctets 16 0 1 5 16))), .work 0 .advance,
      .drain 0, .drain 0, .work 1 .advance, .work 1 (.opened (.error .closed)), .work 1 .advance,
      .work 1 .advance, .work 1 .advance, .drain 1, .drain 1, .deliver 0]
  have hsame : Path.same first.worker.netns "/run/netns/a" = true := beq_self_eq_true _
  have hother : Path.same first.worker.netns "/run/netns/b" = false := by decide +kernel
  have hstays : full.configure t id "/run/netns/a" (.disabled "b") = (refusing, _) :=
    (Crew.configure_eq_offer (k := 0) (s := first) rfl hsame rfl _).trans rfl
  have hleaves : refusing.configure t id "/run/netns/b" (.disabled "c") =
      (crew, [.noted (Log.info "Replacing unit"
        [("container", id.short), ("netns", "/run/netns/b")]), .accepted (.disabled "c")]) := by
    have hreplace : refusing.tidy.isToReplace "/run/netns/b" = true := by
      simp [Crew.isToReplace, Crew.tidy, Crew.onDuty?, refusing, full, hother]
    rw [Crew.configure, Crew.ensure, Crew.noteReplaced, if_pos hreplace, if_pos hreplace]
    rfl
  have hfirst : Crew.configure {} t id "/run/netns/a" (.disabled "a") =
      (full, [.accepted (.disabled "a")]) := rfl
  have hfull : Run t _ (alone t id false full) :=
    Run.alone_start.alone_call (.configure "/run/netns/a" (.disabled "a")) (congrArg some hfirst)
  have hreplaced : Run t _ (alone t id false crew) :=
    (hfull.alone_call (.configure "/run/netns/a" (.disabled "b"))
      (congrArg some hstays)).alone_call (.configure "/run/netns/b" (.disabled "c"))
        (congrArg some hleaves)
  have hrun : Run t _ (alone t id true crew.shutDown) := hreplaced.alone_shutDown
  have hend : (moveAll (fun c m ↦ Crew.step c t id m) tasks crew.shutDown).any
      (fun x ↦ x.1.stints.all (·.isOver) && x.1.stints.all (·.drain.all (· = .finished)) &&
        x.1.undelivered = [] && accepted x.2 = []) = true := by
    decide +kernel
  obtain ⟨⟨c, happenings⟩, hmoves, hc⟩ := (Option.any_eq_true _ _).mp hend
  have hrun := hrun.alone_tasks (by decide) hmoves
  simp only [Bool.and_eq_true, decide_eq_true_eq, List.all_eq_true, Option.all_eq_true] at hc
  obtain ⟨⟨⟨hover, hdrained⟩, hdelivered⟩, hnone⟩ := hc
  have hdone : ((alone t id true c).crews id).IsDone := by
    rw [alone_crews_self]
    exact ⟨hover, hdrained, hdelivered⟩
  refine ⟨_, _, hrun, hdone, ?_, ?_, ((hrun.in_order id).2.1 hdone).1⟩
  · simp only [called_append, called_cons, called_map]
    rfl
  · simp only [seen_append, seen_called_cons, seen_map, if_true, accepted_append, hnone]
    rfl

end Staff

end ContainerNet.Sidecar
