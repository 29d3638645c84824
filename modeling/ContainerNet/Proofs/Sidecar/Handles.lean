import Mathlib.Tactic.Common
import ContainerNet.Proofs.Sidecar.Shifts

/-!
# What handles keep in order

Tasks may go on at any time, so that the workers of a container do not get in each other's way is
due to the handles alone. `Crew.Sound` says what they guarantee. A worker has not begun as long as
the drain of the one before has not ended, since it holds the handle of that drain
(`Sound.after`). And the drain of the last worker, once there is one, is held by whoever comes next
(`Sound.held`): no handle is overwritten, since the worker on duty has taken the one that there was
(`Sound.onDuty`), and none is thrown away before its drain has ended.

Every shift keeps this (`Sound.shift`), so it is true of a crew at any time (`Shifts.sound`).
-/

namespace ContainerNet.Sidecar

variable {t : Terms} {id : ContainerId}

/-! ## Stints -/

namespace Stint

/-- The worker has done something. -/
def HasBegun (s : Stint) : Prop := s.worker.stage ≠ .fresh ∨ s.isOver = true

/-- The worker was reported as released. -/
def isGone (s : Stint) : Bool := s.drain = some .reported || s.drain = some .finished

/-- The worker was let go and is not reported. -/
def isLeaving (s : Stint) : Bool := s.drain = some .waiting

/-- What is known of a stint by itself: only who was let go can end, and only who has ended is
reported. -/
structure Sound (t : Terms) (id : ContainerId) (s : Stint) : Prop where
  over_of_gone : s.isGone = true → s.isOver = true
  sealed_of_over : s.isOver = true → s.drain.isSome = true
  turn_of_over : s.isOver = true → s.worker.turn t id true = .over
  sealed_of_closing : s.worker.isClosing = true → s.drain.isSome = true
  waiting_of_closing : s.worker.isClosing = true → s.worker.waiting = []

theorem isGone_of_finished {s : Stint} (h : s.drain = some .finished) : s.isGone = true := by
  simp [isGone, h]

theorem Sound.not_gone {s : Stint} (h : s.Sound t id) (hover : s.isOver = false) :
    s.isGone = false := by
  by_contra hgone
  exact absurd (hover.symm.trans (h.over_of_gone (by simpa using hgone))) nofun

theorem Sound.fresh (netns : String) (after : Option Nat) :
    Sound t id { worker := { netns }, after } :=
  ⟨by simp [isGone], by simp, by simp, by simp [Worker.isClosing], fun _ ↦ rfl⟩

end Stint

namespace Crew

variable {c c' : Crew} {k : Nat} {s s' : Stint}

theorem getElem?_append_singleton_iff {l : List Stint} {u : Stint} :
    (l ++ [s])[k]? = some u ↔ l[k]? = some u ∨ (k = l.length ∧ u = s) := by
  rw [List.getElem?_append]
  split
  next hlt =>
    have hne : k ≠ l.length := by omega
    simp [hne]
  next hle =>
    have hnone : l[k]? = none := List.getElem?_eq_none (by omega)
    rw [hnone, List.getElem?_singleton]
    have hk : k - l.length = 0 ↔ k = l.length := by omega
    simp [hk, eq_comm]

/-- What is known of the tasks and handles of a container. -/
structure Sound (t : Terms) (id : ContainerId) (c : Crew) : Prop where
  stint {k : Nat} {s : Stint} : c.stints[k]? = some s → s.Sound t id
  /-- Who is on duty is the last, and all handles were handed on. -/
  onDuty {k : Nat} : c.onDuty = some k →
    k + 1 = c.stints.length ∧ c.draining = none ∧ c.joining = none
  /-- All others were let go. -/
  onDuty_iff {k : Nat} {s : Stint} : c.stints[k]? = some s → (s.drain = none ↔ c.onDuty = some k)
  /-- Whoever comes after a drain that has not ended holds its handle and has not begun. -/
  after {k : Nat} {p s : Stint} : c.stints[k]? = some p → c.stints[k + 1]? = some s →
    p.drain = some .finished ∨ (s.after = some k ∧ ¬s.HasBegun)
  /-- The last drain is held, unless it has ended. -/
  held {k : Nat} {s : Stint} : c.stints[k]? = some s → k + 1 = c.stints.length →
    s.drain = none ∨ s.drain = some .finished ∨ c.draining = some k ∨ c.joining = some k
  /-- The handle that is kept, or that the shutdown waits for, is that of the last drain. -/
  kept {k : Nat} : c.draining = some k ∨ c.joining = some k → k + 1 = c.stints.length
  /-- A worker waits for the one before only. -/
  waits {j k : Nat} {s : Stint} : c.stints[k]? = some s → s.after = some j → j + 1 = k

namespace Sound

theorem empty : Sound t id {} := ⟨nofun, nofun, nofun, nofun, nofun, nofun, nofun⟩

/-- A stint changes that stays on duty or not, and begins only after the one before. -/
theorem put (h : c.Sound t id) (hs : c.stints[k]? = some s) (hsound : s'.Sound t id)
    (hafter : s'.after = s.after) (hdrain : s'.drain = none ↔ s.drain = none)
    (hfinished : s.drain = some .finished → s'.drain = some .finished)
    (hbegun : s'.HasBegun → s.HasBegun ∨ c.mayBegin s = true) : (c.put k s').Sound t id := by
  have hlt : k < c.stints.length := (List.getElem?_eq_some_iff.mp hs).1
  have hget (j : Nat) : (c.put k s').stints[j]? = if k = j then some s' else c.stints[j]? := by
    simp [Crew.put, List.getElem?_set, hlt]
  have hlength : (c.put k s').stints.length = c.stints.length := by simp [Crew.put]
  constructor
  case stint =>
    intro j u hu
    rw [hget] at hu
    split at hu
    · cases hu
      exact hsound
    · exact h.stint hu
  case onDuty =>
    intro j hj
    rw [hlength]
    exact h.onDuty hj
  case onDuty_iff =>
    intro j u hu
    rw [hget] at hu
    split at hu
    next hkj =>
      cases hu
      rw [← hkj]
      exact hdrain.trans (h.onDuty_iff hs)
    · exact h.onDuty_iff hu
  case after =>
    intro j p u hp hu
    rw [hget] at hp hu
    split at hp
    next hkj =>
      cases hp
      cases hkj
      rw [if_neg (by omega)] at hu
      exact (h.after hs hu).imp_left hfinished
    next hkj =>
      split at hu
      next hkj =>
        cases hu
        cases hkj
        rcases h.after hp hs with hfin | ⟨hheld, hnot⟩
        · exact .inl hfin
        · by_cases hbegins : s'.HasBegun
          · -- it may begin, so what it held the handle of has ended
            have hmay := (hbegun hbegins).resolve_left hnot
            rw [mayBegin, hheld] at hmay
            obtain ⟨q, hq, hfin⟩ := isFinished_iff.mp hmay
            cases hp.symm.trans hq
            exact .inl hfin
          · exact .inr ⟨hafter.trans hheld, hbegins⟩
      · exact h.after hp hu
  case held =>
    intro j u hu hj
    rw [hget] at hu
    rw [hlength] at hj
    split at hu
    next hkj =>
      cases hu
      cases hkj
      rcases h.held hs hj with hnone | hfin | hheld
      · exact .inl (hdrain.mpr hnone)
      · exact .inr (.inl (hfinished hfin))
      · exact .inr (.inr hheld)
    · exact h.held hu hj
  case kept =>
    intro j hj
    rw [hlength]
    exact h.kept hj
  case waits =>
    intro i j u hu hi
    rw [hget] at hu
    split at hu
    next hkj =>
      cases hu
      rw [← hkj]
      exact h.waits hs (hafter.symm.trans hi)
    · exact h.waits hu hi

theorem tidy (h : c.Sound t id) : c.tidy.Sound t id := by
  refine { h with onDuty := ?onDuty, held := ?held, kept := ?kept }
  case onDuty =>
    intro k hk
    obtain ⟨hlast, hdraining, hjoining⟩ := h.onDuty hk
    exact ⟨hlast, by simp [Crew.tidy, hdraining], hjoining⟩
  case held =>
    intro k s hs hk
    rcases h.held hs hk with hnone | hfin | hdraining | hjoining
    · exact .inl hnone
    · exact .inr (.inl hfin)
    · by_cases hfin : c.isFinished k = true
      · obtain ⟨s', hs', hfin⟩ := isFinished_iff.mp hfin
        cases hs.symm.trans hs'
        exact .inr (.inl hfin)
      · exact .inr (.inr (.inl (by simp [Crew.tidy, hdraining, hfin])))
    · exact .inr (.inr (.inr hjoining))
  case kept =>
    intro k hk
    exact h.kept (hk.imp_left Option.eq_some_of_filter_eq_some)

theorem onDuty?_eq_none_iff (h : c.Sound t id) : c.onDuty? = none ↔ c.onDuty = none := by
  constructor
  · intro hnone
    by_contra hduty
    obtain ⟨k, hk⟩ := Option.ne_none_iff_exists'.mp hduty
    have hlt : k < c.stints.length := by
      obtain ⟨hlast, -⟩ := h.onDuty hk
      omega
    have hsome := onDuty?_eq_some_iff.mpr ⟨hk, List.getElem?_eq_getElem hlt⟩
    rw [hnone] at hsome
    exact absurd hsome nofun
  · intro hnone
    simp [onDuty?, hnone]

/-- Who is on duty has not ended, since its queue is not sealed. -/
theorem isOver_of_onDuty (h : c.Sound t id) (hduty : c.onDuty? = some (k, s)) :
    s.isOver = false := by
  obtain ⟨hk, hs⟩ := onDuty?_eq_some_iff.mp hduty
  by_contra hover
  have hsealed := (h.stint hs).sealed_of_over (by simpa using hover)
  rw [(h.onDuty_iff hs).mpr hk] at hsealed
  exact absurd hsealed nofun

/-- Who is on duty has not ended, so a configuration is turned away only if the queue is full. -/
theorem eq_queueFull (h : c.Sound t id) (hduty : c.onDuty? = some (k, s)) {why : Failure}
    (hwhy : why = .workerStopped ∧ s.isOver = true ∨ why = .queueFull t.depth) :
    why = .queueFull t.depth := by
  rcases hwhy with ⟨-, hover⟩ | hfull
  · exact absurd ((h.isOver_of_onDuty hduty).symm.trans hover) nofun
  · exact hfull

theorem onDuty_release (h : c.Sound t id) : c.release.onDuty = none := by
  rw [Crew.release]
  split
  next hnone => exact h.onDuty?_eq_none_iff.mp hnone
  next => rfl

/-- Who is let go leaves the handle of its drain. There was none before, so none is overwritten. -/
theorem release (h : c.Sound t id) : c.release.Sound t id := by
  rw [Crew.release]
  split
  · exact h
  next k s hduty =>
    obtain ⟨hk, hs⟩ := onDuty?_eq_some_iff.mp hduty
    obtain ⟨hlast, -, -⟩ := h.onDuty hk
    have hover := h.isOver_of_onDuty hduty
    have hget (j : Nat) : (c.put k { s with drain := some .waiting }).stints[j]? =
        if k = j then some { s with drain := some .waiting } else c.stints[j]? := by
      have hlt : k < c.stints.length := by omega
      simp [Crew.put, List.getElem?_set, hlt]
    constructor
    case onDuty => rintro k ⟨⟩
    case stint =>
      intro j u hu
      rw [hget] at hu
      split at hu
      · cases hu
        exact ⟨by simp [Stint.isGone], by simp, by simp [hover], by simp,
          (h.stint hs).waiting_of_closing⟩
      · exact h.stint hu
    case onDuty_iff =>
      intro j u hu
      rw [hget] at hu
      split at hu
      · cases hu
        simp
      next hkj =>
        rw [h.onDuty_iff hu, hk]
        simpa using hkj
    case after =>
      intro j p u hp hu
      rw [hget] at hp hu
      split at hp
      next hkj =>
        -- nobody comes after the last
        have hlt := (List.getElem?_eq_some_iff.mp ((if_neg (by omega)).symm.trans hu)).1
        omega
      next hkj =>
        split at hu
        next hkj =>
          cases hu
          cases hkj
          have hafter := h.after hp hs
          exact hafter
        · exact h.after hp hu
    case held =>
      intro j u hu hj
      have hkj : k = j := by
        simp only [Crew.put, List.length_set] at hj
        omega
      exact .inr (.inr (.inl (by rw [hkj])))
    case kept =>
      rintro j (⟨⟨⟩⟩ | hj)
      · simpa [Crew.put] using hlast
      · simpa [Crew.put] using h.kept (.inr hj)
    case waits =>
      intro i j u hu hi
      rw [hget] at hu
      split at hu
      next hkj =>
        cases hu
        rw [← hkj]
        exact h.waits hs hi
      · exact h.waits hu hi

theorem hire (h : c.Sound t id) (hjoining : c.joining = none) (netns : String) :
    (c.hire netns).Sound t id := by
  rw [Crew.hire]
  split
  · exact h
  next hduty =>
    rw [h.onDuty?_eq_none_iff] at hduty
    have hold {j : Nat} {u : Stint} (hu : c.stints[j]? = some u) : u.drain ≠ none := by
      rw [Ne, h.onDuty_iff hu, hduty]
      exact (Option.some_ne_none j).symm
    constructor
    case stint =>
      intro j u hu
      rcases getElem?_append_singleton_iff.mp hu with hu | ⟨-, rfl⟩
      · exact h.stint hu
      · exact .fresh netns c.draining
    case onDuty =>
      rintro k ⟨⟩
      exact ⟨by simp, rfl, hjoining⟩
    case onDuty_iff =>
      intro j u hu
      rcases getElem?_append_singleton_iff.mp hu with hu | ⟨rfl, rfl⟩
      · have hlt := (List.getElem?_eq_some_iff.mp hu).1
        have hne : c.stints.length ≠ j := by omega
        simp [hold hu, hne]
      · simp
    case after =>
      intro j p u hp hu
      rcases getElem?_append_singleton_iff.mp hu with hu | ⟨hj, rfl⟩
      · refine h.after ?_ hu
        have hlt := (List.getElem?_eq_some_iff.mp hu).1
        exact (getElem?_append_singleton_iff.mp hp).resolve_right fun hlast ↦ by omega
      · have hp := (getElem?_append_singleton_iff.mp hp).resolve_right fun hlast ↦ by omega
        rcases h.held hp hj with hnone | hfin | hdraining | hheld
        · exact absurd hnone (hold hp)
        · exact .inl hfin
        · exact .inr ⟨hdraining, by simp [Stint.HasBegun]⟩
        · rw [hjoining] at hheld
          cases hheld
    case held =>
      intro j u hu hj
      rcases getElem?_append_singleton_iff.mp hu with hu | ⟨-, rfl⟩
      · have hlt := (List.getElem?_eq_some_iff.mp hu).1
        rw [List.length_append, List.length_singleton] at hj
        omega
      · exact .inl rfl
    case kept =>
      rintro j (⟨⟨⟩⟩ | hj)
      cases hjoining.symm.trans hj
    case waits =>
      intro i j u hu hi
      rcases getElem?_append_singleton_iff.mp hu with hu | ⟨rfl, rfl⟩
      · exact h.waits hu hi
      · exact h.kept (.inl hi)

theorem undelivered (h : c.Sound t id) (undelivered : List Report) :
    Sound t id { c with undelivered } :=
  ⟨h.stint, h.onDuty, h.onDuty_iff, h.after, h.held, h.kept, h.waits⟩

theorem handOver (h : c.Sound t id) (hduty : c.onDuty = none) (hjoining : c.joining = none) :
    Sound t id { c with draining := none, joining := c.draining } := by
  refine { h with onDuty := ?onDuty, held := ?held, kept := ?kept }
  case onDuty =>
    intro k hk
    exact absurd (hduty.symm.trans hk) nofun
  case held =>
    intro k s hs hk
    rcases h.held hs hk with hnone | hfin | hdraining | hheld
    · exact .inl hnone
    · exact .inr (.inl hfin)
    · exact .inr (.inr (.inr hdraining))
    · exact absurd (hjoining.symm.trans hheld) nofun
  case kept =>
    rintro k (⟨⟨⟩⟩ | hk)
    exact h.kept (.inl hk)

theorem join (h : c.Sound t id) (hfin : c.joining.any c.isFinished = true) :
    Sound t id { c with joining := none } := by
  refine { h with onDuty := ?onDuty, held := ?held, kept := ?kept }
  case onDuty =>
    intro k hk
    obtain ⟨hlast, hdraining, -⟩ := h.onDuty hk
    exact ⟨hlast, hdraining, rfl⟩
  case held =>
    intro k s hs hk
    rcases h.held hs hk with hnone | hended | hdraining | hheld
    · exact .inl hnone
    · exact .inr (.inl hended)
    · exact .inr (.inr (.inl hdraining))
    · rw [hheld] at hfin
      obtain ⟨s', hs', hended⟩ := isFinished_iff.mp hfin
      cases hs.symm.trans hs'
      exact .inr (.inl hended)
  case kept =>
    rintro k (hk | ⟨⟨⟩⟩)
    exact h.kept (.inl hk)

/-- A worker goes on. It stays on duty or not, and only who was let go gives its namespace back. -/
theorem goes {m : Lane.Move} {w : Worker} {e : Happening} (h : c.Sound t id)
    (hs : c.stints[k]? = some s) (hmay : c.mayBegin s = true) (hover : s.isOver = false)
    (hgoes : s.worker.Goes t id s.drain.isSome m w e) :
    (c.put k { s with worker := w }).Sound t id := by
  have hstint := h.stint hs
  have hnot {P : Prop} (hyes : s.isOver = true) : P := absurd (hover.symm.trans hyes) nofun
  refine h.put hs ⟨hstint.over_of_gone, hnot, hnot, fun hclosing ↦ ?_,
    hgoes.advance.waiting_eq_nil hstint.waiting_of_closing⟩ rfl Iff.rfl (fun hfin ↦ hfin)
    fun _ ↦ .inr hmay
  by_contra hsealed
  rw [Bool.not_eq_true] at hsealed
  have hadvance := hgoes.advance
  rw [hsealed] at hadvance
  have hwas : s.worker.isClosing = false := by
    by_contra hwas
    exact absurd (hsealed.symm.trans (hstint.sealed_of_closing (by simpa using hwas))) nofun
  exact absurd ((hadvance.isClosing_eq hwas).symm.trans hclosing) nofun

/-- A worker ends. It was let go, since else its queue would not be sealed. -/
theorem ends (h : c.Sound t id) (hs : c.stints[k]? = some s) (hmay : c.mayBegin s = true)
    (hturn : s.worker.turn t id s.drain.isSome = .over) :
    (c.put k { s with isOver := true }).Sound t id := by
  have hstint := h.stint hs
  have hsealed : s.drain.isSome = true := by
    rcases Worker.stage_of_over hturn with
      ⟨_, -, -, hsealed⟩ | ⟨_, _, -, -, hsealed, -⟩ | ⟨_, hstage⟩
    · exact hsealed
    · exact hsealed
    · exact hstint.sealed_of_closing (by rw [Worker.isClosing, hstage])
  rw [hsealed] at hturn
  exact h.put hs ⟨fun _ ↦ rfl, fun _ ↦ hsealed, fun _ ↦ hturn, hstint.sealed_of_closing,
    hstint.waiting_of_closing⟩ rfl Iff.rfl (fun hfin ↦ hfin) fun _ ↦ .inr hmay

theorem drains {d d' : Drain} (h : c.Sound t id) (hs : c.stints[k]? = some s)
    (hdrain : s.drain = some d) (hfin : d ≠ .finished) (hover : s.isOver = true) :
    (c.put k { s with drain := some d' }).Sound t id :=
  h.put hs ⟨fun _ ↦ hover, fun _ ↦ rfl, (h.stint hs).turn_of_over, fun _ ↦ rfl,
    (h.stint hs).waiting_of_closing⟩ rfl (by simp [hdrain]) (by simp [hdrain, hfin]) .inl

theorem accepts {waiting : List NetworkConfig} (h : c.Sound t id)
    (hduty : c.onDuty? = some (k, s)) :
    (c.put k { s with worker := { s.worker with waiting } }).Sound t id := by
  obtain ⟨hk, hs⟩ := onDuty?_eq_some_iff.mp hduty
  have hstint := h.stint hs
  have hover := h.isOver_of_onDuty hduty
  have hnot {P : Prop} (hyes : s.isOver = true) : P := absurd (hover.symm.trans hyes) nofun
  have hnone := (h.onDuty_iff hs).mpr hk
  refine h.put hs ⟨hstint.over_of_gone, hnot, hnot, hstint.sealed_of_closing, fun hclosing ↦ ?_⟩ rfl
    Iff.rfl (fun hfin ↦ hfin) .inl
  exact absurd (hstint.sealed_of_closing hclosing) (by simp [hnone])

/-- **Every shift keeps the order of handles.** -/
theorem shift {config : Option NetworkConfig} {seen : List Happening} (h : c.Sound t id)
    (hshift : Shift t id c config seen c') : c'.Sound t id := by
  cases hshift with
  | goes hs hmay hover hgoes => exact h.goes hs hmay hover hgoes
  | ends hs hmay _ hturn => exact h.ends hs hmay hturn
  | reports hs hdrain hover => exact h.drains hs hdrain nofun hover
  | finishes hs hdrain =>
    exact h.drains hs hdrain nofun ((h.stint hs).over_of_gone (by simp [Stint.isGone, hdrain]))
  | tidies => exact h.tidy
  | notes => exact h
  | letsGo => exact h.release
  | hires netns _ hjoining => exact h.hire hjoining netns
  | accepts _ hduty => exact h.accepts hduty
  | turnsAway | delivers => exact h.undelivered _
  | handsOver hduty hjoining => exact h.handOver (h.onDuty?_eq_none_iff.mp hduty) hjoining
  | joins hfin => exact h.join hfin

/-! ## What handles are for -/

/-- If a worker has begun, or may begin, the drains of all before it have ended. -/
theorem finished_of_lt (h : c.Sound t id) (hs : c.stints[k]? = some s)
    (hmay : s.HasBegun ∨ c.mayBegin s = true) {j : Nat} {p : Stint} (hj : j < k)
    (hp : c.stints[j]? = some p) : p.drain = some .finished := by
  induction k generalizing s with
  | zero => exact absurd hj (Nat.not_lt_zero j)
  | succ k ih =>
    have hlt := (List.getElem?_eq_some_iff.mp hs).1
    obtain ⟨q, hq⟩ : ∃ q, c.stints[k]? = some q :=
      ⟨_, List.getElem?_eq_getElem (Nat.lt_of_succ_lt hlt)⟩
    have hfin : q.drain = some .finished := by
      rcases h.after hq hs with hfin | ⟨hafter, hnot⟩
      · exact hfin
      · have hbegin := hmay.resolve_left hnot
        rw [mayBegin, hafter] at hbegin
        obtain ⟨q', hq', hfin⟩ := isFinished_iff.mp hbegin
        cases hq.symm.trans hq'
        exact hfin
    rcases Nat.lt_succ_iff_lt_or_eq.mp hj with hjk | rfl
    · -- the one before has ended, so it has begun
      have hover := (h.stint hq).over_of_gone (Stint.isGone_of_finished hfin)
      exact ih hq (.inl (.inr hover)) hjk
    · cases hq.symm.trans hp
      exact hfin

/-- Nobody has begun who comes after a drain that has not ended. -/
theorem not_begun (h : c.Sound t id) (hs : c.stints[k]? = some s)
    (hfin : s.drain ≠ some .finished) {j : Nat} {u : Stint} (hj : k < j)
    (hu : c.stints[j]? = some u) : ¬u.HasBegun :=
  fun hbegun ↦ hfin (h.finished_of_lt hu (.inl hbegun) hj hs)

/-- If nobody is on duty and no handle is left, all workers have ended, and their drains too. -/
theorem finished_of_idle (h : c.Sound t id) (hduty : c.onDuty = none)
    (hdraining : c.draining = none) (hjoining : c.joining = none) (hs : c.stints[k]? = some s) :
    s.isOver = true ∧ s.drain = some .finished := by
  have hover {j : Nat} {u : Stint} (hu : c.stints[j]? = some u) (hfin : u.drain = some .finished) :
      u.isOver = true := (h.stint hu).over_of_gone (Stint.isGone_of_finished hfin)
  have hlt : k < c.stints.length := (List.getElem?_eq_some_iff.mp hs).1
  obtain ⟨last, hlast⟩ : ∃ last, c.stints[c.stints.length - 1]? = some last :=
    ⟨_, List.getElem?_eq_getElem (by omega)⟩
  have hfin : last.drain = some .finished := by
    rcases h.held hlast (by omega) with hnone | hfin | hheld | hheld
    · exact absurd (hduty.symm.trans ((h.onDuty_iff hlast).mp hnone)) nofun
    · exact hfin
    · exact absurd (hdraining.symm.trans hheld) nofun
    · exact absurd (hjoining.symm.trans hheld) nofun
  rcases Nat.lt_or_eq_of_le (Nat.le_sub_one_of_lt hlt) with hbefore | rfl
  · have hfin := h.finished_of_lt hlast (.inl (.inr (hover hlast hfin))) hbefore hs
    exact ⟨hover hs hfin, hfin⟩
  · cases hs.symm.trans hlast
    exact ⟨hover hs hfin, hfin⟩

end Sound

theorem Sound.shifts {called : List NetworkConfig} {seen : List Happening} (h : c.Sound t id)
    (hshifts : Shifts t id c called seen c') : c'.Sound t id := by
  induction hshifts with
  | refl => exact h
  | tail _ hshift ih => exact ih.shift hshift

theorem Shifts.sound {called : List NetworkConfig} {seen : List Happening}
    (h : Shifts t id {} called seen c) : c.Sound t id :=
  Sound.empty.shifts h

end Crew

end ContainerNet.Sidecar
