import ContainerNet.Proofs.Sidecar.Staffs

/-!
# A shutdown never gets stuck

Workers wait for drains, drains wait for workers, and a shutdown waits for drains. None of them
waits in vain: at any time in a shutdown something can go on, whatever the world answers
(`Staff.Run.exists_step_of_stopping`). A worker that was let go has a turn until it is over, so the
first drain that has not ended is not waited for by itself. Outside of a shutdown every call can be
made (`Staff.Run.exists_step_of_call`).

The order of the stints is what rules out a circle. A worker waits for the drain of the one before
it only, and a drain for its own worker, so among the drains that have not ended the first one has
nobody to wait for but its worker, and that one may go on.
-/

namespace ContainerNet.Sidecar

variable {t : Terms} {id : ContainerId}

theorem Worker.turn_ne_idle (w : Worker) : w.turn t id true ≠ .idle := by
  have hclose (work : Action Configurator) : w.close work ≠ .idle := by
    cases work <;> exact nofun
  obtain ⟨netns, waiting, stage⟩ := w
  cases stage with
  | fresh | opening => exact nofun
  | refused why inHand => cases inHand <;> cases waiting <;> exact nofun
  | ready c =>
    cases waiting with
    | nil => exact hclose c.close
    | cons => exact nofun
  | busy config work => cases work <;> exact nofun
  | closing work => exact hclose work

/-- Whatever the world answers, a worker that was let go goes on until it is over. -/
theorem Worker.over_or_exists_goes (w : Worker) (result : Outcome Unit)
    (answer : (q : Effect) → q.Answer) :
    w.turn t id true = .over ∨ ∃ m w' e, w.Goes t id true m w' e := by
  cases hturn : w.turn t id true with
  | idle => exact absurd hturn w.turn_ne_idle
  | begins next => exact .inr ⟨_, _, _, .begins hturn⟩
  | opens netns next => exact .inr ⟨_, _, _, .opens result hturn⟩
  | takes config next => exact .inr ⟨_, _, _, .takes hturn⟩
  | acts q next => exact .inr ⟨_, _, _, .acts answer hturn⟩
  | reports r next => exact .inr ⟨_, _, _, .reports hturn⟩
  | _ => exact .inl rfl

namespace Crew.Sound

variable {c : Crew} {k : Nat} {s : Stint}

theorem exists_task_of_mayBegin (hs : c.stints[k]? = some s) (hmay : c.mayBegin s = true)
    (hsealed : s.drain ≠ none) (hfin : s.drain ≠ some .finished) (result : Outcome Unit)
    (answer : (q : Effect) → q.Answer) :
    ∃ m, m.isOfTask = true ∧ (c.step t id m).isSome = true := by
  have hmove {step : Stint → Option (Stint × List Happening)} (hstep : (step s).isSome = true) :
      (c.move k step).isSome = true := by
    obtain ⟨⟨s', seen⟩, hstep⟩ := Option.isSome_iff_exists.mp hstep
    rw [move_eq_some_iff.mpr ⟨s, s', hs, hstep, rfl⟩]
    rfl
  obtain ⟨d, hdrain⟩ := Option.ne_none_iff_exists'.mp hsealed
  cases d with
  | finished => exact absurd hdrain hfin
  | reported => exact ⟨.drain k, rfl, hmove (by simp [Stint.stepDrain, hdrain])⟩
  | waiting =>
    cases hover : s.isOver with
    | true => exact ⟨.drain k, rfl, hmove (by simp [Stint.stepDrain, hdrain, hover])⟩
    | false =>
      have hseals : s.drain.isSome = true := by rw [hdrain]; rfl
      obtain ⟨m, s', seen, hstep⟩ : ∃ m s' seen, s.step t id m = some (s', seen) := by
        rcases s.worker.over_or_exists_goes (t := t) result answer with hturn | ⟨m, w, e, hgoes⟩
        · refine ⟨.advance, _, _, Stint.step_eq_some_iff.mpr ⟨hover, .inl ⟨?_, rfl, rfl, rfl⟩⟩⟩
          rwa [hseals]
        · refine ⟨m, _, _, Stint.step_eq_some_iff.mpr ⟨hover, .inr ⟨w, e, ?_, rfl, rfl⟩⟩⟩
          rwa [hseals]
      exact ⟨.work k m, rfl, hmove (by rw [if_pos hmay, hstep]; rfl)⟩

/-- As long as a drain has not ended, something can go on. -/
theorem exists_task (h : c.Sound t id) (hs : c.stints[k]? = some s) (hsealed : s.drain ≠ none)
    (hfin : s.drain ≠ some .finished) (result : Outcome Unit)
    (answer : (q : Effect) → q.Answer) :
    ∃ m, m.isOfTask = true ∧ (c.step t id m).isSome = true := by
  -- on the position: whoever waits does so for the one right before, and the first waits for none
  induction k generalizing s with
  | zero =>
    have hmay : c.mayBegin s = true := by
      cases hafter : s.after with
      | none => rw [mayBegin, hafter]; rfl
      | some j => exact absurd (h.waits hs hafter) (Nat.succ_ne_zero j)
    exact exists_task_of_mayBegin hs hmay hsealed hfin result answer
  | succ k ih =>
    by_cases hmay : c.mayBegin s = true
    · exact exists_task_of_mayBegin hs hmay hsealed hfin result answer
    · -- the worker waits for the drain before, which has not ended
      have hlt := (List.getElem?_eq_some_iff.mp hs).1
      obtain ⟨p, hp⟩ : ∃ p, c.stints[k]? = some p := ⟨_, List.getElem?_eq_getElem (by omega)⟩
      refine ih hp ?_ fun hended ↦ hmay ?_
      · rw [Ne, h.onDuty_iff hp]
        intro hduty
        have hlast := (h.onDuty hduty).1
        omega
      · cases hafter : s.after with
        | none => rw [mayBegin, hafter]; rfl
        | some j =>
          have hj : j = k := by
            have hjk := h.waits hs hafter
            omega
          rw [mayBegin, hafter, hj]
          exact isFinished_iff.mpr ⟨p, hp, hended⟩

end Crew.Sound

namespace Staff

variable {s : Staff} {events : List Event}

/-- **A shutdown never gets stuck.** At any time in a shutdown something can go on, or the shutdown
is through. -/
theorem Run.exists_step_of_stopping (h : Run t events s) (hstopping : s.isStopping = true)
    (result : Outcome Unit) (answer : (q : Effect) → q.Answer) : ∃ more s', s.Step more s' := by
  by_cases hjoined : ∀ id, (s.crews id).joining = none
  · exact ⟨_, _, .stopped hstopping hjoined⟩
  · obtain ⟨id, hid⟩ := not_forall.mp hjoined
    obtain ⟨k, hk⟩ := Option.ne_none_iff_exists'.mp hid
    obtain rfl := h.terms_eq
    have hsound := h.sound id
    have hlast := hsound.kept (.inr hk)
    obtain ⟨st, hst⟩ : ∃ st, (s.crews id).stints[k]? = some st :=
      ⟨_, List.getElem?_eq_getElem (by omega)⟩
    have hduty : (s.crews id).onDuty = none ∧ (s.crews id).draining = none := by
      simpa [HoldsHandles, hstopping] using h.shifts_and_handles.2 id
    by_cases hfin : st.drain = some .finished
    · have hended : (s.crews id).joining.any (s.crews id).isFinished = true := by
        rw [hk]
        exact Crew.isFinished_iff.mpr ⟨st, hst, hfin⟩
      exact ⟨_, _, .join hstopping (if_pos hended)⟩
    · have hsealed : st.drain ≠ none := by
        rw [Ne, hsound.onDuty_iff hst, hduty.1]
        exact (Option.some_ne_none k).symm
      obtain ⟨m, htask, hstep⟩ := hsound.exists_task hst hsealed hfin result answer
      obtain ⟨⟨c, happenings⟩, hstep⟩ := Option.isSome_iff_exists.mp hstep
      exact ⟨_, _, .task htask hstep⟩

/-- Outside of a shutdown every call can be made. -/
theorem Run.exists_step_of_call (h : Run t events s) (hrun : s.isStopping = false)
    (id : ContainerId) (call : Call) : ∃ more s', s.Step (.called id call :: more) s' := by
  have hjoining : (s.crews id).joining = none := by
    simpa [HoldsHandles, hrun] using h.shifts_and_handles.2 id
  cases call with
  | configure netns config => exact ⟨_, _, .configure hrun (if_pos (by simp [hjoining]))⟩
  | release => exact ⟨_, _, .release hrun (if_pos (by simp [hjoining]))⟩

end Staff

end ContainerNet.Sidecar
