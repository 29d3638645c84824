import ContainerNet.Proofs.Sidecar.Turns

/-!
# Shifts

A move of a crew is a few small ones, its shifts: to configure is to throw an old handle away, to
let a worker go, to hire one, and to put the configuration into its queue. `Crew.Shift` says all
that can happen in one of them, and under which conditions. Every move consists of shifts
(`Crew.shifts_of_step`), so what all shifts keep is true of a crew at any time.

A shift names the stint that it changes, what is seen of it, and the configuration that comes in
with it, if one does. It carries the conditions under which a move makes it: nobody is hired while
somebody is on duty, and nobody is reported as released who has not ended. An invariant is shown for
each kind of shift under these conditions, and never for a whole move. The configurations that come
in are listed apart from what is seen, since they come with calls and no task makes one.
-/

namespace ContainerNet.Sidecar

/-- The configuration that comes with a call. -/
@[simp] def Call.config? : Call → Option NetworkConfig
  | .configure _ config => some config
  | .release => none

namespace Crew

variable {t : Terms} {id : ContainerId} {c c' : Crew} {k : Nat} {s s' : Stint}
  {seen : List Happening}

/-- The configuration that comes with a move. -/
@[simp] def Move.config? : Move → Option NetworkConfig
  | .call what => what.config?
  | _ => none

/-- Configurations come with calls, and no task makes one. -/
theorem config?_of_task {m : Move} (htask : m.isOfTask = true) : m.config? = none := by
  cases m with
  | work | drain | deliver => rfl
  | call | tidy | shutDown | join => exact absurd htask nofun

/-- What can happen to a crew at once: the configuration that comes with it, what is seen of it, and
the crew afterwards. -/
inductive Shift (t : Terms) (id : ContainerId) (c : Crew) :
    Option NetworkConfig → List Happening → Crew → Prop
  | goes {k : Nat} {s : Stint} {m : Lane.Move} {w : Worker} {e : Happening} :
    c.stints[k]? = some s → c.mayBegin s = true → s.isOver = false →
      s.worker.Goes t id s.drain.isSome m w e →
      Shift t id c none [e] (c.put k { s with worker := w })
  | ends {k : Nat} {s : Stint} : c.stints[k]? = some s → c.mayBegin s = true → s.isOver = false →
    s.worker.turn t id s.drain.isSome = .over →
      Shift t id c none [] (c.put k { s with isOver := true })
  | reports {k : Nat} {s : Stint} : c.stints[k]? = some s → s.drain = some .waiting →
    s.isOver = true → Shift t id c none [.reported (.released id)]
      (c.put k { s with drain := some .reported })
  | finishes {k : Nat} {s : Stint} : c.stints[k]? = some s → s.drain = some .reported →
    Shift t id c none [] (c.put k { s with drain := some .finished })
  | tidies : Shift t id c none [] c.tidy
  | notes (entry : Log.Entry) : Shift t id c none [.noted entry] c
  | letsGo {k : Nat} {s : Stint} : c.onDuty? = some (k, s) → Shift t id c none [] c.release
  | hires (netns : String) : c.onDuty? = none → c.joining = none →
    Shift t id c none [] (c.hire netns)
  | accepts {k : Nat} {s : Stint} (config : NetworkConfig) : c.onDuty? = some (k, s) →
    s.isOver = false → s.worker.waiting.length < t.depth →
    Shift t id c (some config) [.accepted config]
      (c.put k { s with worker := { s.worker with waiting := s.worker.waiting ++ [config] } })
  | turnsAway {k : Nat} {s : Stint} {why : Failure} (config : NetworkConfig) (note : Log.Entry) :
    c.onDuty? = some (k, s) → (why = .workerStopped ∧ s.isOver = true ∨ why = .queueFull t.depth) →
      Shift t id c (some config) [.noted note, .turnedAway config]
        { c with undelivered := c.undelivered ++ [.declined id config why] }
  | delivers {i : Nat} {r : Report} : c.undelivered[i]? = some r →
    Shift t id c none [.reported r] { c with undelivered := c.undelivered.eraseIdx i }
  | handsOver : c.onDuty? = none → c.joining = none →
    Shift t id c none [] { c with draining := none, joining := c.draining }
  | joins : c.joining.any c.isFinished = true → Shift t id c none [] { c with joining := none }

/-- One shift after the other. -/
inductive Shifts (t : Terms) (id : ContainerId) (c : Crew) :
    List NetworkConfig → List Happening → Crew → Prop
  | refl : Shifts t id c [] [] c
  | tail {called : List NetworkConfig} {seen more : List Happening} {config : Option NetworkConfig}
      {c' c'' : Crew} : Shifts t id c called seen c' → Shift t id c' config more c'' →
    Shifts t id c (called ++ config.toList) (seen ++ more) c''

namespace Shifts

variable {c'' : Crew} {called more : List NetworkConfig} {seen' : List Happening}

theorem single {config : Option NetworkConfig} (h : Shift t id c config seen c') :
    Shifts t id c config.toList seen c' := .tail .refl h

theorem trans (h : Shifts t id c called seen c') (h' : Shifts t id c' more seen' c'') :
    Shifts t id c (called ++ more) (seen ++ seen') c'' := by
  induction h' with
  | refl => simpa using h
  | tail _ hshift ih =>
    rw [← List.append_assoc, ← List.append_assoc]
    exact ih.tail hshift

end Shifts

/-! ## Every move consists of shifts -/

theorem onDuty?_eq_some_iff :
    c.onDuty? = some (k, s) ↔ c.onDuty = some k ∧ c.stints[k]? = some s := by
  simp [onDuty?, Option.bind_eq_some_iff]

theorem isFinished_iff :
    c.isFinished k = true ↔ ∃ s, c.stints[k]? = some s ∧ s.drain = some .finished := by
  simp [isFinished, Option.any_eq_true]

theorem exists_split (hs : c.stints[k]? = some s) :
    ∃ pre post, pre.length = k ∧ c.stints = pre ++ s :: post ∧
      ∀ s', (c.put k s').stints = pre ++ s' :: post := by
  obtain ⟨hlt, hget⟩ := List.getElem?_eq_some_iff.mp hs
  obtain ⟨pre, post, hsplit, hlength, -⟩ := @List.exists_of_set _ k s c.stints hlt
  rw [hget] at hsplit
  refine ⟨pre, post, hlength, hsplit, fun s' ↦ ?_⟩
  rw [put, hsplit, ← hlength]
  simp

theorem move_eq_some_iff {step : Stint → Option (Stint × List Happening)} :
    c.move k step = some (c', seen) ↔
      ∃ s s', c.stints[k]? = some s ∧ step s = some (s', seen) ∧ c' = c.put k s' := by
  simp only [move, Option.bind_eq_bind, Option.bind_eq_some_iff, Prod.exists, Option.pure_def,
    Option.some.injEq, Prod.mk.injEq]
  constructor
  · rintro ⟨s, hs, s', seen', hstep, rfl, rfl⟩
    exact ⟨s, s', hs, hstep, rfl⟩
  · rintro ⟨s, s', hs, hstep, rfl⟩
    exact ⟨s, hs, s', seen, hstep, rfl, rfl⟩

theorem onDuty?_release (c : Crew) : c.release.onDuty? = none := by
  rw [release]
  split
  next hnone => exact hnone
  next => rfl

@[simp] theorem joining_release (c : Crew) : c.release.joining = c.joining := by
  rw [release]
  split <;> rfl

theorem joining_configure (t : Terms) (id : ContainerId) (c : Crew) (netns : String)
    (config : NetworkConfig) :
    (c.configure t id netns config).1.joining = c.joining := by
  have hhire (c : Crew) : (c.hire netns).joining = c.joining := by
    rw [hire]
    split <;> rfl
  have hensure (c : Crew) : (c.ensure netns).joining = c.joining := by
    rw [ensure, hhire]
    split
    · exact joining_release c
    · rfl
  have hoffer (c : Crew) : (c.offer t id config).1.joining = c.joining := by
    rw [offer]
    split
    · rfl
    · dsimp only
      repeat' split
      all_goals rfl
  exact (hoffer _).trans (hensure _)

theorem exists_onDuty?_hire (c : Crew) (netns : String) :
    ∃ k s, (c.hire netns).onDuty? = some (k, s) := by
  rw [hire]
  split
  next duty hduty => exact ⟨duty.1, duty.2, hduty⟩
  next =>
    exact ⟨c.stints.length, _, onDuty?_eq_some_iff.mpr ⟨rfl, List.getElem?_concat_length⟩⟩

theorem shifts_release (c : Crew) : Shifts t id c [] [] c.release := by
  cases hduty : c.onDuty? with
  | none =>
    rw [release, hduty]
    exact .refl
  | some duty => exact .single (.letsGo hduty)

theorem shifts_hire (hjoining : c.joining = none) (netns : String) :
    Shifts t id c [] [] (c.hire netns) := by
  cases hduty : c.onDuty? with
  | none => exact .single (.hires netns hduty hjoining)
  | some duty =>
    rw [hire, hduty]
    exact .refl

theorem shifts_ensure (hjoining : c.joining = none) (netns : String) :
    Shifts t id c [] [] (c.ensure netns) := by
  rw [ensure]
  split
  · exact (shifts_release c).trans (shifts_hire (by simpa using hjoining) netns)
  · exact shifts_hire hjoining netns

theorem shifts_noteReplaced (c : Crew) (netns : String) :
    Shifts t id c [] (c.noteReplaced id netns) c := by
  rw [noteReplaced]
  split
  · exact .single (.notes _)
  · exact .refl

theorem shift_offer (hduty : c.onDuty? = some (k, s)) (config : NetworkConfig) :
    Shift t id c (some config) (c.offer t id config).2 (c.offer t id config).1 := by
  rw [offer, hduty]
  dsimp only
  split
  next hover => exact .turnsAway config _ hduty (.inl ⟨rfl, hover⟩)
  next hover =>
    split
    next hroom => exact .accepts config hduty (by simpa using hover) hroom
    next => exact .turnsAway config _ hduty (.inr rfl)

theorem shifts_configure (hjoining : c.joining = none) (netns : String) (config : NetworkConfig) :
    Shifts t id c [config] (c.configure t id netns config).2
      (c.configure t id netns config).1 := by
  obtain ⟨k, s, hduty⟩ : ∃ k s, (c.tidy.ensure netns).onDuty? = some (k, s) :=
    exists_onDuty?_hire _ netns
  have htidy : Shifts t id c [] [] c.tidy := .single .tidies
  have hnote := htidy.trans (shifts_noteReplaced c.tidy netns)
  have hensure := hnote.trans (shifts_ensure (c := c.tidy) hjoining netns)
  simpa [configure] using hensure.tail (shift_offer hduty config)

/-- **What a move can do.** -/
theorem shifts_of_step {m : Move} (hstep : c.step t id m = some (c', seen)) :
    Shifts t id c m.config?.toList seen c' := by
  cases m with
  | call call =>
    cases call with
    | configure netns config =>
      obtain ⟨hjoining, hstep⟩ := Option.ite_none_right_eq_some.mp hstep
      cases hstep
      exact shifts_configure (by simpa using hjoining) netns config
    | release =>
      obtain ⟨-, hstep⟩ := Option.ite_none_right_eq_some.mp hstep
      cases hstep
      exact shifts_release c
  | tidy =>
    cases hstep
    exact .single .tidies
  | shutDown =>
    obtain ⟨hjoining, hstep⟩ := Option.ite_none_right_eq_some.mp hstep
    cases hstep
    exact (shifts_release c).tail (.handsOver (onDuty?_release c) (by simpa using hjoining))
  | join =>
    obtain ⟨hfin, hstep⟩ := Option.ite_none_right_eq_some.mp hstep
    cases hstep
    exact .single (.joins hfin)
  | work k m =>
    obtain ⟨s, s', hs, hgo, rfl⟩ := move_eq_some_iff.mp hstep
    obtain ⟨hmay, hgo⟩ := Option.ite_none_right_eq_some.mp hgo
    obtain ⟨hover, ⟨hturn, -, rfl, rfl⟩ | ⟨w, e, hgoes, rfl, rfl⟩⟩ := Stint.step_eq_some_iff.mp hgo
    · exact .single (.ends hs hmay hover hturn)
    · exact .single (.goes hs hmay hover hgoes)
  | drain k =>
    obtain ⟨s, s', hs, hgo, rfl⟩ := move_eq_some_iff.mp hstep
    rw [Stint.stepDrain] at hgo
    split at hgo
    next hdrain =>
      split at hgo
      next hover =>
        cases hgo
        exact .single (.reports hs hdrain hover)
      next => exact absurd hgo nofun
    next hdrain =>
      cases hgo
      exact .single (.finishes hs hdrain)
    next => exact absurd hgo nofun
  | deliver i =>
    obtain ⟨r, hr, hstep⟩ := Option.map_eq_some_iff.mp hstep
    cases hstep
    exact .single (.delivers hr)

end Crew

end ContainerNet.Sidecar
