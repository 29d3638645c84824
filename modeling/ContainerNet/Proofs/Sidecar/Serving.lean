import ContainerNet.Proofs.Sidecar.Dispatch
import ContainerNet.Proofs.Sidecar.Endings
import ContainerNet.Proofs.Sidecar.Progress
import ContainerNet.Simulation.World

/-!
# Serving an input

Serving an input is to take in what was read, one line after the other, then to shut down, and to
return when that is through. In between the tasks of the workers go on in any order, so for one
input there are many runs. What is done about the lines is the same in all of them, and when a run
returns all of it has been done and all workers are gone.

## Why it ends

A run is measured by what is ahead: the lines, the shutdown, and what the staff has still to do,
which gets less with every step of a task and is finite at any time (`Staff.Touches`). So a serving
cannot go on forever (`Serving.Sound.acc`). Nor does it get stuck before it returns, because a
shutdown never does, whatever the world answers; so every run has a continuation that returns
(`Serving.Run.exists_returned`).
-/

namespace ContainerNet.Sidecar

/-- How far serving is. -/
inductive Serving.Phase
  | reading
  | stopping
  | returned
deriving DecidableEq

/-- An input that is being served. -/
structure Serving where
  staff : Staff
  /-- What is to be taken in yet. -/
  ahead : List Intake
  phase : Serving.Phase := .reading

namespace Staff

variable {s s' : Staff} {more : List Event}

theorem isHappening_map (id : ContainerId) (happenings : List Happening) :
    ∀ e ∈ happenings.map (Event.happening id), e.isHappening = true := by
  intro e he
  obtain ⟨h, -, rfl⟩ := List.mem_map.mp he
  rfl

theorem Step.stopped_or_goes (h : s.Step more s') (hstopping : s.isStopping = true) :
    more = [.stopped] ∨ ∀ e ∈ more, e.isHappening = true := by
  cases h with
  | configure hrun | release hrun | shutDown hrun => exact absurd (hstopping.symm.trans hrun) nofun
  | task | join => exact .inr (isHappening_map _ _)
  | stopped => exact .inl rfl

theorem Step.isStopping_eq (h : s.Step more s') (hmore : ∀ e ∈ more, e.isHappening = true) :
    s'.isStopping = s.isStopping := by
  cases h with
  | task | join => rfl
  | configure | release | shutDown | stopped => exact absurd (hmore _ List.mem_cons_self) nofun

theorem Step.of_shutDown (h : s.Step [.shutDown] s') : s'.isStopping = true := by
  have hof (more : List Event) (hstep : s.Step more s') (hmore : more = [.shutDown]) :
      s'.isStopping = true := by
    cases hstep with
    | shutDown => rfl
    | configure | release | stopped => simp at hmore
    | task | join => simp [List.map_eq_cons_iff] at hmore
  exact hof _ h rfl

theorem Step.isStopping_of_stopped (h : s.Step [.stopped] s') : s'.isStopping = false := by
  have hof (more : List Event) (hstep : s.Step more s') (hmore : more = [.stopped]) :
      s'.isStopping = false := by
    cases hstep with
    | stopped => rfl
    | configure | release | shutDown => simp at hmore
    | task | join => simp [List.map_eq_cons_iff] at hmore
  exact hof _ h rfl

end Staff

namespace Serving

/-- What can be seen of serving. -/
inductive Event
  | staff (e : Staff.Event)
  | noted (entry : Log.Entry)
  | returned (result : Except IoFault Unit)

/-- The steps of serving an input, of which `result` says how reading it ends. -/
inductive Step (result : Except IoFault Unit) : Serving → List Event → Serving → Prop
  | call {staff staff' : Staff} {ahead : List Intake} {id : ContainerId} {c : Call}
      {more : List Staff.Event} : staff.Step (.called id c :: more) staff' →
    Step result ⟨staff, .call id c :: ahead, .reading⟩ (.staff (.called id c) :: more.map .staff)
      ⟨staff', ahead, .reading⟩
  | skip {staff : Staff} {ahead : List Intake} {fault : Json.Fault} :
    Step result ⟨staff, .skip fault :: ahead, .reading⟩ [.noted (Intake.skipNote fault)]
      ⟨staff, ahead, .reading⟩
  /-- A task goes on, or the shutdown has waited for one. -/
  | goes {staff staff' : Staff} {ahead : List Intake} {phase : Phase}
      {more : List Staff.Event} : phase ≠ .returned → staff.Step more staff' →
    (∀ e ∈ more, e.isHappening = true) →
    Step result ⟨staff, ahead, phase⟩ (more.map .staff) ⟨staff', ahead, phase⟩
  | shutDown {staff staff' : Staff} : staff.Step [.shutDown] staff' →
    Step result ⟨staff, [], .reading⟩ [.staff .shutDown] ⟨staff', [], .stopping⟩
  | returns {staff staff' : Staff} : staff.Step [.stopped] staff' →
    Step result ⟨staff, [], .stopping⟩ [.staff .stopped, .returned result] ⟨staff', [], .returned⟩

/-- Steps from the beginning, with what can be seen on the way. -/
inductive Run (t : Terms) (input : List Intake × Except IoFault Unit) :
    List Event → Serving → Prop
  | start : Run t input [] ⟨{ terms := t }, input.1, .reading⟩
  | step {events more : List Event} {s s' : Serving} :
    Run t input events s → Step input.2 s more s' → Run t input (events ++ more) s'

/-- What is done about a line. -/
def Event.act? : Event → Option Act
  | .staff (.called id c) => some (.called id c)
  | .noted entry => some (.noted entry)
  | _ => none

/-- What serving returns. -/
def Event.result? : Event → Option (Except IoFault Unit)
  | .returned result => some result
  | _ => none

/-- Everything that was done about lines. -/
def done (events : List Event) : List Act := events.filterMap Event.act?

/-- Everything that was returned. -/
def results (events : List Event) : List (Except IoFault Unit) := events.filterMap Event.result?

section

variable {events more : List Event} {happenings : List Staff.Event}

@[simp] theorem done_append : done (events ++ more) = done events ++ done more :=
  List.filterMap_append

@[simp] theorem results_append : results (events ++ more) = results events ++ results more :=
  List.filterMap_append

@[simp] theorem done_called (id : ContainerId) (c : Call) :
    done (.staff (.called id c) :: events) = .called id c :: done events := rfl

theorem done_happenings (h : ∀ e ∈ happenings, e.isHappening = true) :
    done (happenings.map .staff) = [] := by
  rw [done, List.filterMap_map, List.filterMap_eq_nil_iff]
  intro e he
  cases e with
  | happening => rfl
  | called | shutDown | stopped => exact absurd (h _ he) nofun

@[simp] theorem results_map : results (happenings.map .staff) = [] := by
  rw [results, List.filterMap_map, List.filterMap_eq_nil_iff]
  exact fun _ _ ↦ rfl

@[simp] theorem results_called (id : ContainerId) (c : Call) :
    results (.staff (.called id c) :: happenings.map .staff) = [] := results_map

end

/-! ## What every step preserves -/

/-- What is known of an input that is being served. -/
structure Sound (t : Terms) (input : List Intake × Except IoFault Unit) (events : List Event)
    (s : Serving) : Prop where
  staff : ∃ staffEvents, Staff.Run t staffEvents s.staff
  /-- What was done and what is to be done yet is all there is to be done. -/
  done : done events ++ s.ahead.map Intake.act = input.1.map Intake.act
  isStopping : s.staff.isStopping = decide (s.phase = .stopping)
  ahead : s.phase ≠ .reading → s.ahead = []
  results : results events = if s.phase = .returned then [input.2] else []
  gone : s.phase = .returned → ∀ id, ∀ st ∈ (s.staff.crews id).stints,
    st.isOver = true ∧ st.drain = some .finished

variable {t : Terms} {input : List Intake × Except IoFault Unit} {events more : List Event}
  {s s' : Serving}

theorem Sound.step (h : Sound t input events s) (hstep : Step input.2 s more s') :
    Sound t input (events ++ more) s' := by
  obtain ⟨⟨staffEvents, hrun⟩, hdone, hstopping, hahead, hresults, hgone⟩ := h
  cases hstep with
  | @call staff staff' ahead id c more hstep =>
    obtain ⟨happenings, -, rfl, hsame, -⟩ := hstep.of_call
    refine ⟨⟨_, hrun.step hstep⟩, ?_, hsame.trans hstopping, nofun, ?_, nofun⟩
    · rw [done_append, done_called, done_happenings (Staff.isHappening_map id happenings), ← hdone,
        List.append_assoc]
      rfl
    · rw [results_append, results_called, hresults]
      rfl
  | @skip staff ahead fault =>
    refine ⟨⟨_, hrun⟩, ?_, hstopping, nofun, ?_, nofun⟩
    · rw [done_append, ← hdone, List.append_assoc]
      rfl
    · rw [results_append, hresults]
      rfl
  | @goes staff staff' ahead phase more hphase hstep hmore =>
    refine ⟨⟨_, hrun.step hstep⟩, ?_, (hstep.isStopping_eq hmore).trans hstopping, hahead, ?_,
      fun hreturned ↦ absurd hreturned hphase⟩
    · rw [done_append, done_happenings hmore, List.append_nil, hdone]
    · rw [results_append, results_map, List.append_nil, hresults]
  | @shutDown staff staff' hstep =>
    refine ⟨⟨_, hrun.step hstep⟩, ?_, hstep.of_shutDown, fun _ ↦ rfl, ?_, nofun⟩
    · rw [done_append, ← hdone]
      exact congrArg (· ++ []) (List.append_nil _)
    · rw [results_append, hresults]
      rfl
  | @returns staff staff' hstep =>
    refine ⟨⟨_, hrun.step hstep⟩, ?_, hstep.isStopping_of_stopped, fun _ ↦ rfl, ?_,
      fun _ id st hst ↦ ?_⟩
    · rw [done_append, ← hdone]
      exact congrArg (· ++ []) (List.append_nil _)
    · rw [results_append, hresults]
      rfl
    · rw [hstep.of_stopped.2.2] at hst
      exact hrun.all_finished hstep hst

theorem Run.sound (h : Run t input events s) : Sound t input events s := by
  induction h with
  | start => exact ⟨⟨_, .start⟩, rfl, rfl, fun h ↦ absurd rfl h, rfl, nofun⟩
  | step _ hstep ih => exact ih.step hstep

/-- **Serving never gets stuck** before it returns. -/
theorem Sound.exists_step (h : Sound t input events s) (hphase : s.phase ≠ .returned) :
    ∃ more s', Step input.2 s more s' := by
  obtain ⟨⟨_, hrun⟩, -, hstopping, hahead, -, -⟩ := h
  obtain ⟨staff, ahead, phase⟩ := s
  cases phase with
  | returned => exact absurd rfl hphase
  | reading =>
    match ahead with
    | [] => exact ⟨_, _, .shutDown (.shutDown hstopping)⟩
    | .skip fault :: ahead => exact ⟨_, _, .skip⟩
    | .call id c :: ahead =>
      obtain ⟨more, staff', hstep⟩ := hrun.exists_step_of_call hstopping id c
      exact ⟨_, _, .call hstep⟩
  | stopping =>
    obtain rfl : ahead = [] := hahead nofun
    obtain ⟨more, staff', hstep⟩ := hrun.exists_step_of_stopping hstopping (.ok ())
      fun q ↦ (Simulation.World.answer q {}).1
    rcases hstep.stopped_or_goes hstopping with rfl | hmore
    · exact ⟨_, _, .returns hstep⟩
    · exact ⟨_, _, .goes hphase hstep hmore⟩

/-! ## Every run ends -/

/-- The first is what becomes of the second by one step. -/
def Follows (result : Except IoFault Unit) (s' s : Serving) : Prop := ∃ more, Step result s more s'

section

variable {result : Except IoFault Unit} {staff : Staff} {ids : Finset ContainerId}

/-- Serving ends if it does after every step but those in which only tasks go on. -/
theorem acc_of_others {ahead : List Intake} {phase : Phase} (h : staff.Touches ids)
    (hothers : ∀ {staff : Staff} {ids : Finset ContainerId}, staff.Touches ids →
      ∀ {more s'}, Step result ⟨staff, ahead, phase⟩ more s' →
        (∃ staff', s' = ⟨staff', ahead, phase⟩ ∧ staff'.Follows staff) ∨
          Acc (Follows result) s') :
    Acc (Follows result) ⟨staff, ahead, phase⟩ := by
  have hacc := h.acc
  -- on the staff: as long as only tasks go on it is all that changes
  induction hacc with
  | intro staff _ ih =>
    refine ⟨_, fun s' ⟨more, hstep⟩ ↦ ?_⟩
    rcases hothers h hstep with ⟨staff', rfl, hfollows⟩ | hacc
    · exact ih staff' hfollows (Staff.less_of_follows h hfollows).1
    · exact hacc

theorem acc_returned (ahead : List Intake) : Acc (Follows result) ⟨staff, ahead, .returned⟩ := by
  refine ⟨_, fun s' ⟨more, hstep⟩ ↦ ?_⟩
  cases hstep with
  | goes hphase => exact absurd rfl hphase

theorem acc_stopping (h : staff.Touches ids) (ahead : List Intake) :
    Acc (Follows result) ⟨staff, ahead, .stopping⟩ := by
  refine acc_of_others h fun htouches more s' hstep ↦ ?_
  cases hstep with
  | goes _ hstep hmore => exact .inl ⟨_, rfl, _, hstep, hmore⟩
  | returns => exact .inr (acc_returned [])

theorem acc_reading (h : staff.Touches ids) (ahead : List Intake) :
    Acc (Follows result) ⟨staff, ahead, .reading⟩ := by
  induction ahead generalizing staff ids with
  | nil =>
    refine acc_of_others h fun htouches more s' hstep ↦ ?_
    cases hstep with
    | goes _ hstep hmore => exact .inl ⟨_, rfl, _, hstep, hmore⟩
    | shutDown hstep =>
      obtain ⟨ids, hids⟩ := htouches.step hstep
      exact .inr (acc_stopping hids [])
  | cons next ahead ih =>
    refine acc_of_others h fun htouches more s' hstep ↦ ?_
    cases hstep with
    | goes _ hstep hmore => exact .inl ⟨_, rfl, _, hstep, hmore⟩
    | call hstep =>
      obtain ⟨ids, hids⟩ := htouches.step hstep
      exact .inr (ih hids)
    | skip => exact .inr (ih htouches)

end

/-- **No run goes on for ever**, whatever the world answers and in whatever order tasks go on. -/
theorem Sound.acc (h : Sound t input events s) : Acc (Follows input.2) s := by
  obtain ⟨⟨_, hrun⟩, -, -, -, -, -⟩ := h
  obtain ⟨ids, hids⟩ := hrun.exists_touches
  obtain ⟨staff, ahead, phase⟩ := s
  cases phase with
  | reading => exact acc_reading hids ahead
  | stopping => exact acc_stopping hids ahead
  | returned => exact acc_returned ahead

theorem Run.exists_returned (h : Run t input events s) :
    ∃ more s', Run t input (events ++ more) s' ∧ s'.phase = .returned := by
  have hacc := h.sound.acc
  induction hacc generalizing events with
  | intro s _ ih =>
    by_cases hphase : s.phase = .returned
    · exact ⟨[], s, by rwa [List.append_nil], hphase⟩
    · obtain ⟨more, s', hstep⟩ := h.sound.exists_step hphase
      obtain ⟨rest, s'', hrun, hreturned⟩ := ih s' ⟨more, hstep⟩ (h.step hstep)
      exact ⟨more ++ rest, s'', by rwa [← List.append_assoc], hreturned⟩

/-! ## What serving a text comes to -/

/-- Serving a text does certain things, in order: at any time the first few of them have been done,
and serving goes on until it returns, but not for ever. Then all of them have been done, and the
workers are gone. -/
structure Serves (t : Terms) (p : Places) (text : String) (all : List Act) : Prop where
  done_prefix {events : List Event} {s : Serving} :
    Run t (Intake.read p (Text.utf8 text)) events s → done events <+: all
  exists_step {events : List Event} {s : Serving} :
    Run t (Intake.read p (Text.utf8 text)) events s → s.phase ≠ .returned →
    results events = [] ∧ ∃ more s', Step (Intake.read p (Text.utf8 text)).2 s more s'
  acc {events : List Event} {s : Serving} :
    Run t (Intake.read p (Text.utf8 text)) events s →
    Acc (Follows (Intake.read p (Text.utf8 text)).2) s
  returned {events : List Event} {s : Serving} :
    Run t (Intake.read p (Text.utf8 text)) events s → s.phase = .returned →
    done events = all ∧ results events = [.ok ()] ∧
      ∀ id, ∀ st ∈ (s.staff.crews id).stints, st.isOver = true ∧ st.drain = some .finished

theorem serves_acts (t : Terms) (p : Places) (text : String) : Serves t p text (acts p text) where
  done_prefix hrun := by
    have hdone := hrun.sound.done
    rw [map_act_read] at hdone
    exact ⟨_, hdone⟩
  exists_step hrun hphase :=
    ⟨hrun.sound.results.trans (if_neg hphase), hrun.sound.exists_step hphase⟩
  acc hrun := hrun.sound.acc
  returned hrun hphase := by
    obtain ⟨-, hdone, -, hahead, hresults, hgone⟩ := hrun.sound
    rw [map_act_read, hahead (by rw [hphase]; exact nofun), List.map_nil, List.append_nil] at hdone
    rw [if_pos hphase, Intake.read_utf8] at hresults
    exact ⟨hdone, hresults, hgone hphase⟩

/-- What serving a text does is determined by the text. -/
theorem Serves.eq_acts {p : Places} {text : String} {all : List Act} (h : Serves t p text all) :
    all = acts p text := by
  obtain ⟨events, s, hrun, hreturned⟩ :=
    (@Run.start t (Intake.read p (Text.utf8 text))).exists_returned
  exact (h.returned hrun hreturned).1.symm.trans ((serves_acts t p text).returned hrun hreturned).1

/-- **Serving dispatches exactly the events.** Each line that holds an event makes its call, in
order, each other line is noted if it is not blank, and so only the lines that hold events matter
for the calls. No line of an event breaks, so joined lines of events do what each of them does, and
those of events that a text can carry make the calls of these events. -/
theorem dispatches (t : Terms) (p : Places) :
    (∀ text, Serves t p text (acts p text)) ∧
    (∀ text other, (Text.lines text.toList).filter holdsEvent =
        (Text.lines other.toList).filter holdsEvent →
      (acts p text).filterMap Act.call? = (acts p other).filterMap Act.call?) ∧
    (∀ e : ContainerNet.Event, '\n' ∉ e.line.toList) ∧
    (∀ es, Serves t p (Event.lines es) (es.filterMap fun e ↦ Act.ofLine? p e.line.toList)) ∧
    ∀ es : List ContainerNet.Event, (∀ e ∈ es, e.IsPortable) →
      (∀ e ∈ es, ∀ c ∈ e.config?, c.ReadsBack) →
      Serves t p (Event.lines es) (es.map fun e ↦ .called e.container (e.call p)) := by
  refine ⟨serves_acts t p, fun text other h ↦ ?_, fun e hmem ↦ ?_, fun es ↦ ?_,
    fun es he hback ↦ ?_⟩
  · rw [filterMap_call?_acts, filterMap_call?_acts, h]
  · exact absurd (isPlain_line e _ hmem) (by decide)
  · rw [← acts_join]
    exact serves_acts t p _
  · rw [← acts_join_of_isPortable he hback]
    exact serves_acts t p _

/-- A configuration with a line break in a text and values in all fields of its shape. -/
def lanConfig : NetworkConfig := { network := "lan\n", enable := true, shape := Event.manifold }

/-- Two events are dispatched, and lines of noise around one of them make no difference. -/
theorem dispatches_among_noise :
    (let es : List ContainerNet.Event :=
      [.configure ⟨"web-1", by decide⟩ (.pid 42) lanConfig, .release ⟨"web-1", by decide⟩]
    Serves {} {} (Event.lines es) (es.map fun e ↦ .called e.container (e.call {}))) ∧
    (acts {} "\x7b\"type\":\"release\",\"container_id\":\"web-1\"\x7d").filterMap Act.call? =
      (acts {} " \n[]\n\x7b\"type\":\"release\",\"container_id\":\"web-1\"\x7d\r\n\n").filterMap
        Act.call? := by
  obtain ⟨-, hnoise, -, -, hevents⟩ := dispatches {} {}
  have hportable : lanConfig.IsPortable := by
    intro s hs
    obtain rfl := List.mem_singleton.1 hs
    exact Event.isPortable_manifold .reject
  have hback : lanConfig.ReadsBack := by decide +kernel
  refine ⟨hevents _ (fun e he ↦ ?_) fun e he c hc ↦ ?_, hnoise _ _ (by decide +kernel)⟩
  · obtain rfl | he := List.mem_cons.1 he
    · exact ⟨show 42 < UInt32.size by decide, hportable⟩
    · obtain rfl := List.mem_singleton.1 he
      trivial
  · obtain rfl | he := List.mem_cons.1 he
    · obtain rfl : lanConfig = c := Option.some.inj hc
      exact hback
    · obtain rfl := List.mem_singleton.1 he
      exact absurd hc (Option.not_mem_none c)

/-- An event with a delay of one and a half milliseconds. -/
def roundedEvent : ContainerNet.Event :=
  .configure ⟨"web-1", by decide⟩ (.path "/run/netns/web-1")
    { network := "default", enable := true, shape := { latency := ⟨1500000⟩ } }

/-- Lines hold whole milliseconds, so the call of an event can be another than that of its line. -/
theorem not_dispatches_rounded :
    ¬∀ es : List ContainerNet.Event,
      Serves {} {} (Event.lines es) (es.map fun e ↦ .called e.container (e.call {})) := by
  intro h
  have hread : Event.ofLine roundedEvent.line = .ok (.configure ⟨"web-1", by decide⟩
      (.path "/run/netns/web-1")
      { network := "default", enable := true, shape := { latency := .ofMillis 1 } }) := by
    rw [Event.ofLine, Json.Document.ofText, Event.line, Json.render, String.toList_ofList]
    decide +kernel
  have hact : Act.ofLine? {} roundedEvent.line.toList = some (.called ⟨"web-1", by decide⟩
      (.configure "/run/netns/web-1"
        { network := "default", enable := true, shape := { latency := .ofMillis 1 } })) := by
    rw [Act.ofLine?, String.ofList_toList, hread]
    rfl
  have hacts := (h [roundedEvent]).eq_acts.trans
    ((acts_join _ _).trans (List.filterMap_cons_some hact))
  obtain ⟨-, hcall⟩ := Act.called.inj (List.cons.inj hacts).1
  exact absurd hcall (by decide)

end Serving

end ContainerNet.Sidecar
