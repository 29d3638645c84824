import ContainerNet.Proofs.Sidecar.Progress
import ContainerNet.Proofs.Sidecar.Tasks

/-!
# Containers do not influence each other

The world outside is in parts, one for each container: whether a namespace opens and how a request
is answered depends on what was done for that container. Then what is seen of a container can be
seen of a staff that has work for this container only, and what can be seen of it next does not
depend on others either (`Staff.StepsIn.alone`). So whatever becomes of a container, its calls and
its workers never wait for another one.

## Two staffs side by side

A call for one container throws handles away of all others, so the crew of a container is not the
same as if it were alone. But its lane is, since handles of drains that have ended are nothing to
it. Two staffs mirror each other in a container if its lane is the same in both, and its part of the
world (`Staff.Mirrors`). What one of them shows of the container the other can show too, perhaps
after a few moves of tasks that are not seen (`Staff.Mirrors.step`). This goes both ways: from the
whole staff to the container alone, and back.
-/

namespace ContainerNet.Sidecar

variable {t : Terms} {id : ContainerId}

/-! ## The world in parts -/

/-- The world outside, with a part for each container. Nothing is common to two parts, so there is
no cancellation that reaches all workers. -/
structure Surroundings where
  Part : Type
  start : ContainerId → Part
  /-- How it can end to open a namespace, and the part afterwards. -/
  opens : ContainerId → Part → String → Outcome Unit → Part → Prop
  /-- How a request can be answered, and the part afterwards. -/
  answers : ContainerId → Part → (q : Effect) → q.Answer → Part → Prop

/-- Whether the world outside has a say in the happening. -/
def Happening.isAnswered : Happening → Bool
  | .opened _ _ | .acted _ => true
  | _ => false

/-- What a task shows is due to the part of its container, or to nothing outside. -/
inductive Surroundings.Gives (W : Surroundings) (id : ContainerId) (p : W.Part) :
    Crew.Move → List Happening → W.Part → Prop
  | opened {k : Nat} {netns : String} {result : Outcome Unit} {p' : W.Part} :
    W.opens id p netns result p' → Gives W id p (.work k (.opened result)) [.opened netns result] p'
  | answered {k : Nat} {f : (q : Effect) → q.Answer} {q : Effect} {p' : W.Part} :
    W.answers id p q (f q) p' → Gives W id p (.work k (.answered f)) [.acted q] p'
  | nothing {m : Crew.Move} {seen : List Happening} : (∀ e ∈ seen, e.isAnswered = false) →
    Gives W id p m seen p

/-- Only the task of a worker shows as a move that the world outside has a say in. -/
theorem Crew.Move.exists_work {m : Crew.Move} {n : Lane.Move} (h : m.lane? = some n)
    (hadvance : n ≠ .advance) (hdeliver : ∀ i, n ≠ .deliver i) : ∃ k, m = .work k n := by
  cases m with
  | work k n' =>
    cases h
    exact ⟨k, rfl⟩
  | drain =>
    cases h
    exact absurd rfl hadvance
  | deliver i =>
    cases h
    exact absurd rfl (hdeliver i)
  | call | tidy | shutDown | join => exact absurd h nofun

namespace Surroundings.Gives

variable {W : Surroundings} {p p' : W.Part} {m m' : Crew.Move} {seen : List Happening}

theorem eq_of_nil (h : W.Gives id p m [] p') : p' = p := by
  cases h
  rfl

theorem congr (h : W.Gives id p m seen p') (hlane : m'.lane? = m.lane?) :
    W.Gives id p m' seen p' := by
  cases h with
  | @opened k netns result _ hopens =>
    have hopened : m'.lane? = some (.opened result) := hlane
    obtain ⟨k', rfl⟩ := Crew.Move.exists_work hopened nofun fun _ ↦ nofun
    exact .opened hopens
  | @answered k f q _ hanswers =>
    have hanswered : m'.lane? = some (.answered f) := hlane
    obtain ⟨k', rfl⟩ := Crew.Move.exists_work hanswered nofun fun _ ↦ nofun
    exact .answered hanswers
  | nothing hnot => exact .nothing hnot

end Surroundings.Gives

namespace Staff

variable {W : Surroundings} {s s' s'' s₁ : Staff} {p p' p'' p₁ : ContainerId → W.Part}
  {events more : List Event}

/-- The moves of a staff in the world: calls come in, and tasks go on. -/
inductive StepIn (W : Surroundings) (s : Staff) (p : ContainerId → W.Part) :
    List Event → Staff → (ContainerId → W.Part) → Prop
  | call {id : ContainerId} {what : Call} {more : List Event} {s' : Staff} :
    s.Step (.called id what :: more) s' → StepIn W s p (.called id what :: more) s' p
  | task {id : ContainerId} {m : Crew.Move} {c : Crew} {seen : List Happening} {part : W.Part} :
    m.isOfTask = true → (s.crews id).step s.terms id m = some (c, seen) →
    W.Gives id (p id) m seen part →
    StepIn W s p (seen.map (.happening id)) (s.setCrew id c) (Function.update p id part)

/-- Moves one after the other, with what can be seen on the way. -/
inductive StepsIn (W : Surroundings) (s : Staff) (p : ContainerId → W.Part) :
    List Event → Staff → (ContainerId → W.Part) → Prop
  | refl : StepsIn W s p [] s p
  | tail {events more : List Event} {s' s'' : Staff} {p' p'' : ContainerId → W.Part} :
    StepsIn W s p events s' p' → StepIn W s' p' more s'' p'' →
    StepsIn W s p (events ++ more) s'' p''

theorem StepIn.step (h : StepIn W s p more s' p') : s.Step more s' := by
  cases h with
  | call hstep => exact hstep
  | task htask hstep => exact .task htask hstep

namespace StepsIn

theorem single (h : StepIn W s p more s' p') : StepsIn W s p more s' p' := .tail .refl h

theorem trans (h : StepsIn W s p events s' p') (h' : StepsIn W s' p' more s'' p'') :
    StepsIn W s p (events ++ more) s'' p'' := by
  induction h' with
  | refl => simpa using h
  | tail _ hstep ih =>
    rw [← List.append_assoc]
    exact ih.tail hstep

theorem exists_of_tasks {moves : List Crew.Move} {c : Crew}
    (htasks : ∀ m ∈ moves, m.isOfTask = true)
    (hmoves : moveAll (fun c m ↦ Crew.step c s.terms id m) moves (s.crews id) = some (c, [])) :
    ∃ s', StepsIn W s p [] s' p ∧ s'.crews id = c ∧ s'.terms = s.terms := by
  induction moves generalizing s with
  | nil =>
    cases hmoves
    exact ⟨s, .refl, rfl, rfl⟩
  | cons m moves ih =>
    obtain ⟨c₁, first, rest, hfirst, hrest, hnil⟩ := moveAll_cons_eq_some_iff.mp hmoves
    obtain ⟨rfl, rfl⟩ := List.append_eq_nil_iff.mp hnil.symm
    obtain ⟨htask, htasks⟩ := List.forall_mem_cons.mp htasks
    have hstep : StepIn W s p [] (s.setCrew id c₁) (Function.update p id (p id)) :=
      .task htask hfirst (.nothing (by simp))
    rw [Function.update_eq_self] at hstep
    obtain ⟨s', hsteps, hcrew, hterms⟩ := @ih (s.setCrew id c₁) htasks (by
      rw [setCrew_crews_self]
      exact hrest)
    exact ⟨s', (single hstep).trans hsteps, hcrew, hterms⟩

end StepsIn

/-! ## Staffs that take calls -/

/-- A staff that was not shut down. -/
structure TakesCalls (t : Terms) (s : Staff) : Prop where
  run : ∃ events, Run t events s
  isStopping_eq : s.isStopping = false

namespace TakesCalls

theorem start : TakesCalls t { terms := t } := ⟨⟨[], .start⟩, rfl⟩

theorem terms_eq (h : s.TakesCalls t) : s.terms = t := by
  obtain ⟨events, hrun⟩ := h.run
  exact hrun.terms_eq

theorem sound (h : s.TakesCalls t) (id : ContainerId) : (s.crews id).Sound t id := by
  obtain ⟨events, hrun⟩ := h.run
  exact hrun.sound id

theorem exists_call (h : s.TakesCalls t) (id : ContainerId) (what : Call) :
    ∃ more s', s.Step (.called id what :: more) s' := by
  obtain ⟨events, hrun⟩ := h.run
  exact hrun.exists_step_of_call h.isStopping_eq id what

theorem stepIn (h : s.TakesCalls t) (hstep : StepIn W s p more s' p') : s'.TakesCalls t := by
  obtain ⟨events, hrun⟩ := h.run
  refine ⟨⟨_, hrun.step hstep.step⟩, ?_⟩
  cases hstep with
  | call hcall =>
    obtain ⟨happenings, -, -, hsame, -⟩ := hcall.of_call
    exact hsame.trans h.isStopping_eq
  | task => exact h.isStopping_eq

theorem stepsIn (h : s.TakesCalls t) (hsteps : StepsIn W s p more s' p') : s'.TakesCalls t := by
  induction hsteps with
  | refl => exact h
  | tail _ hstep ih => exact ih.stepIn hstep

end TakesCalls

/-! ## What concerns a container -/

/-- Whether an event is a call for a container or is seen of it. -/
def Event.concerns (id : ContainerId) : Event → Bool
  | .called other _ | .happening other _ => other = id
  | .shutDown | .stopped => false

theorem filter_concerns_map (other : ContainerId) (happenings : List Happening) :
    (happenings.map (Event.happening other)).filter (·.concerns id) =
      if other = id then happenings.map (.happening other) else [] := by
  split
  next hother => simp [Event.concerns, hother]
  next hother => simp [Event.concerns, hother]

theorem filter_concerns_called (other : ContainerId) (what : Call) :
    (Event.called other what :: events).filter (·.concerns id) =
      (if other = id then [.called other what] else []) ++ events.filter (·.concerns id) := by
  rw [List.filter_cons]
  by_cases hother : other = id
  · simp [Event.concerns, hother]
  · simp [Event.concerns, hother]

/-! ## Two staffs side by side -/

/-- The same can be seen of a container of two staffs. -/
structure Mirrors (t : Terms) (id : ContainerId) (s : Staff) (p : ContainerId → W.Part)
    (s₁ : Staff) (p₁ : ContainerId → W.Part) : Prop where
  here : s.TakesCalls t
  there : s₁.TakesCalls t
  lane_eq : (s₁.crews id).lane = (s.crews id).lane
  part_eq : p₁ id = p id

namespace Mirrors

theorem symm (h : Mirrors t id s p s₁ p₁) : Mirrors t id s₁ p₁ s p :=
  ⟨h.there, h.here, h.lane_eq.symm, h.part_eq.symm⟩

theorem call {what : Call} (h : Mirrors t id s p s₁ p₁)
    (hcall : s.Step (.called id what :: more) s') :
    ∃ s₁', StepsIn W s₁ p₁ (.called id what :: more) s₁' p₁ ∧ Mirrors t id s' p s₁' p₁ := by
  obtain ⟨more₁, s₁', hcall₁⟩ := h.there.exists_call id what
  have hhere := h.here.stepIn (.call (p := p) hcall)
  have hthere := h.there.stepIn (.call (p := p₁) hcall₁)
  obtain ⟨happenings, hmove, rfl, -⟩ := hcall.of_call
  obtain ⟨happenings₁, hmove₁, rfl, -⟩ := hcall₁.of_call
  rw [h.here.terms_eq] at hmove
  rw [h.there.terms_eq] at hmove₁
  have hsame := (h.there.sound id).lane_call hmove₁
  rw [h.lane_eq, (h.here.sound id).lane_call hmove] at hsame
  obtain ⟨hlane, rfl⟩ := Prod.mk.inj hsame
  exact ⟨s₁', .single (.call hcall₁), hhere, hthere, hlane.symm, h.part_eq⟩

/-- A task goes on here, so some tasks can go on there. -/
theorem task {m : Crew.Move} {c : Crew} {seen : List Happening} {part : W.Part}
    (h : Mirrors t id s p s₁ p₁) (htask : m.isOfTask = true)
    (hmove : (s.crews id).step s.terms id m = some (c, seen))
    (hgives : W.Gives id (p id) m seen part) :
    ∃ s₁' p₁', StepsIn W s₁ p₁ (seen.map (.happening id)) s₁' p₁' ∧
      Mirrors t id (s.setCrew id c) (Function.update p id part) s₁' p₁' := by
  have hhere := h.here.stepIn (.task htask hmove hgives)
  rw [h.here.terms_eq] at hmove
  rcases (h.here.sound id).task_lane htask hmove with ⟨hsame, rfl⟩ | ⟨m', hm, hcall, hlane⟩
  · refine ⟨s₁, p₁, .refl, hhere, h.there, ?_, ?_⟩
    · rw [setCrew_crews_self, hsame, h.lane_eq]
    · rw [Function.update_self, hgives.eq_of_nil, h.part_eq]
  · rw [← h.lane_eq] at hlane
    obtain ⟨moves, c₁, m₁, c', htasks, hmoves, htask₁, hm₁, hmove₁, hlane', -⟩ :=
      (h.there.sound id).exists_tasks hcall hlane
    rw [← h.there.terms_eq] at hmoves hmove₁
    obtain ⟨s₂, hsilent, rfl, hterms⟩ := StepsIn.exists_of_tasks (p := p₁) htasks hmoves
    rw [← hterms] at hmove₁
    have hgives₁ : W.Gives id (p₁ id) m₁ seen part := by
      rw [h.part_eq]
      exact hgives.congr (hm₁.trans hm.symm)
    have hsteps := hsilent.tail (.task htask₁ hmove₁ hgives₁)
    refine ⟨_, _, hsteps, hhere, h.there.stepsIn hsteps, ?_, ?_⟩
    · rw [setCrew_crews_self, setCrew_crews_self, hlane']
    · rw [Function.update_self, Function.update_self]

/-- **What one staff shows of a container** the other one can show too. -/
theorem step (h : Mirrors t id s p s₁ p₁) (hstep : StepIn W s p more s' p') :
    ∃ s₁' p₁', StepsIn W s₁ p₁ (more.filter (·.concerns id)) s₁' p₁' ∧
      Mirrors t id s' p' s₁' p₁' := by
  have hhere := h.here.stepIn hstep
  cases hstep with
  | @call other what more s' hcall =>
    obtain ⟨happenings, -, rfl, -, hrest⟩ := hcall.of_call
    rw [filter_concerns_called, filter_concerns_map]
    by_cases hother : other = id
    · subst hother
      obtain ⟨s₁', hsteps, hmirrors⟩ := h.call hcall
      rw [if_pos rfl, if_pos rfl]
      exact ⟨s₁', p₁, hsteps, hmirrors⟩
    · -- at most a handle was thrown away
      have hlane : (s'.crews id).lane = (s.crews id).lane := by
        rcases hrest id (Ne.symm hother) with hsame | htidy
        · rw [hsame]
        · rw [htidy]
          rfl
      rw [if_neg hother, if_neg hother]
      exact ⟨s₁, p₁, .refl, hhere, h.there, h.lane_eq.trans hlane.symm, h.part_eq⟩
  | @task other m c seen part htask hmove hgives =>
    rw [filter_concerns_map]
    by_cases hother : other = id
    · subst hother
      rw [if_pos rfl]
      exact h.task htask hmove hgives
    · rw [if_neg hother]
      refine ⟨s₁, p₁, .refl, hhere, h.there, ?_, ?_⟩
      · rw [setCrew_crews_of_ne s hother, h.lane_eq]
      · rw [Function.update_of_ne (Ne.symm hother), h.part_eq]

theorem steps (h : Mirrors t id s p s₁ p₁) (hsteps : StepsIn W s p more s' p') :
    ∃ s₁' p₁', StepsIn W s₁ p₁ (more.filter (·.concerns id)) s₁' p₁' ∧
      Mirrors t id s' p' s₁' p₁' := by
  induction hsteps with
  | refl => exact ⟨s₁, p₁, .refl, h⟩
  | tail _ hstep ih =>
    obtain ⟨s₂, p₂, hsteps₂, hmirrors₂⟩ := ih
    obtain ⟨s₃, p₃, hsteps₃, hmirrors₃⟩ := hmirrors₂.step hstep
    rw [List.filter_append]
    exact ⟨s₃, p₃, hsteps₂.trans hsteps₃, hmirrors₃⟩

end Mirrors

/-- **Containers do not influence each other.** Take any run with calls for any containers, in a
world whose answers for a container depend on what was done for this container. What is seen of one
container in it can be seen in a run that has calls for this container only. And whatever can be
seen of the container next in that run can be seen of it next in the first one, without anything
being seen of others. -/
theorem StepsIn.alone (h : StepsIn W { terms := t } W.start events s p) (id : ContainerId) :
    ∃ s₁ p₁, StepsIn W { terms := t } W.start (events.filter (·.concerns id)) s₁ p₁ ∧
      (s₁.crews id).lane = (s.crews id).lane ∧ p₁ id = p id ∧
      ∀ more s₁' p₁', StepsIn W s₁ p₁ more s₁' p₁' →
        ∃ s' p', StepsIn W s p (more.filter (·.concerns id)) s' p' ∧
          (s'.crews id).lane = (s₁'.crews id).lane ∧ p' id = p₁' id := by
  have hstart : Mirrors t id { terms := t } W.start { terms := t } W.start :=
    ⟨.start, .start, rfl, rfl⟩
  obtain ⟨s₁, p₁, hsteps, hmirrors⟩ := hstart.steps h
  refine ⟨s₁, p₁, hsteps, hmirrors.lane_eq, hmirrors.part_eq, fun more s₁' p₁' hnext ↦ ?_⟩
  obtain ⟨s', p', hsteps', hmirrors'⟩ := hmirrors.symm.steps hnext
  exact ⟨s', p', hsteps', hmirrors'.lane_eq, hmirrors'.part_eq⟩

/-- The namespace of one container never opens. That of another one is opened in the meantime, as it
is when there is nobody else. -/
theorem StepsIn.alone_beside_stuck :
    let id : ContainerId := ⟨"web-1", by decide⟩
    let stuck : ContainerId := ⟨"web-2", by decide⟩
    let config := NetworkConfig.disabled "default"
    let W : Surroundings :=
      { Part := Unit, start := fun _ ↦ ()
        opens := fun other _ _ result _ ↦ other = id ∧ result = .ok ()
        answers := fun _ _ _ _ _ ↦ True }
    ∃ events s p, StepsIn W {} W.start events s p ∧ called stuck events = [config] ∧
      ∃ s₁ p₁, StepsIn W {} W.start [.called id (.configure "/run/netns/a" config),
          .happening id (.accepted config), .happening id (.opening "/run/netns/a"),
          .happening id (.opened "/run/netns/a" (.ok ()))] s₁ p₁ ∧
        (s₁.crews id).lane = (s.crews id).lane := by
  intro id stuck config W
  have hne : stuck ≠ id := by decide
  let crew (stage : Worker.Stage) : Crew :=
    { stints := [{ worker := { netns := "/run/netns/a", waiting := [config], stage } }]
      onDuty := some 0 }
  let nowhere : ContainerId → W.Part := fun _ ↦ ()
  have hcall (s : Staff) (other : ContainerId) (hterms : s.terms = {})
      (hrun : s.isStopping = false) (hcrew : s.crews other = {}) :
      StepIn W s nowhere [.called other (.configure "/run/netns/a" config),
          .happening other (.accepted config)]
        (Staff.setCrew { s with crews := fun id ↦ (s.crews id).tidy } other (crew .fresh))
        nowhere := by
    have hmove : (s.crews other).step s.terms other (.call (.configure "/run/netns/a" config)) =
        some (crew .fresh, [.accepted config]) := by
      rw [hcrew, hterms]
      rfl
    exact .call (.configure hrun hmove)
  have htask (s : Staff) (other : ContainerId) (c : Crew) (m : Lane.Move) (e : Happening)
      (hmove : (s.crews other).step s.terms other (.work 0 m) = some (c, [e]))
      (hgives : W.Gives other () (.work 0 m) [e] ()) :
      StepIn W s nowhere [.happening other e] (s.setCrew other c) nowhere := by
    have hstep : StepIn W s nowhere _ (s.setCrew other c) (Function.update nowhere other ()) :=
      .task rfl hmove hgives
    rwa [Subsingleton.elim (Function.update nowhere other ()) nowhere] at hstep
  let s₁ := Staff.setCrew { ({} : Staff) with crews := fun _ ↦ {} } stuck (crew .fresh)
  let s₂ := s₁.setCrew stuck (crew .opening)
  let s₃ := Staff.setCrew { s₂ with crews := fun id ↦ (s₂.crews id).tidy } id (crew .fresh)
  have h₁ : StepIn W {} nowhere _ s₁ nowhere := hcall {} stuck rfl rfl rfl
  have h₂ : StepIn W s₁ nowhere [.happening stuck (.opening "/run/netns/a")] s₂ nowhere := by
    refine htask s₁ stuck _ .advance _ ?_ (.nothing (by simp [Happening.isAnswered]))
    rw [setCrew_crews_self]
    rfl
  have hfresh : s₂.crews id = {} := by
    rw [setCrew_crews_of_ne _ hne, setCrew_crews_of_ne _ hne]
  have h₃ : StepIn W s₂ nowhere _ s₃ nowhere := hcall s₂ id rfl rfl hfresh
  have h₄ : StepIn W s₃ nowhere [.happening id (.opening "/run/netns/a")]
      (s₃.setCrew id (crew .opening)) nowhere := by
    refine htask s₃ id _ .advance _ ?_ (.nothing (by simp [Happening.isAnswered]))
    rw [setCrew_crews_self]
    rfl
  let ready := crew (.ready (({ netns := "/run/netns/a" } : Worker).configurator {} id))
  let s₅ := (s₃.setCrew id (crew .opening)).setCrew id ready
  have h₅ : StepIn W (s₃.setCrew id (crew .opening)) nowhere
      [.happening id (.opened "/run/netns/a" (.ok ()))] s₅ nowhere := by
    refine htask _ id ready (.opened (.ok ())) _ ?_ (.opened ⟨rfl, rfl⟩)
    rw [setCrew_crews_self]
    rfl
  have hrun : StepsIn W {} W.start _ s₅ nowhere :=
    ((((StepsIn.single h₁).tail h₂).tail h₃).tail h₄).tail h₅
  obtain ⟨s', p', halone, hlane, -⟩ := hrun.alone id
  refine ⟨_, s₅, nowhere, hrun, ?_, s', p', ?_, hlane⟩
  · simp [called, Event.config?, hne.symm]
  · simpa [Event.concerns, hne] using halone

end Staff

end ContainerNet.Sidecar
