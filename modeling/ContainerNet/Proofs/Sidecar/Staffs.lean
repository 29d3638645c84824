import ContainerNet.Proofs.Sidecar.Handles
import ContainerNet.Proofs.Sidecar.Moves

/-!
# Runs of a staff

Containers have nothing to do with each other but for two things: every configuration throws
handles of drains away, of all containers, and a shutdown lets all workers go. Each of them is a
shift of the crews. So what happens to one container in a run of the whole staff are shifts of its
crew (`Staff.Run.shifts`), and what is known of those holds for it.

While a shutdown waits for drains no calls come in, so nobody is on duty and nobody is hired. When
it is through, all workers have ended and all drains too (`Staff.Run.all_finished`).
-/

namespace ContainerNet.Sidecar

variable {t : Terms} {id : ContainerId}

/-! ## A container of its own -/

namespace Staff

/-- What is seen of a container. -/
def Event.happening? (id : ContainerId) : Event → Option Happening
  | .happening other h => if other = id then some h else none
  | _ => none

/-- The configuration that comes with a call for a container. -/
def Event.config? (id : ContainerId) : Event → Option NetworkConfig
  | .called other call => if other = id then call.config? else none
  | _ => none

/-- Everything that is seen of a container. -/
def seen (id : ContainerId) (events : List Event) : List Happening :=
  events.filterMap (Event.happening? id)

/-- All configurations that come with calls for a container. -/
def called (id : ContainerId) (events : List Event) : List NetworkConfig :=
  events.filterMap (Event.config? id)

section

variable {events more : List Event} {happenings : List Happening} {other : ContainerId}

@[simp] theorem seen_append : seen id (events ++ more) = seen id events ++ seen id more :=
  List.filterMap_append

@[simp] theorem called_append : called id (events ++ more) = called id events ++ called id more :=
  List.filterMap_append

@[simp] theorem seen_map :
    seen id (happenings.map (.happening other)) = if other = id then happenings else [] := by
  rw [seen, List.filterMap_map]
  split
  next hother =>
    have hsome : Event.happening? id ∘ .happening other = some := funext fun h ↦ if_pos hother
    rw [hsome, List.filterMap_some]
  next hother => exact List.filterMap_eq_nil_iff.mpr fun h _ ↦ if_neg hother

@[simp] theorem called_map : called id (happenings.map (.happening other)) = [] := by
  rw [called, List.filterMap_map, List.filterMap_eq_nil_iff]
  exact fun _ _ ↦ rfl

@[simp] theorem seen_called_cons (call : Call) :
    seen id (.called other call :: events) = seen id events := rfl

@[simp] theorem called_cons (call : Call) : called id (.called other call :: events) =
    (if other = id then call.config?.toList else []) ++ called id events := by
  by_cases hother : other = id
  · rw [if_pos hother, called, List.filterMap_cons, Event.config?, if_pos hother]
    cases call <;> rfl
  · rw [if_neg hother, called, List.filterMap_cons, Event.config?, if_neg hother]
    rfl

end

@[simp] theorem setCrew_crews_self (s : Staff) (c : Crew) : (s.setCrew id c).crews id = c :=
  if_pos rfl

@[simp] theorem setCrew_isStopping (s : Staff) (c : Crew) :
    (s.setCrew id c).isStopping = s.isStopping := rfl

theorem setCrew_crews_of_ne (s : Staff) {other : ContainerId} (hne : other ≠ id) (c : Crew) :
    (s.setCrew other c).crews id = s.crews id :=
  if_neg hne.symm

/-! ## Runs -/

/-- Moves of a staff from its beginning, with what can be seen of it on the way. -/
inductive Run (t : Terms) : List Event → Staff → Prop
  | start : Run t [] { terms := t }
  | step {events more : List Event} {s s' : Staff} :
    Run t events s → s.Step more s' → Run t (events ++ more) s'

variable {s s' : Staff} {events more : List Event}

theorem Step.terms_eq (h : s.Step more s') : s'.terms = s.terms := by
  cases h <;> rfl

theorem Run.terms_eq (h : Run t events s) : s.terms = t := by
  induction h with
  | start => rfl
  | step _ hstep ih => exact hstep.terms_eq.trans ih

/-- Moves of a staff one after the other, with what can be seen of it on the way. -/
inductive Steps (s : Staff) : List Event → Staff → Prop
  | refl : Steps s [] s
  | tail {events more : List Event} {s' s'' : Staff} :
    Steps s events s' → s'.Step more s'' → Steps s (events ++ more) s''

theorem Steps.single (h : s.Step more s') : s.Steps more s' := .tail .refl h

theorem Steps.trans {s'' : Staff} (h : s.Steps events s') (h' : s'.Steps more s'') :
    s.Steps (events ++ more) s'' := by
  induction h' with
  | refl => rwa [List.append_nil]
  | tail _ hstep ih =>
    rw [← List.append_assoc]
    exact ih.tail hstep

theorem Run.steps (h : Run t events s) (hsteps : s.Steps more s') :
    Run t (events ++ more) s' := by
  induction hsteps with
  | refl => rwa [List.append_nil]
  | tail _ hstep ih =>
    rw [← List.append_assoc]
    exact ih.step hstep

/-- Outside of a shutdown nobody but workers waits for drains. In a shutdown nobody is on duty, and
no handle is left for the next worker. -/
def HoldsHandles (isStopping : Bool) (c : Crew) : Prop :=
  if isStopping then c.onDuty = none ∧ c.draining = none else c.joining = none

/-- A move of the crew of a container is nothing to the others, or hardly anything. -/
theorem shifts_of_step (id : ContainerId) {other : ContainerId} {m : Crew.Move} {c : Crew}
    {happenings : List Happening}
    (hstep : (s.crews other).step s.terms other m = some (c, happenings))
    (hself : s'.crews other = c)
    (hrest : other ≠ id → Crew.Shifts s.terms id (s.crews id) [] [] (s'.crews id)) :
    Crew.Shifts s.terms id (s.crews id) (if other = id then m.config?.toList else [])
      (if other = id then happenings else []) (s'.crews id) := by
  split
  next hother =>
    subst hother
    rw [hself]
    exact Crew.shifts_of_step hstep
  next hother => exact hrest hother

/-- What happens to one container is a few shifts of its crew. -/
theorem Step.shifts (h : s.Step more s') (hheld : ∀ id, HoldsHandles s.isStopping (s.crews id))
    (id : ContainerId) :
    Crew.Shifts s.terms id (s.crews id) (called id more) (seen id more) (s'.crews id) := by
  cases h with
  | @configure other netns config c happenings hrun hstep =>
    simpa using shifts_of_step id hstep (setCrew_crews_self _ c) fun hother ↦ by
      rw [setCrew_crews_of_ne _ hother]
      exact .single .tidies
  | @release other c happenings hrun hstep =>
    simpa using shifts_of_step id hstep (setCrew_crews_self _ c) fun hother ↦ by
      rw [setCrew_crews_of_ne _ hother]
      exact .refl
  | @task other m c happenings htask hstep =>
    have hshifts := shifts_of_step id hstep (setCrew_crews_self s c) fun hother ↦ by
      rw [setCrew_crews_of_ne _ hother]
      exact .refl
    rw [Crew.config?_of_task htask] at hshifts
    simpa using hshifts
  | shutDown hrun =>
    have hstep : (s.crews id).step s.terms id .shutDown = some ((s.crews id).shutDown, []) := by
      have hjoining : (s.crews id).joining = none := by simpa [HoldsHandles, hrun] using hheld id
      exact if_pos (by simp [hjoining])
    exact Crew.shifts_of_step hstep
  | @join other c happenings hrun hstep =>
    simpa using shifts_of_step id hstep (setCrew_crews_self _ c) fun hother ↦ by
      rw [setCrew_crews_of_ne _ hother]
      exact .refl
  | stopped => exact .refl

/-! ## Shutdowns -/

theorem handles_of_task {m : Crew.Move} {c c' : Crew} {happenings : List Happening}
    (htask : m.isOfTask = true) (hstep : c.step t id m = some (c', happenings)) :
    c'.onDuty = c.onDuty ∧ c'.draining = c.draining ∧ c'.joining = c.joining := by
  cases m with
  | call | tidy | shutDown | join => exact absurd htask nofun
  | work | drain =>
    obtain ⟨_, _, -, -, rfl⟩ := Crew.move_eq_some_iff.mp hstep
    exact ⟨rfl, rfl, rfl⟩
  | deliver i =>
    obtain ⟨r, -, hstep⟩ := Option.map_eq_some_iff.mp hstep
    cases hstep
    exact ⟨rfl, rfl, rfl⟩

theorem forall_setCrew {P : Crew → Prop} {other : ContainerId} {c : Crew} (hcrew : P c)
    (hrest : ∀ id, P (s.crews id)) (id : ContainerId) : P ((s.setCrew other c).crews id) := by
  by_cases hother : other = id
  · subst hother
    rwa [setCrew_crews_self]
  · rw [setCrew_crews_of_ne s hother]
    exact hrest id

theorem Step.holdsHandles (h : s.Step more s')
    (hheld : ∀ id, HoldsHandles s.isStopping (s.crews id))
    (hsound : ∀ id, (s.crews id).Sound s.terms id) :
    ∀ id, HoldsHandles s'.isStopping (s'.crews id) := by
  cases h with
  | @configure other netns config c happenings hrun hstep =>
    obtain ⟨-, hstep⟩ := Option.ite_none_right_eq_some.mp hstep
    -- outside of a shutdown nothing is waited for, and tidying up does not change that
    have hjoining (id : ContainerId) : (s.crews id).joining = none := by
      simpa [HoldsHandles, hrun] using hheld id
    have hcrew := (Crew.joining_configure s.terms other _ netns config).trans (hjoining other)
    rw [Option.some.inj hstep] at hcrew
    have hall : ∀ id, ((Staff.setCrew { s with crews := fun id ↦ (s.crews id).tidy }
        other c).crews id).joining = none :=
      forall_setCrew (P := (·.joining = none)) hcrew hjoining
    simpa [HoldsHandles, hrun] using hall
  | @release other c happenings hrun hstep =>
    obtain ⟨-, hstep⟩ := Option.ite_none_right_eq_some.mp hstep
    cases hstep
    refine forall_setCrew ?_ hheld
    simpa [HoldsHandles, hrun] using hheld other
  | @task other m c happenings htask hstep =>
    obtain ⟨hduty, hdraining, hjoining⟩ := handles_of_task htask hstep
    refine forall_setCrew ?_ hheld
    simpa [HoldsHandles, hduty, hdraining, hjoining] using hheld other
  | shutDown hrun => exact fun id ↦ ⟨(hsound id).onDuty_release, rfl⟩
  | @join other c happenings hrun hstep =>
    obtain ⟨-, hstep⟩ := Option.ite_none_right_eq_some.mp hstep
    cases hstep
    refine forall_setCrew ?_ hheld
    simpa [HoldsHandles, hrun] using hheld other
  | stopped _ hjoined => exact hjoined

/-- In a run, what happens to a container are shifts of its crew, one after the other. -/
theorem Run.shifts_and_handles (h : Run t events s) :
    (∀ id, Crew.Shifts t id {} (called id events) (seen id events) (s.crews id)) ∧
      ∀ id, HoldsHandles s.isStopping (s.crews id) := by
  -- on the run; that a shutdown can be a shift at all is due to the handles, so both go together
  induction h with
  | start => exact ⟨fun _ ↦ .refl, fun _ ↦ rfl⟩
  | @step events more s s' hrun hstep ih =>
    obtain ⟨hshifts, hheld⟩ := ih
    obtain rfl := hrun.terms_eq
    refine ⟨fun id ↦ ?_, hstep.holdsHandles hheld fun id ↦ (hshifts id).sound⟩
    rw [called_append, seen_append]
    exact (hshifts id).trans (hstep.shifts hheld id)

theorem Run.shifts (h : Run t events s) (id : ContainerId) :
    Crew.Shifts t id {} (called id events) (seen id events) (s.crews id) :=
  h.shifts_and_handles.1 id

theorem Run.sound (h : Run t events s) (id : ContainerId) : (s.crews id).Sound t id :=
  (h.shifts id).sound

theorem Run.shifts_of_step (h : Run t events s) (hstep : s.Step more s') (id : ContainerId) :
    Crew.Shifts t id (s.crews id) (called id more) (seen id more) (s'.crews id) := by
  obtain rfl := h.terms_eq
  exact hstep.shifts h.shifts_and_handles.2 id

theorem Run.shifts_of_steps (h : Run t events s) (hsteps : s.Steps more s') (id : ContainerId) :
    Crew.Shifts t id (s.crews id) (called id more) (seen id more) (s'.crews id) := by
  induction hsteps with
  | refl => exact .refl
  | tail hsteps hstep ih =>
    rw [called_append, seen_append]
    exact ih.trans ((h.steps hsteps).shifts_of_step hstep id)

/-- A call is a move of the crew of its container. Of the others handles are thrown away at most. -/
theorem Step.of_call {call : Call} (h : s.Step (.called id call :: more) s') :
    ∃ happenings, (s.crews id).step s.terms id (.call call) = some (s'.crews id, happenings) ∧
      more = happenings.map (.happening id) ∧ s'.isStopping = s.isStopping ∧
      ∀ other, other ≠ id →
        s'.crews other = s.crews other ∨ s'.crews other = (s.crews other).tidy := by
  have hof (all : List Event) (hstep : s.Step all s') (hall : all = .called id call :: more) :
      ∃ happenings, (s.crews id).step s.terms id (.call call) =
        some (s'.crews id, happenings) ∧ more = happenings.map (.happening id) ∧
        s'.isStopping = s.isStopping ∧ ∀ other, other ≠ id →
          s'.crews other = s.crews other ∨ s'.crews other = (s.crews other).tidy := by
    cases hstep with
    | @configure _ _ _ c happenings hrun hstep =>
      cases hall
      exact ⟨happenings, by rwa [setCrew_crews_self], rfl, rfl,
        fun other hne ↦ .inr (setCrew_crews_of_ne _ hne.symm c)⟩
    | @release _ c happenings hrun hstep =>
      cases hall
      exact ⟨happenings, by rwa [setCrew_crews_self], rfl, rfl,
        fun other hne ↦ .inl (setCrew_crews_of_ne _ hne.symm c)⟩
    | shutDown | stopped => simp at hall
    | task | join => simp [List.map_eq_cons_iff] at hall
  exact hof _ h rfl

theorem Step.of_stopped (h : s.Step [.stopped] s') :
    s.isStopping = true ∧ (∀ id, (s.crews id).joining = none) ∧ s'.crews = s.crews := by
  have hof (more : List Event) (hstep : s.Step more s') (hmore : more = [.stopped]) :
      s.isStopping = true ∧ (∀ id, (s.crews id).joining = none) ∧ s'.crews = s.crews := by
    cases hstep with
    | stopped hrun hjoined => exact ⟨hrun, hjoined, rfl⟩
    | configure | release | shutDown => simp at hmore
    | task | join => simp [List.map_eq_cons_iff] at hmore
  exact hof _ h rfl

/-- **When a shutdown is through**, all workers that were ever hired have ended, and all drains. -/
theorem Run.all_finished (h : Run t events s) (hstop : s.Step [.stopped] s') {id : ContainerId}
    {st : Stint} (hst : st ∈ (s.crews id).stints) :
    st.isOver = true ∧ st.drain = some .finished := by
  obtain ⟨hrun, hjoined, -⟩ := hstop.of_stopped
  obtain ⟨k, hk⟩ := List.mem_iff_getElem?.mp hst
  obtain ⟨hduty, hdraining⟩ : (s.crews id).onDuty = none ∧ (s.crews id).draining = none := by
    simpa [HoldsHandles, hrun] using h.shifts_and_handles.2 id
  exact (h.sound id).finished_of_idle hduty hdraining (hjoined id) hk

/-! ## One container alone -/

/-- A staff that there is work for in one container only. -/
def alone (t : Terms) (id : ContainerId) (isStopping : Bool) (c : Crew) : Staff :=
  Staff.setCrew { terms := t, isStopping } id c

section

variable {isStopping : Bool} {c c' : Crew} {happenings : List Happening}

theorem eq_alone (hterms : s.terms = t) (hstopping : s.isStopping = isStopping)
    (hself : s.crews id = c) (hrest : ∀ other, other ≠ id → s.crews other = {}) :
    s = alone t id isStopping c := by
  obtain ⟨terms, crews, isStopping⟩ := s
  cases hterms
  cases hstopping
  refine congrArg (Staff.mk _ · _) (funext fun other ↦ ?_)
  split
  next hother => rw [hother]; exact hself
  next hother => exact hrest other hother

@[simp] theorem alone_crews_self : (alone t id isStopping c).crews id = c :=
  setCrew_crews_self _ c

theorem alone_crews_of_ne {other : ContainerId} (hne : other ≠ id) :
    (alone t id isStopping c).crews other = {} :=
  setCrew_crews_of_ne _ hne.symm c

theorem Run.alone_start : Run t [] (alone t id false {}) := by
  rw [← eq_alone (s := { terms := t }) rfl rfl rfl fun _ _ ↦ rfl]
  exact .start

theorem Step.alone_of_idle (hstep : (alone t id isStopping c).Step more s')
    (hself : s'.crews id = c') (hrest : ∀ other, other ≠ id → s'.crews other = {}) :
    (Staff.alone t id isStopping c).Step more (Staff.alone t id s'.isStopping c') := by
  rwa [eq_alone (s := s') hstep.terms_eq rfl hself hrest] at hstep

theorem Step.alone_call (call : Call)
    (hstep : c.step t id (.call call) = some (c', happenings)) :
    (Staff.alone t id false c).Step (.called id call :: happenings.map (.happening id))
      (Staff.alone t id false c') := by
  have hstep' : ((Staff.alone t id false c).crews id).step (Staff.alone t id false c).terms id
      (.call call) = some (c', happenings) := by rwa [alone_crews_self]
  cases call with
  | configure =>
    refine (Step.configure rfl hstep').alone_of_idle (setCrew_crews_self _ c') fun other hother ↦ ?_
    rw [setCrew_crews_of_ne _ hother.symm]
    exact congrArg Crew.tidy (alone_crews_of_ne hother)
  | release =>
    refine (Step.release rfl hstep').alone_of_idle (setCrew_crews_self _ c') fun other hother ↦ ?_
    rw [setCrew_crews_of_ne _ hother.symm, alone_crews_of_ne hother]

theorem Step.alone_task (m : Crew.Move) (htask : m.isOfTask = true)
    (hstep : c.step t id m = some (c', happenings)) :
    (Staff.alone t id isStopping c).Step (happenings.map (.happening id))
      (Staff.alone t id isStopping c') := by
  have hstep' : ((Staff.alone t id isStopping c).crews id).step
      (Staff.alone t id isStopping c).terms id m = some (c', happenings) := by
    rwa [alone_crews_self]
  refine (Step.task htask hstep').alone_of_idle (setCrew_crews_self _ c') fun other hother ↦ ?_
  rw [setCrew_crews_of_ne _ hother.symm, alone_crews_of_ne hother]

theorem Run.alone_call (call : Call) (h : Run t events (alone t id false c))
    (hstep : c.step t id (.call call) = some (c', happenings)) :
    Run t (events ++ (.called id call :: happenings.map (.happening id)))
      (alone t id false c') :=
  h.step (.alone_call call hstep)

theorem Run.alone_task (m : Crew.Move) (h : Run t events (alone t id isStopping c))
    (htask : m.isOfTask = true) (hstep : c.step t id m = some (c', happenings)) :
    Run t (events ++ happenings.map (.happening id)) (alone t id isStopping c') :=
  h.step (.alone_task m htask hstep)

theorem Steps.alone_tasks {moves : List Crew.Move} (htask : ∀ m ∈ moves, m.isOfTask = true)
    (hmoves : moveAll (fun c m ↦ Crew.step c t id m) moves c = some (c', happenings)) :
    (alone t id isStopping c).Steps (happenings.map (.happening id))
      (alone t id isStopping c') := by
  induction moves generalizing c happenings with
  | nil =>
    cases hmoves
    exact .refl
  | cons m moves ih =>
    obtain ⟨c₁, first, rest, hfirst, hrest, rfl⟩ := moveAll_cons_eq_some_iff.mp hmoves
    obtain ⟨hm, htask⟩ := List.forall_mem_cons.mp htask
    rw [List.map_append]
    exact (Steps.single (.alone_task m hm hfirst)).trans (ih htask hrest)

theorem Run.alone_tasks {moves : List Crew.Move} (h : Run t events (alone t id isStopping c))
    (htask : ∀ m ∈ moves, m.isOfTask = true)
    (hmoves : moveAll (fun c m ↦ Crew.step c t id m) moves c = some (c', happenings)) :
    Run t (events ++ happenings.map (.happening id)) (alone t id isStopping c') :=
  h.steps (.alone_tasks htask hmoves)

theorem Run.alone_shutDown (h : Run t events (alone t id false c)) :
    Run t (events ++ [.shutDown]) (alone t id true c.shutDown) := by
  refine h.step ((Step.shutDown rfl).alone_of_idle (congrArg Crew.shutDown alone_crews_self)
    fun other hother ↦ ?_)
  exact congrArg Crew.shutDown (alone_crews_of_ne hother)

theorem Run.alone_join (h : Run t events (alone t id true c))
    (hstep : c.step t id .join = some (c', happenings)) :
    Run t (events ++ happenings.map (.happening id)) (alone t id true c') := by
  have hstep' : ((alone t id true c).crews id).step (alone t id true c).terms id .join =
      some (c', happenings) := by rwa [alone_crews_self]
  refine h.step ((Step.join rfl hstep').alone_of_idle (setCrew_crews_self _ c')
    fun other hother ↦ ?_)
  rw [setCrew_crews_of_ne _ hother.symm, alone_crews_of_ne hother]

theorem alone_stopped (hjoining : c.joining = none) :
    (alone t id true c).Step [.stopped] { alone t id true c with isStopping := false } := by
  refine .stopped rfl fun other ↦ ?_
  by_cases hother : other = id
  · rw [hother, alone_crews_self, hjoining]
  · rw [alone_crews_of_ne hother]

end

end Staff

end ContainerNet.Sidecar
