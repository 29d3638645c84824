import ContainerNet.Proofs.Sidecar.Turns

/-!
# Lifetimes of workers

A `Lifetime` is what is seen of a worker from its beginning to its end. The namespace is opened
first. If that succeeds, configurations are taken, acted on and reported one at a time, and in the
end the handle on the kernel is given back, once, and the worker is reported as released. If it
fails, configurations are refused one at a time until the worker is released.

A worker does not remember what it has done, but its stage tells: `Worker.Past` says which
happenings can have led to a stage, and each move adds one (`Worker.Past.advance`). The past of a
worker that is over is a lifetime, but for the report (`Worker.Past.lifetime`).
-/

namespace ContainerNet

open Sidecar

/-- Whatever the world answers, the configurator is open in the end. -/
def Action.LeavesOpen (work : Action (Outcome Unit × Configurator)) : Prop :=
  ∀ outcome c, work.Ends (fun _ _ _ _ ↦ True) () (outcome, c) () → c.closed = false

theorem Action.LeavesOpen.next {q : Effect} {next : q.Answer → Action (Outcome Unit × Configurator)}
    (h : LeavesOpen (.ask q next)) (answer : q.Answer) : LeavesOpen (next answer) :=
  fun outcome c hends ↦ h outcome c ⟨answer, (), trivial, hends⟩

theorem Configurator.leavesOpen_configure {c : Configurator} (hopen : c.closed = false)
    (config : NetworkConfig) : Action.LeavesOpen (configure config c) :=
  fun _ _ hends ↦ (keeps_identity hends ⟨hopen, rfl⟩).1

namespace Sidecar

variable {t : Terms} {id : ContainerId} {netns : String} {isSealed : Bool} {m : Lane.Move}

/-! ## What a lifetime looks like -/

/-- A configuration that is taken, acted on without giving the handle on the kernel back, and
reported. -/
inductive Job (id : ContainerId) : List Happening → Prop
  | intro (config : NetworkConfig) (asked : List Effect) (outcome : Outcome Unit)
    (c : Configurator) : (∀ q ∈ asked, q.isClose = false) →
    Job id (.took config :: asked.map .acted ++ [.reported (Worker.report id config outcome c)])

/-- A configuration that is taken and refused, since the namespace could not be opened. -/
inductive Refusal (id : ContainerId) (netns : String) (why : Error) : List Happening → Prop
  | intro (config : NetworkConfig) :
    Refusal id netns why
      [.took config, .reported (({ netns } : Worker).refusal id config why)]

/-- What is seen of a worker from its beginning until it is reported as released. -/
inductive Lifetime (id : ContainerId) (netns : String) : List Happening → Prop
  | served {jobs : List (List Happening)} : (∀ job ∈ jobs, Job id job) →
    Lifetime id netns ([.opening netns, .opened netns (.ok ())] ++ jobs.flatten ++
      [.acted .closeKernel, .reported (.released id)])
  | refused {why : Error} {refusals : List (List Happening)} :
    (∀ r ∈ refusals, Refusal id netns why r) →
    Lifetime id netns ([.opening netns, .opened netns (.error why)] ++ refusals.flatten ++
      [.reported (.released id)])

/-! ## The past of a worker -/

/-- What can have been seen of a worker that is at a stage. -/
inductive Worker.Past (id : ContainerId) (netns : String) : Worker.Stage → List Happening → Prop
  | fresh : Past id netns .fresh []
  | opening : Past id netns .opening [.opening netns]
  | refused {why : Error} {refusals : List (List Happening)} :
    (∀ r ∈ refusals, Refusal id netns why r) →
    Past id netns (.refused why none)
      ([.opening netns, .opened netns (.error why)] ++ refusals.flatten)
  | refusing {why : Error} {refusals : List (List Happening)} {config : NetworkConfig} :
    (∀ r ∈ refusals, Refusal id netns why r) →
    Past id netns (.refused why (some config))
      ([.opening netns, .opened netns (.error why)] ++ refusals.flatten ++ [.took config])
  | ready {jobs : List (List Happening)} {c : Configurator} : (∀ job ∈ jobs, Job id job) →
    c.closed = false →
    Past id netns (.ready c) ([.opening netns, .opened netns (.ok ())] ++ jobs.flatten)
  | busy {jobs : List (List Happening)} {config : NetworkConfig} {asked : List Effect}
      {work : Action (Outcome Unit × Configurator)} : (∀ job ∈ jobs, Job id job) →
    (∀ q ∈ asked, q.isClose = false) → work.HoldsKernel → work.LeavesOpen →
    Past id netns (.busy config work) ([.opening netns, .opened netns (.ok ())] ++ jobs.flatten ++
      .took config :: asked.map .acted)
  | closing {jobs : List (List Happening)} {c : Configurator} : (∀ job ∈ jobs, Job id job) →
    Past id netns (.closing (.done c)) ([.opening netns, .opened netns (.ok ())] ++ jobs.flatten ++
      [.acted .closeKernel])

namespace Worker

variable {w w' : Worker} {e : Happening} {now : List Happening}

/-- Giving the namespace back is one request, if it has not been made before. -/
theorem eq_closeKernel_of_close {c : Configurator} {q : Effect}
    {next : q.Answer → Action Configurator} (hclose : c.close = .ask q next) (answer : q.Answer) :
    (.acted q : Happening) = .acted .closeKernel ∧ ∃ c', next answer = .done c' := by
  rw [Configurator.close] at hclose
  split at hclose
  · cases hclose
  · cases hclose
    exact ⟨rfl, _, rfl⟩

theorem refusal_eq (w : Worker) (config : NetworkConfig) (why : Error) :
    w.refusal id config why = ({ netns := w.netns } : Worker).refusal id config why := rfl

/-- **One move.** What a worker does next fits to its past. -/
theorem Past.advance (hpast : Past id w.netns w.stage now) (h : w.Advance t id isSealed w' e) :
    Past id w'.netns w'.stage (now ++ [e]) := by
  obtain ⟨netns, waiting, stage⟩ := w
  cases h with
  | opening hstage =>
    cases hstage
    cases hpast
    exact .opening
  | opened hstage =>
    cases hstage
    cases hpast
    have hnone : ∀ job ∈ ([] : List (List Happening)), Job id job := by simp
    exact .ready hnone rfl
  | notOpened why hstage =>
    cases hstage
    cases hpast
    have hnone : ∀ r ∈ ([] : List (List Happening)), Refusal id netns why r := by simp
    exact .refused hnone
  | takeRefused hstage hwaiting =>
    cases hstage
    cases hpast with
    | refused hrefusals => exact .refusing hrefusals
  | @refuse why config hstage =>
    cases hstage
    cases hpast with
    | @refusing _ refusals _ hrefusals =>
      have hall : ∀ r ∈ refusals ++ [[.took config,
          .reported (({ netns } : Worker).refusal id config why)]], Refusal id netns why r := by
        simpa [or_imp, forall_and] using ⟨hrefusals, .intro config⟩
      rw [refusal_eq]
      simpa using Past.refused hall
  | @take c config rest hstage hwaiting =>
    cases hstage
    cases hpast with
    | ready hjobs hopen =>
      have hnone : ∀ q ∈ ([] : List Effect), q.isClose = false := by simp
      exact .busy hjobs hnone (Configurator.holdsKernel_configure config c)
        (Configurator.leavesOpen_configure hopen config)
  | @ask config q next answer hstage =>
    cases hstage
    cases hpast with
    | @busy jobs _ asked _ hjobs hasked hholds hleaves =>
      have hall : ∀ q' ∈ asked ++ [q], q'.isClose = false := by
        simpa [or_imp, forall_and] using ⟨hasked, hholds.1⟩
      have hbusy : Past id netns (.busy config (next answer)) _ :=
        .busy hjobs hall (hholds.2 answer) (hleaves.next answer)
      simpa using hbusy
  | @report config outcome c hstage =>
    cases hstage
    cases hpast with
    | @busy jobs _ asked _ hjobs hasked hholds hleaves =>
      have hall : ∀ job ∈ jobs ++ [.took config :: asked.map .acted ++
          [.reported (Worker.report id config outcome c)]], Job id job := by
        simpa [or_imp, forall_and] using ⟨hjobs, .intro config asked outcome c hasked⟩
      have hopen : c.takeWarnings.2.closed = false := hleaves outcome c ⟨rfl, rfl⟩
      have hready : Past id netns (.ready c.takeWarnings.2) _ := .ready hall hopen
      simpa using hready
  | close answer hstage hwaiting hsealed hclose =>
    cases hstage
    obtain ⟨he, c', hnext⟩ := eq_closeKernel_of_close hclose answer
    cases hpast with
    | ready hjobs hopen =>
      rw [he, hnext]
      exact .closing hjobs
  | closing answer hstage =>
    cases hstage
    cases hpast

/-- A worker that is over has had its lifetime, up to the report. -/
theorem Past.lifetime (hpast : Past id w.netns w.stage now)
    (hover : w.turn t id isSealed = .over) :
    Lifetime id w.netns (now ++ [.reported (.released id)]) := by
  obtain ⟨netns, waiting, stage⟩ := w
  rcases stage_of_over hover with ⟨why, hstage, -⟩ | ⟨c, c', hstage, -, -, hclose⟩ | ⟨c, hstage⟩
  · cases hstage
    cases hpast with
    | refused hrefusals => exact .refused hrefusals
  · cases hstage
    cases hpast with
    | ready hjobs hopen =>
      -- the handle is there, so giving it back takes a request
      rw [Configurator.close, hopen] at hclose
      cases hclose
  · cases hstage
    cases hpast with
    | closing hjobs =>
      have hserved : Lifetime id netns _ := .served hjobs
      simpa using hserved

end Worker

/-! ## What is seen of workers -/

/-- Whether the report is of a configuration that was turned away, so that no worker took it. -/
def Report.isTurnedAway (r : Report) : Bool :=
  match r.result with
  | .failed (.queueFull _) | .failed .workerStopped => true
  | _ => false

/-- Whether the happening is of a worker, and not of a call or of a configuration that was turned
away. -/
def Happening.isOfWorker : Happening → Bool
  | .accepted _ | .turnedAway _ | .noted _ => false
  | .reported r => !r.isTurnedAway
  | _ => true

theorem Worker.Advance.isOfWorker {w w' : Worker} {e : Happening}
    (h : w.Advance t id isSealed w' e) : e.isOfWorker = true := by
  cases h with
  | @report config outcome c hstage => cases outcome <;> rfl
  | _ => rfl

end Sidecar

end ContainerNet
