import ContainerNet.Sidecar.Intake
import ContainerNet.Sidecar.Supervisor
import ContainerNet.Simulation.World

/-!
# A host in memory

A supervisor together with everything that its workers ask for: namespaces that open in some time or
never, a kernel behind each, a plugin for each container, and a clock that is stopped at will.

The host is one schedule of the moves that `Supervisor.step` allows. Workers, releases and
deliveries are tasks; a task runs until it has to wait, and tasks that can go on do so in the order
in which they became able to. A task that has ended as many waits as a run may end in one go lets
the others go on before it makes the next attempt, pauses, or takes a configuration. Time passes
only when no task can go on, straight to the next instant at which one can. Calls come in between
and are taken in before any task goes on.
-/

namespace ContainerNet.Simulation

open Sidecar (Call Happening Intake Lane Report Supervisor Terms Worker)

/-- How a namespace opens. -/
structure Opening where
  /-- How long it takes, if it ever ends. -/
  takes : Option Duration := some .zero
  result : Outcome Unit := .ok ()

/-- What a task is there for. -/
inductive Task.Role
  /-- To run a worker. -/
  | work
  /-- To wait for the end of a worker and to report it. -/
  | release
  /-- To deliver a report of a configuration that was turned away. -/
  | deliver
deriving DecidableEq

/-- A task of a host. Workers of one container are told apart by their number. -/
structure Task where
  shift : Nat
  container : ContainerId
  number : Nat
  role : Task.Role
deriving DecidableEq

/-- Something that a task waits for. -/
structure Wait where
  task : Task
  since : Duration
  /-- When it is done, if ever. -/
  finish : Option Duration
  /-- When it is given up. -/
  limit : Option Duration := none
  /-- The attempt that is under way, and the kernel that it is made on. -/
  attempt : Option (Attempt × Option Nat) := none

/-- The kernel behind a namespace that a worker has opened. -/
structure OpenKernel where
  owner : Task
  netns : String
  kernel : Kernel := {}

/-- What can be seen from outside. -/
inductive Seen
  | happening (container : ContainerId) (h : Happening)
  /-- A line of the input was skipped. -/
  | skipped (fault : Json.Fault)

structure Host where
  namespaces : String → Opening := fun _ ↦ {}
  /-- The supervisors. Only the last one takes calls; a shutdown that was given up has left the
  workers of the others behind. -/
  supervisors : List Supervisor
  now : Duration := .zero
  cancelled : Bool := false
  /-- The plugins, by container. -/
  plugins : List (String × ScriptedPlugin) := []
  /-- The kernels, in the order in which they were opened. -/
  kernels : List OpenKernel := []
  /-- The tasks that can go on, in the order in which they do. -/
  ready : List Task := []
  /-- When tasks can go on that wait for a moment, the next one first. -/
  timers : List (Duration × Task) := []
  waits : List Wait := []
  /-- The tasks of workers that wait for the end of the one before. -/
  followers : List Task := []
  /-- How many waits the task that runs may still end before it gives way. -/
  allowance : Nat := Clock.fullAllowance
  /-- What was seen, last first. -/
  seen : List Seen := []

namespace Host

variable (h : Host)

/-- A host with a supervisor that has not been called. -/
def start (terms : Terms) (namespaces : String → Opening)
    (plugins : List (String × ScriptedPlugin)) : Host :=
  { namespaces, plugins, supervisors := [{ terms }] }

/-- The number of the supervisor that takes calls. -/
def shift : Nat := h.supervisors.length - 1

def supervisorAt (shift : Nat) : Supervisor := h.supervisors.getD shift {}

/-- The supervisor that takes calls. -/
def supervisor : Supervisor := h.supervisorAt h.shift

def setSupervisor (shift : Nat) (s : Supervisor) : Host :=
  { h with supervisors := h.supervisors.set shift s }

def laneOf (t : Task) : Lane := (h.supervisorAt t.shift).lane t.container

def observe (id : ContainerId) (l : List Happening) : Host :=
  { h with seen := (l.map (Seen.happening id)).reverse ++ h.seen }

/-- Makes a move in the lane of a task. -/
def move (t : Task) (m : Lane.Move) : Host :=
  match (h.supervisorAt t.shift).step t.container m with
  | some (s, l) => (h.setSupervisor t.shift s).observe t.container l
  | none => h

/-! ## Tasks and time -/

/-- Appends a task to those that can go on. -/
def spawn (t : Task) : Host := { h with ready := h.ready ++ [t] }

/-- Lets a task go on, if it does not already. -/
def wake (t : Task) : Host := if h.ready.contains t then h else h.spawn t

/-- Puts a moment among others, behind those that are the same. -/
def insertTimer (due : Duration) (t : Task) : List (Duration × Task) → List (Duration × Task)
  | [] => [(due, t)]
  | (d, u) :: rest =>
    if d.nanos ≤ due.nanos then (d, u) :: insertTimer due t rest else (due, t) :: (d, u) :: rest

/-- Makes a task wait. -/
def await (w : Wait) : Host :=
  let due? := match w.finish, w.limit with
    | some f, some l => some (if f.nanos ≤ l.nanos then f else l)
    | f, l => f.or l
  { h with
    waits := h.waits ++ [w]
    timers := match due? with
      | some due => insertTimer due w.task h.timers
      | none => h.timers }

def waitOf (t : Task) : Option Wait := h.waits.find? (·.task = t)

/-- Ends the wait of a task. -/
def resume (t : Task) : Host :=
  { h with waits := h.waits.filter (·.task ≠ t), timers := h.timers.filter (·.2 ≠ t) }

/-- The moment that lies `d` ahead. -/
def after (d : Duration) : Duration := ⟨h.now.nanos + d.nanos⟩

/-- The moment at which a wait of some length ends that begins now. -/
def afterWait (length : Duration) : Duration := h.after (Timer.lasting length)

/-- Counts the end of a wait of the task that runs. -/
def spend : Host := { h with allowance := h.allowance - 1 }

/-- Lets a task give way if it may end no more waits: it is over if the limit is reached, and
otherwise it goes on behind those that can go on already. Says how it is over, if it gives way. -/
def giveWay {α : Type} (t : Task) (within : Option Duration) :
    Option (Option (Ending α)) × Host :=
  if h.allowance ≠ 0 then (none, h)
  else if within.any (·.isZero) then (some (some .expired), h)
  else (some none, h.wake t)

/-- Whether a moment has come. -/
def isPast (moment : Option Duration) : Bool := moment.any (·.nanos ≤ h.now.nanos)

/-- How a wait ends, if it does now. The token counts before the end and the end before the
limit. -/
def ending (w : Wait) : Option (Ending Unit) :=
  if h.cancelled then some .cancelled
  else if h.isPast w.finish then some (.finished ⟨h.now.nanos - w.since.nanos⟩ ())
  else if h.isPast w.limit then some .expired
  else none

/-- Lets time pass up to a moment; what was waiting for that goes on. -/
def passTo (moment : Duration) : Host :=
  let (due, later) := h.timers.span (·.1.nanos ≤ moment.nanos)
  (due.map (·.2)).foldl wake { h with now := moment, timers := later }

/-! ## Answering workers -/

/-- The index of the kernel that was last opened behind a path. -/
def kernelBehind? (netns : String) : Option Nat :=
  ((h.kernels.zipIdx.filter fun (k, _) ↦ Path.same k.netns netns).getLast?).map (·.2)

/-- The index of the kernel of a worker. -/
def kernelOf? (t : Task) : Option Nat := h.kernels.findIdx? (·.owner = t)

def pluginOf (id : String) : ScriptedPlugin := ((h.plugins.find? (·.1 = id)).map (·.2)).getD {}

def setPlugin (id : String) (p : ScriptedPlugin) : Host :=
  { h with plugins := (id, p) :: h.plugins.filter (·.1 ≠ id) }

/-- What a container finds behind a kernel: the kernel and the plugin. -/
def world (index : Option Nat) (id : String) : World where
  kernel := ((index.bind (h.kernels[·]?)).map (·.kernel)).getD {}
  plugin := h.pluginOf id
  clock := { now := h.now, cancelAt := if h.cancelled then some .zero else none }

def setWorld (index : Option Nat) (id : String) (w : World) : Host :=
  let kernels := match index with
    | some i => h.kernels.modify i fun k ↦ { k with kernel := w.kernel }
    | none => h.kernels
  { h with kernels }.setPlugin id w.plugin

/-- Answers a request at once from what stands behind a kernel. -/
def answerAt (index : Option Nat) (id : String) (q : Effect) : q.Answer × Host :=
  let (a, w) := World.answer q (h.world index id)
  (a, h.setWorld index id w)

/-- The end of an attempt to attach. -/
def complete (attempt : Attempt) (index : Option Nat) (list : Plugin.ConfigList)
    (rt : Plugin.Runtime) : Outcome Plugin.Result × Host :=
  let w := h.world index rt.containerId
  let (result, plugin, kernel) := w.plugin.complete attempt list rt w.kernel
  (result, h.setWorld index rt.containerId { w with plugin, kernel })

/-- The beginning of an attempt to attach. -/
def beginAttempt (index : Option Nat) (list : Plugin.ConfigList) (rt : Plugin.Runtime)
    (earlier : Nat) (within : Option Duration) : Attempt × Host :=
  let w := h.world index rt.containerId
  let kernel := w.kernel.record (.attach list rt earlier within) false
  let (attempt, plugin) := w.plugin.next
  (attempt, h.setWorld index rt.containerId { w with plugin, kernel })

/-- Lets a task wait for some time, if it waits at all, for the sake of an attempt or of none. Says
how the wait ends, if it does at once. -/
def wait (t : Task) (length within : Option Duration)
    (attempt : Option (Attempt × Option Nat)) : Option (Ending Unit) × Host :=
  match length with
  | none => (some (.finished .zero ()), h)
  | some length =>
    if length.isZero then (some (.finished .zero ()), h.spend)
    else if within.any (·.isZero) then (some .expired, h.spend)
    else (none, h.await ⟨t, h.now, some (h.afterWait length), within.map h.after, attempt⟩)

/-- Ends the wait of a task if it ends now, and says how. -/
def endWait (t : Task) (w : Wait) : Option (Ending Unit) × Host :=
  match h.ending w with
  | none => (none, h)
  | some .cancelled => (some .cancelled, h.resume t)
  | some ending => (some ending, (h.resume t).spend)

/-- The answer to an attempt, given how its wait ends, if it does. -/
def completeAfter (attempt : Attempt) (index : Option Nat) (list : Plugin.ConfigList)
    (rt : Plugin.Runtime) :
    Option (Ending Unit) × Host → Option (Ending (Outcome Plugin.Result)) × Host
  | (none, h) => (none, h)
  | (some .cancelled, h) => (some .cancelled, h)
  | (some .expired, h) => (some .expired, h)
  | (some (.finished took ()), h) =>
    let (result, h) := h.complete attempt index list rt
    (some (.finished took result), h)

/-- Answers a worker, unless it has to wait. -/
def answer (t : Task) : (q : Effect) → Option q.Answer × Host
  | .attach list rt earlier within =>
    match h.waitOf t with
    | none =>
      match h.giveWay t (Retry.limitBefore earlier within) with
      | (some ending?, h) => (ending?, h)
      | (none, h) =>
        let index := h.kernelBehind? rt.netns
        let (attempt, h) := h.beginAttempt index list rt earlier within
        completeAfter attempt index list rt
          (h.wait t attempt.delay within (some (attempt, index)))
    | some w =>
      let (attempt, index) := w.attempt.getD ({}, none)
      completeAfter attempt index list rt (h.endWait t w)
  | .pause length within =>
    match h.waitOf t with
    | none =>
      match h.giveWay t within with
      | (some ending?, h) => (ending?, h)
      | (none, h) => h.wait t (some length) within none
    | some w => h.endWait t w
  | .detach list rt =>
    let (a, h) := h.answerAt (h.kernelBehind? rt.netns) rt.containerId (.detach list rt)
    (some a, h)
  | q =>
    let (a, h) := h.answerAt (h.kernelOf? t) t.container.text q
    (some a, h)

/-- Opens the namespace of a worker, unless that takes longer. -/
def openFor (t : Task) (netns : String) : Option (Outcome Unit) × Host :=
  let opening := h.namespaces netns
  let opened (h : Host) : Option (Outcome Unit) × Host :=
    match opening.result with
    | .ok () => (some (.ok ()), { h with kernels := h.kernels ++ [⟨t, netns, {}⟩] })
    | .error e => (some (.error e), h)
  match h.waitOf t with
  | none =>
    match opening.takes with
    | some d =>
      if d.isZero then opened h
      else (none, h.await ⟨t, h.now, some (h.afterWait d), none, none⟩)
    | none => (none, h.await ⟨t, h.now, none, none, none⟩)
  | some w => if h.isPast w.finish then opened (h.resume t).spend else (none, h)

/-! ## Running -/

/-- What a worker is about to do, if it is the first of its lane. -/
def turnOf (t : Task) : Option Worker.Turn :=
  let l := h.laneOf t
  if l.gone = t.number then
    l.first?.map fun (w, isSealed) ↦ w.turn (h.supervisorAt t.shift).terms t.container isSealed
  else none

/-- Runs a worker for one turn, and says whether it can go on. -/
def work (t : Task) : Host × Bool :=
  match h.turnOf t with
  | none | some .idle => (h, false)
  | some .over => (h.wake { t with role := .release }, false)
  | some (.begins _) =>
    ((if h.followers.contains t then h.spend else h).move t .advance, true)
  | some (.takes _ _) =>
    if h.allowance = 0 then (h.wake t, false) else (h.spend.move t .advance, true)
  | some (.reports _ _) => (h.move t .advance, true)
  | some (.opens netns _) =>
    match h.openFor t netns with
    | (none, h) => (h, false)
    | (some result, h) => (h.move t (.opened result), true)
  | some (.acts q _) =>
    match h.answer t q with
    | (none, h) => (h, false)
    | (some _, next) =>
      (next.move t (.answered fun q ↦ (h.answer t q).1.getD (World.answer q {}).1), true)

/-- Reports the end of a worker that is done, and lets the next one begin. -/
def finish (t : Task) : Host :=
  match h.turnOf t with
  | some .over =>
    let h := h.move t .advance
    if (h.laneOf t).first?.isSome then
      h.wake { t with number := t.number + 1, role := .work }
    else h
  | _ => h

/-- Runs a task for one turn, and says whether it can go on. -/
def runTask (t : Task) : Host × Bool :=
  match t.role with
  | .work => h.work t
  | .release => (h.finish t, false)
  | .deliver => (h.move t (.deliver 0), false)

/-- Runs tasks until none can go on, for `turns` turns at most. A task that others have run before
begins with a full allowance. -/
def runTasks : (turns : Nat) → Host → Nat × Host
  | 0, h => (0, h)
  | turns + 1, h =>
    match h.ready with
    | [] => (turns + 1, h)
    | t :: rest =>
      match runTask { h with ready := rest } t with
      | (h, true) => runTasks turns { h with ready := t :: h.ready }
      | (h, false) => runTasks turns { h with allowance := Clock.fullAllowance }

/-- Runs tasks and lets time pass until `done`, or until a moment, or for `turns` turns. Says
whether it was `done` before the moment. -/
def runUntil (done : Host → Bool) (moment : Duration) : (turns : Nat) → Host → Bool × Host
  | 0, h => (done h, h)
  | turns + 1, h =>
    let h := (runTasks (turns + 1) h).2
    if done h then (true, h)
    else match h.timers with
      | [] => (false, h.passTo moment)
      | (due, _) :: _ =>
        if due.nanos < moment.nanos then runUntil done moment turns (h.passTo due)
        else (false, h.passTo moment)

/-- More turns than any run needs that comes to an end. -/
def patience : Nat := 10000000

/-! ## From outside -/

/-- Appends the task of a new worker, which may have to wait for the one before. -/
def begin (t : Task) (follows : Bool) : Host :=
  let h := h.spawn t
  if follows then { h with followers := t :: h.followers } else h

/-- Takes in a call. -/
def call (id : ContainerId) (c : Call) : Host :=
  let s := h.supervisor
  let before := s.lane id
  let task (number : Nat) (role : Task.Role) : Task := ⟨h.shift, id, number, role⟩
  let isIdle := match h.turnOf (task before.currentNumber .work) with
    | some .idle => true
    | _ => false
  let (s, l) := s.call id c
  let later := s.lane id
  let released := before.leaving.length < later.leaving.length
  let h := (h.setSupervisor h.shift s).observe id l
  let h := if isIdle then h.wake (task before.currentNumber .work) else h
  let h := if released then h.spawn (task before.currentNumber .release) else h
  let h := if later.current.isSome && (released || before.current.isNone) then
    h.begin (task later.currentNumber .work) (!later.leaving.isEmpty) else h
  if before.undelivered.length < later.undelivered.length then h.spawn (task 0 .deliver) else h

/-- Takes in what a line of the input means. -/
def takeIn : Intake → Host
  | .call id c => h.call id c
  | .skip fault => { h with seen := .skipped fault :: h.seen }

/-- Fires the token. -/
def cancel : Host :=
  (h.waits.map (·.task)).foldl wake { h with cancelled := true }

/-- Lets time pass. -/
def settle (length : Duration) : Host :=
  if length.isZero then h else (h.runUntil (fun _ ↦ false) (h.afterWait length) patience).2

/-- Lets all workers go and waits until they are done, but not for ever. Workers that are not done
by then are left behind. -/
def shutDown (within : Duration) : Bool × Host :=
  let h := h.supervisor.containers.foldl (fun h id ↦ h.call id .release) h
  if h.supervisor.isDrained then (true, h)
  else match h.runUntil (·.supervisor.isDrained) (h.afterWait within) patience with
    | (true, h) => (true, h)
    | (false, h) =>
      (false, { h with supervisors := h.supervisors ++ [{ terms := h.supervisor.terms }] })

end Host

end ContainerNet.Simulation
