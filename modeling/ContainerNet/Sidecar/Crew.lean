import ContainerNet.Sidecar.Supervisor

/-!
# Crews

A lane says in which order the workers of a container act, not how it comes to that. It comes from
tasks and handles. Each worker runs in a task of its own. A worker that is let go gets a second
task, its drain, which waits for the end of the worker and reports it. The handle of the drain is
kept, and the next worker is given it and waits for it before it begins. All tasks may go on at any
time; nothing but handles keeps them in order.

`Crew.step` are the moves of one container. A `Staff` are the crews of all containers, with what
concerns them all: every configuration throws the handles of drains away that have ended, and a
shutdown lets all workers go, takes all handles, and waits for them one after the other. No call is
taken until it is through.
-/

namespace ContainerNet.Sidecar

/-- How far the task is that waits for the end of a worker and reports it. -/
inductive Drain
  | waiting
  /-- The report is delivered, but the task has not ended. -/
  | reported
  | finished
deriving DecidableEq, Repr

/-- The time of a worker with its container. Stints are named by their number, and so are the
handles of their drains. -/
structure Stint where
  worker : Worker
  /-- The drain that the worker waits for before it begins. -/
  after : Option Nat := none
  /-- Whether the task of the worker has ended. -/
  isOver : Bool := false
  /-- The drain. There is one from when the worker is let go, and then its queue is sealed. -/
  drain : Option Drain := none

/-- The tasks of one container, and the handles on them. -/
structure Crew where
  /-- All stints, in the order in which they were begun. -/
  stints : List Stint := []
  /-- The stint that takes what comes. -/
  onDuty : Option Nat := none
  /-- The drain that the next worker is to wait for. -/
  draining : Option Nat := none
  /-- The drain that a shutdown waits for. -/
  joining : Option Nat := none
  /-- Reports of configurations that were turned away, each with a task to deliver it. -/
  undelivered : List Report := []

namespace Stint

/-- A move of the task of a worker, if it is one that the worker is about to make. -/
def step (t : Terms) (id : ContainerId) (m : Lane.Move) (s : Stint) :
    Option (Stint × List Happening) :=
  if s.isOver then none
  else match s.worker.turn t id s.drain.isSome, m with
    | .begins next, .advance => some ({ s with worker := next }, [.opening s.worker.netns])
    | .takes config next, .advance => some ({ s with worker := next }, [.took config])
    | .reports r next, .advance => some ({ s with worker := next }, [.reported r])
    | .over, .advance => some ({ s with isOver := true }, [])
    | .opens netns next, .opened result =>
      some ({ s with worker := next result }, [.opened netns result])
    | .acts q next, .answered f => some ({ s with worker := next (f q) }, [.acted q])
    | _, _ => none

/-- A move of the drain. -/
def stepDrain (id : ContainerId) (s : Stint) : Option (Stint × List Happening) :=
  match s.drain with
  | some .waiting =>
    if s.isOver then some ({ s with drain := some .reported }, [.reported (.released id)])
    else none
  | some .reported => some ({ s with drain := some .finished }, [])
  | _ => none

end Stint

namespace Crew

variable (c : Crew)

/-- The stint on duty, with its number. -/
def onDuty? : Option (Nat × Stint) := do
  let k ← c.onDuty
  let s ← c.stints[k]?
  return (k, s)

/-- Puts a stint in place of another. -/
def put (k : Nat) (s : Stint) : Crew := { c with stints := c.stints.set k s }

/-- Whether the drain of a stint has ended. -/
def isFinished (k : Nat) : Bool := c.stints[k]?.any (·.drain = some .finished)

/-! ## Calls -/

/-- Throws the handle of a drain away that has ended. -/
def tidy : Crew := { c with draining := c.draining.filter fun k ↦ !c.isFinished k }

/-- Lets the worker on duty go. -/
def release : Crew :=
  match c.onDuty? with
  | none => c
  | some (k, s) =>
    { c.put k { s with drain := some .waiting } with onDuty := none, draining := some k }

/-- Whether the worker on duty is in another namespace, or has ended. -/
def isToReplace (netns : String) : Bool :=
  c.onDuty?.any fun (_, s) ↦ !Path.same s.worker.netns netns || s.isOver

/-- Puts a new worker on duty if there is none. It is given the handle of the last drain. -/
def hire (netns : String) : Crew :=
  match c.onDuty? with
  | some _ => c
  | none =>
    { c with
      stints := c.stints ++ [{ worker := { netns }, after := c.draining }]
      onDuty := some c.stints.length
      draining := none }

/-- The crew with a worker on duty in a namespace. -/
def ensure (netns : String) : Crew :=
  (if c.isToReplace netns then c.release else c).hire netns

/-- Turns a configuration away. -/
def turnAway (id : ContainerId) (config : NetworkConfig) (why : Failure) (note : Log.Entry) :
    Crew × List Happening :=
  ({ c with undelivered := c.undelivered ++ [.declined id config why] },
    [.noted note, .turnedAway config])

/-- Puts a configuration into the queue of the worker on duty, if there is room and the worker has
not ended. -/
def offer (t : Terms) (id : ContainerId) (config : NetworkConfig) : Crew × List Happening :=
  match c.onDuty? with
  | none => (c, [])
  | some (k, s) =>
    let w := s.worker
    if s.isOver then
      c.turnAway id config .workerStopped
        (Log.warn "Unit stopped before receiving config" [("netns", w.netns)])
    else if w.waiting.length < t.depth then
      (c.put k { s with worker := { w with waiting := w.waiting ++ [config] } },
        [.accepted config])
    else
      c.turnAway id config (.queueFull t.depth)
        (Log.warn "Event queue full, dropping config"
          [("container", id.short), ("depth", Text.natText t.depth)])

/-- Notes that the worker on duty is replaced. -/
def noteReplaced (id : ContainerId) (netns : String) : List Happening :=
  if c.isToReplace netns then
    [.noted (Log.info "Replacing unit" [("container", id.short), ("netns", netns)])]
  else []

def configure (t : Terms) (id : ContainerId) (netns : String) (config : NetworkConfig) :
    Crew × List Happening :=
  let c := c.tidy
  let (next, seen) := (c.ensure netns).offer t id config
  (next, c.noteReplaced id netns ++ seen)

/-- Lets the worker on duty go and hands the last drain over to a shutdown. -/
def shutDown : Crew := { c.release with draining := none, joining := c.release.draining }

/-! ## Moves -/

/-- The ways in which a crew moves. -/
inductive Move
  | call (c : Call)
  /-- A configuration for another container comes in. -/
  | tidy
  | shutDown
  /-- The shutdown has waited for the drain. -/
  | join
  /-- The task of a worker goes on. -/
  | work (k : Nat) (m : Lane.Move)
  | drain (k : Nat)
  /-- A report of a configuration that was turned away is delivered. -/
  | deliver (i : Nat)

/-- Puts a stint in place of another if a task of it can go on. -/
def move (k : Nat) (step : Stint → Option (Stint × List Happening)) :
    Option (Crew × List Happening) := do
  let s ← c.stints[k]?
  let (s, seen) ← step s
  return (c.put k s, seen)

/-- Whether the worker of a stint need not wait for the one before any more. -/
def mayBegin (s : Stint) : Bool := s.after.all c.isFinished

/-- Makes a move, if it can be made now. -/
def step (t : Terms) (id : ContainerId) : Move → Option (Crew × List Happening)
  | .call (.configure netns config) =>
    if c.joining.isNone then some (c.configure t id netns config) else none
  | .call .release => if c.joining.isNone then some (c.release, []) else none
  | .tidy => some (c.tidy, [])
  | .shutDown => if c.joining.isNone then some (c.shutDown, []) else none
  | .join => if c.joining.any c.isFinished then some ({ c with joining := none }, []) else none
  | .work k m => c.move k fun s ↦ if c.mayBegin s then s.step t id m else none
  | .drain k => c.move k (·.stepDrain id)
  | .deliver i =>
    c.undelivered[i]?.map fun r ↦
      ({ c with undelivered := c.undelivered.eraseIdx i }, [.reported r])

end Crew

/-! ## All containers -/

/-- The crews of all containers. -/
structure Staff where
  terms : Terms := {}
  crews : ContainerId → Crew := fun _ ↦ {}
  /-- Whether a shutdown has begun and is not through. -/
  isStopping : Bool := false

/-- What can be seen of a staff. -/
inductive Staff.Event
  | called (id : ContainerId) (c : Call)
  | happening (id : ContainerId) (h : Happening)
  | shutDown
  /-- The shutdown is through. -/
  | stopped

/-- The crews with another one for one of the containers. -/
def Staff.setCrew (s : Staff) (id : ContainerId) (c : Crew) : Staff :=
  { s with crews := fun other ↦ if other = id then c else s.crews other }

/-- The moves of a task. Others are made by calls and by the shutdown. -/
def Crew.Move.isOfTask : Crew.Move → Bool
  | .work _ _ | .drain _ | .deliver _ => true
  | _ => false

open Staff (Event) in
/-- The moves of a staff, with what can be seen of them. A call comes in if no shutdown is under
way, and tasks go on in any order. -/
inductive Staff.Step (s : Staff) : List Event → Staff → Prop
  | configure {id : ContainerId} {netns : String} {config : NetworkConfig} {c : Crew}
      {seen : List Happening} : s.isStopping = false →
    (s.crews id).step s.terms id (.call (.configure netns config)) = some (c, seen) →
    Step s (.called id (.configure netns config) :: seen.map (.happening id))
      (Staff.setCrew { s with crews := fun other ↦ (s.crews other).tidy } id c)
  | release {id : ContainerId} {c : Crew} {seen : List Happening} : s.isStopping = false →
    (s.crews id).step s.terms id (.call .release) = some (c, seen) →
    Step s (.called id .release :: seen.map (.happening id)) (s.setCrew id c)
  | task {id : ContainerId} {m : Crew.Move} {c : Crew} {seen : List Happening} :
    m.isOfTask = true → (s.crews id).step s.terms id m = some (c, seen) →
    Step s (seen.map (.happening id)) (s.setCrew id c)
  | shutDown : s.isStopping = false →
    Step s [.shutDown]
      { s with crews := fun id ↦ (s.crews id).shutDown, isStopping := true }
  | join {id : ContainerId} {c : Crew} {seen : List Happening} : s.isStopping = true →
    (s.crews id).step s.terms id .join = some (c, seen) →
    Step s (seen.map (.happening id)) (s.setCrew id c)
  | stopped : s.isStopping = true → (∀ id, (s.crews id).joining = none) →
    Step s [.stopped] { s with isStopping := false }

end ContainerNet.Sidecar
