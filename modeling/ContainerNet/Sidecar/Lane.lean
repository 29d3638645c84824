import ContainerNet.Files.Path
import ContainerNet.Sidecar.Worker

/-!
# Lanes

The lane of a container is the queue of its workers. Only the first of them acts. A worker that is
let go still works off what it has been given, then it is reported as released, and only then the
next one begins. A configuration for another namespace lets the last worker go and starts a new one.

A lane moves by calls from outside, by what its first worker does, and by answers of the world. All
of these may come in any order that `Lane.step` allows; what is true of every such order does not
depend on a scheduler.
-/

namespace ContainerNet.Sidecar

/-- A call for one container. -/
inductive Call
  | configure (netns : String) (config : NetworkConfig)
  | release
deriving DecidableEq, Repr

/-- What can be seen of a lane when it moves. -/
inductive Happening
  /-- A configuration was put into the queue of the last worker. -/
  | accepted (config : NetworkConfig)
  /-- A configuration found no room in the queue. -/
  | turnedAway (config : NetworkConfig)
  /-- The first worker began to open its namespace. -/
  | opening (netns : String)
  | opened (netns : String) (result : Outcome Unit)
  /-- The first worker took a configuration from its queue. -/
  | took (config : NetworkConfig)
  | acted (q : Effect)
  | reported (r : Report)
  | noted (entry : Log.Entry)

/-- The workers of one container. -/
structure Lane where
  /-- How many workers have been and gone. -/
  gone : Nat := 0
  /-- The workers that were let go and are not done, in the order in which they started. -/
  leaving : List Worker := []
  /-- The worker that takes what comes. -/
  current : Option Worker := none
  /-- Reports of configurations that were turned away, to be delivered. -/
  undelivered : List Report := []

namespace Lane

variable (l : Lane)

/-- The worker that acts, and whether its queue is sealed. -/
def first? : Option (Worker × Bool) :=
  match l.leaving with
  | w :: _ => some (w, true)
  | [] => l.current.map (·, false)

/-- Puts a worker in place of the first one. -/
def setFirst (w : Worker) : Lane :=
  match l.leaving with
  | _ :: rest => { l with leaving := w :: rest }
  | [] => { l with current := some w }

/-- The lane without its first worker, which has been let go. -/
def dropFirst : Lane := { l with gone := l.gone + 1, leaving := l.leaving.tail }

/-- The number of the worker that takes what comes, counted from the first one ever. -/
def currentNumber : Nat := l.gone + l.leaving.length

/-- Whether all workers are done. -/
def isDrained : Bool := l.leaving.isEmpty && l.current.isNone

/-! ## Calls -/

/-- Lets the current worker go. -/
def release : Lane :=
  match l.current with
  | none => l
  | some w => { l with leaving := l.leaving ++ [w], current := none }

/-- Whether the current worker is in another namespace. -/
def isElsewhere (netns : String) : Bool := l.current.any fun w ↦ !Path.same w.netns netns

/-- The lane with a current worker in a namespace; a worker in another one is let go. -/
def ensure (netns : String) : Lane :=
  let l := if l.isElsewhere netns then l.release else l
  { l with current := some (l.current.getD { netns }) }

/-- Puts a configuration into the queue of the current worker, if there is room. -/
def offer (t : Terms) (id : ContainerId) (config : NetworkConfig) : Lane × List Happening :=
  match l.current with
  | none => (l, [])
  | some w =>
    if w.waiting.length < t.depth then
      ({ l with current := some { w with waiting := w.waiting ++ [config] } }, [.accepted config])
    else
      ({ l with undelivered := l.undelivered ++ [.declined id config (.queueFull t.depth)] },
        [.noted (Log.warn "Event queue full, dropping config"
          [("container", id.short), ("depth", Text.natText t.depth)]), .turnedAway config])

/-- Notes that the current worker is replaced. -/
def noteReplaced (id : ContainerId) (netns : String) : List Happening :=
  if l.isElsewhere netns then
    [.noted (Log.info "Replacing unit" [("container", id.short), ("netns", netns)])]
  else []

/-- Answers a call. No call ever waits for a worker. -/
def call (t : Terms) (id : ContainerId) : Call → Lane × List Happening
  | .configure netns config =>
    let (next, seen) := (l.ensure netns).offer t id config
    (next, l.noteReplaced id netns ++ seen)
  | .release => (l.release, [])

/-! ## Moves -/

/-- The ways in which a lane moves. -/
inductive Move
  | call (c : Call)
  /-- The first worker does something by itself, or is reported as released. -/
  | advance
  /-- The namespace that the first worker waits for is open, or is known not to be. -/
  | opened (result : Outcome Unit)
  /-- The world answers what the first worker asks for. -/
  | answered (f : (q : Effect) → q.Answer)
  /-- A report of a configuration that was turned away is delivered. -/
  | deliver (i : Nat)

/-- A move of the first worker, if it is one that the worker is about to make. -/
def stepFirst (t : Terms) (id : ContainerId) (m : Move) (w : Worker) (isSealed : Bool) :
    Option (Lane × List Happening) :=
  match w.turn t id isSealed, m with
  | .begins next, .advance => some (l.setFirst next, [.opening w.netns])
  | .takes config next, .advance => some (l.setFirst next, [.took config])
  | .reports r next, .advance => some (l.setFirst next, [.reported r])
  | .over, .advance => some (l.dropFirst, [.reported (.released id)])
  | .opens netns next, .opened result => some (l.setFirst (next result), [.opened netns result])
  | .acts q next, .answered f => some (l.setFirst (next (f q)), [.acted q])
  | _, _ => none

/-- Makes a move, if it can be made now. -/
def step (t : Terms) (id : ContainerId) (m : Move) : Option (Lane × List Happening) :=
  match m with
  | .call c => some (l.call t id c)
  | .deliver i =>
    l.undelivered[i]?.map fun r ↦
      ({ l with undelivered := l.undelivered.eraseIdx i }, [.reported r])
  | m =>
    match l.first? with
    | some (w, isSealed) => l.stepFirst t id m w isSealed
    | none => none

end Lane

end ContainerNet.Sidecar
