import ContainerNet.Sidecar.Lane

/-!
# Supervisors

A supervisor keeps one lane for each container. A call goes to the lane of its container and never
waits; lanes share nothing but the terms on which their workers work.

This is a supervisor as it is seen from outside, where the workers of a container follow one another
and nothing is said about who runs them. The tasks and handles behind that are a `Crew`.
-/

namespace ContainerNet.Sidecar

/-- The lanes of all containers. -/
structure Supervisor where
  terms : Terms := {}
  /-- The lanes of the containers that there was a call for. -/
  lanes : List (ContainerId × Lane) := []

namespace Supervisor

variable (s : Supervisor)

/-- The lane of a container. -/
def lane (id : ContainerId) : Lane := ((s.lanes.find? (·.1 = id)).map (·.2)).getD {}

/-- Puts a lane in place of that of a container. -/
def setLane (id : ContainerId) (l : Lane) : Supervisor :=
  if s.lanes.any (·.1 = id) then
    { s with lanes := s.lanes.map fun entry ↦ if entry.1 = id then (id, l) else entry }
  else { s with lanes := s.lanes ++ [(id, l)] }

/-- Makes a move in the lane of a container, if it can be made now. -/
def step (id : ContainerId) (m : Lane.Move) : Option (Supervisor × List Happening) :=
  ((s.lane id).step s.terms id m).map fun (l, seen) ↦ (s.setLane id l, seen)

/-- Answers a call for a container. -/
def call (id : ContainerId) (c : Call) : Supervisor × List Happening :=
  let (l, seen) := (s.lane id).call s.terms id c
  (s.setLane id l, seen)

/-- The containers with a worker that takes what comes, in order. -/
def containers : List ContainerId :=
  ((s.lanes.filter (·.2.current.isSome)).map (·.1)).mergeSort fun a b ↦ a.text ≤ b.text

/-- Whether all workers are done. -/
def isDrained : Bool := s.lanes.all (·.2.isDrained)

end Supervisor

end ContainerNet.Sidecar
