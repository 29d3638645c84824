import ContainerNet.Plugin.Result
import ContainerNet.Plugin.ConfigList
import ContainerNet.Retry
import ContainerNet.Route.Table
import ContainerNet.TrafficControl.Command

/-!
# Effects

What the management of one container asks of the world outside: the kernel of the container's
namespace, the plugins, the clock and the log. An `Action` is a program of such requests, so what
is stated about one holds for every world that can answer, a failing one included.

Requests to the kernel and to the plugins may fail; to give the handle back, to ask for the token
and to write an entry may not. What else becomes of the world is no part of an answer: plugins may
change the routes of a namespace, say, and a statement that needs them not to says so. An attempt to
attach carries the time that it may take and the number of those before it, since the world decides
whether it is cut short.
-/

namespace ContainerNet

/-- A family of addresses. -/
inductive Family
  | v4
  | v6
deriving DecidableEq, Repr

/-- A request to the world outside. -/
inductive Effect
  /-- The interface of a name, if there is one. -/
  | linkByName (name : String)
  | addresses (link : Link) (family : Family)
  /-- The main table. -/
  | routes
  /-- Puts a route in, in place of those with its destination and metric. -/
  | replaceRoute (r : Route)
  /-- Takes a route out; an absent route is no failure. -/
  | deleteRoute (r : Route)
  /-- Replaces the traffic-control tree of a link. -/
  | trafficControl (link : Link) (commands : List TrafficControl.Command)
  /-- Gives the handle on the kernel back. -/
  | closeKernel
  /-- Attaches the container once, within a time, after `earlier` attempts that failed. -/
  | attach (list : Plugin.ConfigList) (rt : Plugin.Runtime) (earlier : Nat)
    (within : Option Duration)
  | detach (list : Plugin.ConfigList) (rt : Plugin.Runtime)
  /-- Whether the work has been cancelled. -/
  | isCancelled
  /-- Waits. -/
  | pause (length : Duration) (within : Option Duration)
  | log (entry : Log.Entry)

namespace Effect

/-- What a request is answered with. -/
def Answer : Effect → Type
  | .linkByName _ => Outcome (Option Link)
  | .addresses _ _ => Outcome (List AnySubnet)
  | .routes => Outcome RouteTable
  | .replaceRoute _ => Outcome Unit
  | .deleteRoute _ => Outcome Unit
  | .trafficControl _ _ => Outcome Unit
  | .closeKernel => Unit
  | .attach _ _ _ _ => Ending (Outcome Plugin.Result)
  | .detach _ _ => Outcome Unit
  | .isCancelled => Bool
  | .pause _ _ => Ending Unit
  | .log _ => Unit

end Effect

/-- A program that acts on the world outside. -/
abbrev Action (α : Type) := Program Effect Effect.Answer α

namespace Action

variable {α β : Type}

/-- Goes on with the value of an action unless it failed. -/
def andThen (p : Action (Outcome α)) (f : α → Action (Outcome β)) : Action (Outcome β) :=
  p.bind fun
    | .error e => .done (.error e)
    | .ok a => f a

/-- Writes entries into the log. -/
def logAll : List Log.Entry → Action Unit
  | [] => .done ()
  | e :: rest => .ask (.log e) fun _ ↦ logAll rest

end Action

end ContainerNet
