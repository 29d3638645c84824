import ContainerNet.Route.Change
import ContainerNet.Route.External

/-!
# Enforcing a routing policy

Every policy is enforced from the captured routes alone: what it needs is derived as a whole, routes
of an earlier policy and default routes that are not wanted go, and what is wanted is put in. Routes
through the data interface give way to filter routes for the same destination.
-/

namespace ContainerNet.ExternalRoutes

/-- Captures the routes that a namespace has when the interface with this index has come up. -/
def snapshot (linkIndex : Nat) : Action (Outcome ExternalRoutes) :=
  .ask .routes fun (table : Outcome RouteTable) ↦ .done (table.map (ofRoutes linkIndex))

variable (e : ExternalRoutes)

/-- The routes of a policy, without those through the data interface whose destination is held by
a filter route. -/
def desired (p : RoutingPolicy) (table : RouteTable) : List Route :=
  (e.derive p).filter fun r ↦
    r.interface != some e.linkIndex ||
      !table.any fun s ↦ s.origin == .rules && s.destination == r.destination

/-- The changes that bring a table into line with a policy. -/
def policyChanges (p : RoutingPolicy) (table : RouteTable) : List RouteChange :=
  let desired := e.desired p table
  let stale := table.filter fun r ↦
    (r.origin == .policy || r.isDefault) && !desired.contains r
  stale.map .remove ++ desired.map .put

/-- Enforces a policy, with a warning for each exception that cannot be. -/
def enforce (p : RoutingPolicy) : Action (Outcome Unit) :=
  .ask .routes fun (table : Outcome RouteTable) ↦
  match table with
  | .error fault => .done (.error fault)
  | .ok table =>
    (Action.logAll (e.warnings p)).bind fun () ↦
    RouteChange.performAll (e.policyChanges p table)

end ContainerNet.ExternalRoutes
