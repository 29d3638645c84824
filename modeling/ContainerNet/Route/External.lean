import ContainerNet.Log
import ContainerNet.Policy
import ContainerNet.Route.Table

/-!
# Routes from outside, and the routes of a policy

When the data interface has come up, the routes of the namespace are captured once: those that
must stay reachable, the baseline, and the default route, the uplink. Every policy is derived from
that capture as a whole, so nothing of an earlier policy stays behind, and the path of the control
plane is never cut: an exception inside of a baseline route is ignored.
-/

namespace ContainerNet

/-- The routes of a namespace before any policy was applied. -/
structure ExternalRoutes where
  /-- The index of the data interface. -/
  linkIndex : Nat
  /-- Routes that must stay reachable. -/
  baseline : List Route
  /-- The default route, if there was one. -/
  uplink : Option Route
deriving DecidableEq, Repr

namespace ExternalRoutes

/-- Captures the routes that others put there. The first default route is the uplink. -/
def ofRoutes (linkIndex : Nat) (routes : List Route) : ExternalRoutes :=
  let foreign := routes.filter fun r ↦ !r.isManaged && r.kind == .unicast
  ⟨linkIndex, foreign.filter (!·.isDefault), foreign.find? (·.isDefault)⟩

/-- Falls back to another default route if none was captured. -/
def orUplink (e : ExternalRoutes) (uplink : Option Route) : ExternalRoutes :=
  { e with uplink := e.uplink.or uplink }

/-- The first baseline route that leads to all of a destination. -/
def protector? (e : ExternalRoutes) (destination : Subnet) : Option Route :=
  e.baseline.find? (·.destination.covers destination)

/-- What a policy makes of one exception. -/
inductive Exception
  /-- It lies inside of a baseline route. -/
  | shielded (by_ : Route)
  /-- It has to be allowed, but there is no uplink. -/
  | noUplink
  /-- It gets a route. -/
  | route (r : Route)
deriving DecidableEq, Repr

namespace Exception

/-- The route that an exception gets, if it gets one. -/
def route? : Exception → Option Route
  | .route r => some r
  | _ => none

@[simp] theorem route?_eq_some_iff {x : Exception} {r : Route} :
    x.route? = some r ↔ x = .route r := by
  cases x <;> simp [route?]

end Exception

/-- The route that allows a destination: through the uplink, on the link itself if that has no
gateway. -/
def allowing (uplink : Route) (destination : Subnet) : Route where
  destination
  gateway := uplink.gateway
  interface := uplink.interface
  scope := if uplink.gateway.isNone then .link else .universe
  origin := .policy

/-- The route that denies a destination. -/
def denying (destination : Subnet) : Route where
  destination
  kind := .unreachable
  origin := .policy

/-- What a policy makes of an exception, whose bits behind the prefix do not count. -/
def exception (e : ExternalRoutes) (action : PolicyAction) (destination : Subnet) : Exception :=
  match e.protector? destination.truncate with
  | some r => .shielded r
  | none =>
    match action.inverse, e.uplink with
    | .deny, _ => .route (denying destination.truncate)
    | .allow, some uplink => .route (allowing uplink destination.truncate)
    | .allow, none => .noUplink

/-- All routes of a policy: the baseline, the uplink if the policy allows, and one route for each
exception that gets one. -/
def derive (e : ExternalRoutes) (p : RoutingPolicy) : List Route :=
  e.baseline ++
    (if p.action = .allow then e.uplink.toList else []) ++
    p.exceptions.filterMap fun destination ↦ (e.exception p.action destination).route?

/-- The exceptions that get no route, as warnings in order. -/
def warnings (e : ExternalRoutes) (p : RoutingPolicy) : List Log.Entry :=
  p.exceptions.filterMap fun destination ↦
    match e.exception p.action destination with
    | .shielded r =>
      some (Log.warn "Ignoring routing exception inside a protected route"
        [("exception", destination.truncate.text), ("baseline", r.text)])
    | .noUplink =>
      some (Log.warn "No default route captured; cannot allow exception"
        [("exception", destination.truncate.text)])
    | .route _ => none

end ExternalRoutes

end ContainerNet
