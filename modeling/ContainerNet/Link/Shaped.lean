import ContainerNet.Route.Change
import ContainerNet.Route.Filter
import ContainerNet.TrafficControl.Plan

/-!
# Shaped links

The data interface of a container with the default shape and the rules that are in force on it.
Setting either of the two derives the whole traffic-control tree and all filter routes anew, so
nothing of an earlier shape stays behind. A filter route on a subnet of the link itself takes the
place of the connected route; when it goes, the connected route comes back.
-/

namespace ContainerNet

/-- The changes that bring the filter routes of a table into line with a default shape and some
rules: filter routes that are not wanted go, and with the last of them on an own subnet the
connected route comes back; then those that are wanted are put in. -/
def filterChanges (link : Link) (default : FilterAction) (own : List Subnet) (rules : List Rule)
    (table : RouteTable) : List RouteChange :=
  let desired := filterRoutes link default own rules
  let stale := table.filter fun r ↦ r.origin == .rules && !desired.contains r
  let restores (r : Route) : Bool :=
    own.contains r.destination && !desired.any (·.destination == r.destination)
  (stale.flatMap fun r ↦
    .remove r ::
      if restores r then [RouteChange.put (Route.connected r.destination link.index)] else []) ++
    desired.map .put

/-- An interface with its default shape and its rules. -/
structure ShapedLink where
  link : Link
  shape : Shape := {}
  rules : List Rule := []
deriving DecidableEq, Repr

namespace ShapedLink

/-- The interface of a name, as it is before anything was set. -/
def resolve (name : String) : Action (Outcome ShapedLink) :=
  .ask (.linkByName name) fun (found : Outcome (Option Link)) ↦
  .done <| match found with
    | .error e => .error e
    | .ok none => .error (.linkNotFound name)
    | .ok (some link) => .ok { link }

variable (l : ShapedLink)

/-- The IPv4 addresses of the interface. -/
def addresses4 : Action (Outcome (List Subnet)) :=
  .ask (.addresses l.link .v4) fun (found : Outcome (List AnySubnet)) ↦
  .done (found.map fun nets ↦ nets.filterMap AnySubnet.v4?)

/-- The IPv6 addresses of the interface. -/
def addresses6 : Action (Outcome (List Subnet6)) :=
  .ask (.addresses l.link .v6) fun (found : Outcome (List AnySubnet)) ↦
  .done (found.map fun nets ↦ nets.filterMap AnySubnet.v6?)

/-- Brings the filter routes into line, given the subnets of the interface. -/
def installRoutes (own : List Subnet) : Action (Outcome Unit) :=
  .ask .routes fun (table : Outcome RouteTable) ↦
  match table with
  | .error e => .done (.error e)
  | .ok table => RouteChange.performAll (filterChanges l.link l.shape.filter own l.rules table)

/-- Puts shape and rules into force: first the tree, then the filter routes. -/
def install : Action (Outcome Unit) :=
  match TrafficControl.plan l.shape l.rules with
  | .error e => .done (.error e)
  | .ok commands =>
    .ask (.trafficControl l.link commands) fun (built : Outcome Unit) ↦
    match built with
    | .error e => .done (.error e)
    | .ok () => Action.andThen l.addresses4 fun nets ↦ l.installRoutes (nets.map Subnet.truncate)

/-- Takes over a change. One that is not valid changes nothing; any other is remembered even if it
could not be put into force. -/
def update (checked : Outcome Unit) (changed : ShapedLink) : Action (Outcome Unit × ShapedLink) :=
  match checked with
  | .error e => .done (.error e, l)
  | .ok () => changed.install.bind fun outcome ↦ .done (outcome, changed)

/-- Replaces the default shape. -/
def setShape (s : Shape) : Action (Outcome Unit × ShapedLink) :=
  l.update s.validate { l with shape := s }

/-- Whether all shapes of some rules are valid. -/
def validateRules (rules : List Rule) : Outcome Unit := rules.forM fun r ↦ r.shape.validate

/-- Replaces the rules. -/
def setRules (rules : List Rule) : Action (Outcome Unit × ShapedLink) :=
  l.update (validateRules rules) { l with rules }

end ShapedLink

end ContainerNet
