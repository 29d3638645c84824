import ContainerNet.Route.Table
import ContainerNet.Shape

/-!
# Filter routes

A filter is put into effect by routes: traffic that is dropped or rejected gets a route that
discards it. Of several rules for one subnet the first counts. A rule that accepts needs a route
only where the default shape blocks, to make a hole in the block.
-/

namespace ContainerNet

namespace Route

/-- The route that gives a filter action to a subnet. -/
def filtering (link : Link) (net : Subnet) : FilterAction → Route
  | .drop => { destination := net.truncate, kind := .blackhole, origin := .rules }
  | .reject => { destination := net.truncate, kind := .unreachable, origin := .rules }
  | .accept =>
    { destination := net.truncate, interface := some link.index, scope := .link, origin := .rules }

end Route

/-- The first rule for each subnet, with the bits behind the prefix cleared, for subnets that are
not yet among `seen`. -/
def firstActions (seen : List Subnet) : List Rule → List (Subnet × FilterAction)
  | [] => []
  | r :: rest =>
    let net := r.subnet.truncate
    if seen.contains net then firstActions seen rest
    else (net, r.shape.filter) :: firstActions (net :: seen) rest

/-- The subnets of a list that are not among `seen`, each once. -/
def firstSubnets (seen : List Subnet) : List Subnet → List Subnet
  | [] => []
  | net :: rest =>
    if seen.contains net then firstSubnets seen rest
    else net :: firstSubnets (net :: seen) rest

/-- The routes that put the filters of a default shape and some rules into effect on a link with
addresses in the subnets `own`. -/
def filterRoutes (link : Link) (default : FilterAction) (own : List Subnet) (rules : List Rule) :
    List Route :=
  let actions := firstActions [] rules
  let byRule := actions.filter fun (_, a) ↦ !(a == .accept && default == .accept)
  let byDefault :=
    if default = .accept then [] else firstSubnets (actions.map (·.1)).reverse own
  byRule.map (fun (net, a) ↦ Route.filtering link net a) ++
    byDefault.map fun net ↦ Route.filtering link net default

end ContainerNet
