import ContainerNet.Address.Subnet

/-!
# Routes

A route of the main table: where it leads, how packets get there, and a tag that says who put it
there. Two tags are this library's own: routes of the routing policy and routes of link filters.
-/

namespace ContainerNet

/-- How far a destination is. -/
inductive RouteScope
  /-- Behind a gateway. -/
  | universe
  /-- On the link itself. -/
  | link
  /-- On this host. -/
  | host
deriving DecidableEq, Repr, Inhabited

/-- What is done with packets to a destination. -/
inductive RouteKind
  | unicast
  /-- Discarded silently. -/
  | blackhole
  /-- Discarded, and the sender is told. -/
  | unreachable
deriving DecidableEq, Repr, Inhabited

/-- Who put a route into the table. -/
structure Origin where
  tag : UInt8
deriving DecidableEq, Repr, Inhabited

namespace Origin

/-- The routing policy. -/
def policy : Origin := ⟨0xA1⟩

/-- The filters of a link. -/
def rules : Origin := ⟨0xA2⟩

/-- The kernel itself. -/
def kernel : Origin := ⟨2⟩

/-- An administrator or a plugin. -/
def boot : Origin := ⟨3⟩

end Origin

/-- A route of the main table. -/
structure Route where
  destination : Subnet
  gateway : Option Address := none
  /-- The index of the interface that packets leave by. -/
  interface : Option Nat := none
  scope : RouteScope := .universe
  metric : Option Nat := none
  kind : RouteKind := .unicast
  origin : Origin := .boot
deriving DecidableEq, Repr, Inhabited

/-- A network interface. -/
structure Link where
  index : Nat
  name : String
deriving DecidableEq, Repr, Inhabited

namespace Route

/-- Whether the route is for all destinations. -/
def isDefault (r : Route) : Bool := r.destination.isDefault

/-- Whether the route was put there by this library. -/
def isManaged (r : Route) : Bool := r.origin == .policy || r.origin == .rules

/-- The route to a subnet that an interface with an address in it has by itself. -/
def connected (net : Subnet) (index : Nat) : Route where
  destination := net
  interface := some index
  scope := .link
  origin := .kernel

/-- A detail in a text, with a word in front, if there is one. -/
private def detail (word : String) : Option String → String
  | none => ""
  | some s => word ++ s

/-- The destination and how to get there. -/
def text (r : Route) : String :=
  (match r.kind with
    | .unicast => ""
    | .blackhole => "blackhole "
    | .unreachable => "unreachable ") ++
  r.destination.text ++
  detail " via " (r.gateway.map Address.text) ++
  detail " dev #" (r.interface.map Text.natText) ++
  detail " metric " (r.metric.map Text.natText)

end Route

end ContainerNet
