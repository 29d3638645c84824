import ContainerNet.Policy

/-!
# Desired state of a network

A `NetworkConfig` says how one managed network of one container is to look: whether the container
is attached, with which address, how its link is shaped and where its traffic may go.
-/

namespace ContainerNet

/-- The desired state of one network of one container. -/
structure NetworkConfig where
  network : String
  enable : Bool
  /-- The address to take; without one an address is taken from the pool. -/
  ipv4 : Option Subnet := none
  /-- Never supported. -/
  ipv6 : Option Subnet6 := none
  /-- The shape for traffic that no rule matches. -/
  shape : Shape := {}
  /-- Shapes for single subnets; the first match wins. -/
  rules : List Rule := []
  policy : RoutingPolicy := {}
  /-- A label that is handed back with the report. -/
  callbackState : Option String := none
deriving DecidableEq, Repr

namespace NetworkConfig

/-- An attached network without anything special. -/
def enabled (network : String) : NetworkConfig := { network, enable := true }

/-- A detached network. -/
def disabled (network : String) : NetworkConfig := { network, enable := false }

/-- Checks the default shape, then the rules in order. -/
def validate (c : NetworkConfig) : Outcome Unit := do
  c.shape.validate
  c.rules.forM fun r ↦ r.shape.validate

/-- Equality of what two configurations mean. -/
def same (c d : NetworkConfig) : Bool :=
  c.network == d.network && c.enable == d.enable && c.ipv4 == d.ipv4 && c.ipv6 == d.ipv6 &&
    c.shape.same d.shape && c.rules.length == d.rules.length &&
    ((c.rules.zip d.rules).all fun (r, s) ↦ r.same s) &&
    c.policy == d.policy && c.callbackState == d.callbackState

/-! ## JSON -/

def toJson (c : NetworkConfig) : Json :=
  .object <|
    [("network", .text c.network), ("enable", .bool c.enable)] ++
    Json.optional "ipv4" Subnet.toJson c.ipv4 ++
    Json.optional "ipv6" Subnet6.toJson c.ipv6 ++
    [("default", c.shape.toJson), ("rules", .array (c.rules.map Rule.toJson)),
      ("routing_policy", c.policy.toJson)] ++
    Json.optional "callback_state" .text c.callbackState

/-- The fields of a configuration; the name of the network and whether it is enabled are
required. -/
def record (source : Json.Tree.Source) : Json.Record NetworkConfig where
  initial := enabled ""
  fields := [
    { name := "network", required := true, set := fun t c ↦ do
        return { c with network := ← t.asText } },
    { name := "enable", required := true, set := fun t c ↦ do
        return { c with enable := ← t.asBool } },
    { name := "ipv4", set := fun t c ↦ do return { c with ipv4 := ← t.asOption Subnet.read } },
    { name := "ipv6", set := fun t c ↦ do return { c with ipv6 := ← t.asOption Subnet6.read } },
    { name := "default", set := fun t c ↦ do return { c with shape := ← Shape.read source t } },
    { name := "rules", set := fun t c ↦ do return { c with rules := ← t.asList Rule.read } },
    { name := "routing_policy", set := fun t c ↦ do
        return { c with policy := ← RoutingPolicy.read t } },
    { name := "callback_state", set := fun t c ↦ do
        return { c with callbackState := ← t.asOption Json.Tree.asText } }]

def read (source : Json.Tree.Source) (t : Json.Tree) : Json.Decoded NetworkConfig :=
  (record source).read t

end NetworkConfig

end ContainerNet
