import ContainerNet.Shape

/-!
# Plugin settings

Which plugin backs the data network and what is written into its configuration, and how an address
is to be allocated: from a pool of addresses, or exactly one fixed address.
-/

namespace ContainerNet.Plugin

/-- Settings for the plugin of the data network. -/
structure Settings where
  cniVersion : String := "0.3.0"
  networkName : String := "weave-net"
  pluginType : String := "weave-net"
  hairpinMode : Bool := true
deriving DecidableEq, Repr, Inhabited

namespace Settings

def toJson (s : Settings) : Json :=
  .object [("cni_version", .text s.cniVersion), ("network_name", .text s.networkName),
    ("plugin_type", .text s.pluginType), ("hairpin_mode", .bool s.hairpinMode)]

def record : Json.Record Settings where
  initial := {}
  fields := [
    { name := "cni_version", set := fun t s ↦ do return { s with cniVersion := ← t.asText } },
    { name := "network_name", set := fun t s ↦ do return { s with networkName := ← t.asText } },
    { name := "plugin_type", set := fun t s ↦ do return { s with pluginType := ← t.asText } },
    { name := "hairpin_mode", set := fun t s ↦ do return { s with hairpinMode := ← t.asBool } }]

def read (t : Json.Tree) : Json.Decoded Settings := record.read t

end Settings

/-- How an address is allocated. -/
inductive Allocation
  /-- Any address of a subnet. -/
  | pool (subnet : Subnet)
  /-- Exactly this address. -/
  | fixed (address : Subnet)
deriving DecidableEq, Repr

namespace Allocation

def kind : Allocation → String
  | .pool _ => "net"
  | .fixed _ => "ip"

def subnet : Allocation → Subnet
  | .pool net | .fixed net => net

/-- The allocation that a kind and a value denote. -/
def parse (kind value : String) : Outcome Allocation :=
  let net : Outcome Subnet := match Subnet.parse? value with
    | some net => .ok net
    | none => .error (.config (.notSubnet kind value))
  if kind = "net" then .pool <$> net
  else if kind = "ip" then .fixed <$> net
  else .error (.unsupportedKind kind)

def text (a : Allocation) : String := a.kind ++ "=" ++ a.subnet.text

end Allocation

end ContainerNet.Plugin
