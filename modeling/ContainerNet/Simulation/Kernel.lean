import ContainerNet.Effect

/-!
# A kernel in memory

The kernel of a namespace as far as this library sees it: interfaces, their addresses, and the main
table. Tables change as `RouteTable.replace` and `RouteTable.delete` say. A namespace starts with
the interface of the control plane and its routes; plugging in the data interface gives it index 7.
-/

namespace ContainerNet.Simulation

/-- The index of the interface of the control plane. -/
def controlIndex : Nat := 2

/-- The index of the data interface. -/
def dataIndex : Nat := 7

/-- The routes of the control plane. -/
def controlRoutes : RouteTable :=
  [Route.connected (.ofOctets 172 17 0 0 16) controlIndex,
    { destination := .ofOctets 0 0 0 0 0
      gateway := some (Address.ofOctets 172 17 0 1)
      interface := some controlIndex }]

/-- The kernel of a namespace. -/
structure Kernel where
  links : List Link := [⟨controlIndex, "eth0"⟩]
  /-- Addresses, each with the index of its interface. -/
  addresses : List (Nat × AnySubnet) := []
  table : RouteTable := controlRoutes
  /-- How often the handle on it was given back. -/
  closes : Nat := 0
  /-- What was asked of it and of its plugin, last first, and whether it failed. -/
  trace : List (Effect × Bool) := []

namespace Kernel

variable (k : Kernel)

def linkByName (name : String) : Option Link := k.links.find? (·.name = name)

/-- The addresses of an interface. -/
def addressesOf (index : Nat) : List AnySubnet :=
  (k.addresses.filter (·.1 = index)).map (·.2)

/-- Gives an interface exactly these addresses. -/
def setAddresses (index : Nat) (nets : List AnySubnet) : Kernel :=
  { k with addresses := k.addresses.filter (·.1 ≠ index) ++ nets.map (index, ·) }

/-- Removes the interfaces of a name. -/
def removeLink (name : String) : Kernel := { k with links := k.links.filter (·.name ≠ name) }

/-- Adds a route unless it is there. -/
def addRoute (r : Route) : Kernel :=
  if k.table.contains r then k else { k with table := k.table ++ [r] }

/-- Brings up the data interface with some addresses and a connected route for each. -/
def plug (name : String) (nets : List AnySubnet) : Kernel :=
  let removed := k.removeLink name
  let k : Kernel := { removed with links := removed.links ++ [⟨dataIndex, name⟩] }
  (nets.filterMap AnySubnet.v4?).foldl
    (fun k net ↦ k.addRoute (Route.connected net.truncate dataIndex))
    (k.setAddresses dataIndex nets)

/-- Takes the data interface down with all that hangs on it. -/
def unplug (name : String) : Kernel :=
  if (k.linkByName name).isSome then
    let k := (k.removeLink name).setAddresses dataIndex []
    { k with table := k.table.filter (·.interface ≠ some dataIndex) }
  else k

/-- Remembers a request. -/
def record (q : Effect) (failed : Bool) : Kernel := { k with trace := (q, failed) :: k.trace }

end Kernel

end ContainerNet.Simulation
