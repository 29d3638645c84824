import ContainerNet.Simulation.Kernel

/-!
# A plugin with a script

A plugin that attaches a container to a kernel in memory. What its next attempts do may be laid
down beforehand; otherwise they succeed at once. Addresses from a pool are handed out in order,
beginning with the third address of the pool.
-/

namespace ContainerNet.Simulation

/-- What an attempt to attach does. -/
structure Attempt where
  /-- How long it waits first, if it does. -/
  delay : Option Duration := none
  /-- The number and the text of the failure it ends in. -/
  failure : Option (Nat × String) := none
  /-- The addresses to assign. -/
  addresses : Option (List AnySubnet) := none
  /-- Whether the interface is brought up. -/
  plugs : Bool := true

/-- A plugin. -/
structure ScriptedPlugin where
  /-- What the next attempts to attach do. -/
  attempts : List Attempt := []
  /-- The failure of each attempt to detach. -/
  detachFailure : Option String := none
  /-- How many addresses were taken from a pool. -/
  allocated : Nat := 0

namespace ScriptedPlugin

/-- The name of the plugin in its errors. -/
def name : String := "fake"

/-- The next attempt to attach. -/
def next (p : ScriptedPlugin) : Attempt × ScriptedPlugin :=
  match p.attempts with
  | [] => ({}, p)
  | a :: rest => (a, { p with attempts := rest })

/-- The addresses that an attempt assigns. -/
def allocate (p : ScriptedPlugin) (a : Attempt) (l : Plugin.ConfigList) :
    List AnySubnet × ScriptedPlugin :=
  match a.addresses with
  | some nets => (nets, p)
  | none =>
    match l.plugins.head?.bind (·.ipam) with
    | some (.fixed ips) => (ips.map fun ip ↦ .v4 ip.address, p)
    | some (.pool net) =>
      let first := net.truncate.address.value
      ([.v4 { net with address := .ofNat (first + p.allocated + 2) }],
        { p with allocated := p.allocated + 1 })
    | _ => ([], p)

/-- The end of an attempt to attach. -/
def complete (p : ScriptedPlugin) (a : Attempt) (l : Plugin.ConfigList) (rt : Plugin.Runtime)
    (k : Kernel) : Outcome Plugin.Result × ScriptedPlugin × Kernel :=
  match a.failure with
  | some (number, text) => (.error (.plugin name number text), p, k)
  | none =>
    let (nets, p) := p.allocate a l
    (.ok {}, p, if a.plugs then k.plug rt.interface nets else k)

/-- An attempt to detach. -/
def detach (p : ScriptedPlugin) (rt : Plugin.Runtime) (k : Kernel) : Outcome Unit × Kernel :=
  match p.detachFailure with
  | some text => (.error (.plugin name 0 text), k)
  | none => (.ok (), k.unplug rt.interface)

end ScriptedPlugin

end ContainerNet.Simulation
