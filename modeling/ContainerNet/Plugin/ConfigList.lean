import ContainerNet.Plugin.Settings

/-!
# Plugin configuration lists

A configuration list names the plugins that attach a container to a network, in order. Of a plugin
entry only a few keys are interpreted; all others are data for the plugin and are handed on as
they came, in canonical form. `stdin` is the document that a plugin reads when it runs.
-/

namespace ContainerNet.Plugin

/-- One fixed address. -/
structure IpamAddress where
  /-- The version of the protocol, always "4" where this library writes it. -/
  version : String
  address : Subnet
deriving DecidableEq, Repr

/-- The address management section of a plugin entry. -/
inductive Ipam
  | pool (subnet : Subnet)
  | fixed (ips : List IpamAddress)
  /-- Any other object, handed on untouched. -/
  | other (members : Json.Members)

/-- One plugin of a list. -/
structure Entry where
  name : Option String
  pluginType : String
  ipam : Option Ipam
  hairpinMode : Option Bool
  /-- The keys that are not interpreted. -/
  extra : Json.Members

/-- Plugins that run in order to attach, and in reverse order to detach. -/
structure ConfigList where
  cniVersion : String
  name : String
  plugins : List Entry

namespace IpamAddress

def toJson (a : IpamAddress) : Json :=
  .object [("version", .text a.version), ("address", a.address.toJson)]

/-- An address that is being read. -/
structure Draft where
  version : String := ""
  address : Option Subnet := none

/-- The fields of an address, both required. -/
def record : Json.Record Draft where
  initial := {}
  fields := [
    { name := "version", required := true, set := fun t d ↦ do
        return { d with version := ← t.asText } },
    { name := "address", required := true, set := fun t d ↦ do
        return { d with address := some (← Subnet.read t) } }]

def read (t : Json.Tree) : Json.Decoded IpamAddress := do
  let d ← record.read t
  match d.address with
  | some address => return ⟨d.version, address⟩
  | none => throw (.missingField "address")

end IpamAddress

namespace Ipam

/-- The section for an allocation. -/
def ofAllocation : Allocation → Ipam
  | .pool subnet => .pool subnet
  | .fixed address => .fixed [⟨"4", address⟩]

def toJson : Ipam → Json
  | .pool subnet => .object [("subnet", subnet.toJson)]
  | .fixed ips => .object [("ips", .array (ips.map IpamAddress.toJson))]
  | .other members => .object members

/-- The section that a value denotes. An object with the single key `subnet` or `ips` is
interpreted if its value has the right form; every other object is data. -/
def ofJson (v : Json) : Json.Decoded Ipam :=
  match v with
  | .object members =>
    let other : Ipam := .other (Json.Members.ofList (Json.canonicalMembers members))
    match members with
    | [("subnet", v)] =>
      match Subnet.read (.ofJson v) with
      | .ok subnet => .ok (.pool subnet)
      | .error _ => .ok other
    | [("ips", v)] =>
      match (Json.Tree.ofJson v).asList IpamAddress.read with
      | .ok ips => .ok (.fixed ips)
      | .error _ => .ok other
    | _ => .ok other
  | _ => .error (.mismatch "an address management section")

def read (t : Json.Tree) : Json.Decoded Ipam := do ofJson (← t.value)

end Ipam

namespace Entry

def toJson (e : Entry) : Json :=
  .object <|
    Json.optional "name" .text e.name ++ [("type", .text e.pluginType)] ++
    Json.optional "ipam" Ipam.toJson e.ipam ++
    Json.optional "hairpinMode" .bool e.hairpinMode ++ e.extra

/-- The fields of an entry that are interpreted; only the type is required. -/
def record : Json.Record Entry where
  initial := ⟨none, "", none, none, []⟩
  fields := [
    { name := "name", set := fun t e ↦ do
        return { e with name := ← t.asOption Json.Tree.asText } },
    { name := "type", required := true, set := fun t e ↦ do
        return { e with pluginType := ← t.asText } },
    { name := "ipam", set := fun t e ↦ do return { e with ipam := ← t.asOption Ipam.read } },
    { name := "hairpinMode", set := fun t e ↦ do
        return { e with hairpinMode := ← t.asOption Json.Tree.asBool } }]

/-- An entry is an object; the keys that are not interpreted are kept. -/
def read (t : Json.Tree) : Json.Decoded Entry := do
  let (e, rest) ← record.readOpen t
  return { e with extra := Json.Members.ofList (Json.canonicalMembers rest) }

/-- The capabilities that the entry declares as true. -/
def capabilities (e : Entry) : List String :=
  match e.extra.get? "capabilities" with
  | some (.object members) =>
    members.filterMap fun
      | (name, .bool true) => some name
      | _ => none
  | _ => []

end Entry

/-- What a plugin is run for. -/
structure Runtime where
  containerId : String
  netns : String
  interface : String
  /-- Additional arguments, as pairs of a key and a value. -/
  args : List (String × String) := []
  /-- Arguments for plugins that declare the capability. -/
  capabilityArgs : Json.Members := []

namespace Runtime

/-- The additional arguments as one text. -/
def argsText (rt : Runtime) : String :=
  ";".intercalate (rt.args.map fun (k, v) ↦ k ++ "=" ++ v)

end Runtime

namespace ConfigList

/-- The list of one plugin that attaches a container to the data network. -/
def build (a : Allocation) (s : Settings) : ConfigList where
  cniVersion := s.cniVersion
  name := s.networkName
  plugins := [{
    name := some s.networkName
    pluginType := s.pluginType
    ipam := some (.ofAllocation a)
    hairpinMode := some s.hairpinMode
    extra := [] }]

def toJson (l : ConfigList) : Json :=
  .object [("cniVersion", .text l.cniVersion), ("name", .text l.name),
    ("plugins", .array (l.plugins.map Entry.toJson))]

/-- The fields of a list, all of them required. -/
def record : Json.Record ConfigList where
  initial := ⟨"", "", []⟩
  fields := [
    { name := "cniVersion", required := true, set := fun t l ↦ do
        return { l with cniVersion := ← t.asText } },
    { name := "name", required := true, set := fun t l ↦ do return { l with name := ← t.asText } },
    { name := "plugins", required := true, set := fun t l ↦ do
        return { l with plugins := ← t.asList Entry.read } }]

def read (t : Json.Tree) : Json.Decoded ConfigList := record.read t

/-- The list in a document; it must name a plugin. -/
def ofDocument (d : Json.Document) : Outcome ConfigList := do
  let l ← (d.decode read).toOutcome
  if l.plugins.isEmpty then throw (.config (.noPlugins l.name))
  return l

/-- The list in a JSON text that is given as bytes. -/
def ofBytes (bytes : List UInt8) : Outcome ConfigList := ofDocument (.ofBytes bytes)

/-- The arguments for the capabilities that a plugin declares. -/
def runtimeConfig (e : Entry) (rt : Runtime) : Json.Members :=
  Json.Members.ofList <| e.capabilities.filterMap fun name ↦
    (rt.capabilityArgs.get? name).map fun v ↦ (name, v)

/-- The document that a plugin of the list reads: its entry with the name and version of the list,
the result of the plugin before it, and the arguments for the capabilities it declares. -/
def document (l : ConfigList) (e : Entry) (previous : Option Json) (rt : Runtime) : Json :=
  let entry := match e.toJson.canonical with
    | .object members => members
    | _ => []
  let named := Json.Members.insert "cniVersion" (.text l.cniVersion)
    (Json.Members.insert "name" (.text l.name) entry)
  let chained := match previous with
    | some v => Json.Members.insert "prevResult" v named
    | none => named
  let config := runtimeConfig e rt
  .object (if config.isEmpty then chained
    else Json.Members.insert "runtimeConfig" (.object config) chained)

/-- The document for the plugin at a place of the list. -/
def stdin (l : ConfigList) (index : Nat) (previous : Option Json) (rt : Runtime) : Outcome Json :=
  match l.plugins[index]? with
  | some e => .ok (l.document e previous rt)
  | none => .error (.backend
      ("no plugin at index " ++ Text.natText index ++ " in '" ++ l.name ++ "'"))

end ConfigList

end ContainerNet.Plugin
