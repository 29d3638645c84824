import ContainerNet.Plugin.ConfigList

/-!
# Plugin results

What a plugin prints when it has attached a container: the interfaces it made and the addresses it
assigned. A plugin that fails may print an error of its own instead.
-/

namespace ContainerNet.Plugin

/-- An interface that a plugin made or touched. -/
structure Interface where
  name : String
  mac : Option String
  sandbox : Option String
deriving DecidableEq, Repr

/-- An address that a plugin assigned. -/
structure AssignedAddress where
  /-- Which of the interfaces has the address. -/
  interface : Option Nat
  address : AnySubnet
  gateway : Option AnyAddress
deriving DecidableEq, Repr

/-- The result of attaching. -/
structure Result where
  cniVersion : String := ""
  interfaces : List Interface := []
  ips : List AssignedAddress := []
deriving DecidableEq, Repr, Inhabited

namespace Interface

private def record : Json.Record Interface where
  initial := ⟨"", none, none⟩
  fields := [
    { name := "name", required := true, set := fun t i ↦ do return { i with name := ← t.asText } },
    { name := "mac", set := fun t i ↦ do
        return { i with mac := ← t.asOption Json.Tree.asText } },
    { name := "sandbox", set := fun t i ↦ do
        return { i with sandbox := ← t.asOption Json.Tree.asText } }]

def read (t : Json.Tree) : Json.Decoded Interface := record.read t

end Interface

namespace AssignedAddress

private def readSubnet (t : Json.Tree) : Json.Decoded AnySubnet :=
  t.asParsed fun s ↦ match AnySubnet.parse? s with
    | some net => .ok net
    | none => .error "this is not a subnet"

private def readAddress (t : Json.Tree) : Json.Decoded AnyAddress :=
  t.asParsed fun s ↦ match AnyAddress.parse? s with
    | some a => .ok a
    | none => .error "this is not an address"

private structure Draft where
  interface : Option Nat := none
  address : Option AnySubnet := none
  gateway : Option AnyAddress := none

private def record : Json.Record Draft where
  initial := {}
  fields := [
    { name := "interface", set := fun t d ↦ do
        return { d with interface := ← t.asOption (·.asNat UInt64.size) } },
    { name := "address", required := true, set := fun t d ↦ do
        return { d with address := some (← readSubnet t) } },
    { name := "gateway", set := fun t d ↦ do
        return { d with gateway := ← t.asOption readAddress } }]

def read (t : Json.Tree) : Json.Decoded AssignedAddress := do
  let d ← record.read t
  match d.address with
  | some address => return ⟨d.interface, address, d.gateway⟩
  | none => throw (.missingField "address")

end AssignedAddress

namespace Result

private def record : Json.Record Result where
  initial := {}
  fields := [
    { name := "cniVersion", set := fun t r ↦ do return { r with cniVersion := ← t.asText } },
    { name := "interfaces", set := fun t r ↦ do
        return { r with interfaces := ← t.asList Interface.read } },
    { name := "ips", set := fun t r ↦ do
        return { r with ips := ← t.asList AssignedAddress.read } }]

/-- The result in a document. -/
def ofJson (v : Json) : Outcome Result := (record.read (.ofJson v)).toOutcome

end Result

/-- The error that a failing plugin prints. -/
structure Complaint where
  code : Nat := 0
  msg : String := ""
  details : String := ""
deriving DecidableEq, Repr

namespace Complaint

private def record : Json.Record Complaint where
  initial := {}
  fields := [
    { name := "code", set := fun t c ↦ do return { c with code := ← t.asNat UInt32.size } },
    { name := "msg", set := fun t c ↦ do return { c with msg := ← t.asText } },
    { name := "details", set := fun t c ↦ do return { c with details := ← t.asText } }]

/-- The error in what a plugin printed. -/
def ofBytes? (bytes : List UInt8) : Option Complaint :=
  ((Json.Document.ofBytes bytes).decode record.read).toOption

/-- The message, with the details behind it if there are any. -/
def text (c : Complaint) : String :=
  if c.details.isEmpty then c.msg else c.msg ++ "; " ++ c.details

end Complaint

end ContainerNet.Plugin
