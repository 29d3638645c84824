import ContainerNet.ContainerId
import ContainerNet.Files.Places
import ContainerNet.NetworkConfig

/-!
# Events

What the sidecar is told, one JSON object a line: to bring a container's network into a state, or
to let the container go. A namespace is given by its path or by a process that is in it; with both
the path counts.

An event is decoded in two passes, since its kind may stand anywhere in the object: first the whole
object is read, then its members are taken apart.
-/

namespace ContainerNet

/-- How a namespace is given. -/
inductive NetnsRef
  | path (p : String)
  | pid (n : Nat)
deriving DecidableEq, Repr

/-- What the sidecar is told. -/
inductive Event
  | configure (container : ContainerId) (netns : NetnsRef) (config : NetworkConfig)
  | release (container : ContainerId)
deriving DecidableEq, Repr

namespace NetnsRef

/-- The path of the namespace. -/
def resolve (p : Places) : NetnsRef → String
  | .path p => p
  | .pid n => p.netnsOfPid n

def member : NetnsRef → String × Json
  | .path p => ("netns_path", .text p)
  | .pid n => ("pid", .nat n)

def pathRecord : Json.Record (Option String) where
  initial := none
  fields := [
    { name := "netns_path", required := true, set := fun t _ ↦ some <$> t.asText }]

def pidRecord : Json.Record (Option Nat) where
  initial := none
  fields := [
    { name := "pid", required := true, set := fun t _ ↦ some <$> t.asNat UInt32.size }]

/-- The reference among the members of an event. -/
def ofMembers (l : List (String × Json)) : Json.Decoded NetnsRef :=
  match pathRecord.ofMembers l, pidRecord.ofMembers l with
  | .ok (some p), _ => .ok (.path p)
  | _, .ok (some n) => .ok (.pid n)
  | _, _ => .error (.mismatch "a namespace")

end NetnsRef

namespace Event

def container : Event → ContainerId
  | .configure id _ _ | .release id => id

/-! ## JSON -/

def toJson : Event → Json
  | .configure id netns config =>
    .object [("type", .text "configure"), ("container_id", id.toJson), netns.member,
      ("config", config.toJson)]
  | .release id => .object [("type", .text "release"), ("container_id", id.toJson)]

/-- The kinds of events. -/
inductive Kind
  | configure
  | release
deriving DecidableEq, Repr

namespace Kind

def words : List (String × Kind) := [("configure", .configure), ("release", .release)]

def read : Json.Tree → Json.Decoded Kind
  | .text s => (Json.Tree.text s).asWord words .stream
  | t => t.unexpected "the kind of an event"

end Kind

/-- Reads the members of an event and sets its kind apart. -/
def members : List (Option String × Json.Tree) → Option Kind → List (String × Json) →
    Json.Decoded (Option Kind × List (String × Json))
  | [], kind, rest => .ok (kind, rest.reverse)
  | (none, _) :: _, _, _ => .error .malformed
  | (some k, t) :: l, kind, rest =>
    if k = "type" then do
      if kind.isSome then throw (.duplicateField "type")
      members l (some (← Kind.read t)) rest
    else do
      members l kind ((k, ← t.value) :: rest)

/-- The first pass: the kind of an event and what else belongs to it. -/
def envelope : Json.Tree → Json.Decoded (Kind × Json)
  | .object l closed => do
    let (kind, rest) ← members l none []
    Json.Tree.ended closed
    match kind with
    | some kind => return (kind, .object rest)
    | none => throw (.missingField "type")
  | .array [] closed => do
    Json.Tree.ended closed
    throw (.missingField "type")
  | .array (t :: l) closed => do
    let kind ← Kind.read t
    let rest ← Json.Tree.valueItems l
    Json.Tree.ended closed
    return (kind, .array rest)
  | t => t.unexpected "an event"

structure Draft where
  container : Option ContainerId := none
  config : Option NetworkConfig := none

def containerField : Json.Field Draft where
  name := "container_id"
  required := true
  set := fun t d ↦ do return { d with container := some (← ContainerId.read t) }

def configField : Json.Field Draft where
  name := "config"
  required := true
  set := fun t d ↦ do return { d with config := some (← NetworkConfig.read .parts t) }

def configureRecord : Json.Record Draft := ⟨{}, [containerField, configField]⟩

def releaseRecord : Json.Record Draft := ⟨{}, [containerField]⟩

/-- The second pass: an event of a known kind. -/
def ofParts (kind : Kind) (v : Json) : Json.Decoded Event :=
  match kind with
  | .configure => do
    let (d, rest) ← configureRecord.readOpen (.ofJson v)
    let netns ← NetnsRef.ofMembers rest
    match d with
    | ⟨some container, some config⟩ => return .configure container netns config
    | _ => throw .malformed
  | .release => do
    let d ← releaseRecord.read (.ofJson v)
    match d with
    | ⟨some container, _⟩ => return .release container
    | _ => throw .malformed

def read (t : Json.Tree) : Json.Decoded Event := do
  let (kind, v) ← envelope t
  ofParts kind v

/-- The event on a line. -/
def ofLine (line : String) : Json.Decoded Event := (Json.Document.ofText line).decode read

/-- Whether it is known where in its line a fault of an event is: the second pass does not see the
line any more. -/
def isPlaced : Json.Fault → Bool
  | .unknownVariant _ known => known = Kind.words.map (·.1)
  | _ => false

/-- The line of an event. -/
def line (e : Event) : String := e.toJson.render

end Event

end ContainerNet
