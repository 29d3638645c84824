import ContainerNet.Configurator
import ContainerNet.Files.Access
import ContainerNet.Files.Places
import ContainerNet.Toml.Document

/-!
# Sidecar configuration

The settings file of the sidecar. Everything in it may be left out. Reading it checks what the rest
of the sidecar relies on: a network name, an interface name that the kernel accepts, and room for
at least one waiting configuration.
-/

namespace ContainerNet.Sidecar

/-- The retry policy in whole seconds. -/
structure RetrySettings where
  attempts : Nat := 3
  backoffSeconds : Nat := 2
  deadlineSeconds : Nat := 30
deriving DecidableEq, Repr, Inhabited

namespace RetrySettings

def policy (s : RetrySettings) : RetryPolicy where
  attempts := s.attempts
  backoff := .ofSeconds s.backoffSeconds
  deadline := .ofSeconds s.deadlineSeconds

def toJson (s : RetrySettings) : Json :=
  .object [("attempts", .nat s.attempts), ("backoff_secs", .nat s.backoffSeconds),
    ("deadline_secs", .nat s.deadlineSeconds)]

def record : Json.Record RetrySettings where
  initial := {}
  fields := [
    { name := "attempts", set := fun t s ↦ do return { s with attempts := ← t.asNat UInt32.size } },
    { name := "backoff_secs", set := fun t s ↦ do
        return { s with backoffSeconds := ← t.asNat UInt64.size } },
    { name := "deadline_secs", set := fun t s ↦ do
        return { s with deadlineSeconds := ← t.asNat UInt64.size } }]

def read (t : Json.Tree) : Json.Decoded RetrySettings := record.read t

end RetrySettings

/-- The settings of a sidecar. -/
structure Config where
  network : DataNetwork := {}
  places : Places := {}
  /-- How many configurations may wait for each container. -/
  queueDepth : Nat := 16
  plugin : Plugin.Settings := {}
  retry : RetrySettings := {}
deriving DecidableEq, Repr, Inhabited

namespace Config

def toJson (c : Config) : Json :=
  .object [("data_network", .text c.network.name), ("interface_name", .text c.network.interface),
    ("subnet", c.network.pool.toJson), ("cni_bin_dirs", .texts c.places.pluginDirs),
    ("proc_root", .text c.places.procRoot), ("queue_depth", .nat c.queueDepth),
    ("plugin", c.plugin.toJson), ("retry", c.retry.toJson)]

/-- The fields of the settings file. -/
def record : Json.Record Config where
  initial := {}
  fields := [
    { name := "data_network", set := fun t c ↦ do
        return { c with network := { c.network with name := ← t.asText } } },
    { name := "interface_name", set := fun t c ↦ do
        return { c with network := { c.network with interface := ← t.asText } } },
    { name := "subnet", set := fun t c ↦ do
        return { c with network := { c.network with pool := ← Subnet.read t } } },
    { name := "cni_bin_dirs", set := fun t c ↦ do
        return { c with places := { c.places with pluginDirs := ← t.asList Json.Tree.asText } } },
    { name := "proc_root", set := fun t c ↦ do
        return { c with places := { c.places with procRoot := ← t.asText } } },
    { name := "queue_depth", set := fun t c ↦ do
        return { c with queueDepth := ← t.asNat UInt64.size } },
    { name := "plugin", set := fun t c ↦ do
        return { c with plugin := ← Plugin.Settings.record.readFront t } },
    { name := "retry", set := fun t c ↦ do
        return { c with retry := ← RetrySettings.record.readFront t } }]

/-- The length of an interface name, in bytes. -/
def maxInterface : Nat := 15

/-- Checks what the sidecar relies on. -/
def validate (c : Config) : Outcome Unit :=
  if c.network.name.isEmpty then .error (.config .emptyNetwork)
  else if c.network.interface.isEmpty || maxInterface < c.network.interface.utf8ByteSize then
    .error (.config (.interfaceLength c.network.interface))
  else if c.queueDepth = 0 then .error (.config .emptyQueue)
  else .ok ()

/-- The settings in the text of a file. -/
def ofToml (text : String) : Outcome Config := do
  match Toml.parse? text with
  | none => throw (.config (.toml "the text is not TOML"))
  | some v =>
    let c ← (record.read v.tree).mapError fun fault ↦ .config (.toml fault.message)
    c.validate
    return c

/-- The settings in a file. -/
def load (files : FileAccess) (path : String) : Outcome Config :=
  match files.text path with
  | .error why => .error (.config (.unreadable path why))
  | .ok text => ofToml text

/-- The settings in a file, or the usual settings if there is no such file. -/
def loadOrDefault (files : FileAccess) (path : String) : Outcome Config :=
  if files.has path then load files path else .ok {}

end Config

end ContainerNet.Sidecar
