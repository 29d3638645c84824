import ContainerNet.Json.Decode
import ContainerNet.Duration
import ContainerNet.IoFault

/-!
# Errors

What can go wrong, by cause. The wording is in one place: `Error.message` says what happened,
`Error.code` is a stable name for machines, and `Error.help?` is advice for those errors that have
some.
-/

namespace ContainerNet

/-- What is wrong with a piece of configuration. -/
inductive ConfigFault
  /-- The value of an allocation is no subnet. -/
  | notSubnet (kind value : String)
  /-- A plugin list names no plugin. -/
  | noPlugins (list : String)
  /-- A settings file is not TOML, or a value in it has the wrong type. -/
  | toml (reason : String)
  | unreadable (path : String) (why : IoFault)
  | emptyNetwork
  | interfaceLength (name : String)
  | emptyQueue
deriving DecidableEq, Repr

def ConfigFault.message : ConfigFault → String
  | .notSubnet kind value =>
    "invalid " ++ kind ++ " value '" ++ value ++ "': invalid IP address syntax"
  | .noPlugins list => "CNI config list '" ++ list ++ "' has no plugins"
  | .toml reason => "Failed to parse TOML: " ++ reason
  | .unreadable path why => "Failed to read " ++ path ++ ": " ++ why.message
  | .emptyNetwork => "data_network must not be empty"
  | .interfaceLength name => "interface_name '" ++ name ++ "' must be 1 to 15 characters"
  | .emptyQueue => "queue_depth must be at least 1"

inductive Error
  | invalidContainerId (id : String)
  | invalidBandwidth (text : String)
  /-- A percentage of a link shape is out of range. -/
  | invalidShape (field : String) (value : Binary.Single)
  | io (why : IoFault)
  | serialization (fault : Json.Fault)
  | config (fault : ConfigFault)
  | unsupportedNetwork (network expected : String)
  | notSupported (feature : String)
  | unsupportedKind (kind : String)
  /-- Every attempt to attach failed. -/
  | attachFailed (attempts : Nat) (last : Error)
  | attachTimeout (deadline : Duration)
  | attachCancelled
  | detachFailed (source : Error)
  /-- A plugin could not be run, or says that it failed. -/
  | plugin (name : String) (number : Nat) (text : String)
  | linkNotFound (name : String)
  | backend (message : String)
  | closed
deriving DecidableEq, Repr

namespace Error

/-- How a percentage is shown: all of its digits, without an exponent. -/
def percentLayout : Binary.Layout := ⟨none, none, false, .up⟩

def percentText (x : Binary.Single) : String := String.ofList (percentLayout.text x)

/-- What happened. -/
def message : Error → String
  | .invalidContainerId id => "Invalid container ID: " ++ id
  | .invalidBandwidth text => "Invalid bandwidth: " ++ text
  | .invalidShape field value =>
    "Invalid link shape: " ++ field ++ " must be a percentage between 0 and 100, got " ++
      percentText value
  | .io why => "I/O error: " ++ why.message
  | .serialization fault => "Serialization error: " ++ fault.message
  | .config fault => "Configuration error: " ++ fault.message
  | .unsupportedNetwork network expected =>
    "configured network is not `" ++ expected ++ "` (got `" ++ network ++ "`)"
  | .notSupported feature => feature ++ " not supported"
  | .unsupportedKind kind => "unknown CNI config kind `" ++ kind ++ "`"
  | .attachFailed attempts last =>
    "failed to add network through CNI plugin: after " ++ Text.natText attempts ++
      " attempts, last error: " ++ last.message
  | .attachTimeout deadline => "timeout waiting on CNI attach after " ++ deadline.text
  | .attachCancelled => "CNI attach cancelled"
  | .detachFailed source => "failed to remove network through CNI plugin: " ++ source.message
  | .plugin name number text =>
    "CNI plugin `" ++ name ++ "` failed (code " ++ Text.natText number ++ "): " ++ text
  | .linkNotFound name => "failed to get link by name " ++ name ++ ": link not found"
  | .backend message => "kernel backend: " ++ message
  | .closed => "network handle is closed"

/-- A stable name of the kind of error. -/
def code : Error → String
  | .invalidContainerId _ => "meshbed::container::invalid_id"
  | .invalidBandwidth _ => "meshbed::bandwidth::invalid"
  | .invalidShape _ _ => "meshbed::shape::invalid"
  | .io _ => "meshbed::io"
  | .serialization _ => "meshbed::serialization"
  | .config _ => "meshbed::config"
  | .unsupportedNetwork _ _ => "meshbed::network::unsupported_network"
  | .notSupported _ => "meshbed::network::not_supported"
  | .unsupportedKind _ => "meshbed::cni::unsupported_kind"
  | .attachFailed _ _ => "meshbed::cni::attach_failed"
  | .attachTimeout _ => "meshbed::cni::timeout"
  | .attachCancelled => "meshbed::cancelled"
  | .detachFailed _ => "meshbed::cni::detach_failed"
  | .plugin _ _ _ => "meshbed::cni::plugin"
  | .linkNotFound _ => "meshbed::link::resolution_failed"
  | .backend _ => "meshbed::backend"
  | .closed => "meshbed::closed"

/-- Advice on how to mend the cause. -/
def help? : Error → Option String
  | .invalidContainerId _ =>
    some "Container IDs must be alphanumeric with hyphens and underscores, 1-64 characters"
  | .invalidBandwidth _ =>
    some "Use formats like '100mbit', '1gbit', '512kbit' or a plain number of bits per second"
  | .unsupportedKind _ =>
    some "Supported kinds are `net` (subnet pool) and `ip` (fixed address)"
  | _ => none

end Error

/-- The answer of an operation that can fail. -/
abbrev Outcome (α : Type) := Except Error α

/-- An error of decoding as an error of the library. -/
def Json.Decoded.toOutcome {α : Type} (d : Json.Decoded α) : Outcome α :=
  d.mapError .serialization

end ContainerNet
