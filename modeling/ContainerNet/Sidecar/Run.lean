import ContainerNet.Sidecar.CommandLine
import ContainerNet.Sidecar.Config
import ContainerNet.Simulation.Host

/-!
# A run of the sidecar

What the sidecar does from its start to the end of its input: it loads its settings, takes in the
events, lets the workers finish, and stops. Everything that it finds around it is a parameter, so a
run is a function, and its log a value.
-/

namespace ContainerNet.Sidecar

open Simulation (Host Opening Seen)

/-- Why a run failed. -/
inductive RunFault
  /-- The settings could not be loaded; the path is there if one was asked for. -/
  | settings (path : Option String) (why : Error)
  | noEvents (path : String) (why : IoFault)
  /-- The input could not be read to its end. -/
  | input (why : IoFault)
deriving DecidableEq, Repr

/-- What went wrong, the wider view first. -/
def RunFault.chain : RunFault → List String
  | .settings none why => [why.message]
  | .settings (some path) why => ["Failed to load config " ++ path, why.message]
  | .noEvents path why => ["Failed to open events file " ++ path, why.message]
  | .input why => [why.message]

/-- Where the settings are if no argument says so. -/
def usualSettings : String := "/etc/meshbed/sidecar.toml"

namespace Options

/-- Reads the settings. A file that is asked for must exist, the usual one need not. -/
def readConfig (o : Options) (files : FileAccess) (usual : String) : Except RunFault Config :=
  match o.config with
  | some path => (Config.load files path).mapError (.settings (some path))
  | none => (Config.loadOrDefault files usual).mapError (.settings none)

/-- The settings, with the name of the network that the options give. -/
def loadConfig (o : Options) (files : FileAccess) (usual : String) : Except RunFault Config := do
  let c ← o.readConfig files usual
  match o.dataNetwork with
  | some name => return { c with network := { c.network with name } }
  | none => return c

end Options

/-- The terms on which the workers of a sidecar work. -/
def Config.terms (c : Config) : Terms where
  network := c.network
  plugin := c.plugin
  retry := c.retry.policy
  queueDepth := c.queueDepth

/-- The first entry of the log. -/
def Config.startNote (c : Config) : Log.Entry :=
  Log.info "Starting meshbed sidecar" [("network", c.network.name),
    ("interface", c.network.interface), ("subnet", c.network.pool.text),
    ("plugin", c.plugin.pluginType)]

/-- The last entry of the log. -/
def stopNote : Log.Entry := Log.info "Sidecar stopped"

/-- The log entry of something that was seen, if it has one. -/
def seenNote? : Seen → Option Log.Entry
  | .skipped fault => some (Intake.skipNote fault)
  | .happening _ (.noted e) => some e
  | .happening _ (.reported r) => some r.entry
  | .happening _ (.acted (.log e)) => some e
  | _ => none

/-- A run that is over. -/
structure Run where
  log : List Log.Entry
  result : Except RunFault Unit

/-- Files and directories are no namespaces, so nothing that is there can be opened as one. -/
def notNamespace (files : FileAccess) (netns : String) : Opening where
  takes := some (.ofMillis 1)
  result := .error <| .io <| match files.find netns with
    | .ok () => .invalidArgument
    | .error why => why

/-- More time than the workers need to finish. -/
def finishWithin : Duration := .ofSeconds 3600

/-- The run on an input, or on one that cannot be read. -/
def Config.serve (c : Config) (files : FileAccess) (input : Except IoFault (List UInt8)) : Run :=
  let (lines, result) := match input with
    | .ok bytes => Intake.read c.places bytes
    | .error why => ([], .error why)
  let start := Host.start c.terms (notNamespace files) []
  let (_, h) := (lines.foldl Host.takeIn start).shutDown finishWithin
  let log := h.seen.reverse.filterMap seenNote?
  match result with
  | .ok () => ⟨log ++ [stopNote], .ok ()⟩
  | .error why => ⟨log, .error (.input why)⟩

/-- The run that the options ask for, where `standard` is the standard input. -/
def Options.run (o : Options) (files : FileAccess) (usual : String)
    (standard : Except IoFault (List UInt8)) : Run :=
  match o.loadConfig files usual with
  | .error fault => ⟨[], .error fault⟩
  | .ok c =>
    let started (run : Run) : Run := { run with log := c.startNote :: run.log }
    match o.events with
    | none => started (c.serve files standard)
    | some path =>
      match files.find path with
      | .error why => started ⟨[], .error (.noEvents path why)⟩
      | .ok () => started (c.serve files (files.bytes path))

end ContainerNet.Sidecar
