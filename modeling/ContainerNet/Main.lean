import ContainerNet.Sidecar.Run

/-!
# The sidecar as a program

Reads the arguments, the environment and the files that a run looks at, and prints the log of the
run. This program has no handle on the kernel, so it says of every namespace that it cannot be
opened; all else is decided by `Options.run`.
-/

namespace ContainerNet.Main

open Sidecar (Options UsageFault)

/-- A fault by its number in the operating system. -/
def faultOfCode (code : UInt32) : IoFault :=
  match code.toNat with
  | 2 => .notFound
  | 13 => .permissionDenied
  | 20 => .notDirectory
  | 21 => .isDirectory
  | 36 => .nameTooLong
  | _ => .invalidArgument

/-- The fault that an error of the runtime stands for. -/
def faultOf : IO.Error → IoFault
  | .noFileOrDirectory _ code _ | .permissionDenied _ code _ | .inappropriateType _ code _
  | .invalidArgument _ code _ => faultOfCode code
  | _ => .invalidArgument

/-- The outcome of an operation, with its fault as a value. -/
def attempt {α : Type} (action : IO α) : IO (Except IoFault α) := do
  try return .ok (← action)
  catch e => return .error (faultOf e)

/-- Opens what is at a path. -/
def find (path : String) : IO (Except IoFault Unit) :=
  attempt do
    let _ ← IO.FS.Handle.mk path .read
    return ()

/-- What is found at some paths, and what is in the files at some of them. -/
def look (files places : List String) : IO FileAccess := do
  let found ← (files ++ places).mapM fun path ↦ return (path, ← find path)
  let contents ← files.mapM fun (path : String) ↦
    return (path, (← attempt (IO.FS.readBinFile path)).map ByteArray.toList)
  return {
    find path := ((found.find? (·.1 = path)).map (·.2)).getD (.error .notFound)
    bytes path := ((contents.find? (·.1 = path)).map (·.2)).getD (.error .notFound) }

/-- The rest of a stream. -/
partial def readAll (input : IO.FS.Stream) (front : ByteArray) : IO ByteArray := do
  let block ← input.read 65536
  if block.isEmpty then return front else readAll input (front ++ block)

/-- The namespaces that the events name. -/
def namespaces (p : Places) (bytes : List UInt8) : List String :=
  (Sidecar.Intake.read p bytes).1.filterMap fun
    | .call _ (.configure netns _) => some netns
    | _ => none

def levelName : Log.Level → String
  | .info => "INFO"
  | .warn => "WARN"

/-- The line of a log entry. -/
def line (asJson : Bool) (e : Log.Entry) : String :=
  if asJson then
    (Json.object [("level", .text (levelName e.level)), ("message", .text e.message),
      ("fields", .object (e.fields.map fun (k, v) ↦ (k, .text v.shown)))]).render
  else " ".intercalate <|
    levelName e.level :: e.message :: e.fields.map fun (k, v) ↦ k ++ "=" ++ v.shown

/-- What is printed when there is nothing to be done, and the exit code. -/
def usageText : UsageFault → String × UInt32
  | .helpWanted => ("usage: meshbed-sidecar [-c FILE] [-e FILE] [--data-network NAME] [--debug] " ++
      "[--log-json]", 0)
  | .versionWanted => ("meshbed-sidecar 0.1.0", 0)
  | .unknownArgument => ("error: unexpected argument", 2)
  | .invalidValue => ("error: an option has no valid value", 2)
  | .repeated => ("error: an option cannot be used multiple times", 2)
  | .unwantedValue => ("error: an option takes no value", 2)

/-- Runs the sidecar and gives the exit code. -/
def run (o : Options) : IO UInt32 := do
  let usual := (← IO.getEnv "MESHBED_CONFIG").getD Sidecar.usualSettings
  let files := [o.config.getD usual] ++ o.events.toList
  let before ← look files []
  let standard ← match o.events with
    | some _ => pure .empty
    | none => readAll (← IO.getStdin) .empty
  let input := match o.events with
    | some path => ((before.bytes path).toOption).getD []
    | none => standard.toList
  let places := match o.loadConfig before usual with
    | .ok c => namespaces c.places input
    | .error _ => []
  let run := o.run (← look files places) usual (.ok standard.toList)
  for e in run.log do IO.println (line o.logJson e)
  match run.result with
  | .ok () => return 0
  | .error fault =>
    IO.eprintln ("Error: " ++ ": ".intercalate fault.chain)
    return 1

/-- What the arguments ask for. -/
def start (args : List String) : IO UInt32 := do
  match Options.parse args with
  | .error fault =>
    let (text, code) := usageText fault
    IO.println text
    return code
  | .ok o => run (o.withEnvironment (← IO.getEnv "MESHBED_DATA_NETWORK"))

end ContainerNet.Main

def main (args : List String) : IO UInt32 := ContainerNet.Main.start args
