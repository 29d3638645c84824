/-!
# The command line of the sidecar

The arguments are read from left to right. An option with a value takes it from its own argument,
as in `--config=a` or `-ca`, or from the next one, as in `--config a`; in the second case the option
is *pending* until the argument after the value, and only then the value is looked at. So of two
faults the one that is found first in this way is reported. An argument that begins with a hyphen is
never a value of the option before it.
-/

namespace ContainerNet.Sidecar

/-- What the command line asks for. -/
structure Options where
  /-- The settings file. -/
  config : Option String := none
  /-- A file with events, in place of the standard input. -/
  events : Option String := none
  /-- The name of the network, in place of the one in the settings. -/
  dataNetwork : Option String := none
  debug : Bool := false
  logJson : Bool := false
deriving DecidableEq, Repr

/-- Why there is nothing to be done. -/
inductive UsageFault
  | unknownArgument
  /-- An option has no value, or one that it does not take. -/
  | invalidValue
  /-- An option is given twice. -/
  | repeated
  /-- A value is given to an option that takes none. -/
  | unwantedValue
  | helpWanted
  | versionWanted
deriving DecidableEq, Repr

namespace CommandLine

/-- The options with a value. -/
inductive Setting
  | config
  | events
  | dataNetwork
deriving DecidableEq, Repr

/-- The options without a value. -/
inductive Switch
  | debug
  | logJson
  | help
  | version
deriving DecidableEq, Repr

inductive Key
  | setting (s : Setting)
  | switch (s : Switch)
deriving DecidableEq, Repr

/-- The options by their long names. -/
def ofName? : String → Option Key
  | "config" => some (.setting .config)
  | "events" => some (.setting .events)
  | "data-network" => some (.setting .dataNetwork)
  | "debug" => some (.switch .debug)
  | "log-json" => some (.switch .logJson)
  | "help" => some (.switch .help)
  | "version" => some (.switch .version)
  | _ => none

/-- The options by their letters. -/
def ofLetter? : Char → Option Key
  | 'c' => some (.setting .config)
  | 'e' => some (.setting .events)
  | 'h' => some (.switch .help)
  | 'V' => some (.switch .version)
  | _ => none

/-- What has been read so far. -/
structure Reading where
  options : Options := {}
  /-- The option that may still get its value from the next argument, or has just got it. -/
  pending : Option (Setting × Option String) := none
  /-- Whether nothing more is an option. -/
  ended : Bool := false

abbrev Step := Except UsageFault Reading

namespace Setting

def value? (o : Options) : Setting → Option String
  | .config => o.config
  | .events => o.events
  | .dataNetwork => o.dataNetwork

def put (o : Options) (v : String) : Setting → Options
  | .config => { o with config := some v }
  | .events => { o with events := some v }
  | .dataNetwork => { o with dataNetwork := some v }

/-- Whether a value makes sense: a path is not empty. -/
def accepts (v : String) : Setting → Bool
  | .dataNetwork => true
  | _ => !v.isEmpty

/-- Sets an option that has not been set. -/
def set (s : Setting) (v : String) (r : Reading) : Step :=
  if (s.value? r.options).isSome then .error .repeated
  else if s.accepts v then .ok { r with options := s.put r.options v }
  else .error .invalidValue

end Setting

namespace Reading

variable (r : Reading)

/-- Looks at the value of a pending option. -/
def settle : Step :=
  match r.pending with
  | none => .ok r
  | some (_, none) => .error .invalidValue
  | some (s, some v) => s.set v { r with pending := none }

/-- An option with its value in the same argument. -/
def attach (s : Setting) (v : String) : Step := do s.set v (← r.settle)

/-- An option whose value is yet to come. -/
def expect (s : Setting) : Step := do return { ← r.settle with pending := some (s, none) }

/-- An option without a value. -/
def switch (s : Switch) : Step := do
  let r ← r.settle
  match s with
  | .help => throw .helpWanted
  | .version => throw .versionWanted
  | .debug =>
    if r.options.debug then throw .repeated
    return { r with options := { r.options with debug := true } }
  | .logJson =>
    if r.options.logJson then throw .repeated
    return { r with options := { r.options with logJson := true } }

/-- An argument that begins with two hyphens. -/
def long (text : List Char) : Step :=
  let (name, rest) := text.span (· ≠ '=')
  match ofName? (String.ofList name), rest with
  | none, _ => .error .unknownArgument
  | some (.setting s), _ :: v => r.attach s (String.ofList v)
  | some (.setting s), [] => r.expect s
  | some (.switch _), _ :: _ => .error .unwantedValue
  | some (.switch s), [] => r.switch s

/-- Letters behind one hyphen. What follows the letter of an option with a value is the value. -/
def letters : List Char → Reading → Step
  | [], r => .ok r
  | c :: rest, r =>
    match ofLetter? c, rest with
    | none, _ => .error .unknownArgument
    | some (.switch s), rest => do letters rest (← r.switch s)
    | some (.setting s), [] => r.expect s
    | some (.setting s), '=' :: v => r.attach s (String.ofList v)
    | some (.setting s), v => r.attach s (String.ofList v)

/-- An argument that is no option. -/
def plain (text : String) : Step :=
  match r.pending with
  | some (s, none) => .ok { r with pending := some (s, some text) }
  | _ => .error .unknownArgument

/-- The next argument. -/
def next (arg : String) : Step :=
  if r.ended then .error .unknownArgument
  else match arg.toList with
    | ['-', '-'] => .ok { r with ended := true }
    | '-' :: '-' :: text => r.long text
    | '-' :: c :: text => letters (c :: text) r
    | _ => r.plain arg

end Reading

end CommandLine

namespace Options

/-- What the arguments ask for. -/
def parse (args : List String) : Except UsageFault Options := do
  let r ← args.foldlM CommandLine.Reading.next {}
  return (← r.settle).options

/-- The options, with the name of the network from the environment unless an argument gives it. -/
def withEnvironment (o : Options) (dataNetwork : Option String) : Options :=
  { o with dataNetwork := o.dataNetwork.or dataNetwork }

end Options

end ContainerNet.Sidecar
