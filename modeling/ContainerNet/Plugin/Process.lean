import ContainerNet.Files.Places
import ContainerNet.Plugin.Chain
import ContainerNet.Text.Blank

/-!
# Plugins as processes

A plugin is a program in one of the plugin directories. It is told in its environment what to do,
reads its document, and prints a document when it succeeds; when it fails it may print an error,
and otherwise its exit status and its error output say what went wrong.
-/

namespace ContainerNet.Plugin

/-- A program to be run. -/
structure Invocation where
  path : String
  environment : List (String × String)
  /-- What the program reads. -/
  input : String
deriving DecidableEq, Repr

namespace Process

/-- How a process came to its end. -/
inductive Status
  | exited (code : Nat)
  | killed (signal : Nat)
deriving DecidableEq, Repr

/-- The names of the signals, from number 1 on. -/
def signalNames : List String :=
  ["SIGHUP", "SIGINT", "SIGQUIT", "SIGILL", "SIGTRAP", "SIGABRT", "SIGBUS", "SIGFPE", "SIGKILL",
    "SIGUSR1", "SIGSEGV", "SIGUSR2", "SIGPIPE", "SIGALRM", "SIGTERM", "SIGSTKFLT", "SIGCHLD",
    "SIGCONT", "SIGSTOP", "SIGTSTP", "SIGTTIN", "SIGTTOU", "SIGURG", "SIGXCPU", "SIGXFSZ",
    "SIGVTALRM", "SIGPROF", "SIGWINCH", "SIGIO", "SIGPWR", "SIGSYS"]

namespace Status

/-- The greatest number that a signal has. -/
def lastSignal : Nat := 64

/-- The signals that change nothing for a process that does not ask for them, and the number that
only asks whether the process is there. -/
def harmlessSignals : List Nat := [0, 17, 18, 23, 28]

/-- How a process ends that sends itself a signal, if any, and then exits with a code, of which the
last byte counts. -/
def ofScript (signal : Option Nat) (code : Nat) : Status :=
  match signal.filter fun n ↦ n ≤ lastSignal && n ∉ harmlessSignals with
  | some signal => .killed signal
  | none => .exited (code % 256)

example : (ofScript (some 9) 3, ofScript (some 17) 3, ofScript none 259) =
    (.killed 9, .exited 3, .exited 3) := by decide

def succeeded (s : Status) : Bool := s == .exited 0

def text : Status → String
  | .exited code => "exit status: " ++ Text.natText code
  | .killed 0 => "signal: 0"
  | .killed (n + 1) => "signal: " ++ Text.natText (n + 1) ++
    match signalNames[n]? with
    | some name => " (" ++ name ++ ")"
    | none => ""

end Status

/-- What a process leaves behind. -/
structure Remains where
  status : Status
  output : List UInt8
  errors : List UInt8
deriving Repr

/-- The ASCII characters that count as blank: a printed document may consist of them. -/
def isBlankByte (b : UInt8) : Bool := b == 32 || b == 9 || b == 10 || b == 12 || b == 13

namespace Remains

/-- What a run of a plugin comes to. -/
def outcome (plugin : String) (r : Remains) : Outcome (Option Json) :=
  if !r.status.succeeded then
    match Complaint.ofBytes? r.output with
    | some c => .error (.plugin plugin c.code c.text)
    | none =>
      .error (.plugin plugin 0 (r.status.text ++ ": " ++
        String.ofList (Text.trim (Text.decodeLossy r.errors))))
  else if r.output.all isBlankByte then .ok none
  else ((Json.Document.ofBytes r.output).decode Json.Tree.value).toOutcome.map
    fun v ↦ some v.canonical

end Remains

end Process

namespace Call

/-- What a program has to be given to make this run. -/
def invocation (c : Call) (places : Places) (path : String) : Invocation where
  path
  environment := [("CNI_COMMAND", c.command.word), ("CNI_CONTAINERID", c.runtime.containerId),
    ("CNI_NETNS", c.runtime.netns), ("CNI_IFNAME", c.runtime.interface),
    ("CNI_ARGS", c.runtime.argsText), ("CNI_PATH", places.searchText)]
  input := c.input.render

/-- Makes the run: looks for the program, given which paths are files, and runs it. -/
def execute (places : Places) (isFile : String → Bool) (c : Call) :
    Program Invocation (fun _ ↦ Except IoFault Process.Remains) (Outcome (Option Json)) :=
  match places.findPlugin? isFile c.plugin with
  | none => .done (.error (.plugin c.plugin 0
      ("failed to find plugin in " ++ places.searchText)))
  | some path =>
    .ask (c.invocation places path) fun (ended : Except IoFault Process.Remains) ↦
    .done <| match ended with
    | .error why => .error (.io why)
    | .ok remains => remains.outcome c.plugin

end Call

end ContainerNet.Plugin
