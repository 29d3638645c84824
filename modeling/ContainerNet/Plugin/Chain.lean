import ContainerNet.Plugin.Result
import ContainerNet.Program

/-!
# Plugin chains

The plugins of a list run one after the other. To attach, they run in order, and each reads the
result of the latest plugin before it that gave one; the result of the last such plugin is the
result of the chain. To detach, they run in reverse order and no results are passed. The first
plugin that fails ends the chain.
-/

namespace ContainerNet.Plugin

/-- What a plugin is to do. -/
inductive Command
  | add
  | del
deriving DecidableEq, Repr

namespace Command

def word : Command → String
  | .add => "ADD"
  | .del => "DEL"

end Command

/-- One run of a plugin. -/
structure Call where
  plugin : String
  command : Command
  /-- What the plugin reads. -/
  input : Json
  runtime : Runtime

/-- A program that runs plugins. A run that succeeds may print a document. -/
abbrev Chain (α : Type) := Program Call (fun _ ↦ Outcome (Option Json)) α

namespace ConfigList

variable (l : ConfigList) (rt : Runtime)

/-- The run of one plugin of the list. -/
def call (command : Command) (e : Entry) (previous : Option Json) : Call :=
  ⟨e.pluginType, command, l.document e previous rt, rt⟩

/-- Runs plugins in order, given the latest result, and gives the latest result then. -/
def addFrom : List Entry → Option Json → Chain (Outcome (Option Json))
  | [], previous => .done (.ok previous)
  | e :: rest, previous =>
    .ask (l.call rt .add e previous) fun (printed : Outcome (Option Json)) ↦
    match printed with
    | .error fault => .done (.error fault)
    | .ok result => addFrom rest (result.or previous)

/-- Attaches: the chain has to give a result. -/
def add : Chain (Outcome Result) :=
  (l.addFrom rt l.plugins none).bind fun outcome ↦ .done do
    match ← outcome with
    | some v => Result.ofJson v
    | none => throw (.plugin l.name 0 "plugin chain produced no result")

/-- Runs plugins in order and does not look at what they print. -/
def delFrom : List Entry → Chain (Outcome Unit)
  | [] => .done (.ok ())
  | e :: rest =>
    .ask (l.call rt .del e none) fun (printed : Outcome (Option Json)) ↦
    match printed with
    | .error fault => .done (.error fault)
    | .ok _ => delFrom rest

/-- Detaches. -/
def del : Chain (Outcome Unit) := l.delFrom rt l.plugins.reverse

end ConfigList

end ContainerNet.Plugin
