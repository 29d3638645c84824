import ContainerNet.ContainerId
import ContainerNet.Log
import ContainerNet.NetworkConfig
import ContainerNet.Text.Quoted

/-!
# Reports

What the sidecar says about a container after an event. A report of a configuration that was acted
on, or turned away, names the network and carries the label of the configuration, so that whoever
sent it can tell which one is meant.
-/

namespace ContainerNet.Sidecar

/-- Why a configuration was not put into force. -/
inductive Failure
  /-- Acting on it failed. -/
  | rejected (why : Error)
  /-- As many configurations as there is room for were waiting already. -/
  | queueFull (depth : Nat)
  /-- The worker that it was meant for had ended already. -/
  | workerStopped
  /-- The namespace of the container could not be opened. -/
  | noNamespace (path : String) (why : Error)
deriving DecidableEq, Repr

def Failure.message : Failure → String
  | .rejected why => why.message
  | .queueFull depth => "event queue is full (" ++ Text.natText depth ++ " pending)"
  | .workerStopped => "unit stopped before receiving config"
  | .noNamespace path why => "failed to open namespace " ++ path ++ ": " ++ why.message

/-- What became of an event. -/
inductive Report.Result
  | configured
  | released
  | failed (why : Failure)
deriving DecidableEq, Repr

/-- The state of a container after an event. -/
structure Report where
  container : ContainerId
  result : Report.Result
  /-- The network that the event was about. -/
  network : Option String := none
  /-- The label of the configuration. -/
  callbackState : Option String := none
  /-- The networks that are attached now. -/
  active : List String := []
  warnings : List String := []
deriving DecidableEq, Repr

namespace Report

/-- A container was let go. -/
def released (container : ContainerId) : Report := ⟨container, .released, none, none, [], []⟩

/-- A configuration was not acted on. -/
def declined (container : ContainerId) (config : NetworkConfig) (why : Failure) : Report where
  container
  result := .failed why
  network := some config.network
  callbackState := config.callbackState

/-- Whether all went well. -/
def isOk (r : Report) : Bool :=
  match r.result with
  | .failed _ => false
  | _ => true

/-- The log entry of a report. -/
def entry (r : Report) : Log.Entry :=
  let container : String × Log.Detail := ("container", r.container.short)
  let network : String × Log.Detail := ("network", Text.quotedOption r.network)
  match r.result with
  | .failed why =>
    Log.warn "Network configuration failed" [container, network, ("error", why.message)]
  | .configured =>
    Log.info "Network configured" [container, network,
      ("callback_state", Text.quotedOption r.callbackState),
      ("active", Text.quotedList r.active), ("warnings", Text.natText r.warnings.length)]
  | .released => Log.info "Container released" [container]

def Result.toJson : Result → Json
  | .configured => .object [("status", .text "configured")]
  | .released => .object [("status", .text "released")]
  | .failed why => .object [("status", .text "failed"), ("error", .text why.message)]

def toJson (r : Report) : Json :=
  .object [("container_id", r.container.toJson), ("network", .option .text r.network),
    ("outcome", r.result.toJson), ("callback_state", .option .text r.callbackState),
    ("active", .texts r.active), ("warnings", .texts r.warnings)]

end Report

end ContainerNet.Sidecar
