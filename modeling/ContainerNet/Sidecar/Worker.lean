import ContainerNet.Configurator
import ContainerNet.Sidecar.Report

/-!
# Workers

A worker manages the network of one container in one namespace. It opens the namespace, takes
configurations from its queue one at a time, acts on each and reports, and when its queue is sealed
and empty it gives the namespace back. If the namespace cannot be opened it declines whatever it is
given.

`Worker.turn` says what a worker is about to do, and how it goes on. Who runs the worker, and in
which order several workers take turns, is left open.
-/

namespace ContainerNet.Sidecar

/-- What the workers of a sidecar have in common. -/
structure Terms where
  network : DataNetwork := {}
  plugin : Plugin.Settings := {}
  retry : RetryPolicy := {}
  /-- How many configurations may wait for a worker; at least one always may. -/
  queueDepth : Nat := 16

/-- How many configurations may wait for a worker. -/
def Terms.depth (t : Terms) : Nat := max t.queueDepth 1

/-- How far a worker is. -/
inductive Worker.Stage
  | fresh
  | opening
  /-- The namespace could not be opened; a configuration to be declined may be in hand. -/
  | refused (why : Error) (inHand : Option NetworkConfig)
  | ready (c : Configurator)
  | busy (config : NetworkConfig) (work : Action (Outcome Unit × Configurator))
  | closing (work : Action Configurator)

structure Worker where
  /-- The path of the namespace. -/
  netns : String
  /-- The configurations that it has not taken yet. -/
  waiting : List NetworkConfig := []
  stage : Worker.Stage := .fresh

namespace Worker

/-- What a worker is about to do, and the worker afterwards. -/
inductive Turn
  /-- Nothing, as long as its queue stays empty and is not sealed. -/
  | idle
  | begins (next : Worker)
  /-- It waits for its namespace to be opened. -/
  | opens (netns : String) (next : Outcome Unit → Worker)
  | takes (config : NetworkConfig) (next : Worker)
  /-- It asks the world outside for something. -/
  | acts (q : Effect) (next : q.Answer → Worker)
  | reports (r : Report) (next : Worker)
  /-- Nothing, ever. -/
  | over

variable (w : Worker)

/-- The report after a configuration has been acted on. -/
def report (id : ContainerId) (config : NetworkConfig) (outcome : Outcome Unit)
    (c : Configurator) : Report where
  container := id
  result := match outcome with
    | .ok () => .configured
    | .error e => .failed (.rejected e)
  network := some config.network
  callbackState := config.callbackState
  active := c.listActive
  warnings := c.warnings.map ConfigureWarning.text

/-- The report of a configuration for a namespace that could not be opened. It carries no label. -/
def refusal (id : ContainerId) (config : NetworkConfig) (why : Error) : Report :=
  { Report.declined id config (.noNamespace w.netns why) with callbackState := none }

/-- The management that a worker begins with. -/
def configurator (t : Terms) (id : ContainerId) : Configurator where
  container := id
  netns := w.netns
  network := t.network
  plugin := t.plugin
  retry := t.retry

/-- The turn of a worker that gives its namespace back. -/
def close : Action Configurator → Turn
  | .done _ => .over
  | .ask q next => .acts q fun a ↦ { w with stage := .closing (next a) }

/-- The turn of a worker for the container `id`; nothing comes any more if its queue is sealed. -/
def turn (t : Terms) (id : ContainerId) (isSealed : Bool) : Turn :=
  match w.stage with
  | .fresh => .begins { w with stage := .opening }
  | .opening => .opens w.netns fun
    | .ok () => { w with stage := .ready (w.configurator t id) }
    | .error e => { w with stage := .refused e none }
  | .refused e (some config) =>
    .reports (w.refusal id config e) { w with stage := .refused e none }
  | .refused e none =>
    match w.waiting with
    | config :: rest => .takes config { w with waiting := rest, stage := .refused e (some config) }
    | [] => if isSealed then .over else .idle
  | .ready c =>
    match w.waiting with
    | config :: rest =>
      .takes config { w with waiting := rest, stage := .busy config (c.configure config) }
    | [] => if isSealed then w.close c.close else .idle
  | .busy config (.ask q next) => .acts q fun a ↦ { w with stage := .busy config (next a) }
  | .busy config (.done (outcome, c)) =>
    .reports (report id config outcome c) { w with stage := .ready c.takeWarnings.2 }
  | .closing work => w.close work

end Worker

end ContainerNet.Sidecar
