import ContainerNet.Simulation.Plugin

/-!
# A world in memory

Everything that the management of one container needs: a kernel in memory, a plugin with a script,
a clock that is stopped at will, and the log. Requests to the kernel can be made to fail. The timer
that they sleep on looks no further ahead than thirty years.
-/

namespace ContainerNet.Simulation

/-- The far future, which is thirty years of 365 days ahead. -/
def farFuture : Duration := .ofSeconds (30 * 365 * 24 * 60 * 60)

/-- The timer of what is kept in memory. A sleep to beyond the far future ends there. -/
instance : Timer := ⟨fun length ↦ ⟨min length.nanos farFuture.nanos⟩⟩

/-- Lets `skip` requests of a kind through and makes the next `times` fail. -/
structure Trouble where
  kind : String
  skip : Nat
  times : Nat
  message : String

structure World where
  kernel : Kernel := {}
  troubles : List Trouble := []
  plugin : ScriptedPlugin := {}
  clock : Clock := {}
  /-- The log, last entry first. -/
  log : List Log.Entry := []

/-- The kinds of requests to the kernel. -/
def kindOf : Effect → String
  | .linkByName _ => "link_by_name"
  | .addresses _ _ => "addresses"
  | .routes => "routes"
  | .replaceRoute _ => "replace_route"
  | .deleteRoute _ => "delete_route"
  | .trafficControl _ _ => "traffic_control"
  | .closeKernel => "close"
  | _ => "other"

namespace Trouble

/-- Whether the next request of a kind fails, and what remains of the trouble. -/
def meet (kind : String) : List Trouble → Option String × List Trouble
  | [] => (none, [])
  | t :: rest =>
    if t.kind ≠ kind then
      let (failure, rest) := meet kind rest
      (failure, t :: rest)
    else if 0 < t.skip then (none, { t with skip := t.skip - 1 } :: rest)
    else if 0 < t.times then (some t.message, { t with times := t.times - 1 } :: rest)
    else (none, t :: rest)

end Trouble

namespace World

variable (w : World)

/-- Puts a trouble in place of an earlier one of its kind. -/
def addTrouble (t : Trouble) : World :=
  { w with troubles := t :: w.troubles.filter (·.kind ≠ t.kind) }

/-- A request to the kernel, which fails if there is trouble. -/
def call {α : Type} (q : Effect) (f : Kernel → α × Kernel) : Outcome α × World :=
  match Trouble.meet (kindOf q) w.troubles with
  | (some message, troubles) =>
    (.error (.backend message), { w with troubles, kernel := w.kernel.record q true })
  | (none, troubles) =>
    let (a, kernel) := f (w.kernel.record q false)
    (.ok a, { w with troubles, kernel })

/-- An attempt to attach, within a time. What is given up while it gives way has not begun. -/
def attach (list : Plugin.ConfigList) (rt : Plugin.Runtime) (earlier : Nat)
    (within : Option Duration) : Ending (Outcome Plugin.Result) × World :=
  match w.clock.giveWay (Retry.limitBefore earlier within) with
  | (some ending, clock) => (ending, { w with clock })
  | (none, clock) =>
    let kernel := w.kernel.record (.attach list rt earlier within) false
    let (attempt, plugin) := w.plugin.next
    match clock.pass (attempt.delay.map Timer.lasting) within () with
    | (.finished took (), clock) =>
      let (result, plugin, kernel) := plugin.complete attempt list rt kernel
      (.finished took result, { w with clock, plugin, kernel })
    | (.cancelled, clock) => (.cancelled, { w with clock, plugin, kernel })
    | (.expired, clock) => (.expired, { w with clock, plugin, kernel })

/-- Answers a request. -/
def answer : (q : Effect) → World → q.Answer × World
  | .linkByName name, w => w.call (.linkByName name) fun k ↦ (k.linkByName name, k)
  | .addresses link family, w =>
    w.call (.addresses link family) fun k ↦ (k.addressesOf link.index, k)
  | .routes, w => w.call .routes fun k ↦ (k.table, k)
  | .replaceRoute r, w =>
    w.call (.replaceRoute r) fun k ↦ ((), { k with table := k.table.replace r })
  | .deleteRoute r, w =>
    w.call (.deleteRoute r) fun k ↦ ((), { k with table := k.table.delete r })
  | .trafficControl link commands, w => w.call (.trafficControl link commands) fun k ↦ ((), k)
  | .closeKernel, w =>
    let kernel := w.kernel.record .closeKernel false
    ((), { w with kernel := { kernel with closes := kernel.closes + 1 } })
  | .attach list rt earlier within, w => w.attach list rt earlier within
  | .detach list rt, w =>
    let (result, kernel) := w.plugin.detach rt (w.kernel.record (.detach list rt) false)
    (result, { w with kernel })
  | .isCancelled, w => (w.clock.isCancelled, w)
  | .pause length within, w =>
    let (ending, clock) := w.clock.await within (some (Timer.lasting length)) within ()
    (ending, { w with clock })
  | .log entry, w => ((), { w with log := entry :: w.log })

end World

end ContainerNet.Simulation
