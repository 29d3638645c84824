import ContainerNet.Retry

/-!
# Retrying in time

The retry loop on a clock that is stopped at will, against a script of what its attempts do. What
the loop does in time is stated about this.

An attempt that takes time sleeps, and so does the loop between two attempts, both on the timer of
the runtime. When the token fires and when the deadline is do not depend on the timer.
-/

namespace ContainerNet

namespace Retry.Timeline

/-- What one attempt does: it may sleep for some time, and then it fails or succeeds. -/
structure Step (ε α : Type) where
  takes : Option Duration
  result : Except ε α

/-- A run of the loop so far. -/
structure State (ε α : Type) where
  clock : Clock
  /-- The attempts that have been started. -/
  calls : Nat
  /-- The notes, last first: the number of the attempt, how many there may be, and the error. -/
  notes : List (Nat × Nat × ε)

variable [Timer] {ε α : Type}

/-- How long an attempt waits, if it does. -/
def Step.waits (step : Step ε α) : Option Duration := step.takes.map Timer.lasting

/-- Answers the requests of the loop, where `script i` is what attempt number `i` does. -/
def answer (script : Nat → Step ε α) :
    (q : Request ε) → State ε α → Answer ε α q × State ε α
  | .isCancelled, s => (s.clock.isCancelled, s)
  | .attempt earlier within, s =>
    let step := script s.calls
    let (ending, clock) :=
      s.clock.await (limitBefore earlier within) step.waits within step.result
    (ending, { s with clock, calls := s.calls + 1 })
  | .pause length within, s =>
    let (ending, clock) := s.clock.await within (some (Timer.lasting length)) within ()
    (ending, { s with clock })
  | .note i n e, s => ((), { s with notes := (i, n, e) :: s.notes })

/-- The start of a run. -/
def start (cancelAt : Option Duration) : State ε α := ⟨.start cancelAt, 0, []⟩

/-- The result of the loop under a policy, and the state it ends in. -/
def run (p : RetryPolicy) (script : Nat → Step ε α) (cancelAt : Option Duration) :
    Except (Failure ε) α × State ε α :=
  (Retry.run p).run (answer script) (start cancelAt)

/-- The result of the loop without a deadline, and the state it ends in. -/
def runBare (n : Nat) (backoff : Duration) (script : Nat → Step ε α)
    (cancelAt : Option Duration) : Except (Failure ε) α × State ε α :=
  (loop n backoff none).run (answer script) (start cancelAt)

end Retry.Timeline

end ContainerNet
