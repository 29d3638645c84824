import ContainerNet.Clock
import ContainerNet.Log
import ContainerNet.Program

/-!
# Retrying

An operation that may fail is attempted a few times, with a fixed pause between attempts, and the
whole may be bounded by a deadline and cut short by a token. `Retry.loop` is the loop as a program
that asks for attempts and pauses. Before each of them the run may have to give way to others.

The loop looks at no clock. It adds up what it is told that its attempts and pauses took, and gives
each of them what is left of the deadline. It looks at the token before each attempt; while it waits
it leaves the token to whoever answers.
-/

namespace ContainerNet

/-- How often an operation is attempted, how long the pauses are, and when it must be over. -/
structure RetryPolicy where
  attempts : Nat := 3
  backoff : Duration := .ofSeconds 2
  deadline : Duration := .ofSeconds 30
deriving DecidableEq, Repr, Inhabited

namespace Retry

/-- Why a retried operation did not succeed. -/
inductive Failure (ε : Type)
  /-- Every attempt failed; the last one in this way. -/
  | exhausted (attempts : Nat) (last : ε)
  /-- The token fired when so many attempts had been started. -/
  | cancelled (attempts : Nat)
  | deadline (deadline : Duration)
deriving DecidableEq, Repr

/-- The error in words, given those of an attempt's error. -/
def Failure.message {ε : Type} (text : ε → String) : Failure ε → String
  | .exhausted attempts last =>
    "after " ++ Text.natText attempts ++ " attempts, last error: " ++ text last
  | .cancelled attempts => "cancelled after " ++ Text.natText attempts ++ " attempts"
  | .deadline d => "deadline of " ++ d.text ++ " elapsed"

/-- The log entry for a failed attempt. -/
def warning (attempt attempts : Nat) (error : String) : Log.Entry :=
  Log.warn "got error, waiting to retry"
    [("attempt", Text.natText attempt), ("attempts", Text.natText attempts), ("error", error)]

/-- What the loop asks for. Attempts and pauses may be given a time within which to end. -/
inductive Request (ε : Type)
  /-- Whether the token has fired. -/
  | isCancelled
  /-- The attempt that comes after `earlier` others. -/
  | attempt (earlier : Nat) (within : Option Duration)
  | pause (length : Duration) (within : Option Duration)
  /-- Notes that an attempt failed. -/
  | note (attempt attempts : Nat) (error : ε)

/-- What answers a request; an attempt that succeeds gives an `α`. -/
def Answer (ε α : Type) : Request ε → Type
  | .isCancelled => Bool
  | .attempt _ _ => Ending (Except ε α)
  | .pause _ _ => Ending Unit
  | .note _ _ _ => Unit

/-- The limit that counts when a run gives way before an attempt. Before its first attempt a run has
not come to look at its limit yet. -/
def limitBefore (earlier : Nat) (within : Option Duration) : Option Duration :=
  if earlier = 0 then none else within

/-- The time that is left of a limit. -/
def left (limit : Option Duration) (spent : Duration) : Option Duration :=
  limit.map fun d ↦ ⟨d.nanos - spent.nanos⟩

variable {ε α : Type}

/-- One attempt after `made` others. If it fails, that is noted, and `failed` says how to go on. -/
def attempt (total : Nat) (limit : Option Duration) (made : Nat) (spent : Duration)
    (failed : Duration → ε → Program (Request ε) (Answer ε α) (Except (Failure ε) α)) :
    Program (Request ε) (Answer ε α) (Except (Failure ε) α) :=
  .ask .isCancelled fun (cancelled : Bool) ↦
  if cancelled then .done (.error (.cancelled made))
  else .ask (.attempt made (left limit spent)) fun (ending : Ending (Except ε α)) ↦
  match ending with
  | .cancelled => .done (.error (.cancelled (made + 1)))
  | .expired => .done (.error (.deadline (limit.getD .zero)))
  | .finished _ (.ok a) => .done (.ok a)
  | .finished took (.error e) => .ask (.note (made + 1) total e) fun _ ↦ failed took e

/-- The loop before an attempt, when `made` attempts have been started and `more` may follow the
next one. -/
def attempts (total : Nat) (backoff : Duration) (limit : Option Duration) :
    (more made : Nat) → (spent : Duration) →
      Program (Request ε) (Answer ε α) (Except (Failure ε) α)
  | 0, made, spent =>
    attempt total limit made spent fun _ e ↦ .done (.error (.exhausted total e))
  | more + 1, made, spent =>
    attempt total limit made spent fun took _ ↦
    .ask (.pause backoff (left limit ⟨spent.nanos + took.nanos⟩)) fun (ending : Ending Unit) ↦
    match ending with
    | .cancelled => .done (.error (.cancelled (made + 1)))
    | .expired => .done (.error (.deadline (limit.getD .zero)))
    | .finished paused () =>
      attempts total backoff limit more (made + 1) ⟨spent.nanos + took.nanos + paused.nanos⟩

/-- Attempts an operation up to `n` times, and once if `n` is zero. -/
def loop (n : Nat) (backoff : Duration) (limit : Option Duration) :
    Program (Request ε) (Answer ε α) (Except (Failure ε) α) :=
  attempts (max n 1) backoff limit (max n 1 - 1) 0 .zero

/-- Attempts an operation under a policy. -/
def run (p : RetryPolicy) : Program (Request ε) (Answer ε α) (Except (Failure ε) α) :=
  loop p.attempts p.backoff (some p.deadline)

end Retry

end ContainerNet
