import ContainerNet.Duration

/-!
# A clock that is stopped at will

Time passes only when something is waited for, straight to the end of the wait. A wait may have a
limit, and the whole run may be cancelled at some instant; `Clock.pass` says which of the three
comes first.

Others run beside whatever is timed, among them whoever fires the token. So that they get their
chance although time stands still, a run may end only so many waits in one go, those that take no
time included; then it gives way (`Clock.giveWay`). A run that sleeps gives way by that.

The clock does not make a program wait; it only says what comes of waiting. What a program sleeps on
is the timer of the runtime, which is not part of the program. All that is known of it here is how
long a sleep lasts (`Timer`), and it is a parameter of whatever sleeps. A timer is expected to let
each sleep last for its length (`Timer.IsExact`).
-/

namespace ContainerNet

/-- The timer of the runtime: how long a sleep of some length lasts. -/
class Timer where
  lasting : Duration → Duration

namespace Timer

/-- Whether every sleep lasts for its length. -/
def IsExact [Timer] : Prop := ∀ length : Duration, lasting length = length

/-- The timer on which every sleep lasts for its length. -/
@[reducible] def exact : Timer := ⟨id⟩

end Timer

/-- How something that takes time ends: by itself, or because the token fired or the deadline came
before. -/
inductive Ending (α : Type)
  | finished (took : Duration) (a : α)
  | cancelled
  | expired
deriving Repr

namespace Clock

/-- How many waits a run may end in one go. -/
def fullAllowance : Nat := 128

end Clock

/-- A moment of a run: how much time has passed, and when the token fires, if it does. A token
that fires at time zero has fired before the run starts. -/
structure Clock where
  now : Duration := .zero
  cancelAt : Option Duration := none
  /-- How many waits the run may still end before it gives way. -/
  allowance : Nat := Clock.fullAllowance
deriving DecidableEq, Repr

namespace Clock

/-- The start of a run. -/
def start (cancelAt : Option Duration) : Clock := { cancelAt }

/-- Whether the token has fired. What ends at the instant at which it fires is handled before. -/
def isCancelled (c : Clock) : Bool :=
  c.cancelAt.any fun d ↦ d.isZero || d.nanos < c.now.nanos

/-- The clock when a wait ends at an instant. That counts against the allowance, which a sleep
renews. -/
def endAt (c : Clock) (instant : Nat) : Clock where
  now := ⟨instant⟩
  cancelAt := c.cancelAt
  allowance := (if c.now.nanos < instant then fullAllowance else c.allowance) - 1

/-- Lets something that waits for `length` happen; what is given no length does not wait at all. At
one instant its end counts before the limit and the limit before the token, so a wait for no time
ends at once. -/
def pass {α : Type} (c : Clock) (length within : Option Duration) (a : α) : Ending α × Clock :=
  match length with
  | none => (.finished .zero a, c)
  | some length =>
    let finish := c.now.nanos + length.nanos
    let limit? := within.map fun d ↦ c.now.nanos + d.nanos
    let token? := c.cancelAt.map fun d ↦ max c.now.nanos d.nanos
    let cut := limit?.any (· < finish)
    let last := if cut then limit?.getD finish else finish
    if token?.any (· < last) then
      (.cancelled, { c with now := ⟨token?.getD finish⟩, allowance := fullAllowance })
    else if cut then (.expired, c.endAt last)
    else (.finished length a, c.endAt last)

/-- Gives way if the run may end no more waits. It is over by that if its limit is reached or if the
token fires meanwhile; otherwise there is no ending, and it goes on with a new allowance. -/
def giveWay {α : Type} (c : Clock) (within : Option Duration) : Option (Ending α) × Clock :=
  if c.allowance ≠ 0 then (none, c)
  else if within.any (·.isZero) then (some .expired, c)
  else
    let c := { c with allowance := fullAllowance }
    (if c.cancelAt.any (·.nanos ≤ c.now.nanos) then some .cancelled else none, c)

/-- Gives way if need be, with the limit `before`, and then lets something happen. -/
def await {α : Type} (c : Clock) (before length within : Option Duration) (a : α) :
    Ending α × Clock :=
  match c.giveWay before with
  | (some ending, c) => (ending, c)
  | (none, c) => c.pass length within a

end Clock

end ContainerNet
