import ContainerNet.Effect

/-!
# Attaching and detaching

A container is attached to the data network by its plugins, under a retry policy. It is detached in
one attempt, since a second attempt against a namespace that is half taken down is not safe.
-/

namespace ContainerNet.Plugin

/-- The error of an attachment that did not succeed. -/
def attachError : Retry.Failure Error → Error
  | .exhausted attempts last => .attachFailed attempts last
  | .cancelled _ => .attachCancelled
  | .deadline d => .attachTimeout d

/-- What the retry loop asks for when it attaches. -/
def attachRequest (l : ConfigList) (rt : Runtime) :
    (q : Retry.Request Error) → Action (Retry.Answer Error Result q)
  | .isCancelled => Program.request (A := Effect.Answer) .isCancelled
  | .attempt earlier within =>
    Program.request (A := Effect.Answer) (.attach l rt earlier within)
  | .pause length within => Program.request (A := Effect.Answer) (.pause length within)
  | .note attempt attempts error =>
    Program.request (A := Effect.Answer) (.log (Retry.warning attempt attempts error.message))

namespace ConfigList

/-- Attaches a container under a retry policy. -/
def attach (l : ConfigList) (rt : Runtime) (p : RetryPolicy) : Action (Outcome Result) :=
  ((Retry.run p).expand (attachRequest l rt)).bind fun result ↦
    .done (result.mapError attachError)

/-- Detaches a container, in one attempt. -/
def detach (l : ConfigList) (rt : Runtime) : Action (Outcome Unit) :=
  .ask (.detach l rt) fun (outcome : Outcome Unit) ↦ .done (outcome.mapError .detachFailed)

end ConfigList

end ContainerNet.Plugin
