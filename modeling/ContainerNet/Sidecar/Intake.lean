import ContainerNet.Event
import ContainerNet.Sidecar.Lane
import ContainerNet.Text.Blank

/-!
# Intake

How the input of the sidecar becomes calls. The input is read line by line; each line that holds an
event is a call, a blank line is nothing, and any other line is skipped with a note. The input ends
at a line that is not text.
-/

namespace ContainerNet.Sidecar

/-- What a line of the input means. -/
inductive Intake
  | call (container : ContainerId) (c : Call)
  | skip (fault : Json.Fault)

namespace Intake

/-- The call that an event stands for. -/
def ofEvent (p : Places) : Event → Intake
  | .configure id netns config => .call id (.configure (netns.resolve p) config)
  | .release id => .call id .release

/-- What a line means, if it means anything. -/
def ofLine? (p : Places) (line : List Char) : Option Intake :=
  if (Text.trim line).isEmpty then none
  else some <| match Event.ofLine (String.ofList line) with
    | .ok e => ofEvent p e
    | .error fault => .skip fault

/-- The note about a line that is skipped. -/
def skipNote (fault : Json.Fault) : Log.Entry :=
  Log.warn "Skipping malformed event" [("error", .error (.serialization fault))]

/-! ## Lines -/

/-- A line that ended with a line feed, last byte first, without the carriage return before that. -/
def withoutReturn : List UInt8 → List UInt8
  | 13 :: line => line
  | line => line

/-- The lines of the input, where `front` has been read of the first one, last byte first. -/
def linesFrom (front : List UInt8) : List UInt8 → List (List UInt8)
  | [] => if front.isEmpty then [] else [front.reverse]
  | b :: rest =>
    if b = 10 then (withoutReturn front).reverse :: linesFrom [] rest
    else linesFrom (b :: front) rest

/-- The lines of the input. -/
def lines (bytes : List UInt8) : List (List UInt8) := linesFrom [] bytes

/-- What the lines mean, up to the first one that is not text. -/
def ofLines (p : Places) : List (List UInt8) → List Intake × Except IoFault Unit
  | [] => ([], .ok ())
  | line :: rest =>
    match Text.decode? line with
    | none => ([], .error .notText)
    | some line =>
      let (more, result) := ofLines p rest
      ((ofLine? p line).toList ++ more, result)

/-- What the input means, and how reading it ends. -/
def read (p : Places) (bytes : List UInt8) : List Intake × Except IoFault Unit :=
  ofLines p (lines bytes)

end Intake

end ContainerNet.Sidecar
