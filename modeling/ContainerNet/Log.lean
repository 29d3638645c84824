import ContainerNet.Error

/-!
# Log entries

An entry of the log: how serious it is, a fixed message, and named details.
-/

namespace ContainerNet.Log

inductive Level
  | info
  | warn
deriving DecidableEq, Repr

/-- A detail of an entry. -/
inductive Detail
  | text (s : String)
  | error (e : Error)
deriving DecidableEq, Repr

instance : Coe String Detail := ⟨.text⟩

/-- What is shown of a detail. -/
def Detail.shown : Detail → String
  | .text s => s
  | .error e => e.message

/-- An entry of the log. -/
structure Entry where
  level : Level
  message : String
  fields : List (String × Detail) := []
deriving DecidableEq, Repr

def info (message : String) (fields : List (String × Detail) := []) : Entry :=
  ⟨.info, message, fields⟩

def warn (message : String) (fields : List (String × Detail) := []) : Entry :=
  ⟨.warn, message, fields⟩

end ContainerNet.Log
