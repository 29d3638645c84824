import ContainerNet.Effect

/-!
# Changes of a route table

A table is brought into a new state by single changes in order. Which changes are needed is worked
out from the table as it was read; carrying them out stops at the first that fails, so a prefix of
them may have been made.
-/

namespace ContainerNet

inductive RouteChange
  /-- Puts a route in, in place of those with its destination and metric. -/
  | put (r : Route)
  | remove (r : Route)
deriving DecidableEq, Repr

namespace RouteTable

/-- The table after a change. -/
def change (t : RouteTable) : RouteChange → RouteTable
  | .put r => t.replace r
  | .remove r => t.delete r

/-- The table after some changes. -/
def changeAll (t : RouteTable) (changes : List RouteChange) : RouteTable := changes.foldl change t

end RouteTable

namespace RouteChange

/-- The request that makes a change. -/
def perform : RouteChange → Action (Outcome Unit)
  | .put r => Program.request (A := Effect.Answer) (.replaceRoute r)
  | .remove r => Program.request (A := Effect.Answer) (.deleteRoute r)

/-- Makes changes in order, up to the first that fails. -/
def performAll : List RouteChange → Action (Outcome Unit)
  | [] => .done (.ok ())
  | c :: rest => Action.andThen c.perform fun () ↦ performAll rest

end RouteChange

end ContainerNet
