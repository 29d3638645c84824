import ContainerNet.Address.Subnet
import ContainerNet.Shape

/-!
# Routing policies

Whether traffic that leaves the protected part of a network is allowed or denied, and the
destinations for which the opposite holds. In JSON a policy without exceptions may be written as
one word.
-/

namespace ContainerNet

/-- What happens to traffic outside the protected part. -/
inductive PolicyAction
  | allow
  | deny
deriving DecidableEq, Repr

namespace PolicyAction

instance : Inhabited PolicyAction := ⟨.deny⟩

/-- The opposite action. -/
def inverse : PolicyAction → PolicyAction
  | .allow => .deny
  | .deny => .allow

@[simp] theorem inverse_inverse (a : PolicyAction) : a.inverse.inverse = a := by cases a <;> rfl

def name : PolicyAction → String
  | .allow => "allow"
  | .deny => "deny"

def words : List (String × PolicyAction) := [("allow", .allow), ("deny", .deny)]

def toJson (a : PolicyAction) : Json := .text a.name

def read (source : Json.Tree.Source) (t : Json.Tree) : Json.Decoded PolicyAction :=
  t.asWord words source

end PolicyAction

/-- A policy: the action for destinations outside the protected part, and the destinations that
take the opposite one. -/
structure RoutingPolicy where
  action : PolicyAction := .deny
  exceptions : List Subnet := []
deriving DecidableEq, Repr, Inhabited

namespace RoutingPolicy

def allowAll : RoutingPolicy := ⟨.allow, []⟩
def denyAll : RoutingPolicy := ⟨.deny, []⟩

def toJson (p : RoutingPolicy) : Json :=
  .object [("default", p.action.toJson), ("exceptions", .array (p.exceptions.map Subnet.toJson))]

/-- The fields of a policy. -/
def record : Json.Record RoutingPolicy where
  initial := {}
  fields := [
    { name := "default", set := fun t p ↦ do
        return { p with action := ← PolicyAction.read .whole t } },
    { name := "exceptions", set := fun t p ↦ do
        return { p with exceptions := ← t.asList Subnet.read } }]

/-- The policy that a word stands for. -/
def ofWord (word : String) : Json.Decoded RoutingPolicy :=
  if word = "allow_all" then .ok allowAll
  else if word = "deny_all" then .ok denyAll
  else .error (.refusal
    ("unknown routing policy '" ++ word ++ "', expected 'allow_all' or 'deny_all'"))

/-- A policy is read as a whole value, so no fault inside of it is told apart. -/
def read (t : Json.Tree) : Json.Decoded RoutingPolicy := do
  match ← t.value with
  | .text word => ofWord word
  | v => (record.read (.ofJson v)).mapError fun _ ↦ .mismatch "a routing policy"

end RoutingPolicy

end ContainerNet
