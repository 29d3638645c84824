import ContainerNet.Address.Subnet
import ContainerNet.Bandwidth

/-!
# Link shapes

What an emulated link does to the traffic: delay, rate, a filter, and four percentages with three
correlations. A rule applies a shape to one destination subnet.

In JSON a shape is an object in which every field may be left out, or an array of the fields in
order; a rule is the object of its shape with one more key.
-/

namespace ContainerNet

open Binary (Single)

/-- What happens to matching packets. -/
inductive FilterAction
  | accept
  | reject
  | drop
deriving DecidableEq, Repr, Inhabited

namespace FilterAction

def name : FilterAction → String
  | .accept => "accept"
  | .reject => "reject"
  | .drop => "drop"

def words : List (String × FilterAction) :=
  [("accept", .accept), ("reject", .reject), ("drop", .drop)]

def toJson (a : FilterAction) : Json := .text a.name

def read (source : Json.Tree.Source) (t : Json.Tree) : Json.Decoded FilterAction :=
  t.asWord words source

end FilterAction

/-- Characteristics of an emulated link. -/
structure Shape where
  latency : Duration := .zero
  jitter : Duration := .zero
  bandwidth : Bandwidth := .unlimited
  filter : FilterAction := .accept
  loss : Single := .zero
  corrupt : Single := .zero
  corruptCorrelation : Single := .zero
  reorder : Single := .zero
  reorderCorrelation : Single := .zero
  duplicate : Single := .zero
  duplicateCorrelation : Single := .zero
deriving DecidableEq, Repr

/-- A shape for the traffic to one subnet. -/
structure Rule where
  subnet : Subnet
  shape : Shape
deriving DecidableEq, Repr

namespace Shape

instance : Inhabited Shape := ⟨{}⟩

/-- The percentages of a shape, by name. -/
def percentages (s : Shape) : List (String × Single) :=
  [("loss", s.loss), ("corrupt", s.corrupt), ("corrupt_corr", s.corruptCorrelation),
    ("reorder", s.reorder), ("reorder_corr", s.reorderCorrelation),
    ("duplicate", s.duplicate), ("duplicate_corr", s.duplicateCorrelation)]

/-- Between zero and a hundred. -/
def isPercentage (x : Single) : Bool := x.isWithin 100

/-- Every percentage must be one; the first that is not is named. -/
def validate (s : Shape) : Outcome Unit :=
  match s.percentages.find? fun p ↦ !isPercentage p.2 with
  | some (field, value) => .error (.invalidShape field value)
  | none => .ok ()

/-- Equality of what two shapes mean: percentages are compared as numbers. -/
def same (s t : Shape) : Bool :=
  s.latency == t.latency && s.jitter == t.jitter && s.bandwidth == t.bandwidth &&
    s.filter == t.filter &&
    (s.percentages.zip t.percentages).all fun (p, q) ↦ p.2.same q.2

/-- Whether the shape leaves the traffic as it is. -/
def isPassthrough (s : Shape) : Bool := s.same {}

/-! ## JSON -/

/-- In JSON a delay is a whole number of milliseconds that fits eight bytes. -/
def delayJson (d : Duration) : Json := .nat (min d.millis (UInt64.size - 1))

def percentJson (x : Single) : Json := .number (.single x)

def members (s : Shape) : List (String × Json) :=
  [("latency", delayJson s.latency), ("jitter", delayJson s.jitter),
    ("bandwidth", s.bandwidth.toJson), ("filter", s.filter.toJson)] ++
    s.percentages.map fun (name, x) ↦ (name, percentJson x)

def toJson (s : Shape) : Json := .object s.members

def readDelay (t : Json.Tree) : Json.Decoded Duration :=
  Duration.ofMillis <$> t.asNat UInt64.size

/-- The fields of a shape, none of them required. -/
def record (source : Json.Tree.Source) : Json.Record Shape where
  initial := {}
  fields := [
    { name := "latency", set := fun t s ↦ do return { s with latency := ← readDelay t } },
    { name := "jitter", set := fun t s ↦ do return { s with jitter := ← readDelay t } },
    { name := "bandwidth", set := fun t s ↦ do return { s with bandwidth := ← Bandwidth.read t } },
    { name := "filter", set := fun t s ↦ do
        return { s with filter := ← FilterAction.read source t } },
    { name := "loss", set := fun t s ↦ do return { s with loss := ← t.asSingle } },
    { name := "corrupt", set := fun t s ↦ do return { s with corrupt := ← t.asSingle } },
    { name := "corrupt_corr", set := fun t s ↦ do
        return { s with corruptCorrelation := ← t.asSingle } },
    { name := "reorder", set := fun t s ↦ do return { s with reorder := ← t.asSingle } },
    { name := "reorder_corr", set := fun t s ↦ do
        return { s with reorderCorrelation := ← t.asSingle } },
    { name := "duplicate", set := fun t s ↦ do return { s with duplicate := ← t.asSingle } },
    { name := "duplicate_corr", set := fun t s ↦ do
        return { s with duplicateCorrelation := ← t.asSingle } }]

def read (source : Json.Tree.Source) (t : Json.Tree) : Json.Decoded Shape :=
  (record source).read t

end Shape

namespace Subnet

def toJson (net : Subnet) : Json := .text net.text

def read (t : Json.Tree) : Json.Decoded Subnet :=
  t.asParsed fun s ↦ match parse? s with
    | some net => .ok net
    | none => .error "this is not an IPv4 subnet"

end Subnet

namespace Subnet6

def toJson (net : Subnet6) : Json := .text net.text

def read (t : Json.Tree) : Json.Decoded Subnet6 :=
  t.asParsed fun s ↦ match parse? s with
    | some net => .ok net
    | none => .error "this is not an IPv6 subnet"

end Subnet6

namespace Rule

/-- Equality of what two rules mean. -/
def same (r s : Rule) : Bool := r.subnet == s.subnet && r.shape.same s.shape

def toJson (r : Rule) : Json := .object (("subnet", r.subnet.toJson) :: r.shape.members)

/-- The subnet of a rule, until it is known. -/
def subnetRecord : Json.Record (Option Subnet) where
  initial := none
  fields := [
    { name := "subnet", required := true, set := fun t _ ↦ some <$> Subnet.read t }]

/-- The subnet is read first, then the keys of the shape in their order. -/
def read (t : Json.Tree) : Json.Decoded Rule := do
  let (subnet, rest) ← subnetRecord.readOpen t
  match subnet with
  | some subnet => return ⟨subnet, ← (Shape.record .parts).ofMembers rest⟩
  | none => throw (.missingField "subnet")

end Rule

end ContainerNet
