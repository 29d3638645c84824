import ContainerNet.Shape

/-!
# Traffic-control commands

The kernel shapes traffic with a tree of queueing disciplines and classes, each named by a handle,
and with filters that steer packets into classes. A `Command` adds one node of that tree; `args`
is the command line that does it. Handles are written in base sixteen.
-/

namespace ContainerNet.TrafficControl

open Binary (Single)

/-- The name of a discipline (with minor number zero) or of a class. -/
structure Handle where
  major : Nat
  minor : Nat := 0
deriving DecidableEq, Repr

namespace Handle

def chars (h : Handle) : List Char :=
  Text.hexChars h.major ++ ':' :: (if h.minor = 0 then [] else Text.hexChars h.minor)

def text (h : Handle) : String := String.ofList h.chars

end Handle

/-- A percentage and how strongly each random decision depends on the one before. -/
structure Impairment where
  percentage : Single := .zero
  correlation : Single := .zero
deriving DecidableEq, Repr

/-- The parameters of a network emulator. -/
structure Netem where
  delay : Duration := .zero
  jitter : Duration := .zero
  loss : Single := .zero
  corrupt : Impairment := {}
  reorder : Impairment := {}
  duplicate : Impairment := {}
deriving DecidableEq, Repr

namespace Netem

/-- The emulator of a link shape. -/
def ofShape (s : Shape) : Netem where
  delay := s.latency
  jitter := s.jitter
  loss := s.loss
  corrupt := ⟨s.corrupt, s.corruptCorrelation⟩
  reorder := ⟨s.reorder, s.reorderCorrelation⟩
  duplicate := ⟨s.duplicate, s.duplicateCorrelation⟩

def microsText (d : Duration) : String := Text.natText d.micros ++ "us"

def percentText (x : Single) : String := Error.percentText x ++ "%"

/-- The delay is written if it or its variation is not zero, the variation only if it is not. -/
def delayArgs (delay jitter : Duration) : List String :=
  if delay.isZero && jitter.isZero then []
  else ["delay", microsText delay] ++ if jitter.isZero then [] else [microsText jitter]

def lossArgs (x : Single) : List String := if x.isPositive then ["loss", percentText x] else []

/-- Nothing is written for a percentage of zero, and no correlation of zero. -/
def impairmentArgs (name : String) (i : Impairment) : List String :=
  if i.percentage.isPositive then
    [name, percentText i.percentage] ++
      if i.correlation.isPositive then [percentText i.correlation] else []
  else []

def args (n : Netem) : List String :=
  "netem" :: delayArgs n.delay n.jitter ++ lossArgs n.loss ++
    impairmentArgs "corrupt" n.corrupt ++ impairmentArgs "duplicate" n.duplicate ++
    impairmentArgs "reorder" n.reorder

end Netem

/-- Where a discipline is attached. -/
inductive Parent
  | root
  | under (c : Handle)
deriving DecidableEq, Repr

inductive Discipline
  /-- A hierarchy of token buckets; what no filter steers goes to the class with this number. -/
  | htb (defaultClass : Nat)
  | netem (n : Netem)
deriving DecidableEq, Repr

inductive Command
  /-- Removes the tree of the device. -/
  | resetRoot
  /-- Adds a discipline. -/
  | qdisc (parent : Parent) (handle : Handle) (kind : Discipline)
  /-- Adds a class with a rate. -/
  | rateClass (parent classid : Handle) (rate : Bandwidth)
  /-- Steers packets to a destination into a class; the lowest priority is tried first. -/
  | filter (parent : Handle) (priority : Nat) (destination : Subnet) (flowid : Handle)
deriving DecidableEq, Repr

namespace Parent

def args : Parent → List String
  | .root => ["root"]
  | .under c => ["parent", c.text]

end Parent

namespace Discipline

def args : Discipline → List String
  | .htb defaultClass => ["htb", "default", String.ofList (Text.hexChars defaultClass)]
  | .netem n => n.args

end Discipline

namespace Command

/-- The arguments of the command line on a device. -/
def args (dev : String) : Command → List String
  | .resetRoot => ["qdisc", "del", "dev", dev, "root"]
  | .qdisc parent handle kind =>
    ["qdisc", "add", "dev", dev] ++ parent.args ++ ["handle", handle.text] ++ kind.args
  | .rateClass parent classid rate =>
    ["class", "add", "dev", dev, "parent", parent.text, "classid", classid.text, "htb", "rate",
      rate.text]
  | .filter parent priority destination flowid =>
    ["filter", "add", "dev", dev, "parent", parent.text, "protocol", "ip", "prio",
      Text.natText priority, "u32", "match", "ip", "dst", destination.text, "flowid", flowid.text]

/-- The command line on a device. -/
def line (dev : String) (c : Command) : String := " ".intercalate (c.args dev)

end Command

end ContainerNet.TrafficControl
