import ContainerNet.TrafficControl.Command

/-!
# The traffic-control plan

The tree of a device is derived as a whole from the default shape and the rules: under the root
one class for the default shape and one for each rule, each with its rate and, below it, one
emulator; and one filter for each rule that steers its subnet into its class. Filters are tried in
the order of the rules, so the first match wins.

    root 1: (default 1:1)
      class 1:1   rate of the default shape   emulator 101:
      class 1:10  rate of rule 0              emulator 110:   filter 1, subnet of rule 0
      class 1:11  rate of rule 1              emulator 111:   filter 2, subnet of rule 1
-/

namespace ContainerNet.TrafficControl

/-- The rate of a class without a limit: 10 Gbit/s. -/
def unlimitedRate : Bandwidth := .gbit 10

/-- The number of the class of the default shape. -/
def defaultClass : Nat := 0x1

/-- The number of the class of the first rule. -/
def firstRuleClass : Nat := 0x10

/-- How far the number of an emulator lies above that of its class. -/
def emulatorOffset : Nat := 0x100

/-- Handles have two bytes for each number; so many rules fit. -/
def maxRules : Nat := 0xFFFF - emulatorOffset - firstRuleClass

/-- The discipline at the top. -/
def root : Handle := ⟨1, 0⟩

/-- The rate of the class of a shape. -/
def classRate (s : Shape) : Bandwidth :=
  if s.bandwidth.isUnlimited then unlimitedRate else s.bandwidth

/-- The class of a shape and the emulator below it. -/
def classCommands (number : Nat) (s : Shape) : List Command :=
  [.rateClass root ⟨root.major, number⟩ (classRate s),
    .qdisc (.under ⟨root.major, number⟩) ⟨emulatorOffset + number, 0⟩ (.netem (.ofShape s))]

/-- The commands of the rule at place `i`. -/
def ruleCommands (i : Nat) (r : Rule) : List Command :=
  classCommands (firstRuleClass + i) r.shape ++
    [.filter root (i + 1) r.subnet.truncate ⟨root.major, firstRuleClass + i⟩]

/-- The commands that build the tree, given that there are not too many rules. -/
def tree (default : Shape) (rules : List Rule) : List Command :=
  .qdisc .root root (.htb defaultClass) :: classCommands defaultClass default ++
    (rules.mapIdx ruleCommands).flatten

/-- The commands that build the tree of a default shape and some rules. -/
def plan (default : Shape) (rules : List Rule) : Outcome (List Command) :=
  if maxRules < rules.length then
    .error (.backend ("too many link rules: " ++ Text.natText rules.length ++ " (max " ++
      Text.natText maxRules ++ ")"))
  else .ok (tree default rules)

end ContainerNet.TrafficControl
