import Mathlib.Data.List.Nodup
import ContainerNet.Proofs.Address.Text6
import ContainerNet.Proofs.Bandwidth.RoundTrip
import ContainerNet.Proofs.TrafficControl.Shaping

/-!
# Numbers as names

The nodes of a tree are named by numbers that are made from the place of a rule, by sums of numbers
of two bytes. `plan_numbering` says that this works: no sum is too great, no two nodes get the same
name, every node is there before it is named, and none of it is lost in the texts of a command line.

## Sums

The model adds natural numbers. `checkedTree?` builds the same tree with every sum checked, the one
that counts the rules among them, and `checkedTree?_eq` says that all of them fit as long as there
are not too many rules.

## Texts

A handle is read back from its text in base sixteen, and so is a rate from its number and its unit.
The readers are written down here from what the texts are to mean; that two texts are different then
follows.
-/

namespace ContainerNet

/-! ## Rates -/

namespace Bandwidth

/-- How many bits per second a text denotes: a decimal number in front of a unit. -/
def denoted? (s : List Char) : Option Nat := do
  let n ← Text.readNat? (s.takeWhile Char.isDigit)
  let factor ← unitFactor? (s.dropWhile Char.isDigit)
  return n * factor

theorem denoted?_natChars_append {n factor : Nat} {unit : List Char}
    (hunit : unit.head?.all (!·.isDigit) = true) (hfactor : unitFactor? unit = some factor) :
    denoted? (Text.natChars n ++ unit) = some (n * factor) := by
  have hdigits : ∀ c ∈ Text.natChars n, c.isDigit = true :=
    List.all_eq_true.mp (Text.all_isDigit_natChars n)
  obtain ⟨hfront, hrest⟩ := Prod.mk.inj (Address.spanDigits_append hdigits hunit)
  rw [denoted?, hfront, hrest, Text.readNat?_natChars, hfactor]
  rfl

theorem denoted?_chars (b : Bandwidth) : denoted? b.chars = some b.bits.toNat := by
  obtain ⟨unit, factor, hlargest, hchars⟩ := b.exists_chars_eq
  have hletter : unit.head?.all (!·.isDigit) = true := by
    obtain ⟨u, hu, rfl, -⟩ := unitFactor?_eq_some_iff.mp hlargest.isUnit
    have hall : ∀ u ∈ scales, u.name.toList.head?.all (!·.isDigit) = true := by decide +kernel
    exact hall u hu
  rw [hchars, denoted?_natChars_append hletter hlargest.isUnit, Nat.div_mul_cancel hlargest.dvd]

end Bandwidth

namespace TrafficControl

/-! ## Handles -/

namespace Handle

/-- The handle that a text names: two numbers in base sixteen with a colon between them, of which
the second may be left out. -/
def ofChars (s : List Char) : Handle :=
  ⟨Address6.ofHexDigits (s.takeWhile (· ≠ ':')),
    Address6.ofHexDigits ((s.dropWhile (· ≠ ':')).drop 1)⟩

theorem ofChars_chars (h : Handle) : ofChars h.chars = h := by
  obtain ⟨major, minor⟩ := h
  have hcolon : ∀ c ∈ Text.hexChars major, decide (c ≠ ':') = true := by
    intro c hc
    rw [decide_eq_true_eq]
    rintro rfl
    exact absurd (Address6.all_isHexDigit_hexChars major ':' hc) (by decide)
  have hminor : Address6.ofHexDigits (if minor = 0 then [] else Text.hexChars minor) = minor := by
    split
    next hzero => rw [hzero]; rfl
    next => exact Address6.ofHexDigits_hexChars minor
  rw [chars, ofChars, List.takeWhile_append_of_pos hcolon, List.dropWhile_append_of_pos hcolon]
  simp [Address6.ofHexDigits_hexChars, hminor]

theorem text_injective : Function.Injective text := by
  intro h h' heq
  rw [← ofChars_chars h, String.ofList_injective heq, ofChars_chars]

end Handle

/-! ## Sums -/

/-- The sum of two numbers of two bytes, if it fits into two bytes. -/
def add? (m n : Nat) : Option Nat := if m + n ≤ 0xFFFF then some (m + n) else none

/-- The commands of a class, with a checked sum. -/
def checkedClass? (number : Nat) (s : Shape) : Option (List Command) := do
  let emulator ← add? emulatorOffset number
  return [.rateClass root ⟨root.major, number⟩ (classRate s),
    .qdisc (.under ⟨root.major, number⟩) ⟨emulator, 0⟩ (.netem (.ofShape s))]

/-- The commands of the rules, the first of which is at place `i`, with checked sums. The place is
counted up before it is known whether there is another rule. -/
def checkedRules? (i : Nat) : List Rule → Option (List Command)
  | [] => do
    let _ ← add? i 1
    return []
  | r :: rest => do
    let next ← add? i 1
    let number ← add? firstRuleClass i
    let commands ← checkedClass? number r.shape
    let priority ← add? i 1
    let more ← checkedRules? next rest
    return commands ++ .filter root priority r.subnet.truncate ⟨root.major, number⟩ :: more

/-- The tree of a default shape and some rules, with checked sums. -/
def checkedTree? (default : Shape) (rules : List Rule) : Option (List Command) := do
  let commands ← checkedClass? defaultClass default
  let more ← checkedRules? 0 rules
  return .qdisc .root root (.htb defaultClass) :: commands ++ more

variable {default : Shape} {rules : List Rule} {i n : Nat}

theorem add?_eq {m n : Nat} (h : m + n ≤ 0xFFFF) : add? m n = some (m + n) := if_pos h

theorem checkedClass?_eq (h : emulatorOffset + n ≤ 0xFFFF) (s : Shape) :
    checkedClass? n s = some (classCommands n s) := by
  rw [checkedClass?, add?_eq h]
  rfl

theorem checkedRules?_eq (h : i + rules.length ≤ maxRules) :
    checkedRules? i rules =
      some (rules.mapIdx fun j r ↦ ruleCommands (i + j) r).flatten := by
  -- the greatest sum is the one for the emulator of the last rule
  have hmax : maxRules + emulatorOffset + firstRuleClass = 0xFFFF := by decide
  have hoffset : emulatorOffset = 0x100 := rfl
  induction rules generalizing i with
  | nil =>
    rw [checkedRules?, add?_eq (by omega)]
    rfl
  | cons r rest ih =>
    rw [List.length_cons] at h
    have hplaces (j : Nat) (r : Rule) :
        ruleCommands (i + (j + 1)) r = ruleCommands (i + 1 + j) r := by
      rw [Nat.add_right_comm, Nat.add_assoc]
    simp only [checkedRules?, add?_eq (show i + 1 ≤ 0xFFFF by omega),
      add?_eq (show firstRuleClass + i ≤ 0xFFFF by omega), Option.bind_eq_bind, Option.bind_some,
      checkedClass?_eq (show emulatorOffset + (firstRuleClass + i) ≤ 0xFFFF by omega),
      ih (show i + 1 + rest.length ≤ maxRules by omega), List.mapIdx_cons, hplaces,
      List.flatten_cons]
    rw [ruleCommands, List.append_assoc]
    rfl

/-- With no more rules than are allowed, all sums fit. -/
theorem checkedTree?_eq (h : rules.length ≤ maxRules) :
    checkedTree? default rules = some (tree default rules) := by
  have hrules := checkedRules?_eq (show 0 + rules.length ≤ maxRules by rwa [Nat.zero_add])
  simp only [Nat.zero_add] at hrules
  rw [checkedTree?, checkedClass?_eq (by decide), hrules]
  rfl

/-! ## Nodes -/

/-- What a command adds to a tree: a queueing discipline or a class. -/
inductive Node
  | discipline (h : Handle)
  | rateClass (h : Handle)
deriving DecidableEq, Repr

namespace Command

/-- The node that a command adds. -/
def node? : Command → Option Node
  | .qdisc _ handle _ => some (.discipline handle)
  | .rateClass _ classid _ => some (.rateClass classid)
  | .resetRoot | .filter _ _ _ _ => none

/-- The nodes that have to be there before a command: what it is put under, and where a filter leads
to. Classes and filters of a plan are put under the discipline at the top. -/
def needs : Command → List Node
  | .qdisc (.under parent) _ _ => [.rateClass parent]
  | .rateClass parent _ _ => [.discipline parent]
  | .filter parent _ _ flowid => [.discipline parent, .rateClass flowid]
  | .resetRoot | .qdisc .root _ _ => []

/-- The handles in a command, each with the word in front of it on the command line. -/
def handles : Command → List (String × Handle)
  | .qdisc .root handle _ => [("handle", handle)]
  | .qdisc (.under parent) handle _ => [("parent", parent), ("handle", handle)]
  | .rateClass parent classid _ => [("parent", parent), ("classid", classid)]
  | .filter parent _ _ flowid => [("parent", parent), ("flowid", flowid)]
  | .resetRoot => []

/-- The rate in a command. -/
def rate? : Command → Option Bandwidth
  | .rateClass _ _ rate => some rate
  | _ => none

theorem handle_infix_args {c : Command} {m : String × Handle} (h : m ∈ c.handles) (dev : String) :
    [m.1, m.2.text] <:+: c.args dev := by
  cases c with
  | resetRoot => exact absurd h List.not_mem_nil
  | qdisc parent handle kind =>
    cases parent with
    | root =>
      obtain rfl := List.mem_singleton.mp h
      exact ⟨["qdisc", "add", "dev", dev, "root"], kind.args, rfl⟩
    | under parent =>
      simp only [handles, List.mem_cons, List.not_mem_nil, or_false] at h
      rcases h with rfl | rfl
      · exact ⟨["qdisc", "add", "dev", dev], ["handle", handle.text] ++ kind.args, rfl⟩
      · exact ⟨["qdisc", "add", "dev", dev, "parent", parent.text], kind.args, rfl⟩
  | rateClass parent classid rate =>
    simp only [handles, List.mem_cons, List.not_mem_nil, or_false] at h
    rcases h with rfl | rfl
    · exact ⟨["class", "add", "dev", dev],
        ["classid", classid.text, "htb", "rate", rate.text], rfl⟩
    · exact ⟨["class", "add", "dev", dev, "parent", parent.text], ["htb", "rate", rate.text], rfl⟩
  | filter parent priority destination flowid =>
    simp only [handles, List.mem_cons, List.not_mem_nil, or_false] at h
    rcases h with rfl | rfl
    · exact ⟨["filter", "add", "dev", dev], ["protocol", "ip", "prio", Text.natText priority, "u32",
        "match", "ip", "dst", destination.text, "flowid", flowid.text], rfl⟩
    · exact ⟨["filter", "add", "dev", dev, "parent", parent.text, "protocol", "ip", "prio",
        Text.natText priority, "u32", "match", "ip", "dst", destination.text], [], rfl⟩

end Command

/-- The nodes that commands add. -/
def nodes (commands : List Command) : List Node := commands.filterMap Command.node?

/-- Whether every command finds what it needs, if some nodes are there already. -/
def IsBuiltOn : List Node → List Command → Prop
  | _, [] => True
  | known, c :: rest => (∀ node ∈ c.needs, node ∈ known) ∧ IsBuiltOn (known ++ c.node?.toList) rest

variable {known : List Node} {c : Command} {commands more : List Command}

theorem isBuiltOn_append : IsBuiltOn known (commands ++ more) ↔
    IsBuiltOn known commands ∧ IsBuiltOn (known ++ nodes commands) more := by
  induction commands generalizing known with
  | nil => simp [IsBuiltOn, nodes]
  | cons c commands ih =>
    have hnodes : known ++ nodes (c :: commands) = known ++ c.node?.toList ++ nodes commands := by
      cases hc : c.node? <;> simp [nodes, hc]
    rw [List.cons_append, IsBuiltOn, IsBuiltOn, ih, hnodes, and_assoc]

/-- Whoever comes first in such a list was there before. -/
theorem IsBuiltOn.mem_nodes {pre post : List Command} (h : IsBuiltOn [] (pre ++ c :: post))
    {node : Node} (hnode : node ∈ c.needs) : node ∈ nodes pre :=
  (isBuiltOn_append.mp h).2.1 node hnode

/-- The nodes of the rule at place `i`. -/
def ruleNodes (i : Nat) : List Node :=
  [.rateClass ⟨root.major, firstRuleClass + i⟩,
    .discipline ⟨emulatorOffset + (firstRuleClass + i), 0⟩]

theorem filterMap_parts {β : Type} {p : Command → Option β} {f : Nat → List β}
    (h : ∀ i r, (ruleCommands i r).filterMap p = f i) :
    (rules.mapIdx ruleCommands).flatten.filterMap p = (List.range rules.length).flatMap f := by
  have hparts : (rules.mapIdx ruleCommands).map (List.filterMap p) =
      (List.range rules.length).map f := List.ext_getElem (by simp) fun i _ _ ↦ by simp [h]
  rw [List.filterMap_flatten, hparts, List.flatMap_def]

theorem nodes_tree : nodes (tree default rules) =
    [.discipline root, .rateClass ⟨root.major, defaultClass⟩,
      .discipline ⟨emulatorOffset + defaultClass, 0⟩] ++
      (List.range rules.length).flatMap ruleNodes := by
  rw [nodes, tree, List.filterMap_append, filterMap_parts (f := ruleNodes) fun _ _ ↦ rfl]
  rfl

theorem nodup_nodes_tree : (nodes (tree default rules)).Nodup := by
  have hparts : ((List.range rules.length).flatMap ruleNodes).Nodup := by
    refine List.nodup_flatMap.mpr ⟨fun i _ ↦ by simp [ruleNodes], List.nodup_range.imp fun hne ↦ ?_⟩
    simp [Function.onFun, ruleNodes, hne.symm]
  -- the numbers of the rules begin above those of the top and of the default class
  have habove (i : Nat) : 1 ≠ emulatorOffset + (firstRuleClass + i) ∧
      defaultClass ≠ firstRuleClass + i ∧
      emulatorOffset + defaultClass ≠ emulatorOffset + (firstRuleClass + i) := by
    rw [emulatorOffset, firstRuleClass, defaultClass]
    omega
  refine nodes_tree ▸ List.Nodup.append (by decide) hparts ?_
  simp [ruleNodes, root, habove]

theorem isBuiltOn_classCommands (h : .discipline root ∈ known) (n : Nat) (s : Shape) :
    IsBuiltOn known (classCommands n s) := by
  simp [classCommands, IsBuiltOn, Command.needs, Command.node?, h]

theorem isBuiltOn_ruleCommands (h : .discipline root ∈ known) (i : Nat) (r : Rule) :
    IsBuiltOn known (ruleCommands i r) := by
  refine isBuiltOn_append.mpr ⟨isBuiltOn_classCommands h _ _, ?_⟩
  simp [IsBuiltOn, Command.needs, nodes, classCommands, Command.node?, h]

theorem isBuiltOn_flatten {parts : List (List Command)} (hroot : .discipline root ∈ known)
    (h : ∀ part ∈ parts, ∀ known, .discipline root ∈ known → IsBuiltOn known part) :
    IsBuiltOn known parts.flatten := by
  induction parts generalizing known with
  | nil => exact trivial
  | cons part parts ih =>
    obtain ⟨hpart, hparts⟩ := List.forall_mem_cons.mp h
    exact isBuiltOn_append.mpr
      ⟨hpart known hroot, ih (List.mem_append_left _ hroot) hparts⟩

theorem isBuiltOn_tree : IsBuiltOn [] (tree default rules) := by
  have hroot : Node.discipline root ∈ [Node.discipline root] := List.mem_cons_self
  refine ⟨List.forall_mem_nil _, isBuiltOn_append.mpr ⟨isBuiltOn_classCommands hroot _ _, ?_⟩⟩
  refine isBuiltOn_flatten (List.mem_append_left _ hroot) fun part hpart known hknown ↦ ?_
  obtain ⟨i, hi, rfl⟩ := List.mem_mapIdx.mp hpart
  exact isBuiltOn_ruleCommands hknown i _

/-! ## The plan -/

theorem steerings_eq (i : Nat) (rules : List Rule) :
    steerings i rules = rules.mapIdx fun j r ↦ steering (i + j) r := by
  induction rules generalizing i with
  | nil => rfl
  | cons r rest ih =>
    rw [steerings, ih, List.mapIdx_cons]
    simp only [Nat.add_zero, Nat.add_right_comm i 1, Nat.add_assoc]

theorem filterMap_fallback?_tree :
    (tree default rules).filterMap Command.fallback? = [⟨root.major, defaultClass⟩] := by
  have hnone : (List.range rules.length).flatMap (fun _ ↦ ([] : List Handle)) = [] :=
    List.flatMap_eq_nil_iff.mpr fun _ _ ↦ rfl
  rw [tree, List.filterMap_append, filterMap_parts (fun _ _ ↦ rfl), hnone]
  rfl

/-- The commands name the nodes that they build so that nothing is mistaken for something else. -/
structure IsNumbered (rules : List Rule) (commands : List Command) : Prop where
  /-- No two classes have one number, and no two queueing disciplines have one handle. -/
  nodup : (nodes commands).Nodup
  /-- What is named by a command was added by one before. -/
  built : ∀ pre c post, commands = pre ++ c :: post → ∀ node ∈ c.needs, node ∈ nodes pre
  /-- There is one default class, and it is added. -/
  fallback : ∃ h, commands.filterMap Command.fallback? = [h] ∧ .rateClass h ∈ nodes commands
  /-- The filters are those of the rules in their order, and their priorities are 1, 2, 3, and so
  on. -/
  filters : (commands.filterMap Command.steering?).map (fun f ↦ (f.priority, f.destination)) =
    rules.mapIdx fun i r ↦ (i + 1, r.subnet.truncate)

theorem isNumbered_tree (default : Shape) (rules : List Rule) :
    IsNumbered rules (tree default rules) where
  nodup := nodup_nodes_tree
  built pre c post heq node hnode := (heq ▸ isBuiltOn_tree).mem_nodes hnode
  fallback := ⟨_, filterMap_fallback?_tree, by simp [nodes_tree]⟩
  filters := by
    rw [filterMap_tree, steerings_eq]
    exact List.ext_getElem (by simp) fun i _ _ ↦ by simp [steering]

/-- The texts on the command lines say what is in the commands. -/
structure Command.IsLegible (c : Command) (dev : String) : Prop where
  handles : ∀ m ∈ c.handles, [m.1, m.2.text] <:+: c.args dev ∧
    ∀ h : Handle, h.text = m.2.text → h = m.2
  rate : ∀ rate ∈ c.rate?, ["rate", rate.text] <:+: c.args dev ∧
    Bandwidth.denoted? rate.text.toList = some rate.bits.toNat

theorem Command.isLegible (c : Command) (dev : String) : c.IsLegible dev where
  handles m hm := ⟨handle_infix_args hm dev, fun h heq ↦ Handle.text_injective heq⟩
  rate rate hrate := by
    cases c with
    | rateClass parent classid rate' =>
      obtain rfl := Option.some.inj hrate
      refine ⟨⟨["class", "add", "dev", dev, "parent", parent.text, "classid", classid.text, "htb"],
        [], rfl⟩, ?_⟩
      rw [Bandwidth.text, String.toList_ofList, Bandwidth.denoted?_chars]
    | _ => exact absurd hrate (Option.not_mem_none rate)

/-- **Numbers serve as names.** There is no plan exactly if there are too many rules. If there is
one, then no sum is too great for two bytes, nothing in the plan is mistaken for something else, and
its texts say what is in it. -/
theorem plan_numbering (default : Shape) (rules : List Rule) :
    ((∃ e, plan default rules = .error e) ↔ maxRules < rules.length) ∧
      ∀ commands, plan default rules = .ok commands →
        checkedTree? default rules = some commands ∧ IsNumbered rules commands ∧
          ∀ c ∈ commands, ∀ dev, c.IsLegible dev := by
  by_cases h : maxRules < rules.length
  · obtain ⟨e, hplan⟩ : ∃ e, plan default rules = .error e := ⟨_, if_pos h⟩
    rw [hplan]
    exact ⟨iff_of_true ⟨e, rfl⟩ h, nofun⟩
  · have hplan : plan default rules = .ok (tree default rules) := if_neg h
    rw [hplan]
    refine ⟨iff_of_false (fun hfails ↦ absurd hfails.choose_spec nofun) h, fun commands heq ↦ ?_⟩
    obtain rfl := Except.ok.inj heq
    exact ⟨checkedTree?_eq (Nat.le_of_not_lt h), isNumbered_tree default rules,
      fun c _ dev ↦ c.isLegible dev⟩

/-- The names do not run out before the rules do. -/
theorem plan_numbering_of_most_rules :
    let rules := List.replicate maxRules ({ subnet := .ofOctets 16 0 5 9 24, shape := {} } : Rule)
    ∃ commands, plan {} rules = .ok commands ∧ checkedTree? {} rules = some commands ∧
      IsNumbered rules commands ∧ ∀ c ∈ commands, c.IsLegible "eth1" := by
  intro rules
  have hlength : ¬maxRules < rules.length := by rw [List.length_replicate]; exact Nat.lt_irrefl _
  obtain ⟨hfails, hall⟩ := plan_numbering {} rules
  cases hplan : plan {} rules with
  | error e => exact absurd (hfails.mp ⟨e, hplan⟩) hlength
  | ok commands =>
    obtain ⟨hchecked, hnumbered, hlegible⟩ := hall commands hplan
    exact ⟨commands, rfl, hchecked, hnumbered, fun c hc ↦ hlegible c hc "eth1"⟩

end TrafficControl

end ContainerNet
