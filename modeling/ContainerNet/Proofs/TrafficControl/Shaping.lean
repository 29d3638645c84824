import ContainerNet.Proofs.TrafficControl.Classes

/-!
# What a plan does to packets

A plan names its nodes by numbers, and that they belong together is due to arithmetic: the filter,
the class and the emulator of a rule carry numbers that are made from the place of the rule. Here
commands are read as the kernel does, by number alone. `Steers` says which filter counts for an
address, and `Shapes` what becomes of packets in a class. `plan_shapes` puts them together: packets
to an address get the shape of the first rule that contains the address, or else the default shape.

That the numbers of different rules are different is used in one place, `ruleCommands_of_ne`.
-/

namespace ContainerNet.TrafficControl

/-! ## What commands say -/

namespace Command

/-- Whether the command adds the class, or something below it. -/
def isAbout (h : Handle) : Command → Bool
  | .rateClass parent classid _ => parent = h || classid = h
  | .qdisc (.under parent) _ _ => parent = h
  | .qdisc .root _ _ | .resetRoot | .filter _ _ _ _ => false

/-- The numbers in the command that are to fit into two bytes. -/
def numbers : Command → List Nat
  | .resetRoot => []
  | .qdisc .root handle (.htb defaultClass) => [handle.major, handle.minor, defaultClass]
  | .qdisc .root handle (.netem _) => [handle.major, handle.minor]
  | .qdisc (.under parent) handle _ => [parent.major, parent.minor, handle.major, handle.minor]
  | .rateClass parent classid _ => [parent.major, parent.minor, classid.major, classid.minor]
  | .filter parent priority _ flowid =>
    [parent.major, parent.minor, priority, flowid.major, flowid.minor]

end Command

/-- The emulator does to packets what the shape says. -/
structure Netem.Emulates (n : Netem) (s : Shape) : Prop where
  delay : n.delay = s.latency
  jitter : n.jitter = s.jitter
  loss : n.loss = s.loss
  corrupt : n.corrupt = ⟨s.corrupt, s.corruptCorrelation⟩
  reorder : n.reorder = ⟨s.reorder, s.reorderCorrelation⟩
  duplicate : n.duplicate = ⟨s.duplicate, s.duplicateCorrelation⟩

theorem Netem.emulates_ofShape (s : Shape) : (Netem.ofShape s).Emulates s :=
  ⟨rfl, rfl, rfl, rfl, rfl, rfl⟩

/-- The class is added with the rate of the shape, and all that there is below it is an emulator of
the shape. -/
def Shapes (commands : List Command) (h : Handle) (s : Shape) : Prop :=
  ∃ handle n, commands.filter (·.isAbout h) =
      [.rateClass root h (if s.bandwidth.isUnlimited then .gbit 10 else s.bandwidth),
        .qdisc (.under h) handle (.netem n)] ∧
    n.Emulates s

/-- The filter counts for the address: it matches, and none that matches has as low a priority. -/
structure Steers (commands : List Command) (a : Address) (f : Steering) : Prop where
  mem : f ∈ commands.filterMap Command.steering?
  contains : f.destination.contains a = true
  lowest : ∀ g ∈ commands.filterMap Command.steering?, g.destination.contains a = true →
    g ≠ f → f.priority < g.priority

/-! ## The part of one rule -/

section

variable {p : Command → Bool} {part : Nat → Rule → List Command} {rules : List Rule} {i : Nat}
  {r : Rule}

theorem filter_parts_eq_nil (hnone : ∀ j r, (part j r).filter p = []) :
    (rules.mapIdx part).flatten.filter p = [] := by
  rw [List.filter_flatten, List.flatten_eq_nil_iff]
  intro commands hcommands
  obtain ⟨parts, hparts, rfl⟩ := List.mem_map.mp hcommands
  obtain ⟨j, hj, rfl⟩ := List.mem_mapIdx.mp hparts
  exact hnone j rules[j]

/-- What the part of one rule only has, the parts of all rules have from this rule. -/
theorem filter_parts (hr : rules[i]? = some r)
    (hother : ∀ j r', j ≠ i → (part j r').filter p = []) :
    (rules.mapIdx part).flatten.filter p = (part i r).filter p := by
  induction rules generalizing i part with
  | nil => exact absurd hr nofun
  | cons first rest ih =>
    rw [List.mapIdx_cons, List.flatten_cons, List.filter_append]
    cases i with
    | zero =>
      obtain rfl : first = r := Option.some.inj hr
      rw [filter_parts_eq_nil fun j r' ↦ hother (j + 1) r' (Nat.succ_ne_zero j), List.append_nil]
    | succ i =>
      have hrest (j : Nat) (r' : Rule) (hne : j ≠ i) : (part (j + 1) r').filter p = [] :=
        hother (j + 1) r' fun heq ↦ hne (Nat.succ.inj heq)
      rw [hother 0 first (Nat.succ_ne_zero i).symm, List.nil_append]
      exact ih hr hrest

end

/-! ## Classes -/

variable {default : Shape} {rules : List Rule} {r : Rule} {a : Address} {i n m : Nat}

theorem shapes_classCommands (n : Nat) (s : Shape) :
    Shapes (classCommands n s) ⟨root.major, n⟩ s := by
  refine ⟨⟨emulatorOffset + n, 0⟩, .ofShape s, List.filter_eq_self.mpr ?_,
    Netem.emulates_ofShape s⟩
  intro c hc
  simp only [classCommands, List.mem_cons, List.not_mem_nil, or_false] at hc
  rcases hc with rfl | rfl <;> simp [Command.isAbout]

theorem classCommands_of_ne (hne : n ≠ m) (hm : m ≠ 0) (s : Shape) :
    (classCommands n s).filter (·.isAbout ⟨root.major, m⟩) = [] := by
  simp [classCommands, Command.isAbout, root, hne, hm.symm]

theorem filter_ruleCommands (i : Nat) (r : Rule) (h : Handle) :
    (ruleCommands i r).filter (·.isAbout h) =
      (classCommands (firstRuleClass + i) r.shape).filter (·.isAbout h) := by
  rw [ruleCommands, List.filter_append]
  exact List.append_nil _

theorem ruleCommands_of_ne (hne : firstRuleClass + i ≠ m) (hm : m ≠ 0) (r : Rule) :
    (ruleCommands i r).filter (·.isAbout ⟨root.major, m⟩) = [] := by
  rw [filter_ruleCommands, classCommands_of_ne hne hm]

theorem filter_tree (default : Shape) (rules : List Rule) (h : Handle) :
    (tree default rules).filter (·.isAbout h) =
      (classCommands defaultClass default).filter (·.isAbout h) ++
        (rules.mapIdx ruleCommands).flatten.filter (·.isAbout h) := by
  rw [← List.filter_append]
  rfl

theorem shapes_tree_default (default : Shape) (rules : List Rule) :
    Shapes (tree default rules) ⟨root.major, defaultClass⟩ default := by
  have hzero : defaultClass ≠ 0 := by decide
  have hne (j : Nat) : firstRuleClass + j ≠ defaultClass := by
    rw [firstRuleClass, defaultClass]
    omega
  have hnone := @filter_parts_eq_nil (·.isAbout ⟨root.major, defaultClass⟩) ruleCommands rules
    fun j r ↦ ruleCommands_of_ne (hne j) hzero r
  rw [Shapes, filter_tree, hnone, List.append_nil]
  exact shapes_classCommands defaultClass default

theorem shapes_tree_rule (hr : rules[i]? = some r) :
    Shapes (tree default rules) ⟨root.major, firstRuleClass + i⟩ r.shape := by
  have hzero : firstRuleClass + i ≠ 0 := by
    rw [firstRuleClass]
    omega
  have hdefault : defaultClass ≠ firstRuleClass + i := by
    rw [firstRuleClass, defaultClass]
    omega
  have hne (j : Nat) (hj : j ≠ i) : firstRuleClass + j ≠ firstRuleClass + i := by omega
  rw [Shapes, filter_tree, classCommands_of_ne hdefault hzero, List.nil_append,
    filter_parts hr fun j r' hj ↦ ruleCommands_of_ne (hne j hj) hzero r', filter_ruleCommands]
  exact shapes_classCommands (firstRuleClass + i) r.shape

/-! ## Filters -/

theorem mem_steerings {k : Nat} {f : Steering} :
    f ∈ steerings k rules ↔ ∃ i r, rules[i]? = some r ∧ f = steering (k + i) r := by
  induction rules generalizing k with
  | nil => simp [steerings]
  | cons first rest ih =>
    rw [steerings, List.mem_cons, ih]
    constructor
    · rintro (rfl | ⟨i, r, hr, rfl⟩)
      · exact ⟨0, first, rfl, rfl⟩
      · exact ⟨i + 1, r, hr, by rw [Nat.add_assoc, Nat.add_comm 1 i]⟩
    · rintro ⟨i, r, hr, rfl⟩
      cases i with
      | zero => exact .inl (by rw [Option.some.inj hr, Nat.add_zero])
      | succ i => exact .inr ⟨i, r, hr, by rw [Nat.add_assoc, Nat.add_comm 1 i]⟩

theorem mem_filters_tree {f : Steering} :
    f ∈ (tree default rules).filterMap Command.steering? ↔
      ∃ i r, rules[i]? = some r ∧ f = steering i r := by
  rw [filterMap_tree, mem_steerings]
  simp

/-- The filter of the first rule that contains an address counts for it. -/
theorem steers_first (hr : rules[i]? = some r) (hcontains : r.subnet.contains a = true)
    (hfirst : ∀ j r', j < i → rules[j]? = some r' → r'.subnet.contains a = false) :
    Steers (tree default rules) a (steering i r) := by
  refine ⟨mem_filters_tree.mpr ⟨i, r, hr, rfl⟩, ?_, fun g hg hmatch hne ↦ ?_⟩
  · exact (Subnet.contains_truncate _ _).trans hcontains
  · obtain ⟨j, r', hr', rfl⟩ := mem_filters_tree.mp hg
    have hmatch : r'.subnet.contains a = true := (Subnet.contains_truncate _ _).symm.trans hmatch
    rcases Nat.lt_trichotomy j i with hlt | rfl | hlt
    · exact absurd (hmatch.symm.trans (hfirst j r' hlt hr')) nofun
    · cases hr.symm.trans hr'
      exact absurd rfl hne
    · exact Nat.succ_lt_succ hlt

/-! ## The plan -/

theorem numbers_classCommands (hn : emulatorOffset + n ≤ 0xFFFF) (s : Shape) :
    ∀ c ∈ classCommands n s, ∀ k ∈ c.numbers, k ≤ 0xFFFF := by
  have hclass : n ≤ 0xFFFF := Nat.le_trans (Nat.le_add_left n _) hn
  simp [classCommands, Command.numbers, root, hn, hclass]

theorem numbers_ruleCommands (hi : i < maxRules) (r : Rule) :
    ∀ c ∈ ruleCommands i r, ∀ k ∈ c.numbers, k ≤ 0xFFFF := by
  rw [maxRules, emulatorOffset, firstRuleClass] at hi
  have hclass : emulatorOffset + (firstRuleClass + i) ≤ 0xFFFF := by
    rw [emulatorOffset, firstRuleClass]
    omega
  refine List.forall_mem_append.mpr ⟨numbers_classCommands hclass r.shape, ?_⟩
  have hnumber : firstRuleClass + i ≤ 0xFFFF := Nat.le_trans (Nat.le_add_left _ _) hclass
  have hpriority : i + 1 ≤ 0xFFFF := by omega
  simp [Command.numbers, root, hnumber, hpriority]

/-- The numbers of a plan fit into two bytes each. -/
theorem numbers_tree (hrules : rules.length ≤ maxRules) :
    ∀ c ∈ tree default rules, ∀ k ∈ c.numbers, k ≤ 0xFFFF := by
  refine List.forall_mem_append.mpr ⟨List.forall_mem_cons.mpr ⟨?_, ?_⟩, fun c hc ↦ ?_⟩
  · simp [Command.numbers, root, defaultClass]
  · exact numbers_classCommands (by decide) default
  · obtain ⟨commands, hcommands, hc⟩ := List.mem_flatten.mp hc
    obtain ⟨i, hi, rfl⟩ := List.mem_mapIdx.mp hcommands
    exact numbers_ruleCommands (Nat.lt_of_lt_of_le hi hrules) _ c hc

/-- **Packets get the shape of the first rule that matches.** The plan of at most as many rules as
fit has numbers of two bytes each. For every address, some filter counts and leads to a class with
the shape of the first rule that contains the address, or no filter matches, no rule contains the
address, and the default class has the default shape. -/
theorem plan_shapes (default : Shape) (rules : List Rule) (hrules : rules.length ≤ maxRules) :
    ∃ commands, plan default rules = .ok commands ∧
      (∀ c ∈ commands, ∀ k ∈ c.numbers, k ≤ 0xFFFF) ∧
      ∀ a, (∃ f r, Steers commands a f ∧ rules.find? (·.subnet.contains a) = some r ∧
          Shapes commands f.flowid r.shape) ∨
        ((∀ f ∈ commands.filterMap Command.steering?, f.destination.contains a = false) ∧
          rules.find? (·.subnet.contains a) = none ∧
          ∃ h, commands.findSome? Command.fallback? = some h ∧ Shapes commands h default) := by
  have hplan : plan default rules = .ok (tree default rules) := if_neg (Nat.not_lt_of_le hrules)
  refine ⟨tree default rules, hplan, numbers_tree hrules, fun a ↦ ?_⟩
  cases hfind : rules.find? (·.subnet.contains a) with
  | some r =>
    obtain ⟨hcontains, i, hi, hget, hbefore⟩ := List.find?_eq_some_iff_getElem.mp hfind
    have hr : rules[i]? = some r := List.getElem?_eq_some_iff.mpr ⟨hi, hget⟩
    have hfirst (j : Nat) (r' : Rule) (hj : j < i) (hr' : rules[j]? = some r') :
        r'.subnet.contains a = false := by
      obtain ⟨hlt, rfl⟩ := List.getElem?_eq_some_iff.mp hr'
      simpa using hbefore j hj
    exact .inl ⟨steering i r, r, steers_first hr hcontains hfirst, rfl, shapes_tree_rule hr⟩
  | none =>
    refine .inr ⟨fun f hf ↦ ?_, rfl, _, rfl, shapes_tree_default default rules⟩
    obtain ⟨i, r, hr, rfl⟩ := mem_filters_tree.mp hf
    have hnot := List.find?_eq_none.mp hfind r (List.mem_of_getElem? hr)
    exact (Subnet.contains_truncate _ _).trans (by simpa using hnot)

/-- A subnet with host bits lies in that of the next rule, which contains another address too. A
third address is in neither. -/
theorem plan_shapes_overlapping :
    let narrow : Rule :=
      ⟨.ofOctets 16 0 5 9 24, { latency := .ofMillis 20, bandwidth := .mbit 5 }⟩
    let wide : Rule := ⟨.ofOctets 16 0 0 0 16, { jitter := .ofMillis 1 }⟩
    ∃ commands, plan {} [narrow, wide] = .ok commands ∧
      (∃ f, Steers commands (.ofOctets 16 0 5 77) f ∧ Shapes commands f.flowid narrow.shape) ∧
      (∃ f, Steers commands (.ofOctets 16 0 6 77) f ∧ Shapes commands f.flowid wide.shape) ∧
      ∃ h, commands.findSome? Command.fallback? = some h ∧ Shapes commands h {} := by
  intro narrow wide
  obtain ⟨commands, hplan, -, hall⟩ := plan_shapes {} [narrow, wide] (by decide)
  have hrule {a : Address} {r : Rule}
      (hfind : [narrow, wide].find? (·.subnet.contains a) = some r) :
      ∃ f, Steers commands a f ∧ Shapes commands f.flowid r.shape := by
    rcases hall a with ⟨f, r', hsteers, hfind', hshapes⟩ | ⟨-, hnone, -⟩
    · obtain rfl : r = r' := Option.some.inj (hfind.symm.trans hfind')
      exact ⟨f, hsteers, hshapes⟩
    · exact absurd (hfind.symm.trans hnone) nofun
  refine ⟨commands, hplan, hrule (by decide), hrule (by decide), ?_⟩
  rcases hall (.ofOctets 17 0 0 1) with ⟨f, r, -, hfind, -⟩ | ⟨-, -, hdefault⟩
  · exact absurd (hfind.symm.trans (by decide)) (Option.some_ne_none r)
  · exact hdefault

end ContainerNet.TrafficControl
