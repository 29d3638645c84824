import Mathlib.Tactic.Common
import ContainerNet.TrafficControl.Plan
import ContainerNet.Proofs.Address.Nesting

/-!
# Where a tree sends packets

The kernel tries the filters of a tree in the order of their priorities, and what no filter steers
goes to the default class of the root. `classOf` says which class that is for an address;
`classOf_tree` says that in the tree of a plan it is the class of the first rule that matches.

A tree is given by the commands that build it. `classOf` collects the filters from them and relies
on no order of the commands: among the filters that match it takes the one of the lowest priority.
In a plan priorities are the places of rules (`pairwise_steerings`), so the lowest one is the first
that matches (`find?_lowest`), and that belongs to the first rule that does.
-/

namespace ContainerNet.TrafficControl

/-- A filter of a tree. -/
structure Steering where
  priority : Nat
  destination : Subnet
  flowid : Handle
deriving DecidableEq, Repr

namespace Command

/-- The filter that a command adds. -/
def steering? : Command → Option Steering
  | .filter _ priority destination flowid => some ⟨priority, destination, flowid⟩
  | _ => none

/-- The class for what no filter steers, if the command adds the root. -/
def fallback? : Command → Option Handle
  | .qdisc .root handle (.htb defaultClass) => some ⟨handle.major, defaultClass⟩
  | _ => none

end Command

/-- The class that packets to an address go to: that of the matching filter of the lowest priority,
or the default class. -/
def classOf (commands : List Command) (a : Address) : Option Handle :=
  let matching := (commands.filterMap Command.steering?).filter (·.destination.contains a)
  match matching.find? fun f ↦ matching.all (f.priority ≤ ·.priority) with
  | some f => some f.flowid
  | none => commands.findSome? Command.fallback?

/-- The class of the first rule that contains an address, or else the default class. -/
def firstMatchClass (rules : List Rule) (a : Address) : Handle :=
  match rules.findIdx? (·.subnet.contains a) with
  | some i => ⟨root.major, firstRuleClass + i⟩
  | none => ⟨root.major, defaultClass⟩

/-! ## The filters of a plan -/

/-- The filter of the rule at place `i`. -/
def steering (i : Nat) (r : Rule) : Steering :=
  ⟨i + 1, r.subnet.truncate, ⟨root.major, firstRuleClass + i⟩⟩

variable {default : Shape} {rules : List Rule} {a : Address}

/-- The filters of rules, the first of which is at place `i`. -/
def steerings (i : Nat) : List Rule → List Steering
  | [] => []
  | r :: rest => steering i r :: steerings (i + 1) rest

theorem filterMap_ruleCommands (i : Nat) (rules : List Rule) :
    ((rules.mapIdx fun j r ↦ ruleCommands (i + j) r).flatten).filterMap Command.steering? =
      steerings i rules := by
  induction rules generalizing i with
  | nil => rfl
  | cons r rest ih =>
    have hnext : (fun (j : Nat) (r : Rule) ↦ ruleCommands (i + (j + 1)) r) =
        fun j r ↦ ruleCommands (i + 1 + j) r := by
      funext j r
      rw [Nat.add_comm j 1, Nat.add_assoc]
    rw [List.mapIdx_cons, List.flatten_cons, List.filterMap_append, hnext, ih (i + 1)]
    rfl

theorem filterMap_tree : (tree default rules).filterMap Command.steering? = steerings 0 rules := by
  have h := filterMap_ruleCommands 0 rules
  simp only [Nat.zero_add] at h
  rw [tree, List.filterMap_append, h]
  rfl

theorem priority_lt_of_mem_steerings {i : Nat} {f : Steering} (h : f ∈ steerings i rules) :
    i < f.priority := by
  induction rules generalizing i with
  | nil => exact absurd h List.not_mem_nil
  | cons r rest ih =>
    rcases List.mem_cons.mp h with rfl | h
    · exact Nat.lt_succ_self i
    · have := ih h
      omega

theorem pairwise_steerings (i : Nat) (rules : List Rule) :
    (steerings i rules).Pairwise fun f g ↦ f.priority < g.priority := by
  induction rules generalizing i with
  | nil => exact List.Pairwise.nil
  | cons r rest ih =>
    exact List.pairwise_cons.mpr ⟨fun f hf ↦ priority_lt_of_mem_steerings hf, ih (i + 1)⟩

/-- Of filters in the order of their priorities the first is the one that counts. -/
theorem find?_lowest {fs : List Steering} (h : fs.Pairwise fun f g ↦ f.priority < g.priority) :
    (fs.find? fun f ↦ fs.all (f.priority ≤ ·.priority)) = fs.head? := by
  cases fs with
  | nil => rfl
  | cons f rest =>
    obtain ⟨hf, -⟩ := List.pairwise_cons.mp h
    refine List.find?_cons_of_pos (List.all_eq_true.mpr fun g hg ↦ ?_)
    rcases List.mem_cons.mp hg with rfl | hg
    · simp
    · simpa using Nat.le_of_lt (hf g hg)

theorem find?_steerings (i : Nat) (rules : List Rule) (a : Address) :
    ((steerings i rules).find? (·.destination.contains a)).map Steering.flowid =
      (rules.findIdx? (·.subnet.contains a)).map fun j ↦
        ⟨root.major, firstRuleClass + (i + j)⟩ := by
  induction rules generalizing i with
  | nil => rfl
  | cons r rest ih =>
    have hcontains : (steering i r).destination.contains a = r.subnet.contains a :=
      Subnet.contains_truncate _ _
    rw [List.findIdx?_cons, steerings, List.find?_cons, hcontains]
    cases r.subnet.contains a with
    | true => rfl
    | false =>
      dsimp only
      rw [if_neg Bool.false_ne_true, ih (i + 1), Option.map_map]
      congr 1
      funext j
      rw [Function.comp_apply, Nat.add_right_comm, Nat.add_assoc]

/-- **First match wins** in the tree of a plan. -/
theorem classOf_tree (default : Shape) (rules : List Rule) (a : Address) :
    classOf (tree default rules) a = some (firstMatchClass rules a) := by
  -- to skip what does not match leaves the filters in order, so the first that is left counts
  have hsorted := (pairwise_steerings 0 rules).filter (·.destination.contains a)
  have hfirst := find?_steerings 0 rules a
  rw [← List.head?_filter] at hfirst
  rw [classOf, filterMap_tree, find?_lowest hsorted, firstMatchClass]
  cases hidx : rules.findIdx? (·.subnet.contains a) with
  | none =>
    rw [hidx, Option.map_none, Option.map_eq_none_iff] at hfirst
    rw [hfirst]
    rfl
  | some i =>
    rw [hidx] at hfirst
    obtain ⟨f, hf, hflow⟩ := Option.map_eq_some_iff.mp hfirst
    rw [hf]
    simpa using hflow

end ContainerNet.TrafficControl
