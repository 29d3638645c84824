import ContainerNet.Route.Basic

/-!
# Route tables

A table of routes as the kernel keeps it: putting a route in replaces the routes with the same
destination and metric. `lookup` gives the routes that an address takes, those of the longest
prefix that contains it; it is what the statements about policies and filters are about.
-/

namespace ContainerNet

/-- The main table, in the order in which the routes were put in. -/
abbrev RouteTable := List Route

namespace Route

/-- Whether two routes take the same place in a table. -/
def sameKey (r s : Route) : Bool := r.destination == s.destination && r.metric == s.metric

end Route

namespace RouteTable

/-- Puts a route in, in place of those with its destination and metric. -/
def replace (t : RouteTable) (r : Route) : RouteTable := t.filter (!·.sameKey r) ++ [r]

/-- Takes a route out. -/
def delete (t : RouteTable) (r : Route) : RouteTable := t.filter (· ≠ r)

/-- The routes whose destination contains an address. -/
def matching (t : RouteTable) (a : Address) : List Route := t.filter (·.destination.contains a)

/-- The routes that packets to an address may take: of those whose destination contains it, the
ones with the longest prefix. -/
def lookup (t : RouteTable) (a : Address) : List Route :=
  (t.matching a).filter fun r ↦
    (t.matching a).all fun s ↦ s.destination.length ≤ r.destination.length

theorem mem_lookup {t : RouteTable} {a : Address} {r : Route} :
    r ∈ t.lookup a ↔ r ∈ t ∧ r.destination.contains a ∧
      ∀ s ∈ t, s.destination.contains a → s.destination.length ≤ r.destination.length := by
  simp only [lookup, matching, List.mem_filter, List.all_eq_true, decide_eq_true_eq]
  grind

@[simp] theorem mem_replace {t : RouteTable} {r s : Route} :
    s ∈ t.replace r ↔ s = r ∨ (s ∈ t ∧ s.sameKey r = false) := by
  simp [replace, or_comm]

@[simp] theorem mem_delete {t : RouteTable} {r s : Route} : s ∈ t.delete r ↔ s ∈ t ∧ s ≠ r := by
  simp [delete]

end RouteTable

end ContainerNet
