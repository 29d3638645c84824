import ContainerNet.Link.Shaped
import ContainerNet.Proofs.Route.Filters
import ContainerNet.Proofs.Route.Lookup
import ContainerNet.Proofs.TrafficControl.Classes

/-!
# Filters and the order of rules

Of the rules that match an address the first is meant to count. The traffic-control tree is faithful
to that, since its filters are tried in order. Filters, however, are put into effect by routes, and
among routes the longest prefix counts, wherever its rule stands in the list.

## What is proved

`gives_iff` determines what a link with filters does with the traffic to one of its own subnets: the
most specific subnet with a filter in force decides (`Decides`), unless a subnet of the link is more
specific still. Rules that accept under a default shape that accepts are not in force, so they make
no hole in a block that a later rule puts up. `gives_verdict_iff` compares this with the first rule
that matches, and `not_gives_verdict_of_hole` is a case in which the two differ.
-/

namespace ContainerNet

/-- What is done with packets that take such a route, as the action of a filter. -/
def RouteKind.action : RouteKind → FilterAction
  | .unicast => .accept
  | .blackhole => .drop
  | .unreachable => .reject

/-- The action of the first rule that matches an address, or else the default action. -/
def verdict (default : FilterAction) (rules : List Rule) (a : Address) : FilterAction :=
  match rules.find? (·.subnet.contains a) with
  | some rule => rule.shape.filter
  | none => default

namespace RouteTable

/-- Packets to an address find a route, and whichever they take has the action. -/
def Gives (t : RouteTable) (a : Address) (x : FilterAction) : Prop :=
  t.lookup a ≠ [] ∧ ∀ r ∈ t.lookup a, r.kind.action = x

instance (t : RouteTable) (a : Address) (x : FilterAction) : Decidable (t.Gives a x) :=
  inferInstanceAs (Decidable (_ ∧ _))

theorem Gives.unique {t : RouteTable} {a : Address} {x y : FilterAction} (hx : t.Gives a x)
    (hy : t.Gives a y) : x = y := by
  obtain ⟨r, hr⟩ := List.exists_mem_of_ne_nil _ hx.1
  rw [← hx.2 r hr, ← hy.2 r hr]

/-- The connected routes of a link with addresses in some subnets. -/
def connected (link : Link) (own : List Subnet) : RouteTable :=
  own.map (Route.connected · link.index)

/-- The routes of a link with filters: connected routes, and over them the filter routes. -/
def filtered (link : Link) (default : FilterAction) (own : List Subnet) (rules : List Rule) :
    RouteTable :=
  (connected link own).changeAll ((filterRoutes link default own rules).map .put)

end RouteTable

variable {link : Link} {default x y : FilterAction} {own : List Subnet} {rules : List Rule}
  {net : Subnet} {a : Address} {r : Route}

/-- Filters that are installed on a link without filters lead to these routes. -/
theorem changeAll_filterChanges (link : Link) (default : FilterAction) (own : List Subnet)
    (rules : List Rule) :
    (RouteTable.connected link own).changeAll
      (filterChanges link default own rules (RouteTable.connected link own)) =
        RouteTable.filtered link default own rules := by
  have hstale : (RouteTable.connected link own).filter (fun r ↦
      r.origin == .rules && !(filterRoutes link default own rules).contains r) = [] := by
    rw [List.filter_eq_nil_iff]
    intro r hr
    obtain ⟨net, -, rfl⟩ := List.mem_map.mp hr
    exact Bool.false_ne_true
  rw [filterChanges, hstale]
  rfl

/-! ## What is in the table -/

theorem mem_filtered (hown : ∀ net ∈ own, net.truncate = net) :
    r ∈ RouteTable.filtered link default own rules ↔
      (∃ net x, InForce default own rules net x ∧ r = Route.filtering link net x) ∨
        ∃ net ∈ own, (∀ x, ¬InForce default own rules net x) ∧
          r = Route.connected net link.index := by
  rw [RouteTable.filtered, RouteTable.mem_changeAll_put (pairwise_sameKey_filterRoutes hown),
    mem_filterRoutes]
  refine or_congr_right ?_
  constructor
  · rintro ⟨hr, hfree⟩
    obtain ⟨net, hnet, rfl⟩ := List.mem_map.mp hr
    refine ⟨net, hnet, fun x hx ↦ ?_, rfl⟩
    have hmem : Route.filtering link net x ∈ filterRoutes link default own rules :=
      mem_filterRoutes.mpr ⟨net, x, hx, rfl⟩
    have hne := (Route.sameKey_eq_false_iff rfl (metric_of_mem_filterRoutes hmem)).mp (hfree _ hmem)
    rw [Route.destination_filtering, hx.truncate_eq hown] at hne
    exact hne rfl
  · rintro ⟨net, hnet, hfree, rfl⟩
    refine ⟨List.mem_map_of_mem hnet, fun s hs ↦ ?_⟩
    rw [Route.sameKey_eq_false_iff rfl (metric_of_mem_filterRoutes hs)]
    obtain ⟨m, x, hm, rfl⟩ := mem_filterRoutes.mp hs
    rw [Route.destination_filtering, hm.truncate_eq hown]
    rintro rfl
    exact hfree x hm

theorem exists_mem_filtered (hown : ∀ net ∈ own, net.truncate = net) (hnet : net ∈ own) :
    ∃ r ∈ RouteTable.filtered link default own rules, r.destination = net := by
  by_cases h : ∃ x, InForce default own rules net x
  · obtain ⟨x, hx⟩ := h
    refine ⟨_, (mem_filtered hown).mpr (.inl ⟨net, x, hx, rfl⟩), ?_⟩
    rw [Route.destination_filtering, hx.truncate_eq hown]
  · push Not at h
    exact ⟨_, (mem_filtered hown).mpr (.inr ⟨net, hnet, h, rfl⟩), rfl⟩

/-! ## Which filter counts -/

/-- A filter in force decides about an address if no other subnet that contains the address, of
those with a filter in force and of those of the link, is more specific. -/
structure Decides (default : FilterAction) (own : List Subnet) (rules : List Rule) (a : Address)
    (net : Subnet) (x : FilterAction) : Prop where
  inForce : InForce default own rules net x
  contains : net.contains a = true
  own_le : ∀ m ∈ own, m.contains a = true → m.length ≤ net.length
  le : ∀ m y, InForce default own rules m y → m.contains a = true → m.length ≤ net.length

theorem gives_of_decides (hown : ∀ net ∈ own, net.truncate = net)
    (h : Decides default own rules a net x) :
    (RouteTable.filtered link default own rules).Gives a x := by
  have hmem : Route.filtering link net x ∈ RouteTable.filtered link default own rules :=
    (mem_filtered hown).mpr (.inl ⟨net, x, h.inForce, rfl⟩)
  have hdest : (Route.filtering link net x).destination = net := by
    rw [Route.destination_filtering, h.inForce.truncate_eq hown]
  have hcontains : (Route.filtering link net x).destination.contains a = true := by
    rw [hdest]
    exact h.contains
  refine ⟨RouteTable.lookup_ne_nil_iff.mpr ⟨_, hmem, hcontains⟩, fun r hr ↦ ?_⟩
  obtain ⟨hrmem, hra, hmax⟩ := RouteTable.mem_lookup.mp hr
  have hle : net.length ≤ r.destination.length := by
    have := hmax _ hmem hcontains
    rwa [hdest] at this
  rcases (mem_filtered hown).mp hrmem with ⟨m, y, hm, rfl⟩ | ⟨m, hm, hfree, rfl⟩
  · rw [Route.destination_filtering, hm.truncate_eq hown] at hra hle
    have hlen : m.length = net.length := Nat.le_antisymm (h.le m y hm hra) hle
    have hnet : m = net := by
      rw [← hm.truncate_eq hown, ← h.inForce.truncate_eq hown]
      exact Subnet.truncate_eq_of_contains hlen hra h.contains
    subst hnet
    rw [hm.unique h.inForce]
    cases x <;> rfl
  · -- a connected route for the same subnet would have given way
    have hlen : m.length = net.length := Nat.le_antisymm (h.own_le m hm hra) hle
    have hnet : m = net := by
      rw [← hown m hm, ← h.inForce.truncate_eq hown]
      exact Subnet.truncate_eq_of_contains hlen hra h.contains
    subst hnet
    exact absurd h.inForce (hfree x)

theorem gives_of_not_decides (hown : ∀ net ∈ own, net.truncate = net)
    (ha : ∃ net ∈ own, net.contains a = true)
    (h : ∀ net x, ¬Decides default own rules a net x) :
    (RouteTable.filtered link default own rules).Gives a .accept := by
  obtain ⟨net, hnet, hneta⟩ := ha
  obtain ⟨s, hs, rfl⟩ := exists_mem_filtered hown hnet
  refine ⟨RouteTable.lookup_ne_nil_iff.mpr ⟨s, hs, hneta⟩, fun r hr ↦ ?_⟩
  obtain ⟨hrmem, hra, hmax⟩ := RouteTable.mem_lookup.mp hr
  rcases (mem_filtered hown).mp hrmem with ⟨m, y, hm, rfl⟩ | ⟨m, -, -, rfl⟩
  · -- a filter that is found is a longest one, so it would decide
    rw [Route.destination_filtering, hm.truncate_eq hown] at hra hmax
    refine absurd ⟨hm, hra, fun o ho hoa ↦ ?_, fun o z ho hoa ↦ ?_⟩ (h m y)
    · obtain ⟨u, hu, rfl⟩ := exists_mem_filtered hown ho
      exact hmax u hu hoa
    · have hmem : Route.filtering link o z ∈ RouteTable.filtered link default own rules :=
        (mem_filtered hown).mpr (.inl ⟨o, z, ho, rfl⟩)
      have := hmax _ hmem
      rw [Route.destination_filtering, ho.truncate_eq hown] at this
      exact this hoa
  · rfl

/-- What happens to the traffic to an address of the link's own subnets. -/
theorem gives_iff (hown : ∀ net ∈ own, net.truncate = net)
    (ha : ∃ net ∈ own, net.contains a = true) :
    (RouteTable.filtered link default own rules).Gives a x ↔
      (∀ net y, Decides default own rules a net y → y = x) ∧
        ((∀ net y, ¬Decides default own rules a net y) → x = .accept) := by
  constructor
  · intro hx
    refine ⟨fun net y hy ↦ (gives_of_decides hown hy).unique hx, fun hnone ↦ ?_⟩
    exact hx.unique (gives_of_not_decides hown ha hnone)
  · rintro ⟨hdecides, hnone⟩
    by_cases h : ∃ net y, Decides default own rules a net y
    · obtain ⟨net, y, hy⟩ := h
      rw [← hdecides net y hy]
      exact gives_of_decides hown hy
    · push Not at h
      rw [hnone h]
      exact gives_of_not_decides hown ha h

/-! ## The first rule that matches -/

/-- **When the first match wins.** On a link with some addresses, the traffic to its own subnets is
treated as the first rule that matches says exactly when the most specific filter in force agrees
with that rule; the traffic-control tree always follows the first rule that matches. -/
theorem gives_verdict_iff (link : Link) (default : Shape) (addresses : List Subnet)
    (rules : List Rule) (a : Address) (ha : ∃ net ∈ addresses, net.contains a = true) :
    let own := addresses.map Subnet.truncate
    let x := verdict default.filter rules a
    ((RouteTable.filtered link default.filter own rules).Gives a x ↔
        (∀ net y, Decides default.filter own rules a net y → y = x) ∧
          ((∀ net y, ¬Decides default.filter own rules a net y) → x = .accept)) ∧
      ∀ commands, TrafficControl.plan default rules = .ok commands →
        TrafficControl.classOf commands a = some (TrafficControl.firstMatchClass rules a) := by
  intro own x
  have hown : ∀ net ∈ own, net.truncate = net := by
    intro net hnet
    obtain ⟨m, -, rfl⟩ := List.mem_map.mp hnet
    exact Subnet.truncate_truncate m
  have ha' : ∃ net ∈ own, net.contains a = true := by
    obtain ⟨net, hnet, hneta⟩ := ha
    exact ⟨net.truncate, List.mem_map_of_mem hnet, by rwa [Subnet.contains_truncate]⟩
  refine ⟨gives_iff hown ha', fun commands hplan ↦ ?_⟩
  rw [TrafficControl.plan] at hplan
  split at hplan
  · exact absurd hplan nofun
  · cases hplan
    exact TrafficControl.classOf_tree default rules a

/-- On a link that drops by default a rule that accepts makes a hole. What decides there accepts,
and the traffic goes to the class of the rule. -/
theorem gives_verdict_in_hole :
    let default : Shape := { filter := .drop }
    let addresses : List Subnet := [.ofOctets 16 0 1 5 16]
    let rules : List Rule := [⟨.ofOctets 16 0 5 0 24, {}⟩]
    let a := Address.ofOctets 16 0 5 9
    (∃ net ∈ addresses, net.contains a = true) ∧ verdict default.filter rules a = .accept ∧
      (∀ net y, Decides default.filter (addresses.map Subnet.truncate) rules a net y →
        y = verdict default.filter rules a) ∧
      ∀ commands, TrafficControl.plan default rules = .ok commands →
        TrafficControl.classOf commands a = some ⟨1, 0x10⟩ := by
  intro default addresses rules a
  have ha : ∃ net ∈ addresses, net.contains a = true := by decide
  obtain ⟨hiff, hclass⟩ := gives_verdict_iff ⟨7, "eth1"⟩ default addresses rules a ha
  refine ⟨ha, by decide, (hiff.mp (by decide)).1, fun commands hplan ↦ ?_⟩
  rw [hclass commands hplan]
  decide

/-- On a link that accepts by default, a rule that accepts makes no hole in a block that a later
rule puts up: the traffic is dropped, although the first rule that matches accepts it. -/
theorem not_gives_verdict_of_hole :
    let own : List Subnet := [.ofOctets 16 0 0 0 16]
    let rules : List Rule := [⟨.ofOctets 16 0 5 0 24, {}⟩,
      ⟨.ofOctets 16 0 0 0 16, { filter := .drop }⟩]
    let a := Address.ofOctets 16 0 5 9
    verdict .accept rules a = .accept ∧
      ¬(RouteTable.filtered ⟨7, "eth1"⟩ .accept own rules).Gives a .accept ∧
      (RouteTable.filtered ⟨7, "eth1"⟩ .accept own rules).Gives a .drop := by
  decide

end ContainerNet
