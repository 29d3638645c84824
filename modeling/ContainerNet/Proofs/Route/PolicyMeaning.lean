import ContainerNet.Route.External
import ContainerNet.Proofs.Route.Lookup

/-!
# What a routing policy means

The routes of a policy are a list of prefixes that may nest and overlap in any way. What they mean
for one address is simple all the same, and `lookup_derive` says it: captured routes come first,
exceptions second, and the default action last.

## Why exceptions never get in the way

An exception that lies in a captured route gets no route at all. Hence an exception that does get
one, and that shares an address with a captured route, can only be the larger of the two
(`length_lt_of_unshielded`), so the captured route wins by the longest prefix. Default routes have
length zero and lose against everything else, as long as no exception is a default destination.
-/

namespace ContainerNet

namespace ExternalRoutes

/-- What capturing routes guarantees of them. -/
structure IsCaptured (e : ExternalRoutes) : Prop where
  unmanaged : ∀ b ∈ e.baseline, b.isManaged = false
  unicast : ∀ b ∈ e.baseline, b.kind = .unicast
  specific : ∀ b ∈ e.baseline, b.isDefault = false
  uplink_isDefault : ∀ u ∈ e.uplink, u.isDefault = true

variable {e : ExternalRoutes} {p : RoutingPolicy} {a : Address} {r : Route} {x : Subnet}

theorem isCaptured_ofRoutes (linkIndex : Nat) (routes : List Route) :
    (ofRoutes linkIndex routes).IsCaptured := by
  have hmem : ∀ b ∈ (ofRoutes linkIndex routes).baseline,
      (b.isManaged = false ∧ b.kind = .unicast) ∧ b.isDefault = false := by
    intro b hb
    simp only [ofRoutes, List.mem_filter] at hb
    simpa using hb.imp_left And.right
  refine ⟨fun b hb ↦ (hmem b hb).1.1, fun b hb ↦ (hmem b hb).1.2, fun b hb ↦ (hmem b hb).2, ?_⟩
  intro u hu
  exact List.find?_some hu

theorem IsCaptured.orUplink (he : e.IsCaptured) {fallback : Option Route}
    (h : ∀ u ∈ fallback, u.isDefault = true) : (e.orUplink fallback).IsCaptured := by
  refine ⟨he.unmanaged, he.unicast, he.specific, ?_⟩
  intro u hu
  rcases Option.or_eq_some_iff.mp hu with hcaptured | ⟨-, hfallback⟩
  · exact he.uplink_isDefault u hcaptured
  · exact h u hfallback

/-! ## The routes of a policy -/

theorem protector?_eq_none_iff :
    e.protector? x = none ↔ ∀ b ∈ e.baseline, b.destination.covers x = false := by
  rw [protector?, List.find?_eq_none]
  simp

theorem exception_eq_route_iff {action : PolicyAction} :
    e.exception action x = .route r ↔ e.protector? x.truncate = none ∧
      ((action = .allow ∧ r = denying x.truncate) ∨
        (action = .deny ∧ ∃ u, e.uplink = some u ∧ r = allowing u x.truncate)) := by
  rw [exception]
  cases hprotector : e.protector? x.truncate with
  | some b => simp
  | none =>
    cases action with
    | allow => simp [PolicyAction.inverse, eq_comm]
    | deny =>
      cases huplink : e.uplink with
      | none => simp [PolicyAction.inverse]
      | some u => simp [PolicyAction.inverse, eq_comm]

theorem eq_denying_of_exception (h : e.exception .allow x = .route r) :
    r = denying x.truncate := by
  obtain ⟨-, ⟨-, hr⟩ | ⟨hdeny, -⟩⟩ := exception_eq_route_iff.mp h
  · exact hr
  · exact absurd hdeny (by simp)

/-- Where the default action denies, an exception is allowed through the uplink. -/
theorem exists_allowing_of_exception (h : e.exception .deny x = .route r) :
    ∃ u, e.uplink = some u ∧ r = allowing u x.truncate := by
  obtain ⟨-, ⟨hallow, -⟩ | ⟨-, hr⟩⟩ := exception_eq_route_iff.mp h
  · exact absurd hallow (by simp)
  · exact hr

theorem mem_derive :
    r ∈ e.derive p ↔ r ∈ e.baseline ∨ (p.action = .allow ∧ e.uplink = some r) ∨
      ∃ x ∈ p.exceptions, e.exception p.action x = .route r := by
  have huplink : r ∈ (if p.action = .allow then e.uplink.toList else []) ↔
      p.action = .allow ∧ e.uplink = some r := by
    split <;> simp_all
  rw [derive, List.mem_append, List.mem_append, huplink, or_assoc]
  simp

theorem destination_of_exception {action : PolicyAction}
    (h : e.exception action x = .route r) : r.destination = x.truncate := by
  obtain ⟨-, ⟨-, rfl⟩ | ⟨-, u, -, rfl⟩⟩ := exception_eq_route_iff.mp h <;> rfl

/-- An exception with a route that shares an address with a captured route is the larger one: were
it not, the captured route would shield it. -/
theorem length_lt_of_unshielded {action : PolicyAction} {b : Route}
    (h : e.exception action x = .route r) (hx : r.destination.contains a = true)
    (hb : b ∈ e.baseline) (hba : b.destination.contains a = true) :
    r.destination.length < b.destination.length := by
  have hdest := destination_of_exception h
  obtain ⟨hprotector, -⟩ := exception_eq_route_iff.mp h
  have hcovers := protector?_eq_none_iff.mp hprotector b hb
  by_contra hle
  rw [hdest] at hx hle
  rw [Subnet.covers_of_contains (Nat.le_of_not_lt hle) hba hx] at hcovers
  exact absurd hcovers (by simp)

/-- Of the routes of a policy that match an address of the captured routes, those that were not
captured are shorter. -/
theorem length_lt_of_mem_derive (he : e.IsCaptured) {b : Route} (hr : r ∈ e.derive p)
    (hnot : r ∉ e.baseline) (hra : r.destination.contains a = true) (hb : b ∈ e.baseline)
    (hba : b.destination.contains a = true) : r.destination.length < b.destination.length := by
  rcases mem_derive.mp hr with hbase | ⟨-, huplink⟩ | ⟨x, -, hx⟩
  · exact absurd hbase hnot
  · rw [Subnet.length_eq_zero_of_isDefault (he.uplink_isDefault r huplink)]
    exact Subnet.length_pos_of_not_isDefault (he.specific b hb)
  · exact length_lt_of_unshielded hx hra hb hba

/-! ## The three cases of a lookup -/

/-- Where a captured route matches, only captured routes are found. -/
theorem lookup_derive_of_baseline (he : e.IsCaptured)
    (h : ∃ b ∈ e.baseline, b.destination.contains a = true) :
    RouteTable.lookup (e.derive p) a ≠ [] ∧
      ∀ r ∈ RouteTable.lookup (e.derive p) a, r ∈ e.baseline := by
  obtain ⟨b, hb, hba⟩ := h
  have hbp : b ∈ e.derive p := mem_derive.mpr (.inl hb)
  refine ⟨RouteTable.lookup_ne_nil_iff.mpr ⟨b, hbp, hba⟩, fun r hr ↦ ?_⟩
  obtain ⟨hmem, hra, hmax⟩ := RouteTable.mem_lookup.mp hr
  by_contra hnot
  have hlt := length_lt_of_mem_derive he hmem hnot hra hb hba
  have hle := hmax b hbp hba
  omega

theorem exists_exception_route {action : PolicyAction} (hxa : x.contains a = true)
    (h : ∀ b ∈ e.baseline, b.destination.contains a = false)
    (huplink : action = .deny → e.uplink.isSome) :
    ∃ r, e.exception action x = .route r := by
  have hprotector : e.protector? x.truncate = none := by
    rw [protector?_eq_none_iff]
    intro b hb
    by_contra hcovers
    rw [Bool.not_eq_false] at hcovers
    have hba := Subnet.contains_of_covers hcovers ((Subnet.contains_truncate x a).trans hxa)
    rw [h b hb] at hba
    exact absurd hba (by simp)
  cases action with
  | allow => exact ⟨_, exception_eq_route_iff.mpr ⟨hprotector, .inl ⟨rfl, rfl⟩⟩⟩
  | deny =>
    obtain ⟨u, hu⟩ := Option.isSome_iff_exists.mp (huplink rfl)
    exact ⟨_, exception_eq_route_iff.mpr ⟨hprotector, .inr ⟨rfl, u, hu, rfl⟩⟩⟩

/-- Where no captured route matches but an exception does, only routes of exceptions are found. -/
theorem lookup_derive_of_exception (he : e.IsCaptured)
    (hp : ∀ x ∈ p.exceptions, x.isDefault = false)
    (h : ∀ b ∈ e.baseline, b.destination.contains a = false) (hx : x ∈ p.exceptions)
    (hxa : x.contains a = true) (huplink : p.action = .deny → e.uplink.isSome) :
    RouteTable.lookup (e.derive p) a ≠ [] ∧
      ∀ r ∈ RouteTable.lookup (e.derive p) a,
        ∃ y ∈ p.exceptions, e.exception p.action y = .route r := by
  obtain ⟨s, hs⟩ := exists_exception_route hxa h huplink
  have hsp : s ∈ e.derive p := mem_derive.mpr (.inr (.inr ⟨x, hx, hs⟩))
  have hdest := destination_of_exception hs
  have hsa : s.destination.contains a = true := by rwa [hdest, Subnet.contains_truncate]
  refine ⟨RouteTable.lookup_ne_nil_iff.mpr ⟨s, hsp, hsa⟩, fun r hr ↦ ?_⟩
  obtain ⟨hmem, hra, hmax⟩ := RouteTable.mem_lookup.mp hr
  rcases mem_derive.mp hmem with hbase | ⟨-, hup⟩ | hexception
  · rw [h r hbase] at hra
    exact absurd hra (by simp)
  · -- the uplink has length zero, but the exception has not
    have hzero := Subnet.length_eq_zero_of_isDefault (he.uplink_isDefault r hup)
    have hpos := Subnet.length_pos_of_not_isDefault (hp x hx)
    have hle := hmax s hsp hsa
    rw [hdest, Subnet.length_truncate] at hle
    omega
  · exact hexception

/-- Where neither a captured route nor an exception matches, the default action decides. -/
theorem lookup_derive_of_neither (he : e.IsCaptured)
    (h : ∀ b ∈ e.baseline, b.destination.contains a = false)
    (hx : ∀ x ∈ p.exceptions, x.contains a = false) :
    RouteTable.lookup (e.derive p) a = if p.action = .allow then e.uplink.toList else [] := by
  have hbase : RouteTable.matching e.baseline a = [] := by
    simpa [RouteTable.matching] using h
  have hup : RouteTable.matching (if p.action = .allow then e.uplink.toList else []) a =
      if p.action = .allow then e.uplink.toList else [] := by
    rw [RouteTable.matching, List.filter_eq_self]
    intro u hu
    have hmem : e.uplink = some u := by
      split at hu
      · simpa using hu
      · simp at hu
    exact Subnet.contains_of_isDefault (he.uplink_isDefault u hmem) a
  have hexceptions : RouteTable.matching (p.exceptions.filterMap fun destination ↦
      (e.exception p.action destination).route?) a = [] := by
    rw [RouteTable.matching, List.filter_eq_nil_iff]
    intro r hr
    obtain ⟨x, hxp, hroute⟩ := List.mem_filterMap.mp hr
    rw [destination_of_exception (Exception.route?_eq_some_iff.mp hroute),
      Subnet.contains_truncate, hx x hxp]
    simp
  have hmatching : RouteTable.matching (e.derive p) a =
      if p.action = .allow then e.uplink.toList else [] := by
    rw [RouteTable.matching, derive, List.filter_append, List.filter_append,
      ← RouteTable.matching, ← RouteTable.matching, ← RouteTable.matching, hbase, hup, hexceptions,
      List.nil_append, List.append_nil]
  rw [RouteTable.lookup, hmatching, List.filter_eq_self]
  split
  · cases e.uplink <;> simp
  · simp

/-! ## The meaning of a policy -/

/-- **The meaning of a policy.** What a lookup finds in the routes of a policy: captured routes
wherever one matches, whatever the exceptions are; else, wherever an exception matches, the opposite
of the default action; and else the default action itself. -/
theorem lookup_derive (linkIndex : Nat) (routes : List Route) (fallback : Option Route)
    (hfallback : ∀ u ∈ fallback, u.isDefault = true) (p : RoutingPolicy)
    (hp : ∀ x ∈ p.exceptions, x.isDefault = false) (a : Address) :
    let e := (ofRoutes linkIndex routes).orUplink fallback
    let found := RouteTable.lookup (e.derive p) a
    if ∃ b ∈ e.baseline, b.destination.contains a = true then
      found ≠ [] ∧ ∀ r ∈ found, r ∈ e.baseline
    else if ∃ x ∈ p.exceptions, x.contains a = true then
      match p.action, e.uplink with
      | .allow, _ => found ≠ [] ∧ ∀ r ∈ found, r.kind = .unreachable
      | .deny, some u => found ≠ [] ∧
          ∀ r ∈ found, r.kind = .unicast ∧ r.gateway = u.gateway ∧ r.interface = u.interface
      | .deny, none => found = []
    else found = if p.action = .allow then e.uplink.toList else [] := by
  intro e found
  have he : e.IsCaptured := (isCaptured_ofRoutes linkIndex routes).orUplink hfallback
  split
  next hbase => exact lookup_derive_of_baseline he hbase
  next hbase =>
    have hnone : ∀ b ∈ e.baseline, b.destination.contains a = false := by simpa using hbase
    split
    next hexc =>
      obtain ⟨x, hx, hxa⟩ := hexc
      split
      next haction =>
        obtain ⟨hne, hall⟩ := lookup_derive_of_exception he hp hnone hx hxa (by simp [haction])
        refine ⟨hne, fun r hr ↦ ?_⟩
        obtain ⟨y, -, hy⟩ := hall r hr
        rw [haction] at hy
        rw [eq_denying_of_exception hy, denying]
      next u haction huplink =>
        obtain ⟨hne, hall⟩ := lookup_derive_of_exception he hp hnone hx hxa (by simp [huplink])
        refine ⟨hne, fun r hr ↦ ?_⟩
        obtain ⟨y, -, hy⟩ := hall r hr
        rw [haction] at hy
        obtain ⟨v, hv, rfl⟩ := exists_allowing_of_exception hy
        rw [huplink, Option.some_inj] at hv
        subst hv
        exact ⟨rfl, rfl, rfl⟩
      next haction huplink =>
        rw [RouteTable.lookup_eq_nil_iff]
        intro r hr
        rcases mem_derive.mp hr with hb | ⟨hallow, -⟩ | ⟨y, -, hy⟩
        · exact hnone r hb
        · rw [haction] at hallow
          exact absurd hallow (by simp)
        · rw [haction] at hy
          obtain ⟨v, hv, -⟩ := exists_allowing_of_exception hy
          rw [huplink] at hv
          exact absurd hv (by simp)
    next hexc =>
      exact lookup_derive_of_neither he hnone (by simpa using hexc)

/-- Under `deny`, with an uplink that was only remembered, an exception with host bits that contains
a captured subnet is followed outside of that subnet. -/
theorem lookup_derive_around_baseline :
    let routes := [Route.connected (.ofOctets 172 17 0 0 16) 2]
    let uplink : Route :=
      { destination := .ofOctets 0 0 0 0 0, gateway := some (.ofOctets 172 17 0 1),
        interface := some 2 }
    let p : RoutingPolicy := ⟨.deny, [.ofOctets 172 17 0 9 32, .ofOctets 172 16 3 4 12]⟩
    (∀ u ∈ some uplink, u.isDefault = true) ∧ (∀ x ∈ p.exceptions, x.isDefault = false) ∧
      (let found := RouteTable.lookup (((ofRoutes 7 routes).orUplink uplink).derive p)
        (.ofOctets 172 18 0 1)
      found ≠ [] ∧ ∀ r ∈ found, r.kind = .unicast ∧ r.gateway = some (.ofOctets 172 17 0 1) ∧
        r.interface = some 2) := by
  intro routes uplink p
  have huplink : ∀ u ∈ some uplink, u.isDefault = true := by decide
  have hp : ∀ x ∈ p.exceptions, x.isDefault = false := by decide
  have h := lookup_derive 7 routes (some uplink) huplink p hp (.ofOctets 172 18 0 1)
  rw [if_neg (by decide), if_pos (by decide)] at h
  exact ⟨huplink, hp, h⟩

end ExternalRoutes

end ContainerNet
