import ContainerNet.Link.Shaped
import ContainerNet.Route.Enforcement
import ContainerNet.Proofs.Route.Filters
import ContainerNet.Proofs.Route.PolicyMeaning

/-!
# When captured routes stay reachable

Filters and the policy write into one table. The policy knows the captured routes and puts them all
in again, but filters do not, so a filter for a part of a captured subnet is found instead of the
captured route. `lookup_policyChanges_iff` and `forall_not_cuts_iff` determine for one address when
this happens.

## The argument

Whatever the changes do, every captured destination has a route in the end
(`exists_destination_eq`): the captured route itself, or the filter route that it has given way to.
So a lookup finds only captured routes exactly when nothing in the table `Cuts` the address off. Of
the routes of the policy none does, by what is known of exceptions. A filter route does unless the
policy puts a captured route in its place.
-/

namespace ContainerNet

/-! ## Tables with filters -/

section Filters

variable {link : Link} {default : FilterAction} {own : List Subnet} {rules : List Rule}
  {t : RouteTable} {r : Route}

/-- Stale routes go, even if others come back with them. -/
theorem mem_of_mem_changeAll_flatMap {stale : List Route} {back : Route → List RouteChange}
    (hback : ∀ s, .put r ∉ back s)
    (h : r ∈ t.changeAll (stale.flatMap fun s ↦ .remove s :: back s)) : r ∈ t ∧ r ∉ stale := by
  have hput : .put r ∉ stale.flatMap fun s ↦ .remove s :: back s := by
    intro hmem
    obtain ⟨s, -, hs⟩ := List.mem_flatMap.mp hmem
    rcases List.mem_cons.mp hs with hs | hs
    · exact absurd hs nofun
    · exact hback s hs
  refine ⟨(RouteTable.mem_or_put_of_mem_changeAll h).resolve_right hput, fun hr ↦ ?_⟩
  have hremove : .remove r ∈ stale.flatMap fun s ↦ .remove s :: back s :=
    List.mem_flatMap.mpr ⟨r, hr, List.mem_cons_self⟩
  exact RouteTable.not_mem_changeAll_of_remove hremove hput h

/-- Once filters are in line, the filter routes of a table are those that are wanted. -/
theorem mem_changeAll_filterChanges (hown : ∀ net ∈ own, net.truncate = net)
    (horigin : r.origin = .rules) :
    r ∈ t.changeAll (filterChanges link default own rules t) ↔
      r ∈ filterRoutes link default own rules := by
  rw [filterChanges, RouteTable.changeAll_append,
    RouteTable.mem_changeAll_put (pairwise_sameKey_filterRoutes hown)]
  refine ⟨fun h ↦ ?_, .inl⟩
  by_contra hnot
  -- what comes back with a stale filter is a connected route, so it is no filter
  have hback : ∀ net, Route.connected net link.index ≠ r := by
    rintro net rfl
    have hkernel : Origin.kernel ≠ .rules := by decide
    exact hkernel horigin
  have hgone := mem_of_mem_changeAll_flatMap ?_ (h.resolve_left hnot).1
  · refine hgone.2 (List.mem_filter.mpr ⟨hgone.1, ?_⟩)
    simpa [horigin] using hnot
  · intro s
    split
    · simpa [eq_comm] using hback s.destination
    · exact List.not_mem_nil

end Filters

/-! ## Tables with a policy -/

namespace ExternalRoutes

variable {e : ExternalRoutes} {p : RoutingPolicy} {t : RouteTable} {a : Address} {r b : Route}

theorem mem_desired :
    r ∈ e.desired p t ↔ r ∈ e.derive p ∧ (r.interface ≠ some e.linkIndex ∨
      ∀ s ∈ t, s.origin = .rules → s.destination ≠ r.destination) := by
  simp [desired, imp_iff_not_or]

theorem mem_changeAll_stale :
    r ∈ t.changeAll ((t.filter fun r ↦
      (r.origin == .policy || r.isDefault) && !(e.desired p t).contains r).map .remove) ↔
      r ∈ t ∧ (r.origin = .policy ∨ r.isDefault = true → r ∈ e.desired p t) := by
  rw [RouteTable.mem_changeAll_remove, List.mem_filter]
  refine and_congr_right fun hr ↦ ?_
  simp only [hr, true_and, Bool.and_eq_true, Bool.or_eq_true, beq_iff_eq, Bool.not_eq_true',
    List.contains_eq_mem, decide_eq_false_iff_not, not_and, not_not]

/-- A table in line with a policy: what putting the wanted routes in comes to, and of the others
those that may stay and whose place is not taken. -/
theorem mem_changeAll_policyChanges :
    r ∈ t.changeAll (e.policyChanges p t) ↔
      r ∈ RouteTable.changeAll [] ((e.desired p t).map .put) ∨
        (r ∈ t ∧ r.origin ≠ .policy ∧ r.isDefault = false ∧
          ∀ s ∈ e.desired p t, r.sameKey s = false) := by
  rw [policyChanges, RouteTable.changeAll_append, RouteTable.mem_changeAll_put_iff,
    mem_changeAll_stale]
  refine or_congr_right ⟨?_, ?_⟩
  · rintro ⟨⟨hr, hwanted⟩, hkeys⟩
    -- what is wanted takes its own place
    have hnot : r ∉ e.desired p t := fun h ↦ by
      have hkey := hkeys r h
      rw [Route.sameKey_self] at hkey
      exact absurd hkey nofun
    rw [imp_iff_not hnot, not_or, Bool.not_eq_true] at hwanted
    exact ⟨hr, hwanted.1, hwanted.2, hkeys⟩
  · rintro ⟨hr, hpolicy, hdefault, hkeys⟩
    refine ⟨⟨hr, ?_⟩, hkeys⟩
    rintro (h | h)
    · exact absurd h hpolicy
    · rw [hdefault] at h
      exact absurd h nofun

/-- What is in a table that is in line with a policy is wanted, or it is of another origin and takes
no place of what is wanted. -/
theorem mem_or_of_mem_policyChanges (h : r ∈ t.changeAll (e.policyChanges p t)) :
    r ∈ e.desired p t ∨
      (r ∈ t ∧ r.origin ≠ .policy ∧ ∀ s ∈ e.desired p t, r.sameKey s = false) := by
  rcases mem_changeAll_policyChanges.mp h with hput | ⟨hr, hpolicy, -, hkeys⟩
  · exact (RouteTable.mem_or_of_mem_changeAll_put hput).imp_right fun hnil ↦
      absurd hnil.1 List.not_mem_nil
  · exact .inr ⟨hr, hpolicy, hkeys⟩

theorem exists_destination_eq (he : e.IsCaptured) (hb : b ∈ e.baseline) :
    ∃ s ∈ t.changeAll (e.policyChanges p t), s.destination = b.destination := by
  rw [policyChanges, RouteTable.changeAll_append]
  by_cases hdesired : b ∈ e.desired p t
  · obtain ⟨s, hs, hkey⟩ := RouteTable.exists_sameKey_of_put hdesired
    exact ⟨s, hs, (Route.sameKey_iff.mp hkey).1.symm⟩
  · -- the captured route has given way to a filter route, which stays
    have hderive : b ∈ e.derive p := mem_derive.mpr (.inl hb)
    rw [mem_desired] at hdesired
    push Not at hdesired
    obtain ⟨-, f, hf, horigin, hdest⟩ := hdesired hderive
    have hdefault : f.isDefault = false := by
      rw [Route.isDefault, hdest]
      exact he.specific b hb
    have hpolicy : f.origin ≠ .policy := by simp [horigin, Origin.rules, Origin.policy]
    obtain ⟨s, hs, hkey⟩ := RouteTable.exists_sameKey_of_mem
      (mem_changeAll_stale.mpr ⟨hf, fun h ↦ absurd h (by simp [hpolicy, hdefault])⟩)
    exact ⟨s, hs, (Route.sameKey_iff.mp hkey).1.symm.trans hdest⟩

/-! ## What cuts an address off -/

/-- A route cuts an address off from captured routes if it was not captured and no captured route
for the address is more specific. -/
structure Cuts (e : ExternalRoutes) (a : Address) (r : Route) : Prop where
  contains : r.destination.contains a = true
  not_captured : r ∉ e.baseline
  le : ∀ b ∈ e.baseline, b.destination.contains a = true →
    b.destination.length ≤ r.destination.length

/-- Only captured routes are found exactly when nothing cuts the address off. -/
theorem lookup_policyChanges_iff (he : e.IsCaptured)
    (ha : ∃ b ∈ e.baseline, b.destination.contains a = true) :
    let found := RouteTable.lookup (t.changeAll (e.policyChanges p t)) a
    (found ≠ [] ∧ ∀ r ∈ found, r ∈ e.baseline) ↔
      ∀ r ∈ t.changeAll (e.policyChanges p t), ¬e.Cuts a r := by
  constructor
  · rintro ⟨hne, hall⟩ r hr hcuts
    obtain ⟨s, hs⟩ := List.exists_mem_of_ne_nil _ hne
    obtain ⟨hst, hsa, hmax⟩ := RouteTable.mem_lookup.mp hs
    have hle : s.destination.length ≤ r.destination.length := hcuts.le s (hall s hs) hsa
    refine hcuts.not_captured (hall r (RouteTable.mem_lookup.mpr ⟨hr, hcuts.contains, ?_⟩))
    intro u hu hua
    exact Nat.le_trans (hmax u hu hua) hle
  · intro hnone
    obtain ⟨b, hb, hba⟩ := ha
    obtain ⟨s, hs, hdest⟩ := exists_destination_eq (p := p) (t := t) he hb
    refine ⟨RouteTable.lookup_ne_nil_iff.mpr ⟨s, hs, by rwa [hdest]⟩, fun r hr ↦ ?_⟩
    obtain ⟨hrt, hra, hmax⟩ := RouteTable.mem_lookup.mp hr
    by_contra hnot
    -- what is found is at least as long as any captured destination, since each has a route
    refine hnone r hrt ⟨hra, hnot, fun b hb hba ↦ ?_⟩
    obtain ⟨s, hs, hdest⟩ := exists_destination_eq (p := p) (t := t) he hb
    have hle := hmax s hs (by rwa [hdest])
    rwa [hdest] at hle

theorem not_cuts_of_mem_derive (he : e.IsCaptured)
    (ha : ∃ b ∈ e.baseline, b.destination.contains a = true) (hr : r ∈ e.derive p) :
    ¬e.Cuts a r := by
  intro hcuts
  obtain ⟨b, hb, hba⟩ := ha
  have hlt := length_lt_of_mem_derive he hr hcuts.not_captured hcuts.contains hb hba
  have hle := hcuts.le b hb hba
  omega

/-- Nothing cuts an address off exactly when each filter that would gives way to a captured route,
and no route of others does. -/
theorem forall_not_cuts_iff (he : e.IsCaptured) {filters : List Route}
    (hfilters : ∀ r, r ∈ t ∧ r.origin = .rules ↔ r ∈ filters)
    (ha : ∃ b ∈ e.baseline, b.destination.contains a = true) :
    (∀ r ∈ t.changeAll (e.policyChanges p t), ¬e.Cuts a r) ↔
      (∀ f ∈ filters, e.Cuts a f →
        ∃ b ∈ e.baseline, f.sameKey b = true ∧ b.interface ≠ some e.linkIndex) ∧
      ∀ r ∈ t.changeAll (e.policyChanges p t), r.isManaged = false → ¬e.Cuts a r := by
  constructor
  · intro hnone
    refine ⟨fun f hf hcuts ↦ ?_, fun r hr _ ↦ hnone r hr⟩
    obtain ⟨hft, horigin⟩ := (hfilters f).mpr hf
    by_contra hkept
    push Not at hkept
    have hdefault : f.isDefault = false := by
      obtain ⟨b, hb, hba⟩ := ha
      have hpos := Subnet.length_pos_of_not_isDefault (he.specific b hb)
      have hle := hcuts.le b hb hba
      rw [Route.isDefault, Subnet.isDefault, beq_eq_false_iff_ne]
      omega
    -- a wanted route in the place of the filter would be captured, and not through the data link
    have hkeys : ∀ s ∈ e.desired p t, f.sameKey s = false := by
      intro s hs
      by_contra hkey
      rw [Bool.not_eq_false] at hkey
      obtain ⟨hdest, -⟩ := Route.sameKey_iff.mp hkey
      obtain ⟨hderive, hplace⟩ := mem_desired.mp hs
      by_cases hbase : s ∈ e.baseline
      · rcases hplace with hother | hfree
        · exact hother (hkept s hbase hkey)
        · exact hfree f hft horigin hdest
      · refine not_cuts_of_mem_derive he ha hderive ⟨?_, hbase, ?_⟩
        · rw [← hdest]
          exact hcuts.contains
        · rw [← hdest]
          exact hcuts.le
    have hpolicy : f.origin ≠ .policy := by simp [horigin, Origin.rules, Origin.policy]
    exact hnone f (mem_changeAll_policyChanges.mpr (.inr ⟨hft, hpolicy, hdefault, hkeys⟩)) hcuts
  · rintro ⟨hgive, hothers⟩ r hr hcuts
    rcases mem_or_of_mem_policyChanges hr with hdesired | ⟨hrt, hpolicy, hkeys⟩
    · exact not_cuts_of_mem_derive he ha (mem_desired.mp hdesired).1 hcuts
    by_cases horigin : r.origin = .rules
    · obtain ⟨b, hb, hkey, hinterface⟩ := hgive r ((hfilters r).mp ⟨hrt, horigin⟩) hcuts
      have hdesired : b ∈ e.desired p t :=
        mem_desired.mpr ⟨mem_derive.mpr (.inl hb), .inl hinterface⟩
      rw [hkeys b hdesired] at hkey
      exact absurd hkey Bool.false_ne_true
    · exact hothers r hr (by simp [Route.isManaged, hpolicy, horigin]) hcuts

end ExternalRoutes

end ContainerNet
