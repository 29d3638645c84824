import ContainerNet.Proofs.Configurator.Reapplying

/-!
# When filters outlast the policy

Filters are put in before the policy, so the policy may take them out again. `filter_stands_iff`
determines when it does, for every call that succeeds and every subnet whose first rule blocks.

## The two ways to lose a filter

The policy minds filters only where a route of its own leads through the data link: such a route
gives way. Nothing else does. A filter for all destinations is a default route that no policy wants,
so it goes with the stale ones (`default_filter_lost`). And an exception for the very subnet of a
filter takes its place, unless the exception has no route or one through the data link
(`Overrides`).
-/

namespace ContainerNet

variable {r f : Route}

/-! ## Filters under a policy -/

/-- A route stands in a table if it is there and no unicast route is in its place. -/
def RouteTable.Stands (t : RouteTable) (f : Route) : Prop :=
  f ∈ t ∧ ∀ r ∈ t, r.kind = .unicast → r.sameKey f = false

instance (t : RouteTable) (f : Route) : Decidable (t.Stands f) :=
  inferInstanceAs (Decidable (_ ∧ _))

namespace ExternalRoutes

variable {e : ExternalRoutes} {p : RoutingPolicy} {t : RouteTable} {net : Subnet}

/-- Whether a subnet lies in a captured route that does not lead through the data link. -/
def IsReachedElsewhere (e : ExternalRoutes) (net : Subnet) : Prop :=
  ∃ b ∈ e.baseline, b.interface ≠ some e.linkIndex ∧ b.destination.covers net = true

/-- A policy overrides filters for a subnet if it has an exception for that subnet, outside of the
captured routes, and the route of the exception does not lead through the data link. -/
def Overrides (e : ExternalRoutes) (p : RoutingPolicy) (net : Subnet) : Prop :=
  (∃ x ∈ p.exceptions, x.truncate = net) ∧
    (∀ b ∈ e.baseline, b.destination.covers net = false) ∧
    (p.action = .allow ∨ ∃ u ∈ e.uplink, u.interface ≠ some e.linkIndex)

instance (e : ExternalRoutes) (net : Subnet) : Decidable (e.IsReachedElsewhere net) :=
  inferInstanceAs (Decidable (∃ b ∈ e.baseline, _))

instance (e : ExternalRoutes) (p : RoutingPolicy) (net : Subnet) : Decidable (e.Overrides p net) :=
  inferInstanceAs (Decidable (_ ∧ _))

/-- What is wanted in the place of a filter is the route of an exception for the same subnet. -/
theorem overrides_of_mem_desired (he : e.IsCaptured) (hf : f ∈ t) (horigin : f.origin = .rules)
    (hspecific : f.isDefault = false) (helsewhere : ¬e.IsReachedElsewhere f.destination)
    (hr : r ∈ e.desired p t) (hkey : r.sameKey f = true) : e.Overrides p f.destination := by
  have hdest : r.destination = f.destination := (Route.sameKey_iff.mp hkey).1
  obtain ⟨hderive, hplace⟩ := mem_desired.mp hr
  -- through the data link the route would have given way to the filter
  have hinterface : r.interface ≠ some e.linkIndex := by
    refine hplace.resolve_right fun hfree ↦ ?_
    exact hfree f hf horigin hdest.symm
  rcases mem_derive.mp hderive with hbase | ⟨-, huplink⟩ | ⟨x, hx, hroute⟩
  · exact absurd ⟨r, hbase, hinterface, hdest ▸ Subnet.covers_self r.destination⟩ helsewhere
  · have hdefault := he.uplink_isDefault r huplink
    rw [Route.isDefault, hdest, ← Route.isDefault, hspecific] at hdefault
    exact absurd hdefault Bool.false_ne_true
  · have hnet : x.truncate = f.destination := (destination_of_exception hroute).symm.trans hdest
    obtain ⟨hprotector, haction⟩ := exception_eq_route_iff.mp hroute
    rw [hnet] at hprotector
    refine ⟨⟨x, hx, hnet⟩, protector?_eq_none_iff.mp hprotector, ?_⟩
    rcases haction with ⟨hallow, -⟩ | ⟨-, u, hu, rfl⟩
    · exact .inl hallow
    · exact .inr ⟨u, hu, hinterface⟩

theorem exists_desired_of_overrides (hmetric : f.metric = none)
    (h : e.Overrides p f.destination) : ∃ r ∈ e.desired p t, r.sameKey f = true := by
  obtain ⟨⟨x, hx, hnet⟩, hbaseline, haction⟩ := h
  have hprotector : e.protector? x.truncate = none := by
    rw [hnet]
    exact protector?_eq_none_iff.mpr hbaseline
  have hwanted {s : Route} (hs : e.exception p.action x = .route s)
      (hinterface : s.interface ≠ some e.linkIndex) : s ∈ e.desired p t :=
    mem_desired.mpr ⟨mem_derive.mpr (.inr (.inr ⟨x, hx, hs⟩)), .inl hinterface⟩
  by_cases hallow : p.action = .allow
  · refine ⟨denying x.truncate, hwanted ?_ nofun, Route.sameKey_iff.mpr ⟨hnet, hmetric.symm⟩⟩
    exact exception_eq_route_iff.mpr ⟨hprotector, .inl ⟨hallow, rfl⟩⟩
  · obtain ⟨u, hu, hinterface⟩ := haction.resolve_left hallow
    have hdeny : p.action = .deny := by
      cases haction : p.action with
      | allow => exact absurd haction hallow
      | deny => rfl
    refine ⟨allowing u x.truncate, hwanted ?_ hinterface,
      Route.sameKey_iff.mpr ⟨hnet, hmetric.symm⟩⟩
    exact exception_eq_route_iff.mpr ⟨hprotector, .inr ⟨hdeny, u, hu, rfl⟩⟩

end ExternalRoutes

namespace Namespace

variable {n : Namespace} {l : ShapedLink} {e : ExternalRoutes} {p : RoutingPolicy}

/-- A filter for all destinations goes with the default routes that are not wanted. -/
theorem default_filter_lost (he : e.IsForeign) (horigin : f.origin = .rules)
    (hdefault : f.isDefault = true) : f ∉ (n.withPolicy e p).table := by
  intro hmem
  rw [table_withPolicy] at hmem
  rcases ExternalRoutes.mem_changeAll_policyChanges.mp hmem with hput | ⟨-, -, hspecific, -⟩
  · rcases RouteTable.mem_or_of_mem_changeAll_put hput with hwanted | ⟨hnil, -⟩
    · exact he.origin_ne_rules (ExternalRoutes.mem_desired.mp hwanted).1 horigin
    · exact absurd hnil List.not_mem_nil
  · rw [hdefault] at hspecific
    exact absurd hspecific nofun

theorem eq_of_sameKey_filters (hr : r ∈ n.filters l) (hf : f ∈ n.filters l)
    (hkey : r.sameKey f = true) : r = f := by
  obtain ⟨net, x, hx, rfl⟩ := mem_filterRoutes.mp hr
  obtain ⟨m, y, hy, rfl⟩ := mem_filterRoutes.mp hf
  have hdest := (Route.sameKey_iff.mp hkey).1
  rw [Route.destination_filtering, Route.destination_filtering,
    hx.truncate_eq n.truncate_of_mem_own, hy.truncate_eq n.truncate_of_mem_own] at hdest
  subst hdest
  rw [hx.unique hy]

theorem stands_withPolicy_iff (he : e.IsForeign) (hf : f ∈ n.filters l)
    (hblocks : f.kind ≠ .unicast) :
    ((n.withFilters l).withPolicy e p).table.Stands f ↔
      f.isDefault = false ∧ ∀ s ∈ e.desired p (n.withFilters l).table, s.sameKey f = false := by
  have horigin : f.origin = .rules := origin_of_mem_filterRoutes hf
  have hpolicy : f.origin ≠ .policy := by simp [horigin, Origin.rules, Origin.policy]
  constructor
  · rintro ⟨hmem, -⟩
    refine ⟨?_, fun s hs ↦ ?_⟩
    · by_contra hdefault
      rw [Bool.not_eq_false] at hdefault
      exact default_filter_lost he horigin hdefault hmem
    · -- no filter is wanted, so what stays has its place to itself
      rcases ExternalRoutes.mem_or_of_mem_policyChanges hmem with hwanted | ⟨-, -, hkeys⟩
      · exact absurd horigin (he.origin_ne_rules (ExternalRoutes.mem_desired.mp hwanted).1)
      · rw [Route.sameKey_comm]
        exact hkeys s hs
  · rintro ⟨hspecific, hkeys⟩
    refine ⟨(mem_withPolicy_iff hpolicy hspecific fun s hs ↦ ?_).mpr
      ((mem_withFilters_of_rules horigin).mpr hf), fun r hr hunicast ↦ ?_⟩
    · rw [Route.sameKey_comm]
      exact hkeys s hs
    · by_contra hkey
      rw [Bool.not_eq_false] at hkey
      rcases ExternalRoutes.mem_or_of_mem_policyChanges hr with hwanted | ⟨hmem, -⟩
      · rw [hkeys r hwanted] at hkey
        exact absurd hkey Bool.false_ne_true
      · rcases mem_filters_or_of_mem_withFilters hmem with hfilter | hplaces
        · rw [eq_of_sameKey_filters hfilter hf hkey] at hunicast
          exact hblocks hunicast
        · rw [hplaces f hf] at hkey
          exact absurd hkey Bool.false_ne_true

end Namespace

/-! ## Filters after a call -/

open Namespace (Answers)

namespace Configurator

variable {c c' : Configurator} {config : NetworkConfig} {n n' : Namespace}
  {σ : Type} {env : (q : Effect) → q.Answer → σ → σ → Prop} {s₀ s : σ}

/-- **When filters outlast the policy.** A configurator that has come here in whatever world is
called for an enabled network, on any table, and the call succeeds. Take a subnet whose first rule
blocks and that no captured route leads to but through the data link. Then the filter route of the
rule is in the table, and no unicast route is in its place, exactly if the subnet is not that of all
destinations and no exception of the policy overrides the filter. -/
theorem filter_stands_iff {start : Configurator} (hnew : start.IsNew)
    (hreach : Reaches env start s₀ c s) (henable : config.enable = true)
    (hcall : (perform (.configure config) c).Ends Answers n (.ok (), c') n') :
    ∃ active ∈ c'.active, ∀ (net : Subnet) (rule : Rule),
      config.rules.find? (·.subnet.truncate == net) = some rule → rule.shape.filter ≠ .accept →
      ¬active.external.IsReachedElsewhere net →
      (n'.table.Stands (.filtering active.link.link net rule.shape.filter) ↔
        net.isDefault = false ∧ ¬active.external.Overrides config.policy net) := by
  have hsound : c'.Sound := keeps_sound _ hcall (hreach.sound hnew)
  have hforeign : c'.RemembersForeign :=
    keeps_remembersForeign _ hcall (hreach.remembersForeign hnew)
  rcases ends_configure hcall with ⟨e, -, he, -⟩ | ⟨-, hconverge⟩
  · cases he
  rw [if_pos henable] at hconverge
  obtain ⟨active, n₁, hactive, hshape, hrules, rfl⟩ := ends_converge_ok hconverge
  refine ⟨active, hactive, fun net rule hrule hblocks helsewhere ↦ ?_⟩
  have hnet : net.truncate = net := by
    rw [← truncate_eq_of_find? hrule, Subnet.truncate_truncate]
  -- of several rules for the subnet the first is in force
  have hf : Route.filtering active.link.link net rule.shape.filter ∈ n₁.filters active.link := by
    rw [Namespace.filters, hrules, mem_filterRoutes]
    exact ⟨net, _, .rule rule hrule fun haccept ↦ absurd haccept hblocks, rfl⟩
  have hmem := (Namespace.mem_withFilters_of_rules (Route.origin_filtering _ _ _)).mpr hf
  have hdest : (Route.filtering active.link.link net rule.shape.filter).destination = net :=
    (Route.destination_filtering _ _ _).trans hnet
  rw [Namespace.stands_withPolicy_iff (hforeign.external active hactive) hf
    (Route.kind_filtering _ _ hblocks), Route.isDefault, hdest]
  refine and_congr_right fun hspecific ↦ ?_
  constructor
  · intro hkeys hoverrides
    obtain ⟨r, hr, hkey⟩ := ExternalRoutes.exists_desired_of_overrides
      (Route.metric_filtering active.link.link net rule.shape.filter) (by rwa [hdest])
    rw [hkeys r hr] at hkey
    exact absurd hkey Bool.false_ne_true
  · intro hnone r hr
    by_contra hkey
    rw [Bool.not_eq_false] at hkey
    have hoverrides := ExternalRoutes.overrides_of_mem_desired (hsound.isCaptured active hactive)
      hmem (Route.origin_filtering _ _ _) (by rwa [Route.isDefault, hdest])
      (by rwa [hdest]) hr hkey
    rw [hdest] at hoverrides
    exact hnone hoverrides

/-- A filter stands beside exceptions, one of which is for its subnet: the route to the data network
shields that one. -/
theorem filter_stands_beside_exceptions :
    let net : Subnet := .ofOctets 16 0 5 0 24
    let rule : Rule := ⟨.ofOctets 16 0 5 9 24, { filter := .drop }⟩
    let config := { NetworkConfig.enabled "default" with
      rules := [rule, ⟨net, { filter := .accept }⟩]
      policy := ⟨.allow, [net, .ofOctets 8 8 8 8 32]⟩ }
    fresh.IsNew ∧ config.enable = true ∧ (firstCall config).1.1 = .ok () ∧
      config.rules.find? (·.subnet.truncate == net) = some rule ∧ rule.shape.filter ≠ .accept ∧
      ∃ active ∈ (firstCall config).1.2.active, ¬active.external.IsReachedElsewhere net ∧
        (firstCall config).2.table.Stands (.filtering active.link.link net .drop) := by
  intro net rule config
  have hends := ends_firstCall config
  have hok : (firstCall config).1.1 = .ok () := by decide +kernel
  have hrule : config.rules.find? (·.subnet.truncate == net) = some rule := by decide +kernel
  have hfree : ∀ active ∈ (firstCall config).1.2.active,
      ¬active.external.IsReachedElsewhere net ∧
        ¬active.external.Overrides config.policy net := by decide +kernel
  generalize firstCall config = run at hends hok hfree ⊢
  obtain ⟨⟨o, c'⟩, n'⟩ := run
  cases hok
  have hreach : Reaches Answers fresh bridged fresh bridged := .start
  obtain ⟨active, hactive, h⟩ := filter_stands_iff isNew_fresh hreach rfl hends
  obtain ⟨helsewhere, hnone⟩ := hfree active hactive
  have hblocks : rule.shape.filter ≠ .accept := nofun
  refine ⟨isNew_fresh, rfl, rfl, hrule, hblocks, active, hactive, helsewhere, ?_⟩
  exact (h net rule hrule hblocks helsewhere).mpr ⟨by decide +kernel, hnone⟩

/-- Two filters are lost in a call that succeeds: that for all destinations, and that for the subnet
of an exception, which then leads through the uplink. -/
theorem filters_lost_to_policy :
    let net : Subnet := .ofOctets 8 8 8 0 24
    let config := { NetworkConfig.enabled "default" with
      rules := [⟨.ofOctets 0 0 0 0 0, { filter := .drop }⟩, ⟨net, { filter := .drop }⟩]
      policy := ⟨.deny, [net]⟩ }
    (perform (.configure config) fresh).Ends Answers bridged (firstCall config).1
        (firstCall config).2 ∧
      (firstCall config).1.1 = .ok () ∧
      ∃ active ∈ (firstCall config).1.2.active, ∀ rule ∈ config.rules,
        config.rules.find? (·.subnet.truncate == rule.subnet) = some rule ∧
        ¬active.external.IsReachedElsewhere rule.subnet ∧
        ¬(firstCall config).2.table.Stands
          (.filtering active.link.link rule.subnet rule.shape.filter) := by
  intro net config
  exact ⟨ends_firstCall config, by decide +kernel, by decide +kernel⟩

end Configurator

end ContainerNet
