import ContainerNet.Proofs.Route.ControlPlane

/-!
# Tables that are brought in line

The routing policy and the filters of a link each bring a table in line that belongs to neither of
them alone. For both it is said here what is in the table afterwards: `ExternalRoutes.IsEnforced`
and `FiltersInForce`. What is wanted is there, nothing of an earlier time is left, and all other
routes whose places are free stay as they are.

## What stays

Changes are made one at a time, and while they are made the table is in line with nothing. Routes
that stay are therefore not followed by what the table is like but by what a change can do to them.
If no change concerns a route, `filter_changeAll` keeps it, with those beside it and in their order.
-/

namespace ContainerNet

variable {t : RouteTable} {changes : List RouteChange} {routes : List Route} {r s : Route}
  {P : Route → Bool}

/-! ## What changes leave alone -/

/-- Whether a change leaves routes of a kind alone: none of them is brought in or taken out, and the
place of none is taken. -/
def RouteChange.LeavesAlone (P : Route → Bool) : RouteChange → Prop
  | .put s => P s = false ∧ ∀ r, P r = true → r.sameKey s = false
  | .remove s => P s = false

namespace RouteTable

theorem filter_change {c : RouteChange} (h : c.LeavesAlone P) :
    (t.change c).filter P = t.filter P := by
  cases c with
  | put s =>
    have hs : [s].filter P = [] := List.filter_cons_of_neg (Bool.eq_false_iff.mp h.1)
    rw [change, replace, List.filter_append, hs, List.append_nil, List.filter_filter]
    refine List.filter_congr fun r _ ↦ ?_
    by_cases hr : P r = true
    · rw [hr, h.2 r hr, Bool.not_false, Bool.and_true]
    · rw [Bool.not_eq_true] at hr
      rw [hr, Bool.false_and]
  | remove s =>
    rw [change, delete, List.filter_filter]
    refine List.filter_congr fun r _ ↦ ?_
    by_cases hr : r = s
    · rw [hr, show P s = false from h, Bool.false_and]
    · rw [decide_eq_true hr, Bool.and_true]

/-- Routes that no change concerns are afterwards the same ones in the same order. -/
theorem filter_changeAll (h : ∀ c ∈ changes, c.LeavesAlone P) :
    (t.changeAll changes).filter P = t.filter P := by
  induction changes generalizing t with
  | nil => rfl
  | cons c rest ih =>
    obtain ⟨hc, hrest⟩ := List.forall_mem_cons.mp h
    rw [changeAll_cons, ih hrest, filter_change hc]

/-! ## What changes bring in -/

theorem mem_changeAll_of_put (hr : r ∈ t ∨ .put r ∈ changes) (hremove : .remove r ∉ changes)
    (hput : ∀ s, .put s ∈ changes → s ≠ r → r.sameKey s = false) : r ∈ t.changeAll changes := by
  induction changes generalizing t with
  | nil => exact hr.resolve_right List.not_mem_nil
  | cons c rest ih =>
    refine ih ?_ (fun h ↦ hremove (List.mem_cons_of_mem _ h))
      (fun s hs ↦ hput s (List.mem_cons_of_mem _ hs))
    by_cases hrest : .put r ∈ rest
    · exact .inr hrest
    · -- it is not put in later, so it has to be there now
      refine .inl ?_
      cases c with
      | put s =>
        rw [mem_change_put]
        by_cases hs : r = s
        · exact .inl hs
        · have hmem : r ∈ t := hr.resolve_right fun h ↦
            (List.mem_cons.mp h).elim (fun h ↦ hs (RouteChange.put.inj h)) hrest
          exact .inr ⟨hmem, hput s List.mem_cons_self (Ne.symm hs)⟩
      | remove s =>
        rw [mem_change_remove]
        refine ⟨hr.resolve_right fun h ↦ hrest ?_, ?_⟩
        · exact (List.mem_cons.mp h).resolve_left RouteChange.put_ne_remove
        · rintro rfl
          exact hremove List.mem_cons_self

theorem mem_changeAll_put_of_last {before after : List Route}
    (hlast : ∀ s ∈ after, r.sameKey s = false) :
    r ∈ t.changeAll ((before ++ r :: after).map .put) := by
  rw [List.map_append, List.map_cons, changeAll_append, changeAll_cons]
  exact mem_changeAll_put_iff.mpr (.inr ⟨mem_change_put.mpr (.inl rfl), hlast⟩)

/-- Routes for different places come in order after those whose places they do not take. -/
theorem changeAll_put_eq (hkeys : routes.Pairwise fun r s ↦ r.sameKey s = false) :
    t.changeAll (routes.map .put) = t.filter (fun r ↦ routes.all (!r.sameKey ·)) ++ routes := by
  induction routes generalizing t with
  | nil =>
    have hall : t.filter (fun r ↦ ([] : List Route).all (!r.sameKey ·)) = t :=
      List.filter_eq_self.mpr fun r _ ↦ rfl
    rw [hall, List.append_nil, List.map_nil, changeAll_nil]
  | cons s rest ih =>
    obtain ⟨hs, hrest⟩ := List.pairwise_cons.mp hkeys
    have hstays : [s].filter (fun r ↦ rest.all (!r.sameKey ·)) = [s] := by
      refine List.filter_eq_self.mpr fun q hq ↦ ?_
      rw [List.mem_singleton.mp hq, List.all_eq_true]
      exact fun u hu ↦ by rw [hs u hu, Bool.not_false]
    rw [List.map_cons, changeAll_cons, ih hrest, change, replace, List.filter_append, hstays,
      List.append_assoc, List.singleton_append, List.filter_filter]
    congr 1
    refine List.filter_congr fun r _ ↦ ?_
    rw [List.all_cons, Bool.and_comm]

end RouteTable

/-! ## Policies -/

namespace ExternalRoutes

variable {e : ExternalRoutes} {p : RoutingPolicy} {t' : RouteTable}

/-- Whether a policy has nothing to do with a route: it is neither of a policy nor for all
destinations, and no route that is wanted takes its place. -/
def spares (e : ExternalRoutes) (p : RoutingPolicy) (t : RouteTable) (r : Route) : Bool :=
  r.origin != .policy && !r.isDefault && (e.desired p t).all (!r.sameKey ·)

theorem spares_iff : e.spares p t r = true ↔
    r.origin ≠ .policy ∧ r.isDefault = false ∧ ∀ s ∈ e.desired p t, r.sameKey s = false := by
  simp [spares, and_assoc]

/-- What a table `t` has become that was brought in line with a policy. -/
structure IsEnforced (e : ExternalRoutes) (p : RoutingPolicy) (t t' : RouteTable) : Prop where
  /-- The routes of policies and those for all destinations are wanted. -/
  wanted : ∀ r ∈ t', r.origin = .policy ∨ r.isDefault = true → r ∈ e.desired p t
  /-- What is wanted is there unless something takes its place that is wanted later. -/
  present : ∀ before r after, e.desired p t = before ++ r :: after →
    (∀ s ∈ after, r.sameKey s = false) → r ∈ t'
  /-- What the policy has nothing to do with is as it was. -/
  others : t'.filter (e.spares p t) = t.filter (e.spares p t)
  /-- There is nothing else. -/
  only : ∀ r ∈ t', r ∈ e.desired p t ∨ e.spares p t r = true

theorem leavesAlone_policyChanges : ∀ c ∈ e.policyChanges p t, c.LeavesAlone (e.spares p t) := by
  intro c hc
  rcases List.mem_append.mp hc with hc | hc
  · obtain ⟨r, hr, rfl⟩ := List.mem_map.mp hc
    have hstale := (Bool.and_eq_true_iff.mp (List.mem_filter.mp hr).2).1
    rw [Bool.or_eq_true, beq_iff_eq] at hstale
    refine Bool.eq_false_iff.mpr fun hspared ↦ ?_
    obtain ⟨hpolicy, hdefault, -⟩ := spares_iff.mp hspared
    exact hstale.elim hpolicy (Bool.eq_false_iff.mp hdefault)
  · obtain ⟨s, hs, rfl⟩ := List.mem_map.mp hc
    refine ⟨Bool.eq_false_iff.mpr fun hspared ↦ ?_, fun r hr ↦ (spares_iff.mp hr).2.2 s hs⟩
    exact s.sameKey_self_ne_false ((spares_iff.mp hspared).2.2 s hs)

theorem isEnforced_changeAll (e : ExternalRoutes) (p : RoutingPolicy) (t : RouteTable) :
    e.IsEnforced p t (t.changeAll (e.policyChanges p t)) := by
  have honly {r : Route} (hr : r ∈ t.changeAll (e.policyChanges p t)) :
      r ∈ e.desired p t ∨ e.spares p t r = true := by
    rcases mem_changeAll_policyChanges.mp hr with hput | ⟨-, hspared⟩
    · exact (RouteTable.mem_or_of_mem_changeAll_put hput).imp_right fun hnil ↦
        absurd hnil.1 List.not_mem_nil
    · exact .inr (spares_iff.mpr hspared)
  constructor
  case wanted =>
    intro r hr hgoverned
    refine (honly hr).resolve_right fun hspared ↦ ?_
    obtain ⟨hpolicy, hdefault, -⟩ := spares_iff.mp hspared
    exact hgoverned.elim hpolicy (Bool.eq_false_iff.mp hdefault)
  case present =>
    intro before r after hsplit hlast
    rw [policyChanges, RouteTable.changeAll_append, hsplit]
    exact RouteTable.mem_changeAll_put_of_last hlast
  case others => exact RouteTable.filter_changeAll leavesAlone_policyChanges
  case only => exact fun r hr ↦ honly hr

end ExternalRoutes

/-! ## Filters -/

section Filters

variable {link : Link} {default : FilterAction} {own : List Subnet} {rules : List Rule}
  {t' : RouteTable}

/-- The connected routes that come back to a table: those of own subnets that have had a filter
route and are to have none. -/
def restoredRoutes (link : Link) (default : FilterAction) (own : List Subnet) (rules : List Rule)
    (t : RouteTable) : List Route :=
  (own.filter fun net ↦
      t.any (fun r ↦ r.origin == .rules && r.destination == net) &&
        !(filterRoutes link default own rules).any (·.destination == net)).map
    fun net ↦ Route.connected net link.index

theorem mem_restoredRoutes : r ∈ restoredRoutes link default own rules t ↔
    ∃ net ∈ own, (∃ s ∈ t, s.origin = .rules ∧ s.destination = net) ∧
      (∀ s ∈ filterRoutes link default own rules, s.destination ≠ net) ∧
      r = Route.connected net link.index := by
  simp [restoredRoutes, and_assoc, @eq_comm _ r]

/-- Whether filters have nothing to do with a route: it is no filter route, and neither a filter
route that is wanted nor a connected route that comes back takes its place. -/
def sparesFilters (link : Link) (default : FilterAction) (own : List Subnet) (rules : List Rule)
    (t : RouteTable) (r : Route) : Bool :=
  r.origin != .rules && (filterRoutes link default own rules).all (!r.sameKey ·) &&
    (restoredRoutes link default own rules t).all (!r.sameKey ·)

theorem sparesFilters_iff : sparesFilters link default own rules t r = true ↔
    r.origin ≠ .rules ∧ (∀ s ∈ filterRoutes link default own rules, r.sameKey s = false) ∧
      ∀ s ∈ restoredRoutes link default own rules t, r.sameKey s = false := by
  simp [sparesFilters, and_assoc]

/-- What a table `t` has become in which filters were put into force. -/
structure FiltersInForce (link : Link) (default : FilterAction) (own : List Subnet)
    (rules : List Rule) (t t' : RouteTable) : Prop where
  /-- The filter routes of the table are those of the filters, each once. -/
  filters : t'.filter (·.origin == .rules) = filterRoutes link default own rules
  /-- No two of them are for one destination. -/
  distinct : (filterRoutes link default own rules).Pairwise fun r s ↦ r.destination ≠ s.destination
  /-- Their destinations have no bits behind the prefix. -/
  truncated : ∀ r ∈ filterRoutes link default own rules, r.destination.truncate = r.destination
  /-- An own subnet that has lost its filter has its connected route. -/
  restored : ∀ r ∈ restoredRoutes link default own rules t, r ∈ t'
  /-- What filters have nothing to do with is as it was. -/
  others : t'.filter (sparesFilters link default own rules t) =
    t.filter (sparesFilters link default own rules t)
  /-- There is nothing else. -/
  only : ∀ r ∈ t', r ∈ filterRoutes link default own rules ∨
    r ∈ restoredRoutes link default own rules t ∨ sparesFilters link default own rules t r = true

theorem put_mem_filterChanges : .put r ∈ filterChanges link default own rules t ↔
    r ∈ filterRoutes link default own rules ∨ r ∈ restoredRoutes link default own rules t := by
  rw [filterChanges, List.mem_append, or_comm]
  refine or_congr ?_ ?_
  · simp
  · rw [mem_restoredRoutes, List.mem_flatMap]
    constructor
    · rintro ⟨s, hs, hput⟩
      obtain ⟨hst, hstale⟩ := List.mem_filter.mp hs
      rw [Bool.and_eq_true, beq_iff_eq] at hstale
      have hback := (List.mem_cons.mp hput).resolve_left RouteChange.put_ne_remove
      split at hback
      next hrestores =>
        rw [Bool.and_eq_true, List.contains_iff_mem, Bool.not_eq_true', List.any_eq_false]
          at hrestores
        refine ⟨s.destination, hrestores.1, ⟨s, hst, hstale.1, rfl⟩, fun q hq ↦ ?_,
          RouteChange.put.inj (List.mem_singleton.mp hback)⟩
        simpa using hrestores.2 q hq
      next => exact absurd hback List.not_mem_nil
    · rintro ⟨_, hown, ⟨s, hst, horigin, rfl⟩, hnone, rfl⟩
      -- no filter route is for that subnet, so the one that is there is stale
      have hstale : s ∉ filterRoutes link default own rules := fun hs ↦ hnone s hs rfl
      refine ⟨s, List.mem_filter.mpr ⟨hst, by simp [horigin, hstale]⟩, List.mem_cons_of_mem _ ?_⟩
      rw [if_pos (by simpa [hown] using hnone)]
      exact List.mem_singleton_self _

theorem remove_mem_filterChanges (h : .remove r ∈ filterChanges link default own rules t) :
    r.origin = .rules := by
  rcases List.mem_append.mp h with h | h
  · obtain ⟨s, hs, hremove⟩ := List.mem_flatMap.mp h
    have hstale := (Bool.and_eq_true_iff.mp (List.mem_filter.mp hs).2).1
    rcases List.mem_cons.mp hremove with hremove | hback
    · rw [RouteChange.remove.inj hremove]
      exact beq_iff_eq.mp hstale
    · split at hback
      · exact absurd (List.mem_singleton.mp hback).symm RouteChange.put_ne_remove
      · exact absurd hback List.not_mem_nil
  · obtain ⟨s, -, hput⟩ := List.mem_map.mp h
    exact absurd hput RouteChange.put_ne_remove

theorem origin_of_mem_restoredRoutes (h : r ∈ restoredRoutes link default own rules t) :
    r.origin ≠ .rules := by
  obtain ⟨net, -, -, -, rfl⟩ := mem_restoredRoutes.mp h
  have hkernel : Origin.kernel ≠ .rules := by decide
  exact hkernel

/-- A connected route that comes back has its place for itself. -/
theorem sameKey_restoredRoutes (hr : r ∈ restoredRoutes link default own rules t)
    (hs : s ∈ filterRoutes link default own rules ∨ s ∈ restoredRoutes link default own rules t)
    (hne : s ≠ r) : r.sameKey s = false := by
  obtain ⟨net, -, -, hnone, rfl⟩ := mem_restoredRoutes.mp hr
  refine Bool.eq_false_iff.mpr fun hkey ↦ ?_
  obtain ⟨hdest, -⟩ := Route.sameKey_iff.mp hkey
  rcases hs with hs | hs
  · exact hnone s hs hdest.symm
  · obtain ⟨other, -, -, -, rfl⟩ := mem_restoredRoutes.mp hs
    exact hne (congrArg (Route.connected · link.index) hdest.symm)

theorem leavesAlone_filterChanges : ∀ c ∈ filterChanges link default own rules t,
    c.LeavesAlone (sparesFilters link default own rules t) := by
  intro c hc
  cases c with
  | put s =>
    have hkey {r : Route} (hr : sparesFilters link default own rules t r = true) :
        r.sameKey s = false := by
      obtain ⟨-, hwanted, hback⟩ := sparesFilters_iff.mp hr
      exact (put_mem_filterChanges.mp hc).elim (hwanted s) (hback s)
    exact ⟨Bool.eq_false_iff.mpr fun hspared ↦ s.sameKey_self_ne_false (hkey hspared),
      fun r hr ↦ hkey hr⟩
  | remove s =>
    refine Bool.eq_false_iff.mpr fun hspared ↦ ?_
    exact (sparesFilters_iff.mp hspared).1 (remove_mem_filterChanges hc)

theorem filtersInForce_changeAll (hown : ∀ net ∈ own, net.truncate = net) (t : RouteTable) :
    FiltersInForce link default own rules t
      (t.changeAll (filterChanges link default own rules t)) := by
  constructor
  case filters =>
    have hkeys : (filterRoutes link default own rules).Pairwise fun r s ↦ r.sameKey s = false :=
      pairwise_sameKey_filterRoutes hown
    have hmem {r : Route} (hr : r ∈ t.changeAll (filterChanges link default own rules t))
        (horigin : r.origin = .rules) : r ∈ filterRoutes link default own rules :=
      (mem_changeAll_filterChanges hown horigin).mp hr
    rw [filterChanges, RouteTable.changeAll_append, RouteTable.changeAll_put_eq hkeys] at hmem ⊢
    rw [List.filter_append, List.filter_eq_nil_iff.mpr, List.nil_append, List.filter_eq_self.mpr]
    · exact fun r hr ↦ beq_iff_eq.mpr (origin_of_mem_filterRoutes hr)
    · -- a filter route that stays is wanted, so it has its own place taken
      intro r hr horigin
      have hwanted := hmem (List.mem_append_left _ hr) (beq_iff_eq.mp horigin)
      have hfree := List.all_eq_true.mp (List.mem_filter.mp hr).2 r hwanted
      rw [Bool.not_eq_true'] at hfree
      exact absurd hfree r.sameKey_self_ne_false
  case distinct => exact pairwise_filterRoutes hown
  case truncated =>
    intro r hr
    obtain ⟨net, x, -, rfl⟩ := mem_filterRoutes.mp hr
    rw [Route.destination_filtering, Subnet.truncate_truncate]
  case restored =>
    intro r hr
    refine RouteTable.mem_changeAll_of_put (.inr (put_mem_filterChanges.mpr (.inr hr)))
      (fun h ↦ origin_of_mem_restoredRoutes hr (remove_mem_filterChanges h)) fun s hs hne ↦ ?_
    exact sameKey_restoredRoutes hr (put_mem_filterChanges.mp hs) hne
  case others => exact RouteTable.filter_changeAll leavesAlone_filterChanges
  case only =>
    intro r hr
    by_cases horigin : r.origin = .rules
    · exact .inl ((mem_changeAll_filterChanges hown horigin).mp hr)
    rcases RouteTable.put_or_of_mem_changeAll hr with hput | ⟨-, hkeys⟩
    · exact (put_mem_filterChanges.mp hput).imp_right .inl
    · refine .inr (.inr (sparesFilters_iff.mpr ⟨horigin, fun s hs ↦ ?_, fun s hs ↦ ?_⟩))
      · exact hkeys s (put_mem_filterChanges.mpr (.inl hs))
      · exact hkeys s (put_mem_filterChanges.mpr (.inr hs))

end Filters

end ContainerNet
