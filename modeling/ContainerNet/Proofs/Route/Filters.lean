import Mathlib.Tactic.Common
import ContainerNet.Route.Filter
import ContainerNet.Proofs.Route.Lookup

/-!
# The filters in force

`filterRoutes` walks through the rules with a list of subnets it has seen. What it comes to can be
said without that list: `InForce` tells which filter a subnet gets, and `mem_filterRoutes` that the
routes are those of the filters in force. No subnet gets two, so the routes take different places in
a table and none of them replaces another.

The list of subnets that were seen is what makes the walk hard to reason about, so it occurs in the
lemmas about first occurrences only. There it is arbitrary: what a walk gives for a subnet that was
not seen is the filter of its first rule (`mem_firstActions`). Rules that name a subnet with
different bits behind the prefix are rules for the same subnet, so subnets are compared with those
bits cleared.
-/

namespace ContainerNet

variable {seen : List Subnet} {rules : List Rule} {own : List Subnet} {net : Subnet}
  {x y : FilterAction} {default : FilterAction}

/-! ## First occurrences -/

theorem truncate_eq_of_find? {rule : Rule}
    (h : rules.find? (·.subnet.truncate == net) = some rule) : rule.subnet.truncate = net :=
  beq_iff_eq.mp (List.find?_some h :)

/-- The filter of a subnet is that of its first rule. -/
theorem mem_firstActions :
    (net, x) ∈ firstActions seen rules ↔ net ∉ seen ∧
      ∃ rule, rules.find? (·.subnet.truncate == net) = some rule ∧ rule.shape.filter = x := by
  induction rules generalizing seen with
  | nil => simp [firstActions]
  | cons r rest ih =>
    rw [firstActions]
    by_cases hseen : seen.contains r.subnet.truncate = true
    · -- the subnet had its first rule earlier, so this one does not count
      rw [if_pos hseen, ih]
      have hmem : r.subnet.truncate ∈ seen := by simpa using hseen
      refine and_congr_right fun hnot ↦ ?_
      have hne : r.subnet.truncate ≠ net := by
        rintro rfl
        exact hnot hmem
      have hfind : (r :: rest).find? (·.subnet.truncate == net) =
          rest.find? (·.subnet.truncate == net) := List.find?_cons_of_neg (by simpa using hne)
      rw [hfind]
    · have hmem : r.subnet.truncate ∉ seen := by simpa using hseen
      rw [if_neg hseen, List.mem_cons, ih]
      by_cases hnet : r.subnet.truncate = net
      · subst hnet
        have hfind : (r :: rest).find? (·.subnet.truncate == r.subnet.truncate) = some r :=
          List.find?_cons_of_pos (by simp)
        rw [hfind]
        constructor
        · rintro (heq | ⟨hnot, -⟩)
          · exact ⟨hmem, r, rfl, (Prod.mk.inj heq).2.symm⟩
          · exact absurd List.mem_cons_self hnot
        · rintro ⟨-, rule, hrule, rfl⟩
          cases hrule
          exact .inl rfl
      · have hfind : (r :: rest).find? (·.subnet.truncate == net) =
            rest.find? (·.subnet.truncate == net) := List.find?_cons_of_neg (by simpa using hnet)
        rw [hfind]
        constructor
        · rintro (heq | ⟨hnot, h⟩)
          · exact absurd (Prod.mk.inj heq).1.symm hnet
          · exact ⟨fun hmem ↦ hnot (List.mem_cons_of_mem _ hmem), h⟩
        · rintro ⟨hnot, h⟩
          refine .inr ⟨fun hmem ↦ ?_, h⟩
          rcases List.mem_cons.mp hmem with heq | hmem
          · exact hnet heq.symm
          · exact hnot hmem

theorem pairwise_firstActions :
    (firstActions seen rules).Pairwise fun p q ↦ p.1 ≠ q.1 := by
  induction rules generalizing seen with
  | nil => exact List.Pairwise.nil
  | cons r rest ih =>
    rw [firstActions]
    split
    · exact ih
    · refine List.pairwise_cons.mpr ⟨?_, ih⟩
      rintro ⟨net, x⟩ hmem rfl
      exact (mem_firstActions.mp hmem).1 List.mem_cons_self

theorem mem_firstSubnets : net ∈ firstSubnets seen own ↔ net ∈ own ∧ net ∉ seen := by
  induction own generalizing seen with
  | nil => simp [firstSubnets]
  | cons m rest ih =>
    rw [firstSubnets]
    by_cases hseen : seen.contains m = true
    · rw [if_pos hseen, ih, List.mem_cons]
      have hmem : m ∈ seen := by simpa using hseen
      constructor
      · rintro ⟨hrest, hnot⟩
        exact ⟨.inr hrest, hnot⟩
      · rintro ⟨rfl | hrest, hnot⟩
        · exact absurd hmem hnot
        · exact ⟨hrest, hnot⟩
    · rw [if_neg hseen, List.mem_cons, List.mem_cons, ih]
      have hmem : m ∉ seen := by simpa using hseen
      constructor
      · rintro (rfl | ⟨hrest, hnot⟩)
        · exact ⟨.inl rfl, hmem⟩
        · exact ⟨.inr hrest, fun h ↦ hnot (List.mem_cons_of_mem _ h)⟩
      · rintro ⟨hor, hnot⟩
        by_cases hnet : net = m
        · exact .inl hnet
        · refine .inr ⟨hor.resolve_left hnet, fun h ↦ ?_⟩
          exact (List.mem_cons.mp h).elim hnet hnot

theorem pairwise_firstSubnets : (firstSubnets seen own).Pairwise (· ≠ ·) := by
  induction own generalizing seen with
  | nil => exact List.Pairwise.nil
  | cons m rest ih =>
    rw [firstSubnets]
    split
    · exact ih
    · refine List.pairwise_cons.mpr ⟨?_, ih⟩
      rintro net hmem rfl
      exact (mem_firstSubnets.mp hmem).2 List.mem_cons_self

/-! ## Filters in force -/

/-- The filter that a subnet gets under a default filter: that of its first rule, unless that
accepts what is accepted anyway; and for a subnet of the link without a rule, the default filter if
that blocks. -/
inductive InForce (default : FilterAction) (own : List Subnet) (rules : List Rule) (net : Subnet) :
    FilterAction → Prop
  | rule (rule : Rule) : rules.find? (·.subnet.truncate == net) = some rule →
    (rule.shape.filter = .accept → default ≠ .accept) →
    InForce default own rules net rule.shape.filter
  | default : net ∈ own → default ≠ .accept → (∀ rule ∈ rules, rule.subnet.truncate ≠ net) →
    InForce default own rules net default

namespace InForce

theorem unique (hx : InForce default own rules net x) (hy : InForce default own rules net y) :
    x = y := by
  cases hx with
  | rule r hr _ =>
    cases hy with
    | rule r' hr' _ =>
      rw [hr] at hr'
      cases hr'
      rfl
    | default _ _ hnone =>
      exact absurd (truncate_eq_of_find? hr) (hnone r (List.mem_of_find?_eq_some hr))
  | default _ _ hnone =>
    cases hy with
    | rule r hr _ =>
      exact absurd (truncate_eq_of_find? hr) (hnone r (List.mem_of_find?_eq_some hr))
    | default => rfl

theorem truncate_eq (hown : ∀ net ∈ own, net.truncate = net)
    (h : InForce default own rules net x) : net.truncate = net := by
  cases h with
  | rule r hr _ =>
    rw [← truncate_eq_of_find? hr, Subnet.truncate_truncate]
  | default hmem _ _ => exact hown net hmem

end InForce

/-! ## Routes of filters -/

variable {link : Link} {r : Route}

@[simp] theorem Route.destination_filtering (link : Link) (net : Subnet) (x : FilterAction) :
    (filtering link net x).destination = net.truncate := by
  cases x <;> rfl

@[simp] theorem Route.metric_filtering (link : Link) (net : Subnet) (x : FilterAction) :
    (filtering link net x).metric = none := by
  cases x <;> rfl

@[simp] theorem Route.origin_filtering (link : Link) (net : Subnet) (x : FilterAction) :
    (filtering link net x).origin = .rules := by
  cases x <;> rfl

theorem Route.kind_filtering (link : Link) (net : Subnet) {x : FilterAction} (hx : x ≠ .accept) :
    (filtering link net x).kind ≠ .unicast := by
  cases x with
  | accept => exact absurd rfl hx
  | drop => exact nofun
  | reject => exact nofun

theorem not_mem_map_firstActions :
    net ∉ (firstActions [] rules).map (·.1) ↔ ∀ rule ∈ rules, rule.subnet.truncate ≠ net := by
  constructor
  · intro hnot rule hrule hnet
    have hsome : (rules.find? (·.subnet.truncate == net)).isSome = true := by
      rw [List.find?_isSome]
      exact ⟨rule, hrule, by simpa using hnet⟩
    obtain ⟨first, hfirst⟩ := Option.isSome_iff_exists.mp hsome
    have hmem : (net, first.shape.filter) ∈ firstActions [] rules :=
      mem_firstActions.mpr ⟨List.not_mem_nil, first, hfirst, rfl⟩
    exact hnot (List.mem_map_of_mem hmem)
  · intro hnone hmem
    obtain ⟨⟨_, x⟩, hfirst, rfl⟩ := List.mem_map.mp hmem
    obtain ⟨-, rule, hrule, -⟩ := mem_firstActions.mp hfirst
    exact hnone rule (List.mem_of_find?_eq_some hrule) (truncate_eq_of_find? hrule)

theorem mem_filterRoutes :
    r ∈ filterRoutes link default own rules ↔
      ∃ net x, InForce default own rules net x ∧ r = Route.filtering link net x := by
  rw [filterRoutes, List.mem_append, List.mem_map, List.mem_map]
  constructor
  · rintro (⟨⟨net, x⟩, hmem, rfl⟩ | ⟨net, hmem, rfl⟩)
    · obtain ⟨hfirst, hneeded⟩ := List.mem_filter.mp hmem
      obtain ⟨-, rule, hrule, rfl⟩ := mem_firstActions.mp hfirst
      exact ⟨net, _, .rule rule hrule (by simpa [imp_iff_not_or] using hneeded), rfl⟩
    · split at hmem
      · exact absurd hmem List.not_mem_nil
      next hdefault =>
        obtain ⟨hown, hnot⟩ := mem_firstSubnets.mp hmem
        rw [List.mem_reverse, not_mem_map_firstActions] at hnot
        exact ⟨net, default, .default hown hdefault hnot, rfl⟩
  · rintro ⟨net, x, hforce, rfl⟩
    cases hforce with
    | rule rule hrule hneeded =>
      have hfirst : (net, rule.shape.filter) ∈ firstActions [] rules :=
        mem_firstActions.mpr ⟨List.not_mem_nil, rule, hrule, rfl⟩
      exact .inl ⟨_, List.mem_filter.mpr ⟨hfirst, by simpa [imp_iff_not_or] using hneeded⟩, rfl⟩
    | default hown hdefault hnone =>
      refine .inr ⟨net, ?_, rfl⟩
      rw [if_neg hdefault, mem_firstSubnets, List.mem_reverse, not_mem_map_firstActions]
      exact ⟨hown, hnone⟩

theorem pairwise_filterRoutes (hown : ∀ net ∈ own, net.truncate = net) :
    (filterRoutes link default own rules).Pairwise fun r s ↦ r.destination ≠ s.destination := by
  have htruncate {p : Subnet × FilterAction} (hp : p ∈ firstActions [] rules) :
      p.1.truncate = p.1 := by
    obtain ⟨-, rule, hrule, -⟩ := mem_firstActions.mp hp
    rw [← truncate_eq_of_find? hrule, Subnet.truncate_truncate]
  refine List.pairwise_append.mpr ⟨?_, ?_, ?_⟩
  · rw [List.pairwise_map]
    refine (pairwise_firstActions.filter _).imp_of_mem fun {p q} hp hq hne ↦ ?_
    rwa [Route.destination_filtering, Route.destination_filtering,
      htruncate (List.mem_filter.mp hp).1, htruncate (List.mem_filter.mp hq).1]
  · rw [List.pairwise_map]
    split
    · exact List.Pairwise.nil
    · refine pairwise_firstSubnets.imp_of_mem fun {m n} hm hn hne ↦ ?_
      simpa [hown m (mem_firstSubnets.mp hm).1, hown n (mem_firstSubnets.mp hn).1] using hne
  · -- a subnet that gets the default filter is not among those of the rules
    intro r hr s hs
    obtain ⟨p, hp, rfl⟩ := List.mem_map.mp hr
    obtain ⟨net, hnet, rfl⟩ := List.mem_map.mp hs
    split at hnet
    · exact absurd hnet List.not_mem_nil
    · obtain ⟨hmem, hnot⟩ := mem_firstSubnets.mp hnet
      rw [List.mem_reverse] at hnot
      rw [Route.destination_filtering, Route.destination_filtering, hown net hmem,
        htruncate (List.mem_filter.mp hp).1]
      rintro rfl
      exact hnot (List.mem_map_of_mem (List.mem_filter.mp hp).1)

theorem metric_of_mem_filterRoutes (h : r ∈ filterRoutes link default own rules) :
    r.metric = none := by
  obtain ⟨net, x, -, rfl⟩ := mem_filterRoutes.mp h
  exact Route.metric_filtering _ _ _

theorem origin_of_mem_filterRoutes (h : r ∈ filterRoutes link default own rules) :
    r.origin = .rules := by
  obtain ⟨net, x, -, rfl⟩ := mem_filterRoutes.mp h
  exact Route.origin_filtering _ _ _

theorem pairwise_sameKey_filterRoutes (hown : ∀ net ∈ own, net.truncate = net) :
    (filterRoutes link default own rules).Pairwise fun r s ↦ r.sameKey s = false := by
  refine (pairwise_filterRoutes hown).imp_of_mem fun hr hs hne ↦ ?_
  exact (Route.sameKey_eq_false_iff (metric_of_mem_filterRoutes hr)
    (metric_of_mem_filterRoutes hs)).mpr hne

end ContainerNet
