import ContainerNet.Proofs.Configurator.Forgetting
import ContainerNet.Proofs.Configurator.History
import ContainerNet.Proofs.Configurator.Recovery

/-!
# Making a call again

A configuration that has been put into force can be asked for again, and then there is nothing to
do: `configure_again`. The plugins are left alone, and the configurator, the tree and the routes are
as before.

## Why the table comes back

The second call does write routes. Filters are put in before the policy, so they may take the place
of a route that the policy has just won from them, and the policy has to win it back
(`mem_withPolicy_again`). It does since it wants what it wanted in the first call, for that depends
on the filter routes alone, and none of these has become stale. It is used that nothing which was
captured is tagged as a filter: if a policy brought such routes in, the second call would take them
out.
-/

namespace ContainerNet

variable {r : Route}

/-! ## Routes of others -/

namespace ExternalRoutes

/-- All routes that were captured were put there by others. -/
structure IsForeign (e : ExternalRoutes) : Prop where
  baseline : ∀ b ∈ e.baseline, b.isManaged = false
  uplink : ∀ u ∈ e.uplink, u.isManaged = false

variable {e : ExternalRoutes} {p : RoutingPolicy}

theorem isForeign_ofRoutes (linkIndex : Nat) (routes : List Route) :
    (ofRoutes linkIndex routes).IsForeign := by
  have hforeign : ∀ r ∈ routes.filter fun r ↦ !r.isManaged && r.kind == .unicast,
      r.isManaged = false := by
    intro r hr
    simpa using (Bool.and_eq_true_iff.mp (List.mem_filter.mp hr).2).1
  exact ⟨fun b hb ↦ hforeign b (List.mem_filter.mp hb).1,
    fun u hu ↦ hforeign u (List.mem_of_find?_eq_some hu)⟩

theorem IsForeign.orUplink (he : e.IsForeign) {fallback : Option Route}
    (h : ∀ u ∈ fallback, u.isManaged = false) : (e.orUplink fallback).IsForeign := by
  refine ⟨he.baseline, fun u hu ↦ ?_⟩
  rcases Option.or_eq_some_iff.mp hu with hcaptured | ⟨-, hfallback⟩
  · exact he.uplink u hcaptured
  · exact h u hfallback

theorem IsForeign.origin_ne_rules (he : e.IsForeign) (hr : r ∈ e.derive p) :
    r.origin ≠ .rules := by
  have hforeign {s : Route} (hs : s.isManaged = false) : s.origin ≠ .rules := by
    rintro horigin
    simp [Route.isManaged, horigin] at hs
  have hpolicy : Origin.policy ≠ .rules := by decide
  rcases mem_derive.mp hr with hbase | ⟨-, huplink⟩ | ⟨x, -, hx⟩
  · exact hforeign (he.baseline r hbase)
  · exact hforeign (he.uplink r huplink)
  · rcases (exception_eq_route_iff.mp hx).2 with ⟨-, rfl⟩ | ⟨-, u, -, rfl⟩
    · exact hpolicy
    · exact hpolicy

end ExternalRoutes

/-! ## Tables that are in line -/

namespace Namespace

variable {n : Namespace} {l : ShapedLink} {e : ExternalRoutes} {p : RoutingPolicy}

/-- The filter routes of a link. -/
def filters (n : Namespace) (l : ShapedLink) : List Route :=
  filterRoutes l.link l.shape.filter (n.own l.link) l.rules

@[simp] theorem filters_withFilters (n : Namespace) (l m : ShapedLink) :
    (n.withFilters l).filters m = n.filters m := rfl

@[simp] theorem filters_withPolicy (n : Namespace) (e : ExternalRoutes) (p : RoutingPolicy)
    (m : ShapedLink) : (n.withPolicy e p).filters m = n.filters m := rfl

theorem mem_withFilters_of_rules (horigin : r.origin = .rules) :
    r ∈ (n.withFilters l).table ↔ r ∈ n.filters l :=
  Configurator.mem_withFilters horigin

/-- The first IPv4 address of a link. -/
def firstAddress (n : Namespace) (link : Link) : Option Subnet :=
  ((n.addresses link .v4).filterMap AnySubnet.v4?).head?

@[simp] theorem firstAddress_withFilters (n : Namespace) (l : ShapedLink) (link : Link) :
    (n.withFilters l).firstAddress link = n.firstAddress link := rfl

@[simp] theorem firstAddress_withPolicy (n : Namespace) (e : ExternalRoutes) (p : RoutingPolicy)
    (link : Link) : (n.withPolicy e p).firstAddress link = n.firstAddress link := rfl

theorem table_withPolicy (n : Namespace) (e : ExternalRoutes) (p : RoutingPolicy) :
    (n.withPolicy e p).table = n.table.changeAll (e.policyChanges p n.table) := rfl

/-- The table has no filter routes but those of the link. -/
def NoStale (n : Namespace) (l : ShapedLink) : Prop :=
  ∀ r ∈ n.table, r.origin = .rules → r ∈ n.filters l

theorem noStale_withFilters (n : Namespace) (l : ShapedLink) : (n.withFilters l).NoStale l := by
  intro r hr horigin
  rw [filters_withFilters]
  exact (mem_withFilters_of_rules horigin).mp hr

/-- Filters that are in line take the places of other routes, and do nothing else. -/
theorem NoStale.mem_withFilters (h : n.NoStale l) :
    r ∈ (n.withFilters l).table ↔
      r ∈ n.filters l ∨ (r ∈ n.table ∧ ∀ s ∈ n.filters l, r.sameKey s = false) := by
  have hstale : (n.table.filter fun r ↦ r.origin == .rules && !(n.filters l).contains r) = [] := by
    refine List.filter_eq_nil_iff.mpr fun r hr hdiffers ↦ ?_
    rw [Bool.and_eq_true, beq_iff_eq, Bool.not_eq_true', List.contains_eq_mem,
      decide_eq_false_iff_not] at hdiffers
    exact hdiffers.2 (h r hr hdiffers.1)
  have htable : (n.withFilters l).table = n.table.changeAll ((n.filters l).map .put) := by
    simp only [withFilters, filterChanges]
    rw [show filterRoutes l.link l.shape.filter (n.own l.link) l.rules = n.filters l from rfl,
      hstale]
    rfl
  rw [htable]
  exact RouteTable.mem_changeAll_put (pairwise_sameKey_filterRoutes n.truncate_of_mem_own)

theorem mem_filters_or_of_mem_withFilters (h : r ∈ (n.withFilters l).table) :
    r ∈ n.filters l ∨ ∀ s ∈ n.filters l, r.sameKey s = false := by
  simp only [withFilters, filterChanges, RouteTable.changeAll_append] at h
  exact ((RouteTable.mem_changeAll_put
    (pairwise_sameKey_filterRoutes n.truncate_of_mem_own)).mp h).imp_right And.right

theorem NoStale.withPolicy (h : n.NoStale l) (he : e.IsForeign) :
    (n.withPolicy e p).NoStale l := by
  intro r hr horigin
  rcases ExternalRoutes.mem_or_of_mem_policyChanges hr with hwanted | ⟨hmem, -⟩
  · exact absurd horigin (he.origin_ne_rules (ExternalRoutes.mem_desired.mp hwanted).1)
  · exact h r hmem horigin

/-- Filters that are in line are put in again without any effect. -/
theorem NoStale.mem_withFilters_again (h : n.NoStale l) :
    r ∈ ((n.withFilters l).withFilters l).table ↔ r ∈ (n.withFilters l).table := by
  rw [(noStale_withFilters n l).mem_withFilters, h.mem_withFilters, filters_withFilters]
  tauto

/-- Policies leave routes alone that take no place of what is wanted. -/
theorem mem_withPolicy_iff (hpolicy : r.origin ≠ .policy) (hdefault : r.isDefault = false)
    (hkeys : ∀ s ∈ e.desired p n.table, r.sameKey s = false) :
    r ∈ (n.withPolicy e p).table ↔ r ∈ n.table := by
  constructor
  · intro hr
    rcases ExternalRoutes.mem_or_of_mem_policyChanges hr with hwanted | ⟨hmem, -⟩
    · have hkey := hkeys r hwanted
      rw [Route.sameKey_self] at hkey
      exact absurd hkey nofun
    · exact hmem
  · intro hr
    exact ExternalRoutes.mem_changeAll_policyChanges.mpr (.inr ⟨hr, hpolicy, hdefault, hkeys⟩)

/-- What filters and the policy have brought in line they leave as it is. The policy finds the
filter routes of the first time; and of the routes that it leaves alone, those beside the filters
have kept their places. -/
theorem mem_withPolicy_again (he : e.IsForeign) {once : Namespace}
    (honce : once = (n.withFilters l).withPolicy e p) :
    r ∈ once.table ↔ r ∈ (((once.withFilters l).withFilters l).withPolicy e p).table := by
  have hstale : once.NoStale l := by
    rw [honce]
    exact (noStale_withFilters n l).withPolicy he
  have hfilters : once.filters l = n.filters l := by
    rw [honce, filters_withPolicy, filters_withFilters]
  have hagain : r ∈ ((n.withFilters l).withPolicy e p).table ↔
      r ∈ (((once.withFilters l).withFilters l).withPolicy e p).table := by
    rw [table_withPolicy, table_withPolicy]
    refine ExternalRoutes.mem_changeAll_policyChanges_congr (fun s hs ↦ ?_)
      fun hpolicy hdefault hkeys ↦ ?_
    · rw [mem_withFilters_of_rules hs, mem_withFilters_of_rules hs, filters_withFilters, hfilters]
    · rw [hstale.mem_withFilters_again, hstale.mem_withFilters, hfilters, honce,
        mem_withPolicy_iff hpolicy hdefault hkeys]
      constructor
      · intro hmem
        exact (mem_filters_or_of_mem_withFilters hmem).imp_right fun hkeys ↦ ⟨hmem, hkeys⟩
      · rintro (hfilter | ⟨hmem, -⟩)
        · exact (mem_withFilters_of_rules (origin_of_mem_filterRoutes hfilter)).mpr hfilter
        · exact hmem
  rwa [← honce] at hagain

end Namespace

/-! ## What a configurator remembers of routes -/

open ShapedNamespace (Rebuilds)
open Namespace (Answers)

namespace Configurator

variable {c c' : Configurator} {config : NetworkConfig} {active : ActiveLink} {n n' : Namespace}
  {σ : Type} {env : (q : Effect) → q.Answer → σ → σ → Prop} {s t : σ}

/-- What a configurator remembers of routes was put there by others. -/
structure RemembersForeign (c : Configurator) : Prop where
  external : ∀ active ∈ c.active, active.external.IsForeign
  uplink : ∀ u ∈ c.uplink, u.isManaged = false

theorem keeps_remembersForeign (k : Call) :
    (perform k).Keeps env fun c _ ↦ c.RemembersForeign := by
  refine keeps_remembered ?_ ?_ ?_ ?_ ?_ k
  · exact fun c hc ↦ ⟨by simp, hc.uplink⟩
  · exact fun c warnings hc ↦ ⟨hc.external, hc.uplink⟩
  · intro c link addresses list table hc
    have he := (ExternalRoutes.isForeign_ofRoutes link.index table).orUplink hc.uplink
    refine ⟨?_, fun u hu ↦ ?_⟩
    · rintro active ⟨⟩
      exact he
    · rcases Option.or_eq_some_iff.mp hu with hu | ⟨-, hu⟩
      · exact hc.uplink u hu
      · exact he.uplink u hu
  · intro c active link hactive _ hc
    refine ⟨?_, hc.uplink⟩
    rintro _ ⟨⟩
    exact hc.external active hactive
  · exact fun c hc ↦ ⟨hc.external, hc.uplink⟩

theorem Reaches.remembersForeign {start : Configurator} {s₀ : σ} (hnew : start.IsNew)
    (hreach : Reaches env start s₀ c s) : c.RemembersForeign := by
  have hstart : start.RemembersForeign := by
    refine ⟨?_, ?_⟩
    · simp [hnew.offline]
    · simp [hnew.no_uplink]
  exact Reaches.invariant hstart keeps_remembersForeign hreach

/-! ## The steps of a second call -/

theorem ends_update_self {checked : Outcome Unit} {change : ShapedLink → ShapedLink}
    (hactive : c.active = some active) (hchange : change active.link = active.link)
    (h : (onLink (fun l ↦ l.update checked (change l)) c).Ends env s (.ok (), c') t) :
    c' = c ∧ active.link.install.Ends env s (.ok ()) t := by
  obtain ⟨rfl, hinstall⟩ := ends_onLink_update_ok hactive h
  rw [hchange] at hinstall ⊢
  exact ⟨setLink_self hactive, hinstall⟩

theorem isQuiet_update (l : ShapedLink) (checked : Outcome Unit) (changed : ShapedLink) :
    (l.update checked changed).IsQuiet := by
  cases checked with
  | error e => exact Program.only_done
  | ok => exact changed.isQuiet_install.bind fun _ ↦ Program.only_done

theorem isQuiet_onLink {set : ShapedLink → Action (Outcome Unit × ShapedLink)}
    (hset : ∀ l, (set l).IsQuiet) (c : Configurator) : (onLink set c).IsQuiet := by
  rw [onLink]
  split
  · exact Program.only_done
  · exact (hset _).bind fun _ ↦ Program.only_done

theorem isQuiet_applyPolicy (config : NetworkConfig) (c : Configurator) :
    (applyPolicy config c).IsQuiet := by
  rw [applyPolicy]
  split
  · exact Program.only_done
  next active _ =>
    exact (active.external.isRouting_enforce _).isQuiet.bind fun _ ↦ Program.only_done

theorem Step.isQuiet_andThen {p q : Step} (hp : (p c).IsQuiet) (hq : ∀ c, (q c).IsQuiet) :
    (p.andThen q c).IsQuiet := by
  refine hp.bind fun result ↦ ?_
  rcases result with ⟨e | ⟨⟩, c₁⟩
  · exact Program.only_done
  · exact hq c₁

/-- What is remembered of the attached network is what a configuration asks for. -/
structure Matches (c : Configurator) (config : NetworkConfig) (active : ActiveLink) : Prop where
  active_eq : c.active = some active
  shape_eq : active.link.shape = config.shape
  rules_eq : active.link.rules = config.rules
  address_eq : c.hasOtherAddress config.ipv4 = false

namespace Matches

/-- A call for what is remembered anyway leaves the configurator as it is. It puts the link into
force twice and then the policy. -/
theorem ends_converge (hc : c.Matches config active)
    (h : (converge config c).Ends env s (.ok (), c') t) :
    c' = c ∧ ∃ u v, active.link.install.Ends env s (.ok ()) u ∧
      active.link.install.Ends env u (.ok ()) v ∧
      (active.external.enforce config.policy).Ends env v (.ok ()) t := by
  obtain ⟨c₁, u, c₂, v, hfirst, hsecond, hpolicy⟩ :=
    ends_converge_attached hc.active_eq hc.address_eq h
  obtain ⟨rfl, hinstall₁⟩ := ends_update_self hc.active_eq (by rw [← hc.shape_eq]) hfirst
  obtain ⟨rfl, hinstall₂⟩ := ends_update_self hc.active_eq (by rw [← hc.rules_eq]) hsecond
  obtain ⟨rfl, henforce⟩ := ends_applyPolicy_active hc.active_eq hpolicy
  exact ⟨rfl, u, v, hinstall₁, hinstall₂, henforce⟩

theorem ends_configure_granting {o : Outcome Unit} (hc : c.Matches config active)
    (hopen : c.closed = false) (hvalid : config.IsValid c.network.name)
    (hfits : config.rules.length ≤ TrafficControl.maxRules)
    (h : (configure config c).Ends granting s (o, c') t) : o = .ok () := by
  rcases Configurator.ends_configure_granting hopen hvalid h with
    ⟨hblocked, -⟩ | ⟨-, -, ⟨-, ho⟩ | ⟨hlong, -⟩⟩
  · rw [IsBlocked, keptRules_eq hc.active_eq hc.address_eq, hc.rules_eq] at hblocked
    exact absurd hfits (Nat.not_le.mpr hblocked)
  · exact ho
  · exact absurd hfits (Nat.not_le.mpr hlong)

theorem ends_converge_trees {trees trees' : Trees} {commands : List TrafficControl.Command}
    (hc : c.Matches config active)
    (hplan : TrafficControl.plan config.shape config.rules = .ok commands)
    (htree : trees active.link.link = some commands)
    (h : (converge config c).Ends Rebuilds trees (.ok (), c') trees') : trees' = trees := by
  have hinstall {u v : Trees} (hu : u active.link.link = some commands)
      (h : active.link.install.Ends Rebuilds u (.ok ()) v) : v = u := by
    obtain ⟨_, hplan', rfl⟩ := ShapedLink.ends_install_trees h
    rw [hc.shape_eq, hc.rules_eq, hplan] at hplan'
    cases hplan'
    exact Function.update_eq_self_iff.mpr hu.symm
  obtain ⟨-, u, v, hfirst, hsecond, henforce⟩ := hc.ends_converge h
  obtain rfl := hinstall htree hfirst
  obtain rfl := hinstall htree hsecond
  exact ShapedNamespace.trees_of_isRouting (active.external.isRouting_enforce _) henforce

theorem ends_converge_table {n₁ : Namespace} (hc : c.Matches config active)
    (he : active.external.IsForeign)
    (htable : n = (n₁.withFilters active.link).withPolicy active.external config.policy)
    (h : (converge config c).Ends Answers n (.ok (), c') n') : r ∈ n'.table ↔ r ∈ n.table := by
  obtain ⟨-, u, v, hfirst, hsecond, henforce⟩ := hc.ends_converge h
  obtain rfl := ShapedLink.ends_install hfirst
  obtain rfl := ShapedLink.ends_install hsecond
  obtain rfl := ExternalRoutes.ends_enforce henforce
  exact (Namespace.mem_withPolicy_again he htable).symm

/-- The plugins are left alone. -/
theorem isQuiet_configure (hc : c.Matches config active) (henable : config.enable = true) :
    (perform (.configure config) c).IsQuiet := by
  rw [perform, configure]
  split
  · exact Program.only_done
  · have honline : c.isOnline = true := by rw [isOnline, hc.active_eq, Option.isSome_some]
    rw [if_pos henable, converge_eq honline hc.address_eq]
    refine Step.isQuiet_andThen (isQuiet_onLink (fun l ↦ isQuiet_update l _ _) c) fun c ↦ ?_
    refine Step.isQuiet_andThen (isQuiet_onLink (fun l ↦ isQuiet_update l _ _) c) fun c ↦ ?_
    exact isQuiet_applyPolicy config c

end Matches

/-! ## What the first call leaves -/

theorem hasOtherAddress_congr {active' : ActiveLink} (hactive : c.active = some active)
    (hactive' : c'.active = some active') (h : active'.ipv4 = active.ipv4)
    (wanted : Option Subnet) : c'.hasOtherAddress wanted = c.hasOtherAddress wanted := by
  rw [Bool.eq_iff_iff, hasOtherAddress_iff hactive', hasOtherAddress_iff hactive, h]

theorem ends_attach_address {wanted : Option Subnet}
    (h : (attach wanted c).Ends Answers n (.ok (), c') n') :
    (c.isOnline = true ∧ c' = c) ∨
      ∃ active, c'.active = some active ∧ active.ipv4 = n'.firstAddress active.link.link := by
  rcases ends_attach h with ⟨honline, -, rfl, -⟩ | ⟨-, list, result, u, -, -, h⟩
  · exact .inl ⟨honline, rfl⟩
  rcases h with ⟨e, -, he, -⟩ | ⟨a, -, h⟩
  · exact absurd he nofun
  obtain ⟨found, v, -, h⟩ := ends_inspect h
  rcases h with ⟨e, -, he, -⟩ | ⟨link, listed, v', -, ⟨rfl, hlisted⟩, h⟩
  · exact absurd he nofun
  rcases h with ⟨e, -, he, -⟩ | ⟨nets, c₁, w, snapshot, rfl, hnote, ⟨rfl, -⟩, h⟩
  · exact absurd he nofun
  rcases h with ⟨e, -, he, -⟩ | ⟨table, -, -, rfl⟩
  · exact absurd he nofun
  -- noting addresses writes to the log at most
  obtain ⟨warnings, -, hlog⟩ := ends_noteAddresses hnote
  have hsame : n' = v' := by
    rcases hlog with hlog | ⟨entry, hlog⟩
    · exact hlog
    · exact hlog
  refine .inr ⟨_, rfl, ?_⟩
  rw [hsame, Namespace.firstAddress, ← hlisted nets rfl]

/-- After a call that succeeds no other address is asked for than the one on record, if the
interface has that. -/
theorem hasOtherAddress_of_converge (h : (converge config c).Ends Answers n (.ok (), c') n')
    (haddress : ∀ active ∈ c'.active, ∀ wanted ∈ config.ipv4,
      (n'.firstAddress active.link.link).map (·.address) = some wanted.address) :
    c'.hasOtherAddress config.ipv4 = false := by
  obtain ⟨c₁, u₁, hdetach, h⟩ := Step.ends_andThen_ok.mp h
  obtain ⟨c₂, u₂, hattach, h⟩ := Step.ends_andThen_ok.mp h
  obtain ⟨c₃, u₃, hshape, h⟩ := Step.ends_andThen_ok.mp h
  obtain ⟨c₄, u₄, hrules, hpolicy⟩ := Step.ends_andThen_ok.mp h
  obtain ⟨active, hactive⟩ := exists_active_of_attach hattach
  obtain ⟨hactive₃, rfl⟩ := ends_update_ok hactive hshape
  obtain ⟨hactive₄, rfl⟩ := ends_update_ok hactive₃ hrules
  obtain ⟨rfl, rfl⟩ := ends_applyPolicy_ok hactive₄ hpolicy
  rw [hasOtherAddress_congr hactive hactive₄ rfl]
  rcases ends_attach_address hattach with ⟨honline, rfl⟩ | ⟨_, hsome, hrecord⟩
  · rcases ends_detachOther hdetach with ⟨-, hdetach⟩ | ⟨hsame, -, rfl, -⟩
    · -- once detached it was not attached, so it would have had to be attached anew
      rw [isOnline, active_of_detach hdetach] at honline
      exact absurd honline Bool.false_ne_true
    · exact hsame
  · rw [hactive] at hsome
    cases hsome
    rw [← Bool.not_eq_true, hasOtherAddress_iff hactive]
    rintro ⟨address, hwanted, hne⟩
    have hfirst := haddress _ hactive₄ address hwanted
    simp only [Namespace.firstAddress_withPolicy, Namespace.firstAddress_withFilters] at hfirst
    rw [hrecord] at hne
    exact hne hfirst

theorem ends_converge_trees {trees trees' : Trees}
    (h : (converge config c).Ends Rebuilds trees (.ok (), c') trees') :
    ∃ active commands, c'.active = some active ∧
      TrafficControl.plan config.shape config.rules = .ok commands ∧
      trees' active.link.link = some commands := by
  obtain ⟨c₁, u₁, -, h⟩ := Step.ends_andThen_ok.mp h
  obtain ⟨c₂, u₂, hattach, h⟩ := Step.ends_andThen_ok.mp h
  obtain ⟨c₃, u₃, hshape, h⟩ := Step.ends_andThen_ok.mp h
  obtain ⟨c₄, u₄, hrules, hpolicy⟩ := Step.ends_andThen_ok.mp h
  obtain ⟨active, hactive⟩ := exists_active_of_attach hattach
  obtain ⟨hactive₃, -⟩ := ends_update_trees hactive hshape
  obtain ⟨hactive₄, commands, hplan, htree⟩ := ends_update_trees hactive₃ hrules
  obtain rfl : trees' = u₄ := ends_applyPolicy_trees hpolicy
  obtain ⟨rfl, -⟩ := ends_applyPolicy_active hactive₄ hpolicy
  exact ⟨_, commands, hactive₄, hplan, htree⟩

/-! ## The second call -/

/-- **Making a call again changes nothing.** Let a call that enables the network succeed, after
whatever calls and with whatever table, and let the interface have the address that was asked for,
if one was. Then the same call made again asks nothing of the plugins. If everything else that it
asks for is granted, it succeeds; and it leaves the configurator, with all that is remembered of the
link and the uplink, as it is, as well as the trees and the routes, those of others included. -/
theorem configure_again {start : Configurator} {s₀ : σ} (hnew : start.IsNew)
    (hreach : Reaches env start s₀ c s) (henable : config.enable = true) {w w' : ShapedNamespace}
    (hcall : (perform (.configure config) c).Ends ShapedNamespace.Answers w (.ok (), c') w')
    (haddress : ∀ active ∈ c'.active, ∀ wanted ∈ config.ipv4,
      (w'.firstAddress active.link.link).map (·.address) = some wanted.address) :
    (perform (.configure config) c').IsQuiet ∧
      ∀ answer : (q : Effect) → ShapedNamespace → q.Answer × ShapedNamespace,
        (∀ (q : Effect) (w : ShapedNamespace),
          ShapedNamespace.Answers q (answer q w).1 w (answer q w).2 ∧
            (q.isOperation = false → q.Granted (answer q w).1)) →
        let again := (perform (.configure config) c').run answer w'
        again.1 = (.ok (), c') ∧ (∀ r, r ∈ again.2.table ↔ r ∈ w'.table) ∧
          again.2.trees = w'.trees := by
  rcases ends_configure hcall with ⟨e, -, he, -⟩ | ⟨hcheck, hconverge⟩
  · exact absurd he nofun
  rw [if_pos henable] at hconverge
  obtain ⟨hopen, hvalid⟩ := (check_eq_ok_iff henable).mp hcheck
  obtain ⟨hopen', hnetwork⟩ := keeps_identity hcall ⟨hopen, rfl⟩
  rw [← hnetwork] at hvalid
  obtain ⟨active, n₁, hactive, hshape, hrules, htable⟩ :=
    ends_converge_ok (ShapedNamespace.ends_toNamespace hconverge)
  obtain ⟨_, commands, hsome, hplan, htree⟩ :=
    ends_converge_trees (ShapedNamespace.ends_trees hconverge)
  rw [hactive] at hsome
  cases hsome
  have hsame : c'.hasOtherAddress config.ipv4 = false :=
    hasOtherAddress_of_converge (ShapedNamespace.ends_toNamespace hconverge) haddress
  have hforeign : c'.RemembersForeign :=
    keeps_remembersForeign _ hcall (hreach.remembersForeign hnew)
  have hmatches : c'.Matches config active := ⟨hactive, hshape, hrules, hsame⟩
  have hquiet : (perform (.configure config) c').IsQuiet := hmatches.isQuiet_configure henable
  refine ⟨hquiet, fun answer hanswer ↦ ?_⟩
  intro again
  have hends : (perform (.configure config) c').Ends (fun q a w w' ↦
      ShapedNamespace.Answers q a w w' ∧ (q.isOperation = false → q.Granted a))
      w' again.1 again.2 := Program.ends_run answer hanswer _ _
  obtain ⟨⟨o, c''⟩, w''⟩ := again
  have hgranted : (configure config c').Ends granting w' (o, c'') w'' :=
    (hends.restrict hquiet).map id fun q a w w' h ↦ h.2.2 h.1
  obtain rfl := hmatches.ends_configure_granting hopen' hvalid
    (TrafficControl.plan_eq_ok_iff.mp ⟨commands, hplan⟩) hgranted
  have hanswers : (configure config c').Ends ShapedNamespace.Answers w' (.ok (), c'') w'' :=
    hends.map id fun q a w w' h ↦ h.1
  rcases ends_configure hanswers with ⟨e, -, he, -⟩ | ⟨-, hagain⟩
  · exact absurd he nofun
  rw [if_pos henable] at hagain
  obtain ⟨rfl, -⟩ := hmatches.ends_converge hagain
  refine ⟨rfl, fun r ↦ ?_, ?_⟩
  · exact hmatches.ends_converge_table (hforeign.external active hactive) htable
      (ShapedNamespace.ends_toNamespace hagain)
  · exact hmatches.ends_converge_trees hplan htree (ShapedNamespace.ends_trees hagain)

theorem granted_building (q : Effect) (w : ShapedNamespace) : q.Granted (building q w).1 := by
  cases q with
  | trafficControl => rfl
  | _ => exact granted_obliging _ w.toNamespace

/-- The filters are for the destinations of a captured route and of an exception, so each call
takes the places of these two and gives them back. -/
theorem configure_again_with_shared_places :
    let earlier := { NetworkConfig.enabled "default" with
      shape := { filter := .drop }
      policy := { action := .allow, exceptions := [.ofOctets 10 0 0 0 8] } }
    let config := { NetworkConfig.enabled "default" with
      ipv4 := some (.ofOctets 16 0 1 5 16)
      rules := [⟨.ofOctets 172 17 0 0 16, { filter := .reject }⟩,
        ⟨.ofOctets 8 8 8 0 24, { filter := .drop }⟩]
      policy := { action := .deny, exceptions := [.ofOctets 8 8 8 0 24] } }
    let first := outcome earlier fresh unshaped
    let second := outcome config first.1.2 first.2
    let again := outcome config second.1.2 second.2
    second.1.1 = .ok () ∧ (perform (.configure config) second.1.2).IsQuiet ∧
      again.1 = (.ok (), second.1.2) ∧ (∀ r, r ∈ again.2.table ↔ r ∈ second.2.table) ∧
        again.2.trees = second.2.trees := by
  intro earlier config
  -- stated for any two runs, since those below are too large for the unifier
  have hruns (first second : (Outcome Unit × Configurator) × ShapedNamespace)
      (hfirst : outcome earlier fresh unshaped = first)
      (hsecond : outcome config first.1.2 first.2 = second) (hok : second.1.1 = .ok ())
      (haddress : ∀ active ∈ second.1.2.active, ∀ wanted ∈ config.ipv4,
        (second.2.firstAddress active.link.link).map (·.address) = some wanted.address) :
      let again := outcome config second.1.2 second.2
      (perform (.configure config) second.1.2).IsQuiet ∧ again.1 = (.ok (), second.1.2) ∧
        (∀ r, r ∈ again.2.table ↔ r ∈ second.2.table) ∧ again.2.trees = second.2.trees := by
    have hends₁ := ends_building earlier fresh unshaped
    have hends₂ := ends_building config first.1.2 first.2
    rw [hfirst] at hends₁
    rw [hsecond] at hends₂
    clear hfirst hsecond
    obtain ⟨⟨o₁, c₁⟩, w₁⟩ := first
    obtain ⟨⟨o₂, c₂⟩, w₂⟩ := second
    cases hok
    have hreach : Reaches ShapedNamespace.Answers fresh unshaped c₁ w₁ := .call _ .start hends₁
    obtain ⟨hquiet, hagain⟩ := configure_again isNew_fresh hreach rfl hends₂ haddress
    exact ⟨hquiet, hagain building fun q w ↦
      ⟨answers_building q w, fun _ ↦ granted_building q w⟩⟩
  intro first second
  have hok : second.1.1 = .ok () := by decide +kernel
  have haddress : ∀ active ∈ second.1.2.active, ∀ wanted ∈ config.ipv4,
      (second.2.firstAddress active.link.link).map (·.address) = some wanted.address := by
    decide +kernel
  exact ⟨hok, hruns first second rfl rfl hok haddress⟩

end Configurator

end ContainerNet
