import ContainerNet.Proofs.Configurator.ControlPlane
import ContainerNet.Proofs.Route.Reconciliation

/-!
# The uplink of a container

The default route that a namespace starts with is taken out of the table under a policy that denies,
and put back under one that allows. `default_routes_iff` says what has become of it after a call:
the default routes of the table are those that the policy asks for exactly when the policy denies,
or the default route that was captured with the attached interface is the one from the start.

This is so whenever the plugins are tidy, that is, detaching leaves no default route through the
interface that goes. Otherwise the route that comes back with a filter for all destinations can be
left behind, and it is captured in the place of the uplink (`uplink_lost`).

## The invariant

A default route that is not managed is the uplink or leads through a data interface (`IsFine`). With
tidy plugins the second kind is there only while the network is online, and the uplink is in the
table until it is remembered (`Recalls`). So what is captured when the network comes online is the
uplink.
-/

namespace ContainerNet

variable {r : Route}

/-! ## Default routes of a policy -/

namespace ExternalRoutes

variable {e : ExternalRoutes} {p : RoutingPolicy} {t : RouteTable}

/-- Without exceptions for all destinations, the only default route of a policy is the uplink. -/
theorem mem_derive_of_isDefault (he : e.IsCaptured) (hp : ∀ x ∈ p.exceptions, x.isDefault = false)
    (hr : r.isDefault = true) : r ∈ e.derive p ↔ p.action = .allow ∧ e.uplink = some r := by
  rw [mem_derive]
  constructor
  · rintro (hbase | huplink | ⟨x, hx, hexception⟩)
    · rw [he.specific r hbase] at hr
      exact absurd hr Bool.false_ne_true
    · exact huplink
    · have hspecific : x.truncate.isDefault = false := hp x hx
      rw [Route.isDefault, destination_of_exception hexception, hspecific] at hr
      exact absurd hr Bool.false_ne_true
  · exact fun h ↦ .inr (.inl h)

theorem mem_of_uplink_ofRoutes {linkIndex : Nat} {u : Route}
    (h : (ofRoutes linkIndex t).uplink = some u) :
    u ∈ t ∧ u.isDefault = true ∧ u.isManaged = false ∧ u.kind = .unicast := by
  have hmem := List.mem_of_find?_eq_some h
  simp only [List.mem_filter, Bool.and_eq_true, Bool.not_eq_true', beq_iff_eq] at hmem
  exact ⟨hmem.1, List.find?_some h, hmem.2⟩

theorem not_foreign_of_uplink_ofRoutes {linkIndex : Nat} (h : (ofRoutes linkIndex t).uplink = none)
    (hr : r ∈ t) : ¬(r.isDefault = true ∧ r.isManaged = false ∧ r.kind = .unicast) := by
  rintro ⟨hdefault, hunmanaged, hunicast⟩
  have hforeign : r ∈ t.filter fun r ↦ !r.isManaged && r.kind == .unicast :=
    List.mem_filter.mpr ⟨hr, by simp [hunmanaged, hunicast]⟩
  exact List.find?_eq_none.mp h r hforeign hdefault

/-- The only default route of a table that is in line with a policy is the uplink, if the policy
allows and no filter route keeps it out. -/
theorem mem_policyChanges_of_isDefault (he : e.IsCaptured)
    (hp : ∀ x ∈ p.exceptions, x.isDefault = false) (hr : r.isDefault = true) :
    r ∈ t.changeAll (e.policyChanges p t) ↔ (p.action = .allow ∧ e.uplink = some r) ∧
      (r.interface ≠ some e.linkIndex ∨
        ∀ s ∈ t, s.origin = .rules → s.destination ≠ r.destination) := by
  rw [← mem_derive_of_isDefault he hp hr, ← mem_desired, mem_changeAll_policyChanges]
  have hdesired {s : Route} (hs : s ∈ RouteTable.changeAll [] ((e.desired p t).map .put)) :
      s ∈ e.desired p t :=
    (RouteTable.mem_or_of_mem_changeAll_put hs).resolve_right fun h ↦ absurd h.1 List.not_mem_nil
  constructor
  · rintro (hput | ⟨-, -, hspecific, -⟩)
    · exact hdesired hput
    · rw [hspecific] at hr
      exact absurd hr Bool.false_ne_true
  · intro hwanted
    obtain ⟨s, hs, hkey⟩ := RouteTable.exists_sameKey_of_put (t := []) hwanted
    -- what takes the place of a wanted default route is one itself, and there is but one
    have hsdefault : s.isDefault = true := by
      rw [Route.isDefault, ← (Route.sameKey_iff.mp hkey).1]
      exact hr
    obtain ⟨-, huplink⟩ := (mem_derive_of_isDefault he hp hr).mp (mem_desired.mp hwanted).1
    obtain ⟨-, huplink'⟩ :=
      (mem_derive_of_isDefault he hp hsdefault).mp (mem_desired.mp (hdesired hs)).1
    rw [huplink'] at huplink
    cases huplink
    exact .inl hs

end ExternalRoutes

/-! ## Programs that put in certain routes -/

/-- Whether a request concerns no plugin, and puts in no route but those of a kind. -/
def Effect.Puts (P : Route → Prop) : Effect → Prop
  | .attach _ _ _ _ | .detach _ _ => False
  | .replaceRoute r => P r
  | _ => True

abbrev Action.PutsOnly {α : Type} (P : Route → Prop) (p : Action α) : Prop := p.Only (Effect.Puts P)

section PutsOnly

variable {P : Route → Prop}

theorem RouteChange.putsOnly_performAll {changes : List RouteChange}
    (h : ∀ r, .put r ∈ changes → P r) : (performAll changes).PutsOnly P := by
  induction changes with
  | nil => exact Program.only_done
  | cons c rest ih =>
    refine Program.Only.bind ?_ fun outcome ↦ ?_
    · cases c with
      | put r => exact ⟨h r List.mem_cons_self, fun _ ↦ Program.only_done⟩
      | remove r => exact ⟨trivial, fun _ ↦ Program.only_done⟩
    · cases outcome with
      | error e => exact Program.only_done
      | ok => exact ih fun r hr ↦ h r (List.mem_cons_of_mem _ hr)

theorem Action.putsOnly_logAll (entries : List Log.Entry) : (logAll entries).PutsOnly P := by
  induction entries with
  | nil => exact Program.only_done
  | cons e rest ih => exact ⟨trivial, fun _ ↦ ih⟩

theorem ExternalRoutes.putsOnly_enforce {e : ExternalRoutes} {p : RoutingPolicy}
    (h : ∀ r ∈ e.derive p, P r) : (e.enforce p).PutsOnly P := by
  refine ⟨trivial, fun answer ↦ ?_⟩
  rcases (answer : Outcome RouteTable) with fault | table
  · exact Program.only_done
  refine (Action.putsOnly_logAll _).bind fun _ ↦ RouteChange.putsOnly_performAll fun r hr ↦ ?_
  rcases List.mem_append.mp hr with hstale | hput
  · simp at hstale
  · obtain ⟨s, hs, heq⟩ := List.mem_map.mp hput
    cases heq
    exact h r (mem_desired.mp hs).1

theorem isManaged_or_connected_of_put {link : Link} {default : FilterAction} {own : List Subnet}
    {rules : List Rule} {t : RouteTable} (h : .put r ∈ filterChanges link default own rules t) :
    r.isManaged = true ∨ ∃ net, r = Route.connected net link.index := by
  rcases put_mem_filterChanges.mp h with hwanted | hback
  · exact .inl (by simp [Route.isManaged, origin_of_mem_filterRoutes hwanted])
  · obtain ⟨net, -, -, -, rfl⟩ := mem_restoredRoutes.mp hback
    exact .inr ⟨net, rfl⟩

theorem ShapedLink.putsOnly_install {l : ShapedLink}
    (h : ∀ r : Route, (r.isManaged = true ∨ ∃ net, r = Route.connected net l.link.index) → P r) :
    l.install.PutsOnly P := by
  rw [install]
  split
  · exact Program.only_done
  refine ⟨trivial, fun answer ↦ ?_⟩
  rcases (answer : Outcome Unit) with fault | ⟨⟩
  · exact Program.only_done
  refine Program.Only.bind ⟨trivial, fun _ ↦ Program.only_done⟩ fun listed ↦ ?_
  cases listed with
  | error e => exact Program.only_done
  | ok nets =>
    refine ⟨trivial, fun answer ↦ ?_⟩
    rcases (answer : Outcome RouteTable) with fault | table
    · exact Program.only_done
    · exact RouteChange.putsOnly_performAll fun r hr ↦ h r (isManaged_or_connected_of_put hr)

end PutsOnly

/-! ## Plugins that leave the uplink alone -/

/-- A default route that others put there, and the indices that the data interface may get. -/
structure Uplink where
  route : Route
  isData : Nat → Prop
  isDefault : route.isDefault = true
  isManaged : route.isManaged = false
  unicast : route.kind = .unicast
  apart : ∀ i, isData i → route.interface ≠ some i

namespace Uplink

variable (w : Uplink)

/-- Whether a route leads through a data interface. -/
def IsThrough (r : Route) : Prop := ∃ i, w.isData i ∧ r.interface = some i

/-- If the route is a default route that others put there, it is the uplink or leads through a data
interface. -/
def IsFine (r : Route) : Prop :=
  r.isDefault = true → r.isManaged = false → r.kind = .unicast → r = w.route ∨ w.IsThrough r

/-- Attaching adds no default route, and detaching takes out nothing but routes through data
interfaces. Tidy plugins keep the uplink when they attach, and leave no default route through a data
interface when they have detached. -/
def Spares (tidy : Prop) : (q : Effect) → q.Answer → Namespace → Namespace → Prop
  | .linkByName _, answer, _, _ =>
    ∀ link, answer = (.ok (some link) : Outcome (Option Link)) → w.isData link.index
  | .attach _ _ _ _, _, n, n' =>
    (∀ r ∈ n'.table, r.isDefault = true → r ∈ n.table) ∧
      (tidy → w.route ∈ n.table → w.route ∈ n'.table)
  | .detach _ _, answer, n, n' =>
    (∀ r ∈ n'.table, r ∈ n.table) ∧ (∀ r ∈ n.table, r ∉ n'.table → w.IsThrough r) ∧
      (tidy → answer = (.ok () : Outcome Unit) →
        ∀ r ∈ n'.table, r.isDefault = true → ¬w.IsThrough r)
  | _, _, _, _ => True

/-- A namespace with such plugins. -/
def World (tidy : Prop) (q : Effect) (answer : q.Answer) (n n' : Namespace) : Prop :=
  Namespace.Answers q answer n n' ∧ w.Spares tidy q answer n n'

/-- The default routes of a table are those of a policy: the uplink if it allows, or none. -/
def HasDefaults (t : RouteTable) (action : PolicyAction) : Prop :=
  ∀ r, r ∈ t ∧ r.isDefault = true ↔ action = .allow ∧ r = w.route

variable {w} {tidy : Prop}

theorem hasDefaults_allow {t : RouteTable} (hmem : w.route ∈ t)
    (h : ∀ r ∈ t, r.isDefault = true → r = w.route) : w.HasDefaults t .allow := by
  intro r
  constructor
  · rintro ⟨hr, hdefault⟩
    exact ⟨rfl, h r hr hdefault⟩
  · rintro ⟨-, rfl⟩
    exact ⟨hmem, w.isDefault⟩

theorem not_isThrough_route : ¬w.IsThrough w.route := by
  rintro ⟨i, hi, hroute⟩
  exact w.apart i hi hroute

theorem isFine_of_isManaged (h : r.isManaged = true) : w.IsFine r := by
  intro _ hunmanaged
  rw [h] at hunmanaged
  exact absurd hunmanaged.symm Bool.false_ne_true

theorem isFine_connected {net : Subnet} {i : Nat} (hi : w.isData i) :
    w.IsFine (Route.connected net i) := fun _ _ _ ↦ .inr ⟨i, hi, rfl⟩

/-- Of the routes of a policy none is a default route that others put there, but for the one that
was captured. -/
theorem isFine_of_mem_derive {e : ExternalRoutes} {p : RoutingPolicy}
    (hbaseline : ∀ b ∈ e.baseline, b.isDefault = false)
    (huplink : ∀ u ∈ e.uplink, u = w.route ∨ w.IsThrough u) (hr : r ∈ e.derive p) :
    w.IsFine r := by
  rcases ExternalRoutes.mem_derive.mp hr with hbase | ⟨-, hu⟩ | ⟨x, -, hexception⟩
  · intro hdefault
    rw [hbaseline r hbase] at hdefault
    exact absurd hdefault Bool.false_ne_true
  · exact fun _ _ _ ↦ huplink r hu
  · refine isFine_of_isManaged ?_
    obtain ⟨-, ⟨-, rfl⟩ | ⟨-, u, -, rfl⟩⟩ := ExternalRoutes.exception_eq_route_iff.mp hexception
    · rfl
    · rfl

theorem fine_of_putsOnly {α : Type} {p : Action α} {a : α} {n n' : Namespace}
    (hp : p.PutsOnly w.IsFine) (hends : p.Ends (w.World tidy) n a n')
    (hn : ∀ r ∈ n.table, w.IsFine r) : ∀ r ∈ n'.table, w.IsFine r := by
  refine hends.invariant (I := fun n ↦ ∀ r ∈ n.table, w.IsFine r) hp ?_ hn
  rintro q answer n n' hq ⟨hanswer, -⟩ hn
  cases q with
  | attach | detach => exact absurd hq id
  | replaceRoute r =>
    rcases (answer : Outcome Unit) with e | ⟨⟩
    · obtain rfl : n' = n := hanswer
      exact hn
    · obtain rfl : n' = { n with table := n.table.replace r } := hanswer
      intro s hs
      rcases RouteTable.mem_replace.mp hs with rfl | ⟨hs, -⟩
      · exact hq
      · exact hn s hs
  | deleteRoute r =>
    rcases (answer : Outcome Unit) with e | ⟨⟩
    · obtain rfl : n' = n := hanswer
      exact hn
    · obtain rfl : n' = { n with table := n.table.delete r } := hanswer
      exact fun s hs ↦ hn s (RouteTable.mem_delete.mp hs).1
  | routes | addresses =>
    obtain ⟨rfl, -⟩ := hanswer
    exact hn
  | linkByName | trafficControl | closeKernel | isCancelled | pause | log =>
    obtain rfl : n' = n := hanswer
    exact hn

end Uplink

namespace Configurator

open Namespace (Answers)

variable {w : Uplink} {tidy : Prop} {c c' : Configurator} {n n' : Namespace} {o : Outcome Unit}
  {config : NetworkConfig}

/-! ## The invariant -/

/-- Default routes that others put there, remembered ones included, are the uplink or lead through a
data interface. -/
structure IsFine (w : Uplink) (c : Configurator) (n : Namespace) : Prop where
  table : ∀ r ∈ n.table, w.IsFine r
  isData : ∀ active ∈ c.active, w.isData active.link.link.index
  specific : ∀ active ∈ c.active, ∀ b ∈ active.external.baseline, b.isDefault = false
  captured : ∀ active ∈ c.active, ∀ u ∈ active.external.uplink, u = w.route ∨ w.IsThrough u
  uplink : ∀ u ∈ c.uplink, u = w.route ∨ w.IsThrough u

/-- The uplink is remembered, or it is in the table and the network was never online. While it is
offline no default route leads through a data interface. -/
structure Recalls (w : Uplink) (c : Configurator) (n : Namespace) : Prop where
  uplink : ∀ u ∈ c.uplink, u = w.route
  captured : ∀ active ∈ c.active, active.external.uplink = some w.route
  unknown : c.uplink = none → c.active = none ∧ w.route ∈ n.table
  clear : c.active = none → ∀ r ∈ n.table, r.isDefault = true → ¬w.IsThrough r

/-- Both, the second for tidy plugins. -/
structure Knows (w : Uplink) (tidy : Prop) (c : Configurator) (n : Namespace) : Prop where
  isFine : c.IsFine w n
  recalls : tidy → c.Recalls w n

variable {active : ActiveLink}

/-- While the network is online the uplink is not looked for in the table. -/
theorem Recalls.of_online (hc : c.Recalls w n) (hactive : c.active = some active) (n' : Namespace) :
    c.Recalls w n' := by
  refine ⟨hc.uplink, hc.captured, fun hunknown ↦ ?_, fun hoffline ↦ ?_⟩
  · rw [(hc.unknown hunknown).1] at hactive
    exact absurd hactive nofun
  · rw [hoffline] at hactive
    exact absurd hactive nofun

theorem Knows.of_online (hc : c.Knows w tidy n) (hactive : c.active = some active)
    (hn' : ∀ r ∈ n'.table, w.IsFine r) : c.Knows w tidy n' :=
  ⟨{ hc.isFine with table := hn' }, fun htidy ↦ (hc.recalls htidy).of_online hactive n'⟩

theorem Knows.offline (hc : c.Knows w tidy n) (hactive : c.active = some active)
    (hn' : ∀ r ∈ n'.table, r ∈ n.table)
    (hclear : tidy → ∀ r ∈ n'.table, r.isDefault = true → ¬w.IsThrough r) :
    ({ c with active := none } : Configurator).Knows w tidy n' := by
  refine ⟨⟨fun r hr ↦ hc.isFine.table r (hn' r hr), by simp, by simp, by simp, hc.isFine.uplink⟩,
    fun htidy ↦ ⟨(hc.recalls htidy).uplink, by simp, fun hunknown ↦ ?_, fun _ ↦ hclear htidy⟩⟩
  rw [((hc.recalls htidy).unknown hunknown).1] at hactive
  exact absurd hactive nofun

theorem Knows.noteWarnings (hc : c.Knows w tidy n) (warnings : List ConfigureWarning) :
    ({ c with warnings } : Configurator).Knows w tidy n :=
  ⟨⟨hc.isFine.table, hc.isFine.isData, hc.isFine.specific, hc.isFine.captured, hc.isFine.uplink⟩,
    fun htidy ↦ ⟨(hc.recalls htidy).uplink, (hc.recalls htidy).captured,
      (hc.recalls htidy).unknown, (hc.recalls htidy).clear⟩⟩

theorem Knows.setLink (hc : c.Knows w tidy n) (hactive : c.active = some active)
    {link : ShapedLink} (hlink : link.link = active.link.link) :
    (c.setLink active link).Knows w tidy n := by
  refine ⟨⟨hc.isFine.table, ?_, ?_, ?_, hc.isFine.uplink⟩, fun htidy ↦ ?_⟩
  · rintro _ ⟨⟩
    exact hlink ▸ hc.isFine.isData active hactive
  · rintro _ ⟨⟩
    exact hc.isFine.specific active hactive
  · rintro _ ⟨⟩
    exact hc.isFine.captured active hactive
  · have hrecalls := hc.recalls htidy
    refine ⟨hrecalls.uplink, ?_, fun hunknown ↦ ?_, fun hoffline ↦ absurd hoffline nofun⟩
    · rintro _ ⟨⟩
      exact hrecalls.captured active hactive
    · rw [(hrecalls.unknown hunknown).1] at hactive
      exact absurd hactive nofun

theorem Knows.bringOnline (hc : c.Knows w tidy n) (hactive : c.active = none) {link : Link}
    (hlink : w.isData link.index) (addresses : List Subnet) (list : Plugin.ConfigList) :
    (c.bringOnline { link } addresses list (.ofRoutes link.index n.table)).Knows w tidy n := by
  have hcaptured : ∀ u ∈ ((ExternalRoutes.ofRoutes link.index n.table).orUplink c.uplink).uplink,
      u = w.route ∨ w.IsThrough u := by
    intro u hu
    rcases Option.or_eq_some_iff.mp hu with hfound | ⟨-, hu⟩
    · obtain ⟨hmem, hforeign⟩ := ExternalRoutes.mem_of_uplink_ofRoutes hfound
      exact hc.isFine.table u hmem hforeign.1 hforeign.2.1 hforeign.2.2
    · exact hc.isFine.uplink u hu
  refine ⟨⟨hc.isFine.table, ?_, ?_, ?_, ?_⟩, fun htidy ↦ ?_⟩
  · rintro _ ⟨⟩
    exact hlink
  · rintro _ ⟨⟩
    exact (ExternalRoutes.isCaptured_ofRoutes link.index n.table).specific
  · rintro _ ⟨⟩
    exact hcaptured
  · intro u hu
    rcases Option.or_eq_some_iff.mp hu with hu | ⟨-, hu⟩
    · exact hc.isFine.uplink u hu
    · exact hcaptured u hu
  · have hrecalls := hc.recalls htidy
    have huplink : ((ExternalRoutes.ofRoutes link.index n.table).orUplink c.uplink).uplink =
        some w.route := by
      cases hfound : (ExternalRoutes.ofRoutes link.index n.table).uplink with
      | some u =>
        -- it is in the table while the network is offline, so it is not one of the other kind
        obtain ⟨hmem, hdefault, hunmanaged, hunicast⟩ :=
          ExternalRoutes.mem_of_uplink_ofRoutes hfound
        have hnot := hrecalls.clear hactive u hmem hdefault
        have heq := (hc.isFine.table u hmem hdefault hunmanaged hunicast).resolve_right hnot
        rw [ExternalRoutes.orUplink, hfound, heq, Option.some_or]
      | none =>
        rw [ExternalRoutes.orUplink, hfound, Option.none_or]
        cases hknown : c.uplink with
        | some u => rw [hrecalls.uplink u hknown]
        | none =>
          have hmem := (hrecalls.unknown hknown).2
          exact absurd ⟨w.isDefault, w.isManaged, w.unicast⟩
            (ExternalRoutes.not_foreign_of_uplink_ofRoutes hfound hmem)
    have hknown : c.uplink.or ((ExternalRoutes.ofRoutes link.index n.table).orUplink
        c.uplink).uplink = some w.route := by
      cases hknown : c.uplink with
      | some u => rw [Option.some_or, hrecalls.uplink u hknown]
      | none => rw [← hknown, huplink, hknown, Option.none_or]
    refine ⟨fun u hu ↦ ?_, ?_, fun hunknown ↦ ?_, fun hoffline ↦ absurd hoffline nofun⟩
    · exact (Option.some.inj (hknown.symm.trans hu)).symm
    · rintro _ ⟨⟩
      exact huplink
    · exact absurd (hknown.symm.trans hunknown) nofun

/-! ## The steps of a call -/

theorem knows_detach : Step.Keeps (w.World tidy) (Knows w tidy) detach := by
  intro c c' n n' o hends hc
  rcases ends_detach hends with
    ⟨-, -, rfl, rfl⟩ | ⟨active, answer, hactive, ⟨-, hless, -, hclear⟩, hrest⟩
  · exact hc
  rcases hrest with ⟨rfl, -, rfl⟩ | ⟨e, -, -, rfl⟩
  · exact hc.offline hactive hless fun htidy ↦ hclear htidy rfl
  · exact hc.of_online hactive fun r hr ↦ hc.isFine.table r (hless r hr)

theorem knows_attachList {list : Plugin.ConfigList} {runtime : Plugin.Runtime} {p : RetryPolicy}
    {result : Outcome Plugin.Result}
    (hends : (list.attach runtime p).Ends (w.World tidy) n result n') (hc : c.Knows w tidy n)
    (hactive : c.active = none) : c.Knows w tidy n' := by
  have hattach {earlier within answer} {s t : Namespace}
      (hworld : w.World tidy (.attach list runtime earlier within) answer s t)
      (hs : c.Knows w tidy s) : c.Knows w tidy t := by
    obtain ⟨-, hless, hkept⟩ := hworld
    refine ⟨{ hs.isFine with table := fun r hr hdefault ↦ ?_ }, fun htidy ↦ ?_⟩
    · exact hs.isFine.table r (hless r hr hdefault) hdefault
    · have hrecalls := hs.recalls htidy
      exact ⟨hrecalls.uplink, hrecalls.captured,
        fun hunknown ↦ ⟨hactive, hkept htidy (hrecalls.unknown hunknown).2⟩,
        fun _ r hr hdefault ↦ hrecalls.clear hactive r (hless r hr hdefault) hdefault⟩
  have hleaves := Plugin.ConfigList.ends_attach (P := c.Knows w tidy)
    (R := fun _ ↦ c.Knows w tidy) ?_ ?_ ?_ ?_ ?_ hends hc
  · cases result with
    | error e => exact hleaves
    | ok a => exact hleaves
  · rintro answer s t ⟨rfl, -⟩ hs
    exact hs
  · rintro length within answer s t ⟨rfl, -⟩ hs
    exact hs
  · rintro entry answer s t ⟨rfl, -⟩ hs
    exact hs
  · intro earlier within took result s t hworld hs
    cases result with
    | error e => exact hattach hworld hs
    | ok a => exact hattach hworld hs
  · intro earlier within answer s t hworld _ hs
    exact hattach hworld hs

theorem knows_inspect {list : Plugin.ConfigList}
    (hends : (inspect list c).Ends (w.World tidy) n (o, c') n') (hc : c.Knows w tidy n)
    (hactive : c.active = none) : c'.Knows w tidy n' := by
  obtain ⟨found, u, ⟨rfl, hdata⟩, hrest⟩ := ends_inspect hends
  rcases hrest with ⟨e, -, -, rfl, rfl⟩ | ⟨link, listed, v, rfl, ⟨⟨rfl, -⟩, -⟩, hrest⟩
  · exact hc
  rcases hrest with
    ⟨e, -, -, rfl, rfl⟩ | ⟨nets, c₁, x, snapshot, -, hnote, ⟨⟨rfl, htable⟩, -⟩, hrest⟩
  · exact hc
  obtain ⟨warnings, rfl, hlog⟩ := ends_noteAddresses hnote
  have hsame : n' = v := by
    rcases hlog with rfl | ⟨entry, rfl, -⟩
    · rfl
    · rfl
  subst hsame
  rcases hrest with ⟨e, -, -, rfl⟩ | ⟨table, rfl, -, rfl⟩
  · exact hc.noteWarnings warnings
  · rw [htable table rfl]
    exact (hc.noteWarnings warnings).bringOnline hactive (hdata link rfl) _ _

theorem knows_attach (wanted : Option Subnet) :
    Step.Keeps (w.World tidy) (Knows w tidy) (attach wanted) := by
  intro c c' n n' o hends hc
  rcases ends_attach hends with ⟨-, -, rfl, rfl⟩ | ⟨hoffline, list, result, u, -, hattach, hrest⟩
  · exact hc
  have hactive : c.active = none := by simpa [isOnline] using hoffline
  have hu := knows_attachList hattach hc hactive
  rcases hrest with ⟨e, -, -, rfl, rfl⟩ | ⟨a, -, hinspect⟩
  · exact hu
  · exact knows_inspect hinspect hu hactive

theorem knows_update (checked : Outcome Unit) {change : ShapedLink → ShapedLink}
    (hchange : ∀ l, (change l).link = l.link) :
    Step.Keeps (w.World tidy) (Knows w tidy) (onLink fun l ↦ l.update checked (change l)) := by
  intro c c' n n' o hends hc
  rcases ends_onLink hends with ⟨-, -, rfl, rfl⟩ | ⟨active, link, hactive, hset, rfl⟩
  · exact hc
  rcases ShapedLink.ends_update hset with ⟨e, -, -, rfl, rfl⟩ | ⟨rfl, hinstall⟩
  · exact hc.setLink hactive rfl
  · -- the connected routes that come back lead through the data interface
    have hputs : (change active.link).install.PutsOnly w.IsFine := by
      refine ShapedLink.putsOnly_install fun r hr ↦ ?_
      rcases hr with hmanaged | ⟨net, rfl⟩
      · exact Uplink.isFine_of_isManaged hmanaged
      · rw [hchange]
        exact Uplink.isFine_connected (hc.isFine.isData active hactive)
    exact (hc.of_online hactive (Uplink.fine_of_putsOnly hputs hinstall hc.isFine.table)).setLink
      hactive (hchange _)

theorem knows_applyPolicy (config : NetworkConfig) :
    Step.Keeps (w.World tidy) (Knows w tidy) (applyPolicy config) := by
  intro c c' n n' o hends hc
  rcases ends_applyPolicy hends with ⟨-, -, rfl, rfl⟩ | ⟨active, hactive, rfl, henforce⟩
  · exact hc
  have hputs : (active.external.enforce config.policy).PutsOnly w.IsFine :=
    ExternalRoutes.putsOnly_enforce fun r hr ↦ Uplink.isFine_of_mem_derive
      (hc.isFine.specific active hactive) (hc.isFine.captured active hactive) hr
  exact hc.of_online hactive (Uplink.fine_of_putsOnly hputs henforce hc.isFine.table)

theorem knows_perform (k : Call) : Step.Keeps (w.World tidy) (Knows w tidy) (perform k) := by
  refine keeps_perform knows_detach knows_attach (fun checked change ↦ knows_update checked)
    knows_applyPolicy ?_ k
  rintro c n n' ⟨hsame, -⟩ hc
  obtain rfl : n' = n := hsame
  exact ⟨⟨hc.isFine.table, hc.isFine.isData, hc.isFine.specific, hc.isFine.captured,
    hc.isFine.uplink⟩, fun htidy ↦ ⟨(hc.recalls htidy).uplink, (hc.recalls htidy).captured,
      (hc.recalls htidy).unknown, (hc.recalls htidy).clear⟩⟩

theorem Reaches.knows {start : Configurator} {n₀ : Namespace} (hnew : start.IsNew)
    (hn₀ : w.HasDefaults n₀.table .allow) (hreach : Reaches (w.World tidy) start n₀ c n) :
    c.Knows w tidy n := by
  refine Reaches.invariant ⟨⟨?_, ?_, ?_, ?_, ?_⟩, fun _ ↦ ⟨?_, ?_, ?_, ?_⟩⟩ knows_perform hreach
  · exact fun r hr hdefault _ _ ↦ .inl ((hn₀ r).mp ⟨hr, hdefault⟩).2
  · simp [hnew.offline]
  · simp [hnew.offline]
  · simp [hnew.offline]
  · simp [hnew.no_uplink]
  · simp [hnew.no_uplink]
  · simp [hnew.offline]
  · exact fun _ ↦ ⟨hnew.offline, ((hn₀ w.route).mpr ⟨rfl, rfl⟩).1⟩
  · intro _ r hr hdefault
    rw [((hn₀ r).mp ⟨hr, hdefault⟩).2]
    exact Uplink.not_isThrough_route

/-! ## Calls that enable the network -/

/-- **What becomes of the uplink.** After every call of every run that enables the network and
succeeds, and whose policy has no exception for all destinations: the default routes of the table
are those of the policy exactly when it denies or the default route that was captured with the
attached network is the uplink. What was captured is the uplink or leads through a data interface,
and with tidy plugins it is the uplink. -/
theorem default_routes_iff {start : Configurator} {n₀ : Namespace} (hnew : start.IsNew)
    (hn₀ : w.HasDefaults n₀.table .allow) (hreach : Reaches (w.World tidy) start n₀ c n)
    (henable : config.enable = true)
    (hexceptions : ∀ x ∈ config.policy.exceptions, x.isDefault = false)
    (hcall : (perform (.configure config) c).Ends (w.World tidy) n (.ok (), c') n') :
    ∃ active ∈ c'.active,
      (w.HasDefaults n'.table config.policy.action ↔
        (config.policy.action = .allow → active.external.uplink = some w.route)) ∧
      (∀ u ∈ active.external.uplink, u = w.route ∨ w.IsThrough u) ∧
      (tidy → active.external.uplink = some w.route) := by
  have hreach' := hreach.call _ hcall
  have hknows : c'.Knows w tidy n' := hreach'.knows hnew hn₀
  have hsound : c'.Sound := hreach'.sound hnew
  rcases ends_configure hcall with ⟨e, -, he, -⟩ | ⟨-, hconverge⟩
  · exact absurd he nofun
  rw [if_pos henable] at hconverge
  have hanswers : (converge config c).Ends Answers n (.ok (), c') n' :=
    hconverge.map id fun _ _ _ _ h ↦ h.1
  obtain ⟨active, n₁, hactive, -, -, rfl⟩ := ends_converge_ok hanswers
  refine ⟨active, hactive, ?_, hknows.isFine.captured active hactive,
    fun htidy ↦ (hknows.recalls htidy).captured active hactive⟩
  have hdefault {r : Route} (hr : r.isDefault = true) :=
    ExternalRoutes.mem_policyChanges_of_isDefault (t := (n₁.withFilters active.link).table)
      (hsound.isCaptured active hactive) hexceptions hr
  have hapart : w.route.interface ≠ some active.external.linkIndex := by
    rw [hsound.linkIndex_eq active hactive]
    exact w.apart _ (hknows.isFine.isData active hactive)
  constructor
  · intro hdefaults hallow
    obtain ⟨hmem, hr⟩ := (hdefaults w.route).mpr ⟨hallow, rfl⟩
    exact ((hdefault hr).mp hmem).1.2
  · intro huplink r
    constructor
    · rintro ⟨hmem, hr⟩
      obtain ⟨⟨hallow, hcaptured⟩, -⟩ := (hdefault hr).mp hmem
      rw [huplink hallow] at hcaptured
      exact ⟨hallow, (Option.some.inj hcaptured).symm⟩
    · rintro ⟨hallow, rfl⟩
      exact ⟨(hdefault w.isDefault).mpr ⟨⟨hallow, huplink hallow⟩, .inl hapart⟩, w.isDefault⟩

/-! ## Two runs -/

/-- The default route of `bridged`, where the data interface gets index 7. -/
def bridgedUplink : Uplink where
  route :=
    { destination := .ofOctets 0 0 0 0 0, gateway := some (.ofOctets 172 17 0 1),
      interface := some 2 }
  isData := (· = 7)
  isDefault := by decide
  isManaged := by decide
  unicast := rfl
  apart := by
    rintro i rfl
    decide

/-- The answer to a read of a table that may fail. -/
def reading (fails : Bool) (t : RouteTable) : Outcome RouteTable :=
  if fails then .error (.backend "busy") else .ok t

theorem eq_of_reading {fails : Bool} {t t' : RouteTable} (h : reading fails t = .ok t') :
    t' = t := by
  cases fails with
  | true => exact absurd h nofun
  | false => exact (Except.ok.inj h).symm

/-- Answers everything with success but for reads of the table, of which those fail that a list
tells. Detaching leaves the routes that are given. -/
def stumbling (stays : Route → Bool) (q : Effect) (s : Namespace × List Bool) :
    q.Answer × Namespace × List Bool :=
  match q with
  | .routes => (reading (s.2.headD false) s.1.table, s.1, s.2.tail)
  | .detach _ _ =>
    ((.ok () : Outcome Unit), { s.1 with table := s.1.table.filter stays }, s.2)
  | q => ((obliging q s.1).1, (obliging q s.1).2, s.2)

theorem world_stumbling (tidy : Prop) (stays : Route → Bool)
    (hgone : ∀ r, stays r = false → bridgedUplink.IsThrough r)
    (htidy : tidy → ∀ r, stays r = true → ¬bridgedUplink.IsThrough r) (q : Effect)
    (s : Namespace × List Bool) :
    bridgedUplink.World tidy q (stumbling stays q s).1 s.1 (stumbling stays q s).2.1 := by
  cases q with
  | routes => exact ⟨⟨rfl, fun table h ↦ eq_of_reading h⟩, trivial⟩
  | detach list runtime =>
    refine ⟨trivial, fun r hr ↦ (List.mem_filter.mp hr).1, fun r hr hnot ↦ hgone r ?_,
      fun h _ r hr _ ↦ htidy h r (List.mem_filter.mp hr).2⟩
    by_contra hstays
    exact hnot (List.mem_filter.mpr ⟨hr, by simpa using hstays⟩)
  | attach list runtime earlier within =>
    refine ⟨trivial, fun r hr hdefault ↦ ?_, fun _ hmem ↦ ?_⟩
    · rcases RouteTable.mem_replace.mp hr with rfl | ⟨hr, -⟩
      · exact absurd hdefault (by decide)
      · exact hr
    · exact RouteTable.mem_replace.mpr (.inr ⟨hmem, by decide⟩)
  | linkByName name =>
    refine ⟨answers_obliging _ _, fun link h ↦ ?_⟩
    cases h
    rfl
  | _ => exact ⟨answers_obliging _ _, trivial⟩

/-- What calls that enable the network come to, last first, from a table and with failures to
come. -/
def afterStumbling (stays : Route → Bool) (n : Namespace) (failures : List Bool) :
    List NetworkConfig → (Outcome Unit × Configurator) × Namespace × List Bool
  | [] => ((.ok (), fresh), n, failures)
  | config :: earlier =>
    let before := afterStumbling stays n failures earlier
    (perform (.configure config) before.1.2).run (stumbling stays) before.2

variable {stays : Route → Bool} {failures : List Bool}

theorem ends_afterStumbling
    (hworld : ∀ q s, w.World tidy q (stumbling stays q s).1 s.1 (stumbling stays q s).2.1)
    (config : NetworkConfig) (earlier : List NetworkConfig) :
    let before := afterStumbling stays n failures earlier
    let after := afterStumbling stays n failures (config :: earlier)
    (perform (.configure config) before.1.2).Ends (w.World tidy) before.2.1 after.1 after.2.1 := by
  intro before after
  have hends : (perform (.configure config) before.1.2).Ends
      (fun q answer s t ↦ w.World tidy q answer s.1 t.1) before.2 after.1 after.2 :=
    Program.ends_run (stumbling stays) hworld _ _
  exact hends.map Prod.fst fun _ _ _ _ h ↦ h

theorem reaches_afterStumbling
    (hworld : ∀ q s, w.World tidy q (stumbling stays q s).1 s.1 (stumbling stays q s).2.1)
    (calls : List NetworkConfig) :
    Reaches (w.World tidy) fresh n (afterStumbling stays n failures calls).1.2
      (afterStumbling stays n failures calls).2.1 := by
  induction calls with
  | nil => exact .start
  | cons config earlier ih =>
    exact ih.call (.configure config) (ends_afterStumbling hworld config earlier)

/-- The uplink is gone under a policy that denies, the network is attached anew with another
address, which fails once, and when a policy allows again the uplink is back. -/
theorem uplink_back :
    let config (policy : RoutingPolicy) (net : Subnet) :=
      { NetworkConfig.enabled "default" with policy, ipv4 := some net }
    let calls := [config .allowAll (.ofOctets 16 0 2 2 16), config .denyAll (.ofOctets 16 0 1 5 16)]
    let last := config .allowAll (.ofOctets 16 0 2 2 16)
    let failures := [false, false, false, false, false, false, false, true]
    let before := afterStumbling (·.interface != some 7) bridged failures calls
    let after := afterStumbling (·.interface != some 7) bridged failures (last :: calls)
    fresh.IsNew ∧ bridgedUplink.HasDefaults bridged.table .allow ∧ last.enable = true ∧
      (∀ x ∈ last.policy.exceptions, x.isDefault = false) ∧
      before.1.1 = .error (.backend "busy") ∧ (∀ r ∈ before.2.1.table, r.isDefault = false) ∧
      after.1.1 = .ok () ∧ bridgedUplink.HasDefaults after.2.1.table .allow := by
  intro config calls last failures before after
  have hbridged : bridgedUplink.HasDefaults bridged.table .allow :=
    Uplink.hasDefaults_allow (by decide) (by decide)
  have hfailed : before.1.1 = .error (.backend "busy") := by decide +kernel
  have hgone : ∀ r ∈ before.2.1.table, r.isDefault = false := by decide +kernel
  have hok : after.1.1 = .ok () := by decide +kernel
  have henable : last.enable = true := rfl
  have hexceptions : ∀ x ∈ last.policy.exceptions, x.isDefault = false := by decide
  have hallow : last.policy.action = .allow := rfl
  refine ⟨isNew_fresh, hbridged, henable, hexceptions, hfailed, hgone, hok, ?_⟩
  -- the runs are computed above; from here on their ends alone matter
  clear_value failures last calls
  have hworld := world_stumbling True (·.interface != some 7)
    (fun r hr ↦ ⟨7, rfl, by simpa using hr⟩) fun _ r hr ⟨i, hi, hthrough⟩ ↦ by
      subst hi
      simp [hthrough] at hr
  have hreach : Reaches (bridgedUplink.World True) fresh bridged before.1.2 before.2.1 :=
    reaches_afterStumbling hworld calls
  have hcall : (perform (.configure last) before.1.2).Ends (bridgedUplink.World True) before.2.1
      after.1 after.2.1 := ends_afterStumbling hworld last calls
  clear_value before after
  obtain ⟨⟨o, c'⟩, n', later⟩ := after
  cases hok
  obtain ⟨active, -, hiff, -, huplink⟩ :=
    default_routes_iff isNew_fresh hbridged hreach henable hexceptions hcall
  rw [hallow] at hiff
  exact hiff.mpr fun _ ↦ huplink trivial

/-- An interface with an address in a subnet of all destinations. -/
def unbounded : Namespace := { bridged with addresses := fun _ _ ↦ [.v4 (.ofOctets 16 0 1 5 0)] }

/-- The uplink gives way to a filter for all destinations, and when that is lifted the connected
route comes back. Both calls fail at the policy. Detaching leaves the connected route, so it is
captured when the network is attached anew, and a policy that allows puts it in for the uplink. -/
theorem uplink_lost :
    let blocking := { NetworkConfig.enabled "default" with
      policy := .allowAll, shape := { filter := .drop } }
    let lifted := { NetworkConfig.enabled "default" with policy := .allowAll }
    let moved := { lifted with ipv4 := some (.ofOctets 16 0 2 2 16) }
    let failures := [false, false, false, true, false, true]
    let before := afterStumbling (fun _ ↦ true) unbounded failures [lifted, blocking]
    let after := afterStumbling (fun _ ↦ true) unbounded failures [moved, lifted, blocking]
    bridgedUplink.HasDefaults unbounded.table .allow ∧
      Reaches (bridgedUplink.World False) fresh unbounded before.1.2 before.2.1 ∧
      (perform (.configure moved) before.1.2).Ends (bridgedUplink.World False) before.2.1 after.1
        after.2.1 ∧
      after.1.1 = .ok () ∧ moved.policy = .allowAll ∧ bridgedUplink.route ∉ after.2.1.table ∧
      Route.connected (.ofOctets 0 0 0 0 0) 7 ∈ after.2.1.table := by
  intro blocking lifted moved failures before after
  have hunbounded : bridgedUplink.HasDefaults unbounded.table .allow :=
    Uplink.hasDefaults_allow (by decide) (by decide)
  have hok : after.1.1 = .ok () := by decide +kernel
  have hpolicy : moved.policy = .allowAll := rfl
  have hlost : bridgedUplink.route ∉ after.2.1.table := by decide +kernel
  have hinstead : Route.connected (.ofOctets 0 0 0 0 0) 7 ∈ after.2.1.table := by decide +kernel
  clear_value failures moved lifted blocking
  have hworld := world_stumbling False (fun _ ↦ true) nofun nofun
  exact ⟨hunbounded, reaches_afterStumbling hworld _, ends_afterStumbling hworld _ _, hok, hpolicy,
    hlost, hinstead⟩

end Configurator

end ContainerNet
