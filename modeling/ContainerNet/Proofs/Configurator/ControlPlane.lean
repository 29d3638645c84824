import ContainerNet.Proofs.Configurator.Steps
import ContainerNet.Proofs.Route.ControlPlane

/-!
# The control plane of a container

The routes that are captured when the data interface comes up are to stay reachable, whatever a
configuration asks for. `control_plane_iff` determines, for every call of every run that enables the
network and succeeds, for which addresses this is so, and `control_plane_cut` is a call after which
it is not.

The world is a `Namespace`: a table that changes as route tables do, and addresses. Requests may
fail, and the plugins may change the namespace in any way, so nothing is assumed about them.
-/

namespace ContainerNet

/-- What the kernel of a namespace knows of routing. -/
structure Namespace where
  table : RouteTable
  addresses : Link → Family → List AnySubnet

namespace Namespace

/-- How a namespace answers. Requests about routes do what they say or fail, plugins may do
anything, and all else leaves the namespace as it is. -/
def Answers : (q : Effect) → q.Answer → Namespace → Namespace → Prop
  | .routes, answer, n, n' =>
    n' = n ∧ ∀ table, answer = (.ok table : Outcome RouteTable) → table = n.table
  | .addresses link family, answer, n, n' =>
    n' = n ∧
      ∀ nets, answer = (.ok nets : Outcome (List AnySubnet)) → nets = n.addresses link family
  | .replaceRoute r, answer, n, n' =>
    match (answer : Outcome Unit) with
    | .ok () => n' = { n with table := n.table.replace r }
    | .error _ => n' = n
  | .deleteRoute r, answer, n, n' =>
    match (answer : Outcome Unit) with
    | .ok () => n' = { n with table := n.table.delete r }
    | .error _ => n' = n
  | .attach _ _ _ _, _, _, _ => True
  | .detach _ _, _, _, _ => True
  | _, _, n, n' => n' = n

variable (n : Namespace)

/-- The subnets of a link. -/
def own (link : Link) : List Subnet :=
  ((n.addresses link .v4).filterMap AnySubnet.v4?).map Subnet.truncate

/-- The namespace with the filters of a link in line. -/
def withFilters (l : ShapedLink) : Namespace :=
  { n with
    table := n.table.changeAll
      (filterChanges l.link l.shape.filter (n.own l.link) l.rules n.table) }

/-- The namespace with a policy in line. -/
def withPolicy (e : ExternalRoutes) (p : RoutingPolicy) : Namespace :=
  { n with table := n.table.changeAll (e.policyChanges p n.table) }

theorem truncate_of_mem_own {link : Link} : ∀ net ∈ n.own link, net.truncate = net := by
  intro net hnet
  obtain ⟨m, -, rfl⟩ := List.mem_map.mp hnet
  exact Subnet.truncate_truncate m

end Namespace

open Namespace (Answers)

variable {n n' : Namespace}

/-! ## What requests about routes come to -/

theorem RouteChange.ends_perform {c : RouteChange} (h : c.perform.Ends Answers n (.ok ()) n') :
    n' = { n with table := n.table.change c } := by
  cases c with
  | put r => exact Program.ends_request.mp h
  | remove r => exact Program.ends_request.mp h

theorem RouteChange.ends_performAll {changes : List RouteChange}
    (h : (performAll changes).Ends Answers n (.ok ()) n') :
    n' = { n with table := n.table.changeAll changes } := by
  induction changes generalizing n with
  | nil =>
    obtain ⟨-, rfl⟩ := h
    rfl
  | cons c rest ih =>
    obtain ⟨o, u, hc, hrest⟩ := (Program.ends_bind _ _).mp h
    cases o with
    | error e =>
      obtain ⟨hok, -⟩ := hrest
      exact absurd hok nofun
    | ok =>
      rw [ih hrest, RouteChange.ends_perform hc]
      rfl

theorem Action.ends_logAll {entries : List Log.Entry} {u : Unit}
    (h : (logAll entries).Ends Answers n u n') : n' = n := by
  induction entries generalizing n with
  | nil => exact h.2
  | cons e rest ih =>
    obtain ⟨answer, v, rfl, hrest⟩ := h
    exact ih hrest

theorem ExternalRoutes.ends_enforce {e : ExternalRoutes} {p : RoutingPolicy}
    (h : (e.enforce p).Ends Answers n (.ok ()) n') : n' = n.withPolicy e p := by
  obtain ⟨answer, u, ⟨rfl, htable⟩, h⟩ := h
  rcases (answer : Outcome RouteTable) with fault | table
  · obtain ⟨hok, -⟩ := h
    exact absurd hok nofun
  · rw [htable table rfl] at h
    obtain ⟨_, v, hlog, hchanges⟩ := (Program.ends_bind _ _).mp h
    rw [Action.ends_logAll hlog] at hchanges
    exact RouteChange.ends_performAll hchanges

namespace ShapedLink

variable {l : ShapedLink}

theorem ends_installRoutes {own : List Subnet}
    (h : (l.installRoutes own).Ends Answers n (.ok ()) n') :
    n' = { n with
      table := n.table.changeAll (filterChanges l.link l.shape.filter own l.rules n.table) } := by
  obtain ⟨answer, u, ⟨rfl, htable⟩, h⟩ := h
  rcases (answer : Outcome RouteTable) with fault | table
  · obtain ⟨hok, -⟩ := h
    exact absurd hok nofun
  · rw [htable table rfl] at h
    exact RouteChange.ends_performAll h

/-- Shape and rules that are put into force bring the filters in line. -/
theorem ends_install (h : l.install.Ends Answers n (.ok ()) n') : n' = n.withFilters l := by
  rw [install] at h
  split at h
  · obtain ⟨hok, -⟩ := h
    cases hok
  obtain ⟨built, u, rfl, h⟩ := h
  rcases (built : Outcome Unit) with e | ⟨⟩
  · obtain ⟨hok, -⟩ := h
    cases hok
  obtain ⟨listed, v, ⟨answer, w, ⟨rfl, hnets⟩, rfl, rfl⟩, h⟩ := (Program.ends_bind _ _).mp h
  rcases (answer : Outcome (List AnySubnet)) with e | nets
  · obtain ⟨hok, -⟩ := h
    cases hok
  · have hroutes := ends_installRoutes h
    rw [hnets nets rfl] at hroutes
    exact hroutes

end ShapedLink

namespace ActiveLink

/-- An address of the control plane: a captured route leads there, and not through the data link. -/
def IsControl (active : ActiveLink) (a : Address) : Prop :=
  ∃ b ∈ active.external.baseline,
    b.interface ≠ some active.link.link.index ∧ b.destination.contains a = true

/-- The address is found in a table, and only captured routes are. -/
def FindsCaptured (active : ActiveLink) (t : RouteTable) (a : Address) : Prop :=
  t.lookup a ≠ [] ∧ ∀ r ∈ t.lookup a, r ∈ active.external.baseline

instance (active : ActiveLink) (a : Address) : Decidable (active.IsControl a) :=
  inferInstanceAs (Decidable (∃ b ∈ active.external.baseline, _))

instance (active : ActiveLink) (t : RouteTable) (a : Address) :
    Decidable (active.FindsCaptured t a) :=
  inferInstanceAs (Decidable (_ ∧ _))

end ActiveLink

namespace Configurator

variable {c c' : Configurator} {config : NetworkConfig}

/-! ## What is remembered of routes -/

/-- What a configurator remembers of routes was captured. -/
structure Sound (c : Configurator) : Prop where
  isCaptured : ∀ active ∈ c.active, active.external.IsCaptured
  linkIndex_eq : ∀ active ∈ c.active, active.external.linkIndex = active.link.link.index
  uplink_isDefault : ∀ u ∈ c.uplink, u.isDefault = true

namespace Sound

theorem offline (hc : c.Sound) : ({ c with active := none } : Configurator).Sound :=
  ⟨by simp, by simp, hc.uplink_isDefault⟩

theorem noteWarnings (hc : c.Sound) (warnings : List ConfigureWarning) :
    ({ c with warnings } : Configurator).Sound :=
  ⟨hc.isCaptured, hc.linkIndex_eq, hc.uplink_isDefault⟩

theorem bringOnline (hc : c.Sound) (link : Link) (addresses : List Subnet)
    (list : Plugin.ConfigList) (table : RouteTable) :
    (c.bringOnline { link } addresses list (.ofRoutes link.index table)).Sound := by
  have he := (ExternalRoutes.isCaptured_ofRoutes link.index table).orUplink hc.uplink_isDefault
  refine ⟨?_, ?_, fun u hu ↦ ?_⟩
  · rintro active ⟨⟩
    exact he
  · rintro active ⟨⟩
    rfl
  · rcases Option.or_eq_some_iff.mp hu with hu | ⟨-, hu⟩
    · exact hc.uplink_isDefault u hu
    · exact he.uplink_isDefault u hu

theorem setLink (hc : c.Sound) {active : ActiveLink} (hactive : c.active = some active)
    {link : ShapedLink} (hlink : link.link = active.link.link) : (c.setLink active link).Sound := by
  refine ⟨?_, ?_, hc.uplink_isDefault⟩
  · rintro _ ⟨⟩
    exact hc.isCaptured active hactive
  · rintro _ ⟨⟩
    exact (hc.linkIndex_eq active hactive).trans (by rw [hlink])

end Sound

variable {σ : Type} {env : (q : Effect) → q.Answer → σ → σ → Prop} {s : σ}

theorem keeps_sound (k : Call) : (perform k).Keeps env fun c _ ↦ c.Sound := by
  refine keeps_remembered ?_ ?_ ?_ ?_ ?_ k
  · exact fun c hc ↦ hc.offline
  · exact fun c warnings hc ↦ hc.noteWarnings warnings
  · exact fun c link addresses list table hc ↦ hc.bringOnline link addresses list table
  · exact fun c active link hactive hlink hc ↦ hc.setLink hactive hlink
  · exact fun c hc ↦ ⟨hc.isCaptured, hc.linkIndex_eq, hc.uplink_isDefault⟩

theorem Reaches.sound {start : Configurator} {s₀ : σ} (hnew : start.IsNew)
    (hreach : Reaches env start s₀ c s) : c.Sound := by
  have hstart : start.Sound := by
    refine ⟨?_, ?_, ?_⟩
    · simp [hnew.offline]
    · simp [hnew.offline]
    · simp [hnew.no_uplink]
  exact Reaches.invariant hstart keeps_sound hreach

/-! ## Calls that succeed -/

variable {o : Outcome Unit} {active : ActiveLink}

theorem ends_update_ok {checked : Outcome Unit} {change : ShapedLink → ShapedLink}
    (hactive : c.active = some active)
    (h : (onLink (fun l ↦ l.update checked (change l)) c).Ends Answers n (.ok (), c') n') :
    c'.active = some { active with link := change active.link } ∧
      n' = n.withFilters (change active.link) := by
  obtain ⟨rfl, hinstall⟩ := ends_onLink_update_ok hactive h
  exact ⟨rfl, ShapedLink.ends_install hinstall⟩

theorem ends_applyPolicy_ok (hactive : c.active = some active)
    (h : (applyPolicy config c).Ends Answers n (.ok (), c') n') :
    c' = c ∧ n' = n.withPolicy active.external config.policy := by
  obtain ⟨rfl, henforce⟩ := ends_applyPolicy_active hactive h
  exact ⟨rfl, ExternalRoutes.ends_enforce henforce⟩

/-- A call that enables the network and succeeds ends with filters and policy in line, one after the
other. -/
theorem ends_converge_ok (h : (converge config c).Ends Answers n (.ok (), c') n') :
    ∃ (active : ActiveLink) (n₁ : Namespace), c'.active = some active ∧
      active.link.shape = config.shape ∧
      active.link.rules = config.rules ∧
      n' = (n₁.withFilters active.link).withPolicy active.external config.policy := by
  obtain ⟨c₁, u₁, -, h⟩ := Step.ends_andThen_ok.mp h
  obtain ⟨c₂, u₂, hattach, h⟩ := Step.ends_andThen_ok.mp h
  obtain ⟨c₃, u₃, hshape, h⟩ := Step.ends_andThen_ok.mp h
  obtain ⟨c₄, u₄, hrules, hpolicy⟩ := Step.ends_andThen_ok.mp h
  obtain ⟨active, hactive⟩ := exists_active_of_attach hattach
  obtain ⟨hactive₃, -⟩ := ends_update_ok hactive hshape
  obtain ⟨hactive₄, rfl⟩ := ends_update_ok hactive₃ hrules
  obtain ⟨rfl, rfl⟩ := ends_applyPolicy_ok hactive₄ hpolicy
  exact ⟨_, u₃, hactive₄, rfl, rfl, rfl⟩

theorem own_withPolicy (n : Namespace) (l : ShapedLink) (e : ExternalRoutes) (p : RoutingPolicy)
    (link : Link) : ((n.withFilters l).withPolicy e p).own link = n.own link := rfl

/-- **When the control plane stays reachable.** After every call of every run that enables the
network and succeeds: an address of the control plane finds captured routes only, exactly when each
filter route that would cut it off takes the place of a captured route that does not lead through
the data link, and no route of others cuts it off. Nothing that the policy asks for does. -/
theorem control_plane_iff {start : Configurator} {n₀ : Namespace} (hnew : start.IsNew)
    (hreach : Reaches Answers start n₀ c n) (henable : config.enable = true)
    (hcall : (perform (.configure config) c).Ends Answers n (.ok (), c') n') :
    ∃ active ∈ c'.active, (∀ b ∈ active.external.baseline, b.kind = .unicast) ∧
      ∀ a, active.IsControl a →
        (active.FindsCaptured n'.table a ↔
          (∀ f ∈ filterRoutes active.link.link config.shape.filter (n'.own active.link.link)
              config.rules, active.external.Cuts a f →
            ∃ b ∈ active.external.baseline,
              f.sameKey b = true ∧ b.interface ≠ some active.link.link.index) ∧
          ∀ r ∈ n'.table, r.isManaged = false → ¬active.external.Cuts a r) := by
  have hsound : c'.Sound := (hreach.call _ hcall).sound hnew
  rcases ends_configure hcall with ⟨e, -, he, -⟩ | ⟨-, hconverge⟩
  · exact absurd he nofun
  rw [if_pos henable] at hconverge
  obtain ⟨active, n₁, hactive, hshape, hrules, rfl⟩ := ends_converge_ok hconverge
  have he := hsound.isCaptured active hactive
  refine ⟨active, hactive, he.unicast, fun a ⟨b, hb, _, hba⟩ ↦ ?_⟩
  -- the filters come first in a call, so they are in line with the table that the policy finds
  have hfilters (r : Route) : r ∈ (n₁.withFilters active.link).table ∧ r.origin = .rules ↔
      r ∈ filterRoutes active.link.link config.shape.filter (n₁.own active.link.link)
        config.rules := by
    rw [← hshape, ← hrules]
    constructor
    · rintro ⟨hr, horigin⟩
      exact (mem_changeAll_filterChanges n₁.truncate_of_mem_own horigin).mp hr
    · intro hr
      have horigin := origin_of_mem_filterRoutes hr
      exact ⟨(mem_changeAll_filterChanges n₁.truncate_of_mem_own horigin).mpr hr, horigin⟩
  rw [own_withPolicy, ← hsound.linkIndex_eq active hactive]
  exact (ExternalRoutes.lookup_policyChanges_iff he ⟨b, hb, hba⟩).trans
    (ExternalRoutes.forall_not_cuts_iff he hfilters ⟨b, hb, hba⟩)

/-! ## A container with a control plane -/

/-- A namespace with the routes of a control plane, in which the data link has one address. -/
def bridged : Namespace where
  table := [Route.connected (.ofOctets 172 17 0 0 16) 2,
    { destination := .ofOctets 0 0 0 0 0, gateway := some (.ofOctets 172 17 0 1),
      interface := some 2 }]
  addresses _ _ := [.v4 (.ofOctets 16 0 1 5 16)]

/-- Answers everything with success. Attaching brings up link 7 with its connected route. -/
def obliging : (q : Effect) → Namespace → q.Answer × Namespace
  | .linkByName name, n => ((.ok (some ⟨7, name⟩) : Outcome (Option Link)), n)
  | .addresses link family, n => ((.ok (n.addresses link family) : Outcome (List AnySubnet)), n)
  | .routes, n => ((.ok n.table : Outcome RouteTable), n)
  | .replaceRoute r, n => ((.ok () : Outcome Unit), { n with table := n.table.replace r })
  | .deleteRoute r, n => ((.ok () : Outcome Unit), { n with table := n.table.delete r })
  | .trafficControl _ _, n => ((.ok () : Outcome Unit), n)
  | .closeKernel, n => ((), n)
  | .attach _ _ _ _, n =>
    ((.finished .zero (.ok {}) : Ending (Outcome Plugin.Result)), { n with
      table := n.table.replace (Route.connected (.ofOctets 16 0 0 0 16) 7) })
  | .detach _ _, n => ((.ok () : Outcome Unit), n)
  | .isCancelled, n => (false, n)
  | .pause length _, n => ((.finished length () : Ending Unit), n)
  | .log _, n => ((), n)

theorem answers_obliging (q : Effect) (n : Namespace) :
    Answers q (obliging q n).1 n (obliging q n).2 := by
  cases q with
  | routes => exact ⟨rfl, fun table h ↦ (Except.ok.inj h).symm⟩
  | addresses link family => exact ⟨rfl, fun nets h ↦ (Except.ok.inj h).symm⟩
  | attach | detach => trivial
  | _ => rfl

/-- What a first call comes to in that namespace. -/
def firstCall (config : NetworkConfig) : (Outcome Unit × Configurator) × Namespace :=
  (perform (.configure config) fresh).run obliging bridged

theorem ends_firstCall (config : NetworkConfig) :
    (perform (.configure config) fresh).Ends Answers bridged (firstCall config).1
      (firstCall config).2 :=
  Program.ends_run obliging answers_obliging _ _

/-- A filter on the data network leaves the control plane alone. -/
theorem control_plane_beside_filter :
    let config := { NetworkConfig.enabled "default" with
      rules := [⟨.ofOctets 16 0 5 0 24, { filter := .drop }⟩] }
    let a := Address.ofOctets 172 17 0 5
    fresh.IsNew ∧ config.enable = true ∧ (firstCall config).1.1 = .ok () ∧
      ∃ active ∈ (firstCall config).1.2.active, active.IsControl a ∧
        ∀ r ∈ (firstCall config).2.table, r.isManaged = false → ¬active.external.Cuts a r := by
  intro config a
  have hends := ends_firstCall config
  have hok : (firstCall config).1.1 = .ok () := by decide +kernel
  have hfound : ∀ active ∈ (firstCall config).1.2.active, active.IsControl a ∧
      active.FindsCaptured (firstCall config).2.table a := by decide +kernel
  generalize firstCall config = run at hends hok hfound ⊢
  obtain ⟨⟨o, c'⟩, n'⟩ := run
  cases hok
  obtain ⟨active, hactive, -, h⟩ := control_plane_iff isNew_fresh .start rfl hends
  obtain ⟨hcontrol, hcaptured⟩ := hfound active hactive
  exact ⟨isNew_fresh, rfl, rfl, active, hactive, hcontrol, ((h a hcontrol).mp hcaptured).2⟩

/-- A filter inside of a captured subnet cuts the control plane off: the call succeeds, and the
address is found behind a blackhole. -/
theorem control_plane_cut :
    let config := { NetworkConfig.enabled "default" with
      rules := [⟨.ofOctets 172 17 0 5 32, { filter := .drop }⟩] }
    let a := Address.ofOctets 172 17 0 5
    (perform (.configure config) fresh).Ends Answers bridged (firstCall config).1
        (firstCall config).2 ∧
      (firstCall config).1.1 = .ok () ∧
      ∃ active ∈ (firstCall config).1.2.active, active.IsControl a ∧
        ¬active.FindsCaptured (firstCall config).2.table a ∧
        ∀ r ∈ RouteTable.lookup (firstCall config).2.table a, r.kind = .blackhole := by
  intro config a
  exact ⟨ends_firstCall config, by decide +kernel, by decide +kernel⟩

end Configurator

end ContainerNet
