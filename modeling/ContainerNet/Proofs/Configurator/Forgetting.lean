import ContainerNet.Proofs.Configurator.ControlPlane

/-!
# Forgetting earlier configurations

Two containers that came to one configuration in different ways are to be treated alike. Once a call
that enables the network and attaches nothing anew has succeeded for both, the tree is the one of
that configuration, and of the routes that filters and the policy are responsible for both tables
hold the same (`converge_forgets`).

## Why nothing is left

A call puts filters into force twice, the first time with the rules of an earlier call, and then the
policy, which reads the filters that it finds. So the table is followed backwards. What the policy
makes of a table depends on its filter routes alone, as far as routes are concerned that are
governed (`mem_withPolicy_congr`). And the filter routes are those of the shape and the rules
that were set last, whatever was there before.
-/

namespace ContainerNet

variable {r : Route}

/-! ## Routes that are governed -/

/-- Whether filters and the policy decide on a route: it is tagged as theirs, or it is for all
destinations. -/
def Route.isGoverned (r : Route) : Bool := r.isManaged || r.isDefault

namespace ExternalRoutes

variable {e : ExternalRoutes} {p : RoutingPolicy} {t t' : RouteTable}

theorem desired_congr (h : ∀ r : Route, r.origin = .rules → (r ∈ t ↔ r ∈ t')) :
    e.desired p t = e.desired p t' := by
  rw [desired, desired]
  refine List.filter_congr fun r _ ↦ ?_
  have hany : (t.any fun s ↦ s.origin == .rules && s.destination == r.destination) =
      t'.any fun s ↦ s.origin == .rules && s.destination == r.destination := by
    rw [Bool.eq_iff_iff, List.any_eq_true, List.any_eq_true]
    refine exists_congr fun s ↦ ?_
    rw [Bool.and_eq_true, beq_iff_eq]
    constructor
    · rintro ⟨hs, horigin, hdest⟩
      exact ⟨(h s horigin).mp hs, horigin, hdest⟩
    · rintro ⟨hs, horigin, hdest⟩
      exact ⟨(h s horigin).mpr hs, horigin, hdest⟩
  rw [hany]

/-- Of tables with the same filter routes a policy makes tables that agree on a route, if they agree
on it in case it is left alone. -/
theorem mem_changeAll_policyChanges_congr
    (h : ∀ r : Route, r.origin = .rules → (r ∈ t ↔ r ∈ t'))
    (halone : r.origin ≠ .policy → r.isDefault = false →
      (∀ s ∈ e.desired p t, r.sameKey s = false) → (r ∈ t ↔ r ∈ t')) :
    r ∈ t.changeAll (e.policyChanges p t) ↔ r ∈ t'.changeAll (e.policyChanges p t') := by
  rw [mem_changeAll_policyChanges, mem_changeAll_policyChanges, ← desired_congr h]
  refine or_congr_right ⟨?_, ?_⟩
  · rintro ⟨hmem, hpolicy, hdefault, hkeys⟩
    exact ⟨(halone hpolicy hdefault hkeys).mp hmem, hpolicy, hdefault, hkeys⟩
  · rintro ⟨hmem, hpolicy, hdefault, hkeys⟩
    exact ⟨(halone hpolicy hdefault hkeys).mpr hmem, hpolicy, hdefault, hkeys⟩

end ExternalRoutes

/-! ## Namespaces with trees -/

/-- The traffic-control tree of each link, if one was built. -/
abbrev Trees := Link → Option (List TrafficControl.Command)

/-- A namespace and the trees of its links. -/
structure ShapedNamespace extends Namespace where
  trees : Trees

namespace ShapedNamespace

/-- How trees change. Building one replaces that of the link, and a failure leaves it in any state.
Plugins may do anything, and all else leaves the trees as they are. -/
def Rebuilds : (q : Effect) → q.Answer → Trees → Trees → Prop
  | .trafficControl link commands, answer, trees, trees' =>
    (∀ other ≠ link, trees' other = trees other) ∧
      (answer = (.ok () : Outcome Unit) → trees' link = some commands)
  | .attach _ _ _ _, _, _, _ => True
  | .detach _ _, _, _, _ => True
  | _, _, trees, trees' => trees' = trees

/-- A namespace answers as before. -/
def Answers (q : Effect) (answer : q.Answer) (w w' : ShapedNamespace) : Prop :=
  Namespace.Answers q answer w.toNamespace w'.toNamespace ∧ Rebuilds q answer w.trees w'.trees

theorem ends_toNamespace {α : Type} {p : Action α} {a : α} {w w' : ShapedNamespace}
    (h : p.Ends Answers w a w') : p.Ends Namespace.Answers w.toNamespace a w'.toNamespace :=
  h.map _ fun _ _ _ _ h ↦ h.1

theorem ends_trees {α : Type} {p : Action α} {a : α} {w w' : ShapedNamespace}
    (h : p.Ends Answers w a w') : p.Ends Rebuilds w.trees a w'.trees :=
  h.map _ fun _ _ _ _ h ↦ h.2

theorem trees_of_isRouting {α : Type} {p : Action α} {a : α} {trees trees' : Trees}
    (hp : p.IsRouting) (h : p.Ends Rebuilds trees a trees') : trees' = trees := by
  refine h.invariant (I := (· = trees)) hp (fun q answer s t hq hst hs ↦ ?_) rfl
  cases q with
  | addresses | routes | replaceRoute | deleteRoute | log => exact hst.trans hs
  | _ => exact absurd hq Bool.false_ne_true

end ShapedNamespace

open ShapedNamespace (Rebuilds)

/-- Shape and rules that are put into force replace the tree of their link, and no other. -/
theorem ShapedLink.ends_install_trees {l : ShapedLink} {trees trees' : Trees}
    (h : l.install.Ends Rebuilds trees (.ok ()) trees') :
    ∃ commands, TrafficControl.plan l.shape l.rules = .ok commands ∧
      trees' = Function.update trees l.link (some commands) := by
  rcases ends_install_or h with ⟨e, -, he, -⟩ | ⟨commands, built, u, hplan, ⟨hother, hbuilt⟩, h⟩
  · exact absurd he nofun
  rcases h with ⟨e, -, he, -⟩ | ⟨rfl, rest, hrest, h⟩
  · exact absurd he nofun
  rw [ShapedNamespace.trees_of_isRouting hrest h]
  exact ⟨commands, hplan, Function.eq_update_iff.mpr ⟨hbuilt rfl, hother⟩⟩

namespace Configurator

variable {c c' : Configurator} {config : NetworkConfig} {active : ActiveLink}

/-! ## What a call comes to that attaches nothing anew -/

/-- If the network is attached and no other address is asked for, a call that succeeds sets shape,
rules and policy, and does nothing else. -/
theorem ends_converge_attached {σ : Type} {env : (q : Effect) → q.Answer → σ → σ → Prop} {s t : σ}
    (hactive : c.active = some active) (hsame : c.hasOtherAddress config.ipv4 = false)
    (h : (converge config c).Ends env s (.ok (), c') t) :
    ∃ c₁ u c₂ v, (applyShape config c).Ends env s (.ok (), c₁) u ∧
      (applyRules config c₁).Ends env u (.ok (), c₂) v ∧
      (applyPolicy config c₂).Ends env v (.ok (), c') t := by
  have honline : c.isOnline = true := by rw [isOnline, hactive, Option.isSome_some]
  rw [converge_eq honline hsame] at h
  obtain ⟨c₁, u, hshape, h⟩ := Step.ends_andThen_ok.mp h
  obtain ⟨c₂, v, hrules, hpolicy⟩ := Step.ends_andThen_ok.mp h
  exact ⟨c₁, u, c₂, v, hshape, hrules, hpolicy⟩

/-- Filters are put into force with the old rules, then with the new ones, and the policy after
that. -/
theorem ends_converge_attached_ok {n n' : Namespace} (hactive : c.active = some active)
    (hsame : c.hasOtherAddress config.ipv4 = false)
    (h : (converge config c).Ends Namespace.Answers n (.ok (), c') n') :
    n' = ((n.withFilters { active.link with shape := config.shape }).withFilters
      { active.link with shape := config.shape, rules := config.rules }).withPolicy
        active.external config.policy := by
  obtain ⟨c₁, n₁, c₂, n₂, hshape, hrules, hpolicy⟩ := ends_converge_attached hactive hsame h
  obtain ⟨hactive₁, rfl⟩ := ends_update_ok hactive hshape
  obtain ⟨hactive₂, rfl⟩ := ends_update_ok hactive₁ hrules
  exact (ends_applyPolicy_ok hactive₂ hpolicy).2

theorem ends_update_trees {trees trees' : Trees}
    {checked : Outcome Unit} {change : ShapedLink → ShapedLink} (hactive : c.active = some active)
    (h : (onLink (fun l ↦ l.update checked (change l)) c).Ends Rebuilds trees (.ok (), c') trees') :
    c'.active = some { active with link := change active.link } ∧
      ∃ commands, TrafficControl.plan (change active.link).shape (change active.link).rules =
          .ok commands ∧
        trees' (change active.link).link = some commands := by
  obtain ⟨rfl, hinstall⟩ := ends_onLink_update_ok hactive h
  obtain ⟨commands, hplan, rfl⟩ := ShapedLink.ends_install_trees hinstall
  exact ⟨rfl, commands, hplan, Function.update_self _ _ _⟩

theorem ends_applyPolicy_trees {trees trees' : Trees}
    {o : Outcome Unit} (h : (applyPolicy config c).Ends Rebuilds trees (o, c') trees') :
    trees' = trees := by
  rcases ends_applyPolicy h with ⟨-, -, -, rfl⟩ | ⟨active, -, -, henforce⟩
  · rfl
  · exact ShapedNamespace.trees_of_isRouting (active.external.isRouting_enforce _) henforce

/-- The tree is built with the old rules first; the one that stays is that of the configuration. -/
theorem ends_converge_attached_trees {trees trees' : Trees}
    (hactive : c.active = some active) (hsame : c.hasOtherAddress config.ipv4 = false)
    (h : (converge config c).Ends Rebuilds trees (.ok (), c') trees') :
    ∃ commands, TrafficControl.plan config.shape config.rules = .ok commands ∧
      trees' active.link.link = some commands := by
  obtain ⟨c₁, u₁, c₂, u₂, hshape, hrules, hpolicy⟩ := ends_converge_attached hactive hsame h
  obtain ⟨hactive₁, -⟩ := ends_update_trees hactive hshape
  obtain ⟨hactive₂, commands, hplan, htree⟩ := ends_update_trees hactive₁ hrules
  rw [ends_applyPolicy_trees hpolicy]
  exact ⟨commands, hplan, htree⟩

theorem mem_withFilters {n : Namespace} {l : ShapedLink} (horigin : r.origin = .rules) :
    r ∈ (n.withFilters l).table ↔ r ∈ filterRoutes l.link l.shape.filter (n.own l.link) l.rules :=
  mem_changeAll_filterChanges n.truncate_of_mem_own horigin

theorem mem_withPolicy_congr {n n' : Namespace} {e : ExternalRoutes} {p : RoutingPolicy}
    (h : ∀ r : Route, r.origin = .rules → (r ∈ n.table ↔ r ∈ n'.table))
    (hr : r.isGoverned = true) :
    r ∈ (n.withPolicy e p).table ↔ r ∈ (n'.withPolicy e p).table := by
  refine ExternalRoutes.mem_changeAll_policyChanges_congr h fun hpolicy hdefault _ ↦ h r ?_
  -- a governed route that the policy leaves alone is a filter route
  simpa [Route.isGoverned, Route.isManaged, hpolicy, hdefault] using hr

/-- Filter routes depend on the index of a link and not on its name. -/
theorem filterRoutes_congr {link link' : Link} (h : link.index = link'.index)
    (default : FilterAction) (own : List Subnet) (rules : List Rule) :
    filterRoutes link default own rules = filterRoutes link' default own rules := by
  have hfiltering (net : Subnet) (a : FilterAction) :
      Route.filtering link net a = Route.filtering link' net a := by
    cases a <;> simp [Route.filtering, h]
  simp only [filterRoutes, hfiltering]

/-- **Nothing of an earlier configuration lingers.** Let the same link be attached in two
containers, with the same addresses and the same captured routes, each after whatever calls and with
whatever table. If a call that enables the network and asks for no other address succeeds in both,
then both have the tree of its shape and rules, and of the routes of filters, of the policy and for
all destinations both hold the same. -/
theorem converge_forgets {c₁ c₂ c₁' c₂' : Configurator} {a₁ a₂ : ActiveLink}
    {w₁ w₂ w₁' w₂' : ShapedNamespace} (hactive₁ : c₁.active = some a₁)
    (hactive₂ : c₂.active = some a₂) (hindex : a₁.link.link.index = a₂.link.link.index)
    (hown : w₁.own a₁.link.link = w₂.own a₂.link.link) (hexternal : a₁.external = a₂.external)
    (henable : config.enable = true) (hsame₁ : c₁.hasOtherAddress config.ipv4 = false)
    (hsame₂ : c₂.hasOtherAddress config.ipv4 = false)
    (hcall₁ : (perform (.configure config) c₁).Ends ShapedNamespace.Answers w₁ (.ok (), c₁') w₁')
    (hcall₂ : (perform (.configure config) c₂).Ends ShapedNamespace.Answers w₂ (.ok (), c₂') w₂') :
    ∃ commands, TrafficControl.plan config.shape config.rules = .ok commands ∧
      w₁'.trees a₁.link.link = some commands ∧ w₂'.trees a₂.link.link = some commands ∧
      ∀ r : Route, r.isGoverned = true → (r ∈ w₁'.table ↔ r ∈ w₂'.table) := by
  have hconverge {c c' : Configurator} {w w' : ShapedNamespace}
      (hcall : (perform (.configure config) c).Ends ShapedNamespace.Answers w (.ok (), c') w') :
      (converge config c).Ends ShapedNamespace.Answers w (.ok (), c') w' := by
    rcases ends_configure hcall with ⟨e, -, he, -⟩ | ⟨-, h⟩
    · exact absurd he nofun
    · rwa [if_pos henable] at h
  obtain ⟨commands, hplan, htree₁⟩ :=
    ends_converge_attached_trees hactive₁ hsame₁ (ShapedNamespace.ends_trees (hconverge hcall₁))
  obtain ⟨_, hplan₂, htree₂⟩ :=
    ends_converge_attached_trees hactive₂ hsame₂ (ShapedNamespace.ends_trees (hconverge hcall₂))
  rw [hplan] at hplan₂
  cases hplan₂
  refine ⟨commands, hplan, htree₁, htree₂, fun r hr ↦ ?_⟩
  have hends₁ := ShapedNamespace.ends_toNamespace (hconverge hcall₁)
  have hends₂ := ShapedNamespace.ends_toNamespace (hconverge hcall₂)
  rw [ends_converge_attached_ok hactive₁ hsame₁ hends₁,
    ends_converge_attached_ok hactive₂ hsame₂ hends₂, ← hexternal]
  refine mem_withPolicy_congr (fun f hf ↦ ?_) hr
  -- the first round of filters, the one with the old rules, leaves no trace in the second
  rw [mem_withFilters hf, mem_withFilters hf]
  have hlisted (n : Namespace) (l : ShapedLink) (link : Link) :
      (n.withFilters l).own link = n.own link := rfl
  rw [hlisted, hlisted, hown, filterRoutes_congr hindex]

/-! ## Two containers -/

/-- As `obliging`, and trees are built. -/
def building : (q : Effect) → ShapedNamespace → q.Answer × ShapedNamespace
  | .trafficControl link commands, w =>
    ((.ok () : Outcome Unit),
      { w with trees := fun other ↦ if other = link then some commands else w.trees other })
  | q, w =>
    let (answer, n) := obliging q w.toNamespace
    (answer, { w with toNamespace := n })

theorem answers_building (q : Effect) (w : ShapedNamespace) :
    ShapedNamespace.Answers q (building q w).1 w (building q w).2 := by
  cases q with
  | trafficControl link commands =>
    exact ⟨rfl, fun other hother ↦ if_neg hother, fun _ ↦ if_pos rfl⟩
  | attach | detach => exact ⟨trivial, trivial⟩
  | routes => exact ⟨answers_obliging .routes w.toNamespace, rfl⟩
  | addresses link family => exact ⟨answers_obliging (.addresses link family) w.toNamespace, rfl⟩
  | _ => exact ⟨rfl, rfl⟩

/-- A namespace in which no tree was built. -/
def unshaped : ShapedNamespace := { bridged with trees := fun _ ↦ none }

/-- What a call comes to where everything is built that is asked for. -/
def outcome (config : NetworkConfig) (c : Configurator) (w : ShapedNamespace) :
    (Outcome Unit × Configurator) × ShapedNamespace :=
  (perform (.configure config) c).run building w

theorem ends_building (config : NetworkConfig) (c : Configurator) (w : ShapedNamespace) :
    (perform (.configure config) c).Ends ShapedNamespace.Answers w (outcome config c w).1
      (outcome config c w).2 :=
  Program.ends_run building answers_building _ _

theorem ends_outcome {c : Configurator} {w : ShapedNamespace}
    (hok : (outcome config c w).1.1 = .ok ()) :
    (perform (.configure config) c).Ends ShapedNamespace.Answers w
      (.ok (), (outcome config c w).1.2) (outcome config c w).2 := by
  rw [← hok]
  exact ends_building config c w

/-- A container that was filtered and one that was cut off get the same from a third
configuration. -/
theorem converge_forgets_filter_and_policy :
    let filtered := { NetworkConfig.enabled "default" with
      shape := { filter := .drop }
      rules := [⟨.ofOctets 16 0 5 0 24, { filter := .reject }⟩] }
    let cutOff := { NetworkConfig.enabled "default" with
      policy := { action := .deny, exceptions := [.ofOctets 10 0 0 0 8] } }
    let config := { NetworkConfig.enabled "default" with
      rules := [⟨.ofOctets 16 0 7 0 24, { filter := .drop }⟩]
      policy := { action := .allow, exceptions := [.ofOctets 8 8 8 8 32] } }
    let first₁ := outcome filtered fresh unshaped
    let first₂ := outcome cutOff fresh unshaped
    (∃ r ∈ first₁.2.table, r.isGoverned = true ∧ r ∉ first₂.2.table) ∧
      (outcome config first₁.1.2 first₁.2).1.1 = .ok () ∧
      (outcome config first₂.1.2 first₂.2).1.1 = .ok () ∧
      ∃ a₁ a₂ commands, first₁.1.2.active = some a₁ ∧ first₂.1.2.active = some a₂ ∧
        TrafficControl.plan config.shape config.rules = .ok commands ∧
        (outcome config first₁.1.2 first₁.2).2.trees a₁.link.link = some commands ∧
        (outcome config first₂.1.2 first₂.2).2.trees a₂.link.link = some commands ∧
        ∀ r : Route, r.isGoverned = true →
          (r ∈ (outcome config first₁.1.2 first₁.2).2.table ↔
            r ∈ (outcome config first₂.1.2 first₂.2).2.table) := by
  intro filtered cutOff config first₁ first₂
  -- stated for any two containers, since those above are too large for the unifier
  have hthird (c₁ c₂ : Configurator) (w₁ w₂ : ShapedNamespace)
      (hok₁ : (outcome config c₁ w₁).1.1 = .ok ()) (hok₂ : (outcome config c₂ w₂).1.1 = .ok ())
      (hsame : ∃ a₁ a₂, c₁.active = some a₁ ∧ c₂.active = some a₂ ∧
        a₁.link.link.index = a₂.link.link.index ∧ w₁.own a₁.link.link = w₂.own a₂.link.link ∧
        a₁.external = a₂.external) :
      ∃ a₁ a₂ commands, c₁.active = some a₁ ∧ c₂.active = some a₂ ∧
        TrafficControl.plan config.shape config.rules = .ok commands ∧
        (outcome config c₁ w₁).2.trees a₁.link.link = some commands ∧
        (outcome config c₂ w₂).2.trees a₂.link.link = some commands ∧
        ∀ r : Route, r.isGoverned = true →
          (r ∈ (outcome config c₁ w₁).2.table ↔ r ∈ (outcome config c₂ w₂).2.table) := by
    obtain ⟨a₁, a₂, hactive₁, hactive₂, hindex, hown, hexternal⟩ := hsame
    obtain ⟨commands, h⟩ := converge_forgets hactive₁ hactive₂ hindex hown hexternal rfl
      (hasOtherAddress_none _) (hasOtherAddress_none _) (ends_outcome hok₁) (ends_outcome hok₂)
    exact ⟨a₁, a₂, commands, hactive₁, hactive₂, h⟩
  have hok₁ : (outcome config first₁.1.2 first₁.2).1.1 = .ok () := by decide +kernel
  have hok₂ : (outcome config first₂.1.2 first₂.2).1.1 = .ok () := by decide +kernel
  have hdiffer : ∃ r ∈ first₁.2.table, r.isGoverned = true ∧ r ∉ first₂.2.table := by
    decide +kernel
  have hsame : ∀ a₁ ∈ first₁.1.2.active, ∀ a₂ ∈ first₂.1.2.active,
      a₁.link.link.index = a₂.link.link.index ∧
        first₁.2.own a₁.link.link = first₂.2.own a₂.link.link ∧ a₁.external = a₂.external := by
    decide +kernel
  obtain ⟨a₁, hactive₁⟩ : ∃ a₁, first₁.1.2.active = some a₁ :=
    Option.isSome_iff_exists.mp (by decide +kernel)
  obtain ⟨a₂, hactive₂⟩ : ∃ a₂, first₂.1.2.active = some a₂ :=
    Option.isSome_iff_exists.mp (by decide +kernel)
  exact ⟨hdiffer, hok₁, hok₂, hthird first₁.1.2 first₂.1.2 first₁.2 first₂.2 hok₁ hok₂
    ⟨a₁, a₂, hactive₁, hactive₂,
      hsame a₁ (Option.mem_def.mpr hactive₁) a₂ (Option.mem_def.mpr hactive₂)⟩⟩

end Configurator

end ContainerNet
