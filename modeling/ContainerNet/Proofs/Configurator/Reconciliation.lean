import ContainerNet.Proofs.Configurator.Forgetting
import ContainerNet.Proofs.Route.Reconciliation

/-!
# What a policy and filters leave behind

Enforcing a policy and setting the shape or the rules of a link are programs that read the table and
then change it. If they succeed, each of their changes has been made on the table that they have
read, so what is known of changes that bring a table in line (`ExternalRoutes.isEnforced_changeAll`,
`filtersInForce_changeAll`) holds of what the kernel then has: `ExternalRoutes.enforce_reconciles`
for policies and `ShapedLink.set_reconciles` for links. Nothing is assumed about the table before,
which may hold routes of anyone, and several for one place.
-/

namespace ContainerNet

open Namespace (Answers)

/-! ## Policies -/

namespace ExternalRoutes

variable {e : ExternalRoutes} {p : RoutingPolicy} {n n' : Namespace}

/-- **What a policy leaves behind.** Wanted are the routes of the policy, except those through the
data link whose destination is held by a filter route. If a policy was enforced without an error,
the table is in line with it. -/
theorem enforce_reconciles (h : (e.enforce p).Ends Answers n (.ok ()) n') :
    (∀ r, r ∈ e.desired p n.table ↔ r ∈ e.derive p ∧ ¬(r.interface = some e.linkIndex ∧
      ∃ s ∈ n.table, s.origin = .rules ∧ s.destination = r.destination)) ∧
    e.IsEnforced p n.table n'.table := by
  refine ⟨fun r ↦ ?_, ?_⟩
  · rw [mem_desired]
    refine and_congr_right fun _ ↦ ?_
    push Not
    rw [imp_iff_not_or]
  · rw [ends_enforce h]
    exact isEnforced_changeAll e p n.table

/-- A table with a route of an earlier policy, a default route, a filter route in the place of the
connected route, and a route that is there twice. -/
theorem enforce_reconciles_crowded :
    let foreign : Route := { destination := .ofOctets 10 9 0 0 16, interface := some 4 }
    let connected := Route.connected (.ofOctets 16 0 0 0 16) 7
    let stale : Route := denying (.ofOctets 8 8 8 0 24)
    let filter := Route.filtering ⟨7, "eth1"⟩ (.ofOctets 16 0 0 0 16) .drop
    let kept := Route.connected (.ofOctets 172 17 0 0 16) 2
    let uplink : Route := { destination := .ofOctets 0 0 0 0 0, interface := some 2 }
    let e : ExternalRoutes := ⟨7, [kept, connected], some uplink⟩
    let n := { Configurator.bridged with table := [foreign, stale, uplink, filter, foreign] }
    let run := (e.enforce { action := .deny, exceptions := [] }).run Configurator.obliging n
    run.1 = .ok () ∧ run.2.table = [foreign, filter, foreign, kept] ∧
      e.IsEnforced { action := .deny, exceptions := [] } n.table run.2.table := by
  intro foreign connected stale filter kept uplink e n run
  have hok : run.1 = .ok () := by decide +kernel
  have hends : (e.enforce { action := .deny, exceptions := [] }).Ends Answers n run.1 run.2 :=
    Program.ends_run Configurator.obliging Configurator.answers_obliging _ _
  rw [hok] at hends
  exact ⟨hok, by decide +kernel, (enforce_reconciles hends).2⟩

end ExternalRoutes

/-! ## Links -/

namespace ShapedLink

variable {l l' : ShapedLink} {w w' : ShapedNamespace}

/-- What a namespace `w` has become in which shape and rules of a link were put into force. -/
structure IsInstalled (l : ShapedLink) (w w' : ShapedNamespace) : Prop where
  /-- The tree is the one that is planned for shape and rules. -/
  tree : ∃ commands, TrafficControl.plan l.shape l.rules = .ok commands ∧
    w'.trees l.link = some commands
  other_trees : ∀ link ≠ l.link, w'.trees link = w.trees link
  addresses : w'.addresses = w.addresses
  routes : FiltersInForce l.link l.shape.filter (w.own l.link) l.rules w.table w'.table

theorem isInstalled_of_ends (h : l.install.Ends ShapedNamespace.Answers w (.ok ()) w') :
    l.IsInstalled w w' := by
  have hrouting : w'.toNamespace = w.withFilters l :=
    ends_install (ShapedNamespace.ends_toNamespace h)
  obtain ⟨commands, hplan, htrees⟩ := ends_install_trees (ShapedNamespace.ends_trees h)
  constructor
  case tree => exact ⟨commands, hplan, by rw [htrees, Function.update_self]⟩
  case other_trees => exact fun link hlink ↦ by rw [htrees, Function.update_of_ne hlink]
  case addresses => rw [hrouting]; rfl
  case routes =>
    rw [hrouting]
    exact filtersInForce_changeAll w.truncate_of_mem_own w.table

theorem ends_update_installed {checked : Outcome Unit} {changed : ShapedLink}
    (h : (l.update checked changed).Ends ShapedNamespace.Answers w (.ok (), l') w') :
    l' = changed ∧ l'.IsInstalled w w' := by
  rcases ends_update h with ⟨e, -, he, -⟩ | ⟨rfl, hinstall⟩
  · exact absurd he nofun
  · exact ⟨rfl, isInstalled_of_ends hinstall⟩

/-- **What shape and rules leave behind.** If the shape or the rules of a link were set without an
error, whatever they were before, the tree is the one for the shape and the rules that the link has
now, and the table has their filter routes and the connected routes of the subnets whose filters
were lifted. All other trees and routes are as before. -/
theorem set_reconciles :
    (∀ shape, (l.setShape shape).Ends ShapedNamespace.Answers w (.ok (), l') w' →
      l' = { l with shape } ∧ l'.IsInstalled w w') ∧
    ∀ rules, (l.setRules rules).Ends ShapedNamespace.Answers w (.ok (), l') w' →
      l' = { l with rules } ∧ l'.IsInstalled w w' :=
  ⟨fun _ h ↦ ends_update_installed h, fun _ h ↦ ends_update_installed h⟩

/-- Rules are set on a link that drops everything, and then the shape is lifted: the connected route
of its subnet comes back. -/
theorem set_reconciles_lifted :
    let l : ShapedLink := { link := ⟨7, "eth1"⟩, shape := { filter := .drop } }
    let rules : List Rule := [⟨.ofOctets 16 0 5 0 24, { filter := .reject }⟩]
    let connected := Route.connected (.ofOctets 16 0 0 0 16) 7
    let first := (l.setRules rules).run Configurator.building Configurator.unshaped
    let second := (first.1.2.setShape {}).run Configurator.building first.2
    first.1.1 = .ok () ∧ first.1.2.IsInstalled Configurator.unshaped first.2 ∧
      connected ∉ first.2.table ∧ second.1.1 = .ok () ∧
      second.1.2.IsInstalled first.2 second.2 ∧ connected ∈ second.2.table := by
  intro l rules connected first second
  -- stated for any link and namespace, since those above are too large for the unifier
  have hends (p : Action (Outcome Unit × ShapedLink)) (w : ShapedNamespace)
      (hok : (p.run Configurator.building w).1.1 = .ok ()) :
      p.Ends ShapedNamespace.Answers w (.ok (), (p.run Configurator.building w).1.2)
        (p.run Configurator.building w).2 := by
    rw [← hok]
    exact Program.ends_run Configurator.building Configurator.answers_building _ _
  have hinstalled (l : ShapedLink) (w : ShapedNamespace)
      (first second : (Outcome Unit × ShapedLink) × ShapedNamespace)
      (hfirst : first = (l.setRules rules).run Configurator.building w)
      (hsecond : second = (first.1.2.setShape {}).run Configurator.building first.2)
      (hok₁ : first.1.1 = .ok ()) (hok₂ : second.1.1 = .ok ()) :
      first.1.2.IsInstalled w first.2 ∧ second.1.2.IsInstalled first.2 second.2 := by
    subst hsecond hfirst
    exact ⟨(set_reconciles.2 rules (hends _ _ hok₁)).2, (set_reconciles.1 {} (hends _ _ hok₂)).2⟩
  have hok₁ : first.1.1 = .ok () := by decide +kernel
  have hok₂ : second.1.1 = .ok () := by decide +kernel
  obtain ⟨hfirst, hsecond⟩ := hinstalled l Configurator.unshaped first second rfl rfl hok₁ hok₂
  exact ⟨hok₁, hfirst, by decide +kernel, hok₂, hsecond, by decide +kernel⟩

end ShapedLink

end ContainerNet
