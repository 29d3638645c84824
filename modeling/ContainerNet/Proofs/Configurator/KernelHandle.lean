import ContainerNet.Proofs.Configurator.Steps

/-!
# Who gives the handle on the kernel back

A configuration works with the handle that it was given and leaves it as it is, whatever the world
answers: it never asks for it to be given back (`holdsKernel_configure`). So a configurator that is
open before a configuration is open after it, and only closing it gives the handle back.

That the handle is not given back means that a request is not made, so it is shown program by
program and needs nothing about answers. What deals with routes alone does not make the request
because it is none of those about routes (`Action.IsRouting.holdsKernel`).
-/

namespace ContainerNet

/-- Whether the request is to give the handle on the kernel back. -/
def Effect.isClose : Effect → Bool
  | .closeKernel => true
  | _ => false

/-- The handle on the kernel is never given back. -/
abbrev Action.HoldsKernel {α : Type} (p : Action α) : Prop := p.Only fun q ↦ q.isClose = false

variable {α : Type}

theorem Action.IsRouting.holdsKernel {p : Action α} (hp : p.IsRouting) : p.HoldsKernel := by
  refine hp.mono fun q hq ↦ ?_
  cases q with
  | closeKernel => exact absurd hq Bool.false_ne_true
  | _ => rfl

theorem Plugin.ConfigList.holdsKernel_attach (list : ConfigList) (rt : Runtime) (p : RetryPolicy) :
    (list.attach rt p).HoldsKernel := by
  refine Program.Only.bind (Program.Only.expand (fun q ↦ ?_) _) fun _ ↦ Program.only_done
  cases q <;> exact ⟨rfl, fun _ ↦ Program.only_done⟩

theorem ShapedLink.holdsKernel_update (l changed : ShapedLink) (checked : Outcome Unit) :
    (l.update checked changed).HoldsKernel := by
  cases checked with
  | error e => exact Program.only_done
  | ok =>
    refine Program.Only.bind ?_ fun _ ↦ Program.only_done
    rw [install]
    split
    · exact Program.only_done
    · refine ⟨rfl, fun built ↦ ?_⟩
      rcases (built : Outcome Unit) with e | ⟨⟩
      · exact Program.only_done
      · exact changed.isRouting_afterTree.holdsKernel

namespace Configurator

theorem Step.holdsKernel_andThen {p q : Step} (hp : ∀ c, (p c).HoldsKernel)
    (hq : ∀ c, (q c).HoldsKernel) (c : Configurator) : (p.andThen q c).HoldsKernel := by
  refine Program.Only.bind (hp c) fun (outcome, c') ↦ ?_
  cases outcome with
  | error e => exact Program.only_done
  | ok => exact hq c'

theorem holdsKernel_detach (c : Configurator) : (detach c).HoldsKernel := by
  rw [detach]
  split
  · exact Program.only_done
  · refine Program.Only.bind ⟨rfl, fun _ ↦ Program.only_done⟩ fun result ↦ ?_
    cases result <;> exact Program.only_done

theorem holdsKernel_detachOther (wanted : Option Subnet) (c : Configurator) :
    (detachOther wanted c).HoldsKernel := by
  rw [detachOther]
  split
  · exact holdsKernel_detach c
  · exact Program.only_done

theorem holdsKernel_inspect (list : Plugin.ConfigList) (c : Configurator) :
    (inspect list c).HoldsKernel := by
  -- the link is looked up, then its addresses, and last the routes are captured
  refine Program.Only.bind ⟨rfl, fun _ ↦ Program.only_done⟩ fun found ↦ ?_
  rcases found with e | link
  · exact Program.only_done
  refine Program.Only.bind ⟨rfl, fun _ ↦ Program.only_done⟩ fun listed ↦ ?_
  rcases listed with e | addresses
  · exact Program.only_done
  refine Program.Only.bind ?_ fun c ↦ ?_
  · rw [noteAddresses]
    split
    · exact Program.only_done
    · exact ⟨rfl, fun _ ↦ Program.only_done⟩
  · refine Program.Only.bind ⟨rfl, fun _ ↦ Program.only_done⟩ fun captured ↦ ?_
    cases captured <;> exact Program.only_done

theorem holdsKernel_attach (wanted : Option Subnet) (c : Configurator) :
    (attach wanted c).HoldsKernel := by
  rw [attach]
  split
  · exact Program.only_done
  · refine Program.Only.bind (Plugin.ConfigList.holdsKernel_attach _ _ _) fun result ↦ ?_
    cases result with
    | error e => exact Program.only_done
    | ok a => exact holdsKernel_inspect _ c

theorem holdsKernel_onLink {set : ShapedLink → Action (Outcome Unit × ShapedLink)}
    (hset : ∀ l, (set l).HoldsKernel) (c : Configurator) : (onLink set c).HoldsKernel := by
  rw [onLink]
  split
  · exact Program.only_done
  · exact Program.Only.bind (hset _) fun _ ↦ Program.only_done

theorem holdsKernel_applyPolicy (config : NetworkConfig) (c : Configurator) :
    (applyPolicy config c).HoldsKernel := by
  rw [applyPolicy]
  split
  · exact Program.only_done
  · exact Program.Only.bind (ExternalRoutes.isRouting_enforce _ _).holdsKernel
      fun _ ↦ Program.only_done

/-- No configuration gives the handle on the kernel back. -/
theorem holdsKernel_configure (config : NetworkConfig) (c : Configurator) :
    (configure config c).HoldsKernel := by
  have hconverge : ∀ c, (converge config c).HoldsKernel :=
    Step.holdsKernel_andThen (holdsKernel_detachOther _) <|
      Step.holdsKernel_andThen (holdsKernel_attach _) <|
        Step.holdsKernel_andThen (holdsKernel_onLink fun l ↦ l.holdsKernel_update _ _) <|
          Step.holdsKernel_andThen (holdsKernel_onLink fun l ↦ l.holdsKernel_update _ _)
            (holdsKernel_applyPolicy config)
  rw [configure]
  split
  · exact Program.only_done
  · split
    · exact hconverge c
    · exact holdsKernel_detach c

end Configurator

end ContainerNet
