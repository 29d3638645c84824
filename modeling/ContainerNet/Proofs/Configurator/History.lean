import Mathlib.Tactic.Common
import ContainerNet.Proofs.Configurator.Steps

/-!
# Histories of a configurator

A history is what was asked of the world so far, with the answers, last first. It tells by itself
whether the container is attached: the last operation of the plugins that succeeded decides. Here is
that the memory of a configurator never says anything else, and that plugins are run in an orderly
way, whatever the configurations are and whichever operations fail.

## The assumption

A plugin that attaches successfully leaves an interface behind. If the interface cannot be looked at
right away the call fails and the attachment is forgotten, so all that is said here is said of
worlds in which it can (`recording`). Everything else may fail at any time.

## The invariant

`standing` replays a history. It agrees with the memory of the configurator between any two steps of
a call (`Remembers`), the address that was recorded included. All requests but those of the plugins
leave it alone, and of those that are not made in `inspect` nothing more has to be known.
-/

namespace ContainerNet

/-! ## Histories -/

/-- A request with its answer. -/
abbrev Exchange := (q : Effect) × q.Answer

/-- What was asked and answered, last first. -/
abbrev History := List Exchange

/-- Something that was attached. -/
structure Attachment where
  /-- What the plugins were given. -/
  list : Plugin.ConfigList
  runtime : Plugin.Runtime
  /-- The first IPv4 address of the listing that came first after that, once there was one. -/
  ipv4 : Option (Option Subnet) := none

namespace Effect

def isAttach : Effect → Bool
  | .attach .. => true
  | _ => false

def isDetach : Effect → Bool
  | .detach .. => true
  | _ => false

/-- Whether the request is for an operation of the plugins. -/
def isOperation (q : Effect) : Bool := q.isAttach || q.isDetach

theorem isAttach_eq_false {q : Effect} (h : q.isDetach = true) : q.isAttach = false := by
  cases q with
  | detach => rfl
  | _ => exact absurd h Bool.false_ne_true

/-- Whether the request only looks at the interface, or tells of it. -/
def isLook : Effect → Bool
  | .linkByName _ | .addresses _ _ | .routes | .log _ => true
  | _ => false

theorem isOperation_eq_false {q : Effect} (h : q.isLook = true) : q.isOperation = false := by
  cases q with
  | attach | detach => exact absurd h Bool.false_ne_true
  | _ => rfl

end Effect

namespace Exchange

/-- Whether the exchange is an operation of the plugins that succeeded. -/
def isDone : Exchange → Bool
  | ⟨.attach _ _ _ _, answer⟩ =>
    match (answer : Ending (Outcome Plugin.Result)) with
    | .finished _ (.ok _) => true
    | _ => false
  | ⟨.detach _ _, answer⟩ => (answer : Outcome Unit).isOk
  | _ => false

/-- Whether a look at the interface has shown what it is for. -/
def Shows : Exchange → Prop
  | ⟨.linkByName _, answer⟩ => ∃ link, answer = (.ok (some link) : Outcome (Option Link))
  | ⟨.addresses _ _, answer⟩ => ∃ nets, answer = (.ok nets : Outcome (List AnySubnet))
  | ⟨.routes, answer⟩ => ∃ table, answer = (.ok table : Outcome RouteTable)
  | _ => True

/-- What an exchange makes of what is attached. -/
def apply : Exchange → Option Attachment → Option Attachment
  | ⟨.attach list runtime _ _, answer⟩, s =>
    match (answer : Ending (Outcome Plugin.Result)) with
    | .finished _ (.ok _) => some { list, runtime }
    | _ => s
  | ⟨.detach _ _, answer⟩, s =>
    match (answer : Outcome Unit) with
    | .ok () => none
    | .error _ => s
  | ⟨.addresses _ _, answer⟩, s =>
    match (answer : Outcome (List AnySubnet)) with
    | .ok nets =>
      s.map fun a ↦ { a with ipv4 := a.ipv4.or (some (nets.filterMap AnySubnet.v4?).head?) }
    | .error _ => s
  | _, s => s

/-! ### What an exchange changes -/

variable {e : Exchange} {s : Option Attachment}

theorem apply_eq_none (hdetach : e.1.isDetach = true) (hdone : e.isDone = true) :
    e.apply s = none := by
  obtain ⟨q, answer⟩ := e
  cases q with
  | detach list runtime =>
    rcases (answer : Outcome Unit) with e | ⟨⟩
    · exact absurd hdone Bool.false_ne_true
    · rfl
  | _ => exact absurd hdetach Bool.false_ne_true

theorem isSome_apply (hattach : e.1.isAttach = true) (hdone : e.isDone = true) :
    (e.apply s).isSome = true := by
  obtain ⟨q, answer⟩ := e
  cases q with
  | attach list runtime earlier within =>
    rcases (answer : Ending (Outcome Plugin.Result)) with ⟨took, e | a⟩ | _ | _
    · exact absurd hdone Bool.false_ne_true
    · rfl
    · exact absurd hdone Bool.false_ne_true
    · exact absurd hdone Bool.false_ne_true
  | _ => exact absurd hattach Bool.false_ne_true

theorem isSome_apply_of_not_done (h : e.isDone = false) : (e.apply s).isSome = s.isSome := by
  obtain ⟨q, answer⟩ := e
  cases q with
  | attach list runtime earlier within =>
    rcases (answer : Ending (Outcome Plugin.Result)) with ⟨took, e | a⟩ | _ | _
    · rfl
    · exact absurd h.symm Bool.false_ne_true
    · rfl
    · rfl
  | detach list runtime =>
    rcases (answer : Outcome Unit) with e | ⟨⟩
    · rfl
    · exact absurd h.symm Bool.false_ne_true
  | addresses link family =>
    rcases (answer : Outcome (List AnySubnet)) with e | nets
    · rfl
    · exact Option.isSome_map
  | _ => rfl

theorem isAttach_or_isDetach (h : e.isDone = true) :
    e.1.isAttach = true ∨ e.1.isDetach = true := by
  obtain ⟨q, answer⟩ := e
  cases q with
  | attach => exact .inl rfl
  | detach => exact .inr rfl
  | _ => exact absurd h Bool.false_ne_true

theorem apply_eq_self (h : e.1.isOperation = false) (hs : ∀ a ∈ s, a.ipv4.isSome = true) :
    e.apply s = s := by
  obtain ⟨q, answer⟩ := e
  cases q with
  | attach | detach => exact absurd h.symm Bool.false_ne_true
  | addresses link family =>
    rcases (answer : Outcome (List AnySubnet)) with e | nets
    · rfl
    · cases s with
      | none => rfl
      | some a =>
        obtain ⟨list, runtime, ipv4⟩ := a
        obtain ⟨net, rfl⟩ := Option.isSome_iff_exists.mp (hs _ rfl)
        rfl
  | _ => rfl

end Exchange

namespace History

/-- What is attached after a history. -/
def standing : History → Option Attachment
  | [] => none
  | e :: h => e.apply (standing h)

/-- Whether the container has just been attached, and but for looks nothing was asked since. -/
def isFresh : History → Bool
  | [] => false
  | e :: h => if e.1.isLook then isFresh h else e.1.isAttach && e.isDone

/-- Whether an attempt to attach was only made when nothing was attached, and to detach only what
was. -/
def Orderly : History → Prop
  | [] => True
  | ⟨.attach _ _ _ _, _⟩ :: h => standing h = none ∧ Orderly h
  | ⟨.detach list runtime, _⟩ :: h =>
    (∃ a, standing h = some a ∧ a.list = list ∧ a.runtime = runtime) ∧ Orderly h
  | _ :: h => Orderly h

/-- The world remembers what it is asked. It answers as it likes, but looks that follow a successful
attachment succeed. -/
def recording (q : Effect) (answer : q.Answer) (h h' : History) : Prop :=
  h' = ⟨q, answer⟩ :: h ∧ (h.isFresh = true → Exchange.Shows ⟨q, answer⟩)

/-! ### Reading a history -/

variable {e : Exchange} {h h' : History}

@[simp] theorem standing_cons : standing (e :: h) = e.apply (standing h) := rfl

/-- Something is attached exactly when the last operation that succeeded was to attach. -/
theorem isSome_standing_iff :
    (standing h).isSome = true ↔
      ∃ e, h.find? Exchange.isDone = some e ∧ e.1.isAttach = true := by
  induction h with
  | nil => simp [standing]
  | cons e h ih =>
    rw [standing_cons]
    cases hdone : e.isDone with
    | false =>
      rw [Exchange.isSome_apply_of_not_done hdone, List.find?_cons_of_neg (by simp [hdone])]
      exact ih
    | true =>
      rw [List.find?_cons_of_pos hdone]
      rcases Exchange.isAttach_or_isDetach hdone with hattach | hdetach
      · simp [Exchange.isSome_apply hattach hdone, hattach]
      · simp [Exchange.apply_eq_none hdetach hdone, Effect.isAttach_eq_false hdetach]

theorem isSome_standing_append {between : History}
    (hkeep : ∀ e ∈ between, e.isDone = true → e.1.isDetach = false)
    (hon : (standing h).isSome = true) : (standing (between ++ h)).isSome = true := by
  induction between with
  | nil => exact hon
  | cons e between ih =>
    have hrest := ih fun e he ↦ hkeep e (List.mem_cons_of_mem _ he)
    rw [List.cons_append, standing_cons]
    cases hdone : e.isDone with
    | false => rwa [Exchange.isSome_apply_of_not_done hdone]
    | true =>
      have hdetach := hkeep e List.mem_cons_self hdone
      rcases Exchange.isAttach_or_isDetach hdone with hattach | hdetach'
      · exact Exchange.isSome_apply hattach hdone
      · rw [hdetach] at hdetach'
        exact absurd hdetach' Bool.false_ne_true

namespace Orderly

theorem of_cons (ho : Orderly (e :: h)) : Orderly h := by
  obtain ⟨q, answer⟩ := e
  cases q with
  | attach | detach => exact ho.2
  | _ => exact ho

theorem of_append {newer : History} (ho : Orderly (newer ++ h)) : Orderly h := by
  induction newer with
  | nil => exact ho
  | cons e newer ih => exact ih ho.of_cons

theorem cons (ho : Orderly h) (he : e.1.isOperation = false) : Orderly (e :: h) := by
  obtain ⟨q, answer⟩ := e
  cases q with
  | attach | detach => exact absurd he.symm Bool.false_ne_true
  | _ => exact ho

theorem standing_eq_none (ho : Orderly (e :: h)) (hattach : e.1.isAttach = true) :
    standing h = none := by
  obtain ⟨q, answer⟩ := e
  cases q with
  | attach => exact ho.1
  | _ => exact absurd hattach Bool.false_ne_true

theorem exists_detach_between {newer between : History} {e' : Exchange}
    (ho : Orderly (newer ++ e' :: (between ++ e :: h))) (hattach' : e'.1.isAttach = true)
    (hattach : e.1.isAttach = true) (hdone : e.isDone = true) :
    ∃ d ∈ between, d.1.isDetach = true ∧ d.isDone = true := by
  by_contra hnone
  push Not at hnone
  -- without such a detachment, what was attached first would still stand
  have hkeep : ∀ d ∈ between, d.isDone = true → d.1.isDetach = false := by
    intro d hd hdone
    by_contra hdetach
    exact hnone d hd (by simpa using hdetach) hdone
  have hoff := ho.of_append.standing_eq_none hattach'
  have hon := isSome_standing_append hkeep
    (show (standing (e :: h)).isSome = true from Exchange.isSome_apply hattach hdone)
  rw [hoff] at hon
  exact absurd hon Bool.false_ne_true

end Orderly

end History

/-! ## What does not touch the plugins -/

/-- No operation of the plugins is asked for. -/
abbrev Action.IsQuiet {α : Type} (p : Action α) : Prop := p.Only fun q ↦ q.isOperation = false

theorem Action.IsRouting.isQuiet {α : Type} {p : Action α} (hp : p.IsRouting) : p.IsQuiet := by
  refine hp.mono fun q hq ↦ ?_
  cases q with
  | attach | detach => exact absurd hq Bool.false_ne_true
  | _ => rfl

theorem ShapedLink.isQuiet_install (l : ShapedLink) : l.install.IsQuiet := by
  rw [install]
  split
  · exact Program.only_done
  · refine ⟨rfl, fun answer ↦ ?_⟩
    rcases (answer : Outcome Unit) with e | ⟨⟩
    · exact Program.only_done
    · exact l.isRouting_afterTree.isQuiet

/-! ## The invariant -/

/-- What a configurator remembers of an attached network. -/
def ActiveLink.attachment (a : ActiveLink) : Attachment := ⟨a.list, a.runtime, some a.ipv4⟩

/-- What a configurator believes to be attached. -/
def Configurator.memory (c : Configurator) : Option Attachment := c.active.map ActiveLink.attachment

theorem Configurator.isSome_ipv4_of_mem_memory (c : Configurator) :
    ∀ a ∈ c.memory, a.ipv4.isSome = true := by
  intro a ha
  obtain ⟨active, -, rfl⟩ := Option.map_eq_some_iff.mp ha
  rfl

namespace History

/-- An orderly history that goes on from another without detaching, and what is attached after
it. -/
structure Follows (h₀ : History) (s : Option Attachment) (h : History) : Prop where
  standing_eq : standing h = s
  orderly : Orderly h
  undisturbed : ∃ now, h = now ++ h₀ ∧ ∀ e ∈ now, e.1.isDetach = false

namespace Follows

variable {h₀ h h' : History} {s : Option Attachment} {q : Effect} {answer : q.Answer}

theorem refl (hs : standing h = s) (ho : Orderly h) : Follows h s h :=
  ⟨hs, ho, [], rfl, by simp⟩

theorem undisturbed_cons (hf : Follows h₀ s h) (hq : q.isDetach = false) :
    ∃ now, (⟨q, answer⟩ :: h : History) = now ++ h₀ ∧ ∀ e ∈ now, e.1.isDetach = false := by
  obtain ⟨now, rfl, hnow⟩ := hf.undisturbed
  refine ⟨⟨q, answer⟩ :: now, rfl, fun e he ↦ ?_⟩
  rcases List.mem_cons.mp he with rfl | he
  · exact hq
  · exact hnow e he

theorem other (hf : Follows h₀ s h) (hrec : recording q answer h h')
    (hq : q.isOperation = false) : Follows h₀ (Exchange.apply ⟨q, answer⟩ s) h' := by
  obtain ⟨rfl, -⟩ := hrec
  refine ⟨?_, hf.orderly.cons hq, hf.undisturbed_cons (Bool.or_eq_false_iff.mp hq).2⟩
  rw [standing_cons, hf.standing_eq]

/-- After a look the container still has just been attached. -/
theorem look {s' : Option Attachment} (hf : Follows h₀ s h) (hfresh : h.isFresh = true)
    (hrec : recording q answer h h') (hq : q.isLook = true)
    (hs' : Exchange.apply ⟨q, answer⟩ s = s') : Follows h₀ s' h' ∧ h'.isFresh = true := by
  subst hs'
  refine ⟨hf.other hrec (Effect.isOperation_eq_false hq), ?_⟩
  obtain ⟨rfl, -⟩ := hrec
  rwa [isFresh, if_pos hq]

theorem quiet (hf : Follows h₀ s h) (hs : ∀ a ∈ s, a.ipv4.isSome = true)
    (hq : q.isOperation = false) (hrec : recording q answer h h') : Follows h₀ s h' := by
  have hother := hf.other hrec hq
  rwa [Exchange.apply_eq_self hq hs] at hother

/-- What asks for no operation of the plugins leaves what is attached as it is. -/
theorem ends {α : Type} {p : Action α} {a : α} (hf : Follows h₀ s h)
    (hs : ∀ a ∈ s, a.ipv4.isSome = true) (hp : p.IsQuiet) (h : p.Ends recording h a h') :
    Follows h₀ s h' :=
  Program.Ends.invariant hp (fun _ _ _ _ hq hrec hf ↦ hf.quiet hs hq hrec) h hf

theorem attempt {list : Plugin.ConfigList} {runtime : Plugin.Runtime} {earlier : Nat}
    {within : Option Duration} {answer : Ending (Outcome Plugin.Result)}
    (hf : Follows h₀ none h)
    (hrec : recording (.attach list runtime earlier within) answer h h') :
    Follows h₀ (Exchange.apply ⟨.attach list runtime earlier within, answer⟩ none) h' := by
  obtain ⟨rfl, -⟩ := hrec
  refine ⟨?_, ⟨hf.standing_eq, hf.orderly⟩, hf.undisturbed_cons rfl⟩
  rw [standing_cons, hf.standing_eq]

end Follows

end History

/-! ## The steps of a call -/

namespace Configurator

open History

variable {c c' : Configurator} {o : Outcome Unit} {h h' h₀ : History} {config : NetworkConfig}

/-- The plugins are run until they attach or it is given up. -/
theorem follows_attachList {list : Plugin.ConfigList} {runtime : Plugin.Runtime} {p : RetryPolicy}
    {result : Outcome Plugin.Result} (hends : (list.attach runtime p).Ends recording h result h')
    (hf : Follows h₀ none h) :
    Retry.Leaves (Follows h₀ none)
      (fun _ h ↦ Follows h₀ (some { list, runtime }) h ∧ h.isFresh = true) result h' := by
  refine Plugin.ConfigList.ends_attach ?_ ?_ ?_ ?_ ?_ hends hf
  · intro answer s t hrec hs
    exact hs.quiet (by simp) rfl hrec
  · intro length within answer s t hrec hs
    exact hs.quiet (by simp) rfl hrec
  · intro entry answer s t hrec hs
    exact hs.quiet (by simp) rfl hrec
  · intro earlier within took result s t hrec hs
    cases result with
    | error e => exact hs.attempt hrec
    | ok a =>
      refine ⟨hs.attempt hrec, ?_⟩
      obtain ⟨rfl, -⟩ := hrec
      rfl
  · intro earlier within answer s t hrec hgivenUp hs
    rcases hgivenUp with rfl | rfl
    · exact hs.attempt hrec
    · exact hs.attempt hrec

/-- Right after an attachment the interface can be looked at, so the network comes online. -/
theorem follows_inspect {list : Plugin.ConfigList}
    (hends : (inspect list c).Ends recording h (o, c') h')
    (hf : Follows h₀ (some { list, runtime := c.runtime }) h) (hfresh : h.isFresh = true) :
    Follows h₀ c'.memory h' := by
  obtain ⟨found, u, hfound, hrest⟩ := ends_inspect hends
  -- all three looks are made while the container has just been attached, so none of them fails
  obtain ⟨hf₁, hfresh₁⟩ := hf.look hfresh hfound rfl rfl
  rcases hrest with ⟨e, hnot, -⟩ | ⟨link, listed, v, rfl, hlisted, hrest⟩
  · obtain ⟨link, hlink⟩ := hfound.2 hfresh
    exact absurd hlink (hnot link)
  rcases hrest with ⟨e, rfl, -⟩ | ⟨nets, c₁, w, snapshot, rfl, hnote, hroutes, hrest⟩
  · obtain ⟨nets, hnets⟩ := hlisted.2 hfresh₁
    exact absurd hnets nofun
  obtain ⟨hf₂, hfresh₂⟩ := hf₁.look hfresh₁ hlisted rfl rfl
  obtain ⟨warnings, rfl, hlog⟩ := ends_noteAddresses hnote
  have hf₃ : Follows h₀ (some ⟨list, c.runtime, some (nets.filterMap AnySubnet.v4?).head?⟩) w ∧
      w.isFresh = true := by
    rcases hlog with rfl | ⟨entry, hlog⟩
    · exact ⟨hf₂, hfresh₂⟩
    · exact hf₂.look hfresh₂ hlog rfl rfl
  rcases hrest with ⟨e, rfl, -⟩ | ⟨table, rfl, -, rfl⟩
  · obtain ⟨table, htable⟩ := hroutes.2 hf₃.2
    exact absurd htable nofun
  · exact (hf₃.1.look hf₃.2 hroutes rfl rfl).1

/-- A step after which the memory agrees with a history that goes on without detaching, if it did
before. -/
def KeepsMemory (p : Step) : Prop :=
  ∀ h₀, p.Keeps recording fun c h ↦ Follows h₀ c.memory h

theorem KeepsMemory.andThen {p q : Step} (hp : KeepsMemory p) (hq : KeepsMemory q) :
    KeepsMemory (p.andThen q) :=
  fun h₀ ↦ (hp h₀).andThen (hq h₀)

theorem keepsMemory_attach (wanted : Option Subnet) : KeepsMemory (attach wanted) := by
  intro h₀ c c' h h' o hends hf
  rcases ends_attach hends with ⟨-, -, rfl, rfl⟩ | ⟨hoffline, list, result, u, -, hattach, hrest⟩
  · exact hf
  have hnone : c.memory = none := by
    rw [memory, Option.map_eq_none_iff]
    simpa [isOnline] using hoffline
  rw [hnone] at hf
  have hleaves := follows_attachList hattach hf
  rcases hrest with ⟨e, rfl, -, rfl, rfl⟩ | ⟨a, rfl, hinspect⟩
  · rw [hnone]
    exact hleaves
  · exact follows_inspect hinspect hleaves.1 hleaves.2

theorem memory_setLink {active : ActiveLink} (h : c.active = some active) (link : ShapedLink) :
    (c.setLink active link).memory = c.memory := by
  rw [memory, memory, h]
  rfl

theorem keepsMemory_update (checked : Outcome Unit) (change : ShapedLink → ShapedLink) :
    KeepsMemory (onLink fun l ↦ l.update checked (change l)) := by
  intro h₀ c c' h h' o hends hf
  rcases ends_onLink hends with ⟨-, -, rfl, rfl⟩ | ⟨active, link, hactive, hset, rfl⟩
  · exact hf
  rw [memory_setLink hactive]
  rcases ShapedLink.ends_update hset with ⟨e, -, -, -, rfl⟩ | ⟨rfl, hinstall⟩
  · exact hf
  · exact hf.ends c.isSome_ipv4_of_mem_memory (ShapedLink.isQuiet_install _) hinstall

theorem keepsMemory_applyPolicy (config : NetworkConfig) : KeepsMemory (applyPolicy config) := by
  intro h₀ c c' h h' o hends hf
  rcases ends_applyPolicy hends with ⟨-, -, rfl, rfl⟩ | ⟨active, -, rfl, henforce⟩
  · exact hf
  · have hquiet := (ExternalRoutes.isRouting_enforce active.external config.policy).isQuiet
    exact hf.ends c'.isSome_ipv4_of_mem_memory hquiet henforce

/-! ## Calls -/

/-- When a call may detach: the network is attached, and it is to be disabled or asked for with
another address than the one on record. -/
def Call.AsksForDetach (k : Call) (c : Configurator) : Prop :=
  ∃ config active, k = .configure config ∧ c.active = some active ∧
    (config.enable = false ∨
      ∃ wanted, config.ipv4 = some wanted ∧ active.ipv4.map (·.address) ≠ some wanted.address)

/-- What a call has asked for, last first, has no detachment without a reason, and none but one. If
that fails then so does the call, with nothing changed and no attempt to attach. -/
structure Restrained (k : Call) (c : Configurator) (o : Outcome Unit) (c' : Configurator)
    (now : History) : Prop where
  detaches_once : (now.filter (·.1.isDetach)).length ≤ 1
  detaches_if_asked : ∀ e ∈ now, e.1.isDetach = true → k.AsksForDetach c
  failed : ∀ list runtime (fault : Error),
    ⟨.detach list runtime, (.error fault : Outcome Unit)⟩ ∈ now →
      o = .error (.detachFailed fault) ∧ c' = c ∧ ∀ e ∈ now, e.1.isAttach = false

variable {k : Call} {now : History}

theorem Restrained.of_undisturbed (hnow : ∀ e ∈ now, e.1.isDetach = false) :
    Restrained k c o c' now := by
  refine ⟨?_, fun e he hdetach ↦ ?_, fun list runtime fault hmem ↦ ?_⟩
  · rw [List.filter_eq_nil_iff.mpr (by simpa using hnow)]
    exact Nat.zero_le 1
  · rw [hnow e he] at hdetach
    exact absurd hdetach Bool.false_ne_true
  · exact absurd (hnow _ hmem).symm Bool.false_ne_true

/-- A detachment that was asked for, and what follows it unless it failed. -/
theorem Restrained.of_detach {list : Plugin.ConfigList} {runtime : Plugin.Runtime}
    {answer : Outcome Unit} (hasked : k.AsksForDetach c)
    (hnow : ∀ e ∈ now, e.1.isDetach = false)
    (hfailed : ∀ fault, answer = .error fault →
      now = [] ∧ o = .error (.detachFailed fault) ∧ c' = c) :
    Restrained k c o c' (now ++ [⟨.detach list runtime, answer⟩]) := by
  refine ⟨?_, fun _ _ _ ↦ hasked, fun list' runtime' fault hmem ↦ ?_⟩
  · rw [List.filter_append, List.filter_eq_nil_iff.mpr (by simpa using hnow), List.nil_append]
    exact List.length_filter_le _ _
  · rcases List.mem_append.mp hmem with hmem | hmem
    · exact absurd (hnow _ hmem).symm Bool.false_ne_true
    · cases List.mem_singleton.mp hmem
      obtain ⟨rfl, ho, hc⟩ := hfailed fault rfl
      refine ⟨ho, hc, fun e he ↦ ?_⟩
      cases List.mem_singleton.mp he
      rfl

theorem ends_detach_recording (hends : (detach c).Ends recording h (o, c') h')
    (hmem : standing h = c.memory) (ho : Orderly h) :
    standing h' = c'.memory ∧ Orderly h' ∧
      ((c.active = none ∧ h' = h) ∨
        ∃ active answer, c.active = some active ∧
          h' = ⟨.detach active.list active.runtime, answer⟩ :: h ∧
          ∀ fault, answer = (.error fault : Outcome Unit) →
            o = .error (.detachFailed fault) ∧ c' = c) := by
  rcases ends_detach hends with ⟨hoffline, -, rfl, rfl⟩ | ⟨active, answer, hactive, hrec, hrest⟩
  · exact ⟨hmem, ho, .inl ⟨hoffline, rfl⟩⟩
  obtain ⟨rfl, -⟩ := hrec
  have hattached : standing h = some active.attachment := by
    rw [hmem, memory, hactive]
    rfl
  have ho' : Orderly (⟨.detach active.list active.runtime, answer⟩ :: h) :=
    ⟨⟨_, hattached, rfl, rfl⟩, ho⟩
  rcases hrest with ⟨rfl, -, rfl⟩ | ⟨fault, rfl, rfl, rfl⟩
  · exact ⟨rfl, ho', .inr ⟨active, _, hactive, rfl, nofun⟩⟩
  · refine ⟨hmem, ho', .inr ⟨active, _, hactive, rfl, fun fault' h ↦ ?_⟩⟩
    cases h
    exact ⟨rfl, rfl⟩

theorem hasOtherAddress_iff {wanted : Option Subnet} {active : ActiveLink}
    (h : c.active = some active) :
    c.hasOtherAddress wanted = true ↔
      ∃ address, wanted = some address ∧
        active.ipv4.map (·.address) ≠ some address.address := by
  cases wanted <;> simp [hasOtherAddress, h]

/-- What comes after a detachment that did not fail does not detach. -/
theorem keepsMemory_rest (config : NetworkConfig) :
    KeepsMemory <| (attach config.ipv4).andThen <| (applyShape config).andThen <|
      (applyRules config).andThen (applyPolicy config) :=
  (keepsMemory_attach _).andThen <| (keepsMemory_update _ _).andThen <|
    (keepsMemory_update _ _).andThen (keepsMemory_applyPolicy _)

theorem ends_disable_recording (henable : config.enable = false)
    (hends : (detach c).Ends recording h (o, c') h') (hmem : standing h = c.memory)
    (ho : Orderly h) :
    standing h' = c'.memory ∧ Orderly h' ∧
      ∃ now, h' = now ++ h ∧ Restrained (.configure config) c o c' now := by
  obtain ⟨hmem', ho', hrest⟩ := ends_detach_recording hends hmem ho
  refine ⟨hmem', ho', ?_⟩
  rcases hrest with ⟨-, rfl⟩ | ⟨active, answer, hactive, rfl, hfailed⟩
  · exact ⟨[], rfl, .of_undisturbed (by simp)⟩
  · have hasked : (Call.configure config).AsksForDetach c :=
      ⟨config, active, rfl, hactive, .inl henable⟩
    exact ⟨_, rfl, .of_detach hasked (by simp) fun fault h ↦ ⟨rfl, hfailed fault h⟩⟩

theorem ends_converge_recording (hends : (converge config c).Ends recording h (o, c') h')
    (hmem : standing h = c.memory) (ho : Orderly h) :
    standing h' = c'.memory ∧ Orderly h' ∧
      ∃ now, h' = now ++ h ∧ Restrained (.configure config) c o c' now := by
  have hasked {active : ActiveLink} (hactive : c.active = some active)
      (hother : c.hasOtherAddress config.ipv4 = true) :
      (Call.configure config).AsksForDetach c :=
    ⟨config, active, rfl, hactive, .inr ((hasOtherAddress_iff hactive).mp hother)⟩
  rcases Step.ends_andThen.mp hends with ⟨e, rfl, hfirst⟩ | ⟨c₁, u, hfirst, hrest⟩
  · -- the call ends with a detachment that failed
    rcases ends_detachOther hfirst with ⟨hother, hdetach⟩ | ⟨-, hok, -⟩
    · obtain ⟨hmem', ho', hrest⟩ := ends_detach_recording hdetach hmem ho
      refine ⟨hmem', ho', ?_⟩
      rcases hrest with ⟨-, rfl⟩ | ⟨active, answer, hactive, rfl, hfailed⟩
      · exact ⟨[], rfl, .of_undisturbed (by simp)⟩
      · exact ⟨_, rfl, .of_detach (hasked hactive hother) (by simp)
          fun fault h ↦ ⟨rfl, hfailed fault h⟩⟩
    · exact absurd hok nofun
  rcases ends_detachOther hfirst with ⟨hother, hdetach⟩ | ⟨-, -, rfl, rfl⟩
  · -- the rest starts from the history in which the detachment is the last exchange
    obtain ⟨hmem', ho', hcase⟩ := ends_detach_recording hdetach hmem ho
    obtain ⟨hmem'', ho'', now, rfl, hnow⟩ := keepsMemory_rest config _ hrest (.refl hmem' ho')
    refine ⟨hmem'', ho'', ?_⟩
    rcases hcase with ⟨-, rfl⟩ | ⟨active, answer, hactive, rfl, hfailed⟩
    · exact ⟨now, rfl, .of_undisturbed hnow⟩
    · refine ⟨now ++ [_], by rw [List.append_assoc]; rfl, ?_⟩
      refine .of_detach (hasked hactive hother) hnow fun fault h ↦ ?_
      exact absurd (hfailed fault h).1 nofun
  · obtain ⟨hmem', ho', now, rfl, hnow⟩ := keepsMemory_rest config _ hrest (.refl hmem ho)
    exact ⟨hmem', ho', now, rfl, .of_undisturbed hnow⟩

theorem ends_perform_recording (hends : (perform k c).Ends recording h (o, c') h')
    (hmem : standing h = c.memory) (ho : Orderly h) :
    standing h' = c'.memory ∧ Orderly h' ∧ ∃ now, h' = now ++ h ∧ Restrained k c o c' now := by
  cases k with
  | close =>
    obtain ⟨c₁, u, hclose, hdone⟩ := (Program.ends_bind _ _).mp hends
    obtain ⟨rfl, rfl, rfl⟩ := Program.ends_done_pair.mp hdone
    rcases ends_close hclose with ⟨rfl, rfl⟩ | ⟨rfl, rfl, -⟩
    · exact ⟨hmem, ho, [], rfl, .of_undisturbed (by simp)⟩
    · exact ⟨hmem, ho.cons rfl, [_], rfl, .of_undisturbed (by simp [Effect.isDetach])⟩
  | configure config =>
    rcases ends_configure hends with ⟨e, -, rfl, rfl, rfl⟩ | ⟨-, hrest⟩
    · exact ⟨hmem, ho, [], rfl, .of_undisturbed (by simp)⟩
    · split at hrest
      next => exact ends_converge_recording hrest hmem ho
      next henable => exact ends_disable_recording (by simpa using henable) hrest hmem ho

/-- The invariant holds wherever a run comes to. -/
theorem Reaches.orderly {start : Configurator} (hnew : start.IsNew)
    (hreach : Reaches recording start [] c h) : standing h = c.memory ∧ Orderly h := by
  have hstart : standing [] = start.memory ∧ Orderly [] := by
    rw [memory, hnew.offline]
    exact ⟨rfl, trivial⟩
  have hcall (k : Call) :
      (perform k).Keeps recording fun c h ↦ standing h = c.memory ∧ Orderly h := by
    intro c c' h h' o hends hinv
    obtain ⟨hmem, ho, -⟩ := ends_perform_recording hends hinv.1 hinv.2
    exact ⟨hmem, ho⟩
  exact Reaches.invariant hstart hcall hreach

theorem isSome_memory (c : Configurator) : c.memory.isSome = c.isOnline := Option.isSome_map

/-- **Attaching and detaching in order.** After every call of every run: the network is online
exactly when the last operation of the plugins that succeeded was to attach; what is remembered is
what the history tells, the lists and the recorded address included; all attempts to attach were
made while nothing was attached, and all detachments were of what was; and the call itself has
detached at most once, with a reason, and did nothing more if that failed. -/
theorem orderly_of_reaches {start : Configurator} (hnew : start.IsNew)
    (hreach : Reaches recording start [] c h) (k : Call)
    (hcall : (perform k c).Ends recording h (o, c') h') :
    (c'.isOnline = true ↔ ∃ e, h'.find? Exchange.isDone = some e ∧ e.1.isAttach = true) ∧
      standing h' = c'.memory ∧ Orderly h' ∧
      (∀ newer e' between e older, h' = newer ++ e' :: (between ++ e :: older) →
        e'.1.isAttach = true → e.1.isAttach = true → e.isDone = true →
          ∃ d ∈ between, d.1.isDetach = true ∧ d.isDone = true) ∧
      ∃ now, h' = now ++ h ∧ Restrained k c o c' now := by
  obtain ⟨hmem, ho⟩ := Reaches.orderly hnew hreach
  obtain ⟨hmem', ho', hnow⟩ := ends_perform_recording hcall hmem ho
  refine ⟨?_, hmem', ho', ?_, hnow⟩
  · rw [← isSome_memory, ← hmem', isSome_standing_iff]
  · rintro newer e' between e older rfl hattach' hattach hdone
    exact ho'.exists_detach_between hattach' hattach hdone

/-- Answers everything with success, but detaching with a fault; the interface has one address. -/
def holdingOn (address : Subnet) : (q : Effect) → q.Answer
  | .linkByName name => (.ok (some ⟨7, name⟩) : Outcome (Option Link))
  | .addresses _ _ => (.ok [.v4 address] : Outcome (List AnySubnet))
  | .routes => (.ok [] : Outcome RouteTable)
  | .replaceRoute _ | .deleteRoute _ | .trafficControl _ _ => (.ok () : Outcome Unit)
  | .closeKernel | .log _ => ()
  | .attach _ _ _ _ => (.finished .zero (.ok {}) : Ending (Outcome Plugin.Result))
  | .detach _ _ => (.error (.backend "busy") : Outcome Unit)
  | .isCancelled => false
  | .pause length _ => (.finished length () : Ending Unit)

/-- Something that answers each request in one way only. -/
def answering (reply : (q : Effect) → q.Answer) (q : Effect) (h : History) : q.Answer × History :=
  (reply q, ⟨q, reply q⟩ :: h)

theorem recording_answering {reply : (q : Effect) → q.Answer}
    (hreply : ∀ q, Exchange.Shows ⟨q, reply q⟩) (q : Effect) (h : History) :
    recording q (answering reply q h).1 h (answering reply q h).2 :=
  ⟨rfl, fun _ ↦ hreply q⟩

theorem shows_holdingOn (address : Subnet) (q : Effect) :
    Exchange.Shows ⟨q, holdingOn address q⟩ := by
  cases q with
  | linkByName | addresses | routes => exact ⟨_, rfl⟩
  | _ => trivial

/-- A container that is asked to take another address, but cannot be detached, keeps the first. -/
theorem orderly_when_detaching_fails :
    let answer := answering (holdingOn (.ofOctets 16 0 1 5 16))
    let first := (perform (.configure (.enabled "default")) fresh).run answer []
    let k : Call := .configure
      { NetworkConfig.enabled "default" with ipv4 := some (.ofOctets 16 0 1 6 16) }
    let second := (perform k first.1.2).run answer first.2
    fresh.IsNew ∧ second.1.1 = .error (.detachFailed (.backend "busy")) ∧
      second.1.2.isOnline = true ∧ Orderly second.2 ∧
      ∃ now, second.2 = now ++ first.2 ∧ Restrained k first.1.2 second.1.1 second.1.2 now := by
  intro answer first k second
  have hanswer := recording_answering (shows_holdingOn (.ofOctets 16 0 1 5 16))
  have hfirst : (perform (.configure (.enabled "default")) fresh).Ends recording [] first.1
    first.2 := Program.ends_run answer hanswer _ _
  have hsecond : (perform k first.1.2).Ends recording first.2 second.1 second.2 :=
    Program.ends_run answer hanswer _ _
  have hfault : second.1.1 = .error (.detachFailed (.backend "busy")) := by decide +kernel
  have honline : second.1.2.isOnline = true := by decide +kernel
  -- the two runs are computed above; from here on their ends alone matter
  clear_value first second
  obtain ⟨⟨o₁, c₁⟩, h₁⟩ := first
  obtain ⟨⟨o₂, c₂⟩, h₂⟩ := second
  have hreach : Reaches recording fresh [] c₁ h₁ := .call _ .start hfirst
  obtain ⟨-, -, ho, -, hnow⟩ := orderly_of_reaches isNew_fresh hreach k hsecond
  exact ⟨isNew_fresh, hfault, honline, ho, hnow⟩

end Configurator

end ContainerNet
