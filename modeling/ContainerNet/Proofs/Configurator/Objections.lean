import ContainerNet.Proofs.Binary.Value
import ContainerNet.Proofs.Configurator.KernelHandle
import ContainerNet.Proofs.Configurator.Outstanding
import ContainerNet.Proofs.Configurator.Recovery

/-!
# Configurations that are not acted on

Before anything is done a configuration is looked at, and there are four things that can be wrong
with it: it is for another network, it asks for an IPv6 address, the configurator is closed, or some
percentage is none. The first of these in that order is the `Objection` to the configuration.
`rejected_or_accepted` says that with an objection nothing at all is done, and that without one the
call does not end in such an error.

## Why the second part needs a proof

Shapes are checked again when they are set, after the container was attached, and attaching, the
rules and the policy all have errors of their own. So each step is followed to the errors that it
can end in (`Program.Returns`). The plugins need no assumption there: what they answer is wrapped.
Only an error of the kernel is handed on as it is.
-/

namespace ContainerNet

open Binary (Single)

/-! ## Percentages -/

/-- Whether a value is a number from zero to a hundred. -/
def IsPercent (x : Single) : Prop := ∃ q, x.value? = some q ∧ 0 ≤ q ∧ q ≤ 100

theorem Shape.isPercentage_iff {x : Single} : isPercentage x = true ↔ IsPercent x :=
  Binary.Number.isWithin_iff (n := 100) (by decide)

theorem Shape.isPercentage_eq_false_iff {x : Single} : isPercentage x = false ↔ ¬IsPercent x := by
  rw [← Bool.not_eq_true, isPercentage_iff]

/-- An error for the first value that is no percentage. -/
def firstBad (values : List (String × Single)) : Outcome Unit :=
  match values.find? fun p ↦ !Shape.isPercentage p.2 with
  | some (field, value) => .error (.invalidShape field value)
  | none => .ok ()

theorem firstBad_eq_error_iff {values : List (String × Single)} {e : Error} :
    firstBad values = .error e ↔ ∃ before field value after,
      values = before ++ (field, value) :: after ∧ (∀ p ∈ before, IsPercent p.2) ∧
        ¬IsPercent value ∧ e = .invalidShape field value := by
  have hfound : firstBad values = .error e ↔ ∃ field value,
      values.find? (fun p ↦ !Shape.isPercentage p.2) = some (field, value) ∧
        e = .invalidShape field value := by
    rw [firstBad]
    split
    next field value hfind =>
      rw [hfind]
      constructor
      · exact fun h ↦ ⟨field, value, rfl, (Except.error.inj h).symm⟩
      · rintro ⟨_, _, ⟨⟩, rfl⟩
        rfl
    next hfind =>
      rw [hfind]
      exact iff_of_false nofun fun ⟨_, _, hsome, _⟩ ↦ Option.some_ne_none _ hsome.symm
  simp only [hfound, List.find?_eq_some_iff_append, Bool.not_eq_true',
    Shape.isPercentage_eq_false_iff, Bool.not_not, Shape.isPercentage_iff]
  constructor
  · rintro ⟨field, value, ⟨hbad, before, after, hsplit, hgood⟩, he⟩
    exact ⟨before, field, value, after, hsplit, hgood, hbad, he⟩
  · rintro ⟨before, field, value, after, hsplit, hgood, hbad, he⟩
    exact ⟨field, value, ⟨hbad, before, after, hsplit, hgood⟩, he⟩

theorem forall_isPercent_of_firstBad {values : List (String × Single)}
    (h : firstBad values = .ok ()) : ∀ p ∈ values, IsPercent p.2 := by
  rw [firstBad] at h
  split at h
  next => exact absurd h nofun
  next hfind =>
    intro p hp
    have hgood := List.find?_eq_none.mp hfind p hp
    rwa [Bool.not_eq_true, Bool.not_eq_false', Shape.isPercentage_iff] at hgood

theorem firstBad_append (values values' : List (String × Single)) :
    firstBad (values ++ values') = (firstBad values).bind fun _ ↦ firstBad values' := by
  rw [firstBad, firstBad, List.find?_append]
  cases hfind : values.find? fun p ↦ !Shape.isPercentage p.2 with
  | none => rw [Option.none_or]; rfl
  | some p => rw [Option.some_or]; rfl

namespace NetworkConfig

/-- All percentages of a configuration: those of the default shape, then those of the rules. -/
def percentages (config : NetworkConfig) : List (String × Single) :=
  config.shape.percentages ++ config.rules.flatMap (·.shape.percentages)

theorem validate_eq_firstBad (config : NetworkConfig) :
    config.validate = firstBad config.percentages := by
  have hrules (rules : List Rule) : ShapedLink.validateRules rules =
      firstBad (rules.flatMap (·.shape.percentages)) := by
    induction rules with
    | nil => rfl
    | cons r rest ih =>
      rw [List.flatMap_cons, firstBad_append, ← ih]
      rfl
  rw [percentages, firstBad_append, ← hrules]
  rfl

end NetworkConfig

/-! ## Objections -/

/-- Whether an error is of one of the kinds with which a configuration is rejected. -/
def Error.isObjection : Error → Bool
  | .unsupportedNetwork _ _ | .notSupported _ | .closed | .invalidShape _ _ => true
  | _ => false

namespace Configurator

variable {c c' : Configurator} {config : NetworkConfig} {e : Error}

/-- What is wrong with a configuration, with the error that says so. Each applies only if nothing
does that comes before it. -/
inductive Objection (c : Configurator) (config : NetworkConfig) : Error → Prop
  /-- It is for another network. -/
  | network : config.network ≠ c.network.name →
    Objection c config (.unsupportedNetwork config.network c.network.name)
  /-- It asks for an IPv6 address. -/
  | ipv6 : config.network = c.network.name → config.ipv6 ≠ none →
    Objection c config (.notSupported "ipv6")
  /-- The configurator is closed. -/
  | closed : config.network = c.network.name → config.ipv6 = none → c.closed = true →
    Objection c config .closed
  /-- Some value is no percentage, and those before it are. -/
  | percentage {before after : List (String × Single)} {field : String} {value : Single} :
    config.network = c.network.name → config.ipv6 = none → c.closed = false →
    config.percentages = before ++ (field, value) :: after → (∀ p ∈ before, IsPercent p.2) →
    ¬IsPercent value → Objection c config (.invalidShape field value)

/-- What can be wrong with a configuration, in any order. -/
def IsObjectionable (c : Configurator) (config : NetworkConfig) : Prop :=
  config.network ≠ c.network.name ∨ config.ipv6 ≠ none ∨ c.closed = true ∨
    ∃ p ∈ config.percentages, ¬IsPercent p.2

theorem Objection.isObjection (h : c.Objection config e) : e.isObjection = true := by
  cases h <;> rfl

theorem check_eq_error_iff : c.check config = .error e ↔ c.Objection config e := by
  rw [check]
  split
  next hnetwork =>
    constructor
    · rintro ⟨⟩
      exact .network hnetwork
    · rintro (_ | hsame | hsame | hsame)
      · rfl
      all_goals exact absurd hsame hnetwork
  next hnetwork =>
  rw [not_not] at hnetwork
  split
  next hipv6 =>
    have hne : config.ipv6 ≠ none := Option.isSome_iff_ne_none.mp hipv6
    constructor
    · rintro ⟨⟩
      exact .ipv6 hnetwork hne
    · rintro (hother | _ | ⟨_, hnone⟩ | ⟨_, hnone⟩)
      · exact absurd hnetwork hother
      · rfl
      all_goals exact absurd hnone hne
  next hipv6 =>
  have hnone : config.ipv6 = none := by simpa using hipv6
  split
  next hclosed =>
    constructor
    · rintro ⟨⟩
      exact .closed hnetwork hnone hclosed
    · rintro (hother | ⟨_, hne⟩ | _ | ⟨_, _, hopen⟩)
      · exact absurd hnetwork hother
      · exact absurd hnone hne
      · rfl
      · exact absurd (hopen.symm.trans hclosed) Bool.false_ne_true
  next hopen =>
    rw [Bool.not_eq_true] at hopen
    rw [NetworkConfig.validate_eq_firstBad, firstBad_eq_error_iff]
    constructor
    · rintro ⟨before, field, value, after, hsplit, hgood, hbad, rfl⟩
      exact .percentage hnetwork hnone hopen hsplit hgood hbad
    · rintro (hother | ⟨_, hne⟩ | ⟨_, _, hclosed⟩ | ⟨_, _, _, hsplit, hgood, hbad⟩)
      · exact absurd hnetwork hother
      · exact absurd hnone hne
      · exact absurd (hopen.symm.trans hclosed) Bool.false_ne_true
      · exact ⟨_, _, _, _, hsplit, hgood, hbad, rfl⟩

theorem check_eq_ok_of_not_objection (h : ∀ e, ¬c.Objection config e) :
    c.check config = .ok () := by
  rcases hcheck : c.check config with e | ⟨⟩
  · exact absurd (check_eq_error_iff.mp hcheck) (h e)
  · rfl

theorem exists_objection_iff :
    (∃ e, c.Objection config e) ↔ c.IsObjectionable config := by
  constructor
  · rintro ⟨e, hobjection⟩
    cases hobjection with
    | network h => exact .inl h
    | ipv6 _ h => exact .inr (.inl h)
    | closed _ _ h => exact .inr (.inr (.inl h))
    | @percentage before after field value _ _ _ hsplit _ hbad =>
      refine .inr (.inr (.inr ⟨(field, value), ?_, hbad⟩))
      rw [hsplit]
      exact List.mem_append_right _ List.mem_cons_self
  · intro hwrong
    by_cases hnetwork : config.network = c.network.name
    case neg => exact ⟨_, .network hnetwork⟩
    by_cases hipv6 : config.ipv6 = none
    case neg => exact ⟨_, .ipv6 hnetwork hipv6⟩
    by_cases hclosed : c.closed = true
    case pos => exact ⟨_, .closed hnetwork hipv6 hclosed⟩
    obtain ⟨p, hp, hbad⟩ := ((hwrong.resolve_left (not_not.mpr hnetwork)).resolve_left
      (not_not.mpr hipv6)).resolve_left hclosed
    rcases hfirst : firstBad config.percentages with e | ⟨⟩
    · obtain ⟨before, field, value, after, hsplit, hgood, hbad, -⟩ :=
        firstBad_eq_error_iff.mp hfirst
      exact ⟨_, .percentage hnetwork hipv6 (Bool.eq_false_iff.mpr hclosed) hsplit hgood hbad⟩
    · exact absurd (forall_isPercent_of_firstBad hfirst p hp) hbad

end Configurator

/-! ## What later steps end in -/

/-- Whether an outcome is no objection. -/
def IsAccepted {α : Type} (o : Outcome α) : Prop := ∀ e, o = .error e → e.isObjection = false

section Accepted

variable {α β : Type}

theorem isAccepted_ok (a : α) : IsAccepted (.ok a : Outcome α) := fun _ h ↦ absurd h nofun

theorem isAccepted_error {e : Error} (h : e.isObjection = false) :
    IsAccepted (.error e : Outcome α) := fun _ he ↦ Except.error.inj he ▸ h

theorem IsAccepted.error {e : Error} (h : IsAccepted (.error e : Outcome α)) :
    IsAccepted (.error e : Outcome β) := isAccepted_error (h e rfl)

theorem IsAccepted.map {o : Outcome α} (h : IsAccepted o) (f : α → β) : IsAccepted (o.map f) := by
  rcases o with e | a
  · exact h.error
  · exact isAccepted_ok _

end Accepted

section Steps

variable {σ : Type} {env : (q : Effect) → q.Answer → σ → σ → Prop}

open Program (returns_done returns_ask returns_true)

theorem Action.returns_andThen {α β : Type} {p : Action (Outcome α)} {f : α → Action (Outcome β)}
    (hp : p.Returns env IsAccepted) (hf : ∀ a, (f a).Returns env IsAccepted) :
    (p.andThen f).Returns env IsAccepted := by
  refine hp.bind fun o ho ↦ ?_
  rcases o with e | a
  · exact returns_done ho.error
  · exact hf a

/-- Whatever the plugins answer, it is wrapped. -/
theorem Plugin.ConfigList.returns_attach (list : ConfigList) (rt : Runtime) (p : RetryPolicy) :
    (list.attach rt p).Returns env IsAccepted := by
  refine (returns_true _).bind fun result _ ↦ returns_done ?_
  rcases result with (⟨attempts, last⟩ | _ | _) | a
  · exact isAccepted_error rfl
  · exact isAccepted_error rfl
  · exact isAccepted_error rfl
  · exact isAccepted_ok _

namespace Configurator

/-- Whether a step ends in no objection. -/
def Step.Accepts (env : (q : Effect) → q.Answer → σ → σ → Prop) (p : Step) : Prop :=
  ∀ c, (p c).Returns env fun r ↦ IsAccepted r.1

theorem Step.Accepts.andThen {p q : Step} (hp : p.Accepts env) (hq : q.Accepts env) :
    (p.andThen q).Accepts env := by
  intro c
  refine (hp c).bind fun r hr ↦ ?_
  rcases r with ⟨e | ⟨⟩, c₁⟩
  · exact returns_done hr
  · exact hq c₁

theorem accepts_detach : Step.Accepts env detach := by
  intro c
  rw [detach]
  split
  · exact returns_done (isAccepted_ok _)
  · refine Program.Returns.bind (G := IsAccepted) ?_ fun o ho ↦ ?_
    · refine returns_ask fun answer s t _ ↦ returns_done ?_
      rcases (answer : Outcome Unit) with e | ⟨⟩
      · exact isAccepted_error rfl
      · exact isAccepted_ok _
    · rcases o with e | ⟨⟩
      · exact returns_done ho
      · exact returns_done (isAccepted_ok _)

theorem accepts_detachOther (wanted : Option Subnet) : Step.Accepts env (detachOther wanted) := by
  intro c
  rw [detachOther]
  split
  · exact accepts_detach c
  · exact returns_done (isAccepted_ok _)

end Configurator

end Steps

/-! ## Steps that ask the kernel -/

/-- Whether the kernel does not answer a request with an objection. -/
def Effect.IsImpartial : (q : Effect) → q.Answer → Prop
  | .linkByName _, answer => IsAccepted (answer : Outcome (Option Link))
  | .addresses _ _, answer => IsAccepted (answer : Outcome (List AnySubnet))
  | .routes, answer => IsAccepted (answer : Outcome RouteTable)
  | .replaceRoute _, answer => IsAccepted (answer : Outcome Unit)
  | .deleteRoute _, answer => IsAccepted (answer : Outcome Unit)
  | .trafficControl _ _, answer => IsAccepted (answer : Outcome Unit)
  | _, _ => True

/-- A world in which the kernel makes no objections. Plugins may answer as they like. -/
def IsImpartial {σ : Type} (env : (q : Effect) → q.Answer → σ → σ → Prop) : Prop :=
  ∀ q answer s t, env q answer s t → q.IsImpartial answer

section Impartial

variable {σ : Type} {env : (q : Effect) → q.Answer → σ → σ → Prop} (henv : IsImpartial env)
include henv

open Program (returns_done returns_ask returns_true)

theorem RouteChange.returns_performAll (changes : List RouteChange) :
    (performAll changes).Returns env IsAccepted := by
  induction changes with
  | nil => exact returns_done (isAccepted_ok _)
  | cons c rest ih =>
    refine Action.returns_andThen ?_ fun _ ↦ ih
    cases c with
    | put r => exact returns_ask fun answer s t h ↦ returns_done (henv _ answer s t h)
    | remove r => exact returns_ask fun answer s t h ↦ returns_done (henv _ answer s t h)

theorem ExternalRoutes.returns_enforce (e : ExternalRoutes) (p : RoutingPolicy) :
    (e.enforce p).Returns env IsAccepted := by
  refine returns_ask fun answer s t h ↦ ?_
  have haccepted : IsAccepted (answer : Outcome RouteTable) := henv _ answer s t h
  rcases (answer : Outcome RouteTable) with fault | table
  · exact returns_done haccepted.error
  · exact (returns_true _).bind fun _ _ ↦ RouteChange.returns_performAll henv _

namespace ShapedLink

theorem returns_addresses4 (l : ShapedLink) : l.addresses4.Returns env IsAccepted :=
  returns_ask fun answer s t h ↦ returns_done ((henv _ answer s t h).map _)

theorem returns_installRoutes (l : ShapedLink) (own : List Subnet) :
    (l.installRoutes own).Returns env IsAccepted := by
  refine returns_ask fun answer s t h ↦ ?_
  have haccepted : IsAccepted (answer : Outcome RouteTable) := henv _ answer s t h
  rcases (answer : Outcome RouteTable) with fault | table
  · exact returns_done haccepted.error
  · exact RouteChange.returns_performAll henv _

theorem returns_install (l : ShapedLink) : l.install.Returns env IsAccepted := by
  rw [install]
  split
  next e hplan =>
    -- too many rules are an error of the kernel
    refine returns_done (isAccepted_error ?_)
    rw [TrafficControl.plan] at hplan
    split at hplan
    · exact Except.error.inj hplan ▸ rfl
    · cases hplan
  next commands hplan =>
    refine returns_ask fun answer s t h ↦ ?_
    have haccepted : IsAccepted (answer : Outcome Unit) := henv _ answer s t h
    rcases (answer : Outcome Unit) with fault | ⟨⟩
    · exact returns_done haccepted.error
    · exact Action.returns_andThen (l.returns_addresses4 henv)
        fun _ ↦ l.returns_installRoutes henv _

end ShapedLink

namespace Configurator

variable {c : Configurator} {config : NetworkConfig}

theorem accepts_inspect (list : Plugin.ConfigList) : Step.Accepts env (inspect list) := by
  intro c
  have hresolve : (ShapedLink.resolve c.network.interface).Returns env IsAccepted := by
    refine returns_ask fun answer s t h ↦ returns_done ?_
    have haccepted : IsAccepted (answer : Outcome (Option Link)) := henv _ answer s t h
    rcases (answer : Outcome (Option Link)) with e | _ | link
    · exact haccepted.error
    · exact isAccepted_error rfl
    · exact isAccepted_ok _
  refine hresolve.bind fun found hfound ↦ ?_
  rcases found with e | link
  · exact returns_done hfound.error
  refine (link.returns_addresses4 henv).bind fun listed hlisted ↦ ?_
  rcases listed with e | addresses
  · exact returns_done hlisted.error
  refine (returns_true _).bind fun c₁ _ ↦ ?_
  have hsnapshot : (ExternalRoutes.snapshot link.link.index).Returns env IsAccepted :=
    returns_ask fun answer s t h ↦ returns_done ((henv _ answer s t h).map _)
  refine hsnapshot.bind fun captured hcaptured ↦ ?_
  rcases captured with e | captured
  · exact returns_done hcaptured.error
  · exact returns_done (isAccepted_ok _)

theorem accepts_attach (wanted : Option Subnet) : Step.Accepts env (attach wanted) := by
  intro c
  rw [attach]
  split
  · exact returns_done (isAccepted_ok _)
  · refine (Plugin.ConfigList.returns_attach _ _ _).bind fun result hresult ↦ ?_
    rcases result with e | a
    · exact returns_done hresult.error
    · exact accepts_inspect henv _ c

/-- A change that was checked before is not refused when it is made. -/
theorem accepts_update {checked : Outcome Unit} (hchecked : checked = .ok ())
    (change : ShapedLink → ShapedLink) :
    Step.Accepts env (onLink fun l ↦ l.update checked (change l)) := by
  subst hchecked
  intro c
  rw [onLink]
  split
  · exact returns_done (isAccepted_ok _)
  · refine Program.Returns.bind (G := fun r ↦ IsAccepted r.1) ?_ fun r hr ↦ returns_done hr
    exact ((change _).returns_install henv).bind fun o ho ↦ returns_done ho

theorem accepts_applyPolicy (config : NetworkConfig) : Step.Accepts env (applyPolicy config) := by
  intro c
  rw [applyPolicy]
  split
  · exact returns_done (isAccepted_ok _)
  next active _ =>
    exact (active.external.returns_enforce henv _).bind fun o ho ↦ returns_done ho

theorem returns_configure (hcheck : c.check config = .ok ()) :
    (configure config c).Returns env fun r ↦ IsAccepted r.1 := by
  rw [configure, hcheck]
  by_cases henable : config.enable = true
  · simp only [if_pos henable]
    have hvalid := ((check_eq_ok_iff henable).mp hcheck).2
    have hshape : Step.Accepts env (applyShape config) :=
      accepts_update henv hvalid.validate_shape fun l ↦ { l with shape := config.shape }
    have hrules : Step.Accepts env (applyRules config) :=
      accepts_update henv hvalid.validate_rules fun l ↦ { l with rules := config.rules }
    exact (accepts_detachOther _).andThen ((accepts_attach henv _).andThen
      (hshape.andThen (hrules.andThen (accepts_applyPolicy henv config)))) c
  · simp only [if_neg henable]
    exact accepts_detach c

end Configurator

end Impartial

/-! ## Closing -/

/-- How often the handle on the kernel was given back. -/
def History.closings (h : History) : Nat := h.countP (·.1.isClose)

namespace Configurator

open History (logging closings)

variable {c c' : Configurator} {config : NetworkConfig} {h h' : History}

def Call.isClose : Call → Bool
  | .close => true
  | .configure _ => false

/-- Calls are made one after the other, whether or not they fail. -/
def Performs {σ : Type} (env : (q : Effect) → q.Answer → σ → σ → Prop) :
    List Call → Configurator → σ → Configurator → σ → Prop
  | [], c, s, c', t => c' = c ∧ t = s
  | k :: rest, c, s, c', t => ∃ o c₁ u, (perform k c).Ends env s (o, c₁) u ∧
      Performs env rest c₁ u c' t

/-- A call gives the handle back if it is to close a configurator that is open. -/
theorem ends_perform_closings {k : Call} {o : Outcome Unit}
    (hends : (perform k c).Ends logging h (o, c') h') :
    c'.closed = (c.closed || k.isClose) ∧
      closings h' = closings h + if !c.closed && k.isClose then 1 else 0 := by
  cases k with
  | configure config =>
    rw [Call.isClose, Bool.or_false, Bool.and_false]
    refine ⟨(keeps_identity hends ⟨rfl, rfl⟩).1, ?_⟩
    refine Program.Ends.invariant (I := fun t ↦ closings t = closings h)
      (holdsKernel_configure config c) (fun q answer s t hq hst hs ↦ ?_) hends rfl
    rw [show t = ⟨q, answer⟩ :: s from hst, closings, List.countP_cons_of_neg (by rw [hq]; decide)]
    exact hs
  | close =>
    obtain ⟨c₁, u, hclose, hdone⟩ := (Program.ends_bind _ _).mp hends
    obtain ⟨-, rfl, rfl⟩ := Program.ends_done_pair.mp hdone
    rw [close] at hclose
    by_cases hclosed : c.closed = true
    · rw [if_pos hclosed] at hclose
      obtain ⟨rfl, rfl⟩ := hclose
      simp [hclosed]
    · rw [if_neg hclosed] at hclose
      obtain ⟨answer, _, hasked, rfl, rfl⟩ := hclose
      rw [Bool.not_eq_true] at hclosed
      rw [show h' = ⟨.closeKernel, answer⟩ :: h from hasked]
      simp [closings, hclosed, Effect.isClose, Call.isClose]

/-- However often a configurator is closed in a run, the handle is given back once, and not at all
if it was closed before. -/
theorem performs_closings {calls : List Call} (hcalls : Performs logging calls c h c' h') :
    c'.closed = (c.closed || calls.any Call.isClose) ∧
      closings h' = closings h + if !c.closed && calls.any Call.isClose then 1 else 0 := by
  induction calls generalizing c h with
  | nil =>
    obtain ⟨rfl, rfl⟩ := hcalls
    simp
  | cons k rest ih =>
    obtain ⟨o, c₁, h₁, hends, hrest⟩ := hcalls
    obtain ⟨hclosed, hcount⟩ := ends_perform_closings hends
    obtain ⟨hclosed', hcount'⟩ := ih hrest
    rw [hclosed', hcount', hclosed, hcount, List.any_cons]
    cases c.closed <;> cases k.isClose <;> simp

/-- **Rejected or accepted.** A configuration to which there is an objection is answered with the
first one, no request is made, and the configurator stays as it is. There is an objection exactly
if something is wrong. If nothing is, the call does not end with an error of such a kind, as long as
the kernel does not answer with one. And in whatever run, all calls to close a configurator that is
open give the handle on the kernel back once; from the first of them on there is an objection to
every configuration. -/
theorem rejected_or_accepted (c : Configurator) (config : NetworkConfig) :
    (∀ e, c.Objection config e →
      e.isObjection = true ∧ configure config c = .done (.error e, c)) ∧
    ((∃ e, c.Objection config e) ↔ c.IsObjectionable config) ∧
    (¬c.IsObjectionable config → ∀ (σ : Type) (env : (q : Effect) → q.Answer → σ → σ → Prop),
      IsImpartial env → ∀ s e c' t, (configure config c).Ends env s (.error e, c') t →
        e.isObjection = false) ∧
    ∀ calls h c' h', Performs logging calls c h c' h' →
      closings h' = closings h + (if !c.closed && calls.any Call.isClose then 1 else 0) ∧
        ((c.closed || calls.any Call.isClose) = true →
          ∀ config', ∃ e, c'.Objection config' e) := by
  refine ⟨fun e he ↦ ⟨he.isObjection, ?_⟩, exists_objection_iff, ?_, ?_⟩
  · rw [configure, check_eq_error_iff.mpr he]
  · intro hright σ env henv s e c' t hends
    have hcheck : c.check config = .ok () := check_eq_ok_of_not_objection fun e he ↦
      hright (exists_objection_iff.mp ⟨e, he⟩)
    exact returns_configure henv hcheck hends e rfl
  · intro calls h c' h' hcalls
    obtain ⟨hclosed, hcount⟩ := performs_closings hcalls
    refine ⟨hcount, fun hclose config' ↦ exists_objection_iff.mpr ?_⟩
    exact .inr (.inr (.inl (hclosed.trans hclose)))

/-- Where no tree can be built, the kernel says so with an error of its own. -/
theorem isImpartial_treeless (q : Effect) (n : Namespace) : q.IsImpartial (treeless q n).1 := by
  cases q with
  | trafficControl => exact isAccepted_error rfl
  | linkByName | addresses | routes | replaceRoute | deleteRoute => exact isAccepted_ok _
  | _ => trivial

/-- A loss that is no number is rejected, a configuration without anything special fails later where
no tree can be built, and closing twice closes once. -/
theorem rejected_or_accepted_in_turn :
    let unclear := { NetworkConfig.enabled "default" with shape := { loss := .nan } }
    let plain := NetworkConfig.enabled "default"
    let run := (configure plain fresh).run treeless bridged
    fresh.Objection unclear (.invalidShape "loss" .nan) ∧
      configure unclear fresh = .done (.error (.invalidShape "loss" .nan), fresh) ∧
      ¬fresh.IsObjectionable plain ∧ run.1.1 = .error (.backend "tc failed") ∧
      (Error.backend "tc failed").isObjection = false ∧
      ∃ c', Performs logging [.close, .close] fresh [] c' [⟨.closeKernel, ()⟩] ∧
        closings [⟨.closeKernel, ()⟩] = 1 ∧ ∀ config', ∃ e, c'.Objection config' e := by
  intro unclear plain run
  have hunclear : fresh.Objection unclear (.invalidShape "loss" .nan) := by
    -- it is the first percentage of all
    have hsplit : unclear.percentages = [] ++ ("loss", .nan) :: unclear.percentages.tail := rfl
    exact .percentage rfl rfl rfl hsplit (fun p hp ↦ absurd hp List.not_mem_nil)
      (Shape.isPercentage_eq_false_iff.mp (by decide))
  have hplain : ¬fresh.IsObjectionable plain := by
    have hgood : ∀ p ∈ plain.percentages, Shape.isPercentage p.2 = true := by decide +kernel
    rintro (hnetwork | hipv6 | hclosed | ⟨p, hp, hbad⟩)
    · exact hnetwork rfl
    · exact hipv6 rfl
    · exact absurd hclosed Bool.false_ne_true
    · exact hbad (Shape.isPercentage_iff.mp (hgood p hp))
  have hfails : run.1.1 = .error (.backend "tc failed") := by decide +kernel
  have hends : (configure plain fresh).Ends (fun q answer _ _ ↦ q.IsImpartial answer) bridged
      (.error (.backend "tc failed"), run.1.2) run.2 := by
    rw [← hfails]
    exact Program.ends_run treeless isImpartial_treeless _ _
  have hcalls : Performs logging [.close, .close] fresh [] { fresh with closed := true }
      [⟨.closeKernel, ()⟩] :=
    ⟨.ok (), _, _, ⟨(), _, rfl, rfl, rfl⟩, .ok (), _, _, ⟨rfl, rfl⟩, rfl, rfl⟩
  obtain ⟨hcount, hclosed⟩ := (rejected_or_accepted fresh unclear).2.2.2 _ _ _ _ hcalls
  exact ⟨hunclear, ((rejected_or_accepted fresh unclear).1 _ hunclear).2, hplain, hfails,
    (rejected_or_accepted fresh plain).2.2.1 hplain Namespace _ (fun _ _ _ _ h ↦ h) _ _ _ _ hends,
    _, hcalls, hcount, hclosed rfl⟩

end Configurator

end ContainerNet
