import ContainerNet.Proofs.Configurator.ControlPlane

/-!
# Going on after a call that failed

A call that fails leaves what it has done, and a later call is to go on from there. Here is when it
can: a call that asks for nothing unreasonable, in a world that grants every request, succeeds
exactly when the rules that are in force on the link when its shape is set are not too many for a
tree (`later_call_iff`).

## Why rules of an earlier call matter

Shape and rules are set one after the other, and each time the whole tree is built. So a new shape
is put into force together with the old rules. These are remembered from the last call that came to
set them, whether or not they could be put into force. A list that is longer than a tree can hold is
remembered too, and from then on no shape can be set, so no call comes to replace the rules
(`isBlocked_of_overlong`). Only a new attachment forgets them. All else that a failed call can leave
behind does no harm.
-/

namespace ContainerNet

/-- Whether an answer grants what was asked for. -/
def Effect.Granted : (q : Effect) → q.Answer → Prop
  | .linkByName _, answer => ∃ link, answer = (.ok (some link) : Outcome (Option Link))
  | .addresses _ _, answer => ∃ nets, answer = (.ok nets : Outcome (List AnySubnet))
  | .routes, answer => ∃ table, answer = (.ok table : Outcome RouteTable)
  | .replaceRoute _, answer => answer = (.ok () : Outcome Unit)
  | .deleteRoute _, answer => answer = (.ok () : Outcome Unit)
  | .trafficControl _ _, answer => answer = (.ok () : Outcome Unit)
  | .attach _ _ _ _, answer =>
    ∃ took result, answer = (.finished took (.ok result) : Ending (Outcome Plugin.Result))
  | .detach _ _, answer => answer = (.ok () : Outcome Unit)
  | .isCancelled, answer => answer = false
  | .closeKernel, _ | .pause _ _, _ | .log _, _ => True

/-- A world in which nothing goes wrong. -/
def granting {σ : Type} (q : Effect) (answer : q.Answer) (_ _ : σ) : Prop := q.Granted answer

variable {σ : Type} {s t : σ} {o : Outcome Unit}

/-! ## What is in order -/

theorem Shape.validate_eq_ok_iff {shape : Shape} :
    shape.validate = .ok () ↔ ∀ p ∈ shape.percentages, Shape.isPercentage p.2 = true := by
  rw [Shape.validate]
  split
  next field value hfind =>
    have hbad := List.find?_some hfind
    refine ⟨fun h ↦ absurd h nofun, fun h ↦ ?_⟩
    have hgood := h _ (List.mem_of_find?_eq_some hfind)
    simp [hgood] at hbad
  next hfind =>
    rw [List.find?_eq_none] at hfind
    exact ⟨fun _ p hp ↦ by simpa using hfind p hp, fun _ ↦ rfl⟩

theorem ShapedLink.validateRules_eq_ok_iff {rules : List Rule} :
    validateRules rules = .ok () ↔ ∀ r ∈ rules, r.shape.validate = .ok () := by
  induction rules with
  | nil => simp [validateRules, pure, Except.pure]
  | cons r rest ih =>
    rw [validateRules] at ih ⊢
    rw [List.forM_eq_forM, List.forM_cons, List.forall_mem_cons, ← ih]
    rcases hr : r.shape.validate with e | ⟨⟩
    · exact ⟨fun h ↦ absurd h nofun, fun h ↦ absurd h.1 nofun⟩
    · exact ⟨fun h ↦ ⟨rfl, h⟩, fun h ↦ h.2⟩

/-- A tree has room for so many rules. -/
theorem TrafficControl.plan_eq_ok_iff {shape : Shape} {rules : List Rule} :
    (∃ commands, plan shape rules = .ok commands) ↔ rules.length ≤ maxRules := by
  rw [plan]
  split
  next h => exact ⟨fun ⟨_, hok⟩ ↦ absurd hok nofun, fun hle ↦ absurd h (Nat.not_lt.mpr hle)⟩
  next h => exact ⟨fun _ ↦ Nat.not_lt.mp h, fun _ ↦ ⟨_, rfl⟩⟩

/-- What can be asked of a network, however many rules there are: it is the managed one, it is to be
attached, without IPv6, and all percentages are such. -/
structure NetworkConfig.IsValid (config : NetworkConfig) (network : String) : Prop where
  network_eq : config.network = network
  enable : config.enable = true
  ipv6 : config.ipv6 = none
  shape : ∀ p ∈ config.shape.percentages, Shape.isPercentage p.2 = true
  rules : ∀ r ∈ config.rules, ∀ p ∈ r.shape.percentages, Shape.isPercentage p.2 = true

namespace NetworkConfig.IsValid

variable {config : NetworkConfig} {network : String}

theorem validate_shape (h : config.IsValid network) : config.shape.validate = .ok () :=
  Shape.validate_eq_ok_iff.mpr h.shape

theorem validate_rules (h : config.IsValid network) :
    ShapedLink.validateRules config.rules = .ok () :=
  ShapedLink.validateRules_eq_ok_iff.mpr fun r hr ↦ Shape.validate_eq_ok_iff.mpr (h.rules r hr)

end NetworkConfig.IsValid

/-! ## Requests that are granted -/

theorem Action.ends_request_granting {q : Effect} {answer : q.Answer}
    (h : (Program.request (A := Effect.Answer) q).Ends granting s answer t) : q.Granted answer :=
  Program.ends_request.mp h

theorem Action.ends_run_granting {α : Type} {answer : (q : Effect) → σ → q.Answer × σ}
    (hgrant : ∀ (q : Effect) (w : σ), q.Granted (answer q w).1) (p : Action α) (w : σ) :
    p.Ends granting w (p.run answer w).1 (p.run answer w).2 :=
  Program.ends_run answer hgrant p w

theorem RouteChange.ends_performAll_granting {changes : List RouteChange}
    (h : (performAll changes).Ends granting s o t) : o = .ok () := by
  induction changes generalizing s with
  | nil => exact h.1
  | cons c rest ih =>
    obtain ⟨answer, u, hc, hrest⟩ := (Program.ends_bind _ _).mp h
    have hanswer : answer = .ok () := by
      cases c with
      | put r => exact Action.ends_request_granting hc
      | remove r => exact Action.ends_request_granting hc
    rw [hanswer] at hrest
    exact ih hrest

theorem ExternalRoutes.ends_enforce_granting {e : ExternalRoutes} {p : RoutingPolicy}
    (h : (e.enforce p).Ends granting s o t) : o = .ok () := by
  obtain ⟨answer, u, ⟨table, rfl⟩, h⟩ := h
  obtain ⟨_, v, -, hchanges⟩ := (Program.ends_bind _ _).mp h
  exact RouteChange.ends_performAll_granting hchanges

namespace ShapedLink

variable {l : ShapedLink}

theorem ends_install_granting (h : l.install.Ends granting s o t) :
    (l.rules.length ≤ TrafficControl.maxRules ∧ o = .ok ()) ∨
      (TrafficControl.maxRules < l.rules.length ∧ ∃ e, o = .error e) := by
  rw [install] at h
  split at h
  next e hplan =>
    refine .inr ⟨?_, e, h.1⟩
    by_contra hle
    have hroom : ∃ commands, TrafficControl.plan l.shape l.rules = .ok commands :=
      TrafficControl.plan_eq_ok_iff.mpr (Nat.not_lt.mp hle)
    obtain ⟨commands, hok⟩ := hroom
    rw [hplan] at hok
    cases hok
  next commands hplan =>
    refine .inl ⟨TrafficControl.plan_eq_ok_iff.mp ⟨commands, hplan⟩, ?_⟩
    obtain ⟨built, u, rfl, h⟩ := h
    obtain ⟨listed, v, ⟨answer, w, ⟨nets, rfl⟩, rfl, rfl⟩, h⟩ := (Program.ends_bind _ _).mp h
    obtain ⟨answer, w, ⟨table, rfl⟩, h⟩ := h
    exact RouteChange.ends_performAll_granting h

end ShapedLink

theorem Plugin.ConfigList.ends_attach_granting {list : ConfigList} {rt : Runtime} {p : RetryPolicy}
    {result : Outcome Result} (h : (list.attach rt p).Ends granting s result t) :
    ∃ a, result = .ok a := by
  obtain ⟨r, u, hrun, rfl, rfl⟩ := (Program.ends_bind _ _).mp h
  rw [Program.ends_expand] at hrun
  have hok : ∃ a, r = .ok a := by
    refine Retry.ends_run_ok ?_ ?_ hrun
    · intro answer s t hask
      exact Action.ends_request_granting hask
    · intro earlier within answer s t hask
      exact Action.ends_request_granting hask
  obtain ⟨a, rfl⟩ := hok
  exact ⟨a, rfl⟩

/-! ## The steps of a call -/

namespace Configurator

variable {c c' : Configurator} {config : NetworkConfig} {wanted : Option Subnet}

theorem check_eq_ok_iff (henable : config.enable = true) :
    c.check config = .ok () ↔ c.closed = false ∧ config.IsValid c.network.name := by
  constructor
  · intro h
    rw [check] at h
    split at h
    next => exact absurd h nofun
    next hnetwork =>
    split at h
    next => exact absurd h nofun
    next hipv6 =>
    split at h
    next => exact absurd h nofun
    next hopen =>
    rw [NetworkConfig.validate] at h
    rcases hshape : config.shape.validate with e | ⟨⟩
    · rw [hshape] at h
      exact absurd h nofun
    rw [hshape] at h
    have hrules := ShapedLink.validateRules_eq_ok_iff.mp h
    exact ⟨by simpa using hopen, not_not.mp hnetwork, henable, by simpa using hipv6,
      Shape.validate_eq_ok_iff.mp hshape,
      fun r hr ↦ Shape.validate_eq_ok_iff.mp (hrules r hr)⟩
  · rintro ⟨hopen, hvalid⟩
    rw [check, if_neg (by simp [hvalid.network_eq]), if_neg (by simp [hvalid.ipv6]),
      if_neg (by simp [hopen]), NetworkConfig.validate, hvalid.validate_shape]
    exact hvalid.validate_rules

/-- The rules that are in force on the link when a call comes to set the shape: those that are
remembered, unless the call attaches the container anew. -/
def keptRules (c : Configurator) (wanted : Option Subnet) : List Rule :=
  match c.active with
  | none => []
  | some active => if c.hasOtherAddress wanted then [] else active.link.rules

/-- No shape can be set, since too many rules are remembered. -/
def IsBlocked (c : Configurator) (wanted : Option Subnet) : Prop :=
  TrafficControl.maxRules < (c.keptRules wanted).length

instance (c : Configurator) (wanted : Option Subnet) : Decidable (c.IsBlocked wanted) :=
  inferInstanceAs (Decidable (_ < _))

theorem keptRules_eq {active : ActiveLink} (hactive : c.active = some active)
    (hsame : c.hasOtherAddress wanted = false) : c.keptRules wanted = active.link.rules := by
  simp [keptRules, hactive, hsame]

theorem keptRules_congr {active active' : ActiveLink} (hactive' : c'.active = some active')
    (hactive : c.active = some active) (hrules : active'.link.rules = active.link.rules)
    (haddress : active'.ipv4 = active.ipv4) : c'.keptRules = c.keptRules := by
  funext wanted
  cases wanted with
  | none =>
    rw [keptRules_eq hactive (hasOtherAddress_none c),
      keptRules_eq hactive' (hasOtherAddress_none c'), hrules]
  | some address => simp [keptRules, hasOtherAddress, hactive, hactive', hrules, haddress]

theorem IsBlocked.of_none (h : c.IsBlocked wanted) : c.IsBlocked none := by
  rw [IsBlocked, keptRules] at h
  split at h
  · exact absurd h (Nat.not_lt_zero _)
  next active hactive =>
    split at h
    · exact absurd h (Nat.not_lt_zero _)
    · rwa [IsBlocked, keptRules_eq hactive (hasOtherAddress_none c)]

theorem ends_detach_granting (h : (detach c).Ends granting s (o, c') t) :
    o = .ok () ∧ c'.active = none := by
  rcases ends_detach h with ⟨hoffline, rfl, rfl, -⟩ | ⟨active, answer, -, hanswer, h⟩
  · exact ⟨rfl, hoffline⟩
  rcases h with ⟨-, rfl, rfl⟩ | ⟨e, rfl, -, -⟩
  · exact ⟨rfl, rfl⟩
  · exact absurd (show (.error e : Outcome Unit) = .ok () from hanswer) nofun

theorem ends_detachOther_granting (h : (detachOther wanted c).Ends granting s (o, c') t) :
    o = .ok () ∧ ((c.hasOtherAddress wanted = true ∧ c'.active = none) ∨
      (c.hasOtherAddress wanted = false ∧ c' = c)) := by
  rcases ends_detachOther h with ⟨hother, h⟩ | ⟨hsame, rfl, rfl, -⟩
  · obtain ⟨ho, hoffline⟩ := ends_detach_granting h
    exact ⟨ho, .inl ⟨hother, hoffline⟩⟩
  · exact ⟨rfl, .inr ⟨hsame, rfl⟩⟩

theorem ends_inspect_granting {list : Plugin.ConfigList}
    (h : (inspect list c).Ends granting s (o, c') t) :
    o = .ok () ∧ ∃ active, c'.active = some active ∧ active.link.rules = [] := by
  obtain ⟨found, u, ⟨link, rfl⟩, hrest⟩ := ends_inspect h
  rcases hrest with ⟨e, hnone, -⟩ | ⟨link', listed, v, -, ⟨nets, rfl⟩, hrest⟩
  · exact absurd rfl (hnone link)
  rcases hrest with ⟨e, he, -⟩ | ⟨nets', c₁, w, snapshot, -, -, ⟨table, rfl⟩, hrest⟩
  · exact absurd he nofun
  rcases hrest with ⟨e, he, -⟩ | ⟨table', -, rfl, rfl⟩
  · exact absurd he nofun
  · exact ⟨rfl, _, rfl, rfl⟩

theorem ends_attach_granting (h : (attach wanted c).Ends granting s (o, c') t) :
    o = .ok () ∧ ∃ active, c'.active = some active ∧
      (c.active = some active ∨ (c.active = none ∧ active.link.rules = [])) := by
  rcases ends_attach h with ⟨honline, rfl, rfl, -⟩ | ⟨hoffline, list, result, u, -, hattach, h⟩
  · obtain ⟨active, hactive⟩ := Option.isSome_iff_exists.mp honline
    exact ⟨rfl, active, hactive, .inl hactive⟩
  obtain ⟨a, rfl⟩ := Plugin.ConfigList.ends_attach_granting hattach
  rcases h with ⟨e, he, -⟩ | ⟨a', -, h⟩
  · exact absurd he nofun
  obtain ⟨ho, active, hactive, hrules⟩ := ends_inspect_granting h
  refine ⟨ho, active, hactive, .inr ⟨?_, hrules⟩⟩
  simpa [isOnline] using hoffline

/-- A valid change of the link is remembered, and it fails only if there are too many rules. -/
theorem ends_update_granting (change : ShapedLink → ShapedLink) {active : ActiveLink}
    (hactive : c.active = some active)
    (h : (onLink (fun l ↦ l.update (.ok ()) (change l)) c).Ends granting s (o, c') t) :
    c'.active = some { active with link := change active.link } ∧
      (((change active.link).rules.length ≤ TrafficControl.maxRules ∧ o = .ok ()) ∨
        (TrafficControl.maxRules < (change active.link).rules.length ∧ ∃ e, o = .error e)) := by
  rcases ends_onLink_update hactive h with ⟨e, he, -⟩ | ⟨rfl, hinstall⟩
  · exact absurd he nofun
  · exact ⟨rfl, ShapedLink.ends_install_granting hinstall⟩

theorem ends_applyPolicy_granting (h : (applyPolicy config c).Ends granting s (o, c') t) :
    o = .ok () ∧ c' = c := by
  rcases ends_applyPolicy h with ⟨-, rfl, rfl, -⟩ | ⟨active, -, rfl, henforce⟩
  · exact ⟨rfl, rfl⟩
  · exact ⟨ExternalRoutes.ends_enforce_granting henforce, rfl⟩

/-- Up to the shape, a call leaves the link as it is, with the rules that are kept, or brings up a
link without any. -/
theorem ends_reattach_granting {c₁ c₂ : Configurator} {u v : σ}
    (hdetach : (detachOther wanted c).Ends granting s (.ok (), c₁) u)
    (hattach : (attach wanted c₁).Ends granting u (.ok (), c₂) v) :
    ∃ active, c₂.active = some active ∧ active.link.rules = c.keptRules wanted ∧
      (c.active = some active ∨ c.keptRules wanted = []) := by
  obtain ⟨-, active, hactive, hkept⟩ := ends_attach_granting hattach
  refine ⟨active, hactive, ?_⟩
  rcases (ends_detachOther_granting hdetach).2 with ⟨hother, hoffline⟩ | ⟨hsame, rfl⟩
  · have hnone : c.keptRules wanted = [] := by
      rw [keptRules]
      split
      · rfl
      · rw [if_pos hother]
    rcases hkept with hkept | ⟨-, hrules⟩
    · rw [hoffline] at hkept
      exact absurd hkept nofun
    · exact ⟨hrules.trans hnone.symm, .inr hnone⟩
  · rcases hkept with hkept | ⟨hoffline, hrules⟩
    · exact ⟨(keptRules_eq hkept hsame).symm, .inl hkept⟩
    · have hnone : c₁.keptRules wanted = [] := by rw [keptRules, hoffline]
      exact ⟨hrules.trans hnone.symm, .inr hnone⟩

/-- What a valid call comes to: it stops at the shape if too many rules are kept, and at the rules
if it brings too many itself. In the one case it leaves the rules as they are, in the other it
remembers its own. -/
theorem ends_converge_granting {network : String} (hvalid : config.IsValid network)
    (h : (converge config c).Ends granting s (o, c') t) :
    (c.IsBlocked config.ipv4 ∧ (∃ e, o = .error e) ∧ c'.keptRules = c.keptRules) ∨
      (¬c.IsBlocked config.ipv4 ∧ c'.keptRules none = config.rules ∧
        ((config.rules.length ≤ TrafficControl.maxRules ∧ o = .ok ()) ∨
          (TrafficControl.maxRules < config.rules.length ∧ ∃ e, o = .error e))) := by
  rcases Step.ends_andThen.mp h with ⟨e, -, hdetach⟩ | ⟨c₁, u₁, hdetach, h⟩
  · exact absurd (ends_detachOther_granting hdetach).1 nofun
  rcases Step.ends_andThen.mp h with ⟨e, -, hattach⟩ | ⟨c₂, u₂, hattach, h⟩
  · exact absurd (ends_attach_granting hattach).1 nofun
  obtain ⟨active, hactive, hrules, hkept⟩ := ends_reattach_granting hdetach hattach
  -- the shape is put into force with the rules of `active`, which are those that are kept
  have hsetShape {c' : Configurator} {o : Outcome Unit} {t : σ}
      (h : (applyShape config c₂).Ends granting u₂ (o, c') t) := by
    simp only [applyShape, ShapedLink.setShape, hvalid.validate_shape] at h
    exact ends_update_granting (fun l ↦ { l with shape := config.shape }) hactive h
  rw [IsBlocked, ← hrules]
  rcases Step.ends_andThen.mp h with ⟨e, rfl, hshape⟩ | ⟨c₃, u₃, hshape, h⟩
  · obtain ⟨hactive', hrest⟩ := hsetShape hshape
    rcases hrest with ⟨-, hok⟩ | ⟨hlong, -⟩
    · exact absurd hok nofun
    refine .inl ⟨hlong, ⟨e, rfl⟩, ?_⟩
    -- a link that has come up in this call has no rules, so it is not what blocks
    rcases hkept with hkept | hnone
    · exact keptRules_congr hactive' hkept rfl rfl
    · rw [hrules, hnone] at hlong
      exact absurd hlong (Nat.not_lt_zero _)
  obtain ⟨hactive₃, hrest⟩ := hsetShape hshape
  have hfits : ¬TrafficControl.maxRules < active.link.rules.length := by
    rcases hrest with ⟨hfits, -⟩ | ⟨-, e, he⟩
    · exact Nat.not_lt.mpr hfits
    · exact absurd he nofun
  have hsetRules {c' : Configurator} {o : Outcome Unit} {t : σ}
      (h : (applyRules config c₃).Ends granting u₃ (o, c') t) := by
    simp only [applyRules, ShapedLink.setRules, hvalid.validate_rules] at h
    exact ends_update_granting (fun l ↦ { l with rules := config.rules }) hactive₃ h
  rcases Step.ends_andThen.mp h with ⟨e, rfl, hset⟩ | ⟨c₄, u₄, hset, hpolicy⟩
  · obtain ⟨hactive', hrest⟩ := hsetRules hset
    exact .inr ⟨hfits, keptRules_eq hactive' (hasOtherAddress_none c'), hrest⟩
  · obtain ⟨hactive₄, hrest⟩ := hsetRules hset
    obtain ⟨rfl, rfl⟩ := ends_applyPolicy_granting hpolicy
    exact .inr ⟨hfits, keptRules_eq hactive₄ (hasOtherAddress_none c'), hrest⟩

theorem ends_configure_granting (hopen : c.closed = false) (hvalid : config.IsValid c.network.name)
    (h : (configure config c).Ends granting s (o, c') t) :
    (c.IsBlocked config.ipv4 ∧ (∃ e, o = .error e) ∧ c'.keptRules = c.keptRules) ∨
      (¬c.IsBlocked config.ipv4 ∧ c'.keptRules none = config.rules ∧
        ((config.rules.length ≤ TrafficControl.maxRules ∧ o = .ok ()) ∨
          (TrafficControl.maxRules < config.rules.length ∧ ∃ e, o = .error e))) := by
  have hcheck : c.check config = .ok () :=
    (check_eq_ok_iff hvalid.enable).mpr ⟨hopen, hvalid⟩
  rcases ends_configure h with ⟨e, he, -⟩ | ⟨-, h⟩
  · rw [hcheck] at he
    exact absurd he nofun
  · rw [if_pos hvalid.enable] at h
    exact ends_converge_granting hvalid h

theorem isBlocked_of_overlong (hopen : c.closed = false) (hvalid : config.IsValid c.network.name)
    (hlong : TrafficControl.maxRules < config.rules.length)
    (h : (configure config c).Ends granting s (o, c') t) :
    (∃ e, o = .error e) ∧ c'.IsBlocked none := by
  rcases ends_configure_granting hopen hvalid h with
    ⟨hblocked, he, hkept⟩ | ⟨-, hkept, ⟨hfits, -⟩ | ⟨-, he⟩⟩
  · refine ⟨he, ?_⟩
    rw [IsBlocked, hkept]
    exact hblocked.of_none
  · exact absurd hlong (Nat.not_lt.mpr hfits)
  · exact ⟨he, by rwa [IsBlocked, hkept]⟩

/-! ## Where the rules come from -/

/-- The configurators and the states of the world that calls of one sort can come to. -/
inductive ReachesBy (P : Call → Prop) (env : (q : Effect) → q.Answer → σ → σ → Prop)
    (start : Configurator) (s₀ : σ) : Configurator → σ → Prop
  | start : ReachesBy P env start s₀ start s₀
  | call {c c' : Configurator} {s t : σ} {o : Outcome Unit} (k : Call) : P k →
    ReachesBy P env start s₀ c s → (perform k c).Ends env s (o, c') t →
      ReachesBy P env start s₀ c' t

/-- The rules that are remembered, if any, have a property. -/
def RulesAre (R : List Rule → Prop) (c : Configurator) : Prop :=
  ∀ active ∈ c.active, R active.link.rules

variable {env : (q : Effect) → q.Answer → σ → σ → Prop} {R : List Rule → Prop}

theorem RulesAre.of_offline (h : c.active = none) : c.RulesAre R := by
  intro active hactive
  rw [h] at hactive
  exact absurd hactive nofun

theorem rulesAre_some {active : ActiveLink} (h : c.active = some active) :
    c.RulesAre R ↔ R active.link.rules := by
  simp [RulesAre, h]

theorem keeps_rulesAre_update (checked : Outcome Unit) (change : ShapedLink → ShapedLink)
    (hchange : ∀ l, R l.rules → R (change l).rules) :
    Step.Keeps env (fun c _ ↦ c.RulesAre R) (onLink fun l ↦ l.update checked (change l)) := by
  intro c c' s t o hends hR
  rcases ends_onLink hends with ⟨-, -, rfl, -⟩ | ⟨active, link, hactive, hset, rfl⟩
  · exact hR
  · rw [rulesAre_some hactive] at hR
    rw [rulesAre_some rfl]
    rcases ShapedLink.ends_update hset with ⟨e, -, -, rfl, -⟩ | ⟨rfl, -⟩
    · exact hR
    · exact hchange _ hR

/-- In whatever world, a call leaves the rules that it finds, none, or its own. -/
theorem keeps_rulesAre (hnil : R []) (hconfig : R config.rules) :
    Step.Keeps env (fun c _ ↦ c.RulesAre R) (configure config) := by
  -- one goal for each step: detach, attach, shape, rules, policy
  refine keeps_configure ?_ ?_ ?_ ?_ ?_
  · intro c c' s t o hends hR
    rcases ends_detach hends with ⟨-, -, rfl, -⟩ | ⟨_, _, -, -, ⟨-, -, rfl⟩ | ⟨_, -, -, rfl⟩⟩
    · exact hR
    · exact .of_offline rfl
    · exact hR
  · intro c c' s t o hends hR
    rcases ends_attach hends with ⟨-, -, rfl, -⟩ | ⟨-, list, result, u, -, -, hends⟩
    · exact hR
    rcases hends with ⟨_, -, -, rfl, -⟩ | ⟨_, -, hends⟩
    · exact hR
    rcases ends_inspect_or hends with
      ⟨_, warnings, -, rfl⟩ | ⟨-, warnings, link, addresses, table, rfl⟩
    · exact hR
    · exact (rulesAre_some rfl).mpr hnil
  · exact keeps_rulesAre_update _ _ fun l hl ↦ hl
  · exact keeps_rulesAre_update _ _ fun _ _ ↦ hconfig
  · intro c c' s t o hends hR
    rcases ends_applyPolicy hends with ⟨-, -, rfl, -⟩ | ⟨active, -, rfl, -⟩
    · exact hR
    · exact hR

theorem ReachesBy.rulesAre {P : Call → Prop} {start : Configurator} {s₀ : σ}
    (hnew : start.IsNew) (hnil : R []) (hcalls : ∀ config, P (.configure config) → R config.rules)
    (hreach : ReachesBy P env start s₀ c s) : c.RulesAre R := by
  induction hreach with
  | start => exact .of_offline hnew.offline
  | call k hk _ hends ih =>
    cases k with
    | configure config => exact keeps_rulesAre hnil (hcalls config hk) hends ih
    | close =>
      obtain ⟨c₁, u, hclose, hdone⟩ := (Program.ends_bind _ _).mp hends
      obtain ⟨-, rfl, -⟩ := Program.ends_done_pair.mp hdone
      rcases ends_close hclose with ⟨rfl, -⟩ | ⟨rfl, -⟩
      · exact ih
      · exact ih

/-- Whether a call brings no more rules than a tree has room for. -/
def Call.Fits : Call → Prop
  | .configure config => config.rules.length ≤ TrafficControl.maxRules
  | .close => True

/-- **Going on after a failed call.** A valid call in a world that grants every request succeeds
exactly when not too many rules are kept; if there are, the call changes nothing about them, so the
next one fails as well. No run blocks whose calls all brought a number of rules that fits, whatever
else failed in it. -/
theorem later_call_iff (hopen : c.closed = false) (hvalid : config.IsValid c.network.name)
    (hfits : config.rules.length ≤ TrafficControl.maxRules) {τ : Type}
    {answer : (q : Effect) → τ → q.Answer × τ}
    (hgrant : ∀ (q : Effect) (w : τ), q.Granted (answer q w).1) (w : τ) :
    let result := ((perform (.configure config) c).run answer w).1
    (result.1 = .ok () ↔ ¬c.IsBlocked config.ipv4) ∧
      (c.IsBlocked config.ipv4 → result.2.keptRules = c.keptRules) ∧
      ∀ (σ : Type) (env : (q : Effect) → q.Answer → σ → σ → Prop) (start : Configurator)
        (s₀ s : σ), start.IsNew → ReachesBy Call.Fits env start s₀ c s →
          ¬c.IsBlocked config.ipv4 := by
  intro result
  have hends : (configure config c).Ends granting w result
      ((perform (.configure config) c).run answer w).2 := Action.ends_run_granting hgrant _ w
  obtain ⟨o, c'⟩ := result
  have hnever (σ : Type) (env : (q : Effect) → q.Answer → σ → σ → Prop) (start : Configurator)
      (s₀ s : σ) (hnew : start.IsNew) (hreach : ReachesBy Call.Fits env start s₀ c s) :
      ¬c.IsBlocked config.ipv4 := by
    have hrules : c.RulesAre (·.length ≤ TrafficControl.maxRules) :=
      hreach.rulesAre hnew (Nat.zero_le _) fun _ h ↦ h
    rw [IsBlocked, Nat.not_lt, keptRules]
    split
    · exact Nat.zero_le _
    · split
      · exact Nat.zero_le _
      next active hactive _ => exact hrules active hactive
  rcases ends_configure_granting hopen hvalid hends with
    ⟨hblocked, ⟨e, rfl⟩, hkept⟩ | ⟨hfree, -, ⟨-, rfl⟩ | ⟨hlong, -⟩⟩
  · exact ⟨⟨nofun, fun h ↦ absurd hblocked h⟩, fun _ ↦ hkept, hnever⟩
  · exact ⟨⟨fun _ ↦ hfree, fun _ ↦ rfl⟩, fun h ↦ absurd h hfree, hnever⟩
  · exact absurd hfits (Nat.not_le.mpr hlong)

theorem granted_obliging (q : Effect) (n : Namespace) : q.Granted (obliging q n).1 := by
  cases q with
  | linkByName | addresses | routes => exact ⟨_, rfl⟩
  | attach => exact ⟨_, _, rfl⟩
  | closeKernel | pause | log => trivial
  | _ => rfl

/-- As `obliging`, but no tree can be built. -/
def treeless : (q : Effect) → Namespace → q.Answer × Namespace
  | .trafficControl _ _, n => ((.error (.backend "tc failed") : Outcome Unit), n)
  | q, n => obliging q n

/-- A call that has attached the container and failed then can be made again. -/
theorem later_call_after_failure :
    let config := { NetworkConfig.enabled "default" with
      ipv4 := some (.ofOctets 16 0 1 5 16)
      rules := [⟨.ofOctets 16 0 5 0 24, { filter := .drop }⟩] }
    let first := (perform (.configure config) fresh).run treeless bridged
    first.1.1 ≠ .ok () ∧ first.1.2.active.isSome = true ∧ first.1.2.closed = false ∧
      config.IsValid first.1.2.network.name ∧
      config.rules.length ≤ TrafficControl.maxRules ∧
      (∀ (q : Effect) (n : Namespace), q.Granted (obliging q n).1) ∧
      ((perform (.configure config) first.1.2).run obliging first.2).1.1 = .ok () := by
  intro config first
  have hopen : first.1.2.closed = false := by decide +kernel
  have hvalid : config.IsValid first.1.2.network.name :=
    ⟨by decide +kernel, rfl, rfl, by decide +kernel, by decide +kernel⟩
  have hfits : config.rules.length ≤ TrafficControl.maxRules := by decide
  have hfree : ¬first.1.2.IsBlocked config.ipv4 := by decide +kernel
  exact ⟨by decide +kernel, by decide +kernel, hopen, hvalid, hfits, granted_obliging,
    (later_call_iff hopen hvalid hfits granted_obliging first.2).1.mpr hfree⟩

/-- Nothing that a valid call asks for makes it succeed after one with too many rules. -/
theorem later_call_fails {overlong : NetworkConfig} (hopen : c.closed = false)
    (hoverlong : overlong.IsValid c.network.name)
    (hlong : TrafficControl.maxRules < overlong.rules.length)
    (hvalid : config.IsValid c.network.name) (haddress : config.ipv4 = none) {τ : Type}
    {answer : (q : Effect) → τ → q.Answer × τ}
    (hgrant : ∀ (q : Effect) (w : τ), q.Granted (answer q w).1) (w : τ) :
    let first := (perform (.configure overlong) c).run answer w
    first.1.2.closed = false ∧ first.1.2.network = c.network ∧
      ((perform (.configure config) first.1.2).run answer first.2).1.1 ≠ .ok () := by
  intro first
  have hfirst : (configure overlong c).Ends granting w first.1 first.2 :=
    Action.ends_run_granting hgrant _ w
  obtain ⟨⟨o, c'⟩, w'⟩ := first
  obtain ⟨hopen', hnetwork⟩ := keeps_identity hfirst ⟨hopen, rfl⟩
  -- an address could still help, as it makes the second call attach anew; here it asks for none
  obtain ⟨-, hblocked⟩ := isBlocked_of_overlong hopen hoverlong hlong hfirst
  rw [← hnetwork] at hvalid
  refine ⟨hopen', hnetwork, fun hok ↦ ?_⟩
  rcases ends_configure_granting hopen' hvalid
    (Action.ends_run_granting hgrant (configure config c') w') with ⟨-, ⟨e, he⟩, -⟩ | ⟨hfree, -⟩
  · exact absurd (he.symm.trans hok) nofun
  · exact hfree (haddress ▸ hblocked)

/-- After a call with too many rules a call without any fails, though everything is granted. -/
theorem later_call_blocked :
    let overlong := { NetworkConfig.enabled "default" with
      rules := List.replicate (TrafficControl.maxRules + 1) ⟨.ofOctets 1 0 0 0 8, {}⟩ }
    let config := NetworkConfig.enabled "default"
    (∀ (q : Effect) (n : Namespace), q.Granted (obliging q n).1) ∧ fresh.IsNew ∧
      config.IsValid fresh.network.name ∧ config.rules.length ≤ TrafficControl.maxRules ∧
      let first := (perform (.configure overlong) fresh).run obliging bridged
      first.1.2.closed = false ∧ first.1.2.network = fresh.network ∧
        ((perform (.configure config) first.1.2).run obliging first.2).1.1 ≠ .ok () := by
  intro overlong config
  have hrules : ∀ r ∈ overlong.rules, ∀ p ∈ r.shape.percentages,
      Shape.isPercentage p.2 = true := by
    intro r hr
    rw [(List.mem_replicate.mp hr).2]
    decide +kernel
  have hlong : TrafficControl.maxRules < overlong.rules.length := by
    rw [List.length_replicate]
    exact Nat.lt_succ_self _
  have hoverlong : overlong.IsValid fresh.network.name :=
    ⟨rfl, rfl, rfl, by decide +kernel, hrules⟩
  have hvalid : config.IsValid fresh.network.name :=
    ⟨rfl, rfl, rfl, by decide +kernel, fun r hr ↦ absurd hr List.not_mem_nil⟩
  exact ⟨granted_obliging, isNew_fresh, hvalid, Nat.zero_le _,
    later_call_fails rfl hoverlong hlong hvalid rfl granted_obliging bridged⟩

end Configurator

end ContainerNet
