import ContainerNet.Configurator
import ContainerNet.Proofs.Program.Ends
import ContainerNet.Proofs.Retry.Attempts

/-!
# What the steps of a configurator end in

One inversion lemma for each step, in any environment. Each says what the step has asked for and
which configurator it leaves, failures included, so the statements about whole runs take a call
apart step by step and never open a definition.

A run is a sequence of calls on one configurator; `Reaches` says which configurators and states of
the world it can come to.

## How a call is taken apart

A step is a program that gives an outcome and the next configurator, and the step behind it is made
only if the outcome is no failure (`Step.ends_andThen`). So a call keeps a property of configurators
and states if each of its steps does: `keeps_perform` is that rule with the steps left open. If the
property is about what is remembered and not about the world, only the changes of what is remembered
are to be looked at, and `keeps_remembered` lists them.
-/

namespace ContainerNet

variable {σ : Type} {env : (q : Effect) → q.Answer → σ → σ → Prop} {s t : σ}

/-! ## Attaching -/

namespace Plugin.ConfigList

/-- A property that waits, log entries and attempts without success keep holds when attaching
fails, and what a successful attempt makes of it holds when attaching succeeds. -/
theorem ends_attach {list : ConfigList} {rt : Runtime} {p : RetryPolicy} {result : Outcome Result}
    {P : σ → Prop} {R : Result → σ → Prop}
    (hcancelled : ∀ answer s t, env .isCancelled answer s t → P s → P t)
    (hpause : ∀ length within answer s t, env (.pause length within) answer s t → P s → P t)
    (hlog : ∀ entry answer s t, env (.log entry) answer s t → P s → P t)
    (hfinished : ∀ earlier within took result s t,
      env (.attach list rt earlier within) (.finished took result : Ending (Outcome Result)) s t →
        P s → Retry.Leaves P R result t)
    (hgivenUp : ∀ earlier within answer s t, env (.attach list rt earlier within) answer s t →
      answer = (.cancelled : Ending (Outcome Result)) ∨
        answer = (.expired : Ending (Outcome Result)) → P s → P t)
    (h : (list.attach rt p).Ends env s result t) (hs : P s) : Retry.Leaves P R result t := by
  obtain ⟨r, u, hrun, rfl, rfl⟩ := (Program.ends_bind _ _).mp h
  rw [Program.ends_expand] at hrun
  have hkeeps : Retry.Keeps (fun q answer s t ↦ (attachRequest list rt q).Ends env s answer t)
      P R := by
    constructor
    · intro answer s t hask
      exact hcancelled answer s t (Program.ends_request.mp hask)
    · intro earlier within took result s t hask
      exact hfinished earlier within took result s t (Program.ends_request.mp hask)
    · intro earlier within s t hask
      exact hgivenUp earlier within _ s t (Program.ends_request.mp hask) (.inl rfl)
    · intro earlier within s t hask
      exact hgivenUp earlier within _ s t (Program.ends_request.mp hask) (.inr rfl)
    · intro length within answer s t hask
      exact hpause length within answer s t (Program.ends_request.mp hask)
    · intro attempt attempts error answer s t hask
      exact hlog _ answer s t (Program.ends_request.mp hask)
  have hleaves := Retry.ends_run hkeeps hrun hs
  cases r with
  | ok a => exact hleaves
  | error e => exact hleaves

end Plugin.ConfigList

/-! ## What deals with routes alone -/

/-- Whether the request is about routes and addresses, or tells of them. Neither the plugins nor a
tree are concerned. -/
def Effect.isRouting : Effect → Bool
  | .addresses _ _ | .routes | .replaceRoute _ | .deleteRoute _ | .log _ => true
  | _ => false

abbrev Action.IsRouting {α : Type} (p : Action α) : Prop := p.Only fun q ↦ q.isRouting = true

theorem RouteChange.isRouting_performAll (changes : List RouteChange) :
    (performAll changes).IsRouting := by
  induction changes with
  | nil => exact Program.only_done
  | cons c rest ih =>
    refine Program.Only.bind ?_ fun outcome ↦ ?_
    · cases c <;> exact ⟨rfl, fun _ ↦ Program.only_done⟩
    · cases outcome with
      | error e => exact Program.only_done
      | ok => exact ih

theorem Action.isRouting_logAll (entries : List Log.Entry) : (logAll entries).IsRouting := by
  induction entries with
  | nil => exact Program.only_done
  | cons e rest ih => exact ⟨rfl, fun _ ↦ ih⟩

theorem ExternalRoutes.isRouting_enforce (e : ExternalRoutes) (p : RoutingPolicy) :
    (e.enforce p).IsRouting := by
  refine ⟨rfl, fun answer ↦ ?_⟩
  rcases (answer : Outcome RouteTable) with fault | table
  · exact Program.only_done
  · exact (Action.isRouting_logAll _).bind fun _ ↦ RouteChange.isRouting_performAll _

/-! ## Shaped links -/

namespace ShapedLink

theorem isRouting_installRoutes (l : ShapedLink) (own : List Subnet) :
    (l.installRoutes own).IsRouting := by
  refine ⟨rfl, fun answer ↦ ?_⟩
  rcases (answer : Outcome RouteTable) with e | table
  · exact Program.only_done
  · exact RouteChange.isRouting_performAll _

theorem isRouting_afterTree (l : ShapedLink) :
    (Action.andThen l.addresses4 fun nets ↦
      l.installRoutes (nets.map Subnet.truncate)).IsRouting := by
  refine Program.Only.bind ⟨rfl, fun _ ↦ Program.only_done⟩ fun listed ↦ ?_
  cases listed with
  | error e => exact Program.only_done
  | ok nets => exact l.isRouting_installRoutes _

/-- Shape and rules are put into force by building the tree, if there can be one, and by what deals
with routes alone. -/
theorem ends_install_or {l : ShapedLink} {o : Outcome Unit} (h : l.install.Ends env s o t) :
    (∃ e, TrafficControl.plan l.shape l.rules = .error e ∧ o = .error e ∧ t = s) ∨
      ∃ (commands : List TrafficControl.Command) (built : Outcome Unit) (u : σ),
        TrafficControl.plan l.shape l.rules = .ok commands ∧
        env (.trafficControl l.link commands) built s u ∧
        ((∃ e, built = .error e ∧ o = .error e ∧ t = u) ∨
          built = .ok () ∧ ∃ rest : Action (Outcome Unit), rest.IsRouting ∧
            rest.Ends env u o t) := by
  rw [install] at h
  split at h
  next e hplan => exact .inl ⟨e, hplan, h⟩
  next commands hplan =>
    obtain ⟨built, u, hbuilt, h⟩ := h
    refine .inr ⟨commands, built, u, hplan, hbuilt, ?_⟩
    rcases (built : Outcome Unit) with e | ⟨⟩
    · exact .inl ⟨e, rfl, h⟩
    · exact .inr ⟨rfl, _, l.isRouting_afterTree, h⟩

/-- A change is refused before anything is done, or it is remembered whatever comes of it. -/
theorem ends_update {l l' changed : ShapedLink} {checked o : Outcome Unit}
    (h : (l.update checked changed).Ends env s (o, l') t) :
    (∃ e, checked = .error e ∧ o = .error e ∧ l' = l ∧ t = s) ∨
      (l' = changed ∧ changed.install.Ends env s o t) := by
  cases checked with
  | error e =>
    obtain ⟨rfl, rfl, rfl⟩ := Program.ends_done_pair.mp h
    exact .inl ⟨e, rfl, rfl, rfl, rfl⟩
  | ok =>
    obtain ⟨outcome, u, hinstall, h⟩ := (Program.ends_bind _ _).mp h
    obtain ⟨rfl, rfl, rfl⟩ := Program.ends_done_pair.mp h
    exact .inr ⟨rfl, hinstall⟩

end ShapedLink

/-! ## Steps -/

namespace Configurator

variable {c c' : Configurator} {o : Outcome Unit} {config : NetworkConfig}

/-- The second step is made from where the first one has left things, unless that failed. -/
theorem Step.ends_andThen {p q : Step} :
    (p.andThen q c).Ends env s (o, c') t ↔
      (∃ e, o = .error e ∧ (p c).Ends env s (.error e, c') t) ∨
        ∃ c₁ u, (p c).Ends env s (.ok (), c₁) u ∧ (q c₁).Ends env u (o, c') t := by
  rw [Step.andThen, Program.ends_bind]
  constructor
  · rintro ⟨⟨e | ⟨⟩, c₁⟩, u, hp, hq⟩
    · obtain ⟨rfl, rfl, rfl⟩ := Program.ends_done_pair.mp hq
      exact .inl ⟨e, rfl, hp⟩
    · exact .inr ⟨c₁, u, hp, hq⟩
  · rintro (⟨e, rfl, hp⟩ | ⟨c₁, u, hp, hq⟩)
    · exact ⟨_, t, hp, rfl, rfl⟩
    · exact ⟨_, u, hp, hq⟩

theorem Step.ends_andThen_ok {p q : Step} :
    (p.andThen q c).Ends env s (.ok (), c') t ↔
      ∃ c₁ u, (p c).Ends env s (.ok (), c₁) u ∧ (q c₁).Ends env u (.ok (), c') t := by
  rw [Step.ends_andThen]
  constructor
  · rintro (⟨e, he, -⟩ | h)
    · exact absurd he nofun
    · exact h
  · exact .inr

theorem Step.andThen_of_done {p : Step} (q : Step) (h : p c = .done (.ok (), c)) :
    p.andThen q c = q c := by
  rw [Step.andThen, h]
  rfl

/-- Detaching asks for one thing at most, and a failure changes nothing. -/
theorem ends_detach (h : (detach c).Ends env s (o, c') t) :
    (c.active = none ∧ o = .ok () ∧ c' = c ∧ t = s) ∨
      ∃ active answer, c.active = some active ∧
        env (.detach active.list active.runtime) answer s t ∧
        ((answer = (.ok () : Outcome Unit) ∧ o = .ok () ∧ c' = { c with active := none }) ∨
          ∃ e, answer = (.error e : Outcome Unit) ∧ o = .error (.detachFailed e) ∧ c' = c) := by
  rw [detach] at h
  split at h
  next hoffline =>
    obtain ⟨rfl, rfl, rfl⟩ := Program.ends_done_pair.mp h
    exact .inl ⟨hoffline, rfl, rfl, rfl⟩
  next active honline =>
    obtain ⟨result, u, ⟨answer, v, hanswer, rfl, rfl⟩, h⟩ := (Program.ends_bind _ _).mp h
    refine .inr ⟨active, answer, honline, ?_⟩
    rcases (answer : Outcome Unit) with e | ⟨⟩
    · obtain ⟨rfl, rfl, rfl⟩ := Program.ends_done_pair.mp h
      exact ⟨hanswer, .inr ⟨e, rfl, rfl, rfl⟩⟩
    · obtain ⟨rfl, rfl, rfl⟩ := Program.ends_done_pair.mp h
      exact ⟨hanswer, .inl ⟨rfl, rfl, rfl⟩⟩

theorem active_of_detach (h : (detach c).Ends env s (.ok (), c') t) : c'.active = none := by
  rcases ends_detach h with ⟨hoffline, -, rfl, -⟩ | ⟨_, _, -, -, ⟨-, -, rfl⟩ | ⟨e, -, he, -⟩⟩
  · exact hoffline
  · rfl
  · exact absurd he nofun

theorem hasOtherAddress_none (c : Configurator) : c.hasOtherAddress none = false := by
  simp [hasOtherAddress]

theorem ends_detachOther {wanted : Option Subnet}
    (h : (detachOther wanted c).Ends env s (o, c') t) :
    (c.hasOtherAddress wanted = true ∧ (detach c).Ends env s (o, c') t) ∨
      (c.hasOtherAddress wanted = false ∧ o = .ok () ∧ c' = c ∧ t = s) := by
  rw [detachOther] at h
  split at h
  next hother => exact .inl ⟨hother, h⟩
  next hother =>
    obtain ⟨rfl, rfl, rfl⟩ := Program.ends_done_pair.mp h
    exact .inr ⟨by simpa using hother, rfl, rfl, rfl⟩

theorem ends_noteAddresses {link : Link} {found : List Subnet}
    (h : (noteAddresses link found c).Ends env s c' t) :
    ∃ warnings, c' = { c with warnings } ∧ (t = s ∨ ∃ entry, env (.log entry) () s t) := by
  rw [noteAddresses] at h
  split at h
  · obtain ⟨rfl, rfl⟩ := h
    exact ⟨c'.warnings, rfl, .inl rfl⟩
  · obtain ⟨answer, u, hlog, rfl, rfl⟩ := h
    exact ⟨_, rfl, .inr ⟨_, hlog⟩⟩

/-- Looking at the interface: the link, its addresses and the routes are asked for in turn, up to
the first answer that does not do. -/
theorem ends_inspect {list : Plugin.ConfigList} (h : (inspect list c).Ends env s (o, c') t) :
    ∃ (found : Outcome (Option Link)) (u : σ), env (.linkByName c.network.interface) found s u ∧
      ((∃ e, (∀ link, found ≠ .ok (some link)) ∧ o = .error e ∧ c' = c ∧ t = u) ∨
        ∃ (link : Link) (listed : Outcome (List AnySubnet)) (v : σ), found = .ok (some link) ∧
          env (.addresses link .v4) listed u v ∧
          ((∃ e, listed = .error e ∧ o = .error e ∧ c' = c ∧ t = v) ∨
            ∃ (nets : List AnySubnet) (c₁ : Configurator) (w : σ) (snapshot : Outcome RouteTable),
              listed = .ok nets ∧
              (noteAddresses link (nets.filterMap AnySubnet.v4?) c).Ends env v c₁ w ∧
              env .routes snapshot w t ∧
              ((∃ e, snapshot = .error e ∧ o = .error e ∧ c' = c₁) ∨
                ∃ table, snapshot = .ok table ∧ o = .ok () ∧
                  c' = bringOnline { link } (nets.filterMap AnySubnet.v4?) list
                    (.ofRoutes link.index table) c₁))) := by
  obtain ⟨found, u, ⟨answer, v, hfound, rfl, rfl⟩, h⟩ := (Program.ends_bind _ _).mp h
  refine ⟨answer, _, hfound, ?_⟩
  rcases (answer : Outcome (Option Link)) with e | _ | link
  · obtain ⟨rfl, rfl, rfl⟩ := Program.ends_done_pair.mp h
    exact .inl ⟨_, nofun, rfl, rfl, rfl⟩
  · obtain ⟨rfl, rfl, rfl⟩ := Program.ends_done_pair.mp h
    exact .inl ⟨_, nofun, rfl, rfl, rfl⟩
  obtain ⟨listed, u', ⟨answer', v', hlisted, rfl, rfl⟩, h⟩ := (Program.ends_bind _ _).mp h
  refine .inr ⟨link, answer', _, rfl, hlisted, ?_⟩
  rcases (answer' : Outcome (List AnySubnet)) with e | nets
  · obtain ⟨rfl, rfl, rfl⟩ := Program.ends_done_pair.mp h
    exact .inl ⟨e, rfl, rfl, rfl, rfl⟩
  obtain ⟨c₁, w, hnote, h⟩ := (Program.ends_bind _ _).mp h
  obtain ⟨snapshot, w', ⟨answer'', v'', hroutes, rfl, rfl⟩, h⟩ := (Program.ends_bind _ _).mp h
  refine .inr ⟨nets, c₁, w, answer'', rfl, hnote, ?_⟩
  rcases (answer'' : Outcome RouteTable) with e | table
  · obtain ⟨rfl, rfl, rfl⟩ := Program.ends_done_pair.mp h
    exact ⟨hroutes, .inl ⟨e, rfl, rfl, rfl⟩⟩
  · obtain ⟨rfl, rfl, rfl⟩ := Program.ends_done_pair.mp h
    exact ⟨hroutes, .inr ⟨table, rfl, rfl, rfl⟩⟩

/-- Looking at the interface brings the network online, or leaves but a warning. -/
theorem ends_inspect_or {list : Plugin.ConfigList} (h : (inspect list c).Ends env s (o, c') t) :
    (∃ e warnings, o = .error e ∧ c' = { c with warnings }) ∨
      (o = .ok () ∧ ∃ warnings link addresses table,
        c' = bringOnline { link } addresses list (.ofRoutes link.index table)
          { c with warnings }) := by
  obtain ⟨found, u, -, ⟨e, -, rfl, rfl, -⟩ | ⟨link, listed, v, -, -, h⟩⟩ := ends_inspect h
  · exact .inl ⟨e, c'.warnings, rfl, rfl⟩
  rcases h with ⟨e, -, rfl, rfl, -⟩ | ⟨nets, c₁, w, snapshot, -, hnote, -, h⟩
  · exact .inl ⟨e, c'.warnings, rfl, rfl⟩
  obtain ⟨warnings, rfl, -⟩ := ends_noteAddresses hnote
  rcases h with ⟨e, -, rfl, rfl⟩ | ⟨table, -, rfl, rfl⟩
  · exact .inl ⟨e, warnings, rfl, rfl⟩
  · exact .inr ⟨rfl, warnings, link, _, table, rfl⟩

theorem ends_attach {wanted : Option Subnet} (h : (attach wanted c).Ends env s (o, c') t) :
    (c.isOnline = true ∧ o = .ok () ∧ c' = c ∧ t = s) ∨
      (c.isOnline = false ∧ ∃ list result u,
        list = Plugin.ConfigList.build (c.allocation wanted) c.plugin ∧
        (list.attach c.runtime c.retry).Ends env s result u ∧
        ((∃ e, result = .error e ∧ o = .error e ∧ c' = c ∧ t = u) ∨
          ∃ a, result = .ok a ∧ (inspect list c).Ends env u (o, c') t)) := by
  rw [attach] at h
  split at h
  next honline =>
    obtain ⟨rfl, rfl, rfl⟩ := Program.ends_done_pair.mp h
    exact .inl ⟨honline, rfl, rfl, rfl⟩
  next honline =>
    obtain ⟨result, u, hattach, h⟩ := (Program.ends_bind _ _).mp h
    refine .inr ⟨by simpa using honline, _, result, u, rfl, hattach, ?_⟩
    cases result with
    | error e =>
      obtain ⟨rfl, rfl, rfl⟩ := Program.ends_done_pair.mp h
      exact .inl ⟨e, rfl, rfl, rfl, rfl⟩
    | ok a => exact .inr ⟨a, rfl, h⟩

theorem exists_active_of_attach {wanted : Option Subnet}
    (h : (attach wanted c).Ends env s (.ok (), c') t) : ∃ active, c'.active = some active := by
  rcases ends_attach h with ⟨honline, -, rfl, -⟩ | ⟨-, list, result, u, -, -, h⟩
  · exact Option.isSome_iff_exists.mp honline
  rcases h with ⟨e, -, he, -⟩ | ⟨a, -, h⟩
  · exact absurd he nofun
  rcases ends_inspect_or h with ⟨e, warnings, he, -⟩ | ⟨-, warnings, link, addresses, table, rfl⟩
  · exact absurd he nofun
  · exact ⟨_, rfl⟩

theorem ends_onLink {set : ShapedLink → Action (Outcome Unit × ShapedLink)}
    (h : (onLink set c).Ends env s (o, c') t) :
    (c.active = none ∧ o = .ok () ∧ c' = c ∧ t = s) ∨
      ∃ active link, c.active = some active ∧ (set active.link).Ends env s (o, link) t ∧
        c' = c.setLink active link := by
  rw [onLink] at h
  split at h
  next hoffline =>
    obtain ⟨rfl, rfl, rfl⟩ := Program.ends_done_pair.mp h
    exact .inl ⟨hoffline, rfl, rfl, rfl⟩
  next active honline =>
    obtain ⟨⟨outcome, link⟩, u, hset, h⟩ := (Program.ends_bind _ _).mp h
    obtain ⟨rfl, rfl, rfl⟩ := Program.ends_done_pair.mp h
    exact .inr ⟨active, link, honline, hset, rfl⟩

theorem setLink_self {active : ActiveLink} (hactive : c.active = some active) :
    c.setLink active active.link = c := by
  rw [setLink, ← hactive]

theorem ends_onLink_update {checked : Outcome Unit} {change : ShapedLink → ShapedLink}
    {active : ActiveLink} (hactive : c.active = some active)
    (h : (onLink (fun l ↦ l.update checked (change l)) c).Ends env s (o, c') t) :
    (∃ e, checked = .error e ∧ o = .error e ∧ c' = c ∧ t = s) ∨
      (c' = c.setLink active (change active.link) ∧
        (change active.link).install.Ends env s o t) := by
  rcases ends_onLink h with ⟨hnone, -⟩ | ⟨_, link, hsome, hset, rfl⟩
  · rw [hactive] at hnone
    exact absurd hnone nofun
  rw [hactive] at hsome
  cases hsome
  rcases ShapedLink.ends_update hset with ⟨e, hchecked, ho, rfl, hs⟩ | ⟨rfl, hinstall⟩
  · exact .inl ⟨e, hchecked, ho, setLink_self hactive, hs⟩
  · exact .inr ⟨rfl, hinstall⟩

theorem ends_onLink_update_ok {checked : Outcome Unit} {change : ShapedLink → ShapedLink}
    {active : ActiveLink} (hactive : c.active = some active)
    (h : (onLink (fun l ↦ l.update checked (change l)) c).Ends env s (.ok (), c') t) :
    c' = c.setLink active (change active.link) ∧
      (change active.link).install.Ends env s (.ok ()) t := by
  rcases ends_onLink_update hactive h with ⟨e, -, he, -⟩ | hset
  · exact absurd he nofun
  · exact hset

theorem ends_applyPolicy (h : (applyPolicy config c).Ends env s (o, c') t) :
    (c.active = none ∧ o = .ok () ∧ c' = c ∧ t = s) ∨
      ∃ active, c.active = some active ∧ c' = c ∧
        (active.external.enforce config.policy).Ends env s o t := by
  rw [applyPolicy] at h
  split at h
  next hoffline =>
    obtain ⟨rfl, rfl, rfl⟩ := Program.ends_done_pair.mp h
    exact .inl ⟨hoffline, rfl, rfl, rfl⟩
  next active honline =>
    obtain ⟨outcome, u, henforce, h⟩ := (Program.ends_bind _ _).mp h
    obtain ⟨rfl, rfl, rfl⟩ := Program.ends_done_pair.mp h
    exact .inr ⟨active, honline, rfl, henforce⟩

theorem ends_applyPolicy_active {active : ActiveLink} (hactive : c.active = some active)
    (h : (applyPolicy config c).Ends env s (o, c') t) :
    c' = c ∧ (active.external.enforce config.policy).Ends env s o t := by
  rcases ends_applyPolicy h with ⟨hnone, -⟩ | ⟨_, hsome, rfl, henforce⟩
  · rw [hactive] at hnone
    exact absurd hnone nofun
  rw [hactive] at hsome
  cases hsome
  exact ⟨rfl, henforce⟩

theorem ends_configure (h : (configure config c).Ends env s (o, c') t) :
    (∃ e, c.check config = .error e ∧ o = .error e ∧ c' = c ∧ t = s) ∨
      (c.check config = .ok () ∧ if config.enable then (converge config c).Ends env s (o, c') t
        else (detach c).Ends env s (o, c') t) := by
  rw [configure] at h
  split at h
  next e hcheck =>
    obtain ⟨rfl, rfl, rfl⟩ := Program.ends_done_pair.mp h
    exact .inl ⟨e, hcheck, rfl, rfl, rfl⟩
  next hcheck =>
    refine .inr ⟨hcheck, ?_⟩
    split at h
    next henable => rwa [if_pos henable]
    next henable => rwa [if_neg henable]

/-- With the network attached and no other address asked for, only shape, rules and policy are to
be set. -/
theorem converge_eq (honline : c.isOnline = true) (hsame : c.hasOtherAddress config.ipv4 = false) :
    converge config c =
      (applyShape config).andThen ((applyRules config).andThen (applyPolicy config)) c := by
  have hdetach : detachOther config.ipv4 c = .done (.ok (), c) := by simp [detachOther, hsame]
  have hattach : attach config.ipv4 c = .done (.ok (), c) := by simp [attach, honline]
  rw [converge, Step.andThen_of_done _ hdetach, Step.andThen_of_done _ hattach]

theorem ends_close (h : (close c).Ends env s c' t) :
    (c' = c ∧ t = s) ∨ (c' = { c with closed := true } ∧ env .closeKernel () s t) := by
  rw [close] at h
  split at h
  · obtain ⟨rfl, rfl⟩ := h
    exact .inl ⟨rfl, rfl⟩
  · obtain ⟨answer, u, hclose, rfl, rfl⟩ := h
    exact .inr ⟨rfl, hclose⟩

/-! ## Properties that steps keep -/

/-- A step keeps a property of configurators and states of the world, whether or not it fails. -/
def Step.Keeps (env : (q : Effect) → q.Answer → σ → σ → Prop) (I : Configurator → σ → Prop)
    (p : Step) : Prop :=
  ∀ ⦃c c' : Configurator⦄ ⦃s t : σ⦄ ⦃o : Outcome Unit⦄, (p c).Ends env s (o, c') t → I c s → I c' t

theorem Step.Keeps.andThen {I : Configurator → σ → Prop} {p q : Step} (hp : p.Keeps env I)
    (hq : q.Keeps env I) : (p.andThen q).Keeps env I := by
  intro c c' s t o hends hs
  rcases Step.ends_andThen.mp hends with ⟨e, rfl, hpe⟩ | ⟨c₁, u, hpc, hqc⟩
  · exact hp hpe hs
  · exact hq hqc (hp hpc hs)

/-! ## Runs -/

/-- A call on a configurator. -/
inductive Call
  | configure (config : NetworkConfig)
  | close

/-- What a call does. Closing cannot fail. -/
def perform : Call → Step
  | .configure config => configure config
  | .close => fun c ↦ (close c).bind fun c ↦ .done (.ok (), c)

theorem keeps_configure {I : Configurator → σ → Prop} (hdetach : Step.Keeps env I detach)
    (hattach : Step.Keeps env I (attach config.ipv4))
    (hshape : Step.Keeps env I (applyShape config)) (hrules : Step.Keeps env I (applyRules config))
    (hpolicy : Step.Keeps env I (applyPolicy config)) : Step.Keeps env I (configure config) := by
  have hdetachOther : Step.Keeps env I (detachOther config.ipv4) := by
    intro c c' s t o hends hs
    rcases ends_detachOther hends with ⟨-, hends⟩ | ⟨-, -, rfl, rfl⟩
    · exact hdetach hends hs
    · exact hs
  have hconverge : Step.Keeps env I (converge config) :=
    hdetachOther.andThen <| hattach.andThen <| hshape.andThen <| hrules.andThen hpolicy
  intro c c' s t o hends hs
  rcases ends_configure hends with ⟨e, -, -, rfl, rfl⟩ | ⟨-, hends⟩
  · exact hs
  · split at hends
    · exact hconverge hends hs
    · exact hdetach hends hs

/-- A configuration changes neither what a configurator manages, nor does it close it. -/
theorem keeps_identity {closed : Bool} {network : DataNetwork} :
    Step.Keeps env (fun c _ ↦ c.closed = closed ∧ c.network = network) (configure config) := by
  have hlink (set : ShapedLink → Action (Outcome Unit × ShapedLink)) :
      Step.Keeps env (fun c _ ↦ c.closed = closed ∧ c.network = network) (onLink set) := by
    intro c c' s t o hends hs
    rcases ends_onLink hends with ⟨-, -, rfl, -⟩ | ⟨_, _, -, -, rfl⟩
    · exact hs
    · exact hs
  refine keeps_configure ?_ ?_ (hlink _) (hlink _) ?_
  · intro c c' s t o hends hs
    rcases ends_detach hends with ⟨-, -, rfl, -⟩ | ⟨_, _, -, -, ⟨-, -, rfl⟩ | ⟨_, -, -, rfl⟩⟩
    · exact hs
    · exact hs
    · exact hs
  · intro c c' s t o hends hs
    rcases ends_attach hends with ⟨-, -, rfl, -⟩ | ⟨-, _, _, _, -, -, hends⟩
    · exact hs
    rcases hends with ⟨_, -, -, rfl, -⟩ | ⟨_, -, hends⟩
    · exact hs
    rcases ends_inspect_or hends with ⟨_, _, -, rfl⟩ | ⟨-, _, _, _, _, rfl⟩
    · exact hs
    · exact hs
  · intro c c' s t o hends hs
    rcases ends_applyPolicy hends with ⟨-, -, rfl, -⟩ | ⟨_, -, rfl, -⟩
    · exact hs
    · exact hs

theorem keeps_perform {I : Configurator → σ → Prop} (hdetach : Step.Keeps env I detach)
    (hattach : ∀ wanted, Step.Keeps env I (attach wanted))
    (hupdate : ∀ checked (change : ShapedLink → ShapedLink), (∀ l, (change l).link = l.link) →
      Step.Keeps env I (onLink fun l ↦ l.update checked (change l)))
    (hpolicy : ∀ config, Step.Keeps env I (applyPolicy config))
    (hclose : ∀ c s t, env .closeKernel () s t → I c s → I { c with closed := true } t) (k : Call) :
    Step.Keeps env I (perform k) := by
  cases k with
  | close =>
    intro c c' s t o hends hs
    obtain ⟨c₁, u, hends, hdone⟩ := (Program.ends_bind _ _).mp hends
    obtain ⟨rfl, rfl, rfl⟩ := Program.ends_done_pair.mp hdone
    rcases ends_close hends with ⟨rfl, rfl⟩ | ⟨rfl, henv⟩
    · exact hs
    · exact hclose _ _ _ henv hs
  | configure config =>
    have hshape : Step.Keeps env I (applyShape config) :=
      hupdate config.shape.validate (fun l ↦ { l with shape := config.shape }) fun _ ↦ rfl
    have hrules : Step.Keeps env I (applyRules config) :=
      hupdate (ShapedLink.validateRules config.rules) (fun l ↦ { l with rules := config.rules })
        fun _ ↦ rfl
    exact keeps_configure hdetach (hattach _) hshape hrules (hpolicy config)

/-- What every change of what is remembered keeps, every call keeps, in whatever world. -/
theorem keeps_remembered {I : Configurator → Prop}
    (hoffline : ∀ c : Configurator, I c → I { c with active := none })
    (hwarnings : ∀ (c : Configurator) warnings, I c → I { c with warnings })
    (honline : ∀ (c : Configurator) link addresses list table, I c →
      I (c.bringOnline { link } addresses list (.ofRoutes link.index table)))
    (hlink : ∀ (c : Configurator) (active : ActiveLink) (link : ShapedLink),
      c.active = some active → link.link = active.link.link → I c → I (c.setLink active link))
    (hclosed : ∀ c : Configurator, I c → I { c with closed := true }) (k : Call) :
    Step.Keeps env (fun c _ ↦ I c) (perform k) := by
  refine keeps_perform ?_ ?_ ?_ ?_ ?_ k
  · intro c c' s t o hends hc
    rcases ends_detach hends with ⟨-, -, rfl, -⟩ | ⟨_, _, -, -, ⟨-, -, rfl⟩ | ⟨_, -, -, rfl⟩⟩
    · exact hc
    · exact hoffline _ hc
    · exact hc
  · intro wanted c c' s t o hends hc
    rcases ends_attach hends with ⟨-, -, rfl, -⟩ | ⟨-, list, result, u, -, -, hends⟩
    · exact hc
    rcases hends with ⟨_, -, -, rfl, -⟩ | ⟨_, -, hends⟩
    · exact hc
    rcases ends_inspect_or hends with
      ⟨_, warnings, -, rfl⟩ | ⟨-, warnings, link, addresses, table, rfl⟩
    · exact hwarnings _ warnings hc
    · exact honline _ link addresses list table (hwarnings _ warnings hc)
  · intro checked change hchange c c' s t o hends hc
    rcases ends_onLink hends with ⟨-, -, rfl, -⟩ | ⟨active, link, hactive, hset, rfl⟩
    · exact hc
    · refine hlink _ active link hactive ?_ hc
      rcases ShapedLink.ends_update hset with ⟨_, -, -, rfl, -⟩ | ⟨rfl, -⟩
      · rfl
      · exact hchange active.link
  · intro config c c' s t o hends hc
    rcases ends_applyPolicy hends with ⟨-, -, rfl, -⟩ | ⟨active, -, rfl, -⟩
    · exact hc
    · exact hc
  · intro c s t _ hc
    exact hclosed c hc

/-- A configurator before its first call. -/
structure IsNew (c : Configurator) : Prop where
  offline : c.active = none
  no_uplink : c.uplink = none
  no_warnings : c.warnings = []
  isOpen : c.closed = false

/-- The management of a container that has just begun. -/
def fresh : Configurator :=
  { container := ⟨"c1", by decide +kernel⟩, netns := "/run/netns/c1" }

theorem isNew_fresh : fresh.IsNew := ⟨rfl, rfl, rfl, rfl⟩

/-- The configurators and the states of the world that calls on one configurator can come to. -/
inductive Reaches (env : (q : Effect) → q.Answer → σ → σ → Prop) (start : Configurator) (s₀ : σ) :
    Configurator → σ → Prop
  | start : Reaches env start s₀ start s₀
  | call {c c' : Configurator} {s t : σ} {o : Outcome Unit} (k : Call) :
    Reaches env start s₀ c s → (perform k c).Ends env s (o, c') t → Reaches env start s₀ c' t

theorem Reaches.invariant {I : Configurator → σ → Prop} {start : Configurator} {s₀ : σ}
    (h₀ : I start s₀) (hcall : ∀ k, Step.Keeps env I (perform k))
    (h : Reaches env start s₀ c s) : I c s := by
  induction h with
  | start => exact h₀
  | call k _ hends ih => exact hcall k hends ih

end Configurator

end ContainerNet
