import Mathlib.Tactic.Common
import ContainerNet.Proofs.Configurator.History

/-!
# What is left attached

A call that disables the network detaches what the configurator remembers. It remembers an
attachment only after it has looked at the interface three times: for the link, for its addresses
and for the routes around it. If one of these looks fails, the plugins have attached the container
and nobody knows, so a later call that disables the network succeeds and detaches nothing
(`disabled_but_attached`). `all_detached_iff` says that this is the only way to leave something
attached.

Here the world may answer each request in any way, unlike in the statements about orderly histories.

## The invariant

`fate` replays a history and tells what has become of the last attachment. Between two steps of a
call the network is online exactly when the last attachment has been seen in full, and otherwise
there is none or it is lost (`Tracks`). What asks for no operation of the plugins changes neither.
-/

namespace ContainerNet

/-- What has become of the last attachment. -/
inductive Fate
  /-- There was none, or it was detached. -/
  | gone
  /-- It stands, and so many looks at the interface are still to come. -/
  | attached (looks : Nat)
  /-- It stands, but a look at the interface failed. -/
  | lost
deriving DecidableEq

namespace Fate

/-- No look at the interface is expected. -/
def IsSettled (f : Fate) : Prop := ∀ looks, f ≠ .attached (looks + 1)

theorem isSettled_gone : gone.IsSettled := fun _ ↦ Fate.noConfusion

theorem isSettled_lost : lost.IsSettled := fun _ ↦ Fate.noConfusion

theorem isSettled_seen : (attached 0).IsSettled := by
  intro looks h
  cases h

end Fate

namespace Exchange

/-- Whether something is looked at. -/
def isQuery : Exchange → Bool
  | ⟨.linkByName _, _⟩ | ⟨.addresses _ _, _⟩ | ⟨.routes, _⟩ => true
  | _ => false

/-- Whether what is looked at is shown. -/
def isShown : Exchange → Bool
  | ⟨.linkByName _, answer⟩ =>
    match (answer : Outcome (Option Link)) with
    | .ok (some _) => true
    | _ => false
  | ⟨.addresses _ _, answer⟩ => (answer : Outcome (List AnySubnet)).isOk
  | ⟨.routes, answer⟩ => (answer : Outcome RouteTable).isOk
  | _ => false

/-- What a look makes of an attachment of which looks are still to come. -/
def look (e : Exchange) : Fate → Fate
  | .attached (looks + 1) =>
    if !e.isQuery then .attached (looks + 1) else if e.isShown then .attached looks else .lost
  | f => f

/-- What an exchange makes of the last attachment: there is a new one, it is gone, or it is looked
at, three times in all. -/
def fate (e : Exchange) (f : Fate) : Fate :=
  if e.isDone then if e.1.isAttach then .attached 3 else .gone else e.look f

variable {e : Exchange} {f : Fate}

theorem look_of_isSettled (hf : f.IsSettled) : e.look f = f := by
  rcases f with _ | (_ | looks) | _
  · rfl
  · rfl
  · exact absurd rfl (hf looks)
  · rfl

theorem look_eq_gone_iff : e.look f = .gone ↔ f = .gone := by
  rcases f with _ | (_ | looks) | _
  · exact Iff.rfl
  · exact Iff.rfl
  · rw [look]
    split_ifs <;> simp
  · exact Iff.rfl

theorem fate_of_attach (hattach : e.1.isAttach = true) (hdone : e.isDone = true) :
    e.fate f = .attached 3 := by
  rw [fate, if_pos hdone, if_pos hattach]

theorem fate_of_detach (hdetach : e.1.isDetach = true) (hdone : e.isDone = true) :
    e.fate f = .gone := by
  rw [fate, if_pos hdone, if_neg (by simp [Effect.isAttach_eq_false hdetach])]

/-- Where no look is expected, only operations of the plugins that succeed change anything. -/
theorem fate_of_isSettled (hdone : e.isDone = false) (hf : f.IsSettled) : e.fate f = f := by
  rw [fate, if_neg (by simp [hdone]), look_of_isSettled hf]

theorem fate_of_query {looks : Nat} (hdone : e.isDone = false) (hquery : e.isQuery = true) :
    e.fate (.attached (looks + 1)) = if e.isShown then .attached looks else .lost := by
  rw [fate, if_neg (by simp [hdone]), look, if_neg (by simp [hquery])]

theorem fate_eq_gone_iff (hdone : e.isDone = false) : e.fate f = .gone ↔ f = .gone := by
  rw [fate, if_neg (by simp [hdone]), look_eq_gone_iff]

theorem isDone_eq_false (h : e.1.isOperation = false) : e.isDone = false := by
  obtain ⟨q, answer⟩ := e
  cases q with
  | attach | detach => exact absurd h.symm Bool.false_ne_true
  | _ => rfl

end Exchange

namespace History

/-- What has become of the last attachment in a history. -/
def fate : History → Fate
  | [] => .gone
  | e :: h => e.fate (fate h)

/-- Every attachment that succeeded was followed by a detachment that did. -/
def AllDetached (h : History) : Prop :=
  ∀ newer e older, h = newer ++ e :: older → e.1.isAttach = true → e.isDone = true →
    ∃ d ∈ newer, d.1.isDetach = true ∧ d.isDone = true

/-- The world remembers what it is asked, and answers as it likes. -/
def logging (q : Effect) (answer : q.Answer) (h h' : History) : Prop := h' = ⟨q, answer⟩ :: h

variable {e : Exchange} {h h' : History}

@[simp] theorem fate_cons : fate (e :: h) = e.fate (fate h) := rfl

/-! ## What was detached -/

theorem allDetached_nil : AllDetached [] := by
  rintro newer e older hnil
  simp at hnil

/-- An exchange that is no successful operation of the plugins leaves nothing to be detached, and
detaches nothing. -/
theorem allDetached_cons_of_not_done (hdone : e.isDone = false) :
    AllDetached (e :: h) ↔ AllDetached h := by
  constructor
  · intro hall newer e' older rfl hattach' hdone'
    obtain ⟨d, hd, hdetach, hddone⟩ := hall (e :: newer) e' older rfl hattach' hdone'
    rcases List.mem_cons.mp hd with rfl | hd
    · rw [hdone] at hddone
      exact absurd hddone Bool.false_ne_true
    · exact ⟨d, hd, hdetach, hddone⟩
  · intro hall newer e' older heq hattach' hdone'
    cases newer with
    | nil =>
      obtain ⟨rfl, -⟩ := List.cons.inj heq
      rw [hdone] at hdone'
      exact absurd hdone' Bool.false_ne_true
    | cons e₁ newer =>
      obtain ⟨-, heq⟩ := List.cons.inj heq
      obtain ⟨d, hd, hd'⟩ := hall newer e' older heq hattach' hdone'
      exact ⟨d, List.mem_cons_of_mem _ hd, hd'⟩

theorem allDetached_cons_of_detach (hdetach : e.1.isDetach = true) (hdone : e.isDone = true) :
    AllDetached (e :: h) := by
  intro newer e' older heq hattach' _
  cases newer with
  | nil =>
    obtain ⟨rfl, -⟩ := List.cons.inj heq
    rw [Effect.isAttach_eq_false hdetach] at hattach'
    exact absurd hattach' Bool.false_ne_true
  | cons e₁ newer =>
    obtain ⟨rfl, -⟩ := List.cons.inj heq
    exact ⟨e, List.mem_cons_self, hdetach, hdone⟩

theorem not_allDetached_cons_of_attach (hattach : e.1.isAttach = true) (hdone : e.isDone = true) :
    ¬AllDetached (e :: h) := by
  intro hall
  obtain ⟨d, hd, -⟩ := hall [] e h rfl hattach hdone
  exact absurd hd List.not_mem_nil

/-- Everything was detached exactly when the last attachment is gone. -/
theorem allDetached_iff : AllDetached h ↔ fate h = .gone := by
  induction h with
  | nil => exact iff_of_true allDetached_nil rfl
  | cons e h ih =>
    rw [fate_cons]
    cases hdone : e.isDone with
    | false => rw [allDetached_cons_of_not_done hdone, Exchange.fate_eq_gone_iff hdone, ih]
    | true =>
      rcases Exchange.isAttach_or_isDetach hdone with hattach | hdetach
      · rw [Exchange.fate_of_attach hattach hdone]
        exact iff_of_false (not_allDetached_cons_of_attach hattach hdone) Fate.noConfusion
      · exact iff_of_true (allDetached_cons_of_detach hdetach hdone)
          (Exchange.fate_of_detach hdetach hdone)

/-- What asks for no operation of the plugins leaves a settled attachment as it is. -/
theorem fate_of_isQuiet {α : Type} {p : Action α} {a : α} {f : Fate} (hp : p.IsQuiet)
    (hends : p.Ends logging h a h') (hf : fate h = f) (hsettled : f.IsSettled) : fate h' = f := by
  refine Program.Ends.invariant (I := fun h ↦ fate h = f) hp ?_ hends hf
  rintro q answer h h' hq rfl rfl
  exact Exchange.fate_of_isSettled (Exchange.isDone_eq_false hq) hsettled

end History

namespace Configurator

open History

variable {c c' : Configurator} {o : Outcome Unit} {h h' : History} {config : NetworkConfig}

/-! ## The invariant -/

/-- The last attachment is known to the configurator, or it is gone or lost. -/
def Tracks (c : Configurator) (h : History) : Prop :=
  if c.isOnline then fate h = .attached 0 else fate h = .gone ∨ fate h = .lost

theorem tracks_online {active : ActiveLink} (hactive : c.active = some active) :
    c.Tracks h ↔ fate h = .attached 0 := by
  simp [Tracks, isOnline, hactive]

theorem tracks_offline (hactive : c.active = none) :
    c.Tracks h ↔ fate h = .gone ∨ fate h = .lost := by
  simp [Tracks, isOnline, hactive]

theorem tracks_congr (hactive : c'.active.isSome = c.active.isSome) :
    c'.Tracks h ↔ c.Tracks h := by
  rw [Tracks, Tracks, isOnline, isOnline, hactive]

theorem Tracks.isSettled (ht : c.Tracks h) : (fate h).IsSettled := by
  cases hactive : c.active with
  | some active =>
    rw [(tracks_online hactive).mp ht]
    exact Fate.isSettled_seen
  | none =>
    rcases (tracks_offline hactive).mp ht with hgone | hlost
    · rw [hgone]
      exact Fate.isSettled_gone
    · rw [hlost]
      exact Fate.isSettled_lost

/-- What asks for no operation of the plugins, and neither brings the network online nor takes it
offline. -/
theorem Tracks.of_isQuiet {α : Type} {p : Action α} {a : α} (ht : c.Tracks h) (hp : p.IsQuiet)
    (hends : p.Ends logging h a h') (hactive : c'.active.isSome = c.active.isSome) :
    c'.Tracks h' := by
  rw [tracks_congr hactive, Tracks, fate_of_isQuiet hp hends rfl ht.isSettled]
  exact ht

/-! ## The steps of a call -/

theorem tracks_detach : Step.Keeps logging Tracks detach := by
  intro c c' h h' o hends ht
  rcases ends_detach hends with ⟨-, -, rfl, rfl⟩ | ⟨active, answer, hactive, rfl, hrest⟩
  · exact ht
  rcases hrest with ⟨rfl, -, rfl⟩ | ⟨e, rfl, -, rfl⟩
  · exact (tracks_offline rfl).mpr (.inl (Exchange.fate_of_detach rfl rfl))
  · rw [tracks_online hactive] at ht ⊢
    rw [fate_cons, Exchange.fate_of_isSettled rfl (ht ▸ Fate.isSettled_seen), ht]

theorem fate_attachList {list : Plugin.ConfigList} {runtime : Plugin.Runtime} {p : RetryPolicy}
    {result : Outcome Plugin.Result} {f : Fate}
    (hends : (list.attach runtime p).Ends logging h result h') (hf : fate h = f)
    (hsettled : f.IsSettled) :
    Retry.Leaves (fun h ↦ fate h = f) (fun _ h ↦ fate h = .attached 3) result h' := by
  -- whatever is asked keeps the fate, but for the attempt that succeeds
  have hkeep {q : Effect} {answer : q.Answer} {s t : History} (hlog : logging q answer s t)
      (hs : fate s = f) (hdone : Exchange.isDone ⟨q, answer⟩ = false) : fate t = f := by
    subst hlog hs
    exact Exchange.fate_of_isSettled hdone hsettled
  refine Plugin.ConfigList.ends_attach ?_ ?_ ?_ ?_ ?_ hends hf
  · intro answer s t hlog hs
    exact hkeep hlog hs rfl
  · intro length within answer s t hlog hs
    exact hkeep hlog hs rfl
  · intro entry answer s t hlog hs
    exact hkeep hlog hs rfl
  · intro earlier within took result s t hlog hs
    cases result with
    | error e => exact hkeep hlog hs rfl
    | ok a =>
      subst hlog
      exact Exchange.fate_of_attach rfl rfl
  · intro earlier within answer s t hlog hgivenUp hs
    rcases hgivenUp with rfl | rfl
    · exact hkeep hlog hs rfl
    · exact hkeep hlog hs rfl

/-- Right after an attachment the interface is seen in full and the network comes online, or a look
fails and the attachment is lost. -/
theorem tracks_inspect {list : Plugin.ConfigList}
    (hends : (inspect list c).Ends logging h (o, c') h') (hactive : c.active = none)
    (hf : fate h = .attached 3) : c'.Tracks h' := by
  obtain ⟨found, u, rfl, hrest⟩ := ends_inspect hends
  rcases hrest with ⟨e, hnot, -, rfl, rfl⟩ | ⟨link, listed, v, rfl, rfl, hrest⟩
  · refine (tracks_offline hactive).mpr (.inr ?_)
    rw [fate_cons, hf, Exchange.fate_of_query rfl rfl, if_neg]
    rcases (found : Outcome (Option Link)) with e' | _ | link
    · exact Bool.false_ne_true
    · exact Bool.false_ne_true
    · exact absurd rfl (hnot link)
  have hlink : fate (⟨.linkByName c.network.interface, (.ok (some link) : Outcome (Option Link))⟩
      :: h) = .attached 2 := by
    rw [fate_cons, hf]
    rfl
  rcases hrest with ⟨e, rfl, -, rfl, rfl⟩ | ⟨nets, c₁, w, snapshot, rfl, hnote, rfl, hrest⟩
  · refine (tracks_offline hactive).mpr (.inr ?_)
    rw [fate_cons, hlink]
    rfl
  obtain ⟨warnings, rfl, hlog⟩ := ends_noteAddresses hnote
  have hlisted : fate w = .attached 1 := by
    rcases hlog with rfl | ⟨entry, rfl⟩
    · rw [fate_cons, hlink]
      rfl
    · rw [fate_cons, fate_cons, hlink]
      rfl
  rcases hrest with ⟨e, rfl, -, rfl⟩ | ⟨table, rfl, -, rfl⟩
  · refine (tracks_offline hactive).mpr (.inr ?_)
    rw [fate_cons, hlisted]
    rfl
  · refine (tracks_online rfl).mpr ?_
    rw [fate_cons, hlisted]
    rfl

theorem tracks_attach (wanted : Option Subnet) : Step.Keeps logging Tracks (attach wanted) := by
  intro c c' h h' o hends ht
  rcases ends_attach hends with ⟨-, -, rfl, rfl⟩ | ⟨hoffline, list, result, u, -, hattach, hrest⟩
  · exact ht
  have hactive : c.active = none := by simpa [isOnline] using hoffline
  have hleaves := fate_attachList hattach rfl ht.isSettled
  rcases hrest with ⟨e, rfl, -, rfl, rfl⟩ | ⟨a, rfl, hinspect⟩
  · rw [Tracks, show fate h' = fate h from hleaves]
    exact ht
  · exact tracks_inspect hinspect hactive hleaves

theorem tracks_update (checked : Outcome Unit) (change : ShapedLink → ShapedLink) :
    Step.Keeps logging Tracks (onLink fun l ↦ l.update checked (change l)) := by
  intro c c' h h' o hends ht
  rcases ends_onLink hends with ⟨-, -, rfl, rfl⟩ | ⟨active, link, hactive, hset, rfl⟩
  · exact ht
  have honline : (c.setLink active link).active.isSome = c.active.isSome := by
    rw [hactive]
    rfl
  rcases ShapedLink.ends_update hset with ⟨e, -, -, -, rfl⟩ | ⟨rfl, hinstall⟩
  · exact (tracks_congr honline).mpr ht
  · exact ht.of_isQuiet (ShapedLink.isQuiet_install _) hinstall honline

theorem tracks_applyPolicy (config : NetworkConfig) :
    Step.Keeps logging Tracks (applyPolicy config) := by
  intro c c' h h' o hends ht
  rcases ends_applyPolicy hends with ⟨-, -, rfl, rfl⟩ | ⟨active, -, rfl, henforce⟩
  · exact ht
  · exact ht.of_isQuiet (ExternalRoutes.isRouting_enforce _ _).isQuiet henforce rfl

theorem tracks_perform (k : Call) : Step.Keeps logging Tracks (perform k) := by
  refine keeps_perform tracks_detach tracks_attach
    (fun checked change _ ↦ tracks_update checked change) tracks_applyPolicy ?_ k
  rintro c h h' rfl ht
  rw [Tracks, fate_cons, Exchange.fate_of_isSettled rfl ht.isSettled]
  exact ht

theorem Reaches.tracks {start : Configurator} (hnew : start.IsNew)
    (hreach : Reaches logging start [] c h) : c.Tracks h :=
  Reaches.invariant ((tracks_offline hnew.offline).mpr (.inl rfl)) tracks_perform hreach

/-! ## Calls that disable the network -/

/-- **Disabling detaches, unless an attachment was lost.** After every call of every run that
disables the network and succeeds: every attachment that succeeded was followed by a detachment that
did, exactly when the last one was not lost before the call, that is, no look at its interface had
failed. -/
theorem all_detached_iff {start : Configurator} (hnew : start.IsNew)
    (hreach : Reaches logging start [] c h) (hdisable : config.enable = false)
    (hcall : (perform (.configure config) c).Ends logging h (.ok (), c') h') :
    AllDetached h' ↔ fate h ≠ .lost := by
  have ht := Reaches.tracks hnew hreach
  rw [allDetached_iff]
  rcases ends_configure hcall with ⟨e, -, he, -⟩ | ⟨-, hdetach⟩
  · exact absurd he nofun
  rw [if_neg (by simp [hdisable])] at hdetach
  rcases ends_detach hdetach with ⟨hactive, -, -, rfl⟩ | ⟨active, answer, hactive, rfl, hrest⟩
  · -- nothing is remembered, so nothing was asked, and what is lost stays so
    rcases (tracks_offline hactive).mp ht with hgone | hlost
    · simp [hgone]
    · simp [hlost]
  · rcases hrest with ⟨rfl, -, -⟩ | ⟨e, -, he, -⟩
    · rw [(tracks_online hactive).mp ht]
      exact iff_of_true (Exchange.fate_of_detach rfl rfl) Fate.noConfusion
    · exact absurd he nofun

/-- Answers everything with success, and the look for the interface with what is given. -/
def showing (link : Option Link) : (q : Effect) → q.Answer
  | .linkByName _ => (.ok link : Outcome (Option Link))
  | .detach _ _ => (.ok () : Outcome Unit)
  | q => holdingOn (.ofOctets 16 0 1 5 16) q

/-- What a call comes to when the look for the interface is answered in this way. -/
def callShowing (link : Option Link) (config : NetworkConfig) (s : Configurator × History) :
    (Outcome Unit × Configurator) × History :=
  (perform (.configure config) s.1).run (answering (showing link)) s.2

/-- Where calls lead, last first, each with the answer to the look for the interface. -/
def afterShowing : List (Option Link × NetworkConfig) → Configurator × History
  | [] => (fresh, [])
  | (link, config) :: earlier =>
    let ended := callShowing link config (afterShowing earlier)
    (ended.1.2, ended.2)

theorem ends_callShowing (link : Option Link) (config : NetworkConfig)
    (s : Configurator × History) :
    (perform (.configure config) s.1).Ends logging s.2 (callShowing link config s).1
      (callShowing link config s).2 :=
  Program.ends_run _ (fun _ _ ↦ rfl) _ _

theorem reaches_afterShowing (calls : List (Option Link × NetworkConfig)) :
    Reaches logging fresh [] (afterShowing calls).1 (afterShowing calls).2 := by
  induction calls with
  | nil => exact .start
  | cons call earlier ih => exact .call _ ih (ends_callShowing call.1 call.2 _)

/-- A first attachment is lost, since its interface is not there. A second one is seen, and
disabling the network then undoes both. -/
theorem all_detached_after_second_attachment :
    let enabled := NetworkConfig.enabled "default"
    let disabled := NetworkConfig.disabled "default"
    let first := afterShowing [(none, enabled)]
    let second := afterShowing [(some ⟨7, "eth1"⟩, enabled), (none, enabled)]
    let third := callShowing none disabled second
    fresh.IsNew ∧ disabled.enable = false ∧ fate first.2 = .lost ∧ third.1.1 = .ok () ∧
      AllDetached third.2 := by
  intro enabled disabled first second third
  have hreach : Reaches logging fresh [] second.1 second.2 := reaches_afterShowing _
  have hlost : fate first.2 = .lost := by decide +kernel
  have hseen : fate second.2 = .attached 0 := by decide +kernel
  have hok : third.1.1 = .ok () := by decide +kernel
  refine ⟨isNew_fresh, rfl, hlost, hok, ?_⟩
  -- the runs are computed above; from here on their ends alone matter
  clear_value second
  have hcall : (perform (.configure disabled) second.1).Ends logging second.2 third.1 third.2 :=
    ends_callShowing none disabled second
  clear_value third
  obtain ⟨⟨o, c'⟩, h'⟩ := third
  cases hok
  refine (all_detached_iff isNew_fresh hreach rfl hcall).mpr ?_
  rw [hseen]
  exact Fate.noConfusion

/-- A network is disabled and stays attached: the interface was not found after an attachment that
succeeded, so the call that disables the network succeeds and detaches nothing. -/
theorem disabled_but_attached :
    let first := afterShowing [(none, NetworkConfig.enabled "default")]
    let second := callShowing none (NetworkConfig.disabled "default") first
    Reaches logging fresh [] first.1 first.2 ∧
      (perform (.configure (NetworkConfig.disabled "default")) first.1).Ends logging first.2
        second.1 second.2 ∧
      second.1.1 = .ok () ∧ (∀ e ∈ second.2, e.1.isDetach = false) ∧ ¬AllDetached second.2 := by
  intro first second
  have hstanding : fate second.2 ≠ .gone := by decide +kernel
  refine ⟨reaches_afterShowing _, ends_callShowing _ _ _, by decide +kernel, by decide +kernel,
    fun hall ↦ hstanding (allDetached_iff.mp hall)⟩

end Configurator

end ContainerNet
