import Mathlib.Data.List.Forall2
import ContainerNet.Proofs.Configurator.History
import ContainerNet.Proofs.Sidecar.Lifetimes
import ContainerNet.Proofs.Sidecar.Staffs

/-!
# Workers follow each other

The workers of a container never get in each other's way, and none is forgotten: that is what
handles on drains are for. `Staff.Run.succession` says it of every run of a staff, with any calls
and any order in which tasks go on.

What is seen of the workers of a container is one part for each, in the order in which they were
hired: a lifetime if the worker was reported as released, and else its past (`Crew.Tells`). When a
worker goes on, all later ones have no past yet, since they have not begun
(`Crew.Sound.not_begun`). So what it does goes to the end of what is seen, and its part stays in one
piece.
-/

namespace ContainerNet.Sidecar

variable {t : Terms} {id : ContainerId}

/-! ## Parts -/

/-- What was seen of the worker of a stint. -/
inductive Stint.Tells (id : ContainerId) (s : Stint) (part : List Happening) : Prop
  | gone : s.isGone = true → Lifetime id s.worker.netns part → Tells id s part
  | going : s.isGone = false → Worker.Past id s.worker.netns s.worker.stage part → Tells id s part

namespace Stint

variable {s s' : Stint} {part : List Happening}

theorem Tells.lifetime (h : s.Tells id part) (hgone : s.isGone = true) :
    Lifetime id s.worker.netns part := by
  cases h with
  | gone _ hlifetime => exact hlifetime
  | going hnot => exact absurd hgone (by simp [hnot])

theorem Tells.past (h : s.Tells id part) (hgone : s.isGone = false) :
    Worker.Past id s.worker.netns s.worker.stage part := by
  cases h with
  | gone hyes => exact absurd hyes (by simp [hgone])
  | going _ hpast => exact hpast

theorem Tells.eq_nil (h : s.Tells id part) (hsound : s.Sound t id) (hnot : ¬s.HasBegun) :
    part = [] := by
  obtain ⟨hfresh, hover⟩ := not_or.mp hnot
  have hgone : s.isGone = false := hsound.not_gone (by simpa using hover)
  have hpast := h.past hgone
  rw [not_not.mp hfresh] at hpast
  cases hpast
  rfl

/-- A stint tells the same as long as its worker is at the same stage and is not reported. -/
theorem Tells.congr (h : s.Tells id part) (hnetns : s'.worker.netns = s.worker.netns)
    (hstage : s'.worker.stage = s.worker.stage) (hgone : s'.isGone = s.isGone) :
    s'.Tells id part := by
  cases h with
  | gone hyes hlifetime => exact .gone (hgone.trans hyes) (hnetns ▸ hlifetime)
  | going hnot hpast => exact .going (hgone.trans hnot) (hnetns ▸ hstage ▸ hpast)

end Stint

namespace Crew

variable {c c' : Crew} {k : Nat} {s s' : Stint} {seen more : List Happening}

/-! ## What is seen of a crew -/

/-- What is seen of the workers is one part for each of them, in order. -/
structure Tells (id : ContainerId) (seen : List Happening) (c : Crew) : Prop where
  parts : ∃ parts : List (List Happening), seen.filter (·.isOfWorker) = parts.flatten ∧
    List.Forall₂ (Stint.Tells id) c.stints parts
  turnedAway : ∀ r ∈ c.undelivered, r.isTurnedAway = true

/-- Lists that are related element by element, cut at the same place. -/
theorem exists_of_forall₂_middle {α β : Type} {R : α → β → Prop} {a : α} {pre post : List α}
    {bs : List β} (h : List.Forall₂ R (pre ++ a :: post) bs) :
    ∃ before b after, bs = before ++ b :: after ∧ List.Forall₂ R pre before ∧ R a b ∧
      List.Forall₂ R post after := by
  induction pre generalizing bs with
  | nil =>
    cases h with
    | cons hab hpost => exact ⟨[], _, _, rfl, .nil, hab, hpost⟩
  | cons x pre ih =>
    cases h with
    | cons hx h =>
      obtain ⟨before, b, after, rfl, hpre, hab, hpost⟩ := ih h
      exact ⟨_ :: before, b, after, rfl, .cons hx hpre, hab, hpost⟩

namespace Tells

/-- Something is seen of a worker whose drain has not ended. It belongs to the end of what was
seen, since all later workers have not begun. -/
theorem put (h : c.Tells id seen) (hsound : c.Sound t id) (hs : c.stints[k]? = some s)
    (hfin : s.drain ≠ some .finished)
    (htells : ∀ part, s.Tells id part → s'.Tells id (part ++ more.filter (·.isOfWorker))) :
    (c.put k s').Tells id (seen ++ more) := by
  obtain ⟨parts, hseen, hparts⟩ := h.parts
  obtain ⟨pre, post, hlength, hsplit, hput⟩ := exists_split hs
  rw [hsplit] at hparts
  obtain ⟨before, part, after, rfl, hbefore, hpart, hafter⟩ := exists_of_forall₂_middle hparts
  -- nothing was seen of later workers, so the part of this one is the last that is not empty
  have hnothing : after.flatten = [] := by
    rw [List.flatten_eq_nil_iff]
    intro q hq
    obtain ⟨j, hj, rfl⟩ := List.getElem_of_mem hq
    have hj' : j < post.length := hafter.length_eq ▸ hj
    have hu : c.stints[k + (j + 1)]? = some post[j] := by
      rw [hsplit, ← hlength, List.getElem?_append_right (Nat.le_add_right _ _)]
      simp [hj']
    exact (hafter.get hj' hj).eq_nil (hsound.stint hu) (hsound.not_begun hs hfin (by omega) hu)
  refine ⟨⟨before ++ (part ++ more.filter (·.isOfWorker)) :: after, ?_, ?_⟩, h.turnedAway⟩
  · simp [hseen, hnothing]
  · rw [hput]
    exact List.rel_append hbefore (.cons (htells part hpart) hafter)

theorem congr (h : c.Tells id seen) (hstints : c'.stints = c.stints)
    (hundelivered : ∀ r ∈ c'.undelivered, r.isTurnedAway = true)
    (hmore : more.filter (·.isOfWorker) = []) : c'.Tells id (seen ++ more) := by
  obtain ⟨parts, hseen, hparts⟩ := h.parts
  refine ⟨⟨parts, ?_, hstints ▸ hparts⟩, hundelivered⟩
  rw [List.filter_append, hmore, List.append_nil, hseen]

theorem release (h : c.Tells id seen) (hsound : c.Sound t id) : c.release.Tells id seen := by
  rw [Crew.release]
  split
  · exact h
  next k s hduty =>
    obtain ⟨hk, hs⟩ := onDuty?_eq_some_iff.mp hduty
    have hdrain := (hsound.onDuty_iff hs).mpr hk
    have hput : (c.put k { s with drain := some .waiting }).Tells id (seen ++ []) :=
      h.put hsound hs (by simp [hdrain]) fun part hpart ↦ by
        rw [List.filter_nil, List.append_nil]
        exact hpart.congr rfl rfl (by simp [Stint.isGone, hdrain])
    rw [List.append_nil] at hput
    exact ⟨hput.parts, hput.turnedAway⟩

theorem hire (h : c.Tells id seen) (netns : String) : (c.hire netns).Tells id seen := by
  rw [Crew.hire]
  split
  · exact h
  · obtain ⟨parts, hseen, hparts⟩ := h.parts
    exact ⟨⟨parts ++ [[]], by simp [hseen],
      List.rel_append hparts (.cons (.going rfl .fresh) .nil)⟩, h.turnedAway⟩

/-- **Every shift goes on with the story.** -/
theorem shift {config : Option NetworkConfig} (h : c.Tells id seen) (hsound : c.Sound t id)
    (hshift : Shift t id c config more c') : c'.Tells id (seen ++ more) := by
  cases hshift with
  | @goes k s m w e hs hmay hover hgoes =>
    have hadvance := hgoes.advance
    have hgone : s.isGone = false := (hsound.stint hs).not_gone hover
    refine h.put hsound hs ?_ fun part hpart ↦ ?_
    · exact fun hfin ↦ absurd (Stint.isGone_of_finished hfin) (by simp [hgone])
    · rw [List.filter_singleton, hadvance.isOfWorker]
      exact .going hgone ((hpart.past hgone).advance hadvance)
  | @ends k s hs hmay hover hturn =>
    have hgone : s.isGone = false := (hsound.stint hs).not_gone hover
    refine h.put hsound hs ?_ fun part hpart ↦ ?_
    · exact fun hfin ↦ absurd (Stint.isGone_of_finished hfin) (by simp [hgone])
    · rw [List.filter_nil, List.append_nil]
      exact hpart.congr rfl rfl rfl
  | @reports k s hs hdrain hover =>
    have hgone : s.isGone = false := by simp [Stint.isGone, hdrain]
    refine h.put hsound hs (by simp [hdrain]) fun part hpart ↦ .gone (by simp [Stint.isGone]) ?_
    exact (hpart.past hgone).lifetime ((hsound.stint hs).turn_of_over hover)
  | @finishes k s hs hdrain =>
    refine h.put hsound hs (by simp [hdrain]) fun part hpart ↦ ?_
    rw [List.filter_nil, List.append_nil]
    exact hpart.congr rfl rfl (by simp [Stint.isGone, hdrain])
  | tidies | handsOver | joins => exact h.congr rfl h.turnedAway rfl
  | notes entry => exact h.congr rfl h.turnedAway rfl
  | letsGo =>
    rw [List.append_nil]
    exact h.release hsound
  | hires netns =>
    rw [List.append_nil]
    exact h.hire netns
  | @accepts k s config hduty hover =>
    obtain ⟨hk, hs⟩ := onDuty?_eq_some_iff.mp hduty
    have hdrain := (hsound.onDuty_iff hs).mpr hk
    refine h.put hsound hs (by simp [hdrain]) fun part hpart ↦ ?_
    rw [show [Happening.accepted config].filter (·.isOfWorker) = [] from rfl, List.append_nil]
    exact hpart.congr rfl rfl rfl
  | turnsAway config note hduty hwhy =>
    refine h.congr rfl (fun r hr ↦ ?_) rfl
    rcases List.mem_append.mp hr with hr | hr
    · exact h.turnedAway r hr
    · rw [List.mem_singleton.mp hr]
      rcases hwhy with ⟨rfl, -⟩ | rfl <;> rfl
  | @delivers i r hr =>
    refine h.congr rfl (fun r hr ↦ h.turnedAway r (List.mem_of_mem_eraseIdx hr)) ?_
    simp [Happening.isOfWorker, h.turnedAway r (List.mem_of_getElem? hr)]

end Tells

/-- What is seen of the workers of a container is one part for each of them, at any time. -/
theorem Shifts.tells {called : List NetworkConfig} (h : Shifts t id {} called seen c) :
    c.Tells id seen := by
  induction h with
  | refl => exact ⟨⟨[], rfl, .nil⟩, by simp⟩
  | tail hshifts hshift ih => exact ih.shift hshifts.sound hshift

end Crew

/-! ## Every run of a staff -/

/-- Somebody waits for the drain of a stint: the shutdown, or the next worker, who has not begun.
Or its handle is kept for the next worker. -/
inductive Crew.Keeps (c : Crew) (k : Nat) : Prop
  | draining : c.draining = some k → Keeps c k
  | joining : c.joining = some k → Keeps c k
  | next {s : Stint} : c.stints[k + 1]? = some s → s.after = some k → ¬s.HasBegun → Keeps c k

/-- A drain that has not ended is kept, whoever it belongs to. -/
theorem Crew.Sound.keeps {c : Crew} {k : Nat} {s : Stint} (h : c.Sound t id)
    (hs : c.stints[k]? = some s) :
    (s.drain = none ∧ c.onDuty = some k) ∨ s.drain = some .finished ∨ c.Keeps k := by
  have hlt := (List.getElem?_eq_some_iff.mp hs).1
  by_cases hlast : k + 1 = c.stints.length
  · rcases h.held hs hlast with hnone | hfin | hdraining | hjoining
    · exact .inl ⟨hnone, (h.onDuty_iff hs).mp hnone⟩
    · exact .inr (.inl hfin)
    · exact .inr (.inr (.draining hdraining))
    · exact .inr (.inr (.joining hjoining))
  · obtain ⟨next, hnext⟩ : ∃ next, c.stints[k + 1]? = some next :=
      ⟨_, List.getElem?_eq_getElem (by omega)⟩
    rcases h.after hs hnext with hfin | ⟨hafter, hnot⟩
    · exact .inr (.inl hfin)
    · exact .inr (.inr (.next hnext hafter hnot))

namespace Staff

variable {s s' : Staff} {events : List Event}

/-- **Workers of a container follow each other.** In every run, what is seen of the workers of a
container is one part for each of them, in the order in which they were hired: its lifetime if it
was reported as released, or else what it has done so far. A worker begins after the drains of all
before it have ended, so after all of them were reported as released. Whoever is not on duty has a
drain, and as long as that has not ended somebody keeps its handle. When a shutdown is through, all
workers have ended, and what was seen are their lifetimes. -/
theorem Run.succession (h : Run t events s) (id : ContainerId) :
    (∃ parts : List (List Happening), (seen id events).filter (·.isOfWorker) = parts.flatten ∧
        List.Forall₂ (Stint.Tells id) (s.crews id).stints parts) ∧
      (∀ (j k : Nat) (before after : Stint), (s.crews id).stints[j]? = some before →
        (s.crews id).stints[k]? = some after → j < k → after.HasBegun →
          before.drain = some .finished) ∧
      (∀ (k : Nat) (st : Stint), (s.crews id).stints[k]? = some st →
        (st.drain = none ∧ (s.crews id).onDuty = some k) ∨ st.drain = some .finished ∨
          (s.crews id).Keeps k) ∧
      ∀ s', s.Step [.stopped] s' → ∃ parts : List (List Happening),
        (seen id events).filter (·.isOfWorker) = parts.flatten ∧
          List.Forall₂ (fun st part ↦ st.isOver = true ∧ st.drain = some .finished ∧
            Lifetime id st.worker.netns part) (s'.crews id).stints parts := by
  have hsound := h.sound id
  obtain ⟨parts, hseen, hparts⟩ := (h.shifts id).tells.parts
  refine ⟨⟨parts, hseen, hparts⟩, ?_, fun k st ↦ hsound.keeps, fun s' hstop ↦ ?_⟩
  · intro j k before after hbefore hafter hlt hbegun
    exact hsound.finished_of_lt hafter (.inl hbegun) hlt hbefore
  · rw [hstop.of_stopped.2.2]
    refine ⟨parts, hseen, ?_⟩
    have hall := (List.forall₂_and_left _ _).mpr ⟨fun st ↦ h.all_finished hstop, hparts⟩
    refine hall.imp fun st part hpart ↦ ?_
    obtain ⟨⟨hover, hfin⟩, htells⟩ := hpart
    exact ⟨hover, hfin, htells.lifetime (Stint.isGone_of_finished hfin)⟩

/-- A worker is let go, and another one is hired for another namespace, which cannot be opened. Then
there is a shutdown. -/
theorem Run.succession_two_namespaces :
    let id : ContainerId := ⟨"web-1", by decide⟩
    ∃ events s s', Run {} events s ∧ s.Step [.stopped] s' ∧
      (s'.crews id).stints.map (·.worker.netns) = ["/run/netns/a", "/run/netns/b"] ∧
      ∃ parts : List (List Happening), (seen id events).filter (·.isOfWorker) = parts.flatten ∧
        List.Forall₂ (fun st part ↦ st.isOver = true ∧ st.drain = some .finished ∧
          Lifetime id st.worker.netns part) (s'.crews id).stints parts := by
  intro id
  let config := NetworkConfig.disabled "default"
  let crew : Crew :=
    { stints := [
        { worker := { netns := "/run/netns/a", waiting := [config] }, drain := some .waiting },
        { worker := { netns := "/run/netns/b", waiting := [config] }, after := some 0
          drain := some .waiting }]
      joining := some 1 }
  let tasks : List Crew.Move :=
    [.work 0 .advance, .work 0 (.opened (.ok ())), .work 0 .advance, .work 0 .advance,
      .work 0 (.answered (Configurator.holdingOn (.ofOctets 16 0 1 5 16))), .work 0 .advance,
      .drain 0, .drain 0, .work 1 .advance, .work 1 (.opened (.error .closed)), .work 1 .advance,
      .work 1 .advance, .work 1 .advance, .drain 1, .drain 1]
  have hreleased : Run {} _ (alone {} id false _) :=
    (Run.alone_start.alone_call (.configure "/run/netns/a" config) rfl).alone_call .release rfl
  have hrun : Run {} _ (alone {} id true crew) :=
    (hreleased.alone_call (.configure "/run/netns/b" config) rfl).alone_shutDown
  have hend : (moveAll (fun c m ↦ Crew.step c {} id m) tasks crew).any (fun x ↦
      x.1.joining.any x.1.isFinished &&
        x.1.stints.map (·.worker.netns) = ["/run/netns/a", "/run/netns/b"]) = true := by
    decide +kernel
  obtain ⟨⟨c, happenings⟩, hmoves, hc⟩ := (Option.any_eq_true _ _).mp hend
  obtain ⟨hjoins, hnetns⟩ := Bool.and_eq_true_iff.mp hc
  have hrun := (hrun.alone_tasks (by decide) hmoves).alone_join (if_pos hjoins)
  refine ⟨_, _, _, hrun, alone_stopped rfl, ?_, hrun.succession id |>.2.2.2 _ (alone_stopped rfl)⟩
  rw [(alone_stopped rfl).of_stopped.2.2, alone_crews_self]
  exact of_decide_eq_true hnetns

end Staff

end ContainerNet.Sidecar
