import Mathlib.Algebra.BigOperators.Group.Finset.Basic
import Mathlib.Algebra.Order.Group.Multiset
import Mathlib.Logic.Hydra
import ContainerNet.Proofs.Sidecar.Staffs

/-!
# Tasks come to an end

If no calls come in, the tasks of a staff cannot go on for ever, whatever the world answers and
whoever goes on first (`Staff.Touches.acc`). A program asks finitely often on every path, and a
worker has finitely many configurations to act on, so each worker comes to an end of its own. Many
workers go on in turns, but a task that goes on puts one worker in place of another that has more to
do and leaves all others as they are, which is the order of multisets.
-/

namespace ContainerNet.Sidecar

open Relation (CutExpand)

variable {t : Terms} {id : ContainerId}

/-! ## One worker -/

namespace Worker

/-- The first worker is what the second one becomes by going on. -/
def Follows (t : Terms) (w' w : Worker) : Prop :=
  ∃ id isSealed h, w.Advance t id isSealed w' h

variable {netns : String} {waiting : List NetworkConfig}

theorem acc_closing (work : Action Configurator) :
    Acc (Follows t) ⟨netns, waiting, .closing work⟩ := by
  induction work with
  | done c =>
    refine ⟨_, fun w' ⟨id, isSealed, h, hadvance⟩ ↦ ?_⟩
    cases hadvance with
    | closing answer hstage => cases hstage
    | _ => contradiction
  | ask q next ih =>
    refine ⟨_, fun w' ⟨id, isSealed, h, hadvance⟩ ↦ ?_⟩
    cases hadvance with
    | closing answer hstage =>
      cases hstage
      exact ih answer
    | _ => contradiction

theorem acc_busy (hready : ∀ c, Acc (Follows t) ⟨netns, waiting, .ready c⟩)
    (config : NetworkConfig) (work : Action (Outcome Unit × Configurator)) :
    Acc (Follows t) ⟨netns, waiting, .busy config work⟩ := by
  induction work with
  | done result =>
    refine ⟨_, fun w' ⟨id, isSealed, h, hadvance⟩ ↦ ?_⟩
    cases hadvance with
    | report hstage => exact hready _
    | ask answer hstage => cases hstage
    | _ => contradiction
  | ask q next ih =>
    refine ⟨_, fun w' ⟨id, isSealed, h, hadvance⟩ ↦ ?_⟩
    cases hadvance with
    | report hstage => cases hstage
    | ask answer hstage =>
      cases hstage
      exact ih answer
    | _ => contradiction

theorem acc_ready (c : Configurator) : Acc (Follows t) ⟨netns, waiting, .ready c⟩ := by
  -- on what waits: what is in hand is acted on with one configuration less to wait
  induction waiting generalizing c with
  | nil =>
    refine ⟨_, fun w' ⟨id, isSealed, h, hadvance⟩ ↦ ?_⟩
    cases hadvance with
    | close answer => exact acc_closing _
    | _ => contradiction
  | cons config rest ih =>
    refine ⟨_, fun w' ⟨id, isSealed, h, hadvance⟩ ↦ ?_⟩
    cases hadvance with
    | take hstage hwaiting =>
      cases hwaiting
      exact acc_busy ih config _
    | _ => contradiction

theorem acc_refused_some {why : Error} (h : Acc (Follows t) ⟨netns, waiting, .refused why none⟩)
    (config : NetworkConfig) : Acc (Follows t) ⟨netns, waiting, .refused why (some config)⟩ := by
  refine ⟨_, fun w' ⟨id, isSealed, _, hadvance⟩ ↦ ?_⟩
  cases hadvance with
  | refuse hstage =>
    cases hstage
    exact h
  | takeRefused hstage => cases hstage
  | _ => contradiction

theorem acc_refused (why : Error) : Acc (Follows t) ⟨netns, waiting, .refused why none⟩ := by
  induction waiting with
  | nil =>
    refine ⟨_, fun w' ⟨id, isSealed, h, hadvance⟩ ↦ ?_⟩
    cases hadvance with
    | refuse hstage => cases hstage
    | _ => contradiction
  | cons config rest ih =>
    refine ⟨_, fun w' ⟨id, isSealed, h, hadvance⟩ ↦ ?_⟩
    cases hadvance with
    | takeRefused hstage hwaiting =>
      cases hstage
      cases hwaiting
      exact acc_refused_some ih config
    | refuse hstage => cases hstage
    | _ => contradiction

theorem acc_opening : Acc (Follows t) ⟨netns, waiting, .opening⟩ := by
  refine ⟨_, fun w' ⟨id, isSealed, h, hadvance⟩ ↦ ?_⟩
  cases hadvance with
  | opened => exact acc_ready _
  | notOpened why => exact acc_refused why
  | _ => contradiction

/-- **A worker goes on finitely often**, whatever the world answers. -/
theorem wellFounded_follows (t : Terms) : WellFounded (Follows t) := by
  refine ⟨fun ⟨netns, waiting, stage⟩ ↦ ?_⟩
  cases stage with
  | fresh =>
    refine ⟨_, fun w' ⟨id, isSealed, h, hadvance⟩ ↦ ?_⟩
    cases hadvance with
    | opening => exact acc_opening
    | _ => contradiction
  | opening => exact acc_opening
  | refused why inHand =>
    cases inHand with
    | none => exact acc_refused why
    | some config => exact acc_refused_some (acc_refused why) config
  | ready c => exact acc_ready c
  | busy config work => exact acc_busy acc_ready config work
  | closing work => exact acc_closing work

end Worker

/-! ## One stint -/

namespace Stint

/-- The first stint is what the second one becomes when a task of it goes on. -/
def Follows (t : Terms) (s' s : Stint) : Prop :=
  ∃ id seen, (∃ m, s.step t id m = some (s', seen)) ∨ s.stepDrain id = some (s', seen)

/-- How often the tasks of a stint can still go on, but for the worker. -/
def ahead (s : Stint) : ℕ :=
  (if s.isOver then 0 else 1) +
    match s.drain with
    | some .waiting => 2
    | some .reported => 1
    | _ => 0

theorem wellFounded_follows (t : Terms) : WellFounded (Follows t) := by
  have hlt : WellFounded fun m n : ℕ ↦ m < n := wellFounded_lt
  have hlex := WellFounded.prod_lex (Worker.wellFounded_follows t) hlt
  refine Subrelation.wf (fun {s' s} h ↦ ?_) (InvImage.wf (fun s : Stint ↦ (s.worker, s.ahead)) hlex)
  obtain ⟨id, seen, ⟨m, hstep⟩ | hstep⟩ := h
  -- the worker goes on, or it has ended and what is left is to say so
  · obtain ⟨hover, ⟨-, -, rfl, -⟩ | ⟨w, e, hgoes, rfl, -⟩⟩ := step_eq_some_iff.mp hstep
    · exact Prod.Lex.right _ (by simp [ahead, hover])
    · exact Prod.Lex.left _ _ ⟨_, _, _, hgoes.advance⟩
  · unfold stepDrain at hstep
    split at hstep
    next hdrain =>
      obtain ⟨-, hstep⟩ := Option.ite_none_right_eq_some.mp hstep
      cases hstep
      exact Prod.Lex.right _ (by simp [ahead, hdrain])
    next hdrain =>
      cases hstep
      exact Prod.Lex.right _ (by simp [ahead, hdrain])
    next => cases hstep

end Stint

/-! ## One container -/

namespace Crew

variable {c c' : Crew} {seen : List Happening}

/-- How many reports and handles of a crew are to be dealt with yet. -/
def outstanding (c : Crew) : ℕ := c.undelivered.length + c.joining.toList.length

/-- A task that goes on leaves its stint with less to do, or there is a report less to deliver. -/
theorem less_of_task {m : Move} (htask : m.isOfTask = true)
    (hstep : c.step t id m = some (c', seen)) :
    CutExpand (Stint.Follows t) (c'.stints : Multiset Stint) c.stints ∨
      c'.stints = c.stints ∧ c'.outstanding < c.outstanding := by
  have hcut {k : ℕ} {s s' : Stint} (hs : c.stints[k]? = some s) (hfollows : s'.Follows t s) :
      CutExpand (Stint.Follows t) ((c.put k s').stints : Multiset Stint) c.stints := by
    obtain ⟨pre, post, -, hsplit, hput⟩ := exists_split hs
    rw [hput, hsplit, ← Multiset.coe_add, ← Multiset.coe_add, Relation.cutExpand_add_left]
    exact Relation.cutExpand_single_add hfollows (post : Multiset Stint)
  cases m with
  | work k m =>
    obtain ⟨s, s', hs, hwork, rfl⟩ := move_eq_some_iff.mp hstep
    obtain ⟨-, hwork⟩ := Option.ite_none_right_eq_some.mp hwork
    exact .inl (hcut hs ⟨id, seen, .inl ⟨m, hwork⟩⟩)
  | drain k =>
    obtain ⟨s, s', hs, hdrain, rfl⟩ := move_eq_some_iff.mp hstep
    exact .inl (hcut hs ⟨id, seen, .inr hdrain⟩)
  | deliver i =>
    obtain ⟨r, hr, hstep⟩ := Option.map_eq_some_iff.mp hstep
    cases hstep
    have hlt := (List.getElem?_eq_some_iff.mp hr).1
    refine .inr ⟨rfl, ?_⟩
    simp only [outstanding, List.length_eraseIdx_of_lt hlt]
    omega
  | call | tidy | shutDown | join => exact absurd htask nofun

theorem less_of_join (hstep : c.step t id .join = some (c', seen)) :
    c'.stints = c.stints ∧ c'.outstanding < c.outstanding := by
  obtain ⟨hany, hstep⟩ := Option.ite_none_right_eq_some.mp hstep
  cases hstep
  refine ⟨rfl, ?_⟩
  cases hjoining : c.joining with
  | none => simp [hjoining] at hany
  | some k => simp [outstanding, hjoining]

end Crew

/-! ## All containers -/

namespace Staff

variable {s s' : Staff} {events more : List Event} {ids : Finset ContainerId}

/-- Whether it is something that a task or the wait for one brings about. -/
def Event.isHappening : Event → Bool
  | .happening _ _ => true
  | _ => false

/-- The first staff is what the second one becomes when a task goes on. -/
def Follows (s' s : Staff) : Prop := ∃ more, s.Step more s' ∧ ∀ e ∈ more, e.isHappening = true

/-- All containers that there was something to do for are among these. -/
def Touches (ids : Finset ContainerId) (s : Staff) : Prop := ∀ id ∉ ids, s.crews id = {}

theorem Touches.setCrew (h : Touches ids s) (other : ContainerId) (c : Crew) :
    Touches (insert other ids) (s.setCrew other c) := by
  intro id hid
  rw [Finset.mem_insert, not_or] at hid
  rw [setCrew_crews_of_ne s (Ne.symm hid.1)]
  exact h id hid.2

theorem Touches.step (h : Touches ids s) (hstep : s.Step more s') : ∃ ids, Touches ids s' := by
  cases hstep with
  | @configure other netns config c =>
    have htidy : Touches ids { s with crews := fun id ↦ (s.crews id).tidy } :=
      fun id hid ↦ congrArg Crew.tidy (h id hid)
    exact ⟨_, htidy.setCrew other c⟩
  | release | task | join => exact ⟨_, h.setCrew _ _⟩
  | shutDown => exact ⟨ids, fun id hid ↦ congrArg Crew.shutDown (h id hid)⟩
  | stopped => exact ⟨ids, h⟩

/-- At any time there was something to do for finitely many containers only. -/
theorem Run.exists_touches (h : Run t events s) : ∃ ids, Touches ids s := by
  induction h with
  | start => exact ⟨∅, fun _ _ ↦ rfl⟩
  | step _ hstep ih =>
    obtain ⟨ids, hids⟩ := ih
    exact hids.step hstep

/-- What the tasks of these containers have to do. -/
def load (ids : Finset ContainerId) (s : Staff) : Multiset Stint × ℕ :=
  (∑ id ∈ ids, ((s.crews id).stints : Multiset Stint), ∑ id ∈ ids, (s.crews id).outstanding)

theorem less_of_setCrew {c : Crew} (hid : id ∈ ids)
    (hless : CutExpand (Stint.Follows t) (c.stints : Multiset Stint) (s.crews id).stints ∨
      c.stints = (s.crews id).stints ∧ c.outstanding < (s.crews id).outstanding) :
    Prod.Lex (CutExpand (Stint.Follows t)) (· < ·) (load ids (s.setCrew id c)) (load ids s) := by
  have hrest {M : Type} [AddCommMonoid M] (f : Crew → M) :
      ∑ other ∈ ids, f ((s.setCrew id c).crews other) =
        f c + ∑ other ∈ ids.erase id, f (s.crews other) := by
    rw [← Finset.add_sum_erase ids _ hid, setCrew_crews_self]
    refine congrArg (f c + ·) (Finset.sum_congr rfl fun other hother ↦ ?_)
    rw [setCrew_crews_of_ne s (Finset.ne_of_mem_erase hother).symm]
  have hstints := hrest fun c ↦ (c.stints : Multiset Stint)
  have houtstanding := hrest Crew.outstanding
  rw [load, load, hstints, houtstanding,
    ← Finset.add_sum_erase ids (fun id ↦ ((s.crews id).stints : Multiset Stint)) hid,
    ← Finset.add_sum_erase ids (fun id ↦ (s.crews id).outstanding) hid]
  rcases hless with hcut | ⟨hsame, hlt⟩
  · exact .left _ _ ((Relation.cutExpand_add_right _).mpr hcut)
  · rw [hsame]
    exact .right _ (Nat.add_lt_add_right hlt _)

theorem less_of_follows (h : Touches ids s) (hfollows : s'.Follows s) :
    Touches ids s' ∧ s'.terms = s.terms ∧
      Prod.Lex (CutExpand (Stint.Follows s.terms)) (· < ·) (load ids s') (load ids s) := by
  obtain ⟨more, hstep, hmore⟩ := hfollows
  -- where there was nothing to do, no task can go on
  have hmem {m : Crew.Move} {other : ContainerId} {c : Crew} {seen : List Happening}
      (hm : m.isOfTask = true ∨ m = .join)
      (hmove : (s.crews other).step s.terms other m = some (c, seen)) : other ∈ ids := by
    by_contra hother
    rw [h other hother] at hmove
    rcases hm with hm | rfl
    · cases m with
      | work | drain | deliver => exact absurd hmove nofun
      | call | tidy | shutDown | join => exact absurd hm nofun
    · exact absurd hmove nofun
  have hself {other : ContainerId} (hother : other ∈ ids) (c : Crew) :
      Touches ids (s.setCrew other c) := by
    rw [← Finset.insert_eq_of_mem hother]
    exact h.setCrew other c
  cases hstep with
  | task htask hmove =>
    have hother := hmem (.inl htask) hmove
    exact ⟨hself hother _, rfl, less_of_setCrew hother (Crew.less_of_task htask hmove)⟩
  | join _ hmove =>
    have hother := hmem (.inr rfl) hmove
    exact ⟨hself hother _, rfl, less_of_setCrew hother (.inr (Crew.less_of_join hmove))⟩
  | configure | release | shutDown | stopped => exact absurd (hmore _ List.mem_cons_self) nofun

/-- **Tasks come to an end.** However they are scheduled, and whatever the world answers, they go on
finitely often if no calls come in. -/
theorem Touches.acc (h : Touches ids s) : Acc Follows s := by
  have hlt : WellFounded fun m n : ℕ ↦ m < n := wellFounded_lt
  -- the induction is on the load, of which there are many staffs with the same
  obtain ⟨load₀, hload⟩ : ∃ load₀, load ids s = load₀ := ⟨_, rfl⟩
  obtain ⟨terms, hterms⟩ : ∃ terms, s.terms = terms := ⟨_, rfl⟩
  induction load₀ using (WellFounded.prod_lex (Stint.wellFounded_follows terms).cutExpand
    hlt).induction generalizing s with
  | _ load₀ ih =>
    subst hload
    subst hterms
    refine ⟨_, fun s' hfollows ↦ ?_⟩
    obtain ⟨htouches, hterms, hless⟩ := less_of_follows h hfollows
    exact ih _ hless htouches rfl hterms

end Staff

end ContainerNet.Sidecar
