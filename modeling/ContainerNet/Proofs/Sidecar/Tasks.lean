import ContainerNet.Proofs.Sidecar.Moves
import ContainerNet.Proofs.Sidecar.Handles

/-!
# Crews and lanes show the same

A lane is what is seen of a crew. It has the stints that are not reported for its workers; tasks
that end, handles that are thrown away and drains that end after their report are nothing to it.

Each move of a crew is one of its lane, or nothing is seen of it (`Crew.Sound.step_lane`). That only
the first worker of the lane acts is due to handles: when a task of a stint can go on, all earlier
ones are gone (`Crew.Sound.gone_of_lt`). The other way round, each move of a lane is a few moves of
the crew (`Crew.Sound.exists_moves`): before the first worker goes on the drain before it may have
to end, and before it is reported its task has to. So nothing can be seen of one that cannot be seen
of the other (`Crew.exists_moves_iff`), and what is proved of crews holds for the lanes that a
sidecar is run with.
-/

namespace ContainerNet.Sidecar

variable {t : Terms} {id : ContainerId}

attribute [ext] Lane

namespace Crew

variable {c c' : Crew} {k : Nat} {s s' : Stint}

/-- The lane that is seen of a crew. -/
def lane (c : Crew) : Lane where
  gone := c.stints.countP (·.isGone)
  leaving := (c.stints.filter (·.isLeaving)).map (·.worker)
  current := c.onDuty?.map (·.2.worker)
  undelivered := c.undelivered

/-! ## One stint among others -/

theorem onDuty?_put_of_ne (hk : c.onDuty ≠ some k) : (c.put k s').onDuty? = c.onDuty? := by
  ext ⟨j, u⟩
  rw [onDuty?_eq_some_iff, onDuty?_eq_some_iff]
  refine and_congr_right fun hj ↦ ?_
  have hne : k ≠ j := by
    rintro rfl
    exact hk hj
  rw [put, List.getElem?_set_ne hne]

theorem onDuty?_put (hk : c.onDuty = some k) (hs : c.stints[k]? = some s) :
    (c.put k s').onDuty? = some (k, s') := by
  have hlt := (List.getElem?_eq_some_iff.mp hs).1
  rw [onDuty?_eq_some_iff]
  exact ⟨hk, by simp [put, hlt]⟩

/-- What tasks and drains do behind a worker is nothing to the lane. -/
theorem lane_put (hs : c.stints[k]? = some s) (hworker : s'.worker = s.worker)
    (hgone : s'.isGone = s.isGone) (hleaving : s'.isLeaving = s.isLeaving) :
    (c.put k s').lane = c.lane := by
  obtain ⟨pre, post, -, hsplit, hput⟩ := exists_split hs
  have hduty : (c.put k s').onDuty?.map (·.2.worker) = c.onDuty?.map (·.2.worker) := by
    by_cases hk : c.onDuty = some k
    · rw [onDuty?_put hk hs, onDuty?_eq_some_iff.mpr ⟨hk, hs⟩]
      simp [hworker]
    · rw [onDuty?_put_of_ne hk]
  have hmap : ((s' :: post).filter (·.isLeaving)).map (·.worker) =
      ((s :: post).filter (·.isLeaving)).map (·.worker) := by
    rw [List.filter_cons, List.filter_cons, hleaving]
    split <;> simp [hworker]
  rw [lane, lane, hduty, hput, hsplit]
  simp only [List.countP_append, List.countP_cons, List.filter_append, List.map_append, hmap, hgone]
  rfl

theorem Stint.not_leaving_of_gone {p : Stint} (h : p.isGone = true) : p.isLeaving = false := by
  rcases Bool.or_eq_true_iff.mp h with hdrain | hdrain <;>
    simp [Stint.isLeaving, of_decide_eq_true hdrain]

namespace Sound

/-! ## Calls -/

theorem exists_split_onDuty (h : c.Sound t id) (hduty : c.onDuty? = some (k, s)) :
    s.drain = none ∧ ∃ pre, c.stints = pre ++ [s] ∧ ∀ s', (c.put k s').stints = pre ++ [s'] := by
  obtain ⟨hk, hs⟩ := onDuty?_eq_some_iff.mp hduty
  obtain ⟨pre, post, hlength, hsplit, hput⟩ := exists_split hs
  have hlast := (h.onDuty hk).1
  rw [hsplit, List.length_append, List.length_cons, hlength] at hlast
  obtain rfl : post = [] := List.length_eq_zero_iff.mp (by omega)
  exact ⟨(h.onDuty_iff hs).mpr hk, pre, hsplit, hput⟩

theorem lane_put_onDuty (h : c.Sound t id) (hduty : c.onDuty? = some (k, s)) (w : Worker) :
    (c.put k { s with worker := w }).lane = { c.lane with current := some w } := by
  obtain ⟨hdrain, pre, hsplit, hput⟩ := h.exists_split_onDuty hduty
  obtain ⟨hk, hs⟩ := onDuty?_eq_some_iff.mp hduty
  refine Lane.ext ?_ ?_ ?_ rfl
  · simp [lane, hput, hsplit, Stint.isGone, hdrain]
  · simp [lane, hput, hsplit, Stint.isLeaving, hdrain]
  · rw [lane, onDuty?_put hk hs]
    rfl

theorem lane_release (h : c.Sound t id) : c.release.lane = c.lane.release := by
  rw [Crew.release]
  split
  next hnone =>
    have hcurrent : c.lane.current = none := by rw [lane, hnone]; rfl
    rw [Lane.release, hcurrent]
  next k s hduty =>
    obtain ⟨hdrain, pre, hsplit, hput⟩ := h.exists_split_onDuty hduty
    have hcurrent : c.lane.current = some s.worker := by rw [lane, hduty]; rfl
    rw [Lane.release, hcurrent]
    refine Lane.ext ?_ ?_ rfl rfl
    · simp [lane, hput, hsplit, Stint.isGone, hdrain]
    · simp [lane, hput, hsplit, Stint.isLeaving, hdrain]

theorem lane_hire (c : Crew) (netns : String) :
    (c.hire netns).lane = { c.lane with current := some (c.lane.current.getD { netns }) } := by
  rw [Crew.hire]
  split
  next duty hduty => exact Lane.ext rfl rfl (by simp [lane, hduty]) rfl
  next hduty =>
    have hcurrent : c.lane.current = none := by rw [lane, hduty]; rfl
    rw [hcurrent]
    refine Lane.ext ?_ ?_ ?_ rfl
    · simp [lane, Stint.isGone]
    · simp [lane, Stint.isLeaving]
    · simp [lane, onDuty?]

theorem isToReplace_eq (h : c.Sound t id) (netns : String) :
    c.isToReplace netns = c.lane.isElsewhere netns := by
  cases hduty : c.onDuty? with
  | none => simp [isToReplace, Lane.isElsewhere, lane, hduty]
  | some duty => simp [isToReplace, Lane.isElsewhere, lane, hduty, h.isOver_of_onDuty hduty]

theorem lane_ensure (h : c.Sound t id) (netns : String) :
    (c.ensure netns).lane = c.lane.ensure netns := by
  rw [Crew.ensure, lane_hire, h.isToReplace_eq, Lane.ensure]
  split
  · rw [h.lane_release]
  · rfl

theorem lane_offer (h : c.Sound t id) (config : NetworkConfig) :
    c.lane.offer t id config = ((c.offer t id config).1.lane, (c.offer t id config).2) := by
  rw [Crew.offer]
  split
  next hnone =>
    have hcurrent : c.lane.current = none := by rw [lane, hnone]; rfl
    rw [Lane.offer, hcurrent]
  next k s hduty =>
    have hcurrent : c.lane.current = some s.worker := by rw [lane, hduty]; rfl
    rw [Lane.offer, hcurrent, if_neg (by simp [h.isOver_of_onDuty hduty])]
    dsimp only
    split
    · rw [h.lane_put_onDuty hduty]
    · exact Prod.ext (Lane.ext rfl rfl hcurrent.symm rfl) rfl

/-- A call is the same for a crew and its lane. -/
theorem lane_call {call : Call} {seen : List Happening} (h : c.Sound t id)
    (hstep : c.step t id (.call call) = some (c', seen)) :
    c.lane.call t id call = (c'.lane, seen) := by
  cases call with
  | configure netns config =>
    obtain ⟨hjoining, hstep⟩ := Option.ite_none_right_eq_some.mp hstep
    have hjoining : c.joining = none := by simpa using hjoining
    have hsound : (c.tidy.ensure netns).Sound t id :=
      h.tidy.shifts (shifts_ensure (c := c.tidy) hjoining netns)
    have hlane : (c.tidy.ensure netns).lane = c.lane.ensure netns := h.tidy.lane_ensure netns
    have hnote : c.tidy.noteReplaced id netns = c.lane.noteReplaced id netns := by
      rw [noteReplaced, h.tidy.isToReplace_eq]
      rfl
    cases hstep
    rw [Lane.call, ← hlane, hsound.lane_offer, ← hnote]
    rfl
  | release =>
    obtain ⟨-, hstep⟩ := Option.ite_none_right_eq_some.mp hstep
    cases hstep
    rw [Lane.call, h.lane_release]

/-! ## Tasks -/

theorem gone_of_lt (h : c.Sound t id) (hs : c.stints[k]? = some s)
    (hmay : s.HasBegun ∨ c.mayBegin s = true) (j : Nat) (p : Stint) (hj : j < k)
    (hp : c.stints[j]? = some p) : p.isGone = true :=
  Stint.isGone_of_finished (h.finished_of_lt hs hmay hj hp)

/-- Nobody is seen in the lane before a worker whose predecessors are gone. -/
theorem exists_split_of_gone (hs : c.stints[k]? = some s)
    (hbefore : ∀ j p, j < k → c.stints[j]? = some p → p.isGone = true) :
    ∃ pre post, pre.length = k ∧ c.stints = pre ++ s :: post ∧
      (∀ s', (c.put k s').stints = pre ++ s' :: post) ∧ pre.filter (·.isLeaving) = [] := by
  obtain ⟨pre, post, hlength, hsplit, hput⟩ := exists_split hs
  refine ⟨pre, post, hlength, hsplit, hput, List.filter_eq_nil_iff.mpr fun p hp ↦ ?_⟩
  obtain ⟨j, hlt, rfl⟩ := List.getElem_of_mem hp
  have hget : c.stints[j]? = some pre[j] := by
    rw [hsplit, List.getElem?_append_left hlt, List.getElem?_eq_getElem hlt]
  simp [Stint.not_leaving_of_gone (hbefore j _ (hlength ▸ hlt) hget)]

theorem first (h : c.Sound t id) (hs : c.stints[k]? = some s)
    (hbefore : ∀ j p, j < k → c.stints[j]? = some p → p.isGone = true)
    (hgone : s.isGone = false) :
    c.lane.first? = some (s.worker, s.drain.isSome) ∧
      ∀ w, (c.put k { s with worker := w }).lane = c.lane.setFirst w := by
  obtain ⟨pre, post, hlength, hsplit, hput, hpre⟩ := exists_split_of_gone hs hbefore
  -- a worker on duty is the current one of the lane; one that was let go is the first that leaves
  rcases Option.eq_none_or_eq_some s.drain with hdrain | ⟨d, hdrain⟩
  · have hk := (h.onDuty_iff hs).mp hdrain
    have hduty := onDuty?_eq_some_iff.mpr ⟨hk, hs⟩
    have hcurrent : c.lane.current = some s.worker := by rw [lane, hduty]; rfl
    have hleaving : c.lane.leaving = [] := by
      have hlast := (h.onDuty hk).1
      rw [hsplit, List.length_append, List.length_cons, hlength] at hlast
      obtain rfl : post = [] := List.length_eq_zero_iff.mp (by omega)
      have hnot : s.isLeaving = false := by simp [Stint.isLeaving, hdrain]
      simp [lane, hsplit, hpre, hnot]
    refine ⟨?_, fun w ↦ ?_⟩
    · rw [Lane.first?, hleaving, hcurrent, hdrain]
      rfl
    · rw [h.lane_put_onDuty hduty, Lane.setFirst, hleaving]
      exact Lane.ext rfl hleaving rfl rfl
  · have hyes : s.isLeaving = true := by
      cases d with
      | waiting => simp [Stint.isLeaving, hdrain]
      | reported | finished =>
        rw [Stint.isGone, hdrain] at hgone
        cases hgone
    have hleaving : c.lane.leaving = s.worker :: (post.filter (·.isLeaving)).map (·.worker) := by
      simp [lane, hsplit, hpre, hyes]
    have hk : c.onDuty ≠ some k := by
      rw [Ne, ← h.onDuty_iff hs, hdrain]
      exact Option.some_ne_none _
    refine ⟨?_, fun w ↦ ?_⟩
    · rw [Lane.first?, hleaving, hdrain]
      rfl
    · have hstill : ({ s with worker := w } : Stint).isLeaving = true := hyes
      have hnot : ({ s with worker := w } : Stint).isGone = s.isGone := rfl
      rw [Lane.setFirst, hleaving]
      refine Lane.ext ?_ ?_ ?_ rfl
      · simp only [lane, hput, hsplit, List.countP_append, List.countP_cons, hnot]
      · simp [lane, hput, hpre, hstill]
      · rw [lane, onDuty?_put_of_ne hk]
        rfl

/-- A worker is reported as released: it is the first of the lane, and leaves it. -/
theorem lane_reported (h : c.Sound t id) (hs : c.stints[k]? = some s)
    (hdrain : s.drain = some .waiting) (hover : s.isOver = true) :
    c.lane.first? = some (s.worker, true) ∧
      (c.put k { s with drain := some .reported }).lane = c.lane.dropFirst := by
  have hbefore := h.gone_of_lt hs (.inl (.inr hover))
  have hfirst := (h.first hs hbefore (by simp [Stint.isGone, hdrain])).1
  obtain ⟨pre, post, -, hsplit, hput, hpre⟩ := exists_split_of_gone hs hbefore
  have hk : c.onDuty ≠ some k := by
    rw [Ne, ← h.onDuty_iff hs, hdrain]
    exact Option.some_ne_none _
  refine ⟨by rwa [hdrain] at hfirst, Lane.ext ?_ ?_ ?_ rfl⟩
  · simp [lane, hput, hsplit, Lane.dropFirst, Stint.isGone, hdrain]
    omega
  · have hleaving : s.isLeaving = true := by simp [Stint.isLeaving, hdrain]
    have hleft : ({ s with drain := some .reported } : Stint).isLeaving = false := rfl
    simp [lane, hput, hsplit, hpre, Lane.dropFirst, hleaving, hleft]
  · rw [lane, onDuty?_put_of_ne hk]
    rfl

end Sound

end Crew

/-! ## Moves -/

/-- The configuration that comes with a move. -/
@[simp] def Lane.Move.config? : Lane.Move → Option NetworkConfig
  | .call what => what.config?
  | _ => none

theorem Lane.step_of_goes {l : Lane} {w w' : Worker} {isSealed : Bool} {m : Lane.Move}
    {e : Happening} (hfirst : l.first? = some (w, isSealed))
    (hgoes : w.Goes t id isSealed m w' e) :
    l.step t id m = some (l.setFirst w', [e]) ∧ ∀ what, m ≠ .call what := by
  have hstep : l.stepFirst t id m w isSealed = some (l.setFirst w', [e]) :=
    stepFirst_eq_some_iff.mpr (.inr ⟨w', e, hgoes, rfl, rfl⟩)
  cases hgoes <;> exact ⟨by simpa [Lane.step, hfirst] using hstep, fun _ ↦ nofun⟩

theorem Lane.step_of_over {l : Lane} {w : Worker} {isSealed : Bool}
    (hfirst : l.first? = some (w, isSealed)) (hturn : w.turn t id isSealed = .over) :
    l.step t id .advance = some (l.dropFirst, [.reported (.released id)]) := by
  have hstep : l.stepFirst t id .advance w isSealed =
      some (l.dropFirst, [.reported (.released id)]) :=
    stepFirst_eq_some_iff.mpr (.inl ⟨hturn, rfl, rfl, rfl⟩)
  simpa [Lane.step, hfirst] using hstep

namespace Crew

variable {c c' : Crew} {seen : List Happening}

/-- The move of the lane that a move of a task shows as. -/
def Move.lane? : Move → Option Lane.Move
  | .work _ m => some m
  | .drain _ => some .advance
  | .deliver i => some (.deliver i)
  | .call _ | .tidy | .shutDown | .join => none

/-- A task goes on, and its lane with it, or nothing is seen of it. -/
theorem Sound.task_lane {m : Move} (h : c.Sound t id) (htask : m.isOfTask = true)
    (hstep : c.step t id m = some (c', seen)) :
    (c'.lane = c.lane ∧ seen = []) ∨
      ∃ m', m.lane? = some m' ∧ (∀ what, m' ≠ .call what) ∧
        c.lane.step t id m' = some (c'.lane, seen) := by
  cases m with
  | call | tidy | shutDown | join => cases htask
  | work k m =>
    obtain ⟨s, s', hs, hgo, rfl⟩ := move_eq_some_iff.mp hstep
    obtain ⟨hmay, hgo⟩ := Option.ite_none_right_eq_some.mp hgo
    obtain ⟨hover, ⟨hturn, -, rfl, rfl⟩ | ⟨w, e, hgoes, rfl, rfl⟩⟩ := Stint.step_eq_some_iff.mp hgo
    · exact .inl ⟨lane_put hs rfl rfl rfl, rfl⟩
    · have hbefore := h.gone_of_lt hs (.inr hmay)
      obtain ⟨hfirst, hput⟩ := h.first hs hbefore ((h.stint hs).not_gone hover)
      obtain ⟨hlane, hcall⟩ := Lane.step_of_goes hfirst hgoes
      exact .inr ⟨m, rfl, hcall, by rw [hlane, hput]⟩
  | drain k =>
    obtain ⟨s, s', hs, hgo, rfl⟩ := move_eq_some_iff.mp hstep
    rw [Stint.stepDrain] at hgo
    split at hgo
    next hdrain =>
      obtain ⟨hover, hgo⟩ := Option.ite_none_right_eq_some.mp hgo
      cases hgo
      obtain ⟨hfirst, hput⟩ := h.lane_reported hs hdrain hover
      refine .inr ⟨.advance, rfl, fun _ ↦ Lane.Move.noConfusion, ?_⟩
      rw [Lane.step_of_over hfirst ((h.stint hs).turn_of_over hover), hput]
    next hdrain =>
      cases hgo
      refine .inl ⟨lane_put hs rfl ?_ ?_, rfl⟩
      · simp [Stint.isGone, hdrain]
      · simp [Stint.isLeaving, hdrain]
    next => cases hgo
  | deliver i =>
    obtain ⟨r, hr, hstep⟩ := Option.map_eq_some_iff.mp hstep
    cases hstep
    refine .inr ⟨.deliver i, rfl, fun _ ↦ Lane.Move.noConfusion, ?_⟩
    exact Option.map_eq_some_iff.mpr ⟨r, hr, rfl⟩

theorem config?_of_not_call {m : Lane.Move} (hcall : ∀ what, m ≠ .call what) :
    m.config? = none := by
  cases m with
  | call what => exact absurd rfl (hcall what)
  | advance | opened | answered | deliver => rfl

/-- **One move of a crew** is a move of its lane, or nothing is seen of it. -/
theorem Sound.step_lane {m : Move} (h : c.Sound t id) (hstep : c.step t id m = some (c', seen)) :
    (c'.lane = c.lane ∧ seen = [] ∧ m.config? = none) ∨
      ∃ m', c.lane.step t id m' = some (c'.lane, seen) ∧ m'.config? = m.config? := by
  have hwork (htask : m.isOfTask = true) : (c'.lane = c.lane ∧ seen = [] ∧ m.config? = none) ∨
      ∃ m', c.lane.step t id m' = some (c'.lane, seen) ∧ m'.config? = m.config? := by
    have hnone := config?_of_task htask
    rcases h.task_lane htask hstep with ⟨hsame, hseen⟩ | ⟨m', -, hcall, hmove⟩
    · exact .inl ⟨hsame, hseen, hnone⟩
    · exact .inr ⟨m', hmove, (config?_of_not_call hcall).trans hnone.symm⟩
  cases m with
  | call what => exact .inr ⟨.call what, congrArg some (h.lane_call hstep), rfl⟩
  | tidy =>
    cases hstep
    exact .inl ⟨rfl, rfl, rfl⟩
  | shutDown =>
    obtain ⟨-, hstep⟩ := Option.ite_none_right_eq_some.mp hstep
    cases hstep
    exact .inr ⟨.call .release, congrArg (fun l ↦ some (l, [])) h.lane_release.symm, rfl⟩
  | join =>
    obtain ⟨-, hstep⟩ := Option.ite_none_right_eq_some.mp hstep
    cases hstep
    exact .inl ⟨rfl, rfl, rfl⟩
  | work | drain | deliver => exact hwork rfl

/-- **What is seen of a crew is what is seen of a lane**, with the same configurations. -/
theorem Sound.moves_lane {moves : List Move} (h : c.Sound t id)
    (hmoves : moveAll (fun c m ↦ Crew.step c t id m) moves c = some (c', seen)) :
    c'.Sound t id ∧ ∃ moves', moveAll (fun l m ↦ Lane.step l t id m) moves' c.lane =
      some (c'.lane, seen) ∧ moves'.filterMap (·.config?) = moves.filterMap (·.config?) := by
  -- on the moves of the crew; those that are nothing to the lane are left out
  induction moves generalizing c seen with
  | nil =>
    cases hmoves
    exact ⟨h, [], rfl, rfl⟩
  | cons m moves ih =>
    obtain ⟨c₁, first, rest, hfirst, hrest, rfl⟩ := moveAll_cons_eq_some_iff.mp hmoves
    obtain ⟨hsound, moves', hlane, hconfigs⟩ := ih (h.shifts (shifts_of_step hfirst)) hrest
    refine ⟨hsound, ?_⟩
    rcases h.step_lane hfirst with ⟨hsame, rfl, hnone⟩ | ⟨m', hstep, hconfig⟩
    · refine ⟨moves', by rw [← hsame]; exact hlane, ?_⟩
      rw [List.filterMap_cons_none hnone, hconfigs]
    · refine ⟨m' :: moves', ?_, ?_⟩
      · exact moveAll_cons_eq_some_iff.mpr ⟨_, first, rest, hstep, hlane, rfl⟩
      · rw [List.filterMap_cons, List.filterMap_cons, hconfig, hconfigs]

/-! ## Moves of a lane -/

theorem exists_first_of_step {l l' : Lane} {m : Lane.Move} (hstep : l.step t id m = some (l', seen))
    (hcall : ∀ what, m ≠ .call what) (hdeliver : ∀ i, m ≠ .deliver i) :
    ∃ w isSealed, l.first? = some (w, isSealed) ∧
      l.stepFirst t id m w isSealed = some (l', seen) := by
  unfold Lane.step at hstep
  split at hstep
  · exact absurd rfl (hcall _)
  · exact absurd rfl (hdeliver _)
  · split at hstep
    next w isSealed hfirst => exact ⟨w, isSealed, hfirst, hstep⟩
    next => exact absurd hstep nofun

namespace Sound

variable {k : Nat} {s : Stint}

theorem exists_first (h : c.Sound t id) {w : Worker} {isSealed : Bool}
    (hfirst : c.lane.first? = some (w, isSealed)) :
    ∃ (k : Nat) (s : Stint), c.stints[k]? = some s ∧
      (∀ j p, j < k → c.stints[j]? = some p → p.isGone = true) ∧ s.isGone = false ∧
      s.worker = w ∧ s.drain.isSome = isSealed := by
  cases hfind : c.stints.find? (!·.isGone) with
  | none =>
    -- if all are gone then nobody leaves and nobody is on duty, so the lane has no first worker
    have hall : ∀ s ∈ c.stints, s.isGone = true := by simpa using hfind
    have hleaving : c.lane.leaving = [] := by
      simpa [lane] using fun s hs ↦ Stint.not_leaving_of_gone (hall s hs)
    have hcurrent : c.lane.current = none := by
      cases hduty : c.onDuty? with
      | none => rw [lane, hduty]; rfl
      | some duty =>
        have hs := (onDuty?_eq_some_iff.mp hduty).2
        have hgone := hall duty.2 (List.mem_of_getElem? hs)
        simp [Stint.isGone, (h.exists_split_onDuty hduty).1] at hgone
    rw [Lane.first?, hleaving, hcurrent] at hfirst
    cases hfirst
  | some s =>
    obtain ⟨hgone, before, after, hsplit, hbefore⟩ := List.find?_eq_some_iff_append.mp hfind
    have hgone : s.isGone = false := by simpa using hgone
    have hs : c.stints[before.length]? = some s := by simp [hsplit]
    have hpre : ∀ j p, j < before.length → c.stints[j]? = some p → p.isGone = true := by
      intro j p hj hp
      rw [hsplit, List.getElem?_append_left hj] at hp
      simpa using hbefore p (List.mem_of_getElem? hp)
    have hsame := (h.first hs hpre hgone).1.symm.trans hfirst
    obtain ⟨hworker, hsealed⟩ := Prod.mk.inj (Option.some.inj hsame)
    exact ⟨before.length, s, hs, hpre, hgone, hworker, hsealed⟩

/-- If all before a worker are gone, the worker may begin when the drain before it has ended. -/
theorem exists_mayBegin (h : c.Sound t id) (hs : c.stints[k]? = some s)
    (hbefore : ∀ j p, j < k → c.stints[j]? = some p → p.isGone = true) :
    ∃ moves c₁, moveAll (fun c m ↦ Crew.step c t id m) moves c = some (c₁, []) ∧
      c₁.lane = c.lane ∧ c₁.joining = c.joining ∧ c₁.stints[k]? = some s ∧
      c₁.mayBegin s = true ∧ ∀ m ∈ moves, m.isOfTask = true := by
  cases hafter : s.after with
  | none => exact ⟨[], c, rfl, rfl, rfl, hs, by simp [mayBegin, hafter], by simp⟩
  | some j =>
    have hjk := h.waits hs hafter
    have hlt := (List.getElem?_eq_some_iff.mp hs).1
    obtain ⟨p, hp⟩ : ∃ p, c.stints[j]? = some p := ⟨_, List.getElem?_eq_getElem (by omega)⟩
    rcases Bool.or_eq_true_iff.mp (hbefore j p (by omega) hp) with hdrain | hdrain
    · have hdrain := of_decide_eq_true hdrain
      let p' : Stint := { p with drain := some .finished }
      have hget : (c.put j p').stints[j]? = some p' := by
        simp [Crew.put, (List.getElem?_eq_some_iff.mp hp).1]
      refine ⟨[.drain j], c.put j p', moveAll_single ?_, lane_put hp rfl ?_ ?_, rfl, ?_, ?_,
        List.forall_mem_singleton.mpr rfl⟩
      · exact move_eq_some_iff.mpr ⟨p, p', hp, by rw [Stint.stepDrain, hdrain], rfl⟩
      · simp [p', Stint.isGone, hdrain]
      · simp [p', Stint.isLeaving, hdrain]
      · rwa [Crew.put, List.getElem?_set_ne (by omega)]
      · rw [mayBegin, hafter]
        exact isFinished_iff.mpr ⟨p', hget, rfl⟩
    · refine ⟨[], c, rfl, rfl, rfl, hs, ?_, by simp⟩
      rw [mayBegin, hafter]
      exact isFinished_iff.mpr ⟨p, hp, of_decide_eq_true hdrain⟩

theorem exists_call (h : c.Sound t id) (hjoining : c.joining = none) (what : Call) :
    ∃ c', c.step t id (.call what) = some (c', (c.lane.call t id what).2) ∧
      c'.lane = (c.lane.call t id what).1 ∧ c'.joining = none := by
  obtain ⟨c', seen, hstep, hjoining'⟩ : ∃ c' seen,
      c.step t id (.call what) = some (c', seen) ∧ c'.joining = none := by
    cases what with
    | configure netns config =>
      exact ⟨(c.configure t id netns config).1, (c.configure t id netns config).2,
        if_pos (by simp [hjoining]), (joining_configure t id c netns config).trans hjoining⟩
    | release => exact ⟨_, _, if_pos (by simp [hjoining]), by rw [joining_release, hjoining]⟩
  have hlane := h.lane_call hstep
  exact ⟨c', by rw [hlane]; exact hstep, by rw [hlane], hjoining'⟩

theorem exists_work {m : Lane.Move} {w : Worker} {e : Happening} (h : c.Sound t id)
    (hs : c.stints[k]? = some s) (hmay : c.mayBegin s = true) (hgone : s.isGone = false)
    (hgoes : s.worker.Goes t id s.drain.isSome m w e) :
    ∃ c', c.step t id (.work k m) = some (c', [e]) ∧ c'.lane = c.lane.setFirst w ∧
      c'.joining = c.joining := by
  have hover : s.isOver = false := by
    by_contra hover
    have hover : s.isOver = true := by simpa using hover
    have hturn := hgoes.of_turn
    rw [(h.stint hs).sealed_of_over hover, (h.stint hs).turn_of_over hover] at hturn
    exact hturn
  have hstep : s.step t id m = some ({ s with worker := w }, [e]) :=
    Stint.step_eq_some_iff.mpr ⟨hover, .inr ⟨w, e, hgoes, rfl, rfl⟩⟩
  refine ⟨c.put k { s with worker := w }, ?_, ?_, rfl⟩
  · exact move_eq_some_iff.mpr ⟨s, _, hs, by rw [if_pos hmay, hstep], rfl⟩
  · exact (h.first hs (h.gone_of_lt hs (.inr hmay)) hgone).2 w

theorem exists_end (hs : c.stints[k]? = some s) (hmay : c.mayBegin s = true)
    (hturn : s.worker.turn t id s.drain.isSome = .over) :
    ∃ moves c', moveAll (fun c m ↦ Crew.step c t id m) moves c = some (c', []) ∧
      c'.lane = c.lane ∧ c'.joining = c.joining ∧
      c'.stints[k]? = some { s with isOver := true } ∧ ∀ m ∈ moves, m.isOfTask = true := by
  cases hover : s.isOver with
  | true => exact ⟨[], c, rfl, rfl, rfl, by rw [hs, ← hover], by simp⟩
  | false =>
    have hstep : s.step t id .advance = some ({ s with isOver := true }, []) :=
      Stint.step_eq_some_iff.mpr ⟨hover, .inl ⟨hturn, rfl, rfl, rfl⟩⟩
    refine ⟨[.work k .advance], c.put k { s with isOver := true }, moveAll_single ?_,
      lane_put hs rfl rfl rfl, rfl, ?_, List.forall_mem_singleton.mpr rfl⟩
    · exact move_eq_some_iff.mpr ⟨s, _, hs, by rw [if_pos hmay, hstep], rfl⟩
    · simp [Crew.put, (List.getElem?_eq_some_iff.mp hs).1]

theorem exists_report (h : c.Sound t id) (hs : c.stints[k]? = some s) (hover : s.isOver = true)
    (hgone : s.isGone = false) :
    ∃ c', c.step t id (.drain k) = some (c', [.reported (.released id)]) ∧
      c'.lane = c.lane.dropFirst ∧ c'.joining = c.joining := by
  have hdrain : s.drain = some .waiting := by
    have hsealed := (h.stint hs).sealed_of_over hover
    obtain ⟨d, hd⟩ := Option.isSome_iff_exists.mp hsealed
    cases d with
    | waiting => exact hd
    | reported | finished => simp [Stint.isGone, hd] at hgone
  refine ⟨c.put k { s with drain := some .reported }, ?_, (h.lane_reported hs hdrain hover).2, rfl⟩
  refine move_eq_some_iff.mpr ⟨s, _, hs, ?_, rfl⟩
  rw [Stint.stepDrain, hdrain]
  exact if_pos hover

/-- A move of the lane that is no call is one of a task, after a few of which nothing is seen. -/
theorem exists_tasks {l : Lane} {m : Lane.Move} (h : c.Sound t id)
    (hcall : ∀ what, m ≠ .call what) (hstep : c.lane.step t id m = some (l, seen)) :
    ∃ moves c₁ m' c', (∀ m ∈ moves, m.isOfTask = true) ∧
      moveAll (fun c m ↦ Crew.step c t id m) moves c = some (c₁, []) ∧ m'.isOfTask = true ∧
      m'.lane? = some m ∧ c₁.step t id m' = some (c', seen) ∧ c'.lane = l ∧
      c'.joining = c.joining := by
  by_cases hdeliver : ∃ i, m = .deliver i
  · obtain ⟨i, rfl⟩ := hdeliver
    obtain ⟨r, hr, hstep⟩ := Option.map_eq_some_iff.mp hstep
    cases hstep
    refine ⟨[], c, .deliver i, { c with undelivered := c.undelivered.eraseIdx i }, by simp, rfl,
      rfl, rfl, ?_, rfl, rfl⟩
    exact Option.map_eq_some_iff.mpr ⟨r, hr, rfl⟩
  obtain ⟨w, isSealed, hfirst, hstep⟩ :=
    exists_first_of_step hstep hcall fun i h ↦ hdeliver ⟨i, h⟩
  obtain ⟨k, s, hs, hbefore, hgone, rfl, rfl⟩ := h.exists_first hfirst
  obtain ⟨moves, c₁, hmoves, hlane, hjoining₁, hs₁, hmay, htasks⟩ := h.exists_mayBegin hs hbefore
  have h₁ := (h.moves_lane hmoves).1
  rw [← hlane] at hfirst hstep
  -- the lane reports a worker as soon as it is over; in the crew its task ends before its drain
  rcases Lane.stepFirst_eq_some_iff.mp hstep with ⟨hturn, rfl, rfl, rfl⟩ | ⟨w, e, hgoes, rfl, rfl⟩
  · obtain ⟨more, c₂, hmore, hlane₂, hjoining₂, hs₂, htasks₂⟩ := exists_end hs₁ hmay hturn
    have h₂ := (h₁.moves_lane hmore).1
    obtain ⟨c', hreport, hlane', hjoining'⟩ := h₂.exists_report hs₂ rfl hgone
    refine ⟨moves ++ more, c₂, .drain k, c', ?_, moveAll_append hmoves hmore, rfl, rfl, hreport,
      ?_, ?_⟩
    · exact List.forall_mem_append.mpr ⟨htasks, htasks₂⟩
    · rw [hlane', hlane₂]
    · rw [hjoining', hjoining₂, hjoining₁]
  · obtain ⟨c', hwork, hlane', hjoining'⟩ := h₁.exists_work hs₁ hmay hgone hgoes
    exact ⟨moves, c₁, .work k m, c', htasks, hmoves, rfl, rfl, hwork, hlane',
      hjoining'.trans hjoining₁⟩

/-- **One move of the lane** is a few moves of the crew. -/
theorem exists_moves {l : Lane} {m : Lane.Move} (h : c.Sound t id) (hjoining : c.joining = none)
    (hstep : c.lane.step t id m = some (l, seen)) :
    ∃ moves c', moveAll (fun c m ↦ Crew.step c t id m) moves c = some (c', seen) ∧ c'.lane = l ∧
      c'.joining = none ∧ moves.filterMap (·.config?) = m.config?.toList := by
  by_cases hcall : ∃ what, m = .call what
  · obtain ⟨what, rfl⟩ := hcall
    obtain ⟨c', hmove, hlane, hjoining'⟩ := h.exists_call hjoining what
    rw [Option.some.inj hstep] at hmove hlane
    exact ⟨[.call what], c', moveAll_single hmove, hlane, hjoining', by cases what <;> rfl⟩
  · have hcall (what : Call) : m ≠ .call what := fun h ↦ hcall ⟨what, h⟩
    obtain ⟨moves, c₁, m', c', htasks, hmoves, htask, -, hmove, hlane, hjoining'⟩ :=
      h.exists_tasks hcall hstep
    refine ⟨moves ++ [m'], c', moveAll_append hmoves (moveAll_single hmove), hlane,
      hjoining'.trans hjoining, ?_⟩
    rw [config?_of_not_call hcall, List.filterMap_append,
      List.filterMap_cons_none (config?_of_task htask), List.filterMap_nil, List.append_nil]
    exact List.filterMap_eq_nil_iff.mpr fun m hm ↦ config?_of_task (htasks m hm)

/-- What is seen of a lane can be seen of the crew. -/
theorem exists_moves_of_lane {moves : List Lane.Move} {l : Lane} (h : c.Sound t id)
    (hjoining : c.joining = none)
    (hmoves : moveAll (fun l m ↦ Lane.step l t id m) moves c.lane = some (l, seen)) :
    ∃ moves' c', moveAll (fun c m ↦ Crew.step c t id m) moves' c = some (c', seen) ∧ c'.lane = l ∧
      moves'.filterMap (·.config?) = moves.filterMap (·.config?) := by
  induction moves generalizing c seen with
  | nil =>
    cases hmoves
    exact ⟨[], c, rfl, rfl, rfl⟩
  | cons m moves ih =>
    obtain ⟨l₁, first, rest, hfirst, hrest, rfl⟩ := moveAll_cons_eq_some_iff.mp hmoves
    obtain ⟨moves₁, c₁, hmoves₁, rfl, hjoining₁, hconfigs₁⟩ := h.exists_moves hjoining hfirst
    obtain ⟨moves₂, c₂, hmoves₂, hlane₂, hconfigs₂⟩ := ih (h.moves_lane hmoves₁).1 hjoining₁ hrest
    refine ⟨moves₁ ++ moves₂, c₂, moveAll_append hmoves₁ hmoves₂, hlane₂, ?_⟩
    rw [List.filterMap_append, hconfigs₁, hconfigs₂, List.filterMap_cons]
    cases m.config? <;> rfl

end Sound

/-- **Crews and lanes show the same.** What can be seen of a crew, and the lane that it leads to, is
what can be seen of a lane, with the same configurations coming in. -/
theorem exists_moves_iff {called : List NetworkConfig} {l : Lane} :
    (∃ moves c, moveAll (fun c m ↦ Crew.step c t id m) moves {} = some (c, seen) ∧ c.lane = l ∧
        moves.filterMap (·.config?) = called) ↔
      ∃ moves, moveAll (fun l m ↦ Lane.step l t id m) moves {} = some (l, seen) ∧
        moves.filterMap (·.config?) = called := by
  constructor
  · rintro ⟨moves, c, hmoves, rfl, rfl⟩
    exact (Sound.empty.moves_lane hmoves).2
  · rintro ⟨moves, hmoves, rfl⟩
    exact Sound.empty.exists_moves_of_lane rfl hmoves

end Crew

end ContainerNet.Sidecar
