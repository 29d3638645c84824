import ContainerNet.Proofs.Sidecar.Labels

/-!
# How long a namespace counts as missing

A worker that could not open its namespace declines every configuration that it is given, and it
stays on duty for as long as configurations for that namespace come. So whether a configuration is
declined may have been decided before it came. `Staff.Run.refused_anew_iff` determines when: an open
that failed stands behind the report of a configuration, after the call, exactly if no such worker
was on duty at the call.

## Following one configuration

The configurations of a container are reported in the order in which they were accepted. So the
report of one of them is known by the number of those that are ahead of it (`Crew.Awaits`), and it
comes from the worker that accepted it (`Crew.Shifts.exists_answer`). What that worker reports is
decided by whether it has its namespace. A worker that has not begun still has to open it, and this
is seen; one that refuses has done so, and no worker opens anything while it has something to
report.
-/

namespace ContainerNet.Sidecar

variable {t : Terms} {id : ContainerId}

/-! ## Workers without a namespace -/

/-- Whether the worker could not open its namespace. -/
def Worker.isRefusing (w : Worker) : Bool :=
  match w.stage with
  | .refused _ _ => true
  | _ => false

/-- Whether a namespace was opened, or could not be. -/
def Happening.isOpened : Happening → Bool
  | .opened _ _ => true
  | _ => false

/-- The reports of workers on configurations. -/
def jobReports (seen : List Happening) : List Report := reports (jobs seen)

theorem jobReports_append (seen more : List Happening) :
    jobReports (seen ++ more) = jobReports seen ++ jobReports more := by
  rw [jobReports, jobs_append, reports_append]
  rfl

namespace Worker.Advance

variable {isSealed : Bool} {w w' : Worker} {e : Happening} {r : Report}

theorem netns_eq (h : w.Advance t id isSealed w' e) : w'.netns = w.netns := by
  cases h <;> rfl

theorem of_isRefusing (h : w.Advance t id isSealed w' e) (hw : w.isRefusing = true) :
    w'.isRefusing = true ∧ e.isOpened = false := by
  rw [isRefusing] at hw
  cases h with
  | takeRefused | refuse => exact ⟨rfl, rfl⟩
  | opening hstage | opened hstage | notOpened _ hstage | take hstage | ask _ hstage
  | report hstage | close _ hstage | closing _ hstage =>
    rw [hstage] at hw
    exact absurd hw nofun

/-- A worker begins to refuse when it is seen that its namespace could not be opened. -/
theorem opened_of_isRefusing (h : w.Advance t id isSealed w' e) (hw : w.isRefusing = false)
    (hw' : w'.isRefusing = true) : ∃ why, e = .opened w.netns (.error why) := by
  rw [isRefusing] at hw
  cases h with
  | notOpened why => exact ⟨why, rfl⟩
  | takeRefused hstage | refuse hstage =>
    rw [hstage] at hw
    exact absurd hw nofun
  | _ => exact absurd hw' nofun

theorem jobReports_eq (h : w.Advance t id isSealed w' (.reported r)) :
    jobReports [.reported r] = [r] := by
  have hworker : r.isTurnedAway = false := by
    simpa [Happening.isOfWorker] using h.isOfWorker
  rcases h.pending with ⟨hnone, -⟩ | ⟨config, r', heq, hanswer, -⟩
  · cases hnone
  · cases heq
    have hjob : (Happening.reported r).isOfJob = true := by
      simp [Happening.isOfJob, hworker, hanswer.isReleased_eq]
    rw [jobReports, jobs, List.filter_cons_of_pos hjob]
    rfl

theorem isRefusal_eq (h : w.Advance t id isSealed w' (.reported r)) :
    r.isRefusal = w.isRefusing := by
  rw [isRefusing]
  cases h with
  | refuse hstage => rw [hstage]; rfl
  | @report config outcome c hstage => rw [hstage]; cases outcome <;> rfl

end Worker.Advance

namespace Crew

variable {c c' : Crew} {j k n : Nat} {u v : Stint} {config : NetworkConfig}

/-- Whether the worker on duty is in the namespace and could not open it. -/
def IsRefusing (netns : String) (c : Crew) : Prop :=
  ∃ k s, c.onDuty? = some (k, s) ∧ Path.same s.worker.netns netns = true ∧
    s.worker.isRefusing = true

/-! ## The configurations ahead -/

/-- What is pending with each worker, in the order of the workers. -/
def shares (c : Crew) : List (List NetworkConfig) := c.stints.map (·.worker.pending)

/-- A configuration is pending with a worker, behind `n` others. -/
def Awaits (config : NetworkConfig) (k n : Nat) (c : Crew) : Prop :=
  ∃ p q, c.shares[k]? = some (p ++ config :: q) ∧ (c.shares.take k).flatten.length + p.length = n

theorem shares_eq (hs : c.stints[k]? = some u) : c.shares[k]? = some u.worker.pending := by
  rw [shares, List.getElem?_map, hs, Option.map_some]

theorem shares_put : (c.put j v).shares = c.shares.set j v.worker.pending := List.map_set

/-- A worker changes, but not in what it has pending. -/
theorem shares_put_of_eq (hs : c.stints[j]? = some u)
    (hpending : v.worker.pending = u.worker.pending) : (c.put j v).shares = c.shares := by
  rw [shares_put, hpending]
  obtain ⟨hlt, hget⟩ := List.getElem?_eq_some_iff.mp (shares_eq hs)
  rw [← hget, List.set_getElem_self hlt]

theorem length_flatten_set {α : Type} {l : List (List α)} {a b : List α} (h : l[j]? = some a) :
    (l.set j b).flatten.length + a.length = l.flatten.length + b.length := by
  induction l generalizing j with
  | nil => exact absurd h nofun
  | cons x l ih =>
    cases j with
    | zero =>
      obtain rfl : x = a := Option.some.inj h
      simp only [List.set_cons_zero, List.flatten_cons, List.length_append]
      omega
    | succ j =>
      have hrest := ih (j := j) h
      simp only [List.set_cons_succ, List.flatten_cons, List.length_append]
      omega

namespace Awaits

theorem congr (h : c.Awaits config k n) (hshares : c'.shares = c.shares) :
    c'.Awaits config k n := by
  rwa [Awaits, hshares]

theorem exists_stint (h : c.Awaits config k n) :
    ∃ s, c.stints[k]? = some s ∧ config ∈ s.worker.pending := by
  obtain ⟨p, q, hk, -⟩ := h
  rw [shares, List.getElem?_map] at hk
  obtain ⟨s, hs, hpending⟩ := Option.map_eq_some_iff.mp hk
  exact ⟨s, hs, by simp [hpending]⟩

/-- Who has a configuration pending has not ended, so no worker after it has begun. -/
theorem le_of_begun (h : c.Awaits config k n) (hsound : c.Sound t id)
    (hs : c.stints[j]? = some u) (hmay : u.HasBegun ∨ c.mayBegin u = true) : j ≤ k := by
  by_contra hlt
  obtain ⟨s, hk, hmem⟩ := h.exists_stint
  have hfin := hsound.finished_of_lt hs hmay (Nat.lt_of_not_le hlt) hk
  have hsk := hsound.stint hk
  rw [hsk.pending_eq_nil (hsk.over_of_gone (Stint.isGone_of_finished hfin))] at hmem
  exact absurd hmem List.not_mem_nil

end Awaits

theorem Sound.flatten_take_shares (hsound : c.Sound t id) (hs : c.stints[j]? = some u)
    (hmay : c.mayBegin u = true) : (c.shares.take j).flatten = [] := by
  rw [List.flatten_eq_nil_iff]
  intro share hshare
  obtain ⟨i, hi, rfl⟩ := List.getElem_of_mem hshare
  rw [List.length_take] at hi
  have hlt : i < c.stints.length := by
    rw [shares, List.length_map] at hi
    exact Nat.lt_of_lt_of_le hi (Nat.min_le_right _ _)
  have hget : c.stints[i]? = some c.stints[i] := List.getElem?_eq_getElem hlt
  have hfin := hsound.finished_of_lt hs (.inr hmay) (Nat.lt_of_lt_of_le hi (Nat.min_le_left _ _))
    hget
  have hnil := (hsound.stint hget).pending_eq_nil
    ((hsound.stint hget).over_of_gone (Stint.isGone_of_finished hfin))
  simpa [shares] using hnil

namespace Awaits

/-- The first of what is pending is reported. It is the configuration if nothing is ahead of it, and
else there is one less ahead. -/
theorem pop {other : NetworkConfig} (h : c.Awaits config k n) (hsound : c.Sound t id)
    (hs : c.stints[j]? = some u) (hmay : c.mayBegin u = true)
    (hpending : u.worker.pending = other :: v.worker.pending) :
    (n = 0 ∧ j = k ∧ other = config) ∨ ∃ m, n = m + 1 ∧ (c.put j v).Awaits config k m := by
  obtain ⟨p, q, hk, hn⟩ := h
  have hle := le_of_begun ⟨p, q, hk, hn⟩ hsound hs (.inr hmay)
  have hnil := hsound.flatten_take_shares hs hmay
  have hj : c.shares[j]? = some (other :: v.worker.pending) := by rw [shares_eq hs, hpending]
  rcases Nat.lt_or_eq_of_le hle with hlt | rfl
  · -- an earlier worker reports, so the configurations with those before `k` get fewer
    have htake : (c.shares.take k)[j]? = some (other :: v.worker.pending) := by
      rw [List.getElem?_take_of_lt hlt, hj]
    have hlength := length_flatten_set (b := v.worker.pending) htake
    rw [List.length_cons] at hlength
    refine .inr ⟨n - 1, by omega, p, q, ?_, ?_⟩
    · rw [shares_put, List.getElem?_set_ne (Nat.ne_of_lt hlt), hk]
    · rw [shares_put, List.take_set]
      omega
  · rw [hnil, List.length_nil, Nat.zero_add] at hn
    rw [hk] at hj
    cases p with
    | nil => exact .inl ⟨hn.symm, rfl, (List.cons.inj (Option.some.inj hj)).1.symm⟩
    | cons y p =>
      obtain ⟨rfl, hrest⟩ := List.cons.inj (Option.some.inj hj)
      have hlt : j < c.shares.length := (List.getElem?_eq_some_iff.mp hk).1
      refine .inr ⟨p.length, hn.symm, p, q, ?_, ?_⟩
      · rw [shares_put, List.getElem?_set_self hlt]
        exact congrArg some hrest.symm
      · rw [shares_put, List.take_set_of_le (Nat.le_refl j), hnil]
        exact Nat.zero_add _

theorem accept (h : c.Awaits config k n) (hsound : c.Sound t id)
    (hduty : c.onDuty? = some (j, u)) (other : NetworkConfig) :
    (c.put j { u with worker := { u.worker with waiting := u.worker.waiting ++ [other] } }).Awaits
      config k n := by
  obtain ⟨hj, hs⟩ := onDuty?_eq_some_iff.mp hduty
  obtain ⟨p, q, hk, hn⟩ := h
  have hlt : k < c.shares.length := (List.getElem?_eq_some_iff.mp hk).1
  have hlast := (hsound.onDuty hj).1
  have hle : k ≤ j := by
    rw [shares, List.length_map] at hlt
    omega
  have htake (share : List NetworkConfig) : (c.shares.set j share).take k = c.shares.take k :=
    List.take_set_of_le hle
  have hpending (w : Worker) : ({ w with waiting := w.waiting ++ [other] } : Worker).pending =
      w.pending ++ [other] := (List.append_assoc ..).symm
  rw [Awaits, shares_put, htake]
  rcases Nat.lt_or_eq_of_le hle with hlt' | rfl
  · refine ⟨p, q, ?_, hn⟩
    rw [List.getElem?_set_ne (Nat.ne_of_gt hlt'), hk]
  · refine ⟨p, q ++ [other], ?_, hn⟩
    rw [shares_eq hs] at hk
    rw [List.getElem?_set_self hlt, hpending, Option.some.inj hk, List.append_assoc,
      List.cons_append]

end Awaits

/-! ## The report of a configuration -/

variable {seen more : List Happening} {called came : List NetworkConfig}

theorem shares_hire (hnobody : c.onDuty? = none) (netns : String) :
    (c.hire netns).shares = c.shares ++ [[]] := by
  rw [hire, hnobody, shares, List.map_append]
  rfl

theorem shares_release (c : Crew) : c.release.shares = c.shares := by
  rw [release]
  split
  · rfl
  next k s hduty =>
    exact shares_put_of_eq (v := { s with drain := some .waiting })
      (onDuty?_eq_some_iff.mp hduty).2 rfl

theorem Awaits.hire (h : c.Awaits config k n) (hnobody : c.onDuty? = none) (netns : String) :
    (c.hire netns).Awaits config k n := by
  obtain ⟨p, q, hk, hn⟩ := h
  have hlt : k < c.shares.length := (List.getElem?_eq_some_iff.mp hk).1
  rw [Awaits, shares_hire hnobody, List.take_append_of_le_length (Nat.le_of_lt hlt)]
  exact ⟨p, q, by rw [List.getElem?_append_left hlt, hk], hn⟩

/-- **What a shift does to a configuration that is pending.** Either no worker reports, or one less
is ahead of it, or its own worker reports on it. -/
theorem Awaits.shift {came : Option NetworkConfig} (h : c.Awaits config k n)
    (hsound : c.Sound t id) (hundelivered : ∀ r ∈ c.undelivered, r.isTurnedAway = true)
    (hshift : Shift t id c came more c') :
    (jobReports more = [] ∧ c'.Awaits config k n) ∨
      (∃ m, n = m + 1 ∧ (jobReports more).length = 1 ∧ c'.Awaits config k m) ∨
      ∃ s w r, n = 0 ∧ more = [.reported r] ∧ c.stints[k]? = some s ∧
        s.worker.Advance t id s.drain.isSome w (.reported r) ∧ r.Answers t id config := by
  cases hshift with
  | @goes j s m w e hs hmay hover hgoes =>
    have hadvance := hgoes.advance
    rcases hadvance.pending with ⟨hnone, hpending⟩ | ⟨other, r, rfl, hanswer, hpending⟩
    · refine .inl ⟨?_, h.congr (shares_put_of_eq hs hpending)⟩
      rw [jobReports, reports, List.filterMap_eq_nil_iff]
      intro e' he'
      rw [List.mem_singleton.mp (List.mem_filter.mp he').1, hnone]
    · rcases h.pop (v := { s with worker := w }) hsound hs hmay hpending with
        ⟨hn, rfl, rfl⟩ | ⟨m, hn, hawaits⟩
      · exact .inr (.inr ⟨s, w, r, hn, rfl, hs, hadvance, hanswer⟩)
      · refine .inr (.inl ⟨m, hn, ?_, hawaits⟩)
        rw [hadvance.jobReports_eq]
        rfl
  | ends hs | reports hs | finishes hs => exact .inl ⟨rfl, h.congr (shares_put_of_eq hs rfl)⟩
  | tidies | handsOver | joins => exact .inl ⟨rfl, h⟩
  | notes | turnsAway => exact .inl ⟨rfl, h⟩
  | letsGo => exact .inl ⟨rfl, h.congr (shares_release c)⟩
  | hires netns hnobody => exact .inl ⟨rfl, h.hire hnobody netns⟩
  | accepts other hduty => exact .inl ⟨rfl, h.accept hsound hduty other⟩
  | delivers hr =>
    refine .inl ⟨?_, h⟩
    have hturned := hundelivered _ (List.mem_of_getElem? hr)
    rw [jobReports, jobs, List.filter_cons_of_neg (by simp [Happening.isOfJob, hturned])]
    rfl

theorem Shifts.awaits (h₀ : Shifts t id {} called seen c) (h : Shifts t id c came more c')
    (hawaits : c.Awaits config k n) (hle : (jobReports more).length ≤ n) :
    c'.Awaits config k (n - (jobReports more).length) := by
  induction h with
  | refl => exact hawaits
  | @tail came seen' more other c₁ c₂ hshifts hshift ih =>
    rw [jobReports_append, List.length_append] at hle ⊢
    have hbefore := h₀.trans hshifts
    rcases (ih (by omega)).shift hbefore.sound hbefore.tells.turnedAway hshift with
      ⟨hnone, hnext⟩ | ⟨m, hm, hone, hnext⟩ | ⟨s, w, r, hzero, rfl, -, hadvance, hanswer⟩
    · rw [hnone, List.length_nil, Nat.add_zero]
      exact hnext
    · rw [hone]
      obtain rfl : m = n - ((jobReports seen').length + 1) := by omega
      exact hnext
    · rw [hadvance.jobReports_eq, List.length_singleton] at hle
      omega

/-- The report of a configuration comes from the worker that accepted it, after those on the
configurations ahead of it. -/
theorem Shifts.exists_answer (h₀ : Shifts t id {} called seen c)
    (h : Shifts t id c came more c') (hawaits : c.Awaits config k n)
    (hlt : n < (jobReports more).length) :
    ∃ came₁ seen₁ c₁ rest s w r, Shifts t id c came₁ seen₁ c₁ ∧
      more = seen₁ ++ .reported r :: rest ∧ (jobReports seen₁).length = n ∧
      c₁.Awaits config k 0 ∧ c₁.stints[k]? = some s ∧
      s.worker.Advance t id s.drain.isSome w (.reported r) ∧ r.Answers t id config := by
  induction h with
  | refl => exact absurd hlt (Nat.not_lt_zero n)
  | @tail came seen' more other c₁ c₂ hshifts hshift ih =>
    rw [jobReports_append, List.length_append] at hlt
    by_cases hle : (jobReports seen').length ≤ n
    · -- it has not been reported before this shift
      have hpending := h₀.awaits hshifts hawaits hle
      have hbefore := h₀.trans hshifts
      rcases hpending.shift hbefore.sound hbefore.tells.turnedAway hshift with
        ⟨hnone, -⟩ | ⟨m, hm, hone, -⟩ | ⟨s, w, r, hzero, rfl, hs, hadvance, hanswer⟩
      · rw [hnone, List.length_nil] at hlt
        omega
      · omega
      · refine ⟨came, seen', c₁, [], s, w, r, hshifts, rfl, by omega, ?_, hs, hadvance, hanswer⟩
        rwa [hzero] at hpending
    · obtain ⟨came₁, seen₁, d, rest, s, w, r, hfirst, rfl, hrest⟩ := ih (by omega)
      refine ⟨came₁, seen₁, d, rest ++ more, s, w, r, hfirst, ?_, hrest⟩
      rw [List.append_assoc, List.cons_append]

/-! ## Workers that refuse -/

theorem getElem?_put (s : Stint) (hk : c.stints[k]? = some u) :
    (c.put j s).stints[k]? = some (if j = k then s else u) := by
  have hlt := (List.getElem?_eq_some_iff.mp hk).1
  rw [put, List.getElem?_set]
  split
  next hjk => rw [if_pos (hjk ▸ hlt)]
  next => exact hk

/-- In a shift a worker stays at its stage, or it goes on and this is seen. -/
theorem Shift.exists_stint {came : Option NetworkConfig} (hshift : Shift t id c came more c')
    (hk : c.stints[k]? = some u) :
    ∃ u', c'.stints[k]? = some u' ∧ u'.worker.netns = u.worker.netns ∧
      (u'.worker.stage = u.worker.stage ∨
        ∃ isSealed e, u.worker.Advance t id isSealed u'.worker e ∧ more = [e]) := by
  have hput {j : Nat} {s v : Stint} (hs : c.stints[j]? = some s)
      (hnetns : v.worker.netns = s.worker.netns) (hstage : v.worker.stage = s.worker.stage) :
      ∃ u', (c.put j v).stints[k]? = some u' ∧ u'.worker.netns = u.worker.netns ∧
        (u'.worker.stage = u.worker.stage ∨
          ∃ isSealed e, u.worker.Advance t id isSealed u'.worker e ∧ more = [e]) := by
    refine ⟨_, getElem?_put v hk, ?_⟩
    split
    next hjk =>
      obtain rfl : s = u := Option.some.inj (hs.symm.trans (hjk ▸ hk))
      exact ⟨hnetns, .inl hstage⟩
    next => exact ⟨rfl, .inl rfl⟩
  cases hshift with
  | @goes j s m w e hs hmay hover hgoes =>
    have hadvance := hgoes.advance
    refine ⟨_, getElem?_put { s with worker := w } hk, ?_⟩
    split
    next hjk =>
      obtain rfl : s = u := Option.some.inj (hs.symm.trans (hjk ▸ hk))
      exact ⟨hadvance.netns_eq, .inr ⟨_, e, hadvance, rfl⟩⟩
    next => exact ⟨rfl, .inl rfl⟩
  | ends hs | reports hs | finishes hs => exact hput hs rfl rfl
  | accepts config hduty => exact hput (onDuty?_eq_some_iff.mp hduty).2 rfl rfl
  | @letsGo j s hduty =>
    rw [release, hduty]
    exact hput (v := { s with drain := some .waiting }) (onDuty?_eq_some_iff.mp hduty).2 rfl rfl
  | hires netns hnobody =>
    refine ⟨u, ?_, rfl, .inl rfl⟩
    rw [hire, hnobody]
    exact getElem?_append_singleton_iff.mpr (.inl hk)
  | tidies | notes | turnsAway | delivers | handsOver | joins => exact ⟨u, hk, rfl, .inl rfl⟩

theorem Shifts.opened_of_isRefusing (h : Shifts t id c came more c') (hk : c.stints[k]? = some u)
    (hu : u.worker.isRefusing = false) :
    ∃ u', c'.stints[k]? = some u' ∧ u'.worker.netns = u.worker.netns ∧
      (u'.worker.isRefusing = true →
        ∃ why, .opened u.worker.netns (.error why) ∈ more) := by
  induction h with
  | refl =>
    refine ⟨u, hk, rfl, fun hrefusing ↦ ?_⟩
    rw [hu] at hrefusing
    exact absurd hrefusing nofun
  | tail _ hshift ih =>
    obtain ⟨v, hv, hnetns, hseen⟩ := ih
    obtain ⟨u', hu', hnetns', hstage⟩ := hshift.exists_stint hv
    refine ⟨u', hu', hnetns'.trans hnetns, fun hrefusing ↦ ?_⟩
    by_cases hv' : v.worker.isRefusing = true
    · obtain ⟨why, hmem⟩ := hseen hv'
      exact ⟨why, List.mem_append_left _ hmem⟩
    · rw [Bool.not_eq_true] at hv'
      rcases hstage with hstage | ⟨_, e, hadvance, rfl⟩
      · rw [Worker.isRefusing, hstage, ← Worker.isRefusing, hv'] at hrefusing
        exact absurd hrefusing nofun
      · obtain ⟨why, rfl⟩ := hadvance.opened_of_isRefusing hv' hrefusing
        exact ⟨why, List.mem_append_right _ (List.mem_singleton.mpr (by rw [hnetns]))⟩

/-- Of each worker that refuses it was seen that its namespace could not be opened. -/
def HasTried (seen : List Happening) (c : Crew) : Prop :=
  ∀ s ∈ c.stints, s.worker.isRefusing = true →
    ∃ why, .opened s.worker.netns (.error why) ∈ seen

theorem HasTried.shift {came : Option NetworkConfig} (h : c.HasTried seen)
    (hshift : Shift t id c came more c') : c'.HasTried (seen ++ more) := by
  have hstays : c.HasTried (seen ++ more) := fun s hs hrefusing ↦
    (h s hs hrefusing).imp fun _ hmem ↦ List.mem_append_left _ hmem
  have hput {j : Nat} {v : Stint} (hv : v.worker.isRefusing = true →
      ∃ why, .opened v.worker.netns (.error why) ∈ seen ++ more) :
      (c.put j v).HasTried (seen ++ more) := by
    intro s hs
    rcases List.mem_or_eq_of_mem_set hs with hs | rfl
    · exact hstays s hs
    · exact hv
  have hsame {j : Nat} {s v : Stint} (hs : c.stints[j]? = some s)
      (hnetns : v.worker.netns = s.worker.netns) (hstage : v.worker.stage = s.worker.stage) :
      (c.put j v).HasTried (seen ++ more) := by
    refine hput fun hv ↦ ?_
    rw [hnetns]
    exact hstays s (List.mem_of_getElem? hs) (by rwa [Worker.isRefusing, ← hstage])
  cases hshift with
  | @goes j s m w e hs _ _ hgoes =>
    refine hput fun hw ↦ ?_
    by_cases hrefusing : s.worker.isRefusing = true
    · rw [hgoes.advance.netns_eq]
      exact hstays s (List.mem_of_getElem? hs) hrefusing
    · obtain ⟨why, rfl⟩ := hgoes.advance.opened_of_isRefusing (by simpa using hrefusing) hw
      refine ⟨why, List.mem_append_right _ ?_⟩
      rw [hgoes.advance.netns_eq]
      exact List.mem_singleton.mpr rfl
  | ends hs | reports hs | finishes hs => exact hsame hs rfl rfl
  | accepts config hduty => exact hsame (onDuty?_eq_some_iff.mp hduty).2 rfl rfl
  | @letsGo j s hduty =>
    rw [release, hduty]
    exact hsame (v := { s with drain := some .waiting }) (onDuty?_eq_some_iff.mp hduty).2 rfl rfl
  | hires netns hnobody =>
    rw [hire, hnobody]
    intro s hs hrefusing
    rcases List.mem_append.mp hs with hs | hs
    · exact hstays s hs hrefusing
    · rw [List.mem_singleton.mp hs] at hrefusing
      exact absurd hrefusing Bool.false_ne_true
  | tidies | notes | turnsAway | delivers | handsOver | joins => exact hstays

theorem Shifts.hasTried (h : Shifts t id {} called seen c) : c.HasTried seen := by
  induction h with
  | refl => exact List.forall_mem_nil _
  | tail _ hshift ih => exact ih.shift hshift

/-- While a worker that refuses has something pending, nobody opens anything: those before it have
ended, and those after it have not begun. -/
theorem Awaits.not_opened {came : Option NetworkConfig} (h : c.Awaits config k n)
    (hsound : c.Sound t id) (hk : c.stints[k]? = some u) (hu : u.worker.isRefusing = true)
    (hshift : Shift t id c came more c') : ∀ e ∈ more, e.isOpened = false := by
  cases hshift with
  | @goes j s m w e hs hmay hover hgoes =>
    refine List.forall_mem_singleton.mpr ?_
    have hbegun : u.HasBegun := by
      refine .inl fun hfresh ↦ ?_
      rw [Worker.isRefusing, hfresh] at hu
      exact absurd hu nofun
    rcases Nat.lt_or_eq_of_le (h.le_of_begun hsound hs (.inr hmay)) with hlt | rfl
    · have hfin := hsound.finished_of_lt hk (.inl hbegun) hlt hs
      rw [(hsound.stint hs).over_of_gone (Stint.isGone_of_finished hfin)] at hover
      exact absurd hover nofun
    · obtain rfl : s = u := Option.some.inj (hs.symm.trans hk)
      exact (hgoes.advance.of_isRefusing hu).2
  | reports | notes | accepts | delivers => exact List.forall_mem_singleton.mpr rfl
  | turnsAway => exact List.forall_mem_cons.mpr ⟨rfl, List.forall_mem_singleton.mpr rfl⟩
  | ends | finishes | tidies | letsGo | hires | handsOver | joins => exact List.forall_mem_nil _

theorem Shifts.isRefusing (h₀ : Shifts t id {} called seen c) (h : Shifts t id c came more c')
    (hawaits : c.Awaits config k n) (hle : (jobReports more).length ≤ n)
    (hk : c.stints[k]? = some u) (hu : u.worker.isRefusing = true) :
    (∃ u', c'.stints[k]? = some u' ∧ u'.worker.isRefusing = true) ∧
      ∀ e ∈ more, e.isOpened = false := by
  induction h with
  | refl => exact ⟨⟨u, hk, hu⟩, List.forall_mem_nil _⟩
  | tail hshifts hshift ih =>
    rw [jobReports_append, List.length_append] at hle
    obtain ⟨⟨v, hv, hrefusing⟩, hnone⟩ := ih (by omega)
    have hpending := h₀.awaits hshifts hawaits (by omega)
    have hsound := (h₀.trans hshifts).sound
    obtain ⟨u', hu', -, hstage⟩ := hshift.exists_stint hv
    refine ⟨⟨u', hu', ?_⟩,
      List.forall_mem_append.mpr ⟨hnone, hpending.not_opened hsound hv hrefusing hshift⟩⟩
    rcases hstage with hstage | ⟨_, e, hadvance, -⟩
    · rwa [Worker.isRefusing, hstage]
    · exact (hadvance.of_isRefusing hrefusing).1

/-- The report of a configuration that is pending says that the namespace could not be opened only
if this was seen before, or if its worker refuses already, and then nothing was opened. -/
theorem Shifts.refusal {last : List NetworkConfig} {c'' : Crew} {r : Report}
    (h₀ : Shifts t id {} called seen c) (h : Shifts t id c came more c')
    (hlast : Shifts t id c' last [.reported r] c'') (hjob : (Happening.reported r).isOfJob = true)
    (hawaits : c.Awaits config k n) (hcount : (jobReports more).length = n)
    (hk : c.stints[k]? = some u) :
    r.Answers t id config ∧
      (u.worker.isRefusing = false → r.isRefusal = true →
        ∃ why, .opened u.worker.netns (.error why) ∈ more) ∧
      (u.worker.isRefusing = true → r.isRefusal = true ∧ ∀ e ∈ more, e.isOpened = false) := by
  have hnext := h₀.awaits h hawaits (Nat.le_of_eq hcount)
  rw [hcount, Nat.sub_self] at hnext
  have hone : 0 < (jobReports [.reported r]).length := by
    rw [jobReports, jobs, List.filter_cons_of_pos hjob]
    exact Nat.one_pos
  obtain ⟨came₁, seen₁, d, rest, v, w, r', hfirst, hsplit, -, -, hv, hadvance, hanswer⟩ :=
    (h₀.trans h).exists_answer hlast hnext hone
  -- one report is all that is seen in the end
  obtain ⟨rfl, rfl⟩ : seen₁ = [] ∧ r' = r := by
    cases seen₁ with
    | nil => exact ⟨rfl, (Happening.reported.inj (List.cons.inj hsplit).1).symm⟩
    | cons e seen₁ => simp at hsplit
  have hall := h.trans hfirst
  rw [List.append_nil] at hall
  rw [hadvance.isRefusal_eq]
  refine ⟨hanswer, fun hu ↦ ?_, fun hu ↦ ?_⟩
  · obtain ⟨v', hv', -, hopened⟩ := hall.opened_of_isRefusing hk hu
    obtain rfl : v = v' := Option.some.inj (hv.symm.trans hv')
    exact hopened
  · obtain ⟨⟨v', hv', hrefusing⟩, hnone⟩ :=
      h₀.isRefusing hall hawaits (Nat.le_of_eq hcount) hk hu
    obtain rfl : v = v' := Option.some.inj (hv.symm.trans hv')
    exact ⟨hrefusing, hnone⟩

/-! ## What a call comes to -/

theorem length_pending (c : Crew) : c.pending.length = c.inHand.length + c.waiting.length := by
  rw [pending, inHand, waiting]
  induction c.stints with
  | nil => rfl
  | cons s stints ih =>
    rw [List.flatMap_cons, List.flatMap_cons, List.flatMap_cons, List.length_append,
      List.length_append, List.length_append, ih, Worker.pending, List.length_append]
    omega

theorem Queues.length_accepted (h : c.Queues t id called seen) :
    (accepted seen).length = (jobReports seen).length + c.pending.length := by
  obtain ⟨done, -, hjobs, haccepted⟩ := h.exists_done
  have htook : reports (c.inHand.map .took) = [] :=
    List.filterMap_eq_nil_iff.mpr fun e he ↦ by
      obtain ⟨config, -, rfl⟩ := List.mem_map.mp he
      rfl
  rw [jobReports, hjobs, reports_append, reports_done, htook, haccepted, length_pending]
  simp only [List.length_append, List.length_map, List.length_nil]
  omega

theorem jobs_configure (t : Terms) (id : ContainerId) (netns : String) (config : NetworkConfig)
    (c : Crew) : jobs (c.configure t id netns config).2 = [] := by
  have hnote : jobs (c.tidy.noteReplaced id netns) = [] := by
    rw [noteReplaced]
    split <;> rfl
  have hoffer (d : Crew) : jobs (d.offer t id config).2 = [] := by
    rw [offer]
    split
    · rfl
    · dsimp only
      repeat' split
      all_goals rfl
  change jobs (c.tidy.noteReplaced id netns ++ ((c.tidy.ensure netns).offer t id config).2) = []
  rw [jobs_append, hnote, hoffer, List.append_nil]

theorem awaits_last {pre : List Stint} {p : List NetworkConfig} (hstints : c.stints = pre ++ [u])
    (hpending : u.worker.pending = p ++ [config]) :
    c.stints[pre.length]? = some u ∧
      c.Awaits config pre.length ((pre.flatMap (·.worker.pending)).length + p.length) := by
  have hs : c.stints[pre.length]? = some u := by simp [hstints]
  refine ⟨hs, p, [], ?_, ?_⟩
  · rw [shares_eq hs, hpending]
  · rw [shares, hstints, List.map_append, List.take_left' (List.length_map _)]
    rfl

theorem offer_accepted (hduty : c.onDuty? = some (k, u)) (hover : u.isOver = false)
    (haccepted : .accepted config ∈ (c.offer t id config).2) :
    (c.offer t id config).1 =
      c.put k { u with worker := { u.worker with waiting := u.worker.waiting ++ [config] } } := by
  simp only [offer, hduty, hover] at haccepted ⊢
  by_cases hlt : u.worker.waiting.length < t.depth
  · simp [hlt]
  · simp [hlt, turnAway] at haccepted

theorem exists_hire (hnobody : c.onDuty? = none) (netns : String) :
    ∃ after, (c.hire netns).onDuty? =
        some (c.stints.length, { worker := { netns }, after }) ∧
      (c.hire netns).stints = c.stints ++ [{ worker := { netns }, after }] := by
  rw [hire, hnobody]
  exact ⟨c.draining, onDuty?_eq_some_iff.mpr ⟨rfl, List.getElem?_concat_length⟩, rfl⟩

/-- A configuration that a call puts into a queue is pending behind all that was. It goes to the
worker that is on duty in the namespace, or to a new one. -/
theorem Sound.configure_accepted (h : c.Sound t id) {netns : String}
    (haccepted : .accepted config ∈ (c.configure t id netns config).2) :
    ∃ k u, (c.configure t id netns config).1.stints[k]? = some u ∧
      Path.same u.worker.netns netns = true ∧
      (c.configure t id netns config).1.Awaits config k c.pending.length ∧
      (u.worker.isRefusing = true ↔ c.IsRefusing netns) := by
  have hnote : (.accepted config : Happening) ∉ c.tidy.noteReplaced id netns := by
    rw [noteReplaced]
    split <;> simp
  have hoffered : .accepted config ∈ ((c.tidy.ensure netns).offer t id config).2 :=
    (List.mem_append.mp haccepted).resolve_left hnote
  change ∃ k u, ((c.tidy.ensure netns).offer t id config).1.stints[k]? = some u ∧ _ ∧
    ((c.tidy.ensure netns).offer t id config).1.Awaits config k c.pending.length ∧ _
  by_cases hstays : ∃ k s, c.tidy.onDuty? = some (k, s) ∧ Path.same s.worker.netns netns = true
  · obtain ⟨k, s, hduty, hsame⟩ := hstays
    have hover := h.tidy.isOver_of_onDuty hduty
    have hkept : c.tidy.ensure netns = c.tidy := by
      have hno : c.tidy.isToReplace netns = false := by simp [isToReplace, hduty, hsame, hover]
      simp [ensure, hno, Crew.hire, hduty]
    rw [hkept] at hoffered ⊢
    rw [offer_accepted hduty hover hoffered]
    obtain ⟨-, pre, hsplit, hput⟩ := h.tidy.exists_split_onDuty hduty
    let given : Stint :=
      { s with worker := { s.worker with waiting := s.worker.waiting ++ [config] } }
    have hpush : given.worker.pending = s.worker.pending ++ [config] := (List.append_assoc ..).symm
    obtain ⟨hlast, hawaits⟩ := awaits_last (hput given) hpush
    have hpending : c.pending.length =
        (pre.flatMap (·.worker.pending)).length + s.worker.pending.length := by
      have hstints : c.stints = pre ++ [s] := hsplit
      rw [pending, hstints, List.flatMap_append, List.length_append, List.flatMap_singleton]
    rw [hpending]
    refine ⟨_, _, hlast, hsame, hawaits, fun hrefusing ↦ ⟨k, s, hduty, hsame, hrefusing⟩, ?_⟩
    rintro ⟨k', s', hduty', -, hrefusing⟩
    cases hduty.symm.trans hduty'
    exact hrefusing
  · have hnobody := onDuty?_of_not_stays hstays
    generalize hleft : (if c.tidy.isToReplace netns then c.tidy.release else c.tidy) = d at hnobody
    have hshares : d.shares = c.shares := by
      rw [← hleft]
      split
      · exact shares_release c.tidy
      · rfl
    obtain ⟨after, hduty, hstints⟩ := exists_hire hnobody netns
    rw [ensure, hleft] at hoffered ⊢
    rw [offer_accepted hduty rfl hoffered]
    let given : Stint := { worker := { netns, waiting := [config] }, after }
    have hgiven : ((d.hire netns).put d.stints.length given).stints = d.stints ++ [given] := by
      simp [Crew.put, hstints]
    obtain ⟨hlast, hawaits⟩ := awaits_last (p := []) hgiven rfl
    have hpending : d.pending = c.pending := congrArg List.flatten hshares
    rw [← hpending]
    refine ⟨_, _, hlast, beq_self_eq_true _, hawaits, (absurd · Bool.false_ne_true), ?_⟩
    rintro ⟨k, s, hduty, hsame, -⟩
    exact absurd ⟨k, s, hduty, hsame⟩ hstays

end Crew

/-! ## Every run of a staff -/

namespace Staff

variable {s s₁ s₂ s₃ : Staff} {events more later : List Event}

theorem Run.awaits_of_call {netns : String} {config : NetworkConfig} (h : Run t events s)
    (hcall : s.Step (.called id (.configure netns config) :: more) s₁)
    (haccepted : .happening id (.accepted config) ∈ more) :
    jobs (seen id more) = [] ∧ ∃ k u, (s₁.crews id).stints[k]? = some u ∧
      Path.same u.worker.netns netns = true ∧
      (s₁.crews id).Awaits config k (s.crews id).pending.length ∧
      (u.worker.isRefusing = true ↔ (s.crews id).IsRefusing netns) := by
  obtain ⟨happenings, hmove, rfl, -⟩ := hcall.of_call
  rw [h.terms_eq] at hmove
  obtain ⟨-, hmove⟩ := Option.ite_none_right_eq_some.mp hmove
  have hpair := Option.some.inj hmove
  have hcrew : ((s.crews id).configure t id netns config).1 = s₁.crews id :=
    congrArg Prod.fst hpair
  have hseen : ((s.crews id).configure t id netns config).2 = happenings :=
    congrArg Prod.snd hpair
  have hmem : .accepted config ∈ ((s.crews id).configure t id netns config).2 := by
    obtain ⟨e, he, heq⟩ := List.mem_map.mp haccepted
    cases heq
    rwa [hseen]
  have hexists := (h.sound id).configure_accepted hmem
  rw [hcrew] at hexists
  refine ⟨?_, hexists⟩
  rw [seen_map, if_pos rfl, ← hseen]
  exact Crew.jobs_configure t id netns config _

theorem Run.opened_of_isRefusing {netns : String} (h : Run t events s)
    (hrefusing : (s.crews id).IsRefusing netns) :
    ∃ path why, Path.same path netns = true ∧ .opened path (.error why) ∈ seen id events := by
  obtain ⟨k, u, hduty, hsame, hu⟩ := hrefusing
  have hmem := List.mem_of_getElem? (Crew.onDuty?_eq_some_iff.mp hduty).2
  obtain ⟨why, hopened⟩ := (h.shifts id).hasTried u hmem hu
  exact ⟨u.worker.netns, why, hsame, hopened⟩

/-- **When a configuration is refused anew.** In a run a configuration comes with a call and is
accepted. Then workers report as often as configurations had been accepted before, and once more.
That report is on the configuration. If it says that the namespace could not be opened, this was
seen after the call, except if the worker that was on duty at the call was in the namespace and had
failed to open it before. Such a worker refuses the configuration, and nothing is opened. -/
theorem Run.refused_anew_iff {netns : String} {config : NetworkConfig} {r : Report}
    (h : Run t events s) (hcall : s.Step (.called id (.configure netns config) :: more) s₁)
    (haccepted : .happening id (.accepted config) ∈ more) (hlater : s₁.Steps later s₂)
    (hreport : s₂.Step [.happening id (.reported r)] s₃)
    (hjob : (Happening.reported r).isOfJob = true)
    (hturn : (jobReports (seen id (events ++
      (.called id (.configure netns config) :: more) ++ later))).length =
        (accepted (seen id events)).length) :
    r.Answers t id config ∧
      ((r.isRefusal = true → ∃ path why, Path.same path netns = true ∧
          .opened path (.error why) ∈ seen id later) ↔
        ¬(s.crews id).IsRefusing netns) := by
  obtain ⟨hnone, k, u, hk, hsame, hawaits, hrefusing⟩ := h.awaits_of_call hcall haccepted
  -- what is pending at the call is reported until the report of the configuration
  have hcount : (jobReports (seen id later)).length = (s.crews id).pending.length := by
    have hlength := (h.shifts id).queues.length_accepted
    have hcalled : jobReports (seen id (.called id (.configure netns config) :: more)) = [] := by
      rw [seen_called_cons, jobReports, hnone]
      rfl
    rw [seen_append, seen_append, jobReports_append, jobReports_append, hcalled,
      List.append_nil, List.length_append] at hturn
    omega
  have hrun := h.step hcall
  have hshifts := hrun.shifts_of_steps hlater id
  have hlast := (hrun.steps hlater).shifts_of_step hreport id
  have hseen_last : seen id [.happening id (.reported r)] = [.reported r] := by
    rw [← List.map_singleton, seen_map, if_pos rfl]
  rw [hseen_last] at hlast
  obtain ⟨hanswer, hanew, hstale⟩ :=
    (hrun.shifts id).refusal hshifts hlast hjob hawaits hcount hk
  refine ⟨hanswer, ?_⟩
  rw [← hrefusing]
  constructor
  · intro hseen hu
    obtain ⟨hrefusal, hunopened⟩ := hstale hu
    obtain ⟨path, why, -, hmem⟩ := hseen hrefusal
    exact absurd (hunopened _ hmem) nofun
  · intro hu hrefusal
    obtain ⟨why, hmem⟩ := hanew (by simpa using hu) hrefusal
    exact ⟨u.worker.netns, why, hsame, hmem⟩

/-- A first configuration is refused, and it was seen after the call that the namespace could not be
opened. -/
theorem Run.refused_anew_at_first :
    let id : ContainerId := ⟨"web-1", by decide⟩
    let config := NetworkConfig.disabled "default"
    let call := Call.configure "/run/netns/a" config
    ∃ events s more s₁ later s₂ s₃ r, Run {} events s ∧ s.Step (.called id call :: more) s₁ ∧
      .happening id (.accepted config) ∈ more ∧ s₁.Steps later s₂ ∧
      s₂.Step [.happening id (.reported r)] s₃ ∧ (Happening.reported r).isOfJob = true ∧
      (jobReports (seen id (events ++ (.called id call :: more) ++ later))).length =
        (accepted (seen id events)).length ∧
      r.isRefusal = true ∧ ∃ path why, Path.same path "/run/netns/a" = true ∧
        .opened path (.error why) ∈ seen id later := by
  intro id config call
  let crewAt (waiting : List NetworkConfig) (stage : Worker.Stage) : Crew :=
    { stints := [{ worker := { netns := "/run/netns/a", waiting, stage } }], onDuty := some 0 }
  let r := Worker.refusal { netns := "/run/netns/a" } id config .closed
  let tasks : List Crew.Move :=
    [.work 0 .advance, .work 0 (.opened (.error .closed)), .work 0 .advance]
  have hcalled : Crew.step {} {} id (.call call) =
      some (crewAt [config] .fresh, [.accepted config]) := rfl
  have htasks : moveAll (fun c m ↦ Crew.step c {} id m) tasks (crewAt [config] .fresh) =
      some (crewAt [] (.refused .closed (some config)),
        [.opening "/run/netns/a", .opened "/run/netns/a" (.error .closed), .took config]) := rfl
  have hreported : Crew.step (crewAt [] (.refused .closed (some config))) {} id
      (.work 0 .advance) = some (crewAt [] (.refused .closed none), [.reported r]) := rfl
  have hcall := Step.alone_call call hcalled
  have hlater : (alone {} id false _).Steps _ _ := .alone_tasks (by decide) htasks
  have hreport : (alone {} id false _).Step _ _ := .alone_task (.work 0 .advance) rfl hreported
  have haccepted : .happening id (.accepted config) ∈ [Event.happening id (.accepted config)] :=
    List.mem_singleton.mpr rfl
  have hfirst : ¬((alone {} id false {}).crews id).IsRefusing "/run/netns/a" := by
    rintro ⟨k, s, hduty, -⟩
    rw [alone_crews_self] at hduty
    exact absurd hduty nofun
  have hanew := (Run.alone_start.refused_anew_iff hcall haccepted hlater hreport rfl rfl).2.mpr
    hfirst rfl
  exact ⟨_, _, _, _, _, _, _, r, .alone_start, hcall, haccepted, hlater, hreport, rfl, rfl, rfl,
    hanew⟩

/-- The configuration after one that was refused is refused too, although nobody has tried to open
the namespace again. -/
theorem Run.refused_without_attempt :
    let id : ContainerId := ⟨"web-1", by decide⟩
    let config := NetworkConfig.disabled "default"
    let call := Call.configure "/run/netns/a" config
    ∃ events s more s₁ later s₂ s₃ r, Run {} events s ∧ s.Step (.called id call :: more) s₁ ∧
      .happening id (.accepted config) ∈ more ∧ s₁.Steps later s₂ ∧
      s₂.Step [.happening id (.reported r)] s₃ ∧ (Happening.reported r).isOfJob = true ∧
      (jobReports (seen id (events ++ (.called id call :: more) ++ later))).length =
        (accepted (seen id events)).length ∧
      r.isRefusal = true ∧ ∀ path result, .opened path result ∉
        seen id (more ++ later ++ [.happening id (.reported r)]) := by
  intro id config call
  let stintAt (waiting : List NetworkConfig) (stage : Worker.Stage) : Stint :=
    { worker := { netns := "/run/netns/a", waiting, stage } }
  let crewAt (waiting : List NetworkConfig) (stage : Worker.Stage) : Crew :=
    { stints := [stintAt waiting stage], onDuty := some 0 }
  let r := Worker.refusal { netns := "/run/netns/a" } id config .closed
  let tasks : List Crew.Move :=
    [.work 0 .advance, .work 0 (.opened (.error .closed)), .work 0 .advance, .work 0 .advance]
  have hhired : Crew.step {} {} id (.call call) =
      some (crewAt [config] .fresh, [.accepted config]) := rfl
  have hfirst : moveAll (fun c m ↦ Crew.step c {} id m) tasks (crewAt [config] .fresh) =
      some (crewAt [] (.refused .closed none), [.opening "/run/netns/a",
        .opened "/run/netns/a" (.error .closed), .took config, .reported r]) := rfl
  -- the worker is still on duty, so there is no new one that could try
  have hstays : (crewAt [] (.refused .closed none)).configure {} id "/run/netns/a" config =
      (crewAt [config] (.refused .closed none), [.accepted config]) :=
    (Crew.configure_eq_offer (k := 0) (s := stintAt [] (.refused .closed none)) rfl
      (beq_self_eq_true _) rfl _).trans rfl
  have htakes : Crew.step (crewAt [config] (.refused .closed none)) {} id (.work 0 .advance) =
      some (crewAt [] (.refused .closed (some config)), [.took config]) := rfl
  have hreported : Crew.step (crewAt [] (.refused .closed (some config))) {} id
      (.work 0 .advance) = some (crewAt [] (.refused .closed none), [.reported r]) := rfl
  have hrun := (Run.alone_start.alone_call call hhired).alone_tasks (by decide) hfirst
  have hlater : (alone {} id false _).Steps _ _ :=
    .single (.alone_task (.work 0 .advance) rfl htakes)
  have hreport : (alone {} id false _).Step _ _ := .alone_task (.work 0 .advance) rfl hreported
  refine ⟨_, _, _, _, _, _, _, r, hrun, .alone_call call (congrArg some hstays),
    List.mem_singleton.mpr rfl, hlater, hreport, rfl, rfl, rfl, fun path result hmem ↦ ?_⟩
  have hseen : Happening.opened path result ∈
      [.accepted config, .took config, .reported r] := hmem
  simp at hseen

end Staff

end ContainerNet.Sidecar
