import ContainerNet.Proofs.Retry.Course

/-!
# What a token does to a retry loop

A token that fires is to end the loop there and do nothing else. `runFired_truncates` compares the
loop with itself, once with a token and once without. If the loop left alone is over before the
token fires, the token changes nothing. Otherwise the loop returns when the token fires, and what
has happened until then is what happens if it is left alone: the attempts and the notes before that
instant, and nothing else.

The token must not fire at the very instant at which an attempt or a pause ends. There the end of
the wait is handled first, and whether the loop then sees the token depends on what it does next.

## The argument

Every wait is compared with the same wait without a token, begun on the same clock
(`Clock.await_withToken`), and the loops are compared request by request (`Cuts`). As long as the
token has not fired, the two runs are in the same state but for the token; the first wait that would
end after it is the one that it ends.
-/

namespace ContainerNet

/-! ## One wait with a token and without -/

namespace Clock

variable {α : Type} {c : Clock} {length : Option Duration} {d : Duration}

/-- The clock with a token that fires at an instant. -/
def withToken (c : Clock) (d : Duration) : Clock := { c with cancelAt := some d }

@[simp] theorem withToken_now : (c.withToken d).now = c.now := rfl

theorem after_withToken : (c.withToken d).after length = (c.after length).withToken d := by
  have hrested : (c.withToken d).rested = c.rested.withToken d := by
    rw [rested, rested]
    by_cases hallow : c.allowance = 0
    · simp [withToken, hallow]
    · simp [withToken, hallow]
  cases length with
  | none => exact hrested
  | some length =>
    rw [after, after, hrested]
    rfl

/-- Either a wait ends before the token fires, and then the token changes nothing, or the token ends
it. -/
theorem await_withToken (hnow : c.now.nanos < d.nanos) (hends : (c.after length).now ≠ d) (a : α) :
    ((c.after length).now.nanos < d.nanos ∧ (c.withToken d).await none length none a =
        (.finished (lasting length) a, (c.after length).withToken d)) ∨
      (d.nanos < (c.after length).now.nanos ∧ ∃ c' : Clock,
        (c.withToken d).await none length none a = (.cancelled, c') ∧ c'.now = d) := by
  rcases Nat.lt_or_gt_of_ne fun h ↦ hends (congrArg Duration.mk h) with hlt | hgt
  · refine .inl ⟨hlt, ?_⟩
    have hclear : (c.withToken d).IsClearFor (lasting length) := by
      rintro e ⟨⟩
      rw [after_now] at hlt
      exact ⟨hnow, Nat.le_of_lt hlt⟩
    rw [await_eq_finished hclear, after_withToken]
  · refine .inr ⟨hgt, ?_⟩
    rw [after_now] at hgt
    exact exists_await_eq_cancelled (c := c.withToken d) rfl hnow hgt a

end Clock

namespace Retry

namespace Request

variable {ε : Type}

/-- Whether a request only asks if the token has fired. -/
def isLook : Request ε → Bool
  | .isCancelled => true
  | _ => false

/-- What a request notes. -/
def note? : Request ε → Option (Nat × Nat × ε)
  | .note i n e => some (i, n, e)
  | _ => none

end Request

namespace Timeline

variable {ε α : Type}

namespace State

/-- The state with a token that fires at an instant. -/
def withToken (s : State ε α) (d : Duration) : State ε α :=
  { s with clock := s.clock.withToken d }

end State

/-! ## The loop with a token and without -/

section

variable [Timer] {script : Nat → Step ε α}

/-- The bare loop with a token that fires at some instant. -/
def runFired (n : Nat) (backoff : Duration) (script : Nat → Step ε α) (d : Duration) :
    Except (Failure ε) α × State ε α :=
  (loop n backoff none).run (answer script) ((start none).withToken d)

theorem runBare_some (n : Nat) (backoff : Duration) (script : Nat → Step ε α) (d : Duration) :
    runBare n backoff script (some d) = runFired n backoff script d := rfl

/-- The instants at which the attempts and the pauses of a run end. -/
def endings (script : Nat → Step ε α) (p : Loop ε α) (s : State ε α) : List Duration :=
  ((history script p s).filter (·.request.isWait)).map (·.answered)

/-- What a run does, and when. To look whether the token has fired is to do nothing. -/
def acts (script : Nat → Step ε α) (p : Loop ε α) (s : State ε α) : List (Request ε × Duration) :=
  ((trace script p s).filter (!·.1.isLook)).map fun x ↦ (x.1, x.2.now)

variable {s t t' : State ε α} {d backoff spent : Duration} {total more : Nat} {q : Request ε}
  {next : Answer ε α q → Loop ε α} {p p' : Loop ε α}

theorem acts_ask : acts script (.ask q next) s = (if q.isLook then [] else [(q, s.clock.now)]) ++
    acts script (next (answer script q s).1) (answer script q s).2 := by
  rw [acts, trace, List.filter_cons]
  cases q with
  | isCancelled => rfl
  | _ => rfl

theorem Leads.endings_eq {deeds : List (Deed ε)} {s' : State ε α}
    (h : Leads script p s deeds p' s') : endings script p s =
      (deeds.filter (·.request.isWait)).map (·.answered) ++ endings script p' s' := by
  rw [endings, h.history_eq, List.filter_append, List.map_append]
  rfl

theorem starts_eq : starts script p s = ((acts script p s).filter (·.1.isAttempt)).map (·.2) := by
  rw [starts, acts, List.filter_map, List.map_map, List.filter_filter]
  refine congrArg (List.map _) (List.filter_congr fun x _ ↦ ?_)
  cases h : x.1 <;> simp [h, Request.isAttempt, Request.isLook]

theorem now_le_of_mem_acts {x : Request ε × Duration} (hx : x ∈ acts script p s) :
    s.clock.now.nanos ≤ x.2.nanos := by
  obtain ⟨y, hy, rfl⟩ := List.mem_map.mp hx
  exact now_le_of_mem_trace (List.mem_filter.mp hy).1

theorem acts_before (h : d.nanos ≤ s.clock.now.nanos) :
    (acts script p s).filter (·.2.nanos < d.nanos) = [] := by
  refine List.filter_eq_nil_iff.mpr fun x hx ↦ ?_
  have hle := now_le_of_mem_acts hx
  rw [decide_eq_true_eq]
  omega

theorem notes_run (p : Loop ε α) (s : State ε α) : (p.run (answer script) s).2.notes.reverse =
    s.notes.reverse ++ (acts script p s).filterMap (·.1.note?) := by
  induction p generalizing s with
  | done a => simp [acts, trace]
  | ask q next ih =>
    rw [Program.run_ask, ih, acts_ask, List.filterMap_append]
    cases q with
    | note i n e => simp [Request.note?, Request.isLook, answer]
    | attempt earlier within => rfl
    | pause length within => rfl
    | isCancelled => rfl

/-- Up to the token a run is the same with and without it, and there it ends. -/
structure Cuts (script : Nat → Step ε α) (d : Duration) (p : Loop ε α) (s : State ε α) : Prop where
  early : (p.run (answer script) s).2.clock.now.nanos < d.nanos →
    p.run (answer script) (s.withToken d) =
      ((p.run (answer script) s).1, (p.run (answer script) s).2.withToken d)
  late : d.nanos ≤ (p.run (answer script) s).2.clock.now.nanos →
    (p.run (answer script) (s.withToken d)).1 =
        .error (.cancelled (p.run (answer script) (s.withToken d)).2.calls) ∧
      (p.run (answer script) (s.withToken d)).2.clock.now = d
  acts : acts script p (s.withToken d) = (acts script p s).filter (·.2.nanos < d.nanos)

namespace Cuts

theorem done {r : Except (Failure ε) α} (hnow : s.clock.now.nanos < d.nanos) :
    Cuts script d (.done r) s where
  early _ := rfl
  late hle := absurd hnow (Nat.not_lt_of_le hle)
  acts := rfl

/-- The token changes nothing about one answer. -/
theorem ask (hnow : s.clock.now.nanos < d.nanos) (hnext : next (answer script q s).1 = p)
    (hstate : (answer script q s).2 = t) (hnext' : next (answer script q (s.withToken d)).1 = p)
    (hstate' : (answer script q (s.withToken d)).2 = t.withToken d) (hrest : Cuts script d p t) :
    Cuts script d (.ask q next) s := by
  constructor
  case early =>
    rw [Program.run_ask, Program.run_ask, hnext, hstate, hnext', hstate']
    exact hrest.early
  case late =>
    rw [Program.run_ask, Program.run_ask, hnext, hstate, hnext', hstate']
    exact hrest.late
  case acts =>
    rw [acts_ask, acts_ask, hnext, hstate, hnext', hstate', hrest.acts, List.filter_append]
    split
    next => rfl
    next => simp [hnow, State.withToken]

/-- The token ends a wait, and with it the loop. -/
theorem cut (hnow : s.clock.now.nanos < d.nanos)
    (hlate : d.nanos < (answer script q s).2.clock.now.nanos)
    (hnext' : next (answer script q (s.withToken d)).1 = .done (.error (.cancelled t.calls)))
    (hstate' : (answer script q (s.withToken d)).2 = t) (hnow' : t.clock.now = d) :
    Cuts script d (.ask q next) s := by
  have hrun : (Program.ask q next).run (answer script) (s.withToken d) =
      (.error (.cancelled t.calls), t) := by
    rw [Program.run_ask, hnext', hstate', Program.run_done]
  constructor
  case early =>
    intro hlt
    have hle : (answer script q s).2.clock.now.nanos ≤ ((next (answer script q s).1).run
        (answer script) (answer script q s).2).2.clock.now.nanos := now_le_run _ _
    exact absurd hlt (Nat.not_lt_of_le (Nat.le_trans (Nat.le_of_lt hlate) hle))
  case late =>
    intro _
    rw [hrun]
    exact ⟨rfl, hnow'⟩
  case acts =>
    rw [acts_ask, acts_ask, hnext', hstate', List.filter_append, acts_before (Nat.le_of_lt hlate)]
    split
    next => rfl
    next => simp [hnow, State.withToken, Timeline.acts, trace]

theorem fired {f : Answer ε α .isCancelled → Loop ε α}
    (hfired : (s.withToken d).clock.isCancelled = true) (hnow : s.clock.now = d)
    (hdone : f true = .done (.error (.cancelled s.calls))) :
    Cuts script d (.ask .isCancelled f) s := by
  have hle : d.nanos ≤ s.clock.now.nanos := Nat.le_of_eq (congrArg Duration.nanos hnow.symm)
  have hanswer : answer script .isCancelled (s.withToken d) = (true, s.withToken d) :=
    Prod.ext hfired rfl
  constructor
  case early =>
    intro hlt
    exact absurd hlt (Nat.not_lt_of_le (Nat.le_trans hle (now_le_run (.ask .isCancelled f) s)))
  case late =>
    intro _
    rw [Program.run_ask, hanswer, hdone, Program.run_done]
    exact ⟨rfl, hnow⟩
  case acts =>
    rw [acts_before hle, acts_ask, hanswer, hdone]
    rfl

/-- A wait, for which `f` says how the loop goes on. -/
theorem wait {γ : Type} {a : γ} {length : Option Duration} {calls : Nat} {f : Ending γ → Loop ε α}
    (hnow : s.clock.now.nanos < d.nanos) (hends : (s.clock.after length).now ≠ d)
    (hnext : next (answer script q s).1 = f (.finished (Clock.lasting length) a))
    (hstate : (answer script q s).2 = { s with clock := s.clock.after length, calls })
    (hnext' : next (answer script q (s.withToken d)).1 =
      f ((s.clock.withToken d).await none length none a).1)
    (hstate' : (answer script q (s.withToken d)).2 =
      { s with clock := ((s.clock.withToken d).await none length none a).2, calls })
    (hcancelled : f .cancelled = .done (.error (.cancelled calls)))
    (hrest : (s.clock.after length).now.nanos < d.nanos →
      Cuts script d (f (.finished (Clock.lasting length) a))
        { s with clock := s.clock.after length, calls }) :
    Cuts script d (.ask q next) s := by
  rcases Clock.await_withToken hnow hends a with ⟨hlt, hawait⟩ | ⟨hgt, c, hawait, hc⟩
  · rw [hawait] at hnext' hstate'
    exact .ask hnow hnext hstate hnext' hstate' (hrest hlt)
  · rw [hawait] at hnext' hstate'
    refine .cut hnow ?_ (hnext'.trans hcancelled) hstate' hc
    rw [hstate]
    exact hgt

end Cuts

/-! ### The waits of the loop -/

variable {made : Nat} {failed : Duration → ε → Loop ε α} {again : Duration → Loop ε α}

theorem cuts_attempt (htoken : s.clock.cancelAt = none) (hnow : s.clock.now.nanos < d.nanos)
    (hends : d ∉ endings script (attempt total none s.calls spent failed) s)
    (hrest : (s.attempted script).clock.now.nanos < d.nanos →
      d ∉ endings script (afterAttempt total none s.calls failed
        (.finished (script s.calls).duration (script s.calls).result)) (s.attempted script) →
      Cuts script d (afterAttempt total none s.calls failed
        (.finished (script s.calls).duration (script s.calls).result)) (s.attempted script)) :
    Cuts script d (attempt total none s.calls spent failed) s := by
  have hclear : s.clock.IsClearFor (script s.calls).duration := .of_none htoken _
  have hlook : s.clock.isCancelled = false := hclear.isLive.isCancelled_eq_false
  have hlook' : (s.withToken d).clock.isCancelled = false := by
    refine Clock.IsLive.isCancelled_eq_false (Clock.isLive_of_lt ?_)
    rintro e ⟨⟩
    exact hnow
  have hanswer : answer script (.attempt s.calls none) s = _ := answer_attempt hclear s.calls
  have hleads : Leads script (attempt total none s.calls spent failed) s _ _ _ :=
    leads_attempt hlook hanswer
  rw [hleads.endings_eq] at hends
  obtain ⟨hend, hends⟩ := not_or.mp (mt List.mem_cons.mpr hends)
  have hattempt : Cuts script d
      (.ask (.attempt s.calls none) (afterAttempt total none s.calls failed)) s := by
    have hbefore : limitBefore s.calls none = none := ite_self none
    refine .wait (f := afterAttempt total none s.calls failed) hnow (Ne.symm hend) ?_ ?_ ?_ ?_ rfl
      fun hlt ↦ hrest hlt hends
    · rw [hanswer]
      rfl
    · rw [hanswer]
      rfl
    · rw [answer, hbefore]
      rfl
    · rw [answer, hbefore]
      rfl
  refine .ask hnow ?_ rfl ?_ rfl hattempt
  · rw [answer, hlook]
    rfl
  · rw [answer, hlook']
    rfl

theorem cuts_pause (htoken : s.clock.cancelAt = none) (hnow : s.clock.now.nanos < d.nanos)
    (hends : d ∉ endings script
      (.ask (.pause backoff (left none spent)) (afterPause none made again)) s)
    (hcalls : s.calls = made + 1)
    (hrest : (s.paused backoff).clock.now.nanos < d.nanos →
      d ∉ endings script (again (Timer.lasting backoff)) (s.paused backoff) →
      Cuts script d (again (Timer.lasting backoff)) (s.paused backoff)) :
    Cuts script d (.ask (.pause backoff (left none spent)) (afterPause none made again)) s := by
  have hanswer : answer script (.pause backoff (left none spent)) s = _ :=
    answer_pause (.of_none htoken _)
  have hleads : Leads script (.ask (.pause backoff (left none spent)) (afterPause none made again))
      s _ _ _ := leads_paused (.of_none htoken _) again
  rw [hleads.endings_eq] at hends
  obtain ⟨hend, hends⟩ := not_or.mp (mt List.mem_cons.mpr hends)
  refine .wait (f := afterPause none made again) hnow (Ne.symm hend) ?_ ?_ rfl rfl ?_
    fun hlt ↦ hrest hlt hends
  · rw [hanswer]
    rfl
  · rw [hanswer]
    rfl
  · exact congrArg (fun calls ↦ Program.done (Except.error (Failure.cancelled calls))) hcalls.symm

/-- By induction on the attempts that may follow. -/
theorem cuts_attempts (htoken : s.clock.cancelAt = none) (hnow : s.clock.now.nanos < d.nanos)
    (hends : d ∉ endings script (attempts total backoff none more s.calls spent) s) :
    Cuts script d (attempts total backoff none more s.calls spent) s := by
  induction more generalizing s spent with
  | zero =>
    refine cuts_attempt htoken hnow hends fun hlt _ ↦ ?_
    cases (script s.calls).result with
    | ok a => exact .done hlt
    | error e => exact .ask hlt rfl rfl rfl rfl (.done hlt)
  | succ more ih =>
    rw [attempts_succ] at hends ⊢
    refine cuts_attempt htoken hnow hends fun hlt hends ↦ ?_
    cases hresult : (script s.calls).result with
    | ok a => exact .done hlt
    | error e =>
      rw [hresult] at hends
      have htoken' : ((s.attempted script).noted (s.calls + 1) total e).clock.cancelAt = none := by
        simp [State.noted, State.attempted, htoken]
      have htoken'' : (((s.attempted script).noted (s.calls + 1) total e).paused
          backoff).clock.cancelAt = none := by
        rw [State.paused, Clock.after_cancelAt, htoken']
      have hrest : Cuts script d
          (.ask (.pause backoff none) (afterPause none s.calls fun paused ↦
            attempts total backoff none more (s.calls + 1)
              ⟨spent.nanos + (script s.calls).duration.nanos + paused.nanos⟩))
          ((s.attempted script).noted (s.calls + 1) total e) :=
        cuts_pause htoken' hlt hends rfl fun hlt hends ↦ ih htoken'' hlt hends
      exact .ask hlt rfl rfl rfl rfl hrest

theorem cuts_loop_zero (n : Nat) (backoff : Duration) (script : Nat → Step ε α) :
    Cuts script .zero (loop n backoff none) (start none) := by
  have hfired : ((start none : State ε α).withToken .zero).clock.isCancelled = true := rfl
  have hnow : (start none : State ε α).clock.now = .zero := rfl
  rw [loop]
  cases max n 1 - 1 with
  | zero =>
    refine .fired hfired hnow ?_
    rfl
  | succ more =>
    refine .fired hfired hnow ?_
    rfl

/-- **What a token does.** On every timer, for every script of attempts and every token that does
not fire when one of the waits ends: if the loop left alone is over before the token fires, the
token changes nothing. Otherwise the loop says, at the instant at which the token fires, that it is
cancelled, and how many attempts it has started. These are the ones that it starts before that
instant if it is left alone, and it has noted what it has noted by then. -/
theorem runFired_truncates (n : Nat) (backoff : Duration) (script : Nat → Step ε α) (d : Duration)
    (hends : d ≠ .zero → d ∉ endings script (loop n backoff none) (start none)) :
    let p := loop n backoff none
    let s := start none
    let alone := runBare n backoff script none
    let fired := runFired n backoff script d
    runBare n backoff script (some d) = fired ∧
      (alone.2.clock.now.nanos < d.nanos →
        fired.1 = alone.1 ∧ fired.2 = alone.2.withToken d) ∧
      (d.nanos ≤ alone.2.clock.now.nanos →
        fired.1 = .error (.cancelled fired.2.calls) ∧ fired.2.clock.now = d) ∧
      starts script p (s.withToken d) = (starts script p s).filter (·.nanos < d.nanos) ∧
      fired.2.calls = (starts script p (s.withToken d)).length ∧
      fired.2.notes.reverse =
        ((acts script p s).filter (·.2.nanos < d.nanos)).filterMap (·.1.note?) := by
  intro p s alone fired
  have hcuts : Cuts script d p s := by
    by_cases hd : d = .zero
    · rw [hd]
      exact cuts_loop_zero n backoff script
    · have hpos : (0 : Nat) < d.nanos := Nat.pos_of_ne_zero fun h ↦ hd (congrArg Duration.mk h)
      exact cuts_attempts (s := s) rfl hpos (hends hd)
  refine ⟨runBare_some n backoff script d, fun hlt ↦ Prod.mk.inj (hcuts.early hlt), hcuts.late, ?_,
    ?_, ?_⟩
  · rw [starts_eq, starts_eq, hcuts.acts, List.filter_map, List.filter_filter, List.filter_filter]
    refine congrArg (List.map _) (List.filter_congr fun x _ ↦ ?_)
    exact Bool.and_comm _ _
  · exact (calls_run p (s.withToken d)).trans (Nat.zero_add _)
  · rw [← hcuts.acts]
    exact notes_run p (s.withToken d)

end

theorem runFired_truncates_pause :
    let _ : Timer := .exact
    let script : Nat → Step Unit Unit := fun _ ↦ ⟨some (.ofSeconds 1), .error ()⟩
    (runFired 3 (.ofSeconds 2) script (.ofSeconds 2)).1 = .error (.cancelled 1) ∧
      (runFired 3 (.ofSeconds 2) script (.ofSeconds 2)).2.clock.now = .ofSeconds 2 := by
  intro timer script
  have h := runFired_truncates 3 (.ofSeconds 2) script (.ofSeconds 2) fun _ ↦ by decide +kernel
  have hlate := h.2.2.1 (by decide +kernel)
  exact ⟨hlate.1.trans (by decide +kernel), hlate.2⟩

end Timeline

end Retry

end ContainerNet
