import ContainerNet.Proofs.Retry.Deadline
import Mathlib.Algebra.Ring.Nat

/-!
# The course of a retry loop

Left alone, the bare loop makes its attempts one after the other up to the first that succeeds, and
never more than it may. `runBare_course` says all there is to say about that: how many attempts
there are and which of them fail, what the loop answers, what it notes, and how long it takes.

## How long a wait is

A wait has no limit of its own here and nobody fires the token, so it ends by itself and has its
length (`Clock.lasting`). Where the loop has to give way first, that takes no time. So the time
between two attempts is the time that the loop sleeps, which is for the timer to say. On an exact
timer it is the pause of the policy, and an attempt takes as long as it is to take.
-/

namespace ContainerNet

/-! ## Waits that end by themselves -/

namespace Clock

variable {α : Type} {c : Clock} {length : Option Duration} {d : Duration} {a : α}

/-- How long something lasts that waits for `length`, if it waits at all. -/
def lasting (length : Option Duration) : Duration := length.getD .zero

/-- The clock when the run has given way, if it has to. -/
def rested (c : Clock) : Clock :=
  if c.allowance = 0 then { c with allowance := fullAllowance } else c

/-- The clock after something that waits for `length`, if nothing comes between. -/
def after (c : Clock) : (length : Option Duration) → Clock
  | none => c.rested
  | some length => c.rested.endAt (c.now.nanos + length.nanos)

@[simp] theorem rested_now (c : Clock) : c.rested.now = c.now := by
  rw [rested]
  split <;> rfl

@[simp] theorem rested_cancelAt (c : Clock) : c.rested.cancelAt = c.cancelAt := by
  rw [rested]
  split <;> rfl

@[simp] theorem after_cancelAt (c : Clock) (length : Option Duration) :
    (c.after length).cancelAt = c.cancelAt := by
  cases length with
  | none => exact c.rested_cancelAt
  | some length => exact c.rested_cancelAt

theorem after_now (c : Clock) (length : Option Duration) :
    (c.after length).now.nanos = c.now.nanos + (lasting length).nanos := by
  cases length with
  | none => exact congrArg Duration.nanos c.rested_now
  | some length => rfl

/-- Whether the token, if there is one, fires after now and not before something that begins now
and lasts so long is over. -/
def IsClearFor (c : Clock) (d : Duration) : Prop :=
  ∀ e ∈ c.cancelAt, c.now.nanos < e.nanos ∧ c.now.nanos + d.nanos ≤ e.nanos

theorem IsClearFor.of_none (h : c.cancelAt = none) (d : Duration) : c.IsClearFor d := by
  intro e he
  rw [h] at he
  exact absurd he (Option.not_mem_none e)

theorem isLive_of_lt (h : ∀ d ∈ c.cancelAt, c.now.nanos < d.nanos) : c.IsLive := by
  intro d hd
  have hlt := h d hd
  refine ⟨?_, Nat.le_of_lt hlt⟩
  rintro rfl
  exact Nat.not_lt_zero _ hlt

theorem IsClearFor.isLive (h : c.IsClearFor d) : c.IsLive :=
  isLive_of_lt fun e he ↦ (h e he).1

theorem giveWay_eq_rested (hlive : ∀ d ∈ c.cancelAt, c.now.nanos < d.nanos) :
    c.giveWay none = ((none : Option (Ending α)), c.rested) := by
  have hfired : c.cancelAt.any (·.nanos ≤ c.now.nanos) = false := by
    cases htoken : c.cancelAt with
    | none => rfl
    | some d => simpa using hlive d htoken
  rw [giveWay, rested]
  by_cases hallow : c.allowance = 0
  · simp [hallow, hfired]
  · simp [hallow]

/-- **A wait.** It ends by itself if the token does not fire before its end. -/
theorem await_eq_finished (h : c.IsClearFor (lasting length)) (a : α) :
    c.await none length none a = (.finished (lasting length) a, c.after length) := by
  rw [await, giveWay_eq_rested fun e he ↦ (h e he).1]
  cases length with
  | none => rfl
  | some length =>
    have htoken : ∀ d ∈ c.rested.cancelAt,
        c.rested.now.nanos + length.nanos ≤ d.nanos := by
      rw [rested_now, rested_cancelAt]
      exact fun e he ↦ (h e he).2
    exact (pass_eq_finished (by simp) htoken).trans (by rw [rested_now]; rfl)

/-- The token ends a wait if it fires before its end. -/
theorem exists_await_eq_cancelled (hcancel : c.cancelAt = some d) (hnow : c.now.nanos < d.nanos)
    (hend : d.nanos < c.now.nanos + (lasting length).nanos) (a : α) :
    ∃ c' : Clock, c.await none length none a = (.cancelled, c') ∧ c'.now = d := by
  have hlive : ∀ e ∈ c.cancelAt, c.now.nanos < e.nanos := by
    intro e he
    rw [hcancel] at he
    obtain rfl := Option.some.inj he
    exact hnow
  rw [await, giveWay_eq_rested hlive]
  cases length with
  | none =>
    -- what does not wait is over at once
    have hzero : (lasting none).nanos = 0 := rfl
    omega
  | some length =>
    refine ⟨_, pass_eq_cancelled (c.rested_cancelAt.trans hcancel) ?_ ?_ (by simp), rfl⟩
    · rw [rested_now]
      exact Nat.le_of_lt hnow
    · rw [rested_now]
      exact hend

end Clock

namespace Retry

namespace Timeline

variable {ε α : Type}

/-! ## One attempt and one pause -/

namespace Step

/-- How long an attempt is to take. -/
def length (step : Step ε α) : Duration := Clock.lasting step.takes

/-- Whether an attempt succeeds. -/
def Succeeds (step : Step ε α) : Prop := ∃ a, step.result = .ok a

/-- What the loop notes about an attempt, given its number and how many there may be. -/
def note? (step : Step ε α) (attempt attempts : Nat) : Option (Nat × Nat × ε) :=
  match step.result with
  | .ok _ => none
  | .error e => some (attempt, attempts, e)

theorem not_succeeds_iff {step : Step ε α} : ¬step.Succeeds ↔ ∃ e, step.result = .error e := by
  rw [Succeeds]
  cases step.result with
  | ok a => simp
  | error e => simp

end Step

section

variable [Timer] {script : Nat → Step ε α}

namespace Step

/-- How long an attempt takes. -/
def duration (step : Step ε α) : Duration := Clock.lasting step.waits

theorem duration_eq_length (hexact : Timer.IsExact) (step : Step ε α) :
    step.duration = step.length := by
  rw [duration, waits, length]
  cases step.takes with
  | none => rfl
  | some d => exact hexact d

end Step

namespace State

/-- The state after the next attempt, if nothing comes between. -/
def attempted (script : Nat → Step ε α) (s : State ε α) : State ε α :=
  { s with clock := s.clock.after (script s.calls).waits, calls := s.calls + 1 }

/-- The state after a note. -/
def noted (s : State ε α) (attempt attempts : Nat) (e : ε) : State ε α :=
  { s with notes := (attempt, attempts, e) :: s.notes }

/-- The state after a pause, if nothing comes between. -/
def paused (s : State ε α) (backoff : Duration) : State ε α :=
  { s with clock := s.clock.after (some (Timer.lasting backoff)) }

end State

variable {s : State ε α} {total made : Nat} {spent backoff : Duration} {within : Option Duration}

/-- An attempt before whose end the token does not fire. -/
theorem answer_attempt (h : s.clock.IsClearFor (script s.calls).duration) (earlier : Nat) :
    answer script (.attempt earlier none) s =
      (.finished (script s.calls).duration (script s.calls).result, s.attempted script) := by
  have hbefore : limitBefore earlier none = none := ite_self none
  rw [answer, hbefore, Clock.await_eq_finished h]
  rfl

/-- A pause before whose end the token does not fire. -/
theorem answer_pause (h : s.clock.IsClearFor (Timer.lasting backoff)) :
    answer script (.pause backoff none) s =
      (.finished (Timer.lasting backoff) (), s.paused backoff) := by
  have hlasting : Clock.lasting (some (Timer.lasting backoff)) = Timer.lasting backoff := rfl
  rw [← hlasting] at h ⊢
  rw [answer, Clock.await_eq_finished h]
  rfl

/-! ## What happens, request by request -/

/-- A request of a run, and the instants at which it is made and answered. -/
structure Deed (ε : Type) where
  request : Request ε
  asked : Duration
  answered : Duration

/-- All that happens in a run. -/
def history (script : Nat → Step ε α) : Loop ε α → State ε α → List (Deed ε)
  | .done _, _ => []
  | .ask q next, s =>
    ⟨q, s.clock.now, (answer script q s).2.clock.now⟩ ::
      history script (next (answer script q s).1) (answer script q s).2

/-- A run comes to where another one starts, and this is what happens until then. -/
structure Leads (script : Nat → Step ε α) (p : Loop ε α) (s : State ε α) (deeds : List (Deed ε))
    (p' : Loop ε α) (s' : State ε α) : Prop where
  run_eq : p.run (answer script) s = p'.run (answer script) s'
  history_eq : history script p s = deeds ++ history script p' s'

variable {p p' p'' : Loop ε α} {s' s'' t : State ε α} {deeds deeds' : List (Deed ε)}

theorem Leads.trans (h : Leads script p s deeds p' s') (h' : Leads script p' s' deeds' p'' s'') :
    Leads script p s (deeds ++ deeds') p'' s'' where
  run_eq := h.run_eq.trans h'.run_eq
  history_eq := by rw [h.history_eq, h'.history_eq, List.append_assoc]

theorem Leads.ask {q : Request ε} {f : Answer ε α q → Loop ε α} {a : Answer ε α q}
    (h : answer script q s = (a, t)) :
    Leads script (.ask q f) s [⟨q, s.clock.now, t.clock.now⟩] (f a) t where
  run_eq := by rw [Program.run_ask, h]
  history_eq := by rw [history, h, List.singleton_append]

/-- An attempt, for which the loop looks at the token first. -/
theorem leads_attempt (hlook : s.clock.isCancelled = false) {failed : Duration → ε → Loop ε α}
    {ending : Ending (Except ε α)} (h : answer script (.attempt made none) s = (ending, t)) :
    Leads script (attempt total none made spent failed) s
      [⟨.isCancelled, s.clock.now, s.clock.now⟩,
        ⟨.attempt made none, s.clock.now, t.clock.now⟩]
      (afterAttempt total none made failed ending) t := by
  have hanswer : answer script .isCancelled s = (false, s) := Prod.ext hlook rfl
  exact (Leads.ask hanswer).trans
    (Leads.ask (q := .attempt made none) (f := afterAttempt total none made failed) h)

theorem leads_succeeded (h : s.clock.IsClearFor (script s.calls).duration)
    (failed : Duration → ε → Loop ε α) {a : α} (ha : (script s.calls).result = .ok a) :
    Leads script (attempt total none made spent failed) s
      [⟨.isCancelled, s.clock.now, s.clock.now⟩,
        ⟨.attempt made none, s.clock.now, (s.attempted script).clock.now⟩]
      (.done (.ok a)) (s.attempted script) := by
  have hanswer : answer script (.attempt made none) s = _ := answer_attempt h made
  rw [ha] at hanswer
  exact leads_attempt h.isLive.isCancelled_eq_false hanswer

theorem leads_failed (h : s.clock.IsClearFor (script s.calls).duration)
    (failed : Duration → ε → Loop ε α) {e : ε} (he : (script s.calls).result = .error e) :
    Leads script (attempt total none made spent failed) s
      [⟨.isCancelled, s.clock.now, s.clock.now⟩,
        ⟨.attempt made none, s.clock.now, (s.attempted script).clock.now⟩,
        ⟨.note (made + 1) total e, (s.attempted script).clock.now,
          (s.attempted script).clock.now⟩]
      (failed (script s.calls).duration e) ((s.attempted script).noted (made + 1) total e) := by
  have hanswer : answer script (.attempt made none) s = _ := answer_attempt h made
  rw [he] at hanswer
  have hattempt : Leads script (attempt total none made spent failed) s _ _ _ :=
    leads_attempt h.isLive.isCancelled_eq_false hanswer
  exact hattempt.trans (Leads.ask (q := .note (made + 1) total e) (f := fun _ ↦ failed _ e) rfl)

theorem leads_paused (h : s.clock.IsClearFor (Timer.lasting backoff))
    (again : Duration → Loop ε α) :
    Leads script (.ask (.pause backoff (left none spent)) (afterPause none made again)) s
      [⟨.pause backoff none, s.clock.now, (s.paused backoff).clock.now⟩]
      (again (Timer.lasting backoff)) (s.paused backoff) :=
  Leads.ask (q := .pause backoff none) (f := afterPause none made again) (answer_pause h)

/-! ## The loop, left alone -/

/-- The number that the loop has counted to when it asks for an attempt. -/
def number? : Request ε → Option Nat
  | .attempt earlier _ => some (earlier + 1)
  | _ => none

/-- What the loop counts to, attempt by attempt. -/
def numbers (script : Nat → Step ε α) (p : Loop ε α) (s : State ε α) : List Nat :=
  (history script p s).filterMap (number? ·.request)

/-- A run goes through `m` attempts that fail, and then one more that succeeds or is the last. -/
structure Goes (script : Nat → Step ε α) (total : Nat) (backoff : Duration) (more m : Nat)
    (p : Loop ε α) (s : State ε α) : Prop where
  le : m ≤ more
  failed : ∀ i, s.calls ≤ i → i < s.calls + m → ¬(script i).Succeeds
  result : (∃ a, (script (s.calls + m)).result = .ok a ∧ (p.run (answer script) s).1 = .ok a) ∨
    (m = more ∧ ∃ e, (script (s.calls + m)).result = .error e ∧
      (p.run (answer script) s).1 = .error (.exhausted total e))
  calls : (p.run (answer script) s).2.calls = s.calls + (m + 1)
  notes : (p.run (answer script) s).2.notes.reverse = s.notes.reverse ++
    (List.range' s.calls (m + 1)).filterMap fun i ↦ (script i).note? (i + 1) total
  now : (p.run (answer script) s).2.clock.now.nanos = s.clock.now.nanos +
    ((List.range' s.calls (m + 1)).map fun i ↦ (script i).duration.nanos).sum +
    m * (Timer.lasting backoff).nanos
  numbers : numbers script p s = List.range' (s.calls + 1) (m + 1)

variable {more m : Nat}

/-- There is one attempt, and then the loop is over. -/
theorem goes_of_done {r : Except (Failure ε) α} (hleads : Leads script p s deeds (.done r) t)
    (hresult : (∃ a, (script s.calls).result = .ok a ∧ r = .ok a) ∨
      (0 = more ∧ ∃ e, (script s.calls).result = .error e ∧ r = .error (.exhausted total e)))
    (hcalls : t.calls = s.calls + 1)
    (hnotes : t.notes.reverse =
      s.notes.reverse ++ [s.calls].filterMap fun i ↦ (script i).note? (i + 1) total)
    (hnow : t.clock.now = (s.attempted script).clock.now)
    (hnumbers : deeds.filterMap (number? ·.request) = [s.calls + 1]) :
    Goes script total backoff more 0 p s := by
  have hrun : p.run (answer script) s = (r, t) := hleads.run_eq
  constructor
  case le => exact Nat.zero_le _
  case failed => exact fun i hle hlt ↦ absurd hlt (Nat.not_lt_of_le hle)
  case result =>
    rw [hrun]
    exact hresult
  case calls =>
    rw [hrun]
    exact hcalls
  case notes =>
    rw [hrun]
    exact hnotes
  case now =>
    rw [hrun, hnow]
    simp [State.attempted, Clock.after_now, Step.duration]
  case numbers =>
    rw [numbers, hleads.history_eq, List.filterMap_append, hnumbers]
    rfl

theorem goes_of_ok {failed : Duration → ε → Loop ε α} {a : α} (htoken : s.clock.cancelAt = none)
    (ha : (script s.calls).result = .ok a) :
    Goes script total backoff more 0 (attempt total none s.calls spent failed) s := by
  have hleads : Leads script (attempt total none s.calls spent failed) s _ _ _ :=
    leads_succeeded (.of_none htoken _) failed ha
  refine goes_of_done hleads (.inl ⟨a, ha, rfl⟩) rfl ?_ rfl rfl
  simp [Step.note?, ha, State.attempted]

theorem goes_of_exhausted {e : ε} (htoken : s.clock.cancelAt = none)
    (he : (script s.calls).result = .error e) :
    Goes script total backoff 0 0 (attempts total backoff none 0 s.calls spent) s := by
  have hleads : Leads script (attempts total backoff none 0 s.calls spent) s _ _ _ :=
    leads_failed (.of_none htoken _) _ he
  refine goes_of_done hleads (.inr ⟨rfl, e, he, rfl⟩) rfl ?_ rfl rfl
  simp [Step.note?, he, State.noted, State.attempted]

/-- The first attempt fails, and after a pause it goes on with the rest. -/
theorem Goes.again {e : ε} (htoken : s.clock.cancelAt = none)
    (he : (script s.calls).result = .error e)
    (hrest : Goes script total backoff more m (attempts total backoff none more (s.calls + 1)
        ⟨spent.nanos + (script s.calls).duration.nanos + (Timer.lasting backoff).nanos⟩)
      (((s.attempted script).noted (s.calls + 1) total e).paused backoff)) :
    Goes script total backoff (more + 1) (m + 1)
      (attempts total backoff none (more + 1) s.calls spent) s := by
  have htoken' : ((s.attempted script).noted (s.calls + 1) total e).clock.cancelAt = none := by
    simp [State.noted, State.attempted, htoken]
  have hleads : Leads script (attempts total backoff none (more + 1) s.calls spent) s _ _ _ :=
    (leads_failed (.of_none htoken _) _ he).trans (leads_paused (.of_none htoken' _) _)
  have hnote : (script s.calls).note? (s.calls + 1) total = some (s.calls + 1, total, e) := by
    rw [Step.note?, he]
  have hcalls : (((s.attempted script).noted (s.calls + 1) total e).paused backoff).calls =
    s.calls + 1 := rfl
  constructor
  case le => exact Nat.succ_le_succ hrest.le
  case failed =>
    intro i hle hlt
    rcases Nat.eq_or_lt_of_le hle with rfl | hle
    · exact Step.not_succeeds_iff.mpr ⟨e, he⟩
    · exact hrest.failed i hle (by rw [hcalls]; omega)
  case result =>
    have hresult := hrest.result
    rw [hcalls, Nat.add_right_comm] at hresult
    rw [hleads.run_eq]
    exact hresult.imp id (And.imp_left (congrArg (· + 1)))
  case calls =>
    rw [hleads.run_eq, hrest.calls, hcalls]
    omega
  case notes =>
    rw [hleads.run_eq, hrest.notes, hcalls, List.range'_succ (n := m + 1)]
    simp [State.paused, State.noted, State.attempted, hnote]
  case now =>
    rw [hleads.run_eq, hrest.now, hcalls, List.range'_succ (n := m + 1)]
    simp [State.paused, State.noted, State.attempted, Clock.after_now, Step.duration, Clock.lasting,
      Nat.add_mul]
    omega
  case numbers =>
    have hnumbers := hrest.numbers
    rw [Timeline.numbers, hcalls] at hnumbers
    rw [Timeline.numbers, hleads.history_eq, List.filterMap_append, hnumbers,
      List.range'_succ (n := m + 1)]
    simp [number?]

/-- By induction on the attempts that may follow. -/
theorem exists_goes (htoken : s.clock.cancelAt = none) :
    ∃ m, Goes script total backoff more m (attempts total backoff none more s.calls spent) s := by
  induction more generalizing s spent with
  | zero =>
    cases hresult : (script s.calls).result with
    | ok a => exact ⟨0, goes_of_ok htoken hresult⟩
    | error e => exact ⟨0, goes_of_exhausted htoken hresult⟩
  | succ more ih =>
    cases hresult : (script s.calls).result with
    | ok a => exact ⟨0, goes_of_ok htoken hresult⟩
    | error e =>
      have htoken' : (((s.attempted script).noted (s.calls + 1) total e).paused
          backoff).clock.cancelAt = none := by
        simp [State.paused, State.noted, State.attempted, htoken]
      obtain ⟨m, hrest⟩ := ih htoken'
      exact ⟨m + 1, .again htoken hresult hrest⟩

namespace Goes

theorem not_succeeds (h : Goes script total backoff more m p s) (hcalls : s.calls = 0) {i : Nat}
    (hi : i < m) : ¬(script i).Succeeds :=
  h.failed i (by omega) (by omega)

/-- The attempt that ends the run is the first that succeeds, if there is one in time. -/
theorem of_first_success (h : Goes script total backoff more m p s) (hcalls : s.calls = 0)
    {k : Nat} {a : α} (hk : (script k).result = .ok a) (hfirst : ∀ i < k, ¬(script i).Succeeds) :
    m = min k more ∧ (k ≤ more → (p.run (answer script) s).1 = .ok a) := by
  have hle := h.le
  have hresult := h.result
  rw [hcalls, Nat.zero_add] at hresult
  have hmk : m ≤ k := Nat.not_lt.mp fun hlt ↦ h.not_succeeds hcalls hlt ⟨a, hk⟩
  rcases hresult with ⟨b, hb, hend⟩ | ⟨rfl, e, he, -⟩
  · have hkm : k ≤ m := Nat.not_lt.mp fun hlt ↦ hfirst m hlt ⟨b, hb⟩
    obtain rfl : m = k := Nat.le_antisymm hmk hkm
    obtain rfl : b = a := Except.ok.inj (hb.symm.trans hk)
    exact ⟨(Nat.min_eq_left hle).symm, fun _ ↦ hend⟩
  · have hne : m ≠ k := by
      rintro rfl
      cases he.symm.trans hk
    have hlt : m < k := Nat.lt_of_le_of_ne hmk hne
    exact ⟨(Nat.min_eq_right hmk).symm, fun hkm ↦ absurd hkm (Nat.not_le_of_lt hlt)⟩

/-- If no attempt succeeds in time, all are made and the last one counts. -/
theorem of_no_success (h : Goes script total backoff more m p s) (hcalls : s.calls = 0)
    (hnone : ∀ i ≤ more, ¬(script i).Succeeds) : m = more ∧
      ∃ e, (script more).result = .error e ∧
        (p.run (answer script) s).1 = .error (.exhausted total e) := by
  have hresult := h.result
  rw [hcalls, Nat.zero_add] at hresult
  rcases hresult with ⟨b, hb, -⟩ | ⟨rfl, e, he, hend⟩
  · exact absurd ⟨b, hb⟩ (hnone m h.le)
  · exact ⟨rfl, e, he, hend⟩

end Goes

/-- **The course of the loop.** It attempts the operation up to the first success, `max n 1` times
at the most, and gives what that attempt gives; if none succeeds, it says how many it has made and
how the last of them failed. There is no attempt after one that succeeds, and a note for each that
fails, in order. On an exact timer the whole takes as long as the attempts and one pause between
each two of them. And what the loop counts to is a 32-bit number if `n` is. -/
theorem runBare_course (hexact : Timer.IsExact) (n : Nat) (backoff : Duration)
    (script : Nat → Step ε α) :
    let total := max n 1
    let atEnd := runBare n backoff script none
    let made := atEnd.2.calls
    (∀ k a, (script k).result = .ok a → (∀ i < k, ¬(script i).Succeeds) →
        made = min (k + 1) total ∧ (k < total → atEnd.1 = .ok a)) ∧
      ((∀ i < total, ¬(script i).Succeeds) → made = total ∧
        ∃ e, (script (total - 1)).result = .error e ∧ atEnd.1 = .error (.exhausted total e)) ∧
      (∀ i, i + 1 < made → ¬(script i).Succeeds) ∧
      atEnd.2.notes.reverse =
        (List.range made).filterMap (fun i ↦ (script i).note? (i + 1) total) ∧
      atEnd.2.clock.now.nanos = ((List.range made).map fun i ↦ (script i).length.nanos).sum +
        (made - 1) * backoff.nanos ∧
      numbers script (loop n backoff none) (start none) = List.range' 1 made ∧
      (n < UInt32.size →
        ∀ i ∈ numbers script (loop n backoff none) (start none), i < UInt32.size) := by
  intro total atEnd made
  obtain ⟨m, h⟩ : ∃ m, Goes script total backoff (total - 1) m (loop n backoff none) (start none) :=
    exists_goes (s := start none) rfl
  have htotal : 0 < total := Nat.le_max_right n 1
  have hcalls : (start (ε := ε) (α := α) none).calls = 0 := rfl
  have hmade : made = m + 1 := h.calls.trans (Nat.zero_add _)
  have hle : m ≤ total - 1 := h.le
  have hnumbers : numbers script (loop n backoff none) (start none) = List.range' 1 made := by
    rw [h.numbers, hmade, hcalls]
  refine ⟨fun k a hk hfirst ↦ ?_, fun hnone ↦ ?_, fun i hi ↦ h.not_succeeds hcalls (by omega), ?_,
    ?_, hnumbers, fun hn i hi ↦ ?_⟩
  · obtain ⟨hm, hend⟩ := h.of_first_success hcalls hk hfirst
    exact ⟨by omega, fun hlt ↦ hend (Nat.le_sub_one_of_lt hlt)⟩
  · obtain ⟨hm, hend⟩ := h.of_no_success hcalls fun i hi ↦ hnone i (by omega)
    exact ⟨by omega, hend⟩
  · have hnotes := h.notes
    rw [hcalls, ← List.range_eq_range', ← hmade] at hnotes
    exact hnotes
  · have hnow := h.now
    have hdurations : (fun i ↦ (script i).duration.nanos) = fun i ↦ (script i).length.nanos :=
      funext fun i ↦ by rw [Step.duration_eq_length hexact]
    have hpause : Timer.lasting backoff = backoff := hexact backoff
    rw [hcalls, ← List.range_eq_range', ← hmade, hdurations, hpause] at hnow
    have hsub : made - 1 = m := by omega
    rw [hsub]
    exact hnow.trans (congrArg (· + _) (Nat.zero_add _))
  · rw [hnumbers, List.mem_range'_1] at hi
    have hsize : 1 < UInt32.size := by decide
    omega

end

theorem runBare_course_pause :
    let _ : Timer := .exact
    let script : Nat → Step Unit Unit :=
      fun i ↦ ⟨some (.ofSeconds 1), if i = 0 then .error () else .ok ()⟩
    (runBare 3 (.ofSeconds 1000000000) script none).1 = .ok () ∧
      (runBare 3 (.ofSeconds 1000000000) script none).2.calls = 2 ∧
      (runBare 3 (.ofSeconds 1000000000) script none).2.clock.now.nanos =
        (Duration.ofSeconds 1000000002).nanos := by
  intro timer script
  obtain ⟨hfirst, -, -, -, hnow, -⟩ :=
    runBare_course (fun _ ↦ rfl) 3 (.ofSeconds 1000000000) script
  have hfails : ∀ i < 1, ¬(script i).Succeeds := by
    intro i hi
    obtain rfl := Nat.lt_one_iff.mp hi
    exact Step.not_succeeds_iff.mpr ⟨(), rfl⟩
  obtain ⟨hmade, hend⟩ := hfirst 1 () rfl hfails
  rw [show min (1 + 1) (max 3 1) = 2 from rfl] at hmade
  rw [hmade] at hnow
  refine ⟨hend (by decide), hmade, hnow.trans ?_⟩
  simp [script, Step.length, Clock.lasting, Duration.ofSeconds, List.range_succ]

end Timeline

end Retry

end ContainerNet
