import Mathlib.Tactic.Common
import ContainerNet.Retry.Timeline

/-!
# What a deadline does to a retry loop

A deadline is to cut the loop off and do nothing else. `run_truncates` compares the loop under a
policy with the bare loop, which has the same attempts, pauses and token but no deadline. If the
bare loop returns by the deadline the two are the same, notes and clock included; otherwise the loop
under the policy returns at the deadline, with the attempts that the bare loop has started by then.

There are two exceptions, both at the very instant of the deadline (`IsOvertaken`, `run_overtaken`).
If the token fires then while something is waited for, the deadline is seen first. And if the loop
has ended so many waits in one go that it has to give way, the deadline is seen while it does.

## The argument

Each wait of the one loop is compared with the same wait of the other, begun on the same clock
(`Clock.race_await`): both end alike, or the deadline cuts the one short while the other ends later
or is overtaken. Then the loops are compared request by request (`Truncates`).
-/

namespace ContainerNet

/-! ## One wait with a limit and without -/

namespace Clock

variable {α : Type} {c : Clock} {deadline length : Duration} {within : Option Duration} {a : α}

/-- The token, if there is one, fires after the start and not before now. -/
def IsLive (c : Clock) : Prop := ∀ d ∈ c.cancelAt, d ≠ .zero ∧ c.now.nanos ≤ d.nanos

theorem IsLive.isCancelled_eq_false (hc : c.IsLive) : c.isCancelled = false := by
  rw [isCancelled]
  cases htoken : c.cancelAt with
  | none => rfl
  | some d =>
    obtain ⟨hzero, hnow⟩ := hc d htoken
    have hnanos : d.nanos ≠ 0 := fun h ↦ hzero (congrArg Duration.mk h)
    simp [Duration.isZero, hnanos, hnow]

theorem isLive_start {cancelAt : Option Duration} (h : (start cancelAt).isCancelled = false) :
    (start cancelAt).IsLive := by
  intro d hd
  rw [isCancelled, hd, Option.any_some] at h
  refine ⟨?_, Nat.zero_le _⟩
  rintro rfl
  exact absurd h nofun

/-! ### How a wait ends -/

/-- A wait ends by itself if neither limit nor token come before. -/
theorem pass_eq_finished (hlimit : ∀ d ∈ within, length.nanos ≤ d.nanos)
    (htoken : ∀ d ∈ c.cancelAt, c.now.nanos + length.nanos ≤ d.nanos) :
    c.pass (some length) within a =
      (.finished length a, c.endAt (c.now.nanos + length.nanos)) := by
  have hcut : ((within.map fun d ↦ c.now.nanos + d.nanos).any
      (· < c.now.nanos + length.nanos)) = false := by
    cases within with
    | none => rfl
    | some d => simpa using hlimit d rfl
  have hfires : ((c.cancelAt.map fun d ↦ max c.now.nanos d.nanos).any
      (· < c.now.nanos + length.nanos)) = false := by
    cases h : c.cancelAt with
    | none => rfl
    | some d =>
      have hle := Nat.le_trans (htoken d h) (Nat.le_max_right c.now.nanos d.nanos)
      rw [Option.map_some, Option.any_some, decide_eq_false_iff_not]
      exact Nat.not_lt.mpr hle
  simp only [pass, hcut, hfires, Bool.false_eq_true, if_false]

/-- The token ends a wait if it fires before the end and before the limit. -/
theorem pass_eq_cancelled {d : Duration} (hcancel : c.cancelAt = some d)
    (hnow : c.now.nanos ≤ d.nanos) (hend : d.nanos < c.now.nanos + length.nanos)
    (hlimit : ∀ l ∈ within, d.nanos < c.now.nanos + l.nanos) :
    c.pass (some length) within a =
      (.cancelled, { c with now := d, allowance := fullAllowance }) := by
  have hmax : max c.now.nanos d.nanos = d.nanos := Nat.max_eq_right hnow
  cases within with
  | none => simp [pass, hcancel, hmax, hend]
  | some l =>
    have hl := hlimit l rfl
    by_cases hcut : l.nanos < length.nanos
    · simp [pass, hcancel, hmax, hcut, hl]
    · simp [pass, hcancel, hmax, hcut, hend]

/-- The limit ends a wait if it comes before the end and the token not before it. -/
theorem pass_eq_expired {d : Duration} (hend : d.nanos < length.nanos)
    (htoken : ∀ e ∈ c.cancelAt, c.now.nanos + d.nanos ≤ e.nanos) :
    c.pass (some length) (some d) a = (.expired, c.endAt (c.now.nanos + d.nanos)) := by
  cases hcancel : c.cancelAt with
  | none => simp [pass, hcancel, hend]
  | some e =>
    have he := Nat.le_trans (htoken e hcancel) (Nat.le_max_right c.now.nanos e.nanos)
    have hfires : decide (max c.now.nanos e.nanos < c.now.nanos + d.nanos) = false :=
      decide_eq_false (Nat.not_lt.mpr he)
    have hcut : decide (c.now.nanos + d.nanos < c.now.nanos + length.nanos) = true :=
      decide_eq_true (Nat.add_lt_add_left hend _)
    simp only [pass, hcancel, Option.map_some, Option.any_some, Option.getD_some, hcut, hfires,
      if_true, if_false, Bool.false_eq_true]

/-! ### How a deadline changes it -/

/-- How a wait under a deadline compares with the same wait without one. -/
inductive Race (c : Clock) (deadline : Duration) (a : α) :
    Ending α × Clock → Ending α × Clock → Prop
  /-- Both end by themselves. -/
  | finished (took : Duration) (c' : Clock) : (c.allowance = 0 → c.now ≠ deadline) →
    c'.now.nanos = c.now.nanos + took.nanos → c'.now.nanos ≤ deadline.nanos →
    c'.cancelAt = c.cancelAt → c'.IsLive →
    Race c deadline a (.finished took a, c') (.finished took a, c')
  /-- The token ends both before the deadline. -/
  | cancelled (c' : Clock) : (c.allowance = 0 → c.now ≠ deadline) →
    c'.now.nanos ≤ deadline.nanos → c'.cancelAt = c.cancelAt → c.cancelAt ≠ some deadline →
    Race c deadline a (.cancelled, c') (.cancelled, c')
  /-- The deadline cuts one short, and the other ends later. -/
  | late (c' c'' : Clock) (ending : Ending α) : c'.now = deadline →
    deadline.nanos < c''.now.nanos → Race c deadline a (.expired, c') (ending, c'')
  /-- The deadline cuts one short, and the token the other at the same instant. -/
  | token (c' c'' : Clock) : c'.now = deadline → c.cancelAt = some deadline →
    Race c deadline a (.expired, c') (.cancelled, c'')
  /-- The deadline comes while the run gives way. -/
  | gaveWay (c' c'' : Clock) (ending : Ending α) : c'.now = deadline → c.allowance = 0 →
    c.now = deadline → Race c deadline a (.expired, c') (ending, c'')

theorem race_pass (hc : c.IsLive) (hnow : c.now.nanos ≤ deadline.nanos)
    (hway : c.allowance = 0 → c.now ≠ deadline) (length : Option Duration) (a : α) :
    Race c deadline a (c.pass length (some ⟨deadline.nanos - c.now.nanos⟩) a)
      (c.pass length none a) := by
  cases length with
  | none => exact .finished .zero c hway rfl hnow rfl hc
  | some length =>
    have hlimit : c.now.nanos + (deadline.nanos - c.now.nanos) = deadline.nanos := by omega
    by_cases hcut : deadline.nanos < c.now.nanos + length.nanos
    · -- what ends the one wait is the deadline, unless the token comes before
      have hend : deadline.nanos - c.now.nanos < length.nanos := by omega
      have hexpired (h : ∀ e ∈ c.cancelAt, deadline.nanos ≤ e.nanos) :
          c.pass (some length) (some ⟨deadline.nanos - c.now.nanos⟩) a =
            (.expired, c.endAt deadline.nanos) := by
        rw [pass_eq_expired hend (hlimit.symm ▸ h), hlimit]
      cases hcancel : c.cancelAt with
      | none =>
        rw [hexpired (by simp [hcancel]), pass_eq_finished (by simp) (by simp [hcancel])]
        exact .late _ _ _ rfl hcut
      | some d =>
        obtain ⟨-, hd⟩ := hc d hcancel
        rcases Nat.lt_trichotomy d.nanos deadline.nanos with hlt | heq | hgt
        · rw [pass_eq_cancelled hcancel hd (by omega) (by simp [hlimit, hlt]),
            pass_eq_cancelled hcancel hd (by omega) (by simp)]
          refine .cancelled _ hway (Nat.le_of_lt hlt) rfl fun h ↦ ?_
          cases hcancel.symm.trans h
          omega
        · rw [hexpired (by simp [hcancel, heq]), pass_eq_cancelled hcancel hd (by omega) (by simp)]
          exact .token _ _ rfl (hcancel.trans (congrArg (some <| Duration.mk ·) heq))
        · have hexp := hexpired (by simpa [hcancel] using Nat.le_of_lt hgt)
          by_cases hfires : d.nanos < c.now.nanos + length.nanos
          · rw [hexp, pass_eq_cancelled hcancel hd hfires (by simp)]
            exact .late _ _ _ rfl hgt
          · rw [hexp, pass_eq_finished (by simp) (by simpa [hcancel] using hfires)]
            exact .late _ _ _ rfl hcut
    · have hend : length.nanos ≤ deadline.nanos - c.now.nanos := by omega
      by_cases hfires : ∃ d ∈ c.cancelAt, d.nanos < c.now.nanos + length.nanos
      · obtain ⟨d, hcancel, hfires⟩ := hfires
        obtain ⟨-, hd⟩ := hc d hcancel
        rw [pass_eq_cancelled hcancel hd hfires (by simp; omega),
          pass_eq_cancelled hcancel hd hfires (by simp)]
        refine .cancelled _ hway ?_ rfl fun h ↦ ?_
        · dsimp only
          omega
        · cases hcancel.symm.trans h
          omega
      · have htoken : ∀ d ∈ c.cancelAt, c.now.nanos + length.nanos ≤ d.nanos := by
          intro d hd
          by_contra hlt
          exact hfires ⟨d, hd, by omega⟩
        rw [pass_eq_finished (by simpa using hend) htoken, pass_eq_finished (by simp) htoken]
        exact .finished _ _ hway rfl (by simpa [endAt] using hcut) rfl
          fun d hd ↦ ⟨(hc d hd).1, htoken d hd⟩

/-- Giving way changes nothing about how a wait compares, unless it is at the deadline. -/
theorem Race.of_renewed {b b' : Ending α × Clock}
    (h : Race { c with allowance := fullAllowance } deadline a b b') (hway : c.now ≠ deadline) :
    Race c deadline a b b' := by
  cases h with
  | finished took c' _ htook hle hcancel hc' =>
    exact .finished took c' (fun _ ↦ hway) htook hle hcancel hc'
  | cancelled c' _ hle hcancel hne => exact .cancelled c' (fun _ ↦ hway) hle hcancel hne
  | late c' c'' ending hc' hc'' => exact .late c' c'' ending hc' hc''
  | token c' c'' hc' hcancel => exact .token c' c'' hc' hcancel
  | gaveWay c' c'' ending _ hnone _ => exact absurd hnone (show fullAllowance ≠ 0 by decide)

/-- **One wait.** The limit that counts while giving way is that of the wait, or the run need not
give way. -/
theorem race_await (hc : c.IsLive) (hnow : c.now.nanos ≤ deadline.nanos) {before : Option Duration}
    (hbefore : before = some ⟨deadline.nanos - c.now.nanos⟩ ∨ c.allowance ≠ 0)
    (length : Option Duration) (a : α) :
    Race c deadline a (c.await before length (some ⟨deadline.nanos - c.now.nanos⟩) a)
      (c.await none length none a) := by
  by_cases hallow : c.allowance ≠ 0
  · have hgo (before : Option Duration) : c.giveWay before = ((none : Option (Ending α)), c) := by
      simp [giveWay, hallow]
    rw [await, await, hgo, hgo]
    exact race_pass hc hnow (fun hnone ↦ absurd hnone hallow) length a
  · obtain rfl := hbefore.resolve_right hallow
    rw [not_not] at hallow
    by_cases hlast : c.now = deadline
    · have hover : c.giveWay (some ⟨deadline.nanos - c.now.nanos⟩) =
          (some (.expired : Ending α), c) := by
        simp [giveWay, hallow, hlast, Duration.isZero]
      rw [await, hover]
      exact .gaveWay _ _ _ hlast hallow hlast
    · have hlt : c.now.nanos < deadline.nanos :=
        Nat.lt_of_le_of_ne hnow fun h ↦ hlast (congrArg Duration.mk h)
      have hrenew (before : Option Duration) (h : before.any (·.isZero) = false) :
          c.giveWay before = ((if c.cancelAt.any (·.nanos ≤ c.now.nanos) then
            some (.cancelled : Ending α) else none), { c with allowance := fullAllowance }) := by
        simp [giveWay, hallow, h]
      have hleft : (some (⟨deadline.nanos - c.now.nanos⟩ : Duration)).any (·.isZero) = false := by
        simp [Duration.isZero]
        omega
      rw [await, await, hrenew _ hleft, hrenew none rfl]
      by_cases hfired : c.cancelAt.any (·.nanos ≤ c.now.nanos) = true
      · rw [if_pos hfired]
        refine .cancelled _ (fun _ ↦ hlast) hnow rfl fun h ↦ ?_
        rw [h, Option.any_some, decide_eq_true_eq] at hfired
        omega
      · rw [if_neg hfired]
        exact (race_pass (c := { c with allowance := fullAllowance }) hc hnow
          (fun _ ↦ hlast) length a).of_renewed hlast

/-! ### Time does not go back -/

theorem now_le_pass (c : Clock) (length within : Option Duration) (a : α) :
    c.now.nanos ≤ (c.pass length within a).2.now.nanos := by
  cases length with
  | none => exact Nat.le_refl _
  | some length =>
    have htoken : c.now.nanos ≤ ((c.cancelAt.map fun d ↦ max c.now.nanos d.nanos).getD
        (c.now.nanos + length.nanos)) := by
      cases c.cancelAt with
      | none => exact Nat.le_add_right _ _
      | some d => exact Nat.le_max_left _ _
    have hlimit : c.now.nanos ≤ ((within.map fun d ↦ c.now.nanos + d.nanos).getD
        (c.now.nanos + length.nanos)) := by
      cases within with
      | none => exact Nat.le_add_right _ _
      | some d => exact Nat.le_add_right _ _
    simp only [pass]
    split_ifs
    · exact htoken
    · exact hlimit
    · exact htoken
    · exact Nat.le_add_right c.now.nanos _

theorem now_giveWay (c : Clock) (within : Option Duration) :
    (c.giveWay within : Option (Ending α) × Clock).2.now = c.now := by
  rw [giveWay]
  split_ifs <;> rfl

theorem now_le_await (c : Clock) (before length within : Option Duration) (a : α) :
    c.now.nanos ≤ (c.await before length within a).2.now.nanos := by
  have hnow : (c.giveWay before : Option (Ending α) × Clock).2.now = c.now := now_giveWay c before
  rw [await]
  split
  next ending c' hway =>
    rw [hway] at hnow
    exact Nat.le_of_eq (congrArg Duration.nanos hnow.symm)
  next c' hway =>
    rw [hway] at hnow
    rw [← hnow]
    exact now_le_pass c' length within a

end Clock

/-! ## The loop with a deadline and without -/

namespace Retry

namespace Request

variable {ε : Type}

def isAttempt : Request ε → Bool
  | .attempt _ _ => true
  | _ => false

/-- Whether something is waited for. -/
def isWait : Request ε → Bool
  | .attempt _ _ | .pause _ _ => true
  | _ => false

end Request

namespace Timeline

/-! ### How the loop goes on -/

section

variable {ε α : Type}

/-- A run of the loop. -/
abbrev Loop (ε α : Type) := Program (Request ε) (Answer ε α) (Except (Failure ε) α)

/-- How the loop goes on when an attempt has ended. -/
def afterAttempt (total : Nat) (limit : Option Duration) (made : Nat)
    (failed : Duration → ε → Loop ε α) : Ending (Except ε α) → Loop ε α
  | .cancelled => .done (.error (.cancelled (made + 1)))
  | .expired => .done (.error (.deadline (limit.getD .zero)))
  | .finished _ (.ok a) => .done (.ok a)
  | .finished took (.error e) => .ask (.note (made + 1) total e) fun _ ↦ failed took e

/-- How the loop goes on when a pause has ended. -/
def afterPause (limit : Option Duration) (made : Nat) (again : Duration → Loop ε α) :
    Ending Unit → Loop ε α
  | .cancelled => .done (.error (.cancelled (made + 1)))
  | .expired => .done (.error (.deadline (limit.getD .zero)))
  | .finished paused () => again paused

theorem attempts_succ {backoff spent : Duration} {total made : Nat} (limit : Option Duration)
    (more : Nat) :
    (attempts total backoff limit (more + 1) made spent : Loop ε α) =
      attempt total limit made spent fun took _ ↦
        .ask (.pause backoff (left limit ⟨spent.nanos + took.nanos⟩))
          (afterPause limit made fun paused ↦ attempts total backoff limit more (made + 1)
            ⟨spent.nanos + took.nanos + paused.nanos⟩) := rfl

end

/-! ### What a run asks for -/

section

variable [Timer] {ε α β : Type} (script : Nat → Step ε α)

/-- What a run asks for, and the clock at that moment. -/
def trace : Program (Request ε) (Answer ε α) β → State ε α → List (Request ε × Clock)
  | .done _, _ => []
  | .ask q next, s => (q, s.clock) :: trace (next (answer script q s).1) (answer script q s).2

/-- The instants at which the attempts of a run start. -/
def starts (p : Program (Request ε) (Answer ε α) β) (s : State ε α) : List Duration :=
  ((trace script p s).filter (·.1.isAttempt)).map (·.2.now)

/-- Whether a run has to give way at an instant: it comes to a wait and may end no more of them. -/
def GivesWayAt (t : Duration) (p : Program (Request ε) (Answer ε α) β) (s : State ε α) : Prop :=
  ∃ x ∈ trace script p s, x.1.isWait = true ∧ x.2.allowance = 0 ∧ x.2.now = t

variable {script}

theorem now_le_answer (q : Request ε) (s : State ε α) :
    s.clock.now.nanos ≤ (answer script q s).2.clock.now.nanos := by
  cases q with
  | attempt earlier within => exact Clock.now_le_await _ _ _ _ _
  | pause length within => exact Clock.now_le_await _ _ _ _ _
  | isCancelled => exact Nat.le_refl _
  | note i n e => exact Nat.le_refl _

theorem now_le_run (p : Program (Request ε) (Answer ε α) β) (s : State ε α) :
    s.clock.now.nanos ≤ (p.run (answer script) s).2.clock.now.nanos := by
  induction p generalizing s with
  | done a => exact Nat.le_refl _
  | ask q next ih => exact Nat.le_trans (now_le_answer q s) (ih _ _)

theorem now_le_of_mem_trace {p : Program (Request ε) (Answer ε α) β} {s : State ε α}
    {x : Request ε × Clock} (hx : x ∈ trace script p s) : s.clock.now.nanos ≤ x.2.now.nanos := by
  induction p generalizing s with
  | done a => exact absurd hx List.not_mem_nil
  | ask q next ih =>
    rcases List.mem_cons.mp hx with rfl | hx
    · exact Nat.le_refl _
    · exact Nat.le_trans (now_le_answer q s) (ih _ hx)

theorem le_run_of_mem_trace {p : Program (Request ε) (Answer ε α) β} {s : State ε α}
    {x : Request ε × Clock} (hx : x ∈ trace script p s) :
    x.2.now.nanos ≤ (p.run (answer script) s).2.clock.now.nanos := by
  induction p generalizing s with
  | done a => exact absurd hx List.not_mem_nil
  | ask q next ih =>
    rcases List.mem_cons.mp hx with rfl | hx
    · exact now_le_run (.ask q next) s
    · exact ih _ hx

theorem now_le_of_mem_starts {p : Program (Request ε) (Answer ε α) β} {s : State ε α}
    {t : Duration} (ht : t ∈ starts script p s) : s.clock.now.nanos ≤ t.nanos := by
  obtain ⟨x, hx, rfl⟩ := List.mem_map.mp ht
  exact now_le_of_mem_trace (List.mem_filter.mp hx).1

theorem le_run_of_mem_starts {p : Program (Request ε) (Answer ε α) β} {s : State ε α}
    {t : Duration} (ht : t ∈ starts script p s) :
    t.nanos ≤ (p.run (answer script) s).2.clock.now.nanos := by
  obtain ⟨x, hx, rfl⟩ := List.mem_map.mp ht
  exact le_run_of_mem_trace (List.mem_filter.mp hx).1

variable {q : Request ε} {next : Answer ε α q → Program (Request ε) (Answer ε α) β}
  {s : State ε α} {t : Duration}

theorem starts_ask :
    starts script (.ask q next) s = (if q.isAttempt then [s.clock.now] else []) ++
      starts script (next (answer script q s).1) (answer script q s).2 := by
  rw [starts, trace, List.filter_cons]
  split_ifs <;> rfl

theorem givesWayAt_ask :
    GivesWayAt script t (.ask q next) s ↔
      (q.isWait = true ∧ s.clock.allowance = 0 ∧ s.clock.now = t) ∨
        GivesWayAt script t (next (answer script q s).1) (answer script q s).2 := by
  simp [GivesWayAt, trace]

theorem calls_run (p : Program (Request ε) (Answer ε α) β) (s : State ε α) :
    (p.run (answer script) s).2.calls = s.calls + (starts script p s).length := by
  induction p generalizing s with
  | done a => rfl
  | ask q next ih =>
    rw [Program.run_ask, ih, starts_ask, List.length_append, ← Nat.add_assoc]
    cases q <;> rfl

/-! ### The comparison -/

/-- The deadline overtakes a run that has none: at that very instant the token ends a wait, or the
run has to give way. -/
def IsOvertaken (script : Nat → Step ε α) (deadline : Duration) (p : Loop ε α) (s : State ε α) :
    Prop :=
  (s.clock.cancelAt = some deadline ∧ deadline ≠ .zero ∧
      ∃ made, (p.run (answer script) s).1 = .error (.cancelled made)) ∨
    GivesWayAt script deadline p s

/-- The first run is the second, but for the deadline that cuts it off. -/
structure Truncates (script : Nat → Step ε α) (deadline : Duration) (p q : Loop ε α)
    (s : State ε α) : Prop where
  inTime : (p.run (answer script) s).2.clock.now.nanos ≤ deadline.nanos
  same : (q.run (answer script) s).2.clock.now.nanos ≤ deadline.nanos →
    ¬IsOvertaken script deadline q s → p.run (answer script) s = q.run (answer script) s
  cut : deadline.nanos < (q.run (answer script) s).2.clock.now.nanos ∨
    IsOvertaken script deadline q s →
    (p.run (answer script) s).1 = .error (.deadline deadline) ∧
      (p.run (answer script) s).2.clock.now = deadline
  started : ∃ later, starts script q s = starts script p s ++ later ∧
    ∀ t ∈ later, deadline.nanos ≤ t.nanos ∧
      (¬GivesWayAt script deadline q s → deadline.nanos < t.nanos)

namespace Truncates

variable {deadline : Duration} {r r' : Request ε} {next : Answer ε α r → Loop ε α}
  {next' : Answer ε α r' → Loop ε α}

theorem done {result : Except (Failure ε) α} (hs : s.clock.now.nanos ≤ deadline.nanos)
    (htoken : ∀ made, result = .error (.cancelled made) → s.clock.cancelAt = some deadline →
      deadline = .zero) : Truncates script deadline (.done result) (.done result) s where
  inTime := hs
  same _ _ := rfl
  cut := by
    rintro (hlate | ⟨hcancel, hzero, made, hresult⟩ | ⟨x, hx, -⟩)
    · exact absurd hlate (Nat.not_lt_of_le hs)
    · exact absurd (htoken made hresult hcancel) hzero
    · exact absurd hx List.not_mem_nil
  started := ⟨[], rfl, by simp⟩

/-- Both ask for the same, up to a limit, and get the same answer. -/
theorem ask (hattempt : r.isAttempt = r'.isAttempt)
    (hway : r'.isWait = true → s.clock.allowance = 0 → s.clock.now ≠ deadline)
    (hstate : (answer script r s).2 = (answer script r' s).2)
    (hcancel : (answer script r' s).2.clock.cancelAt = s.clock.cancelAt)
    (h : Truncates script deadline (next (answer script r s).1) (next' (answer script r' s).1)
      (answer script r' s).2) :
    Truncates script deadline (.ask r next) (.ask r' next') s := by
  have hovertaken : IsOvertaken script deadline (.ask r' next') s ↔
      IsOvertaken script deadline (next' (answer script r' s).1) (answer script r' s).2 := by
    rw [IsOvertaken, IsOvertaken, givesWayAt_ask, hcancel, Program.run_ask]
    refine or_congr_right (or_iff_right ?_)
    rintro ⟨hwait, hnone, hnow⟩
    exact hway hwait hnone hnow
  have hgives : GivesWayAt script deadline (.ask r' next') s ↔
      GivesWayAt script deadline (next' (answer script r' s).1) (answer script r' s).2 := by
    rw [givesWayAt_ask]
    exact or_iff_right fun ⟨hwait, hnone, hnow⟩ ↦ hway hwait hnone hnow
  obtain ⟨later, hstarts, hlater⟩ := h.started
  refine ⟨?_, ?_, ?_, later, ?_, ?_⟩
  · rw [Program.run_ask, hstate]
    exact h.inTime
  · rw [Program.run_ask, Program.run_ask, hstate, hovertaken]
    exact h.same
  · rw [Program.run_ask, Program.run_ask, hstate, hovertaken]
    exact h.cut
  · rw [starts_ask, starts_ask, hstate, hattempt, hstarts, List.append_assoc]
  · rw [hgives]
    exact hlater

/-- The deadline cuts the first one off, and the second one goes on later or is overtaken. -/
theorem expired (hattempt : r.isAttempt = r'.isAttempt)
    (hnext : next (answer script r s).1 = .done (.error (.deadline deadline)))
    (hnow : (answer script r s).2.clock.now = deadline)
    (hbare : deadline.nanos < (answer script r' s).2.clock.now.nanos ∨
      (s.clock.cancelAt = some deadline ∧ deadline ≠ .zero ∧
        ∃ made, next' (answer script r' s).1 = .done (.error (.cancelled made))) ∨
      (r'.isWait = true ∧ s.clock.allowance = 0 ∧ s.clock.now = deadline)) :
    Truncates script deadline (.ask r next) (.ask r' next') s := by
  have hrun : (Program.ask r next).run (answer script) s =
      (.error (.deadline deadline), (answer script r s).2) := by
    rw [Program.run_ask, hnext, Program.run_done]
  refine ⟨?_, fun hle hnot ↦ ?_, fun _ ↦ ?_,
    starts script (next' (answer script r' s).1) (answer script r' s).2, ?_, ?_⟩
  · rw [hrun]
    exact Nat.le_of_eq (congrArg Duration.nanos hnow)
  · exfalso
    rcases hbare with hlate | ⟨hcancel, hzero, made, hdone⟩ | hway
    · have hlast : (answer script r' s).2.clock.now.nanos ≤ ((next' (answer script r' s).1).run
          (answer script) (answer script r' s).2).2.clock.now.nanos := now_le_run _ _
      rw [Program.run_ask] at hle
      omega
    · refine hnot (.inl ⟨hcancel, hzero, made, ?_⟩)
      rw [Program.run_ask, hdone, Program.run_done]
    · exact hnot (.inr (givesWayAt_ask.mpr (.inl hway)))
  · rw [hrun]
    exact ⟨rfl, hnow⟩
  · rw [starts_ask, starts_ask, hnext, hattempt]
    exact congrArg (· ++ _) (List.append_nil _).symm
  · intro t ht
    have hle := now_le_of_mem_starts ht
    rcases hbare with hlate | ⟨-, -, made, hdone⟩ | hway
    · exact ⟨by omega, fun _ ↦ by omega⟩
    · rw [hdone] at ht
      exact absurd ht List.not_mem_nil
    · have hge : s.clock.now.nanos ≤ (answer script r' s).2.clock.now.nanos := now_le_answer r' s
      rw [hway.2.2] at hge
      exact ⟨by omega, fun hnot ↦ absurd (givesWayAt_ask.mpr (.inl hway)) hnot⟩

/-- Both wait for the same, one of them under the deadline. -/
theorem wait {γ : Type} {a : γ} {b b' : Ending γ × Clock} {calls : Nat} {f g : Ending γ → Loop ε α}
    (hattempt : r.isAttempt = r'.isAttempt) (hwait : r'.isWait = true) (hlive : s.clock.IsLive)
    (hrace : Clock.Race s.clock deadline a b b')
    (hstate : (answer script r s).2 = { s with clock := b.2, calls })
    (hstate' : (answer script r' s).2 = { s with clock := b'.2, calls })
    (hnext : next (answer script r s).1 = f b.1) (hnext' : next' (answer script r' s).1 = g b'.1)
    (hexpired : f .expired = .done (.error (.deadline deadline))) {made : Nat}
    (hcancelled : f .cancelled = .done (.error (.cancelled made)))
    (hcancelled' : g .cancelled = .done (.error (.cancelled made)))
    (hfinished : ∀ (took : Duration) (c : Clock), c.IsLive →
      c.now.nanos = s.clock.now.nanos + took.nanos → c.now.nanos ≤ deadline.nanos →
      Truncates script deadline (f (.finished took a)) (g (.finished took a))
        { s with clock := c, calls }) :
    Truncates script deadline (.ask r next) (.ask r' next') s := by
  cases hrace with
  | finished took c hway htook hle hcancel hc =>
    refine .ask hattempt (fun _ ↦ hway) (hstate.trans hstate'.symm) ?_ ?_
    · rw [hstate']
      exact hcancel
    · rw [hnext, hnext', hstate']
      exact hfinished took c hc htook hle
  | cancelled c hway hle hcancel hne =>
    refine .ask hattempt (fun _ ↦ hway) (hstate.trans hstate'.symm) ?_ ?_
    · rw [hstate']
      exact hcancel
    · rw [hnext, hnext', hstate', hcancelled, hcancelled']
      exact .done hle fun _ _ h ↦ absurd (hcancel.symm.trans h) hne
  | late c c' ending hc hc' =>
    refine .expired hattempt (hnext.trans hexpired) ?_ (.inl ?_)
    · rw [hstate]
      exact hc
    · rw [hstate']
      exact hc'
  | token c c' hc hcancel =>
    refine .expired hattempt (hnext.trans hexpired) ?_
      (.inr (.inl ⟨hcancel, (hlive deadline hcancel).1, made, hnext'.trans hcancelled'⟩))
    rw [hstate]
    exact hc
  | gaveWay c c' ending hc hnone hnow =>
    refine .expired hattempt (hnext.trans hexpired) ?_ (.inr (.inr ⟨hwait, hnone, hnow⟩))
    rw [hstate]
    exact hc

end Truncates

/-! ### The loops -/

variable {deadline backoff spent : Duration} {total made : Nat}

theorem truncates_attempt {failed failed' : Duration → ε → Loop ε α} (hlive : s.clock.IsLive)
    (hspent : s.clock.now = spent) (hle : spent.nanos ≤ deadline.nanos)
    (hallow : made = 0 → s.clock.allowance ≠ 0)
    (hfailed : ∀ (took : Duration) (e : ε) (t : State ε α), t.clock.IsLive →
      t.clock.now = ⟨spent.nanos + took.nanos⟩ → t.clock.now.nanos ≤ deadline.nanos →
      Truncates script deadline (failed took e) (failed' took e) t) :
    Truncates script deadline (attempt total (some deadline) made spent failed)
      (attempt total none made spent failed') s := by
  subst hspent
  have hcancelled : (answer script .isCancelled s).1 = false := hlive.isCancelled_eq_false
  refine .ask rfl (fun h ↦ absurd h Bool.false_ne_true) rfl rfl ?_
  rw [hcancelled]
  have hbefore : limitBefore made (some ⟨deadline.nanos - s.clock.now.nanos⟩) =
      some ⟨deadline.nanos - s.clock.now.nanos⟩ ∨ s.clock.allowance ≠ 0 := by
    by_cases hmade : made = 0
    · exact .inr (hallow hmade)
    · exact .inl (if_neg hmade)
  have hrace : Clock.Race s.clock deadline (script s.calls).result
      (s.clock.await (limitBefore made (left (some deadline) s.clock.now)) (script s.calls).waits
        (left (some deadline) s.clock.now) (script s.calls).result)
      (s.clock.await (limitBefore made none) (script s.calls).waits none
        (script s.calls).result) := by
    rw [show limitBefore made none = none from ite_self _]
    exact Clock.race_await hlive hle hbefore _ _
  refine .wait (f := afterAttempt total (some deadline) made failed)
    (g := afterAttempt total none made failed') rfl rfl hlive hrace rfl rfl rfl rfl rfl rfl rfl
    fun took c hc htook hle ↦ ?_
  cases (script s.calls).result with
  | ok a => exact .done hle nofun
  | error e =>
    exact .ask rfl (fun h ↦ absurd h Bool.false_ne_true) rfl rfl
      (hfailed took e _ hc (congrArg Duration.mk htook) hle)

theorem truncates_pause {again again' : Duration → Loop ε α} (hlive : s.clock.IsLive)
    (hspent : s.clock.now = spent) (hle : s.clock.now.nanos ≤ deadline.nanos)
    (hagain : ∀ (paused : Duration) (t : State ε α), t.clock.IsLive →
      t.clock.now = ⟨spent.nanos + paused.nanos⟩ → t.clock.now.nanos ≤ deadline.nanos →
      Truncates script deadline (again paused) (again' paused) t) :
    Truncates script deadline
      (.ask (.pause backoff (left (some deadline) spent)) (afterPause (some deadline) made again))
      (.ask (.pause backoff (left none spent)) (afterPause none made again')) s := by
  subst hspent
  have hrace := Clock.race_await hlive hle (.inl rfl) (some (Timer.lasting backoff)) ()
  exact .wait (f := afterPause (some deadline) made again) (g := afterPause none made again') rfl
    rfl hlive hrace rfl rfl rfl rfl rfl rfl rfl
    fun paused _ hc hpaused hle ↦ hagain paused _ hc (congrArg Duration.mk hpaused) hle

/-- By induction on the attempts that may follow. -/
theorem truncates_attempts {more : Nat} (hlive : s.clock.IsLive) (hspent : s.clock.now = spent)
    (hle : spent.nanos ≤ deadline.nanos) (hallow : made = 0 → s.clock.allowance ≠ 0) :
    Truncates script deadline (attempts total backoff (some deadline) more made spent)
      (attempts total backoff none more made spent) s := by
  induction more generalizing made spent s with
  | zero =>
    rw [attempts, attempts]
    exact truncates_attempt hlive hspent hle hallow fun took e t _ _ hle ↦ .done hle nofun
  | succ more ih =>
    rw [attempts_succ, attempts_succ]
    refine truncates_attempt hlive hspent hle hallow fun took e t hc htook hle ↦ ?_
    refine truncates_pause hc htook hle fun paused u hcu hpaused hleu ↦ ?_
    exact ih hcu hpaused (hpaused ▸ hleu) fun hmade ↦ absurd hmade (Nat.succ_ne_zero made)

theorem truncates_fired {more : Nat} (hfired : s.clock.isCancelled = true)
    (hnow : s.clock.now = .zero) :
    Truncates script deadline (attempts total backoff (some deadline) more made spent)
      (attempts total backoff none more made spent) s := by
  have hcancelled : (answer script .isCancelled s).1 = true := hfired
  have hzero {d : Duration} (hcancel : s.clock.cancelAt = some d) : d = .zero := by
    rw [Clock.isCancelled, hcancel, hnow, Option.any_some] at hfired
    exact congrArg Duration.mk (by simpa [Duration.isZero, Duration.zero] using hfired)
  have hattempt (failed failed' : Duration → ε → Loop ε α) :
      Truncates script deadline (attempt total (some deadline) made spent failed)
        (attempt total none made spent failed') s := by
    refine .ask rfl (fun h ↦ absurd h Bool.false_ne_true) rfl rfl ?_
    rw [hcancelled]
    exact .done (hnow ▸ Nat.zero_le _) fun _ _ ↦ hzero
  cases more with
  | zero => exact hattempt _ _
  | succ more => exact hattempt _ _

/-- **What a deadline does.** For every policy, every script of attempts and every token, and on
every timer: the loop never takes longer than its deadline. If the bare loop returns by the
deadline, and the deadline does not overtake it, they are the same. Otherwise the loop returns at
the deadline and says so. The attempts that it starts are the first ones of the bare loop: all those
that start by the deadline, unless the bare loop gives way at that instant. -/
theorem run_truncates (p : RetryPolicy) (script : Nat → Step ε α) (cancelAt : Option Duration) :
    let s : State ε α := start cancelAt
    let bare : Loop ε α := loop p.attempts p.backoff none
    let limited : Loop ε α := Retry.run p
    let atEnd := run p script cancelAt
    let bareEnd := runBare p.attempts p.backoff script cancelAt
    atEnd.2.clock.now.nanos ≤ p.deadline.nanos ∧
      (bareEnd.2.clock.now.nanos ≤ p.deadline.nanos → ¬IsOvertaken script p.deadline bare s →
        atEnd = bareEnd) ∧
      (p.deadline.nanos < bareEnd.2.clock.now.nanos ∨ IsOvertaken script p.deadline bare s →
        atEnd.1 = .error (.deadline p.deadline) ∧ atEnd.2.clock.now = p.deadline) ∧
      atEnd.2.calls = (starts script limited s).length ∧
      starts script limited s <+: starts script bare s ∧
      (¬GivesWayAt script p.deadline bare s → starts script limited s =
        (starts script bare s).filter (·.nanos ≤ p.deadline.nanos)) := by
  intro s bare limited atEnd bareEnd
  have htruncates : Truncates script p.deadline limited bare s := by
    cases hfired : (Clock.start cancelAt).isCancelled with
    | true => exact truncates_fired hfired rfl
    | false =>
      exact truncates_attempts (Clock.isLive_start hfired) rfl (Nat.zero_le _)
        fun _ ↦ show Clock.fullAllowance ≠ 0 by decide
  obtain ⟨later, hstarts, hlater⟩ := htruncates.started
  refine ⟨htruncates.inTime, htruncates.same, htruncates.cut, ?_, ⟨later, hstarts.symm⟩, ?_⟩
  · exact (calls_run limited s).trans (Nat.zero_add _)
  · intro hnot
    have hearly : (starts script limited s).filter (·.nanos ≤ p.deadline.nanos) =
        starts script limited s := by
      refine List.filter_eq_self.mpr fun t ht ↦ decide_eq_true ?_
      exact Nat.le_trans (le_run_of_mem_starts ht) htruncates.inTime
    have hlate : later.filter (·.nanos ≤ p.deadline.nanos) = [] := by
      refine List.filter_eq_nil_iff.mpr fun t ht ↦ ?_
      rw [decide_eq_true_eq]
      exact Nat.not_le_of_lt ((hlater t ht).2 hnot)
    rw [hstarts, List.filter_append, hearly, hlate, List.append_nil]

end

/-- The two exceptions. A token that fires at the deadline of one second, in the middle of an
attempt, cancels the bare loop; and a bare loop that makes 129 attempts in no time gives way before
the last one. Under the policy both meet the deadline, at the same instant. -/
theorem run_overtaken :
    let _ : Timer := .exact
    let slow : Nat → Step Unit Unit := fun _ ↦ ⟨some (.ofSeconds 5), .error ()⟩
    let patient : RetryPolicy := { attempts := 1, deadline := .ofSeconds 1 }
    let cancelled := runBare patient.attempts patient.backoff slow (some (.ofSeconds 1))
    let failing : Nat → Step Unit Unit := fun _ ↦ ⟨none, .error ()⟩
    let eager : RetryPolicy := { attempts := 129, backoff := .zero, deadline := .zero }
    let exhausted := runBare eager.attempts eager.backoff failing none
    (cancelled.1 = .error (.cancelled 1) ∧ cancelled.2.clock.now = patient.deadline ∧
        (run patient slow (some (.ofSeconds 1))).1 = .error (.deadline patient.deadline)) ∧
      exhausted.1 = .error (.exhausted 129 ()) ∧ exhausted.2.clock.now = eager.deadline ∧
        (run eager failing none).1 = .error (.deadline eager.deadline) := by
  decide +kernel

end Timeline

end Retry

end ContainerNet
