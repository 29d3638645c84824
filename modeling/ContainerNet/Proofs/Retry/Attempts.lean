import ContainerNet.Retry
import ContainerNet.Proofs.Program.Ends

/-!
# The retry loop in any environment

The loop stops at the first attempt that succeeds, so of the attempts it makes at most the last one
does. `ends_attempts` turns this into a rule: a property that everything but a successful attempt
keeps holds when the loop fails, and what a successful attempt makes of it holds when the loop
succeeds.

`P` and `R` are properties of the states of any environment, so the rule covers whatever an attempt
does to its world. Deadlines and pauses play no part in it: a wait is a request like others, and if
it is cut short the loop fails with `P` still in force. At the end there is the case in which the
first attempt cannot but succeed, where nothing of the loop remains.
-/

namespace ContainerNet

namespace Retry

variable {ε α σ : Type}

/-- What is left of a property `P` of states when the loop ends with a result. -/
def Leaves (P : σ → Prop) (R : α → σ → Prop) {δ : Type} : Except δ α → σ → Prop
  | .ok a, s => R a s
  | .error _, s => P s

/-- An environment in which all that the loop asks for keeps `P`, but for an attempt that succeeds,
which leads to `R`. -/
structure Keeps (env : (q : Request ε) → Answer ε α q → σ → σ → Prop) (P : σ → Prop)
    (R : α → σ → Prop) : Prop where
  isCancelled : ∀ (answer : Bool) (s t : σ), env .isCancelled answer s t → P s → P t
  finished : ∀ (earlier : Nat) (within : Option Duration) (took : Duration) (result : Except ε α)
    (s t : σ), env (.attempt earlier within) (.finished took result : Ending (Except ε α)) s t →
    P s → Leaves P R result t
  cancelled : ∀ (earlier : Nat) (within : Option Duration) (s t : σ),
    env (.attempt earlier within) (.cancelled : Ending (Except ε α)) s t → P s → P t
  expired : ∀ (earlier : Nat) (within : Option Duration) (s t : σ),
    env (.attempt earlier within) (.expired : Ending (Except ε α)) s t → P s → P t
  pause : ∀ (length : Duration) (within : Option Duration) (answer : Ending Unit) (s t : σ),
    env (.pause length within) answer s t → P s → P t
  note : ∀ (attempt attempts : Nat) (error : ε) (answer : Unit) (s t : σ),
    env (.note attempt attempts error) answer s t → P s → P t

variable {env : (q : Request ε) → Answer ε α q → σ → σ → Prop} {P : σ → Prop} {R : α → σ → Prop}

/-- One attempt: a result that it gives by itself is as it should be, and after a failure `P` still
holds where it goes on. -/
theorem ends_attempt (henv : Keeps env P R) {total : Nat} {limit : Option Duration} {made : Nat}
    {spent : Duration}
    {failed : Duration → ε → Program (Request ε) (Answer ε α) (Except (Failure ε) α)} {s t : σ}
    {result : Except (Failure ε) α}
    (h : (attempt total limit made spent failed).Ends env s result t) (hs : P s) :
    Leaves P R result t ∨ ∃ took e u, P u ∧ (failed took e).Ends env u result t := by
  rw [attempt] at h
  obtain ⟨cancelled, u, hu, h⟩ := h
  dsimp only at h
  have hPu := henv.isCancelled _ _ _ hu hs
  split at h
  · obtain ⟨rfl, rfl⟩ := h
    exact .inl hPu
  · obtain ⟨ending, v, hv, h⟩ := h
    dsimp only at h
    split at h
    · obtain ⟨rfl, rfl⟩ := h
      exact .inl (henv.cancelled _ _ _ _ hv hPu)
    · obtain ⟨rfl, rfl⟩ := h
      exact .inl (henv.expired _ _ _ _ hv hPu)
    · obtain ⟨rfl, rfl⟩ := h
      exact .inl (henv.finished _ _ _ _ _ _ hv hPu)
    · obtain ⟨_, w, hw, h⟩ := h
      have hPw := henv.note _ _ _ _ _ _ hw (henv.finished _ _ _ _ _ _ hv hPu)
      exact .inr ⟨_, _, w, hPw, h⟩

/-- **The loop.** By induction on the attempts that may follow. -/
theorem ends_attempts (henv : Keeps env P R) {total : Nat} {backoff : Duration}
    {limit : Option Duration} {more made : Nat} {spent : Duration} {s t : σ}
    {result : Except (Failure ε) α}
    (h : (attempts total backoff limit more made spent).Ends env s result t) (hs : P s) :
    Leaves P R result t := by
  induction more generalizing made spent s with
  | zero =>
    rw [attempts] at h
    obtain hdone | ⟨took, e, u, hPu, rfl, rfl⟩ := ends_attempt henv h hs
    · exact hdone
    · exact hPu
  | succ more ih =>
    rw [attempts] at h
    obtain hdone | ⟨took, e, u, hPu, answer, v, hv, h⟩ := ends_attempt henv h hs
    · exact hdone
    · have hPv := henv.pause _ _ _ _ _ hv hPu
      dsimp only at h
      split at h
      · obtain ⟨rfl, rfl⟩ := h
        exact hPv
      · obtain ⟨rfl, rfl⟩ := h
        exact hPv
      · exact ih h hPv

theorem ends_run (henv : Keeps env P R) {p : RetryPolicy} {s t : σ}
    {result : Except (Failure ε) α} (h : (run p).Ends env s result t) (hs : P s) :
    Leaves P R result t :=
  ends_attempts henv h hs

/-! ## A first attempt that succeeds -/

/-- Where nothing is cancelled and every attempt succeeds, one attempt is all there is. -/
theorem ends_attempt_ok
    (hcancelled : ∀ (answer : Bool) (s t : σ), env .isCancelled answer s t → answer = false)
    (hattempt : ∀ (earlier : Nat) (within : Option Duration) (answer : Ending (Except ε α))
      (s t : σ), env (.attempt earlier within) answer s t →
        ∃ took a, answer = .finished took (.ok a))
    {total : Nat} {limit : Option Duration} {made : Nat} {spent : Duration}
    {failed : Duration → ε → Program (Request ε) (Answer ε α) (Except (Failure ε) α)} {s t : σ}
    {result : Except (Failure ε) α}
    (h : (attempt total limit made spent failed).Ends env s result t) : ∃ a, result = .ok a := by
  obtain ⟨cancelled, u, hu, h⟩ := h
  rw [hcancelled _ _ _ hu] at h
  obtain ⟨ending, v, hv, h⟩ := h
  obtain ⟨took, a, rfl⟩ := hattempt _ _ _ _ _ hv
  exact ⟨a, h.1⟩

theorem ends_run_ok
    (hcancelled : ∀ (answer : Bool) (s t : σ), env .isCancelled answer s t → answer = false)
    (hattempt : ∀ (earlier : Nat) (within : Option Duration) (answer : Ending (Except ε α))
      (s t : σ), env (.attempt earlier within) answer s t →
        ∃ took a, answer = .finished took (.ok a))
    {p : RetryPolicy} {s t : σ} {result : Except (Failure ε) α}
    (h : (run p).Ends env s result t) : ∃ a, result = .ok a := by
  rw [run, loop] at h
  -- whether or not more attempts may follow, the first one decides
  cases hmore : max p.attempts 1 - 1 with
  | zero =>
    rw [hmore, attempts] at h
    exact ends_attempt_ok hcancelled hattempt h
  | succ more =>
    rw [hmore, attempts] at h
    exact ends_attempt_ok hcancelled hattempt h

end Retry

end ContainerNet
