import ContainerNet.Proofs.Configurator.KernelHandle
import ContainerNet.Sidecar.Crew

/-!
# Turns of workers

A worker goes on in one of five ways, each with one happening, or it is over. Lanes and crews let
workers go on in the same ways (`Lane.stepFirst_eq_some_iff`, `Stint.step_eq_some_iff`), so what is
known of a worker that goes on, `Worker.Goes`, holds in both.

Each way can be taken at certain stages only. `Worker.Advance` is the table of stages, and every
move is a row of it (`Worker.Goes.advance`).

Two facts about the end of a worker are read off the table: it gives its namespace back only when
nothing waits for it any more (`Advance.waiting_eq_nil`), and it is over when nothing comes any more
and it has given back what it had (`stage_of_over`).
-/

namespace ContainerNet.Sidecar

variable {t : Terms} {id : ContainerId} {isSealed : Bool} {m : Lane.Move}

/-! ## Going on -/

/-- The worker makes a move, becomes another one by it, and something is seen. -/
inductive Worker.Goes (t : Terms) (id : ContainerId) (isSealed : Bool) (w : Worker) :
    Lane.Move → Worker → Happening → Prop
  | begins {next : Worker} : w.turn t id isSealed = .begins next →
    Goes t id isSealed w .advance next (.opening w.netns)
  | takes {config : NetworkConfig} {next : Worker} : w.turn t id isSealed = .takes config next →
    Goes t id isSealed w .advance next (.took config)
  | reports {r : Report} {next : Worker} : w.turn t id isSealed = .reports r next →
    Goes t id isSealed w .advance next (.reported r)
  | opens {netns : String} {next : Outcome Unit → Worker} (result : Outcome Unit) :
    w.turn t id isSealed = .opens netns next →
    Goes t id isSealed w (.opened result) (next result) (.opened netns result)
  | acts {q : Effect} {next : q.Answer → Worker} (f : (q : Effect) → q.Answer) :
    w.turn t id isSealed = .acts q next →
    Goes t id isSealed w (.answered f) (next (f q)) (.acted q)

theorem Lane.stepFirst_eq_some_iff {l l' : Lane} {w : Worker} {seen : List Happening} :
    l.stepFirst t id m w isSealed = some (l', seen) ↔
      (w.turn t id isSealed = .over ∧ m = .advance ∧ l' = l.dropFirst ∧
        seen = [.reported (.released id)]) ∨
      ∃ w' h, w.Goes t id isSealed m w' h ∧ l' = l.setFirst w' ∧ seen = [h] := by
  constructor
  · intro h
    unfold stepFirst at h
    split at h
    next next hturn => obtain ⟨rfl, rfl⟩ := h; exact .inr ⟨_, _, .begins hturn, rfl, rfl⟩
    next config next hturn => obtain ⟨rfl, rfl⟩ := h; exact .inr ⟨_, _, .takes hturn, rfl, rfl⟩
    next r next hturn => obtain ⟨rfl, rfl⟩ := h; exact .inr ⟨_, _, .reports hturn, rfl, rfl⟩
    next hturn => obtain ⟨rfl, rfl⟩ := h; exact .inl ⟨hturn, rfl, rfl, rfl⟩
    next netns next result hturn =>
      obtain ⟨rfl, rfl⟩ := h; exact .inr ⟨_, _, .opens result hturn, rfl, rfl⟩
    next q next f hturn => obtain ⟨rfl, rfl⟩ := h; exact .inr ⟨_, _, .acts f hturn, rfl, rfl⟩
    next => exact absurd h nofun
  · rintro (⟨hturn, rfl, rfl, rfl⟩ | ⟨w', h, hgoes, rfl, rfl⟩)
    · unfold stepFirst
      rw [hturn]
    · unfold stepFirst
      cases hgoes with
      | begins hturn | takes hturn | reports hturn => rw [hturn]
      | opens result hturn | acts f hturn => rw [hturn]

theorem Stint.step_eq_some_iff {s s' : Stint} {seen : List Happening} :
    s.step t id m = some (s', seen) ↔
      s.isOver = false ∧
        ((s.worker.turn t id s.drain.isSome = .over ∧ m = .advance ∧
            s' = { s with isOver := true } ∧ seen = []) ∨
          ∃ w' h, s.worker.Goes t id s.drain.isSome m w' h ∧ s' = { s with worker := w' } ∧
            seen = [h]) := by
  constructor
  · intro h
    unfold step at h
    split at h
    · exact absurd h nofun
    next hover =>
      refine ⟨by simpa using hover, ?_⟩
      split at h
      next next hturn => obtain ⟨rfl, rfl⟩ := h; exact .inr ⟨_, _, .begins hturn, rfl, rfl⟩
      next config next hturn => obtain ⟨rfl, rfl⟩ := h; exact .inr ⟨_, _, .takes hturn, rfl, rfl⟩
      next r next hturn => obtain ⟨rfl, rfl⟩ := h; exact .inr ⟨_, _, .reports hturn, rfl, rfl⟩
      next hturn => obtain ⟨rfl, rfl⟩ := h; exact .inl ⟨hturn, rfl, rfl, rfl⟩
      next netns next result hturn =>
        obtain ⟨rfl, rfl⟩ := h; exact .inr ⟨_, _, .opens result hturn, rfl, rfl⟩
      next q next f hturn => obtain ⟨rfl, rfl⟩ := h; exact .inr ⟨_, _, .acts f hturn, rfl, rfl⟩
      next => exact absurd h nofun
  · rintro ⟨hover, ⟨hturn, rfl, rfl, rfl⟩ | ⟨w', h, hgoes, rfl, rfl⟩⟩
    · unfold step
      rw [if_neg (by simp [hover]), hturn]
    · unfold step
      rw [if_neg (by simp [hover])]
      cases hgoes with
      | begins hturn | takes hturn | reports hturn => rw [hturn]
      | opens result hturn | acts f hturn => rw [hturn]

/-! ## The stages of a worker -/

namespace Worker

variable {w w' : Worker} {h : Happening}

/-- What a worker does at each stage. -/
inductive Advance (t : Terms) (id : ContainerId) (isSealed : Bool) (w : Worker) :
    Worker → Happening → Prop
  | opening : w.stage = .fresh →
    Advance t id isSealed w { w with stage := .opening } (.opening w.netns)
  | opened : w.stage = .opening →
    Advance t id isSealed w { w with stage := .ready (w.configurator t id) }
      (.opened w.netns (.ok ()))
  | notOpened (why : Error) : w.stage = .opening →
    Advance t id isSealed w { w with stage := .refused why none } (.opened w.netns (.error why))
  | takeRefused {why : Error} {config : NetworkConfig} {rest : List NetworkConfig} :
    w.stage = .refused why none → w.waiting = config :: rest →
    Advance t id isSealed w { w with waiting := rest, stage := .refused why (some config) }
      (.took config)
  | refuse {why : Error} {config : NetworkConfig} : w.stage = .refused why (some config) →
    Advance t id isSealed w { w with stage := .refused why none }
      (.reported (w.refusal id config why))
  | take {c : Configurator} {config : NetworkConfig} {rest : List NetworkConfig} :
    w.stage = .ready c → w.waiting = config :: rest →
    Advance t id isSealed w { w with waiting := rest, stage := .busy config (c.configure config) }
      (.took config)
  | ask {config : NetworkConfig} {q : Effect}
      {next : q.Answer → Action (Outcome Unit × Configurator)} (answer : q.Answer) :
    w.stage = .busy config (.ask q next) →
    Advance t id isSealed w { w with stage := .busy config (next answer) } (.acted q)
  | report {config : NetworkConfig} {outcome : Outcome Unit} {c : Configurator} :
    w.stage = .busy config (.done (outcome, c)) →
    Advance t id isSealed w { w with stage := .ready c.takeWarnings.2 }
      (.reported (report id config outcome c))
  | close {c : Configurator} {q : Effect} {next : q.Answer → Action Configurator}
      (answer : q.Answer) : w.stage = .ready c → w.waiting = [] → isSealed = true →
      c.close = .ask q next →
    Advance t id isSealed w { w with stage := .closing (next answer) } (.acted q)
  | closing {q : Effect} {next : q.Answer → Action Configurator} (answer : q.Answer) :
    w.stage = .closing (.ask q next) →
    Advance t id isSealed w { w with stage := .closing (next answer) } (.acted q)

/-- A turn tells how the worker goes on, up to the answer that it gets. -/
theorem Goes.of_turn (hgoes : w.Goes t id isSealed m w' h) :
    match w.turn t id isSealed with
    | .begins next => w' = next ∧ h = .opening w.netns
    | .takes config next => w' = next ∧ h = .took config
    | .reports r next => w' = next ∧ h = .reported r
    | .opens netns next => ∃ result, w' = next result ∧ h = .opened netns result
    | .acts q next => ∃ answer, w' = next answer ∧ h = .acted q
    | .idle | .over => False := by
  cases hgoes with
  | begins hturn | takes hturn | reports hturn => rw [hturn]; exact ⟨rfl, rfl⟩
  | opens result hturn => rw [hturn]; exact ⟨result, rfl, rfl⟩
  | acts f hturn => rw [hturn]; exact ⟨_, rfl, rfl⟩

theorem Goes.advance (hgoes : w.Goes t id isSealed m w' h) : w.Advance t id isSealed w' h := by
  have hturn := hgoes.of_turn
  obtain ⟨netns, waiting, stage⟩ := w
  cases stage with
  | fresh =>
    obtain ⟨rfl, rfl⟩ := hturn
    exact .opening rfl
  | opening =>
    obtain ⟨result, rfl, rfl⟩ := hturn
    cases result with
    | error why => exact .notOpened why rfl
    | ok => exact .opened rfl
  | refused why inHand =>
    cases inHand with
    | some config =>
      obtain ⟨rfl, rfl⟩ := hturn
      exact .refuse rfl
    | none =>
      cases waiting with
      | cons config rest =>
        obtain ⟨rfl, rfl⟩ := hturn
        exact .takeRefused rfl rfl
      | nil => cases isSealed <;> exact hturn.elim
  | ready c =>
    cases waiting with
    | cons config rest =>
      obtain ⟨rfl, rfl⟩ := hturn
      exact .take rfl rfl
    | nil =>
      cases isSealed with
      | false => exact hturn.elim
      | true =>
        cases hclose : c.close with
        | done c' =>
          simp only [turn, close, hclose, if_true] at hturn
        | ask q next =>
          simp only [turn, close, hclose, if_true] at hturn
          obtain ⟨answer, rfl, rfl⟩ := hturn
          exact .close answer rfl rfl rfl hclose
  | busy config work =>
    cases work with
    | done result =>
      obtain ⟨rfl, rfl⟩ := hturn
      exact .report rfl
    | ask q next =>
      obtain ⟨answer, rfl, rfl⟩ := hturn
      exact .ask answer rfl
  | closing work =>
    cases work with
    | done c => exact hturn.elim
    | ask q next =>
      obtain ⟨answer, rfl, rfl⟩ := hturn
      exact .closing answer rfl

/-- The worker gives its namespace back. It does so only when it is let go. -/
def isClosing (w : Worker) : Bool :=
  match w.stage with
  | .closing _ => true
  | _ => false

theorem Advance.isClosing_eq (hadvance : w.Advance t id false w' h) (hw : w.isClosing = false) :
    w'.isClosing = false := by
  cases hadvance with
  | close answer hstage hwaiting hsealed => exact absurd hsealed nofun
  | closing answer hstage =>
    rw [isClosing, hstage] at hw
    exact absurd hw nofun
  | _ => rfl

theorem Advance.waiting_eq_nil (hadvance : w.Advance t id isSealed w' h)
    (hw : w.isClosing = true → w.waiting = []) (hclosing : w'.isClosing = true) :
    w'.waiting = [] := by
  cases hadvance with
  | close answer hstage hwaiting => exact hwaiting
  | closing answer hstage => exact hw (by rw [isClosing, hstage])
  | _ => exact absurd hclosing nofun

theorem stage_of_over (hover : w.turn t id isSealed = .over) :
    (∃ why, w.stage = .refused why none ∧ w.waiting = [] ∧ isSealed = true) ∨
      (∃ c c', w.stage = .ready c ∧ w.waiting = [] ∧ isSealed = true ∧ c.close = .done c') ∨
      ∃ c, w.stage = .closing (.done c) := by
  obtain ⟨netns, waiting, stage⟩ := w
  cases stage with
  | fresh | opening => exact absurd hover nofun
  | refused why inHand =>
    cases inHand with
    | some config => exact absurd hover nofun
    | none =>
      cases waiting with
      | cons config rest => exact absurd hover nofun
      | nil =>
        cases isSealed with
        | false => exact absurd hover nofun
        | true => exact .inl ⟨why, rfl, rfl, rfl⟩
  | ready c =>
    cases waiting with
    | cons config rest => exact absurd hover nofun
    | nil =>
      cases isSealed with
      | false => exact absurd hover nofun
      | true =>
        cases hclose : c.close with
        | done c' => exact .inr (.inl ⟨c, c', rfl, rfl, rfl, hclose⟩)
        | ask q next =>
          simp only [turn, close, hclose, if_true] at hover
          exact absurd hover nofun
  | busy config work => cases work <;> exact absurd hover nofun
  | closing work =>
    cases work with
    | done c => exact .inr (.inr ⟨c, rfl⟩)
    | ask q next => exact absurd hover nofun

end Worker

end ContainerNet.Sidecar
