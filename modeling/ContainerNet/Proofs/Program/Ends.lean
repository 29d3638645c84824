import ContainerNet.Program

/-!
# What a program can end in

An environment says which answers a request may get in a state, and what becomes of the state. It
need not fix the answer, so one environment covers every world that answers within its bounds, and
a statement about all ends of a program in it is a statement about all those worlds.

`Ends` is defined by recursion over the program and taken apart with `ends_bind`, so the ends of a
composed program are found from those of its parts. `Only` says of a program that it makes requests
of one sort alone; a property of states that such requests keep is kept by the whole program.
-/

namespace ContainerNet

namespace Program

variable {Q : Type} {A : Q → Type} {α β σ : Type}

/-- The program, begun in a state, can end with a result in a state. -/
def Ends (env : (q : Q) → A q → σ → σ → Prop) : Program Q A α → σ → α → σ → Prop
  | .done a, s, b, t => b = a ∧ t = s
  | .ask q next, s, b, t => ∃ answer u, env q answer s u ∧ (next answer).Ends env u b t

variable {env : (q : Q) → A q → σ → σ → Prop} {s t : σ}

@[simp] theorem ends_done {a b : α} :
    (done a : Program Q A α).Ends env s b t ↔ b = a ∧ t = s := Iff.rfl

theorem ends_done_pair {a a' : α} {b b' : β} :
    (done (a, b) : Program Q A (α × β)).Ends env s (a', b') t ↔ a' = a ∧ b' = b ∧ t = s := by
  rw [ends_done, Prod.mk.injEq, and_assoc]

@[simp] theorem ends_ask {q : Q} {next : A q → Program Q A α} {b : α} :
    (ask q next).Ends env s b t ↔
      ∃ answer u, env q answer s u ∧ (next answer).Ends env u b t := Iff.rfl

@[simp] theorem ends_request {q : Q} {answer : A q} :
    (request q : Program Q A (A q)).Ends env s answer t ↔ env q answer s t := by
  rw [request, ends_ask]
  constructor
  · rintro ⟨_, _, henv, rfl, rfl⟩
    exact henv
  · intro henv
    exact ⟨answer, t, henv, rfl, rfl⟩

theorem ends_bind (p : Program Q A α) (f : α → Program Q A β) {b : β} :
    (p.bind f).Ends env s b t ↔ ∃ a u, p.Ends env s a u ∧ (f a).Ends env u b t := by
  induction p generalizing s with
  | done a =>
    constructor
    · intro h
      exact ⟨a, s, ⟨rfl, rfl⟩, h⟩
    · rintro ⟨_, _, ⟨rfl, rfl⟩, h⟩
      exact h
  | ask q next ih =>
    constructor
    · rintro ⟨answer, u, henv, h⟩
      obtain ⟨a, v, hp, hf⟩ := (ih answer).mp h
      exact ⟨a, v, ⟨answer, u, henv, hp⟩, hf⟩
    · rintro ⟨a, v, ⟨answer, u, henv, hp⟩, hf⟩
      exact ⟨answer, u, henv, (ih answer).mpr ⟨a, v, hp, hf⟩⟩

/-- With a program in place of each request, the requests of that program meet the environment. -/
theorem ends_expand {R : Type} {B : R → Type} {env : (r : R) → B r → σ → σ → Prop}
    (f : (q : Q) → Program R B (A q)) (p : Program Q A α) {b : α} :
    (p.expand f).Ends env s b t ↔ p.Ends (fun q answer s t ↦ (f q).Ends env s answer t) s b t := by
  induction p generalizing s with
  | done a => exact Iff.rfl
  | ask q next ih =>
    rw [expand, ends_bind, ends_ask]
    exact exists_congr fun answer ↦ exists_congr fun u ↦ and_congr_right fun _ ↦ ih answer

/-- Something that answers each request within the bounds of an environment leads to an end. -/
theorem ends_run (answer : (q : Q) → σ → A q × σ)
    (h : ∀ q s, env q (answer q s).1 s (answer q s).2) (p : Program Q A α) (s : σ) :
    p.Ends env s (p.run answer s).1 (p.run answer s).2 := by
  induction p generalizing s with
  | done a => exact ⟨rfl, rfl⟩
  | ask q next ih => exact ⟨_, _, h q s, ih _ _⟩

/-- An environment that one sees only in part bounds what can be seen of the ends. -/
theorem Ends.map {τ : Type} {env' : (q : Q) → A q → τ → τ → Prop} (f : σ → τ)
    (henv : ∀ q answer s t, env q answer s t → env' q answer (f s) (f t)) {p : Program Q A α}
    {b : α} (h : p.Ends env s b t) : p.Ends env' (f s) b (f t) := by
  induction p generalizing s with
  | done a =>
    obtain ⟨rfl, rfl⟩ := h
    exact ⟨rfl, rfl⟩
  | ask q next ih =>
    obtain ⟨answer, u, hq, hnext⟩ := h
    exact ⟨answer, f u, henv q answer s u hq, ih answer hnext⟩

/-! ## Programs with requests of one sort -/

/-- All requests of the program, whatever the answers, are of one sort. -/
def Only (P : Q → Prop) : Program Q A α → Prop
  | .done _ => True
  | .ask q next => P q ∧ ∀ answer, (next answer).Only P

variable {P : Q → Prop}

@[simp] theorem only_done {a : α} : (done a : Program Q A α).Only P := trivial

@[simp] theorem only_ask {q : Q} {next : A q → Program Q A α} :
    (ask q next).Only P ↔ P q ∧ ∀ answer, (next answer).Only P := Iff.rfl

theorem Only.bind {p : Program Q A α} {f : α → Program Q A β} (hp : p.Only P)
    (hf : ∀ a, (f a).Only P) : (p.bind f).Only P := by
  induction p with
  | done a => exact hf a
  | ask q next ih => exact ⟨hp.1, fun answer ↦ ih answer (hp.2 answer)⟩

theorem Only.mono {P' : Q → Prop} (h : ∀ q, P q → P' q) {p : Program Q A α} (hp : p.Only P) :
    p.Only P' := by
  induction p with
  | done a => exact only_done
  | ask q next ih => exact ⟨h q hp.1, fun answer ↦ ih answer (hp.2 answer)⟩

theorem Only.expand {R : Type} {B : R → Type} {P : R → Prop} {f : (q : Q) → Program R B (A q)}
    (hf : ∀ q, (f q).Only P) (p : Program Q A α) : (p.expand f).Only P := by
  induction p with
  | done a => exact only_done
  | ask q next ih => exact (hf q).bind ih

/-- **Invariants.** What every request of the sort keeps, the program keeps. -/
theorem Ends.invariant {I : σ → Prop} {p : Program Q A α} {b : α} (hp : p.Only P)
    (hI : ∀ q answer s t, P q → env q answer s t → I s → I t)
    (h : p.Ends env s b t) (hs : I s) : I t := by
  induction p generalizing s with
  | done a =>
    obtain ⟨-, rfl⟩ := h
    exact hs
  | ask q next ih =>
    obtain ⟨answer, u, henv, hnext⟩ := h
    exact ih answer (hp.2 answer) hnext (hI q answer s u hp.1 henv hs)

/-- A program with requests of one sort ends as in an environment that has no others. -/
theorem Ends.restrict {p : Program Q A α} {b : α} (hp : p.Only P) (h : p.Ends env s b t) :
    p.Ends (fun q answer s t ↦ P q ∧ env q answer s t) s b t := by
  induction p generalizing s with
  | done a => exact h
  | ask q next ih =>
    obtain ⟨answer, u, henv, hnext⟩ := h
    exact ⟨answer, u, ⟨hp.1, henv⟩, ih answer (hp.2 answer) hnext⟩

/-! ## What a program returns -/

/-- Every result of the program has a property, in whatever state it begins. -/
def Returns (env : (q : Q) → A q → σ → σ → Prop) (G : α → Prop) (p : Program Q A α) : Prop :=
  ∀ ⦃s : σ⦄ ⦃a : α⦄ ⦃t : σ⦄, p.Ends env s a t → G a

variable {G : α → Prop} {H : β → Prop}

theorem returns_done {a : α} (h : G a) : (done a : Program Q A α).Returns env G := by
  rintro s _ t ⟨rfl, -⟩
  exact h

theorem returns_ask {q : Q} {next : A q → Program Q A α}
    (h : ∀ answer s t, env q answer s t → (next answer).Returns env G) :
    (ask q next).Returns env G := by
  rintro s a t ⟨answer, u, henv, hnext⟩
  exact h answer s u henv hnext

theorem returns_true (p : Program Q A α) : p.Returns env fun _ ↦ True := fun _ _ _ _ ↦ trivial

theorem Returns.bind {p : Program Q A α} {f : α → Program Q A β} (hp : p.Returns env G)
    (hf : ∀ a, G a → (f a).Returns env H) : (p.bind f).Returns env H := by
  intro s b t h
  obtain ⟨a, u, hpa, hfa⟩ := (ends_bind p f).mp h
  exact hf a (hp hpa) hfa

end Program

end ContainerNet
