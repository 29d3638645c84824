/-!
# Programs that ask

A program that deals with the world is a tree of requests: it asks something, and how it goes on
depends on the answer. What answers is left open, so a statement about a program can be about all
answers, and one program serves the kernel, a simulation and a clock that is stopped at will. Every
program asks finitely often on every path.
-/

namespace ContainerNet

/-- A program with requests `Q`, of which `q` is answered by an `A q`, and with result `α`. -/
inductive Program (Q : Type) (A : Q → Type) (α : Type)
  | done (a : α)
  | ask (q : Q) (next : A q → Program Q A α)

namespace Program

variable {Q : Type} {A : Q → Type} {α β σ : Type}

def bind : Program Q A α → (α → Program Q A β) → Program Q A β
  | .done a, f => f a
  | .ask q next, f => .ask q fun answer ↦ (next answer).bind f

instance : Monad (Program Q A) where
  pure := .done
  bind := bind

/-- Asks one thing. -/
def request (q : Q) : Program Q A (A q) := .ask q .done

/-- Runs a program against something that answers each request and may change its state. -/
def run (answer : (q : Q) → σ → A q × σ) : Program Q A α → σ → α × σ
  | .done a, s => (a, s)
  | .ask q next, s =>
    let (a, s) := answer q s
    (next a).run answer s

/-- Puts a program in place of each request. -/
def expand {R : Type} {B : R → Type} (f : (q : Q) → Program R B (A q)) :
    Program Q A α → Program R B α
  | .done a => .done a
  | .ask q next => (f q).bind fun a ↦ (next a).expand f

@[simp] theorem run_done (answer : (q : Q) → σ → A q × σ) (a : α) (s : σ) :
    (done a : Program Q A α).run answer s = (a, s) := rfl

@[simp] theorem run_ask (answer : (q : Q) → σ → A q × σ) (q : Q) (next : A q → Program Q A α)
    (s : σ) :
    (ask q next).run answer s = (next (answer q s).1).run answer (answer q s).2 := rfl

@[simp] theorem pure_eq (a : α) : (pure a : Program Q A α) = .done a := rfl

@[simp] theorem bind_eq (p : Program Q A α) (f : α → Program Q A β) : p >>= f = p.bind f := rfl

@[simp] theorem done_bind (a : α) (f : α → Program Q A β) : (done a).bind f = f a := rfl

@[simp] theorem ask_bind (q : Q) (next : A q → Program Q A α) (f : α → Program Q A β) :
    (ask q next).bind f = ask q fun answer ↦ (next answer).bind f := rfl

theorem run_bind (answer : (q : Q) → σ → A q × σ) (p : Program Q A α) (f : α → Program Q A β)
    (s : σ) :
    (p.bind f).run answer s = (f (p.run answer s).1).run answer (p.run answer s).2 := by
  induction p generalizing s with
  | done a => rfl
  | ask q next ih => simp [ih]

end Program

end ContainerNet
