import Brigade.Algebra.Basic

/-! Programs over an algebra. A program is a value, or a command with the functions bound after it:
each takes the value that the ones before it lead to and gives the program to run next. Binding adds
a function to the list and runs nothing.

Programs are well-founded: whatever is answered, each comes to its value after finitely many commands.
A program that would go on for ever cannot be written. -/

namespace Brigade

mutual

inductive Program (A : Algebra) : Type → Type 1
  | done {α : Type} (value : α) : Program A α
  | step {α : Type} (command : A.Command) (bound : Bound A (A.Answer command) α) : Program A α

/-- The functions bound after a step, the last one bound outermost. -/
inductive Bound (A : Algebra) : Type → Type → Type 1
  | nil {α : Type} : Bound A α α
  | snoc {α β γ : Type} (bound : Bound A α β) (f : β → Program A γ) : Bound A α γ

end

namespace Program

variable {A : Algebra} {α β γ : Type}

def lift (c : A.Command) : Program A (A.Answer c) := .step c .nil

def bind : Program A α → (α → Program A β) → Program A β
  | .done v, f => f v
  | .step c bound, f => .step c (bound.snoc f)

/-- Transforms the value and adds no step. -/
def map (p : Program A α) (f : α → β) : Program A β := p.bind fun v => .done (f v)

/-- Runs `q` after `p`, whose value is dropped. -/
def andThen (p : Program A α) (q : Program A β) : Program A β := p.bind fun _ => q

@[simp] theorem done_bind (v : α) (f : α → Program A β) : (done v).bind f = f v := rfl

@[simp] theorem step_bind (c : A.Command) (bound : Bound A (A.Answer c) α) (f : α → Program A β) :
    (step c bound).bind f = .step c (bound.snoc f) := rfl

/-- Binds the same function `n` times. -/
def bindTimes (f : α → Program A α) : Nat → Program A α → Program A α
  | 0, p => p
  | n + 1, p => bindTimes f n (p.bind f)

/-- Runs `f` on the value, then on what that gives, `n` times in all. -/
def iterate (f : α → Program A α) : Nat → α → Program A α
  | 0, v => .done v
  | n + 1, v => (f v).bind (iterate f n)

def isDone : Program A α → Bool
  | .done _ => true
  | .step _ _ => false

def value? : Program A α → Option α
  | .done v => some v
  | .step _ _ => none

/-- The command that runs first. -/
def peek : Program A α → Option CommandInfo
  | .done _ => none
  | .step c _ => some (A.describe c)

def diagnostic (valueText : α → String) : Program A α → String
  | .done v => s!"Done({valueText v})"
  | .step c _ => s!"Step({Text.quote (A.describe c).text})"

end Program

end Brigade
