import Brigade.Program.Basic

/-! Running a program with what performs each command. `Program.drive` is a loop: it keeps the
functions that wait for a value on one stack, so neither the length of a program nor the grouping of
its binds nests calls. -/

namespace Brigade

/-- How commands are performed: the number of commands performed before, the command, and the state
before it. -/
abbrev Performer (A : Algebra) (σ ε : Type) : Type 1 :=
  Nat → (c : A.Command) → σ → Except ε (A.Answer c) × σ

/-- The functions that wait for a value, the next one first. -/
inductive Pending (A : Algebra) : Type → Type → Type 1
  | nil {α : Type} : Pending A α α
  | cons {α β γ : Type} (f : α → Program A β) (rest : Pending A β γ) : Pending A α γ

/-- Puts the functions bound after a step on the stack. -/
def Bound.push {A : Algebra} {α β γ : Type} : Bound A α β → Pending A β γ → Pending A α γ
  | .nil, pending => pending
  | .snoc bound f, pending => bound.push (.cons f pending)

namespace Program

variable {A : Algebra} {σ ε : Type}

/-- What is left of a run: a program, and the functions that wait for its value. -/
structure Rest (A : Algebra) (γ : Type) where
  {β : Type}
  program : Program A β
  pending : Pending A β γ

/-- One turn of the loop. -/
inductive Rest.Next {γ : Type} : Rest A γ → Rest A γ → Prop
  | resume {α β : Type} (f : α → Program A β) (rest : Pending A β γ) (v : α) :
    Next ⟨f v, rest⟩ ⟨.done v, .cons f rest⟩
  | answer {β : Type} (c : A.Command) (bound : Bound A (A.Answer c) β) (pending : Pending A β γ)
    (v : A.Answer c) : Next ⟨.done v, bound.push pending⟩ ⟨.step c bound, pending⟩

mutual

theorem acc_of_pending {β γ : Type} : ∀ (p : Program A β) (pending : Pending A β γ),
    (∀ v, Acc Rest.Next ⟨.done v, pending⟩) → Acc Rest.Next ⟨p, pending⟩
  | .done v, _, h => h v
  | .step _ bound, pending, h => .intro _ fun _ hq => by
      cases hq with
      | answer _ _ _ v => exact acc_of_bound bound pending h v

theorem acc_of_bound {α β γ : Type} : ∀ (bound : Bound A α β) (pending : Pending A β γ),
    (∀ v, Acc Rest.Next ⟨.done v, pending⟩) → ∀ v, Acc Rest.Next ⟨.done v, bound.push pending⟩
  | .nil, _, h, v => h v
  | .snoc bound f, pending, h, v => acc_of_bound bound (.cons f pending) (fun v => .intro _ fun _ hq => by
      cases hq with
      | resume _ _ _ => exact acc_of_pending (f v) pending h) v

end

theorem acc_done {β γ : Type} : ∀ (pending : Pending A β γ) (v : β),
    Acc Rest.Next ⟨.done v, pending⟩
  | .nil, _ => .intro _ fun _ hq => by cases hq
  | .cons f rest, v => .intro _ fun _ hq => by
      cases hq with
      | resume _ _ _ => exact acc_of_pending (f v) rest (acc_done rest)

theorem Rest.acc {γ : Type} (q : Rest A γ) : Acc Rest.Next q :=
  acc_of_pending q.program q.pending (acc_done q.pending)

instance {γ : Type} : WellFoundedRelation (Rest A γ) := ⟨Rest.Next, ⟨Rest.acc⟩⟩

/-- Runs `p` and then the functions on the stack; the result comes with the number of commands
performed in all, `index` of them before. -/
def drive {β γ : Type} (perform : Performer A σ ε) (p : Program A β) (pending : Pending A β γ)
    (index : Nat) (s : σ) : Except ε (γ × Nat) × σ :=
  match β, p, pending with
  | _, .done v, .nil => (.ok (v, index), s)
  | _, .done v, .cons f rest => drive perform (f v) rest index s
  | _, .step c bound, pending =>
    match perform index c s with
    | (.ok v, s) => drive perform (.done v) (bound.push pending) (index + 1) s
    | (.error e, s) => (.error e, s)
termination_by (⟨p, pending⟩ : Rest A γ)
decreasing_by
  · exact .resume f rest v
  · exact .answer c bound pending v

end Program

end Brigade
