import Brigade.Program.Continuation

/-! The loop of `Program.drive` keeps the functions that wait on a stack; `Program.run` applies them
inside one another. Both give the same runs, whatever performs the commands. -/

namespace Brigade.Program

variable {A : Algebra} {σ ε : Type} {α β γ : Type}

def proceed (r : Except ε (α × Nat) × σ) (next : α → Nat → σ → Except ε (β × Nat) × σ) :
    Except ε (β × Nat) × σ :=
  match r with
  | (.ok (v, index), s) => next v index s
  | (.error e, s) => (.error e, s)

@[simp] theorem proceed_ok (v : α) (index : Nat) (s : σ)
    (next : α → Nat → σ → Except ε (β × Nat) × σ) :
    proceed (.ok (v, index), s) next = next v index s := rfl

@[simp] theorem proceed_error (e : ε) (s : σ) (next : α → Nat → σ → Except ε (β × Nat) × σ) :
    proceed (.error e, s) next = (.error e, s) := rfl

@[simp] theorem proceed_value (r : Except ε (α × Nat) × σ) :
    (proceed r fun v index s => (.ok (v, index), s)) = r := by
  obtain ⟨e | ⟨v, index⟩, s⟩ := r <;> rfl

theorem proceed_proceed (r : Except ε (α × Nat) × σ)
    (next : α → Nat → σ → Except ε (β × Nat) × σ)
    (last : β → Nat → σ → Except ε (γ × Nat) × σ) :
    proceed (proceed r next) last = proceed r fun v index s => proceed (next v index s) last := by
  obtain ⟨e | ⟨v, index⟩, s⟩ := r <;> rfl

variable (perform : Performer A σ ε)

@[simp] theorem run_done (v : α) (index : Nat) (s : σ) :
    run perform (.done v) index s = (.ok (v, index), s) := by rw [run]

theorem run_step (c : A.Command) (bound : Bound A (A.Answer c) α) (index : Nat) (s : σ) :
    run perform (.step c bound) index s =
      match perform index c s with
      | (.ok v, s) => runBound perform bound v (index + 1) s
      | (.error e, s) => (.error e, s) := by
  rcases h : perform index c s with ⟨e | v, t⟩ <;> simp only [run, h]

theorem of_run_lift {c : A.Command} {index count : Nat} {s t : σ} {v : A.Answer c}
    (h : run perform (lift c) index s = (.ok (v, count), t)) :
    perform index c s = (.ok v, t) ∧ count = index + 1 := by
  rw [lift, run_step] at h
  rcases hcommand : perform index c s with ⟨error | w, u⟩ <;> rw [hcommand] at h <;> cases h
  exact ⟨rfl, rfl⟩

@[simp] theorem runBound_nil (v : α) (index : Nat) (s : σ) :
    runBound perform .nil v index s = (.ok (v, index), s) := by rw [runBound]

@[simp] theorem runBound_snoc (bound : Bound A α β) (f : β → Program A γ) (v : α) (index : Nat)
    (s : σ) : runBound perform (bound.snoc f) v index s =
      proceed (runBound perform bound v index s) fun w => run perform (f w) := by
  rw [runBound]
  rcases runBound perform bound v index s with ⟨e | ⟨w, index⟩, s⟩ <;> rfl

theorem run_bind (p : Program A α) (f : α → Program A β) (index : Nat) (s : σ) :
    run perform (p.bind f) index s = proceed (run perform p index s) fun v => run perform (f v) := by
  cases p with
  | done v => simp
  | step c bound =>
    simp only [step_bind, run_step, runBound_snoc]
    rcases perform index c s with ⟨e | v, s⟩ <;> rfl

/-- What is left of a program whose command was answered. -/
def resume {α β : Type} : Bound A α β → α → Program A β
  | .nil, v => .done v
  | .snoc bound f, v => (resume bound v).bind f

theorem run_resume {α β : Type} : ∀ (bound : Bound A α β) (v : α) (index : Nat) (s : σ),
    run perform (resume bound v) index s = runBound perform bound v index s
  | .nil, v, index, s => by rw [resume, run_done, runBound_nil]
  | .snoc bound f, v, index, s => by
    rw [resume, run_bind, run_resume bound v index s, runBound_snoc]

theorem run_step_ok {perform : Performer A σ ε} {c : A.Command} {bound : Bound A (A.Answer c) α}
    {index : Nat} {s t : σ} {v : A.Answer c} (h : perform index c s = (.ok v, t)) :
    run perform (.step c bound) index s = run perform (resume bound v) (index + 1) t := by
  rw [run_step, h, run_resume]

theorem run_step_error {perform : Performer A σ ε} {c : A.Command} {bound : Bound A (A.Answer c) α}
    {index : Nat} {s t : σ} {error : ε} (h : perform index c s = (.error error, t)) :
    run perform (.step c bound) index s = (.error error, t) := by
  rw [run_step, h]

/-- Runs the functions on a stack, each on the value that the one before leads to. -/
def runPending {β γ : Type} : Pending A β γ → β → Nat → σ → Except ε (γ × Nat) × σ
  | .nil, v, index, s => (.ok (v, index), s)
  | .cons f rest, v, index, s => proceed (run perform (f v) index s) (runPending rest)

theorem runPending_push {α β γ : Type} : ∀ (bound : Bound A α β) (pending : Pending A β γ)
    (v : α) (index : Nat) (s : σ), runPending perform (bound.push pending) v index s =
      proceed (runBound perform bound v index s) (runPending perform pending)
  | .nil, pending, v, index, s => by simp [Bound.push]
  | .snoc bound f, pending, v, index, s => by
    have h := runPending_push bound (.cons f pending) v index s
    rw [Bound.push, h, runBound_snoc, proceed_proceed]
    rfl

/-- What the loop does: it runs the program and then what waits on the stack. -/
theorem drive_eq_proceed (p : Program A β) (pending : Pending A β γ) (index : Nat) (s : σ) :
    drive perform p pending index s = proceed (run perform p index s) (runPending perform pending) := by
  fun_induction drive perform p pending index s with
  | case1 => simp [runPending]
  | case2 _ index s _ rest v f ih =>
    rw [ih, run_done, proceed_ok]
    rfl
  | case3 _ index s c v s' hok bound pending ih =>
    rw [ih, run_done, proceed_ok, runPending_push, run_step, hok]
  | case4 _ index s c e s' herr bound pending => rw [run_step, herr, proceed_error]

theorem drive_eq_run (p : Program A β) (index : Nat) (s : σ) :
    drive perform p .nil index s = run perform p index s := by
  rw [drive_eq_proceed]
  exact proceed_value _

end Brigade.Program
