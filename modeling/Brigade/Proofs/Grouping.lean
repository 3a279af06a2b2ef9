import Brigade.Proofs.Level

/-! Programs form a monad up to execution: how binds are grouped, and values that are bound, cannot be
told from a run. The nodes on the two sides of a law differ (a longer list of functions on the first
step, or functions that bind when they are run); what they do does not. -/

namespace Brigade

variable {σ ε : Type} {α β γ : Type}

namespace Program

variable {A : Algebra} (perform : Performer A σ ε)

theorem run_bind_bind (p : Program A α) (f : α → Program A β) (g : β → Program A γ) :
    run perform ((p.bind f).bind g) = run perform (p.bind fun v => (f v).bind g) := by
  funext index s
  have hinner : (fun v => run perform ((f v).bind g)) =
      fun v index s => proceed (run perform (f v) index s) fun w => run perform (g w) := by
    funext v index s
    exact run_bind perform (f v) g index s
  calc run perform ((p.bind f).bind g) index s
      = proceed (proceed (run perform p index s) fun v => run perform (f v))
          fun w => run perform (g w) := by rw [run_bind, run_bind]
    _ = proceed (run perform p index s) fun v index s =>
          proceed (run perform (f v) index s) fun w => run perform (g w) := by rw [proceed_proceed]
    _ = run perform (p.bind fun v => (f v).bind g) index s := by rw [run_bind, hinner]

theorem run_bind_done (p : Program A β) : run perform (p.bind .done) = run perform p := by
  funext index s
  have hdone : (fun v : β => run perform (.done v)) = fun v index s => (.ok (v, index), s) := by
    funext v index s
    exact run_done perform v index s
  rw [run_bind, hdone]
  exact proceed_value _

theorem run_bindTimes (f : α → Program A α) (n : Nat) (p : Program A α) :
    run perform (p.bindTimes f n) = run perform (p.bind (iterate f n)) := by
  -- The chain grows at its front while the binds grow at their end, so `p` changes.
  induction n generalizing p with
  | zero => exact (run_bind_done perform p).symm
  | succ n ih =>
    calc run perform (p.bindTimes f (n + 1))
        = run perform ((p.bind f).bind (iterate f n)) := ih (p.bind f)
      _ = run perform (p.bind (iterate f (n + 1))) := run_bind_bind perform p f (iterate f n)

end Program

namespace Engine

variable {L : Type} [Hierarchy L] [DecidableEq L]

/-- The engine does not tell the programs apart: as a child at any depth and as a root, under any
selector and from any state, both give the same result or failure, count, events and states. -/
def Indistinct (e : Engine σ) (registry : Registry L σ) {l : L} (p q : Program (algebra l) β) : Prop :=
  ∀ selector, (∀ room depth s,
    e.level registry room depth l selector p s = e.level registry room depth l selector q s) ∧
    ∀ s, e.execute registry l selector p s = e.execute registry l selector q s

theorem indistinct_of_run_eq (e : Engine σ) (registry : Registry L σ) {l : L}
    {p q : Program (algebra l) β}
    (h : ∀ perform : Performer (algebra l) (Progress σ) ExecutionError,
      p.run perform = q.run perform) : e.Indistinct registry p q := by
  intro selector
  have hlevel : ∀ room depth s, e.level registry room depth l selector p s =
      e.level registry room depth l selector q s := by
    intro room depth s
    rw [level_eq_levelFrom, level_eq_levelFrom, levelFrom_eq_run, levelFrom_eq_run, h]
  refine ⟨hlevel, fun s => ?_⟩
  simp only [execute, hlevel]

/-- The laws of a monad hold of every run: binds may be regrouped, a value that is bound is the
function's program, and binding what only gives the value changes nothing. So a function that is bound
`n` times runs as the chain of `n` copies that is nested to the right. -/
theorem indistinct_bind (e : Engine σ) (registry : Registry L σ) {l : L} (p : Program (algebra l) α)
    (v : α) (f : α → Program (algebra l) β) (g : β → Program (algebra l) γ)
    (loop : α → Program (algebra l) α) :
    e.Indistinct registry ((p.bind f).bind g) (p.bind fun v => (f v).bind g) ∧
      e.Indistinct registry ((Program.done v).bind f) (f v) ∧
      e.Indistinct registry (p.bind .done) p ∧
      ∀ n, e.Indistinct registry (p.bindTimes loop n) (p.bind (Program.iterate loop n)) := by
  refine ⟨?_, ?_, ?_, fun n => ?_⟩
  · exact e.indistinct_of_run_eq registry fun perform => Program.run_bind_bind perform p f g
  · exact e.indistinct_of_run_eq registry fun perform =>
      congrArg (Program.run perform) (Program.done_bind v f)
  · exact e.indistinct_of_run_eq registry fun perform => Program.run_bind_done perform p
  · exact e.indistinct_of_run_eq registry fun perform => Program.run_bindTimes perform loop n p

end Engine

end Brigade
