import Brigade.Proofs.Grouping
import Brigade.Proofs.History

/-! Transforming the value of a program. Each function waits on the stack like any other that is bound,
and gives a finished program; no step is reached, counted or refused on its account, so a run shows the
functions in its value alone. -/

namespace Brigade

variable {σ ε : Type} {α β γ : Type}

/-- Functions to apply one after the other, the last one outermost. -/
inductive Functions (α : Type) : Type → Type 1
  | nil : Functions α α
  | snoc {β γ : Type} (fs : Functions α β) (f : β → γ) : Functions α γ

namespace Functions

def comp {β : Type} : Functions α β → α → β
  | .nil => id
  | .snoc fs f => f ∘ fs.comp

@[simp] theorem comp_nil : (nil : Functions α α).comp = id := rfl

@[simp] theorem comp_snoc (fs : Functions α β) (f : β → γ) : (fs.snoc f).comp = f ∘ fs.comp := rfl

end Functions

namespace Program

variable {A : Algebra}

/-- Transforms the value by each of the functions in turn. -/
def mapAll {β : Type} (p : Program A α) : Functions α β → Program A β
  | .nil => p
  | .snoc fs f => (p.mapAll fs).map f

@[simp] theorem mapAll_nil (p : Program A α) : p.mapAll .nil = p := rfl

@[simp] theorem mapAll_snoc (p : Program A α) (fs : Functions α β) (f : β → γ) :
    p.mapAll (fs.snoc f) = (p.mapAll fs).map f := rfl

variable (perform : Performer A σ ε)

theorem run_map (p : Program A α) (f : α → β) (index : Nat) (s : σ) :
    run perform (p.map f) index s =
      ((run perform p index s).1.map (Prod.map f id), (run perform p index s).2) := by
  rw [map, run_bind]
  rcases run perform p index s with ⟨e | ⟨v, count⟩, t⟩
  · rfl
  · exact run_done perform (f v) count t

theorem run_mapAll (p : Program A α) (fs : Functions α β) (index : Nat) (s : σ) :
    run perform (p.mapAll fs) index s =
      ((run perform p index s).1.map (Prod.map fs.comp id), (run perform p index s).2) := by
  induction fs with
  | nil =>
    rw [mapAll_nil]
    rcases run perform p index s with ⟨e | ⟨v, count⟩, t⟩ <;> rfl
  | snoc fs f ih =>
    rw [mapAll_snoc, run_map, ih]
    rcases run perform p index s with ⟨e | ⟨v, count⟩, t⟩ <;> rfl

theorem run_mapAll_eq_run_map (p : Program A α) (fs : Functions α β) :
    run perform (p.mapAll fs) = run perform (p.map fs.comp) := by
  funext index s
  rw [run_mapAll, run_map]

theorem notes_mapAll {κ : Type} (note : Nat → A.Command → σ → List κ) (p : Program A α)
    (fs : Functions α β) (index : Nat) (s : σ) :
    (p.mapAll fs).notes perform note index s = p.notes perform note index s := by
  rw [notes, run_mapAll]
  rfl

end Program

namespace Engine

variable {L : Type} [Hierarchy L] [DecidableEq L]

/-- A program whose value is transformed again and again runs as the program itself: it comes to the same
steps and makes the same calls, and it has the same count, events and states. Its value is what the
functions make of that of the program, and its failure is that of the program. A run does not tell the
functions from their composition. -/
theorem execute_mapAll (e : Engine σ) (registry : Registry L σ) {l : L} (selector : Option String)
    (p : Program (algebra l) α) (fs : Functions α β) :
    (∀ room depth s, e.level registry room depth l selector (p.mapAll fs) s =
      ((e.level registry room depth l selector p s).1.map (Prod.map fs.comp id),
        (e.level registry room depth l selector p s).2)) ∧
    (∀ room depth s, e.history registry room depth l selector (p.mapAll fs) s =
      e.history registry room depth l selector p s) ∧
    (∀ s, e.execute registry l selector (p.mapAll fs) s =
      ((e.execute registry l selector p s).1.map fs.comp, (e.execute registry l selector p s).2)) ∧
    e.Indistinct registry (p.mapAll fs) (p.map fs.comp) := by
  have hlevel : ∀ room depth s, e.level registry room depth l selector (p.mapAll fs) s =
      ((e.level registry room depth l selector p s).1.map (Prod.map fs.comp id),
        (e.level registry room depth l selector p s).2) := by
    intro room depth s
    simp only [level_eq_levelFrom, levelFrom_eq_run]
    exact Program.run_mapAll _ p fs 0 s
  refine ⟨hlevel, fun room depth s => ?_, fun s => ?_, ?_⟩
  · exact Program.notes_mapAll _ _ p fs 0 s
  · simp only [execute, hlevel]
    rcases e.level registry _ 0 l selector p s with ⟨error | ⟨v, steps⟩, t⟩ <;> rfl
  · exact e.indistinct_of_run_eq registry fun perform => Program.run_mapAll_eq_run_map perform p fs

end Engine

end Brigade
