import Brigade.Engine.Basic
import Brigade.Proofs.Trampoline

/-! Levels of an engine, and the engine that has plain recursion in the place of the loop, at the root
and for every child. The two engines do the same: same results, same frames in failures, same events
and same states. -/

namespace Brigade.Engine

variable {L : Type} [Hierarchy L] [DecidableEq L] {σ : Type} {β : Type}

omit [DecidableEq L] in
theorem children_snd (run : LevelRunner L σ) (l : L) (selector : Option String)
    (p : Program (algebra l) β) (s : Progress σ) :
    (LevelRunner.children run l selector p s).2 = (run l selector p s).2 := by
  simp only [LevelRunner.children]
  rcases run l selector p s with ⟨error | ⟨v, steps⟩, t⟩ <;> rfl

/-- How the steps of a level at `depth` run child programs, with `room` levels below it at most. -/
def children (e : Engine σ) (registry : Registry L σ) : Nat → Nat → ChildRunner L σ
  | 0, _ => e.refuse
  | room + 1, depth => LevelRunner.children (e.level registry room (depth + 1))

/-- Runs a program as the rest of a level that has performed `index` commands. -/
def levelFrom (e : Engine σ) (registry : Registry L σ) (room depth : Nat) (l : L)
    (selector : Option String) (index : Nat) (p : Program (algebra l) β) :
    Run σ ExecutionError (β × Nat) :=
  p.drive (e.step registry (e.children registry room depth) depth l selector) .nil index

theorem level_eq_levelFrom (e : Engine σ) (registry : Registry L σ) (room depth : Nat) (l : L)
    (selector : Option String) (p : Program (algebra l) β) :
    e.level registry room depth l selector p = e.levelFrom registry room depth l selector 0 p := by
  cases room <;> rfl

theorem levelFrom_eq_run (e : Engine σ) (registry : Registry L σ) (room depth : Nat) (l : L)
    (selector : Option String) (index : Nat) (p : Program (algebra l) β) :
    e.levelFrom registry room depth l selector index p =
      p.run (e.step registry (e.children registry room depth) depth l selector) index := by
  funext s
  exact Program.drive_eq_run _ p index s

theorem children_succ (e : Engine σ) (registry : Registry L σ) (room depth : Nat) :
    @children L _ _ σ e registry (room + 1) depth = LevelRunner.children fun l selector _ p =>
      p.run (e.step registry (e.children registry room (depth + 1)) (depth + 1) l selector) 0 := by
  funext l selector β p s
  simp only [children, LevelRunner.children, level_eq_levelFrom, levelFrom_eq_run]

theorem levelFrom_bind {α : Type} (e : Engine σ) (registry : Registry L σ) (room depth : Nat) (l : L)
    (selector : Option String) (index : Nat) (p : Program (algebra l) α)
    (f : α → Program (algebra l) β) (s : Progress σ) :
    e.levelFrom registry room depth l selector index (p.bind f) s =
      Program.proceed (e.levelFrom registry room depth l selector index p s)
        fun v index => e.levelFrom registry room depth l selector index (f v) := by
  simp only [levelFrom_eq_run]
  exact Program.run_bind _ p f index s

/-- Levels by plain recursion. -/
def directLevel (e : Engine σ) (registry : Registry L σ) : Nat → Nat → LevelRunner L σ
  | 0, depth => fun l selector _ p => p.run (e.step registry e.refuse depth l selector) 0
  | room + 1, depth => fun l selector _ p =>
    p.run (e.step registry (LevelRunner.children (e.directLevel registry room (depth + 1))) depth l
      selector) 0

def directExecute (e : Engine σ) (registry : Registry L σ) (l : L) (selector : Option String)
    (p : Program (algebra l) β) : Run σ ExecutionError β := fun s =>
  match e.directLevel registry e.settings.maxDepth.toNat 0 l selector p s with
  | (.ok (v, steps), s) => (.ok v, s.record (.completed steps))
  | (.error error, s) => (.error error, s.record (.failed error))

theorem directLevel_eq_level (e : Engine σ) (registry : Registry L σ) (room depth : Nat) :
    @directLevel L _ _ σ e registry room depth = e.level registry room depth := by
  induction room generalizing depth with
  | zero =>
    funext l selector β p s
    exact (Program.drive_eq_run _ p 0 s).symm
  | succ room ih =>
    funext l selector β p s
    rw [directLevel, ih, level]
    exact (Program.drive_eq_run _ p 0 s).symm

/-- The engine does what plain recursion does: every level at every depth, and every execution,
gives the same result or the same failure, the same count of commands, the same events and the same
states. -/
theorem loop_refines_recursion (e : Engine σ) (registry : Registry L σ) :
    (∀ (room depth : Nat) (l : L) (selector : Option String) {β : Type} (p : Program (algebra l) β)
      (s : Progress σ), e.level registry room depth l selector p s =
        e.directLevel registry room depth l selector p s) ∧
    ∀ (l : L) (selector : Option String) {β : Type} (p : Program (algebra l) β) (s : Progress σ),
      e.execute registry l selector p s = e.directExecute registry l selector p s := by
  constructor
  · intro room depth l selector β p s
    rw [directLevel_eq_level]
  · intro l selector β p s
    rw [directExecute, directLevel_eq_level]
    rfl

end Brigade.Engine
