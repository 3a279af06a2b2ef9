import Brigade.Engine.Settings
import Brigade.Program.Drive
import Brigade.Registry
import Brigade.Table

/-! The engine runs programs against a registry. A level is the run of one program; its steps run child
programs as levels one deeper. Before a step is dispatched the cancel flag, the step limit and the
binding are looked at, in this order. -/

namespace Brigade

/-- What observers of a run see. -/
inductive Event
  | dispatched (frame : StepFrame)
  | completed (steps : Nat)
  | failed (error : ExecutionError)
  deriving DecidableEq

/-- The state of a run: that of the interpreters, and the events so far, the newest first. -/
structure Progress (σ : Type) where
  state : σ
  newest : List Event

def Progress.events {σ : Type} (p : Progress σ) : List Event := p.newest.reverse

def Progress.record {σ : Type} (p : Progress σ) (e : Event) : Progress σ :=
  { p with newest := e :: p.newest }

@[simp] theorem Progress.events_record {σ : Type} (p : Progress σ) (e : Event) :
    (p.record e).events = p.events ++ [e] := by
  simp [events, record]

/-- A computation that changes the state of a run and may fail. -/
abbrev Run (σ ε α : Type) : Type := Progress σ → Except ε α × Progress σ

abbrev PolicyTable := Table FailurePolicy

structure Engine (σ : Type) where
  settings : EngineSettings := {}
  policies : PolicyTable := .empty
  /-- Whether the runs of this engine are cancelled. -/
  cancelled : σ → Bool

/-- How programs run as levels. The result comes with the number of commands that the level performed. -/
abbrev LevelRunner (L : Type) [Hierarchy L] (σ : Type) : Type 1 :=
  (l : L) → Option String → {β : Type} → Program (algebra l) β → Run σ ExecutionError (β × Nat)

/-- How a step runs child programs. -/
abbrev ChildRunner (L : Type) [Hierarchy L] (σ : Type) : Type 1 :=
  (l : L) → Option String → {β : Type} → Program (algebra l) β → Run σ FailureCause β

/-- Runs children as levels; the failure of a level becomes that of the step that ran it. -/
def LevelRunner.children {L : Type} [Hierarchy L] {σ : Type} (run : LevelRunner L σ) :
    ChildRunner L σ := fun l selector _ p s =>
  match run l selector p s with
  | (.ok (v, _), s) => (.ok v, s)
  | (.error error, s) => (.error error.asChild, s)

/-- Runs a child again and again, `retries` times after the first at most, while it fails with a
recoverable failure. A cancelled child and a child that was not entered count as they are. -/
def superviseFrom {σ β : Type} (child : Run σ FailureCause β) (recovers : Bool) :
    Nat → Run σ FailureCause (ChildOutcome β)
  | retries, s =>
    match child s with
    | (.ok v, s) => (.ok (.completed v), s)
    | (.error (.child frame cause), s) =>
      let error : ExecutionError := ⟨frame, cause⟩
      if error.isCancelled then (.error error.asChild, s)
      else if cause.recoverable && 0 < retries then
        match retries with
        | n + 1 => superviseFrom child recovers n s
        | 0 => (.error error.asChild, s)
      else if recovers then (.ok (.recovered error), s)
      else (.error error.asChild, s)
    | (.error cause, s) => (.error cause, s)

/-- Runs a child under a failure policy. -/
def FailurePolicy.supervise {σ β : Type} (policy : FailurePolicy) (child : Run σ FailureCause β) :
    Run σ FailureCause (ChildOutcome β) :=
  superviseFrom child policy.recovers (policy.maxAttempts - 1)

variable {L : Type} [Hierarchy L] [DecidableEq L] {σ : Type}

/-- Carries out a plan with the interpreter of the step. -/
def Plan.run {l : L} {α : Type} (i : Interpreter σ (algebra l)) (children : ChildRunner L σ)
    (policyFor : String → FailurePolicy) : Plan (algebra (L := L)) l α → Run σ FailureCause α
  | .answer v, s => (.ok v, s)
  | .fail cause, s => (.error cause, s)
  | .call m next, s =>
    match i m s.state with
    | (.ok reply, state) => (next reply).run i children policyFor { s with state }
    | (.error failure, state) => (.error (.interpreter failure), { s with state })
  | .child l' selector p next, s =>
    match children l' selector p s with
    | (.ok v, s) => (next v).run i children policyFor s
    | (.error cause, s) => (.error cause, s)
  | .join l₁ p₁ l₂ p₂ next, s =>
    match children l₁ none p₁ s with
    | (left, s) =>
      match children l₂ none p₂ s with
      | (right, s) =>
        match left, right with
        | .ok v, .ok w => (next v w).run i children policyFor s
        | .error cause, _ => (.error cause, s)
        | .ok _, .error cause => (.error cause, s)
  | .supervise l' selector p next, s =>
    match (policyFor (algebra l').name).supervise (children l' selector p) s with
    | (.ok outcome, s) => (next outcome).run i children policyFor s
    | (.error cause, s) => (.error cause, s)

namespace Engine

def policyFor (e : Engine σ) (name : String) : FailurePolicy :=
  (e.policies.get? name).getD .propagate

/-- Performs the command with number `index` of a level. -/
def step (e : Engine σ) (registry : Registry L σ) (children : ChildRunner L σ) (depth : Nat) (l : L)
    (selector : Option String) : Performer (algebra l) (Progress σ) ExecutionError :=
  fun index c s =>
    let frame : StepFrame := ⟨depth, index, (algebra l).describe c⟩
    if e.cancelled s.state then (.error ⟨frame, .cancelled⟩, s)
    else if e.settings.exhausted index then
      (.error ⟨frame, .stepLimit e.settings.maxSteps.toNat⟩, s)
    else match registry.resolve l selector with
      | .error unbound => (.error ⟨frame, .unbound unbound⟩, s)
      | .ok i =>
        match (Hierarchy.plan l c frame).run i children e.policyFor (s.record (.dispatched frame)) with
        | (.ok v, s) => (.ok v, s)
        | (.error cause, s) => (.error ⟨frame, cause⟩, s)

/-- Enters no child, as the nesting bound is reached. -/
def refuse (e : Engine σ) : ChildRunner L σ := fun _ _ _ _ s =>
  (.error (.tooDeep e.settings.maxDepth.toNat), s)

/-- Runs programs as levels at `depth`, with `room` levels of children below at most. -/
def level (e : Engine σ) (registry : Registry L σ) : Nat → Nat → LevelRunner L σ
  | 0, depth => fun l selector _ p => p.drive (e.step registry e.refuse depth l selector) .nil 0
  | room + 1, depth => fun l selector _ p =>
    p.drive (e.step registry (LevelRunner.children (e.level registry room (depth + 1))) depth l
      selector) .nil 0

/-- Runs a program as the root level and tells the observers how it ended. -/
def execute (e : Engine σ) (registry : Registry L σ) (l : L) (selector : Option String) {β : Type}
    (p : Program (algebra l) β) : Run σ ExecutionError β := fun s =>
  match e.level registry e.settings.maxDepth.toNat 0 l selector p s with
  | (.ok (v, steps), s) => (.ok v, s.record (.completed steps))
  | (.error error, s) => (.error error, s.record (.failed error))

end Engine

def PolicyTable.diagnostic (policies : PolicyTable) : String :=
  "\x7b" ++ String.intercalate ", "
    (policies.entries.map fun e => Text.quote e.1 ++ ": " ++ e.2.diagnostic) ++ "\x7d"

def Engine.diagnostic {σ : Type} (e : Engine σ) (observers : Nat) (s : σ) : String :=
  "Engine \x7b settings: " ++ e.settings.diagnostic ++ ", policies: "
    ++ PolicyTable.diagnostic e.policies ++ ", observers: " ++ toString observers ++ ", cancelled: "
    ++ toString (e.cancelled s) ++ " \x7d"

end Brigade
