import Brigade.Policy
import Brigade.Program.Basic

/-! Hierarchies of languages. A command is carried out by a plan: calls of methods of the interpreter
of its own language, and child programs of any language. -/

namespace Brigade

/-- What carrying out one step of the language `l` asks for, one thing after the other. -/
inductive Plan {L : Type} (algebra : L → Algebra) (l : L) (α : Type) : Type 1
  | answer (value : α)
  | fail (cause : FailureCause)
  /-- Calls a method of the interpreter bound for the step's language. -/
  | call (method : (algebra l).Method) (next : (algebra l).Reply method → Plan algebra l α)
  /-- Runs a child program with the interpreter bound under a selector. -/
  | child {β : Type} (language : L) (selector : Option String) (program : Program (algebra language) β)
      (next : β → Plan algebra l α)
  /-- Runs two child programs with their default interpreters, both to their ends. The left one ends
  before the right one begins: of all the ways in which the steps of two children that run at once can
  be mixed, plans have this one. -/
  | join {β γ : Type} (left : L) (leftProgram : Program (algebra left) β)
      (right : L) (rightProgram : Program (algebra right) γ) (next : β → γ → Plan algebra l α)
  /-- Runs a child program under the failure policy of its algebra. It is one program, the same for
  every attempt. -/
  | supervise {β : Type} (language : L) (selector : Option String)
      (program : Program (algebra language) β) (next : ChildOutcome β → Plan algebra l α)

/-- A family of algebras whose commands may run programs of one another. -/
class Hierarchy (L : Type) where
  algebra : L → Algebra
  plan : (l : L) → (c : (algebra l).Command) → StepFrame → Plan algebra l ((algebra l).Answer c)

export Hierarchy (algebra)

end Brigade
