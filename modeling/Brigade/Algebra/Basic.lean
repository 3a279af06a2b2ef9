import Brigade.Algebra.Identity
import Brigade.Failure.Interpreter

/-! An algebra is a language of commands, with the type of each command's answer. Its interpreters
offer methods, which are what a command may ask of them. An interpreter answers each method, or fails, and
may change the state that it shares with the others. -/

namespace Brigade

/-- A command as messages and traces name it. -/
structure CommandInfo where
  algebra : AlgebraId
  name : String
  detail : String
  deriving DecidableEq

namespace CommandInfo

def qualified (c : CommandInfo) : String := c.algebra.name ++ "::" ++ c.name

def text (c : CommandInfo) : String :=
  if c.detail.isEmpty then c.qualified else s!"{c.qualified}({c.detail})"

def toJson (c : CommandInfo) : Json :=
  .obj [("algebra", c.algebra.toJson), ("name", .str c.name), ("detail", .str c.detail)]

end CommandInfo

structure Algebra where
  name : String
  Command : Type 1
  Answer : Command → Type
  /-- The name of a command. -/
  title : Command → String
  /-- What distinguishes a command from others of its name; may be empty. -/
  detail : Command → String
  Method : Type
  Reply : Method → Type

namespace Algebra

def id (A : Algebra) : AlgebraId := ⟨A.name⟩

def describe (A : Algebra) (c : A.Command) : CommandInfo := ⟨A.id, A.title c, A.detail c⟩

end Algebra

def Interpreter (σ : Type) (A : Algebra) : Type :=
  (m : A.Method) → σ → Except InterpreterFailure (A.Reply m) × σ

/-- A place in a state where a part of it is kept. -/
structure Slot (σ τ : Type) where
  get : σ → τ
  set : τ → σ → σ

/-- The interpreter that keeps its own state in a slot of a larger one. -/
def Interpreter.within {σ τ : Type} {A : Algebra} (i : Interpreter τ A) (slot : Slot σ τ) :
    Interpreter σ A := fun m s =>
  let (reply, own) := i m (slot.get s)
  (reply, slot.set own s)

end Brigade
