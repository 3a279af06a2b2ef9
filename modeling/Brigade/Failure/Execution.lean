import Brigade.Algebra.Basic
import Brigade.Failure.Interpreter

/-! Failures of a run. An execution error names the step that failed and the cause; the cause may be
the failure of a child program, with the child's own step inside. -/

namespace Brigade

structure UnboundAlgebra where
  algebra : AlgebraId
  selector : Option String
  deriving DecidableEq

namespace UnboundAlgebra

def message (e : UnboundAlgebra) : String :=
  s!"no interpreter bound for {e.algebra.text}" ++
    match e.selector with
    | some s => s!" (selector '{s}')"
    | none => ""

instance : Coded UnboundAlgebra := ⟨fun _ => "BINDING_UNBOUND_ALGEBRA", message, fun _ => false⟩

end UnboundAlgebra

structure StepFrame where
  depth : Nat
  index : Nat
  command : CommandInfo
  deriving DecidableEq

def StepFrame.text (f : StepFrame) : String :=
  s!"step {f.index} at depth {f.depth} ({f.command.text})"

inductive FailureCause
  | unbound (error : UnboundAlgebra)
  | interpreter (failure : InterpreterFailure)
  | child (frame : StepFrame) (cause : FailureCause)
  | cancelled
  | stepLimit (limit : Nat)
  | tooDeep (limit : Nat)
  deriving DecidableEq

namespace FailureCause

def code : FailureCause → String
  | .unbound _ => "EXECUTION_UNBOUND_ALGEBRA"
  | .interpreter _ => "EXECUTION_INTERPRETER_FAILED"
  | .child _ _ => "EXECUTION_CHILD_FAILED"
  | .cancelled => "EXECUTION_CANCELLED"
  | .stepLimit _ => "EXECUTION_STEP_LIMIT"
  | .tooDeep _ => "EXECUTION_NESTING_TOO_DEEP"

def message : FailureCause → String
  | .unbound error => error.message
  | .interpreter failure => failure.message
  | .child frame cause => s!"child program failed: {frame.text}: {cause.message}"
  | .cancelled => "execution cancelled"
  | .stepLimit limit => s!"step limit of {limit} exceeded"
  | .tooDeep limit => s!"nesting depth limit of {limit} exceeded"

/-- Only a recoverable failure of an interpreter is recoverable, at whatever depth. -/
def recoverable : FailureCause → Bool
  | .interpreter failure => failure.recoverable
  | .child _ cause => cause.recoverable
  | .unbound _ | .cancelled | .stepLimit _ | .tooDeep _ => false

instance : Coded FailureCause := ⟨code, message, recoverable⟩

/-- The frames of the children that failed, outermost first. -/
def frames : FailureCause → List StepFrame
  | .child frame cause => frame :: cause.frames
  | _ => []

/-- The cause that no child program has. -/
def root : FailureCause → FailureCause
  | .child _ cause => cause.root
  | cause => cause

def innermost (outer : StepFrame) : FailureCause → StepFrame
  | .child frame cause => cause.innermost frame
  | _ => outer

end FailureCause

structure ExecutionError where
  frame : StepFrame
  cause : FailureCause
  deriving DecidableEq

namespace ExecutionError

def message (e : ExecutionError) : String := s!"{e.frame.text}: {e.cause.message}"

instance : Coded ExecutionError :=
  ⟨fun e => e.cause.code, message, fun e => e.cause.recoverable⟩

/-- The frames from the outermost program to the step that failed. -/
def path (e : ExecutionError) : List StepFrame := e.frame :: e.cause.frames

def innermost (e : ExecutionError) : StepFrame := e.cause.innermost e.frame

def root (e : ExecutionError) : FailureCause := e.cause.root

def isCancelled (e : ExecutionError) : Bool := e.root == .cancelled

/-- The error as the failure of the step that ran the program. -/
def asChild (e : ExecutionError) : FailureCause := .child e.frame e.cause

end ExecutionError

end Brigade
