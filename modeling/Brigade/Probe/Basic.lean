import Brigade.CallLog.Basic
import Brigade.Failure.Budget
import Brigade.Script.Basic

/-! The probe language: its one command emits a number, and the interpreter answers with a number.
It exercises an engine without a real domain. In its scripts a leaf emits the value of an expression. -/

namespace Brigade

inductive ProbeCommand : Type 1
  | emit (value : Int64)

inductive ProbeMethod
  | emit (value : Int64)

abbrev probeAlgebra : Algebra where
  name := "probe"
  Command := ProbeCommand
  Answer := fun _ => Int64
  title := fun _ => "Emit"
  detail := fun | .emit value => toString value.toInt
  Method := ProbeMethod
  Reply := fun _ => Int64

namespace Probe

def emit (value : Int64) : Program probeAlgebra Int64 :=
  .lift (A := probeAlgebra) (ProbeCommand.emit value)

end Probe

abbrev ProbeScript := Script Expr

def ProbeScript.program (p : ProbeScript) (env : Bindings) : Program probeAlgebra Int64 :=
  Script.program (fun env e => Probe.emit (e.eval env)) p env

/-- A probe that answers a number with the number plus an offset and fails as scripted. It logs every
call. -/
structure ScriptedProbe where
  offset : Int64
  failures : List (Int64 × FailureBudget)
  log : CallLog
  deriving DecidableEq

namespace ScriptedProbe

def initial : ScriptedProbe := ⟨0, [], .empty⟩

def emit (value : Int64) (p : ScriptedProbe) : Except InterpreterFailure Int64 × ScriptedProbe :=
  let (failure, failures) := FailureBudget.takeFor value p.failures
  let p := { p with failures, log := p.log.record s!"emit({value.toInt})" }
  match failure with
  | some failure => (.error failure, p)
  | none => (.ok (value + p.offset), p)

def interpreter : Interpreter ScriptedProbe probeAlgebra := fun m p =>
  match m with
  | .emit value => p.emit value

/-- A scripted probe that first sets a flag when it is sent the trigger. -/
def setting (trigger : Option Int64) : Interpreter (Bool × ScriptedProbe) probeAlgebra :=
  fun m (flag, p) =>
  match m with
  | .emit value =>
    let (reply, p) := p.emit value
    (reply, (flag || decide (trigger = some value), p))

end ScriptedProbe

end Brigade
