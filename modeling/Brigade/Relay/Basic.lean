import Brigade.Policy
import Brigade.Probe.Basic

/-! The relay language: its commands run scripts of the probe language and of its own as children. It
exercises every way in which a step can run a child. -/

namespace Brigade

/-- A leaf of a relay script. It gives a number, as all scripts do. -/
inductive RelayLeaf
  /-- Has the interpreter note a text; gives the interpreter's answer. -/
  | note (text : String)
  /-- Gives 1000 times the depth of the step, plus its index. -/
  | place
  /-- Runs a probe script as a child. -/
  | forward (selector : Option String) (p : ProbeScript)
  /-- Runs a relay script as a child. -/
  | nest (selector : Option String) (r : Script RelayLeaf)
  /-- Runs two probe scripts; gives 1000 times the first value, plus the second. -/
  | pair (left right : ProbeScript)
  | pairNest (left : Script RelayLeaf) (right : ProbeScript)
  /-- Runs a probe script as a supervised child; a failure that is recovered gives -1. -/
  | supervise (selector : Option String) (p : ProbeScript)
  | superviseNest (r : Script RelayLeaf)
  /-- Runs a probe script as a supervised child, and fails with a failure that was recovered. -/
  | insist (p : ProbeScript)

abbrev RelayScript := Script RelayLeaf

def RelayScript.nested : Nat → RelayScript → RelayScript
  | 0, r => r
  | n + 1, r => .leaf (.nest none (nested n r))

/-- A command is a leaf and the numbers that were bound where it stands. -/
structure RelayCommand : Type 1 where
  env : Bindings
  leaf : RelayLeaf

namespace RelayCommand

def title (c : RelayCommand) : String :=
  match c.leaf with
  | .note _ => "Note"
  | .place => "Where"
  | .forward none _ => "Forward"
  | .forward (some _) _ => "ForwardAs"
  | .nest none _ => "Nest"
  | .nest (some _) _ => "NestAs"
  | .pair _ _ => "Pair"
  | .pairNest _ _ => "PairNest"
  | .supervise _ _ => "Supervise"
  | .superviseNest _ => "SuperviseNest"
  | .insist _ => "Insist"

def detail (c : RelayCommand) : String :=
  match c.leaf with
  | .note text => text
  | .forward selector _ | .nest selector _ | .supervise selector _ => selector.getD ""
  | .place | .pair _ _ | .pairNest _ _ | .superviseNest _ | .insist _ => ""

end RelayCommand

inductive RelayMethod
  | note (text : String)
  /-- Tells that the failure of a child was recovered. -/
  | recovered (error : ExecutionError)

def RelayMethod.Reply : RelayMethod → Type
  | .note _ => Int64
  | .recovered _ => Unit

abbrev relayAlgebra : Algebra where
  name := "relay"
  Command := RelayCommand
  Answer := fun _ => Int64
  title := RelayCommand.title
  detail := RelayCommand.detail
  Method := RelayMethod
  Reply := RelayMethod.Reply

def RelayScript.program (r : RelayScript) (env : Bindings) : Program relayAlgebra Int64 :=
  Script.program (fun env leaf => .lift (A := relayAlgebra) ⟨env, leaf⟩) r env

/-- What the interpreter that takes notes keeps: a log, and which notes it fails to take. -/
structure NoteBook where
  log : CallLog
  failures : List (String × FailureBudget)

/-- The interpreter that takes notes. It answers a note with the number of its characters. -/
def NoteBook.interpreter : Interpreter NoteBook relayAlgebra := fun m b =>
  match m with
  | .note text =>
    let (failure, failures) := FailureBudget.takeFor text b.failures
    let b : NoteBook := ⟨b.log.record s!"note({text})", failures⟩
    match failure with
    | some failure => (.error failure, b)
    | none => (.ok (Int64.ofNat text.length), b)
  | .recovered error =>
    (.ok (), { b with log := b.log.record s!"recovered {error.root.code}: {error.message}" })

end Brigade
