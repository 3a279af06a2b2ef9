import Brigade.ErrorCode
import Brigade.Json.Record

/-! How an interpreter fails to answer. A missing resource and a failed operation may pass with a
further attempt; a refusal and an abort do not. -/

namespace Brigade

inductive InterpreterFailure
  | unavailable (reason : String)
  | failed (reason : String)
  | rejected (reason : String)
  | aborted
  deriving DecidableEq

namespace InterpreterFailure

def code : InterpreterFailure → String
  | .unavailable _ => "INTERPRETER_UNAVAILABLE"
  | .failed _ => "INTERPRETER_FAILED"
  | .rejected _ => "INTERPRETER_REJECTED"
  | .aborted => "INTERPRETER_ABORTED"

def message : InterpreterFailure → String
  | .unavailable reason => s!"resource unavailable: {reason}"
  | .failed reason => s!"operation failed: {reason}"
  | .rejected reason => s!"command rejected: {reason}"
  | .aborted => "interpreter aborted"

def recoverable : InterpreterFailure → Bool
  | .unavailable _ | .failed _ => true
  | .rejected _ | .aborted => false

instance : Coded InterpreterFailure := ⟨code, message, recoverable⟩

def toJson : InterpreterFailure → Json
  | .unavailable reason => .obj [("Unavailable", .str reason)]
  | .failed reason => .obj [("Failed", .str reason)]
  | .rejected reason => .obj [("Rejected", .str reason)]
  | .aborted => .str "Aborted"

/-- A failure is an object whose one field names its kind; an abort may be its name alone. -/
def ofJson? : Json → Option InterpreterFailure
  | .str "Aborted" => some .aborted
  | .obj [("Aborted", .null)] => some .aborted
  | .obj [("Unavailable", .str reason)] => some (.unavailable reason)
  | .obj [("Failed", .str reason)] => some (.failed reason)
  | .obj [("Rejected", .str reason)] => some (.rejected reason)
  | _ => none

end InterpreterFailure

end Brigade
