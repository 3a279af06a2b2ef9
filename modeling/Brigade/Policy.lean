import Brigade.Failure.Execution

/-! What happens to the failure of a supervised child program, by the algebra of the child. -/

namespace Brigade

inductive FailurePolicy
  /-- The failure becomes the failure of the step that ran the child. -/
  | propagate
  /-- The child runs again while its failure is recoverable, `attempts` times in all. -/
  | retry (attempts : UInt32)
  /-- The failure is handed back as a value. -/
  | recover
  deriving DecidableEq

namespace FailurePolicy

/-- How many times a child may run; at least once. -/
def maxAttempts : FailurePolicy → Nat
  | .retry attempts => max attempts.toNat 1
  | .propagate | .recover => 1

def recovers : FailurePolicy → Bool
  | .recover => true
  | .propagate | .retry _ => false

def toJson : FailurePolicy → Json
  | .propagate => .obj [("kind", .str "propagate")]
  | .retry attempts => .obj [("kind", .str "retry"), ("attempts", .ofNat attempts.toNat)]
  | .recover => .obj [("kind", .str "recover")]

/-- A policy is an object that names its kind, or an array that starts with the kind. -/
def ofJson? : Json → Option FailurePolicy
  | .obj fields =>
    match fields.lookup "kind" with
    | some (.str "propagate") => some .propagate
    | some (.str "recover") => some .recover
    | some (.str "retry") => ((fields.lookup "attempts").bind Json.word32?).map .retry
    | _ => none
  | .arr [.str "propagate"] => some .propagate
  | .arr [.str "recover"] => some .recover
  | .arr [.str "retry", attempts] => (Json.word32? attempts).map .retry
  | _ => none

def diagnostic : FailurePolicy → String
  | .propagate => "Propagate"
  | .retry attempts => "Retry \x7b attempts: " ++ toString attempts.toNat ++ " \x7d"
  | .recover => "Recover"

end FailurePolicy

/-- The result of a supervised child that did not fail the step that ran it. -/
inductive ChildOutcome (α : Type)
  | completed (value : α)
  | recovered (error : ExecutionError)

namespace ChildOutcome

/-- Makes a recovered failure a failure again. -/
def result {α : Type} : ChildOutcome α → Except FailureCause α
  | .completed v => .ok v
  | .recovered e => .error e.asChild

end ChildOutcome

end Brigade
