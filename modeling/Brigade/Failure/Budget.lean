import Brigade.Failure.Interpreter

/-! Scripted failures: a failure that comes a number of times, or always. -/

namespace Brigade

structure FailureBudget where
  failure : InterpreterFailure
  /-- How many more times it comes; `none` is always. -/
  left : Option UInt32
  deriving DecidableEq

namespace FailureBudget

/-- The failure that comes now, if one does, and what is left after it. -/
def take (b : FailureBudget) : Option InterpreterFailure × FailureBudget :=
  match b.left with
  | none => (some b.failure, b)
  | some left => if left = 0 then (none, b) else (some b.failure, ⟨b.failure, some (left - 1)⟩)

def takeFor {κ : Type} [DecidableEq κ] (key : κ) :
    List (κ × FailureBudget) → Option InterpreterFailure × List (κ × FailureBudget)
  | [] => (none, [])
  | (k, b) :: rest =>
    if k = key then
      let (failure, b) := b.take
      (failure, (k, b) :: rest)
    else
      let (failure, rest) := takeFor key rest
      (failure, (k, b) :: rest)

def putFor {κ : Type} [DecidableEq κ] (key : κ) (budget : FailureBudget) :
    List (κ × FailureBudget) → List (κ × FailureBudget)
  | [] => [(key, budget)]
  | (k, b) :: rest => if k = key then (key, budget) :: rest else (k, b) :: putFor key budget rest

def script {κ : Type} [DecidableEq κ] (budgets : List (κ × FailureBudget)) :
    List (κ × FailureBudget) :=
  budgets.foldl (fun script b => putFor b.1 b.2 script) []

end FailureBudget

end Brigade
