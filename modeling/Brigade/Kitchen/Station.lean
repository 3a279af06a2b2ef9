import Brigade.Kitchen.Sandwich

/-! The sandwich station: it makes sandwiches of a limited height and keeps no state. -/

namespace Brigade

structure Station where
  /-- How many components a sandwich may have. -/
  maxComponents : Nat
  deriving DecidableEq

namespace Station

def defaultMaxComponents : Nat := 12

def standard : Station := ⟨defaultMaxComponents⟩

def add (s : Station) (component : Ingredient) (body : SandwichBody) :
    Except InterpreterFailure SandwichBody :=
  if s.maxComponents ≤ body.components.length then
    .error (.rejected s!"sandwich already has {s.maxComponents} components")
  else .ok (body.add component)

def finish (body : SandwichBody) : Except InterpreterFailure Sandwich :=
  if body.components.isEmpty then .error (.rejected "nothing between the bread")
  else .ok ⟨body.components⟩

def interpreter {σ : Type} (s : Station) : Interpreter σ sandwichAlgebra := fun m state =>
  match m with
  | .start => (.ok SandwichBody.empty, state)
  | .add component body => (s.add component body, state)
  | .finish body => (finish body, state)

end Station

end Brigade
