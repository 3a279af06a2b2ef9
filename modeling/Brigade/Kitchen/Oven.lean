import Brigade.Kitchen.Pizza

/-! Pizza ovens. An oven uses one portion of dough for every pizza that is begun. -/

namespace Brigade

/-- The dough that an oven has left; `none` is without limit. -/
abbrev DoughStock := Option UInt32

structure Oven where
  maker : String
  deriving DecidableEq

namespace Oven

def maxToppings : Nat := 8

def prepare (o : Oven) (size : PizzaSize) (stock : DoughStock) :
    Except InterpreterFailure Dough × DoughStock :=
  match stock with
  | none => (.ok (.plain size), none)
  | some left =>
    if left = 0 then (.error (.unavailable s!"{o.maker} is out of dough"), some left)
    else (.ok (.plain size), some (left - 1))

def top (topping : Ingredient) (dough : Dough) : Except InterpreterFailure Dough :=
  if maxToppings ≤ dough.toppings.length then
    .error (.rejected s!"more than {maxToppings} toppings")
  else .ok (dough.add topping)

def interpreter (o : Oven) : Interpreter DoughStock pizzaAlgebra := fun m stock =>
  match m with
  | .prepare size => o.prepare size stock
  | .top topping dough => (top topping dough, stock)
  | .bake dough minutes => (.ok (dough.bake minutes o.maker), stock)

end Oven

end Brigade
