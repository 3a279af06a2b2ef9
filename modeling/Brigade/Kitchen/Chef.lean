import Brigade.Kitchen.Cooking
import Brigade.Random.Sample

/-! The chef, who chooses meals at random from a pantry and numbers the meals that are served. -/

namespace Brigade

structure Chef where
  stream : Random.Stream
  pantry : List Ingredient
  makers : List String
  nextTicket : UInt32
  deriving DecidableEq

namespace Chef

def defaultPantry : List String :=
  ["Cheese", "Salt", "Ham", "Tomato", "Lettuce", "Mozzarella", "Basil", "Mushroom", "Olive"]

def ofSeed (seed : UInt64) (makers : List String) : Chef :=
  ⟨.ofSeed seed, defaultPantry.filterMap fun name => (Ingredient.ofText name).toOption, makers, 1⟩

def asFailure {α : Type} : Built α → Except InterpreterFailure α
  | .ok a => .ok a
  | .error e => .error (.failed e.message)

/-- A sandwich of up to four components. -/
def chooseSandwich (c : Chef) : Except InterpreterFailure MealChoice × Chef :=
  let (components, stream) := c.stream.pick c.pantry 1 4
  (asFailure ((SandwichOrder.ofComponents components).map .sandwich), { c with stream })

/-- A pizza with up to three toppings, by one of the makers if there are any. -/
def choosePizza (c : Chef) : Except InterpreterFailure MealChoice × Chef :=
  let (size, stream) := c.stream.choose PizzaSize.all
  let (toppings, stream) := stream.pick c.pantry 1 3
  let (minutes, stream) := stream.between .single 8 15
  match PizzaOrder.ofToppings (size.getD .medium) toppings (UInt32.ofNat minutes) with
  | .ok order =>
    let (maker, stream) := stream.choose c.makers
    (.ok (.pizza maker order), { c with stream })
  | .error e => (.error (.failed e.message), { c with stream })

def chooseMeal (c : Chef) : Except InterpreterFailure MealChoice × Chef :=
  if c.pantry.isEmpty then (.error (.unavailable "pantry is empty"), c)
  else
    let (sandwich, stream) := c.stream.coin
    let c := { c with stream }
    if sandwich then c.chooseSandwich else c.choosePizza

def serve (c : Chef) : UInt32 × Chef := (c.nextTicket, { c with nextTicket := c.nextTicket + 1 })

def interpreter : Interpreter Chef cookingAlgebra := fun m c =>
  match m with
  | .chooseMeal => c.chooseMeal
  | .serve _ =>
    let (ticket, c) := c.serve
    (.ok ticket, c)

end Chef

end Brigade
