import Brigade.Kitchen.Pizza
import Brigade.Kitchen.Sandwich

/-! Meals: what a kitchen makes and serves, and what a chef chooses to make. -/

namespace Brigade

inductive Meal
  | sandwich (sandwich : Sandwich)
  | pizza (pizza : Pizza)
  | combo (sandwich : Sandwich) (pizza : Pizza)
  /-- The meal could not be made. -/
  | unavailable (reason : String)
  deriving DecidableEq

namespace Meal

def isAvailable : Meal → Bool
  | .unavailable _ => false
  | _ => true

def text : Meal → String
  | .sandwich s => s.text
  | .pizza p => p.text
  | .combo s p => s!"combo: {s.text} + {p.text}"
  | .unavailable reason => s!"meal unavailable ({reason})"

def toJson : Meal → Json
  | .sandwich s =>
    .obj [("kind", .str "sandwich"), ("components", Ingredient.listToJson s.components)]
  | .pizza p =>
    .obj [("kind", .str "pizza"), ("size", p.size.toJson),
      ("toppings", Ingredient.listToJson p.toppings),
      ("baked_minutes", .ofNat p.bakedMinutes.toNat), ("maker", .str p.maker)]
  | .combo s p => .obj [("kind", .str "combo"), ("sandwich", s.toJson), ("pizza", p.toJson)]
  | .unavailable reason => .obj [("kind", .str "unavailable"), ("reason", .str reason)]

end Meal

/-- A meal with the number under which it was served. -/
structure Served where
  ticket : UInt32
  meal : Meal
  deriving DecidableEq

namespace Served

def text (s : Served) : String := s!"#{s.ticket.toNat} {s.meal.text}"

def toJson (s : Served) : Json :=
  .obj [("ticket", .ofNat s.ticket.toNat), ("meal", s.meal.toJson)]

end Served

/-- What to make, and for a pizza by whom; without a maker the default oven bakes. -/
inductive MealChoice
  | sandwich (order : SandwichOrder)
  | pizza (maker : Option String) (order : PizzaOrder)
  deriving DecidableEq

namespace MealChoice

def text : MealChoice → String
  | .sandwich order => order.text
  | .pizza (some maker) order => s!"{order.text} by {maker}"
  | .pizza none order => order.text

def toJson : MealChoice → Json
  | .sandwich order => .obj [("Sandwich", order.toJson)]
  | .pizza maker order =>
    .obj [("Pizza", .obj [("maker", Json.ofOption .str maker), ("order", order.toJson)])]

end MealChoice

end Brigade
