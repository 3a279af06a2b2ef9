import Brigade.Kitchen.Cooking

/-! The menu: the dishes of the house, and the orders that guests give. -/

namespace Brigade

namespace Menu

def houseComponents : List String := ["Cheese", "Salt"]

def houseToppings : List String := ["Tomato", "Mozzarella", "Basil"]

def houseMinutes : UInt32 := 12

def houseSandwich : Built SandwichOrder := SandwichOrder.ofTexts houseComponents

def housePizza : Built PizzaOrder :=
  PizzaOrder.ofTexts .medium houseToppings houseMinutes

/-- The house pizza by a maker, or the house sandwich if there is none. -/
def houseChoice : Option String → Built MealChoice
  | none => do return .sandwich (← houseSandwich)
  | some maker => do
    let maker ← Cooking.makerOfText maker
    return .pizza (some maker) (← housePizza)

end Menu

inductive Order
  | sandwich
  | pizza
  | combo
  | random
  deriving DecidableEq

namespace Order

def all : List Order := [.sandwich, .pizza, .combo, .random]

def name : Order → String
  | .sandwich => "sandwich"
  | .pizza => "pizza"
  | .combo => "combo"
  | .random => "random"

def ofText (s : String) : Built Order :=
  match Text.trimmedKeyword? (all.map fun o => (o.name, o)) s with
  | some o => .ok o
  | none => .error (.invalid "order" s!"unknown order '{s}'")

def meal (maker : Option String) : Order → Built (Cooking Meal)
  | .sandwich => Built.transform (fun sandwich =>
      (Cooking.makeSandwich sandwich.recipe).map .sandwich) Menu.houseSandwich
  | .pizza => Built.andThen Menu.housePizza fun pizza =>
      match maker with
      | some maker => Built.transform (·.map .pizza) (Cooking.makePizzaBy maker pizza.recipe)
      | none => .ok ((Cooking.makePizza pizza.recipe).map .pizza)
  | .combo => Built.andThen Menu.houseSandwich fun sandwich => Built.transform (fun pizza =>
      Cooking.makeCombo sandwich.recipe pizza.recipe) Menu.housePizza
  | .random => .ok Cooking.makeRandomMeal

/-- Makes the meal of an order and serves it. Only a pizza can have a maker of its own. -/
def program (maker : Option String) (o : Order) : Built (Cooking Served) :=
  Built.transform (·.bind Cooking.serve) (o.meal maker)

end Order

end Brigade
