import Brigade.Language.Plans

/-! What programs of any language give, and programs of any language that give it. -/

namespace Brigade

/-- What a program of the cooking language gives. -/
inductive Dish
  | sandwich (sandwich : Sandwich)
  | pizza (pizza : Pizza)
  | meal (meal : Meal)
  | served (served : Served)

namespace Dish

/-- The dish as a meal; what was served is the meal that was served. -/
def toMeal : Dish → Meal
  | .sandwich s => .sandwich s
  | .pizza p => .pizza p
  | .meal m => m
  | .served s => s.meal

def text : Dish → String
  | .sandwich s => s.text
  | .pizza p => p.text
  | .meal m => m.text
  | .served s => s.text

def toJson : Dish → Json
  | .sandwich s => s.toJson
  | .pizza p => p.toJson
  | .meal m => m.toJson
  | .served s => s.toJson

end Dish

inductive Product
  | number (n : Int64)
  | body (body : SandwichBody)
  | dough (dough : Dough)
  | dish (dish : Dish)

structure Task : Type 1 where
  language : Language
  program : Program (algebra language) Product

namespace Task

def of (l : Language) {α : Type} (product : α → Product) (p : Program (algebra l) α) : Task :=
  ⟨l, p.map product⟩

end Task

end Brigade
