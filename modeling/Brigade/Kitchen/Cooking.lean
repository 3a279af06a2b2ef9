import Brigade.Kitchen.Meal

/-! The cooking language, one level above the sandwich and the pizza language: its commands hold
recipes, which run as child programs, and meals are served. -/

namespace Brigade

inductive CookingCommand : Type 1
  | makeSandwich (recipe : SandwichRecipe)
  | makePizza (maker : Option String) (recipe : PizzaRecipe)
  | makeCombo (sandwich : SandwichRecipe) (pizza : PizzaRecipe)
  | makeRandomMeal
  | serve (meal : Meal)

namespace CookingCommand

def Answer : CookingCommand → Type
  | .makeSandwich _ => Sandwich
  | .makePizza _ _ => Pizza
  | .makeCombo _ _ => Meal
  | .makeRandomMeal => Meal
  | .serve _ => Served

def title : CookingCommand → String
  | .makeSandwich _ => "MakeSandwich"
  | .makePizza _ _ => "MakePizza"
  | .makeCombo _ _ => "MakeCombo"
  | .makeRandomMeal => "MakeRandomMeal"
  | .serve _ => "Serve"

def detail : CookingCommand → String
  | .makePizza maker _ => maker.getD ""
  | .serve meal => meal.text
  | .makeSandwich _ | .makeCombo _ _ | .makeRandomMeal => ""

end CookingCommand

inductive CookingMethod
  | chooseMeal
  | serve (meal : Meal)

def CookingMethod.Reply : CookingMethod → Type
  | .chooseMeal => MealChoice
  | .serve _ => UInt32

abbrev cookingAlgebra : Algebra where
  name := "cooking"
  Command := CookingCommand
  Answer := CookingCommand.Answer
  title := CookingCommand.title
  detail := CookingCommand.detail
  Method := CookingMethod
  Reply := CookingMethod.Reply

abbrev Cooking (α : Type) : Type 1 := Program cookingAlgebra α

namespace Cooking

def makeSandwich (recipe : SandwichRecipe) : Cooking Sandwich :=
  .lift (A := cookingAlgebra) (CookingCommand.makeSandwich recipe)

/-- Makes a pizza in the default oven. -/
def makePizza (recipe : PizzaRecipe) : Cooking Pizza :=
  .lift (A := cookingAlgebra) (CookingCommand.makePizza none recipe)

/-- The maker that a text names; blanks around the name are dropped. -/
def makerOfText (s : String) : Built String :=
  if Text.isBlankText s then .error (.empty "maker") else .ok (Text.trim s)

/-- Makes a pizza in the oven of a maker. -/
def makePizzaBy (maker : String) (recipe : PizzaRecipe) : Built (Cooking Pizza) :=
  Built.transform (fun maker =>
    .lift (A := cookingAlgebra) (CookingCommand.makePizza (some maker) recipe)) (makerOfText maker)

def makeCombo (sandwich : SandwichRecipe) (pizza : PizzaRecipe) : Cooking Meal :=
  .lift (A := cookingAlgebra) (CookingCommand.makeCombo sandwich pizza)

def makeRandomMeal : Cooking Meal :=
  .lift (A := cookingAlgebra) CookingCommand.makeRandomMeal

def serve (meal : Meal) : Cooking Served :=
  .lift (A := cookingAlgebra) (CookingCommand.serve meal)

end Cooking

end Brigade
