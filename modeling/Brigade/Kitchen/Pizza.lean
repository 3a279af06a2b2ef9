import Brigade.Algebra.Basic
import Brigade.Kitchen.Ingredient
import Brigade.Kitchen.PizzaSize
import Brigade.Program.Basic

/-! The pizza language: dough is prepared, gets toppings one by one and is baked. -/

namespace Brigade

/-- A pizza before it is baked. -/
structure Dough where
  size : PizzaSize
  toppings : List Ingredient
  deriving DecidableEq

structure Pizza where
  size : PizzaSize
  toppings : List Ingredient
  bakedMinutes : UInt32
  maker : String
  deriving DecidableEq

namespace Dough

def plain (size : PizzaSize) : Dough := ⟨size, []⟩

def add (d : Dough) (topping : Ingredient) : Dough := ⟨d.size, d.toppings ++ [topping]⟩

def bake (d : Dough) (minutes : UInt32) (maker : String) : Pizza :=
  ⟨d.size, d.toppings, minutes, maker⟩

def toJson (d : Dough) : Json :=
  .obj [("size", d.size.toJson), ("toppings", Ingredient.listToJson d.toppings)]

def ofJson? (j : Json) : Option Dough := do
  match ← j.record? ["size", "toppings"] with
  | [some size, some toppings] =>
    return ⟨← PizzaSize.ofJson? size, ← Json.listOf? Ingredient.ofJson? toppings⟩
  | _ => none

end Dough

namespace Pizza

def text (p : Pizza) : String :=
  s!"{p.size.name} pizza [{Ingredient.enumerate p.toppings}] by {p.maker}"

def toJson (p : Pizza) : Json :=
  .obj [("size", p.size.toJson), ("toppings", Ingredient.listToJson p.toppings),
    ("baked_minutes", .ofNat p.bakedMinutes.toNat), ("maker", .str p.maker)]

def ofJson? (j : Json) : Option Pizza := do
  match ← j.record? ["size", "toppings", "baked_minutes", "maker"] with
  | [some size, some toppings, some minutes, some maker] =>
    return ⟨← PizzaSize.ofJson? size, ← Json.listOf? Ingredient.ofJson? toppings,
      ← Json.word32? minutes, ← maker.asString?⟩
  | _ => none

end Pizza

inductive PizzaCommand : Type 1
  | prepare (size : PizzaSize)
  | top (topping : Ingredient) (dough : Dough)
  | bake (dough : Dough) (minutes : UInt32)

namespace PizzaCommand

def Answer : PizzaCommand → Type
  | .prepare _ => Dough
  | .top _ _ => Dough
  | .bake _ _ => Pizza

def title : PizzaCommand → String
  | .prepare _ => "PrepareDough"
  | .top _ _ => "AddTopping"
  | .bake _ _ => "Bake"

def detail : PizzaCommand → String
  | .prepare size => size.name
  | .top topping _ => topping.name
  | .bake _ minutes => s!"{minutes.toNat} min"

end PizzaCommand

inductive PizzaMethod
  | prepare (size : PizzaSize)
  | top (topping : Ingredient) (dough : Dough)
  | bake (dough : Dough) (minutes : UInt32)

def PizzaMethod.Reply : PizzaMethod → Type
  | .prepare _ => Dough
  | .top _ _ => Dough
  | .bake _ _ => Pizza

abbrev pizzaAlgebra : Algebra where
  name := "pizza"
  Command := PizzaCommand
  Answer := PizzaCommand.Answer
  title := PizzaCommand.title
  detail := PizzaCommand.detail
  Method := PizzaMethod
  Reply := PizzaMethod.Reply

abbrev PizzaRecipe : Type 1 := Program pizzaAlgebra Pizza

namespace PizzaRecipe

def prepare (size : PizzaSize) : Program pizzaAlgebra Dough :=
  .lift (A := pizzaAlgebra) (PizzaCommand.prepare size)

def top (topping : Ingredient) (dough : Dough) : Program pizzaAlgebra Dough :=
  .lift (A := pizzaAlgebra) (PizzaCommand.top topping dough)

def leastMinutes : UInt32 := 5

def mostMinutes : UInt32 := 30

def Bakeable (minutes : UInt32) : Prop := leastMinutes ≤ minutes ∧ minutes ≤ mostMinutes

instance (minutes : UInt32) : Decidable (Bakeable minutes) := inferInstanceAs (Decidable (_ ∧ _))

def minutesFault (minutes : UInt32) : ConstructionError :=
  .outOfRange "minutes" minutes.toNat leastMinutes.toNat mostMinutes.toNat

/-- Bakes for a time that is in range. -/
def bakeFor (dough : Dough) (minutes : UInt32) : PizzaRecipe :=
  .lift (A := pizzaAlgebra) (PizzaCommand.bake dough minutes)

def bake (dough : Dough) (minutes : UInt32) : Built PizzaRecipe :=
  if Bakeable minutes then .ok (bakeFor dough minutes) else .error (minutesFault minutes)

/-- Adds toppings one by one to a dough and bakes it. -/
def layer (minutes : UInt32) : List Ingredient → Dough → PizzaRecipe
  | [], dough => bakeFor dough minutes
  | topping :: rest, dough => (top topping dough).bind (layer minutes rest)

end PizzaRecipe

/-- A pizza to be made: at least one topping, and a baking time in range. -/
structure PizzaOrder where
  size : PizzaSize
  toppings : List Ingredient
  minutes : UInt32
  nonempty : toppings ≠ []
  bakeable : PizzaRecipe.Bakeable minutes
  deriving DecidableEq

namespace PizzaOrder

def ofToppings (size : PizzaSize) (toppings : List Ingredient) (minutes : UInt32) :
    Built PizzaOrder :=
  if h : toppings = [] then .error (.empty "toppings")
  else if h' : PizzaRecipe.Bakeable minutes then .ok ⟨size, toppings, minutes, h, h'⟩
  else .error (PizzaRecipe.minutesFault minutes)

def ofTexts (size : PizzaSize) (names : List String) (minutes : UInt32) :
    Built PizzaOrder := do
  ofToppings size (← Ingredient.listFor "toppings" names) minutes

def recipe (o : PizzaOrder) : PizzaRecipe :=
  (PizzaRecipe.prepare o.size).bind (PizzaRecipe.layer o.minutes o.toppings)

def text (o : PizzaOrder) : String :=
  s!"{o.size.name} pizza with {Ingredient.enumerate o.toppings}, {o.minutes.toNat} min"

def toJson (o : PizzaOrder) : Json :=
  .obj [("size", o.size.toJson), ("toppings", Ingredient.listToJson o.toppings),
    ("minutes", .ofNat o.minutes.toNat)]

end PizzaOrder

end Brigade
