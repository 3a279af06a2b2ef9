import Brigade.Algebra.Basic
import Brigade.Kitchen.Ingredient
import Brigade.Program.Basic

/-! The sandwich language: a sandwich is started, gets components one by one and is finished. -/

namespace Brigade

/-- A sandwich under construction. -/
structure SandwichBody where
  components : List Ingredient
  deriving DecidableEq

structure Sandwich where
  components : List Ingredient
  deriving DecidableEq

def componentsOfJson? (j : Json) : Option (List Ingredient) := do
  match ← j.record? ["components"] with
  | [some components] => Json.listOf? Ingredient.ofJson? components
  | _ => none

namespace SandwichBody

def empty : SandwichBody := ⟨[]⟩

def add (b : SandwichBody) (component : Ingredient) : SandwichBody := ⟨b.components ++ [component]⟩

def toJson (b : SandwichBody) : Json := .obj [("components", Ingredient.listToJson b.components)]

def ofJson? (j : Json) : Option SandwichBody := (componentsOfJson? j).map .mk

end SandwichBody

namespace Sandwich

def text (s : Sandwich) : String := "sandwich [" ++ Ingredient.enumerate s.components ++ "]"

def toJson (s : Sandwich) : Json := .obj [("components", Ingredient.listToJson s.components)]

def ofJson? (j : Json) : Option Sandwich := (componentsOfJson? j).map .mk

end Sandwich

inductive SandwichCommand : Type 1
  | start
  | add (component : Ingredient) (body : SandwichBody)
  | finish (body : SandwichBody)

namespace SandwichCommand

def Answer : SandwichCommand → Type
  | .start => SandwichBody
  | .add _ _ => SandwichBody
  | .finish _ => Sandwich

def title : SandwichCommand → String
  | .start => "StartNewSandwich"
  | .add _ _ => "AddComponent"
  | .finish _ => "FinishSandwich"

def detail : SandwichCommand → String
  | .start => ""
  | .add component _ => component.name
  | .finish body => s!"{body.components.length} components"

end SandwichCommand

inductive SandwichMethod
  | start
  | add (component : Ingredient) (body : SandwichBody)
  | finish (body : SandwichBody)

def SandwichMethod.Reply : SandwichMethod → Type
  | .start => SandwichBody
  | .add _ _ => SandwichBody
  | .finish _ => Sandwich

abbrev sandwichAlgebra : Algebra where
  name := "sandwich"
  Command := SandwichCommand
  Answer := SandwichCommand.Answer
  title := SandwichCommand.title
  detail := SandwichCommand.detail
  Method := SandwichMethod
  Reply := SandwichMethod.Reply

abbrev SandwichRecipe : Type 1 := Program sandwichAlgebra Sandwich

namespace SandwichRecipe

def start : Program sandwichAlgebra SandwichBody :=
  .lift (A := sandwichAlgebra) SandwichCommand.start

def add (component : Ingredient) (body : SandwichBody) : Program sandwichAlgebra SandwichBody :=
  .lift (A := sandwichAlgebra) (SandwichCommand.add component body)

def finish (body : SandwichBody) : SandwichRecipe :=
  .lift (A := sandwichAlgebra) (SandwichCommand.finish body)

/-- Adds components one by one to a body and finishes it. -/
def stack : List Ingredient → SandwichBody → SandwichRecipe
  | [], body => finish body
  | component :: rest, body => (add component body).bind (stack rest)

end SandwichRecipe

/-- A sandwich to be made: at least one component. -/
@[ext] structure SandwichOrder where
  components : List Ingredient
  nonempty : components ≠ []

instance : DecidableEq SandwichOrder := fun _ _ => decidable_of_iff _ SandwichOrder.ext_iff.symm

namespace SandwichOrder

def ofComponents (components : List Ingredient) : Built SandwichOrder :=
  if h : components = [] then .error (.empty "components") else .ok ⟨components, h⟩

def ofTexts (names : List String) : Built SandwichOrder :=
  Ingredient.listFor "components" names >>= ofComponents

def recipe (o : SandwichOrder) : SandwichRecipe :=
  SandwichRecipe.start.bind (SandwichRecipe.stack o.components)

def text (o : SandwichOrder) : String := "sandwich of " ++ Ingredient.enumerate o.components

def toJson (o : SandwichOrder) : Json := .obj [("components", Ingredient.listToJson o.components)]

end SandwichOrder

end Brigade
