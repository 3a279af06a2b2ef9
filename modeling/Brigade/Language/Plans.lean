import Brigade.Hierarchy
import Brigade.Kitchen.Cooking
import Brigade.Relay.Basic

/-! The languages of this library, and how each carries out its commands. The commands of the probe, the
sandwich and the pizza language are calls of their interpreters; those of the relay and the cooking
language run children. -/

namespace Brigade

inductive Language
  | probe
  | relay
  | sandwich
  | pizza
  | cooking
  deriving DecidableEq

namespace Language

def algebra : Language → Algebra
  | .probe => probeAlgebra
  | .relay => relayAlgebra
  | .sandwich => sandwichAlgebra
  | .pizza => pizzaAlgebra
  | .cooking => cookingAlgebra

end Language

def ProbeCommand.plan : ProbeCommand → Plan Language.algebra .probe Int64
  | .emit value => .call (ProbeMethod.emit value) .answer

namespace RelayCommand

/-- Two numbers as one, modulo 2 ^ 64. -/
def pairValue (left right : Int64) : Int64 := left * 1000 + right

/-- The value of a supervised child, or -1 once the recovered failure is told to the interpreter. -/
def settle : ChildOutcome Int64 → Plan Language.algebra .relay Int64
  | .completed v => .answer v
  | .recovered error => .call (RelayMethod.recovered error) fun _ => .answer (-1)

def plan (c : RelayCommand) (frame : StepFrame) : Plan Language.algebra .relay Int64 :=
  match c.leaf with
  | .note text => .call (RelayMethod.note text) fun n => .answer n
  | .place => .answer (Int64.ofNat (frame.depth * 1000 + frame.index))
  | .forward selector p => .child .probe selector (ProbeScript.program p c.env) .answer
  | .nest selector r => .child .relay selector (RelayScript.program r c.env) .answer
  | .pair left right =>
    .join .probe (ProbeScript.program left c.env) .probe (ProbeScript.program right c.env)
      fun a b => .answer (pairValue a b)
  | .pairNest left right =>
    .join .relay (RelayScript.program left c.env) .probe (ProbeScript.program right c.env)
      fun a b => .answer (pairValue a b)
  | .supervise selector p => .supervise .probe selector (ProbeScript.program p c.env) settle
  | .superviseNest r => .supervise .relay none (RelayScript.program r c.env) settle
  | .insist p => .supervise .probe none (ProbeScript.program p c.env) fun outcome =>
    match outcome.result with
    | .ok v => .answer v
    | .error cause => .fail cause

end RelayCommand

def SandwichCommand.plan :
    (c : SandwichCommand) → Plan Language.algebra .sandwich (SandwichCommand.Answer c)
  | .start => .call SandwichMethod.start .answer
  | .add component body => .call (SandwichMethod.add component body) .answer
  | .finish body => .call (SandwichMethod.finish body) .answer

def PizzaCommand.plan : (c : PizzaCommand) → Plan Language.algebra .pizza (PizzaCommand.Answer c)
  | .prepare size => .call (PizzaMethod.prepare size) .answer
  | .top topping dough => .call (PizzaMethod.top topping dough) .answer
  | .bake dough minutes => .call (PizzaMethod.bake dough minutes) .answer

namespace CookingCommand

/-- The meal of a supervised child; a recovered failure is a meal that is unavailable. -/
def settle {α : Type} (meal : α → Meal) : ChildOutcome α → Meal
  | .completed v => meal v
  | .recovered error => .unavailable error.root.message

def plan : (c : CookingCommand) → Plan Language.algebra .cooking (CookingCommand.Answer c)
  | .makeSandwich recipe => .child .sandwich none recipe .answer
  | .makePizza maker recipe => .child .pizza maker recipe .answer
  | .makeCombo sandwich pizza =>
    .join .sandwich sandwich .pizza pizza fun s p => .answer (Meal.combo s p)
  | .makeRandomMeal => .call CookingMethod.chooseMeal fun
    | .sandwich order => .supervise .sandwich none order.recipe fun outcome =>
      .answer (settle Meal.sandwich outcome)
    | .pizza maker order => .supervise .pizza maker order.recipe fun outcome =>
      .answer (settle Meal.pizza outcome)
  | .serve meal => .call (CookingMethod.serve meal) fun ticket => .answer ⟨ticket, meal⟩

end CookingCommand

namespace Language

def plan : (l : Language) → (c : (algebra l).Command) → StepFrame →
    Plan algebra l ((algebra l).Answer c)
  | .probe, c, _ => ProbeCommand.plan c
  | .relay, c, frame => RelayCommand.plan c frame
  | .sandwich, c, _ => SandwichCommand.plan c
  | .pizza, c, _ => PizzaCommand.plan c
  | .cooking, c, _ => CookingCommand.plan c

instance : Hierarchy Language := ⟨algebra, plan⟩

end Language

end Brigade
