import Brigade.CallLog.Basic
import Brigade.Failure.Budget
import Brigade.Kitchen.Cooking

/-! Interpreters that record their calls instead of cooking: they set no limits and fail only as
scripted. -/

namespace Brigade.Recorder

def sandwich : Interpreter CallLog sandwichAlgebra := fun m log =>
  match m with
  | .start => (.ok SandwichBody.empty, log.record "sandwich.start")
  | .add component body => (.ok (body.add component), log.record s!"sandwich.add({component.name})")
  | .finish body => (.ok (⟨body.components⟩ : Sandwich), log.record "sandwich.finish")

/-- What a recording pizza maker keeps: the log, and the failures that preparing dough meets. -/
structure PizzaState where
  log : CallLog
  failure : Option FailureBudget

namespace PizzaState

def record (s : PizzaState) (entry : String) : PizzaState := { s with log := s.log.record entry }

/-- The failure that comes now, if one does. -/
def take (s : PizzaState) : Option InterpreterFailure × PizzaState :=
  match s.failure with
  | none => (none, s)
  | some budget =>
    let (failure, budget) := budget.take
    (failure, { s with failure := some budget })

end PizzaState

def pizza (maker : String) : Interpreter PizzaState pizzaAlgebra := fun m s =>
  match m with
  | .prepare size =>
    let (failure, s) := (s.record s!"{maker}.dough({size.name})").take
    match failure with
    | some failure => (.error failure, s)
    | none => (.ok (Dough.plain size), s)
  | .top topping dough => (.ok (dough.add topping), s.record s!"{maker}.top({topping.name})")
  | .bake dough minutes =>
    (.ok (dough.bake minutes maker), s.record s!"{maker}.bake({minutes.toNat})")

/-- What the recording machine keeps: the log, and the number of the next meal. -/
structure MachineState where
  log : CallLog
  nextTicket : UInt32

def machine (choice : Option MealChoice) : Interpreter MachineState cookingAlgebra := fun m s =>
  match m with
  | .chooseMeal =>
    let s := { s with log := s.log.record "machine.choose" }
    match choice with
    | some choice => (.ok choice, s)
    | none => (.error (.rejected "no meal scripted"), s)
  | .serve meal =>
    (.ok s.nextTicket, ⟨s.log.record s!"machine.serve({meal.text})", s.nextTicket + 1⟩)

end Brigade.Recorder
