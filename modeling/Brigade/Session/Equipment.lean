import Brigade.Kitchen.Basic

/-! Interpreters that can be installed one by one, each with what it starts from. -/

namespace Brigade

inductive Equipment
  | probe (p : ScriptedProbe)
  /-- A probe that cancels runs when it is sent the trigger. -/
  | cancellingProbe (p : ScriptedProbe) (trigger : Option Int64)
  | noteBook (failures : List (String × FailureBudget))
  | station (station : Station)
  | oven (oven : Oven) (stock : DoughStock)
  | chef (chef : Chef)
  | sandwichRecorder
  | pizzaRecorder (maker : String) (failure : Option FailureBudget)
  | machine (choice : Option MealChoice)

namespace Equipment

def language : Equipment → Language
  | .probe _ | .cancellingProbe _ _ => .probe
  | .noteBook _ => .relay
  | .station _ | .sandwichRecorder => .sandwich
  | .oven _ _ | .pizzaRecorder _ _ => .pizza
  | .chef _ | .machine _ => .cooking

/-- Installs the equipment; runs are cancelled by setting the flag with the given number. -/
def install (flagNumber : Nat) (store : Store) :
    (e : Equipment) → Installed (algebra e.language)
  | .probe p => store.addProbe p
  | .cancellingProbe p trigger => store.addSettingProbe p trigger flagNumber
  | .noteBook failures => store.addNotes failures
  | .station s => (s.interpreter, store)
  | .oven o stock => store.addOven o stock
  | .chef c => store.addChef c
  | .sandwichRecorder => store.addSandwichRecorder
  | .pizzaRecorder maker failure => store.addPizzaRecorder maker failure
  | .machine choice => store.addMachine choice

end Equipment

end Brigade
