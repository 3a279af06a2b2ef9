import Brigade.Kitchen.Station
import Brigade.Language.Plans
import Brigade.Registry
import Brigade.Store

/-! Kitchens: a station, ovens and a chef, bound for the languages of the kitchen. -/

namespace Brigade

/-- A registry, and the store in which its interpreters keep their state. -/
structure Staff where
  registry : Registry Language Store
  store : Store

namespace Staff

def nobody : Staff := ⟨.empty, .empty⟩

/-- Binds an interpreter that was installed in the staff's store. -/
def bind (staff : Staff) (l : Language) (selector : Option String) (i : Installed (algebra l)) :
    Staff :=
  ⟨staff.registry.bind l selector i.1, i.2⟩

end Staff

def houseMaker : String := "house"

structure Kitchen where
  makers : List String
  /-- Where the stream starts from which the chef draws. There always is one: who asks for none gets a
  fresh one from outside. -/
  seed : UInt64
  doughStock : DoughStock
  station : Station
  deriving DecidableEq

namespace Kitchen

def addOven (k : Kitchen) (selector : Option String) (maker : String) (staff : Staff) : Staff :=
  staff.bind .pizza selector (staff.store.addOven ⟨maker⟩ k.doughStock)

/-- Sets up the kitchen: the defaults are the station, the house oven and the chef, and every maker
has an oven under the maker's name. -/
def staff (k : Kitchen) (store : Store) : Staff :=
  let staff : Staff := ⟨Registry.empty.bind .sandwich none k.station.interpreter, store⟩
  let staff := k.addOven none houseMaker staff
  let staff := staff.bind .cooking none (staff.store.addChef (.ofSeed k.seed k.makers))
  k.makers.foldl (fun staff maker => k.addOven (some maker) maker staff) staff

end Kitchen

namespace Recorder

def addMaker (selector : Option String) (maker : String) (staff : Staff) : Staff :=
  staff.bind .pizza selector (staff.store.addPizzaRecorder maker none)

/-- Recording interpreters in the places that a kitchen has; the machine always chooses `choice`. -/
def staff (makers : List String) (choice : Option MealChoice) (store : Store) : Staff :=
  let staff : Staff := ⟨.empty, store⟩
  let staff := staff.bind .sandwich none staff.store.addSandwichRecorder
  let staff := addMaker none houseMaker staff
  let staff := staff.bind .cooking none (staff.store.addMachine choice)
  makers.foldl (fun staff maker => addMaker (some maker) maker staff) staff

end Recorder

end Brigade
