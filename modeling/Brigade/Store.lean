import Brigade.Kitchen.Chef
import Brigade.Kitchen.Oven
import Brigade.Kitchen.Recorder
import Brigade.Probe.Basic
import Brigade.Relay.Basic

/-! What interpreters keep between calls. Recording interpreters share one log; cells of each kind are
numbered in the order in which they were added. -/

namespace Brigade

structure Store where
  log : CallLog
  /-- The flags that cancel runs. -/
  flags : List Bool
  probes : List ScriptedProbe
  notes : List (List (String × FailureBudget))
  ovens : List DoughStock
  chefs : List Chef
  /-- The failures of recording pizza makers. -/
  pizzaFailures : List (Option FailureBudget)
  /-- The next tickets of recording machines. -/
  machineTickets : List UInt32

namespace Store

def empty : Store := ⟨.empty, [], [], [], [], [], [], []⟩

def logSlot : Slot Store CallLog := ⟨Store.log, fun log s => { s with log }⟩

/-- The cell with a number; one that was not added is as `default`. -/
def cell {τ : Type} (default : τ) (n : Nat) (cells : List τ) : τ := cells.getD n default

def flag (n : Nat) : Slot Store Bool :=
  ⟨fun s => cell false n s.flags, fun b s => { s with flags := s.flags.set n b }⟩

def probe (n : Nat) : Slot Store ScriptedProbe :=
  ⟨fun s => cell .initial n s.probes, fun p s => { s with probes := s.probes.set n p }⟩

def probeAndFlag (n flagNumber : Nat) : Slot Store (Bool × ScriptedProbe) :=
  ⟨fun s => ((flag flagNumber).get s, (probe n).get s),
    fun (b, p) s => (probe n).set p ((flag flagNumber).set b s)⟩

def noteBook (n : Nat) : Slot Store NoteBook :=
  ⟨fun s => ⟨s.log, cell [] n s.notes⟩,
    fun b s => { s with log := b.log, notes := s.notes.set n b.failures }⟩

def oven (n : Nat) : Slot Store DoughStock :=
  ⟨fun s => cell none n s.ovens, fun stock s => { s with ovens := s.ovens.set n stock }⟩

def chef (n : Nat) : Slot Store Chef :=
  ⟨fun s => cell (.ofSeed 0 []) n s.chefs, fun c s => { s with chefs := s.chefs.set n c }⟩

def pizzaRecorder (n : Nat) : Slot Store Recorder.PizzaState :=
  ⟨fun s => ⟨s.log, cell none n s.pizzaFailures⟩,
    fun p s => { s with log := p.log, pizzaFailures := s.pizzaFailures.set n p.failure }⟩

def machine (n : Nat) : Slot Store Recorder.MachineState :=
  ⟨fun s => ⟨s.log, cell 1 n s.machineTickets⟩,
    fun m s => { s with log := m.log, machineTickets := s.machineTickets.set n m.nextTicket }⟩

end Store

/-- Places for interpreters in a store: each adds a cell and gives the interpreter that keeps its state
there. -/
abbrev Installed (A : Algebra) : Type := Interpreter Store A × Store

namespace Store

def addFlag (s : Store) : Nat × Store := (s.flags.length, { s with flags := s.flags ++ [false] })

def addProbe (p : ScriptedProbe) (s : Store) : Installed probeAlgebra :=
  (ScriptedProbe.interpreter.within (probe s.probes.length), { s with probes := s.probes ++ [p] })

/-- Adds a probe that sets a flag when it is sent the trigger. -/
def addSettingProbe (p : ScriptedProbe) (trigger : Option Int64) (flagNumber : Nat) (s : Store) :
    Installed probeAlgebra :=
  ((ScriptedProbe.setting trigger).within (probeAndFlag s.probes.length flagNumber),
    { s with probes := s.probes ++ [p] })

def addNotes (failures : List (String × FailureBudget)) (s : Store) : Installed relayAlgebra :=
  (NoteBook.interpreter.within (noteBook s.notes.length), { s with notes := s.notes ++ [failures] })

def addOven (o : Oven) (stock : DoughStock) (s : Store) : Installed pizzaAlgebra :=
  (o.interpreter.within (oven s.ovens.length), { s with ovens := s.ovens ++ [stock] })

def addChef (c : Chef) (s : Store) : Installed cookingAlgebra :=
  (Chef.interpreter.within (chef s.chefs.length), { s with chefs := s.chefs ++ [c] })

def addSandwichRecorder (s : Store) : Installed sandwichAlgebra :=
  (Recorder.sandwich.within logSlot, s)

def addPizzaRecorder (maker : String) (failure : Option FailureBudget) (s : Store) :
    Installed pizzaAlgebra :=
  ((Recorder.pizza maker).within (pizzaRecorder s.pizzaFailures.length),
    { s with pizzaFailures := s.pizzaFailures ++ [failure] })

def addMachine (choice : Option MealChoice) (s : Store) : Installed cookingAlgebra :=
  ((Recorder.machine choice).within (machine s.machineTickets.length),
    { s with machineTickets := s.machineTickets ++ [1] })

end Store

end Brigade
