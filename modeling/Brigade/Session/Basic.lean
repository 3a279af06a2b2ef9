import Brigade.Engine.Basic
import Brigade.Language.Task
import Brigade.Session.Equipment

/-! Sessions: an engine and a registry that are changed and used step by step. One observer sees all
runs of a session. -/

namespace Brigade

/-- A call of a method outside any run. -/
structure Request where
  language : Language
  method : (algebra language).Method

inductive CallError
  | unbound (error : UnboundAlgebra)
  | failed (failure : InterpreterFailure)
  deriving DecidableEq

structure Session where
  settings : EngineSettings
  policies : PolicyTable
  /-- The number of the flag that cancels runs. -/
  flag : Nat
  staff : Staff
  /-- The number of steps of the last run that completed. -/
  lastSteps : Option Nat
  /-- The cell of the last oven that was installed for a maker. -/
  ovens : List (String × Nat)

structure RunReport where
  result : Except ExecutionError Product
  dispatched : List StepFrame
  /-- The entries added to the shared log. -/
  logged : List String
  completions : Nat
  lastSteps : Option Nat
  failures : List String
  /-- The entries added to the log of each probe. -/
  probeLogs : List (List String)

def Event.frame? : Event → Option StepFrame
  | .dispatched frame => some frame
  | .completed _ | .failed _ => none

def Event.steps? : Event → Option Nat
  | .completed steps => some steps
  | .dispatched _ | .failed _ => none

def Event.code? : Event → Option String
  | .failed error => some (Coded.code error)
  | .dispatched _ | .completed _ => none

namespace Session

def start (settings : EngineSettings) (policies : PolicyTable) (staff : Staff) : Session :=
  let (flag, store) := staff.store.addFlag
  ⟨settings, policies, flag, ⟨staff.registry, store⟩, none, []⟩

def registry (s : Session) : Registry Language Store := s.staff.registry

def store (s : Session) : Store := s.staff.store

def withStore (s : Session) (store : Store) : Session := { s with staff := ⟨s.registry, store⟩ }

def withRegistry (s : Session) (registry : Registry Language Store) : Session :=
  { s with staff := ⟨registry, s.store⟩ }

def engine (s : Session) : Engine Store :=
  ⟨s.settings, s.policies, fun store => (Store.flag s.flag).get store⟩

/-- The last number that was given, or else the one before. -/
def latest (before : Option Nat) (numbers : List Nat) : Option Nat := numbers.getLast?.or before

def run (s : Session) (task : Task) (selector : Option String) : RunReport × Session :=
  let before := s.store
  let (result, progress) :=
    s.engine.execute s.registry task.language selector task.program ⟨before, []⟩
  let after := progress.state
  let events := progress.events
  let steps := events.filterMap Event.steps?
  let lastSteps := latest s.lastSteps steps
  let probeLogs := after.probes.mapIdx fun n p =>
    p.log.entriesAfter ((Store.probe n).get before).log.size
  (⟨result, events.filterMap Event.frame?, after.log.entriesAfter before.log.size, steps.length,
    lastSteps, events.filterMap Event.code?, probeLogs⟩, { s.withStore after with lastSteps })

/-- Installs and binds equipment; tells whether it replaced other equipment. -/
def bind (s : Session) (selector : Option String) (e : Equipment) : Bool × Session :=
  let (i, store) := e.install s.flag s.store
  let (replaced, registry) := s.registry.change (.bind e.language selector i)
  let ovens := match e with
    | .oven oven _ => (oven.maker, s.store.ovens.length) :: s.ovens
    | _ => s.ovens
  (replaced, { s with staff := ⟨registry, store⟩, ovens })

def unbind (s : Session) (l : Language) (selector : Option String) : Bool × Session :=
  let (removed, registry) := s.registry.change (.unbind l selector)
  (removed, s.withRegistry registry)

def call (s : Session) (r : Request) (selector : Option String) :
    Except CallError ((algebra r.language).Reply r.method) × Session :=
  match s.registry.resolve r.language selector with
  | .error e => (.error (.unbound e), s)
  | .ok i =>
    let (reply, store) := i r.method s.store
    (reply.mapError .failed, s.withStore store)

def withSettings (s : Session) (settings : EngineSettings) : Session := { s with settings }

def setPolicy (s : Session) (l : Language) (policy : FailurePolicy) : Session :=
  { s with policies := s.policies.insert (algebra l).name policy }

def isCancelled (s : Session) : Bool := s.engine.cancelled s.store

def setFlag (s : Session) (b : Bool) : Session := s.withStore ((Store.flag s.flag).set b s.store)

def cancel (s : Session) : Session := s.setFlag true

def reset (s : Session) : Session := s.setFlag false

/-- Gives the engine a new flag; equipment that was installed before still sets the old one. -/
def newFlag (s : Session) : Session :=
  let (flag, store) := s.store.addFlag
  { s.withStore store with flag }

/-- The dough left in the last oven that was installed for a maker. -/
def doughLeft (s : Session) (maker : String) : DoughStock :=
  (s.ovens.lookup maker).bind fun n => (Store.oven n).get s.store

def clearLog (s : Session) : Session := s.withStore { s.store with log := .empty }

def engineDiagnostic (s : Session) : String := s.engine.diagnostic 1 s.store

end Session

def Language.replyToJson :
    (l : Language) → (m : (algebra l).Method) → (algebra l).Reply m → Json
  | .probe, _, n => .int (Int64.toInt n)
  | .relay, RelayMethod.note _, n => .int (Int64.toInt n)
  | .relay, RelayMethod.recovered _, _ => .null
  | .sandwich, SandwichMethod.start, b => SandwichBody.toJson b
  | .sandwich, SandwichMethod.add _ _, b => SandwichBody.toJson b
  | .sandwich, SandwichMethod.finish _, s => Sandwich.toJson s
  | .pizza, PizzaMethod.prepare _, d => Dough.toJson d
  | .pizza, PizzaMethod.top _ _, d => Dough.toJson d
  | .pizza, PizzaMethod.bake _ _, p => Pizza.toJson p
  | .cooking, CookingMethod.chooseMeal, c => MealChoice.toJson c
  | .cooking, CookingMethod.serve _, ticket => .ofNat (UInt32.toNat ticket)

end Brigade
