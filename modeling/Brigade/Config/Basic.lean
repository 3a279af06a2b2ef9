import Brigade.Engine.Basic
import Brigade.Text.Blank

/-! Configuration of an engine and its frontends. A later layer overrides an earlier one where it
differs from the default, and adds its policies. -/

namespace Brigade

structure Config where
  debug : Bool := false
  engine : EngineSettings := {}
  policies : PolicyTable := .empty
  deriving DecidableEq

namespace Config

def default : Config := {}

/-- The value of a later layer if it differs from the default. -/
def override {α : Type} [DecidableEq α] (default earlier later : α) : α :=
  if later = default then earlier else later

def mergeSettings (earlier later : EngineSettings) : EngineSettings where
  maxDepth := override EngineSettings.default.maxDepth earlier.maxDepth later.maxDepth
  maxSteps := override EngineSettings.default.maxSteps earlier.maxSteps later.maxSteps
  traceCommands :=
    override EngineSettings.default.traceCommands earlier.traceCommands later.traceCommands

def merge (earlier later : Config) : Config where
  debug := override default.debug earlier.debug later.debug
  engine := mergeSettings earlier.engine later.engine
  policies := earlier.policies.merge later.policies

def policyFault? (algebra : String) (policy : FailurePolicy) : Option String :=
  if Text.isBlankText algebra then some "algebra name is empty"
  else if policy = .retry 0 then some "retry needs at least one attempt"
  else none

/-- The first faulty policy in the order of the names, and what is wrong with it. -/
def fault? (c : Config) : Option (String × String) :=
  c.policies.entries.findSome? fun e => (policyFault? e.1 e.2).map fun fault => (e.1, fault)

def toJson (c : Config) : Json :=
  .obj [("debug", .bool c.debug), ("engine", c.engine.toJson),
    ("policies", .obj (c.policies.entries.map fun e => (e.1, e.2.toJson)))]

def policiesOfJson? (j : Json) : Option PolicyTable := do
  let fields ← j.asFields?
  return .ofList (← fields.mapM fun f => do return (f.1, ← FailurePolicy.ofJson? f.2))

/-- A configuration is a record; a field that is absent has its default. -/
def read? (surplus : Json.Surplus) (j : Json) : Option Config := do
  match ← j.fields? surplus ["debug", "engine", "policies"] with
  | [debug, engine, policies] =>
    return ⟨← Json.orDefault? Json.asBool? default.debug debug,
      ← Json.orDefault? (EngineSettings.read? surplus) default.engine engine,
      ← Json.orDefault? policiesOfJson? default.policies policies⟩
  | _ => none

def ofJson? (j : Json) : Option Config := read? .refused j

def diagnostic (c : Config) : String :=
  "HfmConfig \x7b debug: " ++ toString c.debug ++ ", engine: " ++ c.engine.diagnostic
    ++ ", policies: " ++ PolicyTable.diagnostic c.policies ++ " \x7d"

end Config

end Brigade
