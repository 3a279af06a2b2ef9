import Brigade.Json.Record

/-! The limits of an engine. -/

namespace Brigade

structure EngineSettings where
  /-- How deep child programs may nest; the root program is at depth 0. -/
  maxDepth : UInt64 := 16
  /-- How many commands one program may issue; 0 is no limit. -/
  maxSteps : UInt64 := 0
  /-- Whether frontends trace each command. -/
  traceCommands : Bool := true
  deriving DecidableEq

namespace EngineSettings

def default : EngineSettings := {}

/-- Whether the command after `index` others is over the limit. -/
def exhausted (s : EngineSettings) (index : Nat) : Bool :=
  0 < s.maxSteps.toNat && s.maxSteps.toNat ≤ index

def toJson (s : EngineSettings) : Json :=
  .obj [("max_depth", .ofNat s.maxDepth.toNat), ("max_steps", .ofNat s.maxSteps.toNat),
    ("trace_commands", .bool s.traceCommands)]

def read? (surplus : Json.Surplus) (j : Json) : Option EngineSettings := do
  match ← j.fields? surplus ["max_depth", "max_steps", "trace_commands"] with
  | [depth, steps, trace] =>
    let depth ← Json.orDefault? Json.word64? default.maxDepth depth
    let steps ← Json.orDefault? Json.word64? default.maxSteps steps
    let trace ← Json.orDefault? Json.asBool? default.traceCommands trace
    return ⟨depth, steps, trace⟩
  | _ => none

def ofJson? (j : Json) : Option EngineSettings := read? .refused j

def diagnostic (s : EngineSettings) : String :=
  "EngineSettings \x7b max_depth: " ++ toString s.maxDepth.toNat ++ ", max_steps: "
    ++ toString s.maxSteps.toNat ++ ", trace_commands: " ++ toString s.traceCommands ++ " \x7d"

end EngineSettings

end Brigade
