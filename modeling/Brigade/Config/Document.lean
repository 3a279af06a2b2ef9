import Brigade.Config.Basic
import Brigade.Toml.Reader

/-! Configuration as TOML text. -/

namespace Brigade.Config

/-- The configuration that a document writes. Of an array that stands for a record, the items after
the fields are ignored. -/
def ofToml? (s : String) : Option Config := (Toml.parse? s).bind (read? .ignored)

/-- A line that gives a number; TOML has no number above 2 ^ 63 - 1. -/
def numberLine? (name : String) (n : UInt64) : Option String :=
  if n.toNat ≤ Int64.maxValue.toInt then some s!"{name} = {n.toNat}\n" else none

def policyLines : FailurePolicy → String
  | .propagate => "kind = \"propagate\"\n"
  | .retry attempts => s!"kind = \"retry\"\nattempts = {attempts.toNat}\n"
  | .recover => "kind = \"recover\"\n"

def policyTable (e : String × FailurePolicy) : String :=
  s!"\n[policies.{Toml.keyText e.1}]\n" ++ policyLines e.2

def policyTables (policies : PolicyTable) : String :=
  if policies.entries.isEmpty then "\n[policies]\n"
  else String.join (policies.entries.map policyTable)

def toToml? (c : Config) : Option String := do
  let depth ← numberLine? "max_depth" c.engine.maxDepth
  let steps ← numberLine? "max_steps" c.engine.maxSteps
  return s!"debug = {c.debug}\n\n[engine]\n" ++ depth ++ steps
    ++ s!"trace_commands = {c.engine.traceCommands}\n" ++ policyTables c.policies

end Brigade.Config
