import Brigade.Config.Document
import Brigade.Failure.Config
import Brigade.Text.LowerCase

/-! Loading configuration: the global file, then the file of the project, then variables of the
environment. What results is validated. -/

namespace Brigade

/-- What stands at the place of a configuration file. -/
inductive FileContent
  | absent
  | unreadable (reason : String)
  | text (content : String)

structure ConfigFile where
  path : String
  content : FileContent

/-- Where configuration comes from; a source that is `none` is left out. -/
structure ConfigSources where
  global : Option ConfigFile
  project : Option ConfigFile
  environment : Option (String → Option String)

namespace Config

/-- The words for truth values; blanks around them are not dropped. -/
def truthWords : List (String × Bool) :=
  [("true", true), ("1", true), ("yes", true), ("on", true), ("false", false), ("0", false),
   ("no", false), ("off", false)]

def truth? (s : String) : Option Bool := Text.keyword? truthWords s

/-- An unsigned number of 64 bits, with or without blanks around it. -/
def limit? (s : String) : Option UInt64 := (Text.unsigned? (Text.trim s)).bind Text.word64?

def addFile (c : Config) (file : Option ConfigFile) : Except ConfigError Config :=
  match file with
  | none => .ok c
  | some ⟨path, content⟩ =>
    match content with
    | .absent => .ok c
    | .unreadable reason => .error (.unreadable path reason)
    | .text s =>
      match ofToml? s with
      | some later => .ok (c.merge later)
      | none => .error (.malformed path "not a configuration")

/-- The value of a variable, or else `current`. -/
def fromVariable {α : Type} (lookup : String → Option String) (name expected : String)
    (read : String → Option α) (current : α) : Except ConfigError α :=
  match lookup name with
  | none => .ok current
  | some s =>
    match read s with
    | some v => .ok v
    | none => .error (.invalidVariable name expected)

/-- Sets what variables of the environment give. -/
def addVariables (c : Config) (lookup : String → Option String) : Except ConfigError Config := do
  let debug ← fromVariable lookup "HFM_DEBUG" "expected bool" truth? c.debug
  let trace ←
    fromVariable lookup "HFM_TRACE_COMMANDS" "expected bool" truth? c.engine.traceCommands
  let depth ←
    fromVariable lookup "HFM_MAX_DEPTH" "expected non-negative integer" limit? c.engine.maxDepth
  let steps ←
    fromVariable lookup "HFM_MAX_STEPS" "expected non-negative integer" limit? c.engine.maxSteps
  return ⟨debug, ⟨depth, steps, trace⟩, c.policies⟩

def validate (c : Config) : Except ConfigError Config :=
  match c.fault? with
  | none => .ok c
  | some (algebra, fault) => .error (.invalidPolicy algebra fault)

def load (sources : ConfigSources) : Except ConfigError Config := do
  let c ← default.addFile sources.global
  let c ← c.addFile sources.project
  let c ← match sources.environment with
    | none => .ok c
    | some lookup => c.addVariables lookup
  c.validate

end Config

end Brigade
