import Brigade.ErrorCode

/-! Why configuration could not be loaded. -/

namespace Brigade

inductive ConfigError
  | unreadable (path reason : String)
  | malformed (path reason : String)
  | invalidVariable (name reason : String)
  | invalidPolicy (algebra reason : String)
  deriving DecidableEq

namespace ConfigError

def code : ConfigError → String
  | .unreadable _ _ => "CONFIG_READ_FAILED"
  | .malformed _ _ => "CONFIG_PARSE_FAILED"
  | .invalidVariable _ _ => "CONFIG_INVALID_ENV_VAR"
  | .invalidPolicy _ _ => "CONFIG_INVALID_POLICY"

def message : ConfigError → String
  | .unreadable path reason => s!"failed to read config file '{path}': {reason}"
  | .malformed path reason => s!"failed to parse config file '{path}': {reason}"
  | .invalidVariable name reason => s!"invalid value for environment variable '{name}': {reason}"
  | .invalidPolicy algebra reason => s!"invalid failure policy for '{algebra}': {reason}"

/-- A file that could not be read may be readable later. -/
def recoverable : ConfigError → Bool
  | .unreadable _ _ => true
  | .malformed _ _ | .invalidVariable _ _ | .invalidPolicy _ _ => false

instance : Coded ConfigError := ⟨code, message, recoverable⟩

end ConfigError

end Brigade
