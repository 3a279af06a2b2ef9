import Brigade.CommandLine.Run

/-! The program: it gathers the arguments, the configuration files and the environment, and prints
what comes of them. -/

namespace Brigade.CommandLine

def configPath (directory : String) : String := directory ++ "/.hfm/config.toml"

/-- Whether a path leads to something. Below what is no directory, or may not be searched, nothing is
found. -/
def pathExists (path : String) : IO Bool := do
  try
    let _ ← IO.FS.realPath path
    return true
  catch _ => return false

/-- What stands at a path. -/
def readConfigFile (path : String) : IO ConfigFile := do
  unless ← pathExists path do
    return ⟨path, .absent⟩
  try
    return ⟨path, .text (← IO.FS.readFile path)⟩
  catch e => return ⟨path, .unreadable (toString e)⟩

def readVariables (names : List String) : IO (List (String × String)) := do
  let mut found := []
  for name in names do
    if let some value ← IO.getEnv name then
      found := (name, value) :: found
  return found

def gatherSources (project : String) : IO ConfigSources := do
  let home := (← IO.getEnv "HOME").getD "."
  let global ← readConfigFile (configPath home)
  let projectFile ← readConfigFile (configPath project)
  let environment ←
    readVariables ["HFM_DEBUG", "HFM_TRACE_COMMANDS", "HFM_MAX_DEPTH", "HFM_MAX_STEPS"]
  return ⟨some global, some projectFile, some fun name => environment.lookup name⟩

def serveArguments (arguments : List String) : IO UInt32 := do
  let outcome ← match Options.ofArguments arguments with
    | .error stop => pure stop.outcome
    | .ok options =>
      let sources ← gatherSources (options.project.getD ".")
      let seed ← IO.rand 0 (UInt64.size - 1)
      pure (options.run (options.configure sources) (UInt64.ofNat seed))
  IO.print outcome.output
  IO.eprint outcome.errors
  return outcome.exitCode

end Brigade.CommandLine

def main (arguments : List String) : IO UInt32 := Brigade.CommandLine.serveArguments arguments
