import Brigade.CommandLine.Arguments
import Brigade.Config.Load
import Brigade.Engine.Basic
import Brigade.Kitchen.Basic
import Brigade.Kitchen.Menu

/-! The command line program: it makes one meal in a kitchen, or with recording interpreters, and
prints the meal and the record. -/

namespace Brigade.CommandLine

structure Outcome where
  exitCode : UInt32
  output : String
  errors : String

def usage : String :=
  "Usage: hfm [OPTIONS] <ORDER>\n"

def helpText : String :=
  "Command-line runner for the HFM kitchen\n\n" ++ usage ++
  "\nArguments:\n" ++
  "  <ORDER>  What to order: sandwich, pizza, combo or random\n" ++
  "\nOptions:\n" ++
  "  -d, --debug              Enable debug logging\n" ++
  "  -C, --project <PROJECT>  Project root directory (defaults to current directory)\n" ++
  "      --maker <NAME>       Named pizza maker; repeat for more\n" ++
  "      --by <NAME>          Who bakes the pizza (defaults to the first --maker, else the house oven)\n" ++
  "      --seed <SEED>        Seed for random meals\n" ++
  "      --dough-stock <N>    Dough portions per oven\n" ++
  "      --mock               Use recording interpreters instead of the kitchen\n" ++
  "  -h, --help               Print help\n" ++
  "  -V, --version            Print version\n"

def versionText : String := "hfm 0.1.0\n"

def misuseText : String := "error: invalid arguments\n\n" ++ usage

def Stop.outcome : Stop → Outcome
  | .help => ⟨0, helpText, ""⟩
  | .version => ⟨0, versionText, ""⟩
  | .misuse => ⟨2, "", misuseText⟩

/-- A failure with the cause under it; further lines of the cause are indented like the first. -/
def failure (context cause : String) : Outcome :=
  let indented := String.ofList (cause.toList.flatMap fun c =>
    if c = '\n' then '\n' :: "    ".toList else [c])
  ⟨1, "", s!"Error: {context}\n\nCaused by:\n    {indented}\n"⟩

def configFailure (e : ConfigError) : Outcome := ⟨1, "", s!"Error: Config error: {e.message}\n"⟩

namespace Options

/-- The staff that carries out the order. The recording machine's meal is the house's choice. -/
def staff (o : Options) (freshSeed : UInt64) : Built Staff :=
  if o.mock then
    (Menu.houseChoice o.baker).map fun choice => Recorder.staff o.makers (some choice) .empty
  else
    let kitchen : Kitchen := ⟨o.makers, o.seed.getD freshSeed, o.doughStock, .standard⟩
    .ok (kitchen.staff .empty)

def engine (c : Config) : Engine Store := ⟨c.engine, c.policies, fun _ => false⟩

/-- Runs the program of the order, and prints the meal and then the record. -/
def serve (o : Options) (c : Config) (program : Cooking Served) (staff : Staff) : Outcome :=
  match (engine c).execute staff.registry Language.cooking none program ⟨staff.store, []⟩ with
  | (.ok served, progress) =>
    let record := progress.state.log.entries.map fun entry => s!"  {entry}\n"
    ⟨0, served.text ++ "\n" ++ String.join record, ""⟩
  | (.error e, _) => failure s!"{o.order.name} order failed" e.message

/-- Makes the meal of the order under a configuration. A kitchen without a seed takes the fresh one. -/
def run (o : Options) (config : Except ConfigError Config) (freshSeed : UInt64) : Outcome :=
  match config with
  | .error e => configFailure e
  | .ok c =>
    match o.order.program o.baker with
    | .error e => failure "cannot build order" e.message
    | .ok program =>
      match o.staff freshSeed with
      | .error e => failure "cannot script random meal" e.message
      | .ok staff => o.serve c program staff

def configure (o : Options) (sources : ConfigSources) : Except ConfigError Config :=
  (Config.load sources).map fun c => { c with debug := o.debug || c.debug }

end Options

end Brigade.CommandLine
