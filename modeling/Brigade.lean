import Brigade.Algebra.Basic
import Brigade.Algebra.Identity
import Brigade.CallLog.Basic
import Brigade.CallLog.Handles
import Brigade.CommandLine.Arguments
import Brigade.CommandLine.Run
import Brigade.Config.Basic
import Brigade.Config.Document
import Brigade.Config.Load
import Brigade.Digest.Sha1
import Brigade.Digest.Uuid
import Brigade.Engine.Basic
import Brigade.Engine.Settings
import Brigade.ErrorCode
import Brigade.Failure.Budget
import Brigade.Failure.Config
import Brigade.Failure.Construction
import Brigade.Failure.Execution
import Brigade.Failure.Interpreter
import Brigade.Hierarchy
import Brigade.Json.Basic
import Brigade.Json.Printer
import Brigade.Json.Reader
import Brigade.Json.Record
import Brigade.Kitchen.Basic
import Brigade.Kitchen.Chef
import Brigade.Kitchen.Cooking
import Brigade.Kitchen.Ingredient
import Brigade.Kitchen.Meal
import Brigade.Kitchen.Menu
import Brigade.Kitchen.Oven
import Brigade.Kitchen.Pizza
import Brigade.Kitchen.PizzaSize
import Brigade.Kitchen.Recorder
import Brigade.Kitchen.Sandwich
import Brigade.Kitchen.Station
import Brigade.Language.Plans
import Brigade.Language.Task
import Brigade.Main
import Brigade.Policy
import Brigade.Probe.Basic
import Brigade.Program.Basic
import Brigade.Program.Continuation
import Brigade.Program.Drive
import Brigade.Proofs.Level
import Brigade.Proofs.Outcome
import Brigade.Proofs.Simulation
import Brigade.Proofs.Trampoline
import Brigade.Proofs.Verdict
import Brigade.Random.Sample
import Brigade.Random.Stream
import Brigade.Registry
import Brigade.Relay.Basic
import Brigade.Script.Basic
import Brigade.Session.Basic
import Brigade.Session.Equipment
import Brigade.Store
import Brigade.Table
import Brigade.Text.Blank
import Brigade.Text.Cased
import Brigade.Text.Letter
import Brigade.Text.LowerCase
import Brigade.Text.Numeral
import Brigade.Text.Quoted
import Brigade.Toml.Key
import Brigade.Toml.Lexical
import Brigade.Toml.Moment
import Brigade.Toml.Number
import Brigade.Toml.Quoted
import Brigade.Toml.Reader
import Brigade.Toml.Table
import Brigade.Proofs.Supervision
import Brigade.Proofs.Sequencing
import Brigade.Proofs.Grouping
import Brigade.Proofs.History
import Brigade.Proofs.Cancellation
import Brigade.Proofs.Lawful
import Brigade.Proofs.Coherence
import Brigade.Proofs.Traversal
import Brigade.Proofs.Visits
import Brigade.Proofs.Lookup
import Brigade.Proofs.Isolation
import Brigade.Proofs.Joining
import Brigade.Proofs.Layers
import Brigade.Proofs.Abreast
import Brigade.Proofs.Crews
import Brigade.Proofs.Rehearsal
import Brigade.Proofs.Makers
import Brigade.Proofs.Switches
import Brigade.Proofs.Modes
import Brigade.Proofs.Splits
import Brigade.Proofs.Bindings
import Brigade.Proofs.Shifts
import Brigade.Proofs.Orderly
import Brigade.Proofs.Recordings
import Brigade.Proofs.Dough
import Brigade.Proofs.Tickets
import Brigade.Proofs.Policies
import Brigade.Proofs.RandomMeals
import Brigade.Proofs.Payloads
import Brigade.Proofs.Choices
import Brigade.Proofs.Success
import Brigade.Proofs.RandomOrders
import Brigade.Proofs.Mapping
import Brigade.Proofs.Entry
import Brigade.Proofs.StepLimit
import Brigade.Proofs.Nesting
import Brigade.Proofs.Retries
import Brigade.Proofs.Inspection
import Brigade.Proofs.Turns
import Brigade.Proofs.Recipes
import Brigade.Proofs.Capacity
import Brigade.Proofs.Quotation
import Brigade.Proofs.Lines
import Brigade.Proofs.Documents
import Brigade.Proofs.Names
import Brigade.Proofs.Loading
import Brigade.Proofs.Numerals
import Brigade.Proofs.Codes
import Brigade.Proofs.Paths
import Brigade.Proofs.Families
import Brigade.Proofs.Keywords
