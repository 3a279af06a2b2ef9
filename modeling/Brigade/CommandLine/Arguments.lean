import Brigade.Kitchen.Menu
import Brigade.Text.Numeral

/-! The arguments of the command line, read one after the other. A value that may still come, and one
that is not yet checked, are settled when the next argument needs them to be; so of two faults the
earlier counts, and a request for help counts only if nothing before it is wrong. -/

namespace Brigade.CommandLine

structure Options where
  debug : Bool
  project : Option String
  makers : List String
  chosen : Option String
  seed : Option UInt64
  doughStock : Option UInt32
  mock : Bool
  order : Order
  deriving DecidableEq

/-- Why no options come out of the arguments. -/
inductive Stop
  | help
  | version
  | misuse
  deriving DecidableEq

inductive Switch
  | debug
  | mock
  | help
  | version
  deriving DecidableEq

inductive Setting
  | project
  | maker
  | baker
  | seed
  | doughStock
  deriving DecidableEq

inductive Name
  | switch (s : Switch)
  | setting (s : Setting)

def longNames : List (String × Name) :=
  [("debug", .switch .debug), ("project", .setting .project), ("maker", .setting .maker),
   ("by", .setting .baker), ("seed", .setting .seed), ("dough-stock", .setting .doughStock),
   ("mock", .switch .mock), ("help", .switch .help), ("version", .switch .version)]

def shortNames : List (Char × Name) :=
  [('d', .switch .debug), ('C', .setting .project), ('h', .switch .help), ('V', .switch .version)]

/-- The options found so far. -/
structure Found where
  debug : Bool := false
  project : Option String := none
  makers : List String := []
  chosen : Option String := none
  seed : Option UInt64 := none
  doughStock : Option UInt32 := none
  mock : Bool := false
  order : Option Order := none

/-- What is not settled yet. -/
inductive Open
  | setting (s : Setting) (value : Option String)
  | order (text : String)

structure Scan where
  found : Found
  pending : Option Open
  /-- Whether an order was seen. -/
  ordered : Bool
  /-- Whether all further arguments are plain. -/
  plain : Bool

/-- Fills a place that must be free with a value that must be there. -/
def fill {α : Type} (place value : Option α) : Except Stop (Option α) :=
  match place, value with
  | none, some v => .ok (some v)
  | _, _ => .error .misuse

def nonEmpty? (s : String) : Option String := if s.isEmpty then none else some s

def seed? (s : String) : Option UInt64 := (Text.unsigned? s).bind Text.word64?

/-- A number of portions; it is read with a sign and then must fit. -/
def portions? (s : String) : Option UInt32 := (Text.signed? s).bind Text.word32OfInt?

namespace Found

/-- Sets an option to a value. Only makers may be given more than once. -/
def set (f : Found) (s : Setting) (value : String) : Except Stop Found :=
  match s with
  | .project => do return { f with project := ← fill f.project (nonEmpty? value) }
  | .maker => .ok { f with makers := f.makers ++ [value] }
  | .baker => do return { f with chosen := ← fill f.chosen (some value) }
  | .seed => do return { f with seed := ← fill f.seed (seed? value) }
  | .doughStock => do return { f with doughStock := ← fill f.doughStock (portions? value) }

def turnOn (f : Found) : Switch → Except Stop Found
  | .debug => if f.debug then .error .misuse else .ok { f with debug := true }
  | .mock => if f.mock then .error .misuse else .ok { f with mock := true }
  | .help => .error .help
  | .version => .error .version

def settle (f : Found) : Option Open → Except Stop Found
  | none => .ok f
  | some (.setting s (some value)) => f.set s value
  | some (.setting _ none) => .error .misuse
  | some (.order text) =>
    match Order.ofText text with
    | .ok order => .ok { f with order := some order }
    | .error _ => .error .misuse

end Found

namespace Scan

def initial : Scan := ⟨{}, none, false, false⟩

def settled (s : Scan) : Except Stop Scan := do
  return { s with found := ← s.found.settle s.pending, pending := none }

def turnOn (s : Scan) (switch : Switch) : Except Stop Scan := do
  let s ← s.settled
  return { s with found := ← s.found.turnOn switch }

def set (s : Scan) (setting : Setting) (value : Option String) : Except Stop Scan := do
  let s ← s.settled
  match value with
  | some value => return { s with found := ← s.found.set setting value }
  | none => return { s with pending := some (.setting setting none) }

def takeOrder (s : Scan) (text : String) : Except Stop Scan := do
  if s.ordered then .error .misuse
  else
    let s ← s.settled
    return { s with pending := some (.order text), ordered := true }

def takeLong (s : Scan) (name : String) (value : Option String) : Except Stop Scan :=
  match longNames.lookup name, value with
  | some (.switch switch), none => s.turnOn switch
  | some (.setting setting), value => s.set setting value
  | some (.switch _), some _ | none, _ => .error .misuse

def attached : List Char → Option String
  | [] => none
  | '=' :: value => some (String.ofList value)
  | value => some (String.ofList value)

/-- Takes short names in one argument, up to one that has a value. -/
def takeShort (s : Scan) : List Char → Except Stop Scan
  | [] => .ok s
  | c :: rest =>
    match shortNames.lookup c with
    | some (.switch switch) => do takeShort (← s.turnOn switch) rest
    | some (.setting setting) => s.set setting (attached rest)
    | none => .error .misuse

/-- Takes an argument that is not an option: the value that is waited for, or the order. -/
def takePlain (s : Scan) (text : String) : Except Stop Scan :=
  match s.pending with
  | some (.setting setting none) => .ok { s with pending := some (.setting setting (some text)) }
  | _ => s.takeOrder text

def splitLong (cs : List Char) : String × Option String :=
  let name := String.ofList (cs.takeWhile (· ≠ '='))
  match cs.dropWhile (· ≠ '=') with
  | _ :: value => (name, some (String.ofList value))
  | [] => (name, none)

def take (s : Scan) (argument : String) : Except Stop Scan :=
  if s.plain then s.takeOrder argument
  else match argument.toList with
    | ['-', '-'] => .ok { s with plain := true }
    | '-' :: '-' :: cs =>
      let (name, value) := splitLong cs
      s.takeLong name value
    | '-' :: c :: cs => s.takeShort (c :: cs)
    | _ => s.takePlain argument

def finish (s : Scan) : Except Stop Options := do
  let f := (← s.settled).found
  match f.order with
  | some order => return ⟨f.debug, f.project, f.makers, f.chosen, f.seed, f.doughStock, f.mock, order⟩
  | none => .error .misuse

end Scan

def Options.ofArguments (arguments : List String) : Except Stop Options := do
  (← arguments.foldlM Scan.take Scan.initial).finish

/-- The maker of the pizza: the one asked for, or else the first. -/
def Options.baker (o : Options) : Option String := o.chosen.or o.makers.head?

end Brigade.CommandLine
