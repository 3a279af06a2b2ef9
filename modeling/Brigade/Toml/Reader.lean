import Brigade.Toml.Key
import Brigade.Toml.Moment
import Brigade.Toml.Number
import Brigade.Toml.Table

/-! The value of a TOML document: its statements one after the other, each of which adds to the
document. Dates and times are records of their own, as no configuration has them. -/

namespace Brigade.Toml

def isTokenChar (c : Char) : Bool :=
  c.isAlphanum || c = '_' || c = '-' || c = '+' || c = '.' || c = ':'

def word? (cs : List Char) : Option Json :=
  if cs = "true".toList then some (.bool true)
  else if cs = "false".toList then some (.bool false)
  else if isMoment cs then some (.obj [("moment", .str (String.ofList cs))])
  else if isFloat cs then some (.fraction (String.ofList cs))
  else (integer? cs).map .int

/-- A word at the start. One space may stand between a date and a time. -/
def scalarValue? (cs : List Char) : Option (Json × List Char) := do
  let token := cs.takeWhile isTokenChar
  let rest := cs.dropWhile isTokenChar
  match date? token, rest with
  | some [], ' ' :: more =>
    let time := more.takeWhile isTokenChar
    if time.isEmpty then return (← word? token, rest)
    else return (← word? (token ++ ' ' :: time), more.dropWhile isTokenChar)
  | _, _ => return (← word? token, rest)

mutual

/-- A value in which arrays and inline tables nest `levels` deep at most. -/
def value? : Nat → Nat → List Char → Option (Json × List Char)
  | 0, _, _ => none
  | fuel + 1, levels, cs =>
    match cs with
    | '[' :: rest => if levels = 0 then none else items? fuel (levels - 1) [] (skipGap rest)
    | '\x7b' :: rest =>
      if levels = 0 then none
      else match skipSpaces rest with
        | '\x7d' :: rest => some (.obj [], rest)
        | rest => pairs? fuel (levels - 1) [] rest
    | '"' :: _ | '\'' :: _ => (string? cs).map fun (s, rest) => (.str s, rest)
    | _ => scalarValue? cs

/-- The items up to the closing bracket, with or without a comma before it; `read` holds those
before, the last first. -/
def items? : Nat → Nat → List Json → List Char → Option (Json × List Char)
  | 0, _, _, _ => none
  | fuel + 1, levels, read, cs =>
    match cs with
    | ']' :: rest => some (.arr read.reverse, rest)
    | _ => do
      let (v, rest) ← value? fuel levels cs
      match skipGap rest with
      | ',' :: rest => items? fuel levels (v :: read) (skipGap rest)
      | ']' :: rest => some (.arr (v :: read).reverse, rest)
      | _ => none

def pairs? : Nat → Nat → Entries → List Char → Option (Json × List Char)
  | 0, _, _, _ => none
  | fuel + 1, levels, entries, cs => do
    let ((path, name), rest) ← key? cs
    let rest ← after? '=' rest
    let (v, rest) ← value? fuel levels (skipSpaces rest)
    let entries ← entries.assign name v path
    match skipSpaces rest with
    | ',' :: rest => pairs? fuel levels entries rest
    | '\x7d' :: rest => some (.obj (entriesToFields entries), rest)
    | _ => none

end

inductive Statement
  | pair (path : List String) (name : String) (v : Json)
  | table (path : List String) (name : String)
  | element (path : List String) (name : String)

/-- A statement without what ends its line. Every call of a nest but the last reads a character or
follows one that does, so twice the length is enough fuel. -/
def statement? (cs : List Char) : Option (Statement × List Char) :=
  match cs with
  | '[' :: '[' :: rest => do
    let ((path, name), rest) ← key? rest
    let rest ← after? ']' (← after? ']' rest)
    return (.element path name, rest)
  | '[' :: rest => do
    let ((path, name), rest) ← key? rest
    return (.table path name, ← after? ']' rest)
  | _ => do
    let ((path, name), rest) ← key? cs
    let (v, rest) ← value? (2 * rest.length + 2) maxDepth (skipSpaces (← after? '=' rest))
    return (.pair path name v, rest)

def statements? : Nat → List Char → Option (List Statement)
  | 0, _ => none
  | fuel + 1, cs =>
    match skipSpaces cs with
    | [] => some []
    | cs =>
      match lineEnd? cs with
      | some rest => statements? fuel rest
      | none => do
        let (statement, rest) ← statement? cs
        return statement :: (← statements? fuel (← lineEnd? rest))

/-- A document, and the path of the table that pairs are added to. -/
structure Document where
  entries : Entries
  current : List String

namespace Document

def empty : Document := ⟨[], []⟩

def add? (d : Document) : Statement → Option Document
  | .pair path name v =>
    (Entries.descend (Entries.assign name v path) d.current d.entries).map fun entries =>
      { d with entries }
  | .table path name =>
    (Entries.openTable path name d.entries).map fun entries => ⟨entries, path ++ [name]⟩
  | .element path name =>
    (Entries.openElement path name d.entries).map fun entries => ⟨entries, path ++ [name]⟩

def ofStatements? (statements : List Statement) : Option Document := statements.foldlM add? empty

def toJson (d : Document) : Json := .obj (entriesToFields d.entries)

end Document

def dropMark : List Char → List Char
  | '\uFEFF' :: rest => rest
  | cs => cs

def parse? (s : String) : Option Json := do
  let cs := dropMark s.toList
  return (← Document.ofStatements? (← statements? (cs.length + 1) cs)).toJson

end Brigade.Toml
