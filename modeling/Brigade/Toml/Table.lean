import Brigade.Json.Basic

/-! Tables of a TOML document as it is read. A table may be stated by a header, implied by the path of
one, or made by a dotted key; that decides what may still be added to it. -/

namespace Brigade.Toml

inductive Origin
  | stated
  | implied
  | dotted
  deriving DecidableEq

inductive Item
  | value (v : Json)
  | table (origin : Origin) (entries : List (String × Item))
  /-- Tables that headers with double brackets state one by one. -/
  | tables (elements : List (List (String × Item)))

abbrev Entries := List (String × Item)

namespace Entries

/-- Sets an entry, in its old place if it is there and at the end otherwise. -/
def put (key : String) (item : Item) : Entries → Entries
  | [] => [(key, item)]
  | (k, i) :: rest => if k = key then (k, item) :: rest else (k, i) :: put key item rest

/-- Replaces what stands under a key, or what is missing there. -/
def adjust (key : String) (f : Option Item → Option Item) (entries : Entries) : Option Entries :=
  (f (entries.lookup key)).map fun item => put key item entries

def onLast (f : Entries → Option Entries) : List Entries → Option (List Entries)
  | [] => none
  | [entries] => (f entries).map fun entries => [entries]
  | entries :: rest => (onLast f rest).map fun rest => entries :: rest

/-- Changes the table at the path of a header. Missing tables are implied, and of several tables the
last is meant. -/
def descend (f : Entries → Option Entries) : List String → Entries → Option Entries
  | [], entries => f entries
  | key :: path, entries => entries.adjust key fun
    | none => (descend f path []).map (.table .implied)
    | some (.value _) => none
    | some (.table origin inner) => (descend f path inner).map (.table origin)
    | some (.tables elements) => (onLast (descend f path) elements).map .tables

/-- Adds a value under a dotted key. The key may pass implied tables but must end in a table that was
made by dotted keys, and the name must be new. -/
def assign (name : String) (v : Json) : List String → Entries → Option Entries
  | [], entries => entries.adjust name fun
    | none => some (.value v)
    | some _ => none
  | key :: path, entries => entries.adjust key fun
    | none => (assign name v path []).map (.table .dotted)
    | some (.table .dotted inner) => (assign name v path inner).map (.table .dotted)
    | some (.table .implied inner) =>
      if path.isEmpty then none else (assign name v path inner).map (.table .implied)
    | some (.tables elements) =>
      if path.isEmpty then none else (onLast (assign name v path) elements).map .tables
    | some (.table .stated _) | some (.value _) => none

/-- States a table, which may have been implied before. -/
def openTable (path : List String) (name : String) : Entries → Option Entries :=
  descend (fun entries => entries.adjust name fun
    | none => some (.table .stated [])
    | some (.table .implied inner) => some (.table .stated inner)
    | some _ => none) path

def openElement (path : List String) (name : String) : Entries → Option Entries :=
  descend (fun entries => entries.adjust name fun
    | none => some (.tables [[]])
    | some (.tables elements) => some (.tables (elements ++ [[]]))
    | some _ => none) path

end Entries

mutual

def Item.toJson : Item → Json
  | .value v => v
  | .table _ entries => .obj (entriesToFields entries)
  | .tables elements => .arr (elementsToItems elements)

def entriesToFields : List (String × Item) → List (String × Json)
  | [] => []
  | (key, item) :: rest => (key, item.toJson) :: entriesToFields rest

def elementsToItems : List (List (String × Item)) → List Json
  | [] => []
  | entries :: rest => .obj (entriesToFields entries) :: elementsToItems rest

end

end Brigade.Toml
