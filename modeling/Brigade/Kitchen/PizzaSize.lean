import Brigade.Failure.Construction
import Brigade.Json.Record
import Brigade.Text.LowerCase

/-! The sizes of a pizza. -/

namespace Brigade

inductive PizzaSize
  | small
  | medium
  | large
  deriving DecidableEq

namespace PizzaSize

def all : List PizzaSize := [.small, .medium, .large]

def name : PizzaSize → String
  | .small => "small"
  | .medium => "medium"
  | .large => "large"

def diameter : PizzaSize → Nat
  | .small => 25
  | .medium => 30
  | .large => 36

def words : List (String × PizzaSize) :=
  [("small", .small), ("s", .small), ("medium", .medium), ("m", .medium), ("large", .large),
   ("l", .large)]

def ofText (s : String) : Built PizzaSize :=
  match Text.trimmedKeyword? words s with
  | some size => .ok size
  | none => .error (.invalid "size" s!"unknown pizza size '{Text.lowerCase (Text.trim s)}'")

def toJson (s : PizzaSize) : Json := .str s.name

/-- The size with exactly this name. -/
def named? (s : String) : Option PizzaSize := all.find? fun size => size.name == s

/-- A size is its name, or an object with the name as its one key and no value. -/
def ofJson? : Json → Option PizzaSize
  | .str s => named? s
  | .obj [(s, .null)] => named? s
  | _ => none

end PizzaSize

end Brigade
