/-! JSON values and their parts. A number is an integer of 64 bits, signed or unsigned, or a decimal
fraction, which keeps its text: nothing computes with it. -/

namespace Brigade

inductive Json
  | null
  | bool (value : Bool)
  | int (value : Int)
  | fraction (text : String)
  | str (value : String)
  | arr (items : List Json)
  | obj (fields : List (String × Json))
  deriving Inhabited

namespace Json

def asBool? : Json → Option Bool
  | .bool b => some b
  | _ => none

def asInt? : Json → Option Int
  | .int n => some n
  | _ => none

def asString? : Json → Option String
  | .str s => some s
  | _ => none

def asList? : Json → Option (List Json)
  | .arr items => some items
  | _ => none

def asFields? : Json → Option (List (String × Json))
  | .obj fields => some fields
  | _ => none

def field? (key : String) : Json → Option Json
  | .obj fields => fields.lookup key
  | _ => none

/-- The value of a field, `null` if there is none. -/
def field (key : String) (j : Json) : Json := (j.field? key).getD .null

def item (i : Nat) : Json → Json
  | .arr items => items.getD i .null
  | _ => .null

/-- Sets a field, in its old place if it is there and at the end otherwise. -/
def putField (key : String) (value : Json) : List (String × Json) → List (String × Json)
  | [] => [(key, value)]
  | (k, v) :: rest => if k = key then (k, value) :: rest else (k, v) :: putField key value rest

def ofNat (n : Nat) : Json := .int n

def ofList {α : Type} (f : α → Json) (xs : List α) : Json := .arr (xs.map f)

def ofOption {α : Type} (f : α → Json) : Option α → Json
  | some x => f x
  | none => .null

def ofStrings (xs : List String) : Json := ofList .str xs

end Json

end Brigade
