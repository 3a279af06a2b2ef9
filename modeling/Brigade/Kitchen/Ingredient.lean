import Brigade.Failure.Construction
import Brigade.Json.Record
import Brigade.Text.Blank
import Brigade.Text.Letter

/-! Ingredients. A name is letters, spaces and hyphens, at most 32 of them, without blanks at its
ends. -/

namespace Brigade

namespace Ingredient

def maxLength : Nat := 32

def isNameChar (c : Char) : Bool := Text.isLetter c || c = ' ' || c = '-'

/-- What is wrong with a name: it is empty, or too long, or has a character that names have not. -/
def fault? (name : String) : Option ConstructionError :=
  if name.isEmpty then some (.empty "ingredient")
  else if maxLength < name.length then
    some (.invalid "ingredient" s!"longer than {maxLength} characters")
  else (name.toList.find? fun c => !isNameChar c).map fun bad =>
    .invalid "ingredient" s!"unexpected character '{bad}'"

end Ingredient

structure Ingredient where
  name : String
  trimmed : Text.trim name = name
  faultless : Ingredient.fault? name = none

namespace Ingredient

instance : DecidableEq Ingredient := fun a b =>
  decidable_of_iff (a.name = b.name) ⟨fun h => by cases a; cases b; simpa using h, fun h => h ▸ rfl⟩

/-- The ingredient that a text names; blanks around the name are dropped. -/
def ofText (s : String) : Built Ingredient :=
  match h : fault? (Text.trim s) with
  | none => .ok ⟨Text.trim s, Text.trim_trim s, h⟩
  | some e => .error e

def toJson (i : Ingredient) : Json := .str i.name

def ofJson? (j : Json) : Option Ingredient := j.asString?.bind fun s => (ofText s).toOption

/-- The ingredients that texts name, in their order; the first bad name fails. -/
def ofTexts : List String → Built (List Ingredient)
  | [] => .ok []
  | s :: rest => do
    let i ← ofText s
    let is ← ofTexts rest
    return i :: is

def listFor (field : String) (names : List String) : Built (List Ingredient) :=
  if names.isEmpty then .error (.empty field) else ofTexts names

def enumerate (is : List Ingredient) : String := String.intercalate ", " (is.map Ingredient.name)

def listToJson (is : List Ingredient) : Json := Json.ofList toJson is

end Ingredient

end Brigade
