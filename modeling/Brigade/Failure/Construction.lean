import Brigade.ErrorCode

/-! Why a value or a program could not be built. -/

namespace Brigade

inductive ConstructionError
  | empty (field : String)
  | invalid (field reason : String)
  | outOfRange (field : String) (value min max : Int)
  deriving DecidableEq

namespace ConstructionError

def code : ConstructionError → String
  | .empty _ => "CONSTRUCTION_EMPTY"
  | .invalid _ _ => "CONSTRUCTION_INVALID"
  | .outOfRange _ _ _ _ => "CONSTRUCTION_OUT_OF_RANGE"

def message : ConstructionError → String
  | .empty field => s!"{field} must not be empty"
  | .invalid field reason => s!"invalid {field}: {reason}"
  | .outOfRange field value min max => s!"{field} out of range: {value} not in {min}..={max}"

instance : Coded ConstructionError := ⟨code, message, fun _ => false⟩

end ConstructionError

universe u v

/-- A value that was built, or why it could not be. -/
abbrev Built (α : Type u) : Type u := Except ConstructionError α

namespace Built

def andThen {α : Type u} {β : Type v} (b : Built α) (f : α → Built β) : Built β :=
  match b with
  | .ok a => f a
  | .error e => .error e

def transform {α : Type u} {β : Type v} (f : α → β) (b : Built α) : Built β :=
  andThen b fun a => .ok (f a)

@[simp] theorem andThen_ok {α : Type u} {β : Type v} (a : α) (f : α → Built β) :
    andThen (.ok a) f = f a := rfl

@[simp] theorem andThen_error {α : Type u} {β : Type v} (e : ConstructionError) (f : α → Built β) :
    andThen (.error e) f = .error e := rfl

theorem andThen_eq_ok {α : Type u} {β : Type v} {b : Built α} {f : α → Built β} {v : β}
    (h : andThen b f = .ok v) : ∃ a, b = .ok a ∧ f a = .ok v := by
  cases b with
  | error e => cases h
  | ok a => exact ⟨a, rfl, h⟩

end Built

end Brigade
