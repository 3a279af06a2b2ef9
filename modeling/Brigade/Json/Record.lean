import Brigade.Json.Basic
import Brigade.Text.Numeral

/-! Reading records, lists and words from JSON values. A record is an object, whose unknown fields
are ignored, or the array of its fields in order. -/

namespace Brigade.Json

/-- What becomes of the items of an array that is longer than the record it is read as. -/
inductive Surplus
  | refused
  | ignored
  deriving DecidableEq

/-- The fields of a record by name, `none` for one that is absent. -/
def fields? (surplus : Surplus) (names : List String) : Json → Option (List (Option Json))
  | .obj fields => some (names.map fun name => fields.lookup name)
  | .arr items =>
    if surplus = .refused && names.length < items.length then none
    else some ((items.take names.length).map some
      ++ List.replicate (names.length - items.length) none)
  | _ => none

/-- The fields of a record whose array may not be longer than it. -/
def record? (names : List String) (j : Json) : Option (List (Option Json)) :=
  j.fields? .refused names

def listOf? {α : Type} (read : Json → Option α) (j : Json) : Option (List α) :=
  match j with
  | .arr items => items.mapM read
  | _ => none

def orDefault? {α : Type} (read : Json → Option α) (default : α) : Option Json → Option α
  | some j => read j
  | none => some default

def single? : Json → Option (String × Json)
  | .obj [field] => some field
  | _ => none

def word32? (j : Json) : Option UInt32 := j.asInt?.bind Text.word32OfInt?

def word64? (j : Json) : Option UInt64 := j.asInt?.bind Text.word64OfInt?

end Brigade.Json
