import Brigade.Digest.Uuid
import Brigade.Json.Basic
import Brigade.Text.Quoted

/-! The identity of an algebra: its name, and the identifier that the name has in the namespace of
algebras. -/

namespace Brigade

structure AlgebraId where
  name : String
  deriving DecidableEq

namespace AlgebraId

/-- The namespace of algebra names. -/
def space : Digest.Uuid :=
  ⟨[0x6F, 0x1C, 0x2A, 0x8E, 0x3B, 0x7D, 0x4C, 0x59, 0x9E, 0x0A, 0x52, 0xD4, 0xB8, 0xF7, 0xA9, 0x13]⟩

def uuid (id : AlgebraId) : String := (space.ofName id.name).toText

def text (id : AlgebraId) : String := "algebra:" ++ id.name

def toJson (id : AlgebraId) : Json := .obj [("name", .str id.name), ("uuid", .str id.uuid)]

def diagnostic (id : AlgebraId) : String :=
  "AlgebraId \x7b uuid: " ++ id.uuid ++ ", name: " ++ Text.quote id.name ++ " \x7d"

end AlgebraId

end Brigade
