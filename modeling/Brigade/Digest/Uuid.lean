import Brigade.Digest.Sha1

/-! Identifiers of 128 bits, and the identifier that a namespace gives to a name: the first sixteen
bytes of the SHA-1 digest of both, with the version (5) and the variant written over six of the bits. -/

namespace Brigade.Digest

/-- The sixteen bytes of an identifier, the most significant first. -/
structure Uuid where
  bytes : List UInt8
  deriving DecidableEq

namespace Uuid

def hexByte (b : UInt8) : List Char :=
  [Nat.digitChar (b.toNat / 16), Nat.digitChar (b.toNat % 16)]

def toText (u : Uuid) : String :=
  let hex (bytes : List UInt8) : String := String.ofList (bytes.flatMap hexByte)
  String.intercalate "-"
    [hex (u.bytes.take 4), hex ((u.bytes.drop 4).take 2), hex ((u.bytes.drop 6).take 2),
      hex ((u.bytes.drop 8).take 2), hex (u.bytes.drop 10)]

/-- Writes the version and the variant over a digest. -/
def stamp (bytes : List UInt8) : List UInt8 :=
  (bytes.modify 6 fun b => b &&& 0x0F ||| 0x50).modify 8 fun b => b &&& 0x3F ||| 0x80

/-- The identifier of `name` in the namespace `space`. -/
def ofName (space : Uuid) (name : String) : Uuid :=
  ⟨stamp ((Sha1.digest (space.bytes ++ name.toUTF8.toList)).take 16)⟩

end Uuid

end Brigade.Digest
