import Brigade.Json.Basic

/-! The compact text of a JSON value: no blanks, and only quotes, backslashes and control characters
are escaped. -/

namespace Brigade.Json

def escapeChar (c : Char) : List Char :=
  if c = '"' then ['\\', '"']
  else if c = '\\' then ['\\', '\\']
  else if c.toNat < 0x20 then
    ['\\', 'u', '0', '0', Nat.digitChar (c.toNat / 16), Nat.digitChar (c.toNat % 16)]
  else [c]

def quoted (s : String) : String := String.ofList ('"' :: s.toList.flatMap escapeChar ++ ['"'])

mutual

/-- Writes a value after `out`. -/
def write (out : String) : Json → String
  | .null => out ++ "null"
  | .bool b => out ++ (if b then "true" else "false")
  | .int n => out ++ toString n
  | .fraction text => out ++ text
  | .str s => out ++ quoted s
  | .arr [] => out ++ "[]"
  | .arr (j :: rest) => writeItems (write (out ++ "[") j) rest ++ "]"
  | .obj [] => out ++ "\x7b\x7d"
  | .obj ((k, j) :: rest) => writeFields (write (out ++ "\x7b" ++ quoted k ++ ":") j) rest ++ "\x7d"

def writeItems (out : String) : List Json → String
  | [] => out
  | j :: rest => writeItems (write (out ++ ",") j) rest

def writeFields (out : String) : List (String × Json) → String
  | [] => out
  | (k, j) :: rest => writeFields (write (out ++ "," ++ quoted k ++ ":") j) rest

end

def render (j : Json) : String := j.write ""

end Brigade.Json
