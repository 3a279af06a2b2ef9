import Brigade.Toml.Quoted

/-! Keys: bare ones need no quotes, and dots join the parts of a path. -/

namespace Brigade.Toml

def isBareChar (c : Char) : Bool := c.isAlphanum || c = '_' || c = '-'

def part? : List Char → Option (String × List Char)
  | '"' :: rest => basic? rest
  | '\'' :: rest => literal? rest
  | cs =>
    let bare := cs.takeWhile isBareChar
    if bare.isEmpty then none else some (String.ofList bare, cs.dropWhile isBareChar)

def parts? : Nat → List Char → Option (List String × List Char)
  | 0, _ => none
  | count + 1, cs => do
    let (part, rest) ← part? (skipSpaces cs)
    match skipSpaces rest with
    | '.' :: rest =>
      let (parts, rest) ← parts? count rest
      return (part :: parts, rest)
    | rest => return ([part], rest)

/-- How many parts a key may have, and how deep values may nest. -/
def maxDepth : Nat := 79

/-- A key as the path to a table, and the name in it. -/
def key? (cs : List Char) : Option ((List String × String) × List Char) := do
  let (parts, rest) ← parts? maxDepth cs
  return ((parts.dropLast, ← parts.getLast?), rest)

def escapeChar (c : Char) : List Char :=
  if c = '"' || c = '\\' then ['\\', c]
  else if c = '\x08' then ['\\', 'b']
  else if c = '\t' then ['\\', 't']
  else if c = '\n' then ['\\', 'n']
  else if c = '\x0c' then ['\\', 'f']
  else if c = '\r' then ['\\', 'r']
  else if c.toNat < 0x20 || c.toNat = 0x7F then
    ['\\', 'u', '0', '0', hexDigit (c.toNat / 16), hexDigit (c.toNat % 16)]
  else [c]
where
  /-- A hexadecimal digit, a letter as a capital. -/
  hexDigit (n : Nat) : Char := (Nat.digitChar n).toUpper

/-- A key as it is written: bare if possible, in single quotes if they spare the escape of a double
quote or a backslash, and else in double quotes. -/
def keyText (key : String) : String :=
  let cs := key.toList
  if !cs.isEmpty && cs.all isBareChar then key
  else if cs.any (fun c => c = '"' || c = '\\') && cs.all isLiteralChar then "'" ++ key ++ "'"
  else "\"" ++ String.ofList (cs.flatMap escapeChar) ++ "\""

end Brigade.Toml
