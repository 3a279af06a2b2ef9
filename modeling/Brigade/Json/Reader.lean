import Brigade.Json.Basic
import Brigade.Text.Numeral

/-! The JSON value that a text writes. Of two fields with one name the later counts. A number with a
point, an exponent or more than 64 bits is a fraction, and so is minus zero. -/

namespace Brigade.Json

def isSpace (c : Char) : Bool := c = ' ' || c = '\t' || c = '\n' || c = '\r'

def skipSpace (cs : List Char) : List Char := cs.dropWhile isSpace

def unit? (cs : List Char) : Option (Nat × List Char) := Text.hexNumber? 4 0 cs

def simpleEscape? : Char → Option Char
  | '"' => some '"'
  | '\\' => some '\\'
  | '/' => some '/'
  | 'b' => some '\x08'
  | 'f' => some '\x0c'
  | 'n' => some '\n'
  | 'r' => some '\r'
  | 't' => some '\t'
  | _ => none

/-- The character of one or two code units after `\u`. A surrogate needs its other half. -/
def codePoint? (cs : List Char) : Option (Char × List Char) := do
  let (high, rest) ← unit? cs
  if high < 0xD800 || 0xDFFF < high then return (Char.ofNat high, rest)
  else if high < 0xDC00 then
    match rest with
    | '\\' :: 'u' :: rest =>
      let (low, rest) ← unit? rest
      if 0xDC00 ≤ low && low ≤ 0xDFFF then
        return (Char.ofNat (0x10000 + (high - 0xD800) * 0x400 + (low - 0xDC00)), rest)
      else none
    | _ => none
  else none

/-- The characters up to the closing quote; `read` holds those before, the last first. -/
def stringBody : Nat → List Char → List Char → Option (String × List Char)
  | _, read, '"' :: rest => some (String.ofList read.reverse, rest)
  | fuel + 1, read, '\\' :: 'u' :: rest => do
    let (c, rest) ← codePoint? rest
    stringBody fuel (c :: read) rest
  | fuel + 1, read, '\\' :: e :: rest => do
    let c ← simpleEscape? e
    stringBody fuel (c :: read) rest
  | fuel + 1, read, c :: rest =>
    if c = '\\' || c.toNat < 0x20 then none else stringBody fuel (c :: read) rest
  | _, _, _ => none

def digits? (cs : List Char) : Option (List Char × List Char) :=
  let ds := cs.takeWhile Char.isDigit
  if ds.isEmpty then none else some (ds, cs.dropWhile Char.isDigit)

/-- The digits before the point: no leading zero unless it stands alone. -/
def whole? (cs : List Char) : Option (List Char × List Char) := do
  let (ds, rest) ← digits? cs
  if 1 < ds.length && ds.head? = some '0' then none else return (ds, rest)

def fractionPart? : List Char → Option (List Char × List Char)
  | '.' :: rest => do
    let (ds, rest) ← digits? rest
    return ('.' :: ds, rest)
  | cs => some ([], cs)

def exponentPart? : List Char → Option (List Char × List Char)
  | c :: rest =>
    if c = 'e' || c = 'E' then
      let sign := rest.takeWhile fun d => d = '+' || d = '-'
      do
        if 1 < sign.length then none else
        let (ds, rest) ← digits? (rest.drop sign.length)
        return (c :: sign ++ ds, rest)
    else some ([], c :: rest)
  | [] => some ([], [])

def integerValue? (negative : Bool) (ds : List Char) : Option Int :=
  let n := Text.digitsValue ds
  if negative then if 0 < n && n ≤ 0x8000000000000000 then some (-(n : Int)) else none
  else if n < UInt64.size then some n else none

def number? (cs : List Char) : Option (Json × List Char) := do
  let (negative, unsigned) := match cs with
    | '-' :: rest => (true, rest)
    | _ => (false, cs)
  let (ds, rest) ← whole? unsigned
  let (point, rest) ← fractionPart? rest
  let (mark, rest) ← exponentPart? rest
  let text := (if negative then ['-'] else []) ++ ds ++ point ++ mark
  if point.isEmpty && mark.isEmpty then
    match integerValue? negative ds with
    | some n => return (.int n, rest)
    | none => return (.fraction (String.ofList text), rest)
  else return (.fraction (String.ofList text), rest)

mutual

def value : Nat → List Char → Option (Json × List Char)
  | 0, _ => none
  | fuel + 1, cs =>
    match cs with
    | 'n' :: 'u' :: 'l' :: 'l' :: rest => some (.null, rest)
    | 't' :: 'r' :: 'u' :: 'e' :: rest => some (.bool true, rest)
    | 'f' :: 'a' :: 'l' :: 's' :: 'e' :: rest => some (.bool false, rest)
    | '"' :: rest => (stringBody rest.length [] rest).map fun (s, rest) => (.str s, rest)
    | '[' :: rest =>
      match skipSpace rest with
      | ']' :: rest => some (.arr [], rest)
      | rest => items fuel [] rest
    | '{' :: rest =>
      match skipSpace rest with
      | '}' :: rest => some (.obj [], rest)
      | rest => fields fuel [] rest
    | _ => number? cs

/-- The items up to the closing bracket; `read` holds those before, the last first. -/
def items : Nat → List Json → List Char → Option (Json × List Char)
  | 0, _, _ => none
  | fuel + 1, read, cs => do
    let (j, rest) ← value fuel (skipSpace cs)
    match skipSpace rest with
    | ',' :: rest => items fuel (j :: read) rest
    | ']' :: rest => some (.arr (j :: read).reverse, rest)
    | _ => none

def fields : Nat → List (String × Json) → List Char → Option (Json × List Char)
  | 0, _, _ => none
  | fuel + 1, read, cs =>
    match skipSpace cs with
    | '"' :: rest => do
      let (key, rest) ← stringBody rest.length [] rest
      match skipSpace rest with
      | ':' :: rest =>
        let (j, rest) ← value fuel (skipSpace rest)
        match skipSpace rest with
        | ',' :: rest => fields fuel (putField key j read) rest
        | '}' :: rest => some (.obj (putField key j read), rest)
        | _ => none
      | _ => none
    | _ => none

end

/-- The value of a whole text. Every call of `value`, `items` and `fields` but the last of a nest
reads a character, so twice the length is enough fuel. -/
def parse? (s : String) : Option Json :=
  let cs := s.toList
  match value (2 * cs.length + 1) (skipSpace cs) with
  | some (j, rest) => if (skipSpace rest).isEmpty then some j else none
  | none => none

end Brigade.Json
