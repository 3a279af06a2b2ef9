import Brigade.Json.Basic
import Brigade.Text.Numeral

/-! Numbers of a TOML document. Single underscores may stand between digits; an integer has 64 bits
with sign, and a float must not round to infinity. -/

namespace Brigade.Toml

def ungroup? (isDigit : Char → Bool) : List Char → Option (List Char)
  | [] => none
  | [c] => if isDigit c then some [c] else none
  | c :: '_' :: rest => if isDigit c then (ungroup? isDigit rest).map (c :: ·) else none
  | c :: rest => if isDigit c then (ungroup? isDigit rest).map (c :: ·) else none

def splitSign : List Char → Bool × List Char
  | '-' :: rest => (true, rest)
  | '+' :: rest => (false, rest)
  | cs => (false, cs)

/-- Decimal digits without a leading zero, unless it stands alone. -/
def wholeDigits? (cs : List Char) : Option (List Char) := do
  let ds ← ungroup? Char.isDigit cs
  if 1 < ds.length && ds.head? = some '0' then none else return ds

def valueInBase (base : Nat) (ds : List Char) : Nat :=
  ds.foldl (fun n c => base * n + (Text.hexValue? c).getD 0) 0

def isDigitOf (base : Nat) (c : Char) : Bool :=
  match Text.hexValue? c with
  | some n => n < base
  | none => false

/-- A number of 64 bits with sign. -/
def inRange? (n : Int) : Option Int :=
  if Int64.minValue.toInt ≤ n ∧ n ≤ Int64.maxValue.toInt then some n else none

def unsignedIn? (base : Nat) (cs : List Char) : Option Int := do
  inRange? (valueInBase base (← ungroup? (isDigitOf base) cs))

def integer? : List Char → Option Int
  | '0' :: 'x' :: rest => unsignedIn? 16 rest
  | '0' :: 'o' :: rest => unsignedIn? 8 rest
  | '0' :: 'b' :: rest => unsignedIn? 2 rest
  | cs => do
    let (negative, rest) := splitSign cs
    let n : Int := Text.digitsValue (← wholeDigits? rest)
    inRange? (if negative then -n else n)

/-- The least number that rounds to infinity. -/
def overflowThreshold : Nat := 1 <<< 1024 - 1 <<< 970

/-- Whether `digits * 10 ^ exponent` rounds to infinity. -/
def overflows (digits : List Char) (exponent : Int) : Bool :=
  let m := Text.digitsValue digits
  if m = 0 then false
  else if exponent + digits.length < 300 then false
  else if 310 + (digits.length : Int) < exponent + digits.length then true
  else if 0 ≤ exponent then overflowThreshold ≤ m * Nat.pow 10 exponent.toNat
  else overflowThreshold * Nat.pow 10 (-exponent).toNat ≤ m

def fraction? : List Char → Option (List Char)
  | '.' :: rest => ungroup? Char.isDigit rest
  | [] => some []
  | _ => none

def exponent? : List Char → Option Int
  | [] => some 0
  | _ :: rest => do
    let (negative, ds) := splitSign rest
    let n : Int := Text.digitsValue (← ungroup? Char.isDigit ds)
    return if negative then -n else n

def isMark (c : Char) : Bool := c = 'e' || c = 'E'

/-- Whether a text is a float: digits with a fraction, an exponent or both, or a name. -/
def isFloat (cs : List Char) : Bool :=
  let (negative, rest) := splitSign cs
  if rest = ['i', 'n', 'f'] || rest = ['n', 'a', 'n'] then true
  else
    let mantissa := rest.takeWhile fun c => !isMark c
    let mark := rest.dropWhile fun c => !isMark c
    let whole := mantissa.takeWhile (· ≠ '.')
    let point := mantissa.dropWhile (· ≠ '.')
    match wholeDigits? whole, fraction? point, exponent? mark with
    | some ds, some fs, some e =>
      !(point.isEmpty && mark.isEmpty) && (negative || !overflows (ds ++ fs) (e - fs.length))
    | _, _, _ => false

end Brigade.Toml
