/-! Numbers in text. An unsigned numeral is an optional plus sign and one or more ASCII digits; words
of 32 and 64 bits are the numerals whose value fits. -/

namespace Brigade.Text

def digitValue (c : Char) : Nat := c.toNat - '0'.toNat

def digitsValue (cs : List Char) : Nat := cs.foldl (fun n c => 10 * n + digitValue c) 0

/-- The value of one or more ASCII digits, leading zeros allowed. -/
def decimal? (cs : List Char) : Option Nat :=
  if !cs.isEmpty && cs.all Char.isDigit then some (digitsValue cs) else none

def hexValue? (c : Char) : Option Nat :=
  if c.isDigit then some (digitValue c)
  else if 'a' ≤ c && c ≤ 'f' then some (c.toNat - 'a'.toNat + 10)
  else if 'A' ≤ c && c ≤ 'F' then some (c.toNat - 'A'.toNat + 10)
  else none

/-- The value of exactly `count` hexadecimal digits, after a number that is already read. -/
def hexNumber? : Nat → Nat → List Char → Option (Nat × List Char)
  | 0, n, rest => some (n, rest)
  | count + 1, n, c :: rest => do hexNumber? count (16 * n + (← hexValue? c)) rest
  | _ + 1, _, [] => none

def unsigned? (s : String) : Option Nat :=
  match s.toList with
  | '+' :: digits => decimal? digits
  | digits => decimal? digits

def signed? (s : String) : Option Int :=
  match s.toList with
  | '-' :: digits => (decimal? digits).map fun n => -(n : Int)
  | _ => (unsigned? s).map Int.ofNat

def word32? (n : Nat) : Option UInt32 := if h : n < UInt32.size then some (.ofNatLT n h) else none

def word64? (n : Nat) : Option UInt64 := if h : n < UInt64.size then some (.ofNatLT n h) else none

/-- The word of a number that may be negative. -/
def word32OfInt? (n : Int) : Option UInt32 := if 0 ≤ n then word32? n.toNat else none

def word64OfInt? (n : Int) : Option UInt64 := if 0 ≤ n then word64? n.toNat else none

theorem word64?_eq_some_iff {n : Nat} {w : UInt64} : word64? n = some w ↔ n = w.toNat := by
  unfold word64?
  split
  · next h =>
    constructor
    · rintro ⟨⟩; simp
    · rintro rfl; simp
  · next h =>
    constructor
    · simp
    · rintro rfl; exact absurd w.toNat_lt_size h

theorem word32?_eq_some_iff {n : Nat} {w : UInt32} : word32? n = some w ↔ n = w.toNat := by
  unfold word32?
  split
  · next h =>
    constructor
    · rintro ⟨⟩; simp
    · rintro rfl; simp
  · next h =>
    constructor
    · simp
    · rintro rfl; exact absurd w.toNat_lt_size h

end Brigade.Text
