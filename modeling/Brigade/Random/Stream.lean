/-! A stream of random words from a seed: the ChaCha stream with 12 rounds and a block counter of 64
bits, under a key that is grown from the seed. -/

namespace Brigade.Random

structure Row where
  a : UInt32
  b : UInt32
  c : UInt32
  d : UInt32
  deriving DecidableEq

namespace Row

def zip (f : UInt32 → UInt32 → UInt32) (r s : Row) : Row :=
  ⟨f r.a s.a, f r.b s.b, f r.c s.c, f r.d s.d⟩

def add (r s : Row) : Row := zip (· + ·) r s

def xor (r s : Row) : Row := zip (· ^^^ ·) r s

def rotate (n : UInt32) (r : Row) : Row :=
  let f := fun x : UInt32 => x <<< n ||| x >>> (32 - n)
  ⟨f r.a, f r.b, f r.c, f r.d⟩

def turn (r : Row) : Row := ⟨r.b, r.c, r.d, r.a⟩

def toList (r : Row) : List UInt32 := [r.a, r.b, r.c, r.d]

end Row

structure Block where
  first : Row
  second : Row
  third : Row
  fourth : Row
  deriving DecidableEq

namespace Block

def mixColumns (m : Block) : Block :=
  let a := m.first.add m.second
  let d := (m.fourth.xor a).rotate 16
  let c := m.third.add d
  let b := (m.second.xor c).rotate 12
  let a := a.add b
  let d := (d.xor a).rotate 8
  let c := c.add d
  let b := (b.xor c).rotate 7
  ⟨a, b, c, d⟩

/-- Brings the diagonals into the columns. -/
def skew (m : Block) : Block := ⟨m.first, m.second.turn, m.third.turn.turn, m.fourth.turn.turn.turn⟩

def unskew (m : Block) : Block :=
  ⟨m.first, m.second.turn.turn.turn, m.third.turn.turn, m.fourth.turn⟩

def doubleRound (m : Block) : Block := m.mixColumns.skew.mixColumns.unskew

def rounds : Nat → Block → Block
  | 0, m => m
  | n + 1, m => rounds n m.doubleRound

def add (m n : Block) : Block :=
  ⟨m.first.add n.first, m.second.add n.second, m.third.add n.third, m.fourth.add n.fourth⟩

def toList (m : Block) : List UInt32 :=
  m.first.toList ++ m.second.toList ++ m.third.toList ++ m.fourth.toList

@[simp] theorem unskew_skew (m : Block) : m.skew.unskew = m := rfl

@[simp] theorem length_toList (m : Block) : m.toList.length = 16 := rfl

end Block

structure Key where
  low : Row
  high : Row
  deriving DecidableEq

namespace Key

def block (key : Key) (number : UInt64) : Block :=
  let start : Block :=
    ⟨⟨0x61707865, 0x3320646E, 0x79622D32, 0x6B206574⟩, key.low, key.high,
      ⟨number.toUInt32, (number >>> 32).toUInt32, 0, 0⟩⟩
  (start.rounds 6).add start

def advance (state : UInt64) : UInt64 := state * 6364136223846793005 + 11634580027462260723

/-- The word that a state of the seed's generator gives. -/
def wordOf (state : UInt64) : UInt32 :=
  let x := (((state >>> 18) ^^^ state) >>> 27).toUInt32
  let n := (state >>> 59).toUInt32
  x >>> n ||| x <<< ((32 - n) % 32)

/-- The key that a seed gives: the words of the eight states after it. -/
def ofSeed (seed : UInt64) : Key :=
  let s₁ := advance seed
  let s₂ := advance s₁
  let s₃ := advance s₂
  let s₄ := advance s₃
  let s₅ := advance s₄
  let s₆ := advance s₅
  let s₇ := advance s₆
  let s₈ := advance s₇
  ⟨⟨wordOf s₁, wordOf s₂, wordOf s₃, wordOf s₄⟩, ⟨wordOf s₅, wordOf s₆, wordOf s₇, wordOf s₈⟩⟩

end Key

/-- A place in the stream of words under a key. -/
structure Stream where
  key : Key
  position : Nat
  deriving DecidableEq

namespace Stream

def ofSeed (seed : UInt64) : Stream := ⟨.ofSeed seed, 0⟩

def word (s : Stream) : UInt32 :=
  (s.key.block (UInt64.ofNat (s.position / 16))).toList.getD (s.position % 16) 0

def next32 (s : Stream) : UInt32 × Stream := (s.word, ⟨s.key, s.position + 1⟩)

/-- The next two words as one, the low half first. -/
def next64 (s : Stream) : UInt64 × Stream :=
  let (low, s) := s.next32
  let (high, s) := s.next32
  (low.toUInt64 ||| high.toUInt64 <<< 32, s)

@[simp] theorem key_next32 (s : Stream) : s.next32.2.key = s.key := rfl

@[simp] theorem position_next32 (s : Stream) : s.next32.2.position = s.position + 1 := rfl

@[simp] theorem key_next64 (s : Stream) : s.next64.2.key = s.key := rfl

@[simp] theorem position_next64 (s : Stream) : s.next64.2.position = s.position + 2 := rfl

end Stream

end Brigade.Random
