import Brigade.Random.Stream

/-! Uniform choices. A number below `range` is the high half of the product of `range` with a random
word; a product whose low half is above a multiple of `range` would favour some numbers and is drawn
again. -/

namespace Brigade.Random

inductive Width
  | single
  | double
  deriving DecidableEq

namespace Width

def bits : Width → Nat
  | .single => 32
  | .double => 64

def size : Width → Nat
  | .single => UInt32.size
  | .double => UInt64.size

/-- The greatest low half that is kept. -/
def zone (w : Width) (range : Nat) : Nat := range <<< (w.bits - 1 - Nat.log2 range) - 1

end Width

namespace Stream

def draw : Width → Stream → Nat × Stream
  | .single, s => let (n, s) := s.next32; (n.toNat, s)
  | .double, s => let (n, s) := s.next64; (n.toNat, s)

theorem draw_lt (w : Width) (s : Stream) : (s.draw w).1 < w.size := by
  cases w
  · exact UInt32.toNat_lt_size _
  · exact UInt64.toNat_lt_size _

/-- A number below `range`. After `retries` products above the zone the next one counts whatever it
is. -/
def belowWithin (w : Width) (range : Nat) : Nat → Stream → Nat × Stream
  | 0, s => let (n, s) := s.draw w; (n * range / w.size, s)
  | retries + 1, s =>
    let (n, s) := s.draw w
    if n * range % w.size ≤ w.zone range then (n * range / w.size, s)
    else belowWithin w range retries s

/-- How often a draw is repeated: less than half of all words are above the zone. -/
def maxRetries : Nat := 256

def below (w : Width) (range : Nat) (s : Stream) : Nat × Stream := belowWithin w range maxRetries s

theorem product_lt {n range size : Nat} (hn : n < size) (hr : 0 < range) :
    n * range / size < range := by
  rw [Nat.div_lt_iff_lt_mul (Nat.zero_lt_of_lt hn), Nat.mul_comm range]
  exact Nat.mul_lt_mul_of_pos_right hn hr

theorem belowWithin_lt (w : Width) {range : Nat} (hr : 0 < range) :
    ∀ (retries : Nat) (s : Stream), (belowWithin w range retries s).1 < range
  | 0, s => product_lt (draw_lt w s) hr
  | retries + 1, s => by
    unfold belowWithin
    simp only
    split
    · exact product_lt (draw_lt w s) hr
    · exact belowWithin_lt w hr retries _

theorem below_lt (w : Width) {range : Nat} (hr : 0 < range) (s : Stream) :
    (s.below w range).1 < range := belowWithin_lt w hr _ s

def between (w : Width) (low high : Nat) (s : Stream) : Nat × Stream :=
  let (n, s) := s.below w (high - low + 1)
  (low + n, s)

theorem between_mem (w : Width) {low high : Nat} (h : low ≤ high) (s : Stream) :
    low ≤ (s.between w low high).1 ∧ (s.between w low high).1 ≤ high := by
  have : (s.below w (high - low + 1)).1 < high - low + 1 := below_lt w (Nat.succ_pos _) s
  simp only [between]
  omega

def coin (s : Stream) : Bool × Stream :=
  let (n, s) := s.next64
  (n < 0x8000000000000000, s)

/-- An element of a list; nothing is drawn for an empty one. -/
def choose {α : Type} (xs : List α) (s : Stream) : Option α × Stream :=
  match xs with
  | [] => (none, s)
  | _ =>
    let (i, s) := s.between .single 0 (xs.length - 1)
    (xs[i]?, s)

/-- Adds `new` to a list of numbers: before `wanted` if that is in the list, and else `wanted` itself
at the end. -/
def place (new wanted : Nat) (chosen : List Nat) : List Nat :=
  if wanted ∈ chosen then
    chosen.takeWhile (· != wanted) ++ new :: chosen.dropWhile (· != wanted)
  else chosen ++ [wanted]

/-- Chooses among the numbers from 0 to `j`, from 0 to `j + 1` and so on, `count` times in all. -/
def placements : Nat → Nat → List Nat → Stream → List Nat × Stream
  | 0, _, chosen, s => (chosen, s)
  | count + 1, j, chosen, s =>
    let (wanted, s) := s.between .single 0 j
    placements count (j + 1) (place j wanted chosen) s

/-- Distinct numbers below `size`, `count` of them. -/
def distinct (count size : Nat) (s : Stream) : List Nat × Stream :=
  placements count (size - count) [] s

/-- Elements at distinct places of a list, from `least` to `most` of them if it has as many. -/
def pick {α : Type} (xs : List α) (least most : Nat) (s : Stream) : List α × Stream :=
  let (n, s) := s.between .double least most
  let (places, s) := s.distinct (min n xs.length) xs.length
  (places.filterMap (xs[·]?), s)

end Stream

end Brigade.Random
