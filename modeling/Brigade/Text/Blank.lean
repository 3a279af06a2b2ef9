/-! Sets of characters given by ranges of code points; those of this library are the ones of Unicode 17.
Blanks, the characters with the property `White_Space`, and the text without the blanks at its ends.
Trimming twice is trimming once, and a trimmed text has no blank at either end. -/

namespace Brigade.Text

/-- Ranges of code points, both ends included. -/
abbrev Ranges := List (Nat × Nat)

def Ranges.contains (ranges : Ranges) (c : Char) : Bool :=
  ranges.any fun r => r.1 ≤ c.toNat && c.toNat ≤ r.2

/-- The ranges of the property `White_Space`, in increasing order. -/
def blankRanges : Ranges :=
  [(0x9, 0xD), (0x20, 0x20), (0x85, 0x85), (0xA0, 0xA0), (0x1680, 0x1680), (0x2000, 0x200A),
   (0x2028, 0x2029), (0x202F, 0x202F), (0x205F, 0x205F), (0x3000, 0x3000)]

def isBlank (c : Char) : Bool := blankRanges.contains c

def trimRight (cs : List Char) : List Char := (cs.reverse.dropWhile isBlank).reverse

def trimList (cs : List Char) : List Char := trimRight (cs.dropWhile isBlank)

def trim (s : String) : String := String.ofList (trimList s.toList)

/-- Whether neither end of a text is a blank. -/
def Trimmed (cs : List Char) : Prop :=
  (∀ c ∈ cs.head?, isBlank c = false) ∧ ∀ c ∈ cs.getLast?, isBlank c = false

theorem head?_dropWhile_blank {cs : List Char} {c : Char} (h : c ∈ (cs.dropWhile isBlank).head?) :
    isBlank c = false := by
  have := List.head?_dropWhile_not isBlank cs
  rw [Option.mem_def.1 h] at this
  simpa using this

theorem dropWhile_blank_eq_self {cs : List Char} (h : ∀ c ∈ cs.head?, isBlank c = false) :
    cs.dropWhile isBlank = cs := by
  cases cs with
  | nil => rfl
  | cons c rest => simp [h c (by simp)]

theorem trimRight_append (cs : List Char) : ∃ blanks, cs = trimRight cs ++ blanks := by
  refine ⟨(cs.reverse.takeWhile isBlank).reverse, ?_⟩
  rw [trimRight, ← List.reverse_append, List.takeWhile_append_dropWhile, List.reverse_reverse]

theorem trimmed_trimList (cs : List Char) : Trimmed (trimList cs) := by
  constructor
  · intro c hc
    obtain ⟨blanks, h⟩ := trimRight_append (cs.dropWhile isBlank)
    rw [trimList] at hc
    have hd : c ∈ (cs.dropWhile isBlank).head? := by
      rw [h, List.head?_append, Option.mem_def.1 hc]
      rfl
    exact head?_dropWhile_blank hd
  · intro c hc
    rw [trimList, trimRight, List.getLast?_reverse] at hc
    exact head?_dropWhile_blank hc

theorem trimList_eq_self {cs : List Char} (h : Trimmed cs) : trimList cs = cs := by
  rw [trimList, dropWhile_blank_eq_self h.1, trimRight, dropWhile_blank_eq_self, List.reverse_reverse]
  simpa using h.2

theorem trimList_trimList (cs : List Char) : trimList (trimList cs) = trimList cs :=
  trimList_eq_self (trimmed_trimList cs)

@[simp] theorem toList_trim (s : String) : (trim s).toList = trimList s.toList := by simp [trim]

@[simp] theorem trim_trim (s : String) : trim (trim s) = trim s := by
  rw [trim, toList_trim, trimList_trimList, ← trim]

/-- A text is a name with blanks around it, and the name has none at its ends. -/
structure TrimsTo (s name : String) : Prop where
  trimmed : Trimmed name.toList
  blanks : ∃ before after : List Char, (∀ c ∈ before, isBlank c = true) ∧
    (∀ c ∈ after, isBlank c = true) ∧ s.toList = before ++ (name.toList ++ after)

theorem trimRight_append_blanks {cs after : List Char} (hcs : ∀ c ∈ cs.getLast?, isBlank c = false)
    (hafter : ∀ c ∈ after, isBlank c = true) : trimRight (cs ++ after) = cs := by
  have hblank : ∀ c ∈ after.reverse, isBlank c = true := fun c hc => hafter c (List.mem_reverse.1 hc)
  have hend : ∀ c ∈ cs.reverse.head?, isBlank c = false := by
    simpa using hcs
  rw [trimRight, List.reverse_append, List.dropWhile_append_of_pos hblank, dropWhile_blank_eq_self hend,
    List.reverse_reverse]

theorem trimList_blanks {before cs after : List Char} (hcs : Trimmed cs)
    (hbefore : ∀ c ∈ before, isBlank c = true) (hafter : ∀ c ∈ after, isBlank c = true) :
    trimList (before ++ (cs ++ after)) = cs := by
  rw [trimList, List.dropWhile_append_of_pos hbefore]
  -- where nothing is left, the blanks after it are dropped from the front
  cases cs with
  | nil =>
    have hall : (after ++ []).dropWhile isBlank = [] := List.dropWhile_append_of_pos hafter
    rw [List.append_nil] at hall
    rw [List.nil_append, hall]
    rfl
  | cons c cs =>
    have hstart : ∀ d ∈ (c :: cs ++ after).head?, isBlank d = false := hcs.1
    rw [dropWhile_blank_eq_self hstart, trimRight_append_blanks hcs.2 hafter]

theorem exists_blanks (cs : List Char) : ∃ before after : List Char, (∀ c ∈ before, isBlank c = true) ∧
    (∀ c ∈ after, isBlank c = true) ∧ cs = before ++ (trimList cs ++ after) := by
  let inner := cs.dropWhile isBlank
  refine ⟨cs.takeWhile isBlank, (inner.reverse.takeWhile isBlank).reverse,
    List.all_eq_true.1 List.all_takeWhile, fun c hc => ?_, ?_⟩
  · exact List.all_eq_true.1 List.all_takeWhile c (List.mem_reverse.1 hc)
  · rw [trimList, trimRight, ← List.reverse_append, List.takeWhile_append_dropWhile,
      List.reverse_reverse, List.takeWhile_append_dropWhile]

theorem trim_eq_iff {s name : String} : trim s = name ↔ TrimsTo s name := by
  constructor
  · rintro rfl
    refine ⟨?_, ?_⟩
    · rw [toList_trim]
      exact trimmed_trimList s.toList
    · rw [toList_trim]
      exact exists_blanks s.toList
  · rintro ⟨htrimmed, before, after, hbefore, hafter, hs⟩
    rw [trim, hs, trimList_blanks htrimmed hbefore hafter, String.ofList_toList]

def isBlankText (s : String) : Bool := (trim s).isEmpty

theorem isBlankText_iff {s : String} : isBlankText s = true ↔ ∀ c ∈ s.toList, isBlank c = true := by
  rw [isBlankText, String.isEmpty_iff, trim_eq_iff]
  constructor
  · rintro ⟨-, before, after, hbefore, hafter, hs⟩ c hc
    rw [hs] at hc
    simp only [String.toList_empty, List.nil_append, List.mem_append] at hc
    exact hc.elim (hbefore c) (hafter c)
  · intro h
    exact ⟨⟨nofun, nofun⟩, s.toList, [], h, nofun, by simp⟩

end Brigade.Text
