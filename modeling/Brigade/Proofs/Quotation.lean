import Brigade.Json.Printer
import Brigade.Json.Reader
import Brigade.Toml.Key
import Mathlib.Tactic.IntervalCases

/-! Quoted text is read back: a string between the quotes of JSON, and a key of a TOML document, which is
bare, in single quotes or in double quotes. -/

namespace Brigade

namespace Text

theorem hexValue?_digitChar {n : Nat} (h : n < 16) : hexValue? n.digitChar = some n := by
  interval_cases n <;> rfl

theorem hexValue?_toUpper_digitChar {n : Nat} (h : n < 16) :
    hexValue? n.digitChar.toUpper = some n := by
  interval_cases n <;> rfl

theorem ne_of_kind {kind : Char → Bool} {c d : Char} (hc : kind c = true) (hd : kind d = false) :
    c ≠ d := by
  rintro rfl
  exact absurd (hc.symm.trans hd) (by decide)

/-- A text that does not go on with characters of a kind. -/
def Stops (kind : Char → Bool) (rest : List Char) : Prop := ∀ c ∈ rest.head?, kind c = false

namespace Stops

variable {kind : Char → Bool} {cs rest : List Char}

theorem cons {c : Char} (h : kind c = false) (rest : List Char) : Stops kind (c :: rest) := by
  intro d hd
  obtain rfl := Option.some.inj hd
  exact h

theorem append (h : Stops kind cs) (hrest : Stops kind rest) : Stops kind (cs ++ rest) := by
  cases cs with
  | nil => exact hrest
  | cons c cs => exact .cons (h c rfl) (cs ++ rest)

theorem takeWhile_append (h : Stops kind rest) (hcs : ∀ c ∈ cs, kind c = true) :
    (cs ++ rest).takeWhile kind = cs := by
  rw [List.takeWhile_append_of_pos hcs]
  cases rest with
  | nil => exact List.append_nil cs
  | cons c rest =>
    have hc : kind c = false := h c rfl
    simp [hc]

theorem dropWhile_append (h : Stops kind rest) (hcs : ∀ c ∈ cs, kind c = true) :
    (cs ++ rest).dropWhile kind = rest := by
  rw [List.dropWhile_append_of_pos hcs]
  cases rest with
  | nil => rfl
  | cons c rest =>
    have hc : kind c = false := h c rfl
    simp [hc]

end Stops

theorem hexNumber?_byte {n : Nat} {high low : Char} (hhigh : hexValue? high = some (n / 16))
    (hlow : hexValue? low = some (n % 16)) (rest : List Char) :
    hexNumber? 4 0 ('0' :: '0' :: high :: low :: rest) = some (n, rest) := by
  have hzero : hexValue? '0' = some 0 := rfl
  have hn : 16 * (n / 16) + n % 16 = n := Nat.div_add_mod n 16
  simp [hexNumber?, hzero, hhigh, hlow, hn]

/-- A reader of text up to a closing quote, which takes an escaped character for that character. Its
arguments are how many characters there may be, and those before, the last first. -/
structure Unescapes (escape : Char → List Char)
    (body : Nat → List Char → List Char → Option (String × List Char)) : Prop where
  close (fuel : Nat) (read rest : List Char) :
    body fuel read ('"' :: rest) = some (String.ofList read.reverse, rest)
  step (fuel : Nat) (read : List Char) (c : Char) (rest : List Char) :
    body (fuel + 1) read (escape c ++ rest) = body fuel (c :: read) rest
  nonempty (c : Char) : escape c ≠ []

namespace Unescapes

variable {escape : Char → List Char}
  {body : Nat → List Char → List Char → Option (String × List Char)}

theorem append (h : Unescapes escape body) {cs : List Char} {fuel : Nat} (hfuel : cs.length ≤ fuel)
    (read rest : List Char) : body fuel read (cs.flatMap escape ++ '"' :: rest) =
      some (String.ofList (read.reverse ++ cs), rest) := by
  induction cs generalizing fuel read with
  | nil => rw [List.flatMap_nil, List.nil_append, h.close, List.append_nil]
  | cons c cs ih =>
    obtain ⟨fuel, rfl⟩ : ∃ k, fuel = k + 1 := Nat.exists_eq_add_one.2 (Nat.zero_lt_of_lt hfuel)
    rw [List.flatMap_cons, List.append_assoc, h.step, ih (Nat.le_of_succ_le_succ hfuel),
      List.reverse_cons, List.append_assoc, List.singleton_append]

theorem length_le (h : Unescapes escape body) (cs : List Char) :
    cs.length ≤ (cs.flatMap escape).length := by
  induction cs with
  | nil => exact Nat.le_refl 0
  | cons c cs ih =>
    have hpos := List.length_pos_iff.2 (h.nonempty c)
    rw [List.flatMap_cons, List.length_append, List.length_cons]
    omega

/-- An escaped text is read back; as many characters as it has are enough. -/
theorem readsBack (h : Unescapes escape body) (cs rest : List Char) :
    body (cs.flatMap escape ++ '"' :: rest).length [] (cs.flatMap escape ++ '"' :: rest) =
      some (String.ofList cs, rest) := by
  have hlength : cs.length ≤ (cs.flatMap escape ++ '"' :: rest).length := by
    rw [List.length_append]
    exact (h.length_le cs).trans (Nat.le_add_right _ _)
  exact h.append hlength [] rest

end Unescapes

end Text

namespace Json

theorem codePoint?_of_unit? {cs rest : List Char} {n : Nat} (h : unit? cs = some (n, rest))
    (hn : n < 0xD800) : codePoint? cs = some (Char.ofNat n, rest) := by
  simp [codePoint?, h, hn]

theorem stringBody_escapeChar (fuel : Nat) (read : List Char) (c : Char) (rest : List Char) :
    stringBody (fuel + 1) read (escapeChar c ++ rest) = stringBody fuel (c :: read) rest := by
  by_cases hquote : c = '"'
  · subst hquote
    rfl
  by_cases hslash : c = '\\'
  · subst hslash
    rfl
  by_cases hcontrol : c.toNat < 0x20
  · have hhigh := Text.hexValue?_digitChar (by omega : c.toNat / 16 < 16)
    have hlow := Text.hexValue?_digitChar (by omega : c.toNat % 16 < 16)
    have hpoint := codePoint?_of_unit? (Text.hexNumber?_byte hhigh hlow rest) (by omega)
    rw [Char.ofNat_toNat] at hpoint
    simp only [escapeChar, hquote, hslash, hcontrol, if_true, if_false, List.cons_append,
      List.nil_append, stringBody, hpoint, Option.bind_eq_bind, Option.bind_some]
  · have hplain : escapeChar c = [c] := by simp [escapeChar, hquote, hslash, hcontrol]
    rw [hplain, List.singleton_append, stringBody]
    · simp [hslash, hcontrol]
    · simpa using hquote
    · simp [hslash]
    · simp [hslash]

theorem unescapes : Text.Unescapes escapeChar stringBody where
  close fuel read rest := by cases fuel <;> rfl
  step := stringBody_escapeChar
  nonempty c := by
    unfold escapeChar
    repeat' split
    all_goals exact List.cons_ne_nil _ _

theorem parse?_render_str (s : String) : parse? (render (.str s)) = some (.str s) := by
  have htext : (render (.str s)).toList = '"' :: (s.toList.flatMap escapeChar ++ ['"']) := by
    simp [render, write, quoted]
  have hbody := unescapes.readsBack s.toList []
  rw [String.ofList_toList] at hbody
  have hspace (cs : List Char) : skipSpace ('"' :: cs) = '"' :: cs := rfl
  simp only [parse?, htext, hspace, value, hbody]
  rfl

end Json

namespace Toml

theorem escape?_of_code {c : Char} {cs rest : List Char}
    (h : Text.hexNumber? 4 0 cs = some (c.toNat, rest)) (hc : c.toNat < 0xD800) :
    escape? ('u' :: cs) = some (c, rest) := by
  simp [escape?, h, scalar?, hc]

theorem basicBody_escape {c : Char} {cs rest : List Char} (h : escape? cs = some (c, rest))
    (fuel : Nat) (read : List Char) :
    basicBody (fuel + 1) read ('\\' :: cs) = basicBody fuel (c :: read) rest := by
  simp [basicBody, h]

theorem isPlain_of_not_control {c : Char} (h : ¬(c.toNat < 0x20 ∨ c.toNat = 0x7F)) :
    isPlain c = true := by
  rw [not_or, Nat.not_lt] at h
  simp [isPlain, h.1, h.2]

theorem basicBody_escapeChar (fuel : Nat) (read : List Char) (c : Char) (rest : List Char) :
    basicBody (fuel + 1) read (escapeChar c ++ rest) = basicBody fuel (c :: read) rest := by
  unfold escapeChar
  simp only [Bool.or_eq_true, decide_eq_true_eq]
  split_ifs with hself hback htab hline hfeed hreturn hcontrol
  · rcases hself with rfl | rfl
    · rfl
    · rfl
  · subst hback
    rfl
  · subst htab
    rfl
  · subst hline
    rfl
  · subst hfeed
    rfl
  · subst hreturn
    rfl
  · have hhigh := Text.hexValue?_toUpper_digitChar (by omega : c.toNat / 16 < 16)
    have hlow := Text.hexValue?_toUpper_digitChar (by omega : c.toNat % 16 < 16)
    exact basicBody_escape (escape?_of_code (Text.hexNumber?_byte hhigh hlow rest) (by omega)) fuel read
  · have hplain := isPlain_of_not_control hcontrol
    rw [List.singleton_append, basicBody]
    · simp [hplain]
    · simpa using fun h => hself (.inl h)
    · simpa using fun h => hself (.inr h)

theorem unescapes : Text.Unescapes escapeChar basicBody where
  close fuel read rest := by cases fuel <;> rfl
  step := basicBody_escapeChar
  nonempty c := by
    unfold escapeChar
    repeat' split
    all_goals exact List.cons_ne_nil _ _

theorem part?_bare {name : List Char} (hname : name ≠ []) (hbare : ∀ c ∈ name, isBareChar c = true)
    {rest : List Char} (hrest : Text.Stops isBareChar rest) :
    part? (name ++ rest) = some (String.ofList name, rest) := by
  obtain ⟨c, name, rfl⟩ := List.exists_cons_of_ne_nil hname
  have hc : isBareChar c = true := hbare c (.head name)
  rw [List.cons_append, part?, ← List.cons_append, hrest.takeWhile_append hbare,
    hrest.dropWhile_append hbare]
  · rfl
  · exact fun _ heq => Text.ne_of_kind hc (by decide) (List.cons.inj heq).1
  · exact fun _ heq => Text.ne_of_kind hc (by decide) (List.cons.inj heq).1

theorem part?_literal {cs : List Char} (h : ∀ c ∈ cs, isLiteralChar c = true) (rest : List Char) :
    part? ('\'' :: (cs ++ '\'' :: rest)) = some (String.ofList cs, rest) :=
  literal?_append h rest

theorem part?_basic (cs rest : List Char) :
    part? ('"' :: (cs.flatMap escapeChar ++ '"' :: rest)) = some (String.ofList cs, rest) :=
  unescapes.readsBack cs rest

theorem part?_keyText (key : String) {rest : List Char} (hrest : Text.Stops isBareChar rest) :
    part? ((keyText key).toList ++ rest) = some (key, rest) := by
  simp only [keyText]
  split_ifs with hbare hliteral
  · simp only [Bool.and_eq_true, Bool.not_eq_true', List.isEmpty_eq_false_iff, List.all_eq_true] at hbare
    rw [part?_bare hbare.1 hbare.2 hrest, String.ofList_toList]
  · simp only [Bool.and_eq_true, List.all_eq_true] at hliteral
    have hpart := part?_literal hliteral.2 rest
    rw [String.ofList_toList] at hpart
    simpa using hpart
  · have hpart := part?_basic key.toList rest
    rw [String.ofList_toList] at hpart
    simpa using hpart

end Toml

end Brigade
