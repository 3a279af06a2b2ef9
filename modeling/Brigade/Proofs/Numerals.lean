import Brigade.Proofs.Lines
import Brigade.Proofs.Loading

/-! Numerals, and the limits that variables of the environment set. What a numeral is and which number it
writes is told by a grammar; a limit is read from a numeral of 64 bits between blanks, and from no other
text. -/

namespace Brigade

namespace Text

/-- Decimal digits and the number that they write, the most significant first. Zeros may lead. -/
inductive Decimal : List Char → Nat → Prop
  | digit {d : Nat} (h : d < 10) : Decimal [d.digitChar] d
  | append {cs : List Char} {n d : Nat} (hcs : Decimal cs n) (h : d < 10) :
    Decimal (cs ++ [d.digitChar]) (10 * n + d)

/-- An unsigned numeral: decimal digits, with or without a plus sign before them. -/
inductive Numeral : List Char → Nat → Prop
  | plain {cs : List Char} {n : Nat} (h : Decimal cs n) : Numeral cs n
  | plus {cs : List Char} {n : Nat} (h : Decimal cs n) : Numeral ('+' :: cs) n

/-- A text is a numeral of the number, with or without blanks around it. -/
def Spells (s : String) (n : Nat) : Prop := ∃ name, TrimsTo s name ∧ Numeral name.toList n

theorem digitValue_digitChar {d : Nat} (h : d < 10) : digitValue d.digitChar = d := by
  interval_cases d <;> rfl

theorem exists_digitChar {c : Char} (h : c.isDigit = true) : ∃ d < 10, c = d.digitChar := by
  obtain ⟨hlow, hhigh⟩ := Char.isDigit_iff_toNat.1 h
  have hlow' : 48 ≤ c.toNat := hlow
  have hhigh' : c.toNat ≤ 57 := hhigh
  refine ⟨c.toNat - 48, by omega, ?_⟩
  rw [← Char.ofNat_toNat c]
  generalize c.toNat = n at hlow' hhigh'
  interval_cases n <;> rfl

theorem digitsValue_concat (cs : List Char) (c : Char) :
    digitsValue (cs ++ [c]) = 10 * digitsValue cs + digitValue c := by
  simp [digitsValue]

theorem decimal?_eq_some {cs : List Char} {n : Nat} :
    decimal? cs = some n ↔ cs ≠ [] ∧ (∀ c ∈ cs, c.isDigit = true) ∧ digitsValue cs = n := by
  simp [decimal?, and_assoc]

theorem Decimal.digits {cs : List Char} {n : Nat} (h : Decimal cs n) :
    cs ≠ [] ∧ (∀ c ∈ cs, c.isDigit = true) ∧ digitsValue cs = n := by
  have hdigit {d : Nat} (hd : d < 10) : d.digitChar.isDigit = true := by
    rw [Nat.isDigit_digitChar, decide_eq_true hd]
  induction h with
  | @digit d hd =>
    have hvalue : digitsValue [d.digitChar] = digitValue d.digitChar := by simp [digitsValue]
    refine ⟨List.cons_ne_nil _ _, fun c hc => ?_, hvalue.trans (digitValue_digitChar hd)⟩
    rw [List.mem_singleton.1 hc]
    exact hdigit hd
  | @append cs n d hcs hd ih =>
    obtain ⟨-, hdigits, hvalue⟩ := ih
    refine ⟨by simp, fun c hc => ?_, ?_⟩
    · rcases List.mem_append.1 hc with hc | hc
      · exact hdigits c hc
      · rw [List.mem_singleton.1 hc]
        exact hdigit hd
    · rw [digitsValue_concat, hvalue, digitValue_digitChar hd]

theorem decimal_of_digits {cs : List Char} (hne : cs ≠ []) (h : ∀ c ∈ cs, c.isDigit = true) :
    Decimal cs (digitsValue cs) := by
  -- from the last digit, which the value takes in last
  induction cs using List.reverseRecOn with
  | nil => exact absurd rfl hne
  | append_singleton cs c ih =>
    obtain ⟨d, hd, rfl⟩ := exists_digitChar (h c (by simp))
    rw [digitsValue_concat, digitValue_digitChar hd]
    by_cases hcs : cs = []
    · subst hcs
      have hzero : 10 * digitsValue [] + d = d := by simp [digitsValue]
      rw [hzero]
      exact .digit hd
    · exact .append (ih hcs fun e he => h e (by simp [he])) hd

theorem decimal?_eq_some_iff {cs : List Char} {n : Nat} : decimal? cs = some n ↔ Decimal cs n := by
  rw [decimal?_eq_some]
  constructor
  · rintro ⟨hne, hdigits, rfl⟩
    exact decimal_of_digits hne hdigits
  · exact Decimal.digits

theorem unsigned?_eq_some_iff {s : String} {n : Nat} : unsigned? s = some n ↔ Numeral s.toList n := by
  unfold unsigned?
  split
  · next cs hcs =>
    rw [hcs, decimal?_eq_some_iff]
    constructor
    · exact .plus
    · intro h
      cases h with
      | plus h => exact h
      | plain h => exact absurd (h.digits.2.1 '+' (.head cs)) (by decide)
  · next hplus =>
    rw [decimal?_eq_some_iff]
    constructor
    · exact .plain
    · intro h
      generalize s.toList = cs at h hplus
      cases h with
      | plain h => exact h
      | plus h => exact absurd rfl (hplus _)

theorem decimal_toDigits (n : Nat) : Decimal (Nat.toDigits 10 n) n := by
  have h := decimal_of_digits Nat.toDigits_ne_nil (Toml.isDigit_of_mem_toDigits (n := n))
  rwa [Toml.digitsValue_toDigits] at h

theorem Decimal.trimmed {cs : List Char} {n : Nat} (h : Decimal cs n) : Trimmed cs := by
  have hblank : ∀ c ∈ cs, isBlank c = false := by
    intro c hc
    obtain ⟨d, hd, rfl⟩ := exists_digitChar (h.digits.2.1 c hc)
    interval_cases d <;> rfl
  exact ⟨fun c hc => hblank c (List.mem_of_mem_head? hc), fun c hc => hblank c (List.mem_of_mem_getLast? hc)⟩

theorem spells_toString (n : Nat) {before after : String} (hbefore : ∀ c ∈ before.toList, isBlank c = true)
    (hafter : ∀ c ∈ after.toList, isBlank c = true) : Spells (before ++ toString n ++ after) n := by
  have hdigits : (toString n).toList = Nat.toDigits 10 n := String.toList_ofList
  have hdecimal := decimal_toDigits n
  rw [← hdigits] at hdecimal
  refine ⟨toString n, ⟨hdecimal.trimmed, before.toList, after.toList, hbefore, hafter, ?_⟩, .plain hdecimal⟩
  simp only [String.toList_append, List.append_assoc]

end Text

def ConfigKey.limits : List (ConfigKey UInt64) := [.maxDepth, .maxSteps]

namespace Config

theorem limit?_eq_some_iff {s : String} {v : UInt64} :
    limit? s = some v ↔ Text.Spells s v.toNat := by
  simp only [limit?, Option.bind_eq_some_iff, Text.word64?_eq_some_iff, Text.unsigned?_eq_some_iff]
  constructor
  · rintro ⟨n, hn, rfl⟩
    exact ⟨Text.trim s, Text.trim_eq_iff.1 rfl, hn⟩
  · rintro ⟨name, htrim, hn⟩
    obtain rfl := Text.trim_eq_iff.2 htrim
    exact ⟨v.toNat, hn, rfl⟩

theorem limit?_eq_none_iff {s : String} : limit? s = none ↔ ¬∃ n < 2 ^ 64, Text.Spells s n := by
  constructor
  · rintro hnone ⟨n, hn, hs⟩
    have hsome : limit? s = some (.ofNat n) := by
      rw [limit?_eq_some_iff, UInt64.toNat_ofNat_of_lt' hn]
      exact hs
    rw [hnone] at hsome
    cases hsome
  · intro h
    refine Option.eq_none_iff_forall_ne_some.2 fun v hv => h ⟨v.toNat, v.toNat_lt, ?_⟩
    exact limit?_eq_some_iff.1 hv

/-- What is read from a text for the limit of this name: the number that the text spells if it has 64
bits, and else an error that tells the name. -/
structure ReadsLimit (name s : String) (r : Except ConfigError UInt64) : Prop where
  ok_iff (v : UInt64) : r = .ok v ↔ Text.Spells s v.toNat
  error_iff (e : ConfigError) : r = .error e ↔
    e = .invalidVariable name "expected non-negative integer" ∧ ¬∃ n < 2 ^ 64, Text.Spells s n

theorem readsLimit {lookup : String → Option String} {name s : String} (hset : lookup name = some s)
    (current : UInt64) : ReadsLimit name s
      (fromVariable lookup name "expected non-negative integer" limit? current) := by
  cases hlimit : limit? s with
  | none =>
    have hresult : fromVariable lookup name "expected non-negative integer" limit? current =
        .error (.invalidVariable name "expected non-negative integer") := by
      rw [fromVariable, hset]
      dsimp only
      rw [hlimit]
    have hnot := limit?_eq_none_iff.1 hlimit
    rw [hresult]
    constructor
    · intro v
      constructor
      · intro h
        cases h
      · intro hs
        exact absurd ⟨v.toNat, v.toNat_lt, hs⟩ hnot
    · intro e
      rw [and_iff_left hnot, Except.error.injEq, eq_comm]
  | some w =>
    have hresult : fromVariable lookup name "expected non-negative integer" limit? current = .ok w := by
      rw [fromVariable, hset]
      dsimp only
      rw [hlimit]
    have hw := limit?_eq_some_iff.1 hlimit
    rw [hresult]
    constructor
    · intro v
      rw [← limit?_eq_some_iff, hlimit, Except.ok.injEq, Option.some.injEq]
    · intro e
      constructor
      · intro h
        cases h
      · rintro ⟨-, hnot⟩
        exact absurd ⟨w.toNat, w.toNat_lt, hw⟩ hnot

/-- Where the other variables have values of their keys, the variables are read for the value of a key as
its own variable alone is. -/
theorem get_addVariables {α : Type} (key : ConfigKey α) {lookup : String → Option String}
    (hothers : ∀ other ∈ ConfigKey.inOrder, other.2.envName ≠ key.envName → other.2.Readable lookup)
    (c : Config) : (c.addVariables lookup).map key.get =
      fromVariable lookup key.envName key.expected key.ofText? (key.get c) := by
  let fault? (other : Σ β : Type, ConfigKey β) : Option ConfigError := other.2.misset? lookup
  have hcons (other : Σ β : Type, ConfigKey β) (rest : List (Σ β : Type, ConfigKey β)) :
      (other :: rest).findSome? fault? = (fault? other).or (rest.findSome? fault?) := by
    rw [List.findSome?_cons]
    cases fault? other <;> rfl
  have hfirst : ConfigKey.inOrder.findSome? fault? = key.misset? lookup := by
    simp only [ConfigKey.inOrder, List.forall_mem_cons, ← ConfigKey.misset?_eq_none_iff] at hothers
    cases key <;> simp_all [ConfigKey.inOrder, ConfigKey.envName, fault?]
  rw [addVariables_eq, hfirst, ConfigKey.fromVariable_eq]
  cases key.misset? lookup with
  | none => exact congrArg Except.ok (get_withEnvironment c (some lookup) key)
  | some e => rfl

/-- A variable for a limit is read by the grammar of numerals: it gives the number that it spells, and is
refused under its name if it spells none below `2 ^ 64`. So the decimal text of a number is read back, in
any blanks. With the other variables in order, this is the limit of the configuration, or its error. -/
theorem limits_read_numerals {key : ConfigKey UInt64} (hkey : key ∈ ConfigKey.limits)
    (lookup : String → Option String) (c : Config) :
    let r := fromVariable lookup key.envName "expected non-negative integer" limit? (key.get c)
    (∀ s, lookup key.envName = some s → ReadsLimit key.envName s r) ∧
    (∀ n < 2 ^ 64, ∀ before after : String, (∀ ch ∈ before.toList, Text.isBlank ch = true) →
      (∀ ch ∈ after.toList, Text.isBlank ch = true) →
      lookup key.envName = some (before ++ toString n ++ after) → r = .ok (.ofNat n)) ∧
    (∀ s ∈ ["-0", "+", "", toString (2 ^ 64)], lookup key.envName = some s →
      r = .error (.invalidVariable key.envName "expected non-negative integer")) ∧
    ((∀ other ∈ ConfigKey.inOrder, other.2.envName ≠ key.envName → other.2.Readable lookup) →
      (c.addVariables lookup).map key.get = r) := by
  intro r
  have hreads (s : String) (hset : lookup key.envName = some s) : ReadsLimit key.envName s r :=
    readsLimit hset (key.get c)
  refine ⟨hreads, fun n hn before after hbefore hafter hset => ?_, fun s hs hset => ?_, fun hothers => ?_⟩
  · refine ((hreads _ hset).ok_iff _).2 ?_
    rw [UInt64.toNat_ofNat_of_lt' hn]
    exact Text.spells_toString n hbefore hafter
  · have hnone : ∀ s ∈ ["-0", "+", "", toString (2 ^ 64)], limit? s = none := by
      decide
    exact ((hreads s hset).error_iff _).2 ⟨rfl, limit?_eq_none_iff.1 (hnone s hs)⟩
  · rw [get_addVariables key hothers]
    simp only [ConfigKey.limits, List.mem_cons, List.not_mem_nil, or_false] at hkey
    rcases hkey with rfl | rfl <;> rfl

def paddedSteps (name : String) : Option String :=
  if name = "HFM_MAX_STEPS" then some "\u2003+0040 " else none

theorem limits_read_numerals_padded :
    fromVariable paddedSteps "HFM_MAX_STEPS" "expected non-negative integer" limit? 0 = .ok 40 ∧
      (default.addVariables paddedSteps).map ConfigKey.maxSteps.get = .ok 40 := by
  have hdecimal : Text.Decimal ['0', '0', '4', '0'] 40 :=
    .append (.append (.append (.digit (d := 0) (by decide)) (d := 0) (by decide)) (d := 4) (by decide))
      (d := 0) (by decide)
  have hspells : Text.Spells "\u2003+0040 " 40 :=
    ⟨"+0040", Text.trim_eq_iff.1 (by decide), .plus hdecimal⟩
  have hlimit : ConfigKey.maxSteps ∈ ConfigKey.limits := .tail _ (.head _)
  obtain ⟨hreads, -, -, hall⟩ := limits_read_numerals hlimit paddedSteps default
  have hsteps := ((hreads "\u2003+0040 " rfl).ok_iff 40).2 hspells
  refine ⟨hsteps, (hall fun other hmem hne s hs => ?_).trans hsteps⟩
  have hname : other.2.envName = "HFM_MAX_STEPS" := (Option.ite_none_right_eq_some.1 hs).1
  exact absurd hname hne

end Config

end Brigade
