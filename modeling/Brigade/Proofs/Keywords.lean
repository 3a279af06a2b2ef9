import Brigade.Config.Load
import Brigade.Kitchen.Menu
import Brigade.Proofs.Payloads

/-! Keywords, which are read without regard to case. The lower case of a text is in ASCII only if the text
is, but for the sign of the kelvin, whose lower case is the letter `k`. No keyword has a `k`, so a keyword
is read from its word in any case of the ASCII letters, and from no other text. -/

namespace Brigade

namespace Text

def IsAscii (c : Char) : Prop := c.toNat < 128

instance : DecidablePred IsAscii := fun _ => inferInstanceAs (Decidable (_ < _))

/-- Whether a text differs from a word at most in the case of its ASCII letters, the only ones that
`Char.toLower` changes. -/
def CaseVariant (s word : String) : Prop := s.toList.map Char.toLower = word.toList.map Char.toLower

instance (s word : String) : Decidable (CaseVariant s word) := inferInstanceAs (Decidable (_ = _))

/-- Whether a text is one of the words, in any case of its ASCII letters. -/
def OneOf (words : List String) (s : String) : Prop := ∃ word ∈ words, CaseVariant s word

instance (words : List String) (s : String) : Decidable (OneOf words s) :=
  inferInstanceAs (Decidable (∃ word ∈ words, CaseVariant s word))

/-! ### Lower case in ASCII -/

/-- The sign of the kelvin, the one character outside ASCII whose lower case is in ASCII. -/
def kelvin : Char := '\u212A'

def CaseRun.capitals : CaseRun := ⟨0x41, 0x5A, 1, 0x61⟩

def CaseRun.kelvin : CaseRun := ⟨0x212A, 0x212A, 1, 0x6B⟩

/-- A run of characters outside ASCII, whose forms are characters outside ASCII. -/
def CaseRun.Foreign (run : CaseRun) : Prop :=
  128 ≤ run.first ∧ 128 ≤ run.target ∧ (run.target + (run.last - run.first) < 0xD800 ∨
    0xDFFF < run.target ∧ run.target + (run.last - run.first) < 0x110000)

instance : DecidablePred CaseRun.Foreign := fun _ => inferInstanceAs (Decidable (_ ∧ _ ∧ (_ ∨ _)))

deriving instance DecidableEq for CaseRun

/-- The table has one run in ASCII and one that leads there. -/
theorem caseRun_cases : ∀ run ∈ caseRuns, run = .capitals ∨ run = .kelvin ∨ run.Foreign := by
  decide +kernel

theorem capitals_mem : CaseRun.capitals ∈ caseRuns := .head _

theorem CaseRun.lower?_eq_some_iff {run : CaseRun} {n m : Nat} : run.lower? n = some m ↔
    (run.first ≤ n ∧ n ≤ run.last ∧ (n - run.first) % run.step = 0) ∧
      m = run.target + (n - run.first) := by
  simp [lower?, eq_comm]

/-- A lower-case form is that of an ASCII capital or of the kelvin, or has nothing to do with ASCII. -/
theorem lowerForm_cases {n m : Nat} (h : caseRuns.findSome? (·.lower? n) = some m) :
    (0x41 ≤ n ∧ n ≤ 0x5A ∧ m = n + 32) ∨ (n = kelvin.toNat ∧ m = 'k'.toNat) ∨
      (128 ≤ n ∧ 128 ≤ m ∧ m.isValidChar) := by
  obtain ⟨run, hrun, hform⟩ := List.exists_of_findSome?_eq_some h
  obtain ⟨⟨hfirst, hlast, -⟩, rfl⟩ := CaseRun.lower?_eq_some_iff.1 hform
  obtain rfl | rfl | hforeign := caseRun_cases run hrun
  · simp only [CaseRun.capitals] at hfirst hlast ⊢
    omega
  · simp only [CaseRun.kelvin] at hfirst hlast ⊢
    have hkelvin : kelvin.toNat = 0x212A := rfl
    have hk : 'k'.toNat = 0x6B := rfl
    omega
  · -- no form falls into the gap between the valid code points
    obtain ⟨hfirst', htarget, hvalid⟩ := hforeign
    simp only [Nat.isValidChar]
    omega

theorem toNat_ofNat_of_isValidChar {n : Nat} (h : n.isValidChar) : (Char.ofNat n).toNat = n :=
  congrArg Char.toNat (dif_pos h)

theorem toLower_of_not_capital {c : Char} (h : ¬(0x41 ≤ c.toNat ∧ c.toNat ≤ 0x5A)) : c.toLower = c :=
  dif_neg h

theorem toLower_of_capital {c : Char} (h : 0x41 ≤ c.toNat ∧ c.toNat ≤ 0x5A) :
    c.toLower = Char.ofNat (c.toNat + 32) := by
  have hvalid : (c.toNat + 32).isValidChar := .inl (by omega)
  have hlower : c.toLower.val = c.val + 32 := congrArg Char.val (dif_pos h)
  have hval : c.val.toNat = c.toNat := rfl
  have h32 : (32 : UInt32).toNat = 32 := rfl
  refine Char.toNat_inj.1 ?_
  rw [toNat_ofNat_of_isValidChar hvalid, Char.toNat, hlower, UInt32.toNat_add]
  omega

theorem IsAscii.lowerChar {c : Char} (h : IsAscii c) : lowerChar c = [c.toLower] := by
  have hascii : c.toNat < 128 := h
  have hdotted : c ≠ '\u0130' := by
    rintro rfl
    exact absurd h (by decide)
  rw [Text.lowerChar, if_neg hdotted]
  cases hform : caseRuns.findSome? (·.lower? c.toNat) with
  | none =>
    have hcapital : ¬(0x41 ≤ c.toNat ∧ c.toNat ≤ 0x5A) := by
      have hnone := List.findSome?_eq_none_iff.1 hform _ capitals_mem
      simpa [CaseRun.lower?, CaseRun.capitals, Nat.mod_one] using hnone
    rw [toLower_of_not_capital hcapital]
  | some n =>
    have hkelvin : kelvin.toNat = 0x212A := rfl
    obtain ⟨hfirst, hlast, rfl⟩ | ⟨heq, -⟩ | ⟨hle, -⟩ := lowerForm_cases hform
    · rw [toLower_of_capital ⟨hfirst, hlast⟩]
    · omega
    · omega

theorem exists_foreign_mem_lowerChar {c : Char} (h : ¬IsAscii c) (hkelvin : c ≠ kelvin) :
    ∃ d ∈ lowerChar c, ¬IsAscii d := by
  rw [Text.lowerChar]
  split_ifs with hdotted
  · exact ⟨'\u0307', by simp, by decide⟩
  · cases hform : caseRuns.findSome? (·.lower? c.toNat) with
    | none => exact ⟨c, by simp, h⟩
    | some n =>
      refine ⟨Char.ofNat n, by simp, ?_⟩
      have hforeign : 128 ≤ c.toNat := Nat.not_lt.1 h
      obtain ⟨-, hlast, -⟩ | ⟨heq, -⟩ | ⟨-, hle, hvalid⟩ := lowerForm_cases hform
      · omega
      · exact absurd (Char.toNat_inj.1 heq) hkelvin
      · rw [IsAscii, toNat_ofNat_of_isValidChar hvalid]
        exact Nat.not_lt.2 hle

theorem lowerChar_kelvin : lowerChar kelvin = ['k'] := by
  decide +kernel

def asciiLower (c : Char) : Char := if c = kelvin then 'k' else c.toLower

theorem lowerFrom_cons_of_isAscii {c : Char} (h : IsAscii c ∨ c = kelvin) (before rest : List Char) :
    lowerFrom before (c :: rest) = asciiLower c :: lowerFrom (c :: before) rest := by
  have hsigma : c ≠ 'Σ' := by
    rintro rfl
    exact absurd h (by decide)
  have hlower : lowerChar c = [asciiLower c] := by
    by_cases hkelvin : c = kelvin
    · rw [asciiLower, if_pos hkelvin, hkelvin, lowerChar_kelvin]
    · rw [asciiLower, if_neg hkelvin, (h.resolve_right hkelvin).lowerChar]
  simp only [lowerFrom, if_neg hsigma, hlower, List.cons_append, List.nil_append]

theorem exists_foreign_mem_lowerFrom {c : Char} (h : ¬IsAscii c) (hkelvin : c ≠ kelvin)
    (before rest : List Char) : ∃ d ∈ lowerFrom before (c :: rest), ¬IsAscii d := by
  simp only [lowerFrom, List.mem_append]
  -- a sigma has two forms, either of them outside ASCII
  split_ifs with hsigma hfinal
  · exact ⟨'ς', .inl (.head _), by decide⟩
  · exact ⟨'σ', .inl (.head _), by decide⟩
  · obtain ⟨d, hd, hforeign⟩ := exists_foreign_mem_lowerChar h hkelvin
    exact ⟨d, .inl hd, hforeign⟩

theorem toLower_of_foreign {c : Char} (h : ¬IsAscii c) : c.toLower = c := by
  have hforeign : 128 ≤ c.toNat := Nat.not_lt.1 h
  exact toLower_of_not_capital fun hcapital => by omega

/-- Whatever stands before a text, its lower case is a text in ASCII only character by character. -/
theorem lowerFrom_eq_iff {word : List Char} (hword : ∀ d ∈ word, IsAscii d) {before cs : List Char} :
    lowerFrom before cs = word ↔ cs.map asciiLower = word := by
  induction cs generalizing before word with
  | nil => rfl
  | cons c rest ih =>
    by_cases h : IsAscii c ∨ c = kelvin
    · rw [lowerFrom_cons_of_isAscii h, List.map_cons]
      cases word with
      | nil => simp
      | cons d word => rw [List.cons.injEq, List.cons.injEq, ih (List.forall_mem_cons.1 hword).2]
    · -- on both sides there is a character outside ASCII
      obtain ⟨hforeign, hkelvin⟩ := not_or.1 h
      constructor
      · rintro rfl
        obtain ⟨d, hd, hd'⟩ := exists_foreign_mem_lowerFrom hforeign hkelvin before rest
        exact absurd (hword d hd) hd'
      · rintro rfl
        have hc := hword (asciiLower c) List.mem_cons_self
        rw [asciiLower, if_neg hkelvin, toLower_of_foreign hforeign] at hc
        exact absurd hc hforeign

/-! ### Keywords -/

/-- A word in ASCII without a capital and without the letter `k`. -/
def IsKeyword (word : String) : Prop := ∀ c ∈ word.toList, IsAscii c ∧ c.toLower = c ∧ c ≠ 'k'

-- not the instance that goes through all characters there are
instance : DecidablePred IsKeyword := fun word => List.decidableBAll _ word.toList

theorem CaseVariant.isAscii {s word : String} (h : CaseVariant s word)
    (hword : IsKeyword word) : ∀ c ∈ s.toList, IsAscii c := by
  intro c hc
  by_contra hforeign
  have hmem : c.toLower ∈ word.toList.map Char.toLower := h ▸ List.mem_map_of_mem hc
  obtain ⟨d, hd, heq⟩ := List.mem_map.1 hmem
  rw [toLower_of_foreign hforeign, (hword d hd).2.1] at heq
  exact hforeign (heq ▸ (hword d hd).1)

theorem map_asciiLower {cs : List Char} (h : kelvin ∉ cs) : cs.map asciiLower = cs.map Char.toLower := by
  refine List.map_congr_left fun c hc => ?_
  rw [asciiLower, if_neg (ne_of_mem_of_not_mem hc h)]

theorem lowerCase_eq_iff {word : String} (hword : IsKeyword word) {s : String} :
    lowerCase s = word ↔ CaseVariant s word := by
  have hself : word.toList.map Char.toLower = word.toList :=
    (List.map_congr_left fun d hd => (hword d hd).2.1).trans (List.map_id _)
  have hlower : lowerCase s = word ↔ s.toList.map asciiLower = word.toList := by
    rw [← lowerFrom_eq_iff fun d hd => (hword d hd).1, ← String.toList_inj, lowerCase, String.toList_ofList]
  rw [hlower, CaseVariant, hself]
  -- the kelvin would give a `k`, and is outside ASCII
  constructor
  · intro h
    have hkelvin : kelvin ∉ s.toList := by
      intro hmem
      exact (hword 'k' (h ▸ List.mem_map_of_mem hmem)).2.2 rfl
    rw [← h, map_asciiLower hkelvin]
  · intro h
    have hkelvin : kelvin ∉ s.toList := by
      intro hmem
      exact absurd (CaseVariant.isAscii (h.trans hself.symm) hword kelvin hmem) (by decide)
    rw [← h, map_asciiLower hkelvin]

/-- A table of values by their spellings, all of them keywords and none that of two values. -/
structure KeywordTable {α : Type} (spellings : α → List String) (words : List (String × α)) : Prop where
  mem_iff (word : String) (v : α) : (word, v) ∈ words ↔ word ∈ spellings v
  keywords : ∀ w ∈ words, IsKeyword w.1
  nodup : (words.map Prod.fst).Nodup

/-- What is read from a text: the value of which the text is a spelling, in any case of its ASCII letters
and with or without blanks around it, and else the refusal. -/
structure ReadsKeyword {α : Type} (spellings : α → List String) (s : String)
    (refusal : ConstructionError) (r : Built α) : Prop where
  ok_iff (v : α) : r = .ok v ↔ ∃ name, TrimsTo s name ∧ OneOf (spellings v) name
  error_iff (e : ConstructionError) : r = .error e ↔
    e = refusal ∧ ¬∃ v name, TrimsTo s name ∧ OneOf (spellings v) name

namespace KeywordTable

variable {α : Type} {spellings : α → List String} {words : List (String × α)}
  (h : KeywordTable spellings words)
include h

theorem keyword?_eq_some_iff {s : String} {v : α} :
    keyword? words s = some v ↔ OneOf (spellings v) s := by
  have hlower {word : String} (hmem : word ∈ spellings v) : lowerCase s = word ↔ CaseVariant s word :=
    lowerCase_eq_iff (h.keywords (word, v) ((h.mem_iff word v).2 hmem))
  rw [keyword?, Json.lookup_eq_some_iff_mem h.nodup, h.mem_iff]
  constructor
  · intro hmem
    exact ⟨lowerCase s, hmem, (hlower hmem).1 rfl⟩
  · rintro ⟨word, hmem, hvariant⟩
    rwa [(hlower hmem).2 hvariant]

theorem trimmedKeyword?_eq_some_iff {s : String} {v : α} :
    trimmedKeyword? words s = some v ↔ ∃ name, TrimsTo s name ∧ OneOf (spellings v) name := by
  rw [trimmedKeyword?, h.keyword?_eq_some_iff]
  constructor
  · intro hname
    exact ⟨trim s, trim_eq_iff.1 rfl, hname⟩
  · rintro ⟨name, htrim, hname⟩
    rwa [trim_eq_iff.2 htrim]

theorem readsKeyword {s : String} {refusal : ConstructionError} {r : Built α}
    (hsome : ∀ v, trimmedKeyword? words s = some v → r = .ok v)
    (hnone : trimmedKeyword? words s = none → r = .error refusal) :
    ReadsKeyword spellings s refusal r := by
  have hread (v : α) := h.trimmedKeyword?_eq_some_iff (s := s) (v := v)
  cases hresult : trimmedKeyword? words s with
  | none =>
    have hnot : ¬∃ v name, TrimsTo s name ∧ OneOf (spellings v) name := by
      rintro ⟨v, hname⟩
      exact nomatch hresult.symm.trans ((hread v).2 hname)
    rw [hnone hresult]
    constructor
    · intro v
      exact ⟨nofun, fun hname => absurd ⟨v, hname⟩ hnot⟩
    · intro e
      rw [and_iff_left hnot, Except.error.injEq, eq_comm]
  | some w =>
    rw [hsome w hresult]
    constructor
    · intro v
      rw [Except.ok.injEq, ← hread, hresult, Option.some.injEq]
    · intro e
      exact ⟨nofun, fun hnot => absurd ⟨w, (hread w).1 hresult⟩ hnot.2⟩

theorem isAscii {s : String} {v : α} (hs : OneOf (spellings v) s) : ∀ c ∈ s.toList, IsAscii c := by
  obtain ⟨word, hmem, hvariant⟩ := hs
  exact hvariant.isAscii (h.keywords (word, v) ((h.mem_iff word v).2 hmem))

theorem ne_ok_of_foreign {s name : String} {refusal : ConstructionError} {r : Built α}
    (hr : ReadsKeyword spellings s refusal r) (htrim : TrimsTo s name) {c : Char} (hc : c ∈ name.toList)
    (hforeign : ¬IsAscii c) (v : α) : r ≠ .ok v := by
  intro hv
  obtain ⟨name', htrim', hname⟩ := (hr.ok_iff v).1 hv
  obtain rfl : name = name' := (trim_eq_iff.2 htrim).symm.trans (trim_eq_iff.2 htrim')
  exact hforeign (h.isAscii hname c hc)

end KeywordTable

end Text

def Order.spellings : Order → List String
  | .sandwich => ["sandwich"]
  | .pizza => ["pizza"]
  | .combo => ["combo"]
  | .random => ["random"]

def PizzaSize.spellings : PizzaSize → List String
  | .small => ["small", "s"]
  | .medium => ["medium", "m"]
  | .large => ["large", "l"]

def Config.truthSpellings : Bool → List String
  | true => ["true", "1", "yes", "on"]
  | false => ["false", "0", "no", "off"]

theorem Order.keywordTable : Text.KeywordTable spellings (all.map fun o => (o.name, o)) where
  mem_iff word o := by cases o <;> simp [all, name, spellings]
  keywords := by decide
  nodup := by decide

theorem PizzaSize.keywordTable : Text.KeywordTable spellings words where
  mem_iff word size := by cases size <;> simp [words, spellings]
  keywords := by decide
  nodup := by decide

theorem Config.keywordTable : Text.KeywordTable truthSpellings truthWords where
  mem_iff word b := by cases b <;> simp [truthWords, truthSpellings]
  keywords := by decide
  nodup := by decide

theorem Order.readsKeyword (s : String) :
    Text.ReadsKeyword spellings s (.invalid "order" s!"unknown order '{s}'") (ofText s) :=
  keywordTable.readsKeyword (fun o ho => by rw [ofText, ho]) (fun hnone => by rw [ofText, hnone])

theorem PizzaSize.readsKeyword (s : String) :
    Text.ReadsKeyword spellings s
      (.invalid "size" s!"unknown pizza size '{Text.lowerCase (Text.trim s)}'") (ofText s) :=
  keywordTable.readsKeyword (fun size hsize => by rw [ofText, hsize])
    (fun hnone => by rw [ofText, hnone])

/-- An order and the size of a pizza are read from their words in any case of the ASCII letters, with or
without blanks around them, a truth value from its words without blanks, and nothing else is read. So what
has a character outside ASCII apart from the blanks around it is refused by all three. -/
theorem keywords_read_ascii (s : String) :
    Text.ReadsKeyword Order.spellings s (.invalid "order" s!"unknown order '{s}'") (Order.ofText s) ∧
    Text.ReadsKeyword PizzaSize.spellings s
      (.invalid "size" s!"unknown pizza size '{Text.lowerCase (Text.trim s)}'") (PizzaSize.ofText s) ∧
    (∀ b, Config.truth? s = some b ↔ Text.OneOf (Config.truthSpellings b) s) ∧
    ∀ name, Text.TrimsTo s name → ∀ c ∈ name.toList, ¬Text.IsAscii c →
      (∀ o, Order.ofText s ≠ .ok o) ∧ (∀ size, PizzaSize.ofText s ≠ .ok size) ∧
        Config.truth? s = none := by
  have htruth (b : Bool) : Config.truth? s = some b ↔ Text.OneOf (Config.truthSpellings b) s :=
    Config.keywordTable.keyword?_eq_some_iff
  refine ⟨Order.readsKeyword s, PizzaSize.readsKeyword s, htruth, ?_⟩
  intro name htrim c hc hforeign
  refine ⟨Order.keywordTable.ne_ok_of_foreign (Order.readsKeyword s) htrim hc hforeign,
    PizzaSize.keywordTable.ne_ok_of_foreign (PizzaSize.readsKeyword s) htrim hc hforeign, ?_⟩
  obtain ⟨before, after, -, -, hs⟩ := htrim.blanks
  have hmem : c ∈ s.toList := by simp [hs, hc]
  refine Option.eq_none_iff_forall_ne_some.2 fun b hb => ?_
  exact hforeign (Config.keywordTable.isAscii ((htruth b).1 hb) c hmem)

/-- A medium pizza in mixed case, between a wide blank and a line break. A long s, whose capital is that of
the word for a small one, is no word for it. -/
theorem keywords_read_ascii_longS :
    PizzaSize.ofText "\u3000MeDiUm\n" = .ok .medium ∧ PizzaSize.ofText "\u3000\u017F\n" ≠ .ok .small ∧
      Order.ofText "\u3000\u017F\n" ≠ .ok .sandwich ∧ Config.truth? "\u3000\u017F\n" = none := by
  have hmedium : Text.TrimsTo "\u3000MeDiUm\n" "MeDiUm" := Text.trim_eq_iff.1 (by decide)
  have hlong : Text.TrimsTo "\u3000\u017F\n" "\u017F" := Text.trim_eq_iff.1 (by decide)
  obtain ⟨-, hsize, -⟩ := keywords_read_ascii "\u3000MeDiUm\n"
  obtain ⟨-, -, -, hforeign⟩ := keywords_read_ascii "\u3000\u017F\n"
  obtain ⟨horder, hsmall, htruth⟩ := hforeign "\u017F" hlong '\u017F' (by decide) (by decide)
  exact ⟨(hsize.ok_iff .medium).2 ⟨"MeDiUm", hmedium, by decide⟩, hsmall .small, horder .sandwich, htruth⟩

end Brigade
