import Brigade.Proofs.Payloads
import Brigade.Proofs.Quotation

/-! Which texts name an ingredient. The name is the text without the blanks around it, so an ingredient
has one name, which names it again; a text that names none has one fault, the first in a fixed order. -/

namespace Brigade

theorem Text.isEmpty_of_length_pos {s : String} (h : 0 < s.length) : s.isEmpty = false := by
  rw [Bool.eq_false_iff, Ne, String.isEmpty_iff]
  rintro rfl
  exact absurd h (by decide)

namespace Ingredient

theorem isNameChar_iff {c : Char} : isNameChar c = true ↔ Text.isLetter c ∨ c = ' ' ∨ c = '-' := by
  simp [isNameChar, or_assoc]

/-- What is wrong with a name without blanks at its ends. Of several faults the first of these is told,
and of several characters that names have not, the first of the name. -/
inductive NameFault (name : String) : ConstructionError → Prop
  | empty (h : name = "") : NameFault name (.empty "ingredient")
  | long (h : 32 < name.length) : NameFault name (.invalid "ingredient" "longer than 32 characters")
  | strange {good rest : List Char} {bad : Char} (hshort : name.length ≤ 32)
    (hname : name.toList = good ++ bad :: rest)
    (hgood : ∀ c ∈ good, Text.isLetter c ∨ c = ' ' ∨ c = '-')
    (hbad : ¬(Text.isLetter bad ∨ bad = ' ' ∨ bad = '-')) :
    NameFault name (.invalid "ingredient" s!"unexpected character '{bad}'")

theorem fault?_eq_some_iff {name : String} {e : ConstructionError} :
    fault? name = some e ↔ NameFault name e := by
  constructor
  · intro h
    unfold fault? at h
    split_ifs at h with hempty hlong
    · obtain rfl := Option.some.inj h
      exact .empty (String.isEmpty_iff.1 hempty)
    · obtain rfl := Option.some.inj h
      exact .long hlong
    · obtain ⟨bad, hfind, rfl⟩ := Option.map_eq_some_iff.1 h
      obtain ⟨hbad, good, rest, hname, hgood⟩ := List.find?_eq_some_iff_append.1 hfind
      refine .strange (Nat.not_lt.1 hlong) hname (fun c hc => isNameChar_iff.1 ?_) ?_
      · simpa using hgood c hc
      · rw [← isNameChar_iff]
        simpa using hbad
  · intro h
    cases h with
    | empty hempty =>
      rw [hempty]
      rfl
    | long hlong =>
      have hlarge : maxLength < name.length := hlong
      rw [fault?, Text.isEmpty_of_length_pos (Nat.zero_lt_of_lt hlong), if_neg Bool.false_ne_true,
        if_pos hlarge]
      rfl
    | @strange good rest bad hshort hname hgood hbad =>
      have hsmall : ¬maxLength < name.length := Nat.not_lt.2 hshort
      have hpos : 0 < name.length := by
        rw [← String.length_toList, hname, List.length_append, List.length_cons]
        omega
      have hfind : (name.toList.find? fun c => !isNameChar c) = some bad := by
        refine List.find?_eq_some_iff_append.2 ⟨?_, good, rest, hname, fun c hc => ?_⟩
        · rw [← isNameChar_iff] at hbad
          simpa using hbad
        · simpa using isNameChar_iff.2 (hgood c hc)
      rw [fault?, Text.isEmpty_of_length_pos hpos, if_neg Bool.false_ne_true, if_neg hsmall, hfind]
      rfl

theorem ofText_eq_ok_iff {s : String} {i : Ingredient} : ofText s = .ok i ↔ Text.trim s = i.name := by
  refine ⟨fun h => ?_, ofText_eq_ok⟩
  unfold ofText at h
  split at h
  · obtain rfl := Except.ok.inj h
    rfl
  · cases h

theorem ofText_eq_error_iff {s : String} {e : ConstructionError} :
    ofText s = .error e ↔ fault? (Text.trim s) = some e := by
  unfold ofText
  split
  · next hfault => simp [hfault]
  · next hfault => simp [hfault]

theorem exists_ofText_iff {s : String} : (∃ i, ofText s = .ok i) ↔ IsName (Text.trim s) := by
  constructor
  · rintro ⟨i, hi⟩
    exact ofText_eq_ok_iff.1 hi ▸ i.isName
  · intro h
    have hfaultless := fault?_eq_none_iff.2 ⟨h.nonempty, h.short, h.chars⟩
    exact ⟨⟨Text.trim s, h.trimmed, hfaultless⟩, ofText_eq_ok rfl⟩

theorem ofText_blanks (i : Ingredient) {before after : String}
    (hbefore : ∀ c ∈ before.toList, Text.isBlank c = true)
    (hafter : ∀ c ∈ after.toList, Text.isBlank c = true) :
    ofText (before ++ i.name ++ after) = .ok i := by
  have htrimmed := (Text.trim_eq_iff.1 i.trimmed).trimmed
  refine ofText_eq_ok (Text.trim_eq_iff.2 ⟨htrimmed, before.toList, after.toList, hbefore, hafter, ?_⟩)
  simp only [String.toList_append, List.append_assoc]

/-! ### Lists of names -/

theorem ofTexts_cons_ok {s : String} {i : Ingredient} (h : ofText s = .ok i) (names : List String) :
    ofTexts (s :: names) = (ofTexts names).map (i :: ·) := by
  simp only [ofTexts, h]
  cases ofTexts names <;> rfl

theorem ofTexts_cons_error {s : String} {e : ConstructionError} (h : ofText s = .error e)
    (names : List String) : ofTexts (s :: names) = .error e := by
  simp only [ofTexts, h]
  rfl

theorem ofTexts_eq_ok_iff {names : List String} {is : List Ingredient} :
    ofTexts names = .ok is ↔ List.Forall₂ (fun s i => ofText s = .ok i) names is := by
  induction names generalizing is with
  | nil => simp [ofTexts, eq_comm]
  | cons s names ih =>
    rw [List.forall₂_cons_left_iff]
    cases hs : ofText s with
    | error e => simp [ofTexts_cons_error hs]
    | ok i =>
      simp only [← ih, ofTexts_cons_ok hs]
      cases ofTexts names <;> simp [Except.map, eq_comm]

theorem ofTexts_eq_error_iff {names : List String} {e : ConstructionError} :
    ofTexts names = .error e ↔ ∃ good bad rest, names = good ++ bad :: rest ∧
      (∀ s ∈ good, ∃ i, ofText s = .ok i) ∧ ofText bad = .error e := by
  induction names with
  | nil => simp [ofTexts]
  | cons s names ih =>
    -- the first text is the bad one, or it is good and what is left has the bad one
    cases hs : ofText s with
    | error e' =>
      rw [ofTexts_cons_error hs]
      constructor
      · rintro ⟨⟩
        exact ⟨[], s, names, rfl, nofun, hs⟩
      · rintro ⟨good, bad, rest, hnames, hgood, hbad⟩
        cases good with
        | nil =>
          obtain ⟨rfl, -⟩ := List.cons.inj hnames
          exact congrArg Except.error (Except.error.inj (hs.symm.trans hbad))
        | cons t good =>
          obtain ⟨rfl, -⟩ := List.cons.inj hnames
          obtain ⟨i, hi⟩ := hgood s List.mem_cons_self
          cases hs.symm.trans hi
    | ok i =>
      have hrest : ofTexts (s :: names) = .error e ↔ ofTexts names = .error e := by
        rw [ofTexts_cons_ok hs]
        cases ofTexts names <;> simp [Except.map]
      rw [hrest, ih]
      constructor
      · rintro ⟨good, bad, rest, rfl, hgood, hbad⟩
        exact ⟨s :: good, bad, rest, rfl, List.forall_mem_cons.2 ⟨⟨i, hs⟩, hgood⟩, hbad⟩
      · rintro ⟨good, bad, rest, hnames, hgood, hbad⟩
        cases good with
        | nil =>
          obtain ⟨rfl, -⟩ := List.cons.inj hnames
          cases hs.symm.trans hbad
        | cons t good =>
          obtain ⟨-, hrest⟩ := List.cons.inj hnames
          exact ⟨good, bad, rest, hrest, (List.forall_mem_cons.1 hgood).2, hbad⟩

/-! ### Canonical names -/

/-- A text names an ingredient if it is a name with blanks around it. The ingredient has that name, which
names it again with any blanks around it and from JSON; of a text that names none the first fault is told.
A field of ingredients takes all of its names or tells the fault of the first bad one. -/
theorem ofText_canonical :
    (∀ s : String, Text.TrimsTo s (Text.trim s) ∧
      ((∃ i, ofText s = .ok i) ↔ Text.trim s ≠ "" ∧ (Text.trim s).length ≤ 32 ∧
        ∀ c ∈ (Text.trim s).toList, Text.isLetter c ∨ c = ' ' ∨ c = '-') ∧
      (∀ i, ofText s = .ok i → i.name = Text.trim s) ∧
      ∀ e, ofText s = .error e ↔ NameFault (Text.trim s) e) ∧
    (∀ i : Ingredient, ∀ before after : String,
      (∀ c ∈ before.toList ++ after.toList, Text.isBlank c = true) →
        ofText (before ++ i.name ++ after) = .ok i) ∧
    (∀ i : Ingredient, (Json.parse? (Json.render i.toJson)).bind ofJson? = some i) ∧
    ∀ (field : String) (names : List String),
      (∀ is, listFor field names = .ok is ↔
        names ≠ [] ∧ List.Forall₂ (fun s i => ofText s = .ok i) names is) ∧
      ∀ e, listFor field names = .error e ↔
        (names = [] ∧ e = .empty field) ∨
        ∃ good bad rest, names = good ++ bad :: rest ∧
          (∀ s ∈ good, ∃ i, ofText s = .ok i) ∧ ofText bad = .error e := by
  refine ⟨fun s => ⟨Text.trim_eq_iff.1 rfl, ?_, fun i hi => (ofText_eq_ok_iff.1 hi).symm, fun e => ?_⟩,
    fun i before after hblank => ?_, fun i => ?_, fun field names => ?_⟩
  · rw [exists_ofText_iff]
    exact ⟨fun h => ⟨h.nonempty, h.short, h.chars⟩, fun h => ⟨Text.trim_trim s, h.1, h.2.1, h.2.2⟩⟩
  · rw [ofText_eq_error_iff, fault?_eq_some_iff]
  · obtain ⟨hbefore, hafter⟩ := List.forall_mem_append.1 hblank
    exact ofText_blanks i hbefore hafter
  · rw [toJson, Json.parse?_render_str, Option.bind_some]
    exact readsBack i
  · cases names with
    | nil => simp [listFor, eq_comm]
    | cons s names => simp [listFor, ofTexts_eq_ok_iff, ofTexts_eq_error_iff]

theorem ofText_canonical_feta :
    ∃ feta, ofText "Feta" = .ok feta ∧ ofText ("\u2003" ++ feta.name ++ " \n") = .ok feta := by
  obtain ⟨feta, hfeta⟩ : ∃ feta, ofText "Feta" = .ok feta := ⟨_, rfl⟩
  exact ⟨feta, hfeta, ofText_canonical.2.1 feta "\u2003" " \n" (List.all_eq_true.1 rfl)⟩

end Ingredient

end Brigade
