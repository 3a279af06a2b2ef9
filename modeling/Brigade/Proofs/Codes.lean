import Brigade.Failure.Config
import Brigade.Failure.Construction
import Brigade.Failure.Execution
import Mathlib.Computability.DFA

/-! The convention for error codes: as a grammar of groups, as a finite automaton, and as the conditions
that are checked. The three agree on every text, so the codes are a regular language; a code that breaks
the convention is told the first rule that it breaks, and no error has such a code. -/

namespace Brigade.ErrorCode

def IsGroupChar (c : Char) : Prop := c.isUpper = true ∨ c.isDigit = true

instance : DecidablePred IsGroupChar := fun _ => inferInstanceAs (Decidable (_ ∨ _))

def IsGroup (cs : List Char) : Prop := cs ≠ [] ∧ ∀ c ∈ cs, IsGroupChar c

/-- One or more groups, joined by single underscores. -/
def UpperSnake (cs : List Char) : Prop :=
  ∃ groups : List (List Char), groups ≠ [] ∧ (∀ g ∈ groups, IsGroup g) ∧ ['_'].intercalate groups = cs

/-- What was read of a code: a group has to begin here, a group has begun, or the code is broken. -/
inductive Place
  | boundary | inside | broken
  deriving DecidableEq

instance : Fintype Place where
  elems := {.boundary, .inside, .broken}
  complete p := by cases p <;> decide

def reader : DFA Char Place where
  step
    | .boundary, c => if IsGroupChar c then .inside else .broken
    | .inside, c => if IsGroupChar c then .inside else if c = '_' then .boundary else .broken
    | .broken, _ => .broken
  start := .boundary
  accept := {.inside}

/-- The automaton accepts what follows a place. -/
def Accepts (p : Place) (cs : List Char) : Prop := reader.evalFrom p cs = .inside

variable {c : Char} {cs rest g : List Char} {groups : List (List Char)}

theorem IsGroupChar.ne_underscore (h : IsGroupChar c) : c ≠ '_' := by
  rintro rfl
  exact absurd h (by decide)

theorem not_accepts_broken (cs : List Char) : ¬Accepts .broken cs := by
  induction cs with
  | nil => exact nofun
  | cons c cs ih => exact ih

theorem not_accepts_boundary_nil : ¬Accepts .boundary [] := nofun

theorem accepts_inside_nil : Accepts .inside [] := rfl

theorem accepts_boundary_cons :
    Accepts .boundary (c :: cs) ↔ IsGroupChar c ∧ Accepts .inside cs := by
  have hstep : Accepts .boundary (c :: cs) = Accepts (if IsGroupChar c then .inside else .broken) cs := rfl
  rw [hstep]
  split_ifs with h
  · exact (and_iff_right h).symm
  · exact iff_of_false (not_accepts_broken cs) fun haccepts => h haccepts.1

theorem accepts_inside_cons : Accepts .inside (c :: cs) ↔
    (IsGroupChar c ∧ Accepts .inside cs) ∨ (c = '_' ∧ Accepts .boundary cs) := by
  have hstep : Accepts .inside (c :: cs) =
      Accepts (if IsGroupChar c then .inside else if c = '_' then .boundary else .broken) cs := rfl
  rw [hstep]
  split_ifs with h hunder
  · simp [h, h.ne_underscore]
  · subst hunder
    simp [h]
  · simp [h, hunder, not_accepts_broken]

/-! ### The grammar -/

theorem accepts_inside_append (h : ∀ c ∈ g, IsGroupChar c) :
    Accepts .inside (g ++ rest) ↔ Accepts .inside rest := by
  induction g with
  | nil => rfl
  | cons c g ih =>
    obtain ⟨hc, hg⟩ := List.forall_mem_cons.1 h
    rw [List.cons_append, accepts_inside_cons, ih hg]
    simp [hc, hc.ne_underscore]

theorem accepts_boundary_append (h : IsGroup g) :
    Accepts .boundary (g ++ rest) ↔ Accepts .inside rest := by
  obtain ⟨hne, hg⟩ := h
  cases g with
  | nil => exact absurd rfl hne
  | cons c g =>
    obtain ⟨hc, hg⟩ := List.forall_mem_cons.1 hg
    rw [List.cons_append, accepts_boundary_cons, accepts_inside_append hg, and_iff_right hc]

theorem accepts_groups (hne : groups ≠ []) (h : ∀ g ∈ groups, IsGroup g) :
    Accepts .boundary (['_'].intercalate groups) := by
  induction groups with
  | nil => exact absurd rfl hne
  | cons g groups ih =>
    obtain ⟨hg, hgroups⟩ := List.forall_mem_cons.1 h
    cases groups with
    | nil =>
      rw [List.intercalate_singleton, ← List.append_nil g, accepts_boundary_append hg]
      exact accepts_inside_nil
    | cons g' groups =>
      rw [List.intercalate_cons_cons, List.append_assoc, accepts_boundary_append hg]
      exact accepts_inside_cons.2 (.inr ⟨rfl, ih (List.cons_ne_nil _ _) hgroups⟩)

theorem intercalate_cons (c : Char) (g : List Char) (groups : List (List Char)) :
    ['_'].intercalate ((c :: g) :: groups) = c :: ['_'].intercalate (g :: groups) := by
  cases groups with
  | nil => simp
  | cons g' groups => simp only [List.intercalate_cons_cons, List.cons_append]

theorem exists_groups (cs : List Char) :
    (Accepts .boundary cs → UpperSnake cs) ∧
    (Accepts .inside cs → ∃ g groups, (∀ c ∈ g, IsGroupChar c) ∧ (∀ g' ∈ groups, IsGroup g') ∧
      ['_'].intercalate (g :: groups) = cs) := by
  induction cs with
  | nil => exact ⟨fun h => absurd h not_accepts_boundary_nil, fun _ => ⟨[], [], nofun, nofun, rfl⟩⟩
  | cons c cs ih =>
    have hinside : IsGroupChar c → Accepts .inside cs → ∃ g groups, (∀ d ∈ c :: g, IsGroupChar d) ∧
        (∀ g' ∈ groups, IsGroup g') ∧ ['_'].intercalate ((c :: g) :: groups) = c :: cs := by
      intro hc hcs
      obtain ⟨g, groups, hg, hgroups, heq⟩ := ih.2 hcs
      exact ⟨g, groups, List.forall_mem_cons.2 ⟨hc, hg⟩, hgroups, by rw [intercalate_cons, heq]⟩
    constructor
    · intro h
      obtain ⟨hc, hcs⟩ := accepts_boundary_cons.1 h
      obtain ⟨g, groups, hg, hgroups, heq⟩ := hinside hc hcs
      exact ⟨(c :: g) :: groups, List.cons_ne_nil _ _,
        List.forall_mem_cons.2 ⟨⟨List.cons_ne_nil c g, hg⟩, hgroups⟩, heq⟩
    · intro h
      rcases accepts_inside_cons.1 h with ⟨hc, hcs⟩ | ⟨rfl, hcs⟩
      · obtain ⟨g, groups, hg, hgroups, heq⟩ := hinside hc hcs
        exact ⟨c :: g, groups, hg, hgroups, heq⟩
      · obtain ⟨groups, hne, hgroups, heq⟩ := ih.1 hcs
        refine ⟨[], groups, nofun, hgroups, ?_⟩
        cases groups with
        | nil => exact absurd rfl hne
        | cons g groups => rw [List.intercalate_cons_cons, heq, List.nil_append, List.singleton_append]

theorem accepts_boundary_iff : Accepts .boundary cs ↔ UpperSnake cs := by
  refine ⟨(exists_groups cs).1, ?_⟩
  rintro ⟨groups, hne, hgroups, rfl⟩
  exact accepts_groups hne hgroups

/-! ### The conditions -/

theorem isCodeChar_iff : isCodeChar c = true ↔ IsGroupChar c ∨ c = '_' := by
  simp [isCodeChar, IsGroupChar]

theorem hasDoubleUnderscore_cons : hasDoubleUnderscore (c :: cs) = false ↔
    (c = '_' → cs.head? ≠ some '_') ∧ hasDoubleUnderscore cs = false := by
  by_cases hc : c = '_'
  · subst hc
    cases cs with
    | nil => simp [hasDoubleUnderscore]
    | cons d cs =>
      by_cases hd : d = '_'
      · subst hd
        simp [hasDoubleUnderscore]
      · simp [hasDoubleUnderscore, hd]
  · simp [hasDoubleUnderscore, hc]

theorem getLast?_cons_ne : (c :: cs).getLast? ≠ some '_' ↔
    (c = '_' → cs ≠ []) ∧ cs.getLast? ≠ some '_' := by
  cases cs with
  | nil => simp
  | cons d cs => simp

theorem accepts_boundary_iff_head :
    Accepts .boundary cs ↔ (∃ c ∈ cs.head?, IsGroupChar c) ∧ Accepts .inside cs := by
  cases cs with
  | nil => exact iff_of_false not_accepts_boundary_nil fun ⟨⟨c, hc, _⟩, _⟩ => nomatch hc
  | cons c cs =>
    rw [accepts_boundary_cons, accepts_inside_cons]
    constructor
    · rintro ⟨hc, hcs⟩
      exact ⟨⟨c, rfl, hc⟩, .inl ⟨hc, hcs⟩⟩
    · rintro ⟨⟨_, ⟨⟩, hc⟩, ⟨-, hcs⟩ | ⟨hunder, -⟩⟩
      · exact ⟨hc, hcs⟩
      · exact absurd hunder hc.ne_underscore

theorem exists_head?_isGroupChar (h : ∀ c ∈ cs, isCodeChar c = true) :
    (∃ c ∈ cs.head?, IsGroupChar c) ↔ cs ≠ [] ∧ cs.head? ≠ some '_' := by
  cases cs with
  | nil => simp
  | cons c cs =>
    have hc := isCodeChar_iff.1 (h c (.head cs))
    constructor
    · rintro ⟨_, ⟨⟩, hgroup⟩
      exact ⟨List.cons_ne_nil c cs, fun hhead => hgroup.ne_underscore (Option.some.inj hhead)⟩
    · rintro ⟨-, hne⟩
      exact ⟨c, rfl, hc.resolve_right fun hunder => hne (congrArg some hunder)⟩

/-- The conditions of the check but those on the first character. -/
def Joined (cs : List Char) : Prop :=
  cs.getLast? ≠ some '_' ∧ hasDoubleUnderscore cs = false ∧ ∀ c ∈ cs, isCodeChar c = true

theorem joined_cons : Joined (c :: cs) ↔
    Joined cs ∧ (IsGroupChar c ∨ (c = '_' ∧ ∃ d ∈ cs.head?, IsGroupChar d)) := by
  simp only [Joined, getLast?_cons_ne, hasDoubleUnderscore_cons, List.forall_mem_cons]
  constructor
  · rintro ⟨⟨hne, hlast⟩, ⟨hhead, hdouble⟩, hc, hcs⟩
    refine ⟨⟨hlast, hdouble, hcs⟩, (isCodeChar_iff.1 hc).imp_right fun hunder => ⟨hunder, ?_⟩⟩
    exact (exists_head?_isGroupChar hcs).2 ⟨hne hunder, hhead hunder⟩
  · rintro ⟨⟨hlast, hdouble, hcs⟩, hc⟩
    have hnext : c = '_' → cs ≠ [] ∧ cs.head? ≠ some '_' := fun hunder =>
      (exists_head?_isGroupChar hcs).1 (hc.resolve_left fun hgroup => hgroup.ne_underscore hunder).2
    exact ⟨⟨fun hunder => (hnext hunder).1, hlast⟩, ⟨fun hunder => (hnext hunder).2, hdouble⟩,
      isCodeChar_iff.2 (hc.imp_right And.left), hcs⟩

theorem accepts_inside_iff : Accepts .inside cs ↔ Joined cs := by
  induction cs with
  | nil => exact iff_of_true accepts_inside_nil ⟨nofun, rfl, nofun⟩
  | cons c cs ih =>
    rw [accepts_inside_cons, accepts_boundary_iff_head, ih, joined_cons]
    tauto

theorem isUpperSnake_iff_accepts : isUpperSnake cs = true ↔ Accepts .boundary cs := by
  rw [accepts_boundary_iff_head, accepts_inside_iff]
  have hconditions : isUpperSnake cs = true ↔ (cs ≠ [] ∧ cs.head? ≠ some '_') ∧ Joined cs := by
    simp [isUpperSnake, Joined, and_assoc]
  rw [hconditions]
  refine and_congr_left fun hjoined => ?_
  exact (exists_head?_isGroupChar hjoined.2.2).symm

theorem isUpperSnake_iff : isUpperSnake cs = true ↔ UpperSnake cs :=
  isUpperSnake_iff_accepts.trans accepts_boundary_iff

instance : DecidablePred UpperSnake := fun _ => decidable_of_iff _ isUpperSnake_iff

theorem isRegular_upperSnake : Language.IsRegular {cs | isUpperSnake cs = true} := by
  refine ⟨Place, inferInstance, reader, ?_⟩
  ext cs
  exact isUpperSnake_iff_accepts.symm

/-! ### The first rule that is broken -/

/-- What is told of a code that does not belong to the family, or breaks the convention. -/
inductive FirstBroken (family code : String) : String → Prop
  | empty (h : code = "") : FirstBroken family code "Error code must not be empty"
  | family (hne : code ≠ "") (h : ¬family.toList <+: code.toList) :
    FirstBroken family code s!"Error code '{code}' must start with prefix '{family}'"
  | format (hne : code ≠ "") (hfamily : family.toList <+: code.toList) (h : ¬UpperSnake code.toList) :
    FirstBroken family code s!"Error code '{code}' must be UPPER_SNAKE_CASE"

theorem violation?_eq (family code : String) : violation? family code =
    if code = "" then some .empty
    else if family.toList <+: code.toList then
      if UpperSnake code.toList then none else some (.notUpperSnake code)
    else some (.wrongFamily code family) := by
  have hempty : code.toList.isEmpty = true ↔ code = "" := by
    rw [List.isEmpty_iff, String.toList_eq_nil_iff]
  simp only [violation?, hempty, Bool.not_eq_true', ← Bool.not_eq_true, List.isPrefixOf_iff_prefix,
    isUpperSnake_iff, ite_not]

theorem not_upperSnake_nil : ¬UpperSnake [] := by
  rw [← isUpperSnake_iff]
  decide

theorem violation?_eq_none_iff {family code : String} :
    violation? family code = none ↔ UpperSnake code.toList ∧ family.toList <+: code.toList := by
  rw [violation?_eq]
  split_ifs with hempty hfamily hformat
  · subst hempty
    exact iff_of_false nofun fun h => not_upperSnake_nil h.1
  · exact iff_of_true rfl ⟨hformat, hfamily⟩
  · exact iff_of_false nofun fun h => hformat h.1
  · exact iff_of_false nofun fun h => hfamily h.2

theorem violation?_message_iff {family code message : String} :
    (violation? family code).map Violation.message = some message ↔ FirstBroken family code message := by
  rw [violation?_eq]
  constructor
  · intro h
    split_ifs at h with hempty hfamily hformat
    · obtain rfl := Option.some.inj h
      exact .empty hempty
    · cases h
    · obtain rfl := Option.some.inj h
      exact .format hempty hfamily hformat
    · obtain rfl := Option.some.inj h
      exact .family hempty hfamily
  · intro h
    cases h with
    | empty hempty =>
      rw [if_pos hempty]
      rfl
    | family hempty hfamily =>
      rw [if_neg hempty, if_neg hfamily]
      rfl
    | format hempty hfamily hformat =>
      rw [if_neg hempty, if_pos hfamily, if_neg hformat]
      rfl

/-- The codes that keep the convention are a regular language, that of groups joined by underscores. A
code is found sound exactly if it is one of them and belongs to the family, and of any other code the
first rule that it breaks is told. -/
theorem upperSnake_convention :
    Language.IsRegular {cs | isUpperSnake cs = true} ∧ ∀ family code : String,
      (isUpperSnake code.toList = true ↔ UpperSnake code.toList) ∧
      (violation? family code = none ↔ UpperSnake code.toList ∧ family.toList <+: code.toList) ∧
      ∀ message, (violation? family code).map Violation.message = some message ↔
        FirstBroken family code message := by
  refine ⟨isRegular_upperSnake, fun family code => ⟨isUpperSnake_iff, ?_, fun message => ?_⟩⟩
  · exact violation?_eq_none_iff
  · exact violation?_message_iff

example : FirstBroken "OVEN_" "KITCHEN__closed"
    "Error code 'KITCHEN__closed' must start with prefix 'OVEN_'" :=
  .family (by decide) (by decide)

/-- All errors of a type have codes of the family that keep the convention. -/
def Keeps (ε : Type) [Coded ε] (family : String) : Prop :=
  ∀ e : ε, violation? family (Coded.code e) = none

theorem errors_keep_convention : Keeps ConstructionError "CONSTRUCTION_" ∧
    Keeps InterpreterFailure "INTERPRETER_" ∧ Keeps UnboundAlgebra "BINDING_" ∧
    Keeps FailureCause "EXECUTION_" ∧ Keeps ExecutionError "EXECUTION_" ∧ Keeps ConfigError "CONFIG_" := by
  have hcause : Keeps FailureCause "EXECUTION_" := by
    intro cause
    cases cause <;> simp only [Coded.code, FailureCause.code] <;> decide
  refine ⟨fun e => ?_, fun e => ?_, fun _ => ?_, hcause, fun e => hcause e.cause, fun e => ?_⟩
  · cases e <;> simp only [Coded.code, ConstructionError.code] <;> decide
  · cases e <;> simp only [Coded.code, InterpreterFailure.code] <;> decide
  · simp only [Coded.code]
    decide
  · cases e <;> simp only [Coded.code, ConfigError.code] <;> decide

end Brigade.ErrorCode
