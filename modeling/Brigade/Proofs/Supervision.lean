import Brigade.Language.Plans
import Brigade.Proofs.Outcome
import Mathlib.Order.Bounds.Basic

/-! Supervised children. A supervision is compared with the runs of its child again and again, each
from the state that the run before left: which of them take place, and what the last one makes of the
supervision. -/

namespace Brigade

variable {σ β : Type}

namespace FailurePolicy

theorem recovers_iff (policy : FailurePolicy) : policy.recovers = true ↔ policy = .recover := by
  cases policy <;> simp [recovers]

theorem maxAttempts_pos (policy : FailurePolicy) : 0 < policy.maxAttempts := by
  cases policy <;> simp [maxAttempts]

end FailurePolicy

/-- What a child does when it runs again and again, each time from the state that the run before left;
the runs are counted from 0. -/
def attempt (child : Run σ FailureCause β) (s : σ) : Nat → Outcome σ FailureCause β
  | 0 => child.outcome s
  | n + 1 => child.outcome (attempt child s n).state

theorem attempt_succ (child : Run σ FailureCause β) (s : σ) (n : Nat) :
    attempt child s (n + 1) = attempt child (child.outcome s).state n := by
  induction n with
  | zero => rfl
  | succ n ih => rw [attempt, ih, attempt]

theorem exists_attempt_eq (child : Run σ FailureCause β) (s : σ) (n : Nat) :
    ∃ before, attempt child s n = child.outcome before := by
  cases n with
  | zero => exact ⟨s, rfl⟩
  | succ n => exact ⟨(attempt child s n).state, rfl⟩

/-- The events of the first `n` attempts. -/
def attemptEvents (child : Run σ FailureCause β) (s : σ) (n : Nat) : List Event :=
  (List.range n).flatMap fun m => (attempt child s m).events

theorem attemptEvents_succ (child : Run σ FailureCause β) (s : σ) (n : Nat) :
    attemptEvents child s (n + 1) =
      (child.outcome s).events ++ attemptEvents child (child.outcome s).state n := by
  simp only [attemptEvents, List.range_succ_eq_map, List.flatMap_cons, List.flatMap_map, attempt_succ]
  rfl

/-- A result that asks for no further attempt: a value, or a failure that is cancelled or that trying
again does not mend. -/
def Settled : Except FailureCause β → Prop
  | .ok _ => True
  | .error cause => cause.root = .cancelled ∨ cause.recoverable = false

/-- Only a child that was entered fails so that trying again may succeed. -/
def Run.Enters (child : Run σ FailureCause β) : Prop :=
  ∀ s cause, (child s).1 = .error cause → cause.recoverable = true →
    ∃ error : ExecutionError, cause = error.asChild

theorem settled_iff {child : Run σ FailureCause β} (h : child.Enters) (s : Progress σ) :
    Settled (child s).1 ↔ again (child s).1 = false := by
  cases hr : (child s).1 with
  | ok v => simp [Settled, again]
  | error cause =>
    by_cases hc : cause.recoverable = true
    · obtain ⟨error, rfl⟩ := h s cause hr hc
      have hroot : error.asChild.root ≠ .cancelled := fun hroot => by
        rw [FailureCause.not_recoverable_of_root_cancelled hroot] at hc
        cases hc
      have ha : again (.error error.asChild : Except FailureCause β) = true := hc
      simp [Settled, ha, hc, hroot]
    · have ha : again (.error cause : Except FailureCause β) = false := by
        cases cause <;> simp_all [again, FailureCause.recoverable]
      simp [Settled, ha, hc]

theorem eq_of_isLeast_settled {child : Run σ FailureCause β} {s : σ} {limit j n : Nat}
    (hj : IsLeast {n | Settled (attempt child s n).result ∨ n + 1 = limit} j) (hn : n < limit)
    (hbefore : ∀ m < n, ¬ Settled (attempt child s m).result)
    (hsettled : Settled (attempt child s n).result) : j = n := by
  have hle : j ≤ n := hj.2 (.inl hsettled)
  rcases hj.1 with hfirst | hlast
  · by_contra hne
    exact hbefore j (Nat.lt_of_le_of_ne hle hne) hfirst
  · omega

theorem superviseFrom_outcome_last {child : Run σ FailureCause β} {recovers : Bool} {retries : Nat}
    {s : σ} (h : again (child.outcome s).result = false ∨ retries = 0) :
    Run.outcome (superviseFrom child recovers retries) s =
      ⟨verdict recovers (child.outcome s).result, (child.outcome s).state,
        (child.outcome s).events⟩ := by
  rw [Run.outcome, superviseFrom_last (s := ⟨s, []⟩) h]
  rfl

/-- The loop runs the attempts up to the first that is settled or the last that is allowed. -/
theorem superviseFrom_outcome {depth : Nat} {child : Run σ FailureCause β}
    (hc : Run.Confined depth child) (he : child.Enters) (recovers : Bool) (retries : Nat) (s : σ) :
    ∃ j, IsLeast {n | Settled (attempt child s n).result ∨ n = retries} j ∧
      Run.outcome (superviseFrom child recovers retries) s =
        ⟨verdict recovers (attempt child s j).result, (attempt child s j).state,
          attemptEvents child s (j + 1)⟩ := by
  have hone : ∀ s, attemptEvents child s 1 = (child.outcome s).events := fun s => by
    simp [attemptEvents, attempt]
  induction retries generalizing s with
  | zero =>
    refine ⟨0, ⟨.inr rfl, fun _ _ => Nat.zero_le _⟩, ?_⟩
    rw [superviseFrom_outcome_last (.inr rfl), hone]
    rfl
  | succ retries ih =>
    have hsettled : Settled (attempt child s 0).result ↔ again (child.outcome s).result = false :=
      settled_iff he ⟨s, []⟩
    cases h : again (child.outcome s).result with
    | false =>
      refine ⟨0, ⟨.inl (hsettled.2 h), fun _ _ => Nat.zero_le _⟩, ?_⟩
      rw [superviseFrom_outcome_last (.inl h), hone]
      rfl
    | true =>
      obtain ⟨j, ⟨hj, hleast⟩, ho⟩ := ih (child.outcome s).state
      refine ⟨j + 1, ⟨?_, ?_⟩, ?_⟩
      · simpa [attempt_succ] using hj
      · rintro (_ | n) hn
        · simp [hsettled, h] at hn
        · exact Nat.succ_le_succ (hleast (by simpa [attempt_succ] using hn))
      · have hrest := (hc.superviseFrom recovers retries).outcome_of (child ⟨s, []⟩).2
        rw [Run.outcome, superviseFrom_again (s := ⟨s, []⟩) h, hrest]
        change ((superviseFrom child recovers retries).outcome (child.outcome s).state).after _ = _
        rw [ho, attempt_succ, attemptEvents_succ child s (j + 1)]
        rfl

theorem FailurePolicy.supervise_outcome {depth : Nat} {child : Run σ FailureCause β}
    (hc : Run.Confined depth child) (he : child.Enters) (policy : FailurePolicy) (s : σ) :
    ∃ j, IsLeast {n | Settled (attempt child s n).result ∨ n + 1 = policy.maxAttempts} j ∧
      (policy.supervise child).outcome s =
        ⟨verdict policy.recovers (attempt child s j).result, (attempt child s j).state,
          attemptEvents child s (j + 1)⟩ := by
  have hlast : ∀ n, n = policy.maxAttempts - 1 ↔ n + 1 = policy.maxAttempts := fun n => by
    have hpos := policy.maxAttempts_pos
    omega
  have h := superviseFrom_outcome hc he policy.recovers (policy.maxAttempts - 1) s
  simp only [hlast] at h
  exact h

namespace Engine

variable {L : Type} [Hierarchy L] [DecidableEq L]

/-- What a step of the language `l` gets when it supervises a child program. -/
def superviseChild (e : Engine σ) (registry : Registry L σ) (room depth : Nat) {l : L}
    (i : Interpreter σ (algebra l)) (l' : L) (selector : Option String)
    (p : Program (algebra l') β) : Run σ FailureCause (ChildOutcome β) :=
  (Plan.supervise l' selector p .answer : Plan algebra l (ChildOutcome β)).run i
    (e.children registry room depth) e.policyFor

theorem superviseChild_eq (e : Engine σ) (registry : Registry L σ) (room depth : Nat) {l : L}
    (i : Interpreter σ (algebra l)) (l' : L) (selector : Option String)
    (p : Program (algebra l') β) : e.superviseChild registry room depth i l' selector p =
      (e.policyFor (algebra l').name).supervise (e.children registry room depth l' selector p) := by
  funext s
  simp only [superviseChild, Plan.run]
  generalize FailurePolicy.supervise _ _ s = r
  rcases r with ⟨cause | outcome, t⟩ <;> rfl

theorem children_error {e : Engine σ} {registry : Registry L σ} {room depth : Nat} {l : L}
    {selector : Option String} {p : Program (algebra l) β} {s : Progress σ} {cause : FailureCause}
    (h : (e.children registry room depth l selector p s).1 = .error cause) :
    (room = 0 ∧ cause = .tooDeep e.settings.maxDepth.toNat) ∨
      (room ≠ 0 ∧ ∃ error : ExecutionError, cause = error.asChild) := by
  cases room with
  | zero => exact .inl ⟨rfl, (Except.error.inj h).symm⟩
  | succ room =>
    refine .inr ⟨Nat.succ_ne_zero room, ?_⟩
    simp only [children, LevelRunner.children] at h
    split at h
    · cases h
    · next error t _ => exact ⟨error, (Except.error.inj h).symm⟩

theorem children_enters (e : Engine σ) (registry : Registry L σ) (room depth : Nat) (l : L)
    (selector : Option String) (p : Program (algebra l) β) :
    Run.Enters (e.children registry room depth l selector p) := by
  intro s cause h hr
  rcases children_error h with ⟨_, rfl⟩ | ⟨_, herror⟩
  · cases hr
  · exact herror

theorem superviseChild_outcome (e : Engine σ) (registry : Registry L σ) (room depth : Nat) {l : L}
    (i : Interpreter σ (algebra l)) (l' : L) (selector : Option String)
    (p : Program (algebra l') β) (s : σ) :
    let child := e.children registry room depth l' selector p
    let policy := e.policyFor (algebra l').name
    ∃ j, IsLeast {n | Settled (attempt child s n).result ∨ n + 1 = policy.maxAttempts} j ∧
      (e.superviseChild registry room depth i l' selector p).outcome s =
        ⟨verdict policy.recovers (attempt child s j).result, (attempt child s j).state,
          attemptEvents child s (j + 1)⟩ := by
  intro child policy
  rw [superviseChild_eq]
  exact policy.supervise_outcome (e.children_confined registry room depth l' selector p)
    (e.children_enters registry room depth l' selector p) s

/-- A supervision runs its child up to the first attempt that is settled, or the last that the policy
allows, and no further; its value or failure is told by that attempt, and its effects and events are
those of the attempts, in their order. -/
theorem superviseChild_attempts (e : Engine σ) (registry : Registry L σ) (room depth : Nat) {l : L}
    (i : Interpreter σ (algebra l)) (l' : L) (selector : Option String)
    (p : Program (algebra l') β) (s : σ) :
    let child := e.children registry room depth l' selector p
    let policy := e.policyFor (algebra l').name
    let o := (e.superviseChild registry room depth i l' selector p).outcome s
    ∃ j, IsLeast {n | Settled (attempt child s n).result ∨ n + 1 = policy.maxAttempts} j ∧
      (∀ v, o.result = .ok (.completed v) ↔ (attempt child s j).result = .ok v) ∧
      (∀ error, o.result = .ok (.recovered error) ↔ policy = .recover ∧
        (attempt child s j).result = .error error.asChild ∧ error.isCancelled = false) ∧
      (∀ cause, o.result = .error cause ↔ (attempt child s j).result = .error cause ∧
        ¬ (policy = .recover ∧
          ∃ error : ExecutionError, cause = error.asChild ∧ error.isCancelled = false)) ∧
      o.state = (attempt child s j).state ∧ o.events = attemptEvents child s (j + 1) := by
  intro child policy o
  obtain ⟨j, hj, ho⟩ := e.superviseChild_outcome registry room depth i l' selector p s
  refine ⟨j, hj, ?_⟩
  simp only [o, ho, verdict_eq_completed_iff, verdict_eq_recovered_iff, verdict_eq_error_iff,
    FailurePolicy.recovers_iff]
  simp [child, policy]

/-- The nesting bound is never retried. Its failure is that of the supervision exactly if the policy
does not recover or the child itself was refused; else it is recovered. -/
theorem superviseChild_tooDeep (e : Engine σ) (registry : Registry L σ) (room depth : Nat) {l : L}
    (i : Interpreter σ (algebra l)) (l' : L) (selector : Option String)
    (p : Program (algebra l') β) (s : σ) (n : Nat) (cause : FailureCause) (limit : Nat)
    (hn : n < (e.policyFor (algebra l').name).maxAttempts)
    (hbefore : ∀ m < n,
      ¬ Settled (attempt (e.children registry room depth l' selector p) s m).result)
    (hcause : (attempt (e.children registry room depth l' selector p) s n).result = .error cause)
    (hroot : cause.root = .tooDeep limit) :
    let child := e.children registry room depth l' selector p
    let policy := e.policyFor (algebra l').name
    let o := (e.superviseChild registry room depth i l' selector p).outcome s
    o.state = (attempt child s n).state ∧ o.events = attemptEvents child s (n + 1) ∧
      (o.result = .error cause ↔ policy ≠ .recover ∨ room = 0) ∧
      (∀ error, o.result = .ok (.recovered error) ↔ policy = .recover ∧ cause = error.asChild) := by
  intro child policy o
  obtain ⟨j, hj, ho⟩ := e.superviseChild_outcome registry room depth i l' selector p s
  have hsettled : Settled (attempt child s n).result := by
    rw [hcause]
    exact .inr (FailureCause.not_recoverable_of_root_tooDeep hroot)
  obtain rfl : j = n := eq_of_isLeast_settled hj hn hbefore hsettled
  have hcancelled : ∀ error : ExecutionError, cause = error.asChild → error.isCancelled = false := by
    rintro error rfl
    exact error.not_isCancelled_of_root_tooDeep hroot
  have hentered : (∃ error : ExecutionError, cause = error.asChild ∧ error.isCancelled = false) ↔
      room ≠ 0 := by
    obtain ⟨before, hattempt⟩ := exists_attempt_eq child s j
    rcases children_error (hattempt ▸ hcause) with ⟨hroom, rfl⟩ | ⟨hroom, error, rfl⟩
    · simp [hroom, ExecutionError.asChild]
    · exact iff_of_true ⟨error, rfl, hcancelled error rfl⟩ hroom
  refine ⟨by simp [o, ho, child], by simp [o, ho, child], ?_, ?_⟩
  · simp only [o, ho, verdict_eq_error_iff, FailurePolicy.recovers_iff, hentered, hcause, true_and]
    simp only [not_and_or, not_not, policy, ne_eq]
  · intro error
    simp only [o, ho, verdict_eq_recovered_iff, FailurePolicy.recovers_iff, hcause]
    constructor
    · rintro ⟨hrecover, h, -⟩
      exact ⟨hrecover, Except.error.inj h⟩
    · rintro ⟨hrecover, h⟩
      exact ⟨hrecover, congrArg Except.error h, hcancelled error h⟩

def shallow : Engine NoteBook :=
  ⟨{ maxDepth := 1 }, Table.empty.insert "relay" .recover, fun _ => false⟩

def noteTaker : Interpreter NoteBook (algebra Language.relay) := NoteBook.interpreter

def noteTakers : Registry Language NoteBook := ⟨[⟨.relay, none, noteTaker⟩]⟩

def nest : Program (algebra Language.relay) Int64 :=
  RelayScript.program (.leaf (.nest none (.pure (.number 7)))) []

def nestFrame : StepFrame := ⟨1, 0, ⟨⟨"relay"⟩, "Nest", ""⟩⟩

theorem nest_outcome (s : NoteBook) :
    (shallow.children noteTakers 1 0 .relay none nest).outcome s =
      ⟨.error (.child nestFrame (.tooDeep 1)), s, [.dispatched nestFrame]⟩ := by
  simp only [Run.outcome, children, LevelRunner.children, level_eq_levelFrom, levelFrom_eq_run]
  rfl

/-- The nesting bound is hit below a child, and the failure of the child is recovered. -/
theorem superviseChild_recovers_tooDeep :
    let child := shallow.children noteTakers 1 0 .relay none nest
    let o := (shallow.superviseChild noteTakers 1 0 noteTaker .relay none nest).outcome ⟨.empty, []⟩
    (attempt child ⟨.empty, []⟩ 0).result = .error (.child nestFrame (.tooDeep 1)) ∧
      (FailureCause.child nestFrame (.tooDeep 1)).root = .tooDeep 1 ∧
      o.result = .ok (.recovered ⟨nestFrame, .tooDeep 1⟩) := by
  refine ⟨by rw [attempt, nest_outcome], rfl, ?_⟩
  rw [superviseChild_eq, FailurePolicy.supervise, superviseFrom_outcome_last, nest_outcome]
  · rfl
  · rw [nest_outcome]
    exact .inl rfl

theorem superviseChild_tooDeep_nest :
    let child := shallow.children noteTakers 1 0 .relay none nest
    let o := (shallow.superviseChild noteTakers 1 0 noteTaker .relay none nest).outcome ⟨.empty, []⟩
    (attempt child ⟨.empty, []⟩ 0).result = .error (.child nestFrame (.tooDeep 1)) ∧
      o.result = .ok (.recovered ⟨nestFrame, .tooDeep 1⟩) ∧
      o.events = attemptEvents child ⟨.empty, []⟩ 1 := by
  intro child o
  have hcause : (attempt child ⟨.empty, []⟩ 0).result = .error (.child nestFrame (.tooDeep 1)) := by
    rw [attempt, nest_outcome]
  obtain ⟨_, hevents, _, hrecovered⟩ := superviseChild_tooDeep shallow noteTakers 1 0 noteTaker .relay
    none nest ⟨.empty, []⟩ 0 _ 1 (by decide) (by simp) hcause rfl
  exact ⟨hcause, (hrecovered ⟨nestFrame, .tooDeep 1⟩).2 ⟨by decide, rfl⟩, hevents⟩

end Engine

end Brigade
