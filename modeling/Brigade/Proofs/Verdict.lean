import Brigade.Engine.Basic

/-! What one attempt of a supervised child comes to: another attempt, or the verdict on the
supervision. The loop of attempts is put in these terms. -/

namespace Brigade

namespace FailureCause

@[simp] theorem recoverable_root (cause : FailureCause) :
    cause.root.recoverable = cause.recoverable := by
  induction cause with
  | child frame cause ih => simpa [root, recoverable] using ih
  | _ => rfl

theorem not_recoverable_of_root_cancelled {cause : FailureCause} (h : cause.root = .cancelled) :
    cause.recoverable = false := by
  rw [← recoverable_root, h]
  rfl

theorem not_recoverable_of_root_tooDeep {cause : FailureCause} {limit : Nat}
    (h : cause.root = .tooDeep limit) : cause.recoverable = false := by
  rw [← recoverable_root, h]
  rfl

end FailureCause

@[simp] theorem ExecutionError.isCancelled_iff (error : ExecutionError) :
    error.isCancelled = true ↔ error.cause.root = .cancelled := by
  simp [isCancelled, ExecutionError.root]

theorem ExecutionError.not_isCancelled_iff (error : ExecutionError) :
    error.isCancelled = false ↔ error.cause.root ≠ .cancelled := by
  rw [Ne, ← error.isCancelled_iff, Bool.not_eq_true]

theorem ExecutionError.not_isCancelled_of_root_tooDeep (error : ExecutionError) {limit : Nat}
    (h : error.asChild.root = .tooDeep limit) : error.isCancelled = false := by
  have hroot : error.cause.root = .tooDeep limit := h
  rw [not_isCancelled_iff, hroot]
  simp

variable {σ β : Type}

/-- Whether an attempt asks for another one: it failed as a child, and trying again may succeed. -/
def again : Except FailureCause β → Bool
  | .error (.child _ cause) => cause.recoverable
  | _ => false

/-- What the last attempt makes of the supervision. -/
def verdict (recovers : Bool) : Except FailureCause β → Except FailureCause (ChildOutcome β)
  | .ok v => .ok (.completed v)
  | .error (.child frame cause) =>
    if recovers = true ∧ cause.root ≠ .cancelled then .ok (.recovered ⟨frame, cause⟩)
    else .error (.child frame cause)
  | .error cause => .error cause

theorem verdict_eq_completed_iff {recovers : Bool} {r : Except FailureCause β} {v : β} :
    verdict recovers r = .ok (.completed v) ↔ r = .ok v := by
  rcases r with cause | w
  · cases cause with
    | child frame cause =>
      simp only [verdict]
      split <;> simp
    | _ => simp [verdict]
  · simp [verdict]

theorem verdict_eq_recovered_iff {recovers : Bool} {r : Except FailureCause β}
    {error : ExecutionError} : verdict recovers r = .ok (.recovered error) ↔
      recovers = true ∧ r = .error error.asChild ∧ error.isCancelled = false := by
  rw [ExecutionError.not_isCancelled_iff]
  rcases r with cause | w
  · cases cause with
    | child frame cause =>
      simp only [verdict]
      constructor
      · intro h
        split at h
        · next hr =>
          cases h
          exact ⟨hr.1, rfl, hr.2⟩
        · cases h
      · rintro ⟨hr, h, hc⟩
        cases h
        exact if_pos ⟨hr, hc⟩
    | _ => simp [verdict, ExecutionError.asChild]
  · simp [verdict]

theorem verdict_eq_error_iff {recovers : Bool} {r : Except FailureCause β} {cause : FailureCause} :
    verdict recovers r = .error cause ↔ r = .error cause ∧ ¬ (recovers = true ∧
      ∃ error : ExecutionError, cause = error.asChild ∧ error.isCancelled = false) := by
  simp only [ExecutionError.not_isCancelled_iff]
  rcases r with cause' | w
  · cases cause' with
    | child frame cause' =>
      simp only [verdict]
      constructor
      · intro h
        split at h
        · cases h
        · next hr =>
          cases h
          refine ⟨rfl, ?_⟩
          rintro ⟨hrecovers, error, h, hc⟩
          cases h
          exact hr ⟨hrecovers, hc⟩
      · rintro ⟨h, hr⟩
        cases h
        exact if_neg fun h => hr ⟨h.1, ⟨frame, cause'⟩, rfl, h.2⟩
    | _ =>
      simp only [verdict, ExecutionError.asChild]
      constructor
      · intro h
        cases h
        simp
      · rintro ⟨h, -⟩
        cases h
        rfl
  · simp [verdict]

theorem verdict_false (r : Except FailureCause β) : verdict false r = r.map .completed := by
  rcases r with cause | v
  · cases cause <;> rfl
  · rfl

/-- Taken for a result, the outcome of a supervision is what its last attempt gave. -/
theorem verdict_result (recovers : Bool) (r : Except FailureCause β) :
    (verdict recovers r).bind ChildOutcome.result = r := by
  rcases r with cause | v
  · cases cause with
    | child frame cause =>
      simp only [verdict]
      split <;> rfl
    | _ => rfl
  · rfl

theorem superviseFrom_last {child : Run σ FailureCause β} {recovers : Bool} {retries : Nat}
    {s : Progress σ} (h : again (child s).1 = false ∨ retries = 0) :
    superviseFrom child recovers retries s = (verdict recovers (child s).1, (child s).2) := by
  rw [superviseFrom]
  generalize child s = r at h ⊢
  rcases r with ⟨cause | v, t⟩
  · cases cause with
    | child frame cause =>
      have hn : (cause.recoverable && decide (0 < retries)) = false := by
        rcases h with h | h
        · rw [show cause.recoverable = false from h, Bool.false_and]
        · simp [h]
      by_cases hc : cause.root = .cancelled
      · simp [verdict, hc, ExecutionError.asChild]
      · cases recovers <;> simp [verdict, hc, hn, ExecutionError.asChild]
    | _ => rfl
  · rfl

theorem superviseFrom_again {child : Run σ FailureCause β} {recovers : Bool} {retries : Nat}
    {s : Progress σ} (h : again (child s).1 = true) :
    superviseFrom child recovers (retries + 1) s = superviseFrom child recovers retries (child s).2 := by
  rw [superviseFrom]
  generalize child s = r at h ⊢
  rcases r with ⟨cause | v, t⟩
  · cases cause with
    | child frame cause =>
      have hr : cause.recoverable = true := h
      have hc : cause.root ≠ .cancelled := fun hc => by
        rw [FailureCause.not_recoverable_of_root_cancelled hc] at hr
        cases hr
      simp [hr, hc]
    | _ => cases h
  · cases h

end Brigade
