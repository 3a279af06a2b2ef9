import Brigade.Engine.Basic

/-! What a step can do: it is refused before the observers hear of it, or it is dispatched and its plan
decides. Later modules use these statements and leave `Engine.step` closed. -/

namespace Brigade

variable {L : Type} [Hierarchy L] [DecidableEq L] {σ : Type}

@[simp] theorem EngineSettings.exhausted_zero (s : EngineSettings) : s.exhausted 0 = false := by
  rw [exhausted, Bool.and_eq_false_iff, decide_eq_false_iff_not, decide_eq_false_iff_not]
  omega

def FailureCause.refuses : FailureCause → Bool
  | .cancelled | .stepLimit _ | .unbound _ => true
  | .interpreter _ | .child _ _ | .tooDeep _ => false

namespace Engine

/-- An engine with the standard settings and no policies, which nothing cancels. -/
def plain {σ : Type} : Engine σ := ⟨{}, .empty, fun _ => false⟩

theorem plain_maxDepth : (plain : Engine σ).settings.maxDepth.toNat = 16 := rfl

/-- What is looked at before the command with number `index` of a level is dispatched: the interpreter
that is to carry it out, or the cause for which it is refused. -/
def permit (e : Engine σ) (registry : Registry L σ) (l : L) (selector : Option String) (index : Nat)
    (state : σ) : Except FailureCause (Interpreter σ (algebra l)) :=
  if e.cancelled state then .error .cancelled
  else if e.settings.exhausted index then .error (.stepLimit e.settings.maxSteps.toNat)
  else match registry.resolve l selector with
    | .error unbound => .error (.unbound unbound)
    | .ok i => .ok i

variable {e : Engine σ} {registry : Registry L σ} {l : L} {selector : Option String} {index : Nat}
  {state : σ}

theorem permit_eq_ok {i : Interpreter σ (algebra l)}
    (h : e.permit registry l selector index state = .ok i) :
    e.cancelled state = false ∧ e.settings.exhausted index = false ∧
      registry.resolve l selector = .ok i := by
  simp only [permit] at h
  split at h
  · cases h
  · next hcancelled =>
    split at h
    · cases h
    · next hexhausted =>
      split at h
      · cases h
      · next hresolve =>
        cases h
        exact ⟨by simpa using hcancelled, by simpa using hexhausted, hresolve⟩

/-- The cause of a refusal, and that it is the first of the checks that fail. -/
theorem permit_eq_error {cause : FailureCause}
    (h : e.permit registry l selector index state = .error cause) :
    (cause = .cancelled ∧ e.cancelled state = true) ∨
      (cause = .stepLimit e.settings.maxSteps.toNat ∧ e.settings.exhausted index = true) ∨
      ∃ unbound, cause = .unbound unbound ∧ registry.resolve l selector = .error unbound := by
  simp only [permit] at h
  split at h
  · next hcancelled =>
    cases h
    exact .inl ⟨rfl, hcancelled⟩
  · split at h
    · next hexhausted =>
      cases h
      exact .inr (.inl ⟨rfl, hexhausted⟩)
    · split at h
      · next unbound hresolve =>
        cases h
        exact .inr (.inr ⟨unbound, rfl, hresolve⟩)
      · cases h

theorem permit_of_cancelled (h : e.cancelled state = true) :
    e.permit registry l selector index state = .error .cancelled := if_pos h

theorem permit_of_exhausted (hcancelled : e.cancelled state = false)
    (hexhausted : e.settings.exhausted index = true) :
    e.permit registry l selector index state = .error (.stepLimit e.settings.maxSteps.toNat) := by
  simp [permit, hcancelled, hexhausted]

theorem permit_of_resolve (hcancelled : e.cancelled state = false)
    (hexhausted : e.settings.exhausted index = false) {i : Interpreter σ (algebra l)}
    (hresolve : registry.resolve l selector = .ok i) :
    e.permit registry l selector index state = .ok i := by
  simp [permit, hcancelled, hexhausted, hresolve]

theorem refuses_of_permit {cause : FailureCause}
    (h : e.permit registry l selector index state = .error cause) : cause.refuses = true := by
  rcases permit_eq_error h with ⟨rfl, _⟩ | ⟨rfl, _⟩ | ⟨unbound, rfl, _⟩ <;> rfl

/-- A step is refused and leaves all as it is, or is dispatched and does what its plan does. -/
theorem step_eq (e : Engine σ) (registry : Registry L σ) (children : ChildRunner L σ) (depth : Nat)
    (l : L) (selector : Option String) (index : Nat) (c : (algebra l).Command) (s : Progress σ) :
    e.step registry children depth l selector index c s =
      let frame : StepFrame := ⟨depth, index, (algebra l).describe c⟩
      match e.permit registry l selector index s.state with
      | .error cause => (.error ⟨frame, cause⟩, s)
      | .ok i =>
        let r := (Hierarchy.plan l c frame).run i children e.policyFor (s.record (.dispatched frame))
        (r.1.mapError (.mk frame), r.2) := by
  simp only [step, permit]
  split
  · rfl
  · split
    · rfl
    · cases registry.resolve l selector with
      | error unbound => rfl
      | ok i =>
        dsimp only
        generalize Plan.run i children e.policyFor _ _ = r
        rcases r with ⟨cause | v, t⟩ <;> rfl

theorem step_of_permit {children : ChildRunner L σ} {depth : Nat} {c : (algebra l).Command}
    {s : Progress σ} {i : Interpreter σ (algebra l)}
    (h : e.permit registry l selector index s.state = .ok i) :
    e.step registry children depth l selector index c s =
      let frame : StepFrame := ⟨depth, index, (algebra l).describe c⟩
      let r := (Hierarchy.plan l c frame).run i children e.policyFor (s.record (.dispatched frame))
      (r.1.mapError (.mk frame), r.2) := by
  rw [step_eq, h]

theorem step_of_refused {children : ChildRunner L σ} {depth : Nat} {c : (algebra l).Command}
    {s : Progress σ} {cause : FailureCause}
    (h : e.permit registry l selector index s.state = .error cause) :
    e.step registry children depth l selector index c s =
      (.error ⟨⟨depth, index, (algebra l).describe c⟩, cause⟩, s) := by
  rw [step_eq, h]

theorem step_eq_ok {children : ChildRunner L σ} {depth : Nat} {c : (algebra l).Command}
    {s t : Progress σ} {v : (algebra l).Answer c}
    (h : e.step registry children depth l selector index c s = (.ok v, t)) :
    ∃ i, e.permit registry l selector index s.state = .ok i ∧
      (Hierarchy.plan l c ⟨depth, index, (algebra l).describe c⟩).run i children e.policyFor
        (s.record (.dispatched ⟨depth, index, (algebra l).describe c⟩)) = (.ok v, t) := by
  rw [step_eq] at h
  cases hpermit : e.permit registry l selector index s.state with
  | error cause => simp [hpermit] at h
  | ok i =>
    refine ⟨i, rfl, ?_⟩
    simp only [hpermit] at h
    generalize Plan.run i children e.policyFor _ _ = r at h ⊢
    rcases r with ⟨cause | w, u⟩ <;> cases h
    rfl

theorem step_eq_error {children : ChildRunner L σ} {depth : Nat} {c : (algebra l).Command}
    {s t : Progress σ} {error : ExecutionError}
    (h : e.step registry children depth l selector index c s = (.error error, t)) :
    error.frame = ⟨depth, index, (algebra l).describe c⟩ ∧
      ((e.permit registry l selector index s.state = .error error.cause ∧ t = s) ∨
        ∃ i, e.permit registry l selector index s.state = .ok i ∧
          (Hierarchy.plan l c error.frame).run i children e.policyFor
            (s.record (.dispatched error.frame)) = (.error error.cause, t)) := by
  rw [step_eq] at h
  cases hpermit : e.permit registry l selector index s.state with
  | error cause =>
    simp only [hpermit] at h
    cases h
    exact ⟨rfl, .inl ⟨rfl, rfl⟩⟩
  | ok i =>
    simp only [hpermit] at h
    generalize hrun : Plan.run i children e.policyFor _ _ = r at h
    rcases r with ⟨cause | w, u⟩ <;> cases h
    exact ⟨rfl, .inr ⟨i, rfl, hrun⟩⟩

end Engine

end Brigade
