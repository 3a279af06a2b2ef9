import Brigade.Language.Plans
import Brigade.Proofs.History

/-! Lawful hierarchies: their plans make up no failures. A plan fails with what an interpreter or a
child fails with, or with the failure of a child that was recovered and handed to it; so whatever holds
of the failures of interpreters and children holds of the failures of steps. -/

namespace Brigade

variable {L : Type} [Hierarchy L] {σ α : Type}

/-- The plan fails of itself only with a failure that it was told of, or is told of when a child that
it supervises is recovered. -/
def Plan.Forwards {l : L} {α : Type} :
    Plan (algebra (L := L)) l α → (ExecutionError → Prop) → Prop
  | .answer _, _ => True
  | .fail cause, told => ∃ error, told error ∧ cause = error.asChild
  | .call _ next, told => ∀ reply, (next reply).Forwards told
  | .child _ _ _ next, told => ∀ v, (next v).Forwards told
  | .join _ _ _ _ next, told => ∀ v w, (next v w).Forwards told
  | .supervise _ _ _ next, told => (∀ v, (next (.completed v)).Forwards told) ∧
    ∀ error, (next (.recovered error)).Forwards fun other => other = error ∨ told other

/-- A command fails as its interpreter or a child program does; none makes up a failure. -/
class LawfulHierarchy (L : Type) [Hierarchy L] : Prop where
  forwards : ∀ (l : L) (c : (algebra l).Command) (frame : StepFrame),
    (Hierarchy.plan l c frame).Forwards fun _ => False

namespace Language

theorem relay_forwards (c : RelayCommand) (frame : StepFrame) :
    (RelayCommand.plan c frame).Forwards fun _ => False := by
  obtain ⟨env, leaf⟩ := c
  cases leaf <;> simp [RelayCommand.plan, Plan.Forwards, RelayCommand.settle, ChildOutcome.result]

theorem cooking_forwards (c : CookingCommand) :
    (CookingCommand.plan c).Forwards fun _ => False := by
  cases c with
  | makeRandomMeal =>
    intro choice
    cases choice <;> exact ⟨fun _ => trivial, fun _ => trivial⟩
  | _ => simp [CookingCommand.plan, Plan.Forwards]

instance : LawfulHierarchy Language where
  forwards
    | .probe, .emit value, frame => fun _ => trivial
    | .relay, c, frame => relay_forwards c frame
    | .sandwich, c, frame => by cases c <;> exact fun _ => trivial
    | .pizza, c, frame => by cases c <;> exact fun _ => trivial
    | .cooking, c, frame => cooking_forwards c

end Language

/-- A property of a failure, the acts up to it and the progress it leaves, that steps pass on from
their interpreters and children. -/
structure Heritable (children : ChildRunner L σ) (histories : ChildHistory L σ)
    (P : FailureCause → History L σ → Progress σ → Prop) : Prop where
  interpreter : ∀ failure acts t, P (.interpreter failure) acts t
  child : ∀ {l : L} {selector : Option String} {β : Type} {p : Program (algebra l) β}
    {s t : Progress σ} {cause : FailureCause}, children l selector p s = (.error cause, t) →
      P cause (histories l selector p s) t
  /-- What was done before does not matter. -/
  prepend : ∀ {cause acts t} before, P cause acts t → P cause (before ++ acts) t
  /-- Nor does what another child does afterwards. -/
  beside : ∀ {cause acts t} {l : L} (selector : Option String) {β : Type}
    (p : Program (algebra l) β) later, P cause acts t →
      P cause (acts ++ later) (children l selector p t).2
  /-- A failure that was recovered may come up again at any time. -/
  told : ∀ {error : ExecutionError} {acts t}, P error.asChild acts t → error.isCancelled = false →
    ∀ acts t, P error.asChild acts t

namespace Heritable

variable {children : ChildRunner L σ} {histories : ChildHistory L σ}
  {P : FailureCause → History L σ → Progress σ → Prop} {l : L} {selector : Option String} {β : Type}
  {p : Program (algebra l) β} {recovers : Bool} {retries : Nat} {s t : Progress σ}

theorem supervise_error (hP : Heritable children histories P) {cause : FailureCause}
    (h : superviseFrom (children l selector p) recovers retries s = (.error cause, t)) :
    P cause (superviseHistory (children l selector p) (histories l selector p) retries s) t := by
  obtain ⟨u, before, hrun, hhistory⟩ := superviseFrom_eq_verdict (children l selector p)
    (histories l selector p) recovers retries s
  rw [hrun] at h
  obtain ⟨hverdict, rfl⟩ := Prod.mk.inj h
  rw [hhistory]
  exact hP.prepend before (hP.child (Prod.ext (verdict_eq_error_iff.1 hverdict).1 rfl))

theorem supervise_recovered (hP : Heritable children histories P) {error : ExecutionError}
    (h : superviseFrom (children l selector p) recovers retries s = (.ok (.recovered error), t)) :
    ∀ acts t, P error.asChild acts t := by
  obtain ⟨u, -, hrun, -⟩ := superviseFrom_eq_verdict (children l selector p) (histories l selector p)
    recovers retries s
  rw [hrun] at h
  obtain ⟨-, hchild, hcancelled⟩ := verdict_eq_recovered_iff.1 (Prod.mk.inj h).1
  exact hP.told (hP.child (Prod.ext hchild rfl)) hcancelled

end Heritable

theorem Plan.run_error {children : ChildRunner L σ} {histories : ChildHistory L σ}
    {P : FailureCause → History L σ → Progress σ → Prop} (hP : Heritable children histories P)
    {l : L} (selector : Option String) (i : Interpreter σ (algebra l))
    (policyFor : String → FailurePolicy) {plan : Plan (algebra (L := L)) l α}
    {told : ExecutionError → Prop} (hplan : plan.Forwards told)
    (htold : ∀ error, told error → ∀ acts t, P error.asChild acts t) {s t : Progress σ}
    {cause : FailureCause} (h : plan.run i children policyFor s = (.error cause, t)) :
    P cause (plan.history selector i children histories policyFor s) t := by
  induction plan generalizing told s t with
  | answer v => cases h
  | fail cause =>
    obtain ⟨error, herror, rfl⟩ := hplan
    cases h
    exact htold error herror [] s
  | call m next ih =>
    simp only [Plan.run] at h
    simp only [Plan.history]
    refine hP.prepend [_] ?_
    rcases hreply : i m s.state with ⟨failure | reply, state⟩ <;> rw [hreply] at h
    · cases h
      exact hP.interpreter failure [] _
    · exact ih reply (hplan reply) htold h
  | child l' selector' p next ih =>
    simp only [Plan.run] at h
    simp only [Plan.history]
    rcases hrun : children l' selector' p s with ⟨failure | v, u⟩ <;> rw [hrun] at h
    · cases h
      rw [List.append_nil]
      exact hP.child hrun
    · exact hP.prepend _ (ih v (hplan v) htold h)
  | join l₁ p₁ l₂ p₂ next ih =>
    simp only [Plan.run] at h
    simp only [Plan.history]
    rcases hleft : children l₁ none p₁ s with ⟨failure | v, u⟩ <;> rw [hleft] at h <;> dsimp only at h ⊢
    · -- The right child runs although the left one has failed.
      have hright := hP.beside none p₂ (histories l₂ none p₂ u ++ []) (hP.child hleft)
      rcases hrun : children l₂ none p₂ u with ⟨right, w⟩
      rw [hrun] at h hright
      cases h
      exact hright
    · refine hP.prepend _ ?_
      rcases hright : children l₂ none p₂ u with ⟨failure | w, x⟩ <;> rw [hright] at h
      · cases h
        rw [List.append_nil]
        exact hP.child hright
      · exact hP.prepend _ (ih v w (hplan v w) htold h)
  | supervise l' selector' p next ih =>
    simp only [Plan.run, FailurePolicy.supervise] at h
    simp only [Plan.history, FailurePolicy.supervise]
    rcases hrun : superviseFrom _ _ _ s with ⟨failure | outcome, u⟩ <;> rw [hrun] at h
    · cases h
      rw [List.append_nil]
      exact hP.supervise_error hrun
    · refine hP.prepend _ ?_
      cases outcome with
      | completed v => exact ih (.completed v) (hplan.1 v) htold h
      | recovered error =>
        refine ih (.recovered error) (hplan.2 error) ?_ h
        rintro other (rfl | hother)
        · exact hP.supervise_recovered hrun
        · exact htold other hother

end Brigade
