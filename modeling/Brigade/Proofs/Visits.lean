import Brigade.Proofs.History

/-! What a run comes to: the commands that a program comes to, each in the state in which it does, and
the levels that a plan runs, each from the progress from which it does. A run depends on what performs
commands, or runs levels, only there; what it notes down is noted there, and what it keeps is kept there. -/

namespace Brigade

/-- A command that a run comes to: how many were performed before it, and the state then. -/
structure Visit (A : Algebra) (σ : Type) : Type 1 where
  index : Nat
  command : A.Command
  state : σ

def Visit.frame {A : Algebra} {σ : Type} (visit : Visit A σ) (depth : Nat) : StepFrame :=
  ⟨depth, visit.index, A.describe visit.command⟩

section

variable {A : Algebra} {σ ε : Type} {α β : Type}

mutual

/-- The run of the program, from a count of commands and a state on, comes to the command. -/
def Program.Visits (perform : Performer A σ ε) (visit : Visit A σ) {α : Type} :
    Program A α → Nat → σ → Prop
  | .done _, _, _ => False
  | .step c bound, index, s => visit = ⟨index, c, s⟩ ∨
    match perform index c s with
    | (.ok v, s) => bound.Visits perform visit v (index + 1) s
    | (.error _, _) => False

/-- The run of the functions, on a value, comes to the command. -/
def Bound.Visits (perform : Performer A σ ε) (visit : Visit A σ) {α β : Type} :
    Bound A α β → α → Nat → σ → Prop
  | .nil, _, _, _ => False
  | .snoc bound f, v, index, s => bound.Visits perform visit v index s ∨
    match Program.runBound perform bound v index s with
    | (.ok (w, index), s) => (f w).Visits perform visit index s
    | (.error _, _) => False

end

namespace Program

mutual

theorem run_congr {perform perform' : Performer A σ ε} {α : Type} : ∀ (p : Program A α) (index : Nat)
    (s : σ), (∀ visit, p.Visits perform visit index s →
      perform' visit.index visit.command visit.state = perform visit.index visit.command visit.state) →
    run perform' p index s = run perform p index s
  | .done v, index, s, _ => by rw [run_done, run_done]
  | .step c bound, index, s, h => by
    simp only [Visits] at h
    have hfirst : perform' index c s = perform index c s := h ⟨index, c, s⟩ (.inl rfl)
    rw [run_step, run_step, hfirst]
    rcases hrun : perform index c s with ⟨e | v, t⟩ <;> simp only [hrun] at h
    · rfl
    · exact runBound_congr bound v (index + 1) t fun visit hvisit => h visit (.inr hvisit)

theorem runBound_congr {perform perform' : Performer A σ ε} {α β : Type} : ∀ (bound : Bound A α β)
    (v : α) (index : Nat) (s : σ), (∀ visit, bound.Visits perform visit v index s →
      perform' visit.index visit.command visit.state = perform visit.index visit.command visit.state) →
    runBound perform' bound v index s = runBound perform bound v index s
  | .nil, v, index, s, _ => by rw [runBound_nil, runBound_nil]
  | .snoc bound f, v, index, s, h => by
    simp only [Bound.Visits] at h
    have hbound := runBound_congr bound v index s fun visit hvisit => h visit (.inl hvisit)
    rw [runBound_snoc, runBound_snoc, hbound]
    rcases hrun : runBound perform bound v index s with ⟨e | ⟨w, count⟩, t⟩ <;>
      simp only [hrun] at h
    · rfl
    · exact run_congr (f w) count t fun visit hvisit => h visit (.inr hvisit)

end

mutual

theorem only_of_visits {perform : Performer A σ ε} {P : A.Command → Prop} {visit : Visit A σ}
    {α : Type} : ∀ (p : Program A α) (index : Nat) (s : σ), p.Only P →
      p.Visits perform visit index s → P visit.command
  | .done v, index, s, _, h => by cases h
  | .step c bound, index, s, hp, h => by
    simp only [Only] at hp
    simp only [Visits] at h
    rcases h with rfl | h
    · exact hp.1
    · rcases hrun : perform index c s with ⟨e | v, t⟩ <;> simp only [hrun] at h
      exact only_of_bound_visits bound v (index + 1) t hp.2 h

theorem only_of_bound_visits {perform : Performer A σ ε} {P : A.Command → Prop} {visit : Visit A σ}
    {α β : Type} : ∀ (bound : Bound A α β) (v : α) (index : Nat) (s : σ), bound.Only P →
      bound.Visits perform visit v index s → P visit.command
  | .nil, v, index, s, _, h => by cases h
  | .snoc bound f, v, index, s, hb, h => by
    simp only [Bound.Only] at hb
    simp only [Bound.Visits] at h
    rcases h with h | h
    · exact only_of_bound_visits bound v index s hb.1 h
    · rcases hrun : runBound perform bound v index s with ⟨e | ⟨w, count⟩, t⟩ <;>
        simp only [hrun] at h
      exact only_of_visits (f w) count t (hb.2 w) h

end

section

variable {perform : Performer A σ ε} {I : Nat → σ → Prop} {E : ε → σ → Prop}

mutual

/-- What the commands that a run comes to keep, counting one more, the run keeps, and it holds at each of
them. -/
theorem keeps_of_visits {α : Type} : ∀ (p : Program A α) (index : Nat) (s : σ), I index s →
    (∀ visit v t, p.Visits perform visit index s → I visit.index visit.state →
      perform visit.index visit.command visit.state = (.ok v, t) → I (visit.index + 1) t) →
    (∀ visit e t, p.Visits perform visit index s → I visit.index visit.state →
      perform visit.index visit.command visit.state = (.error e, t) → E e t) →
    Holds I E (run perform p index s) ∧
      ∀ visit, p.Visits perform visit index s → I visit.index visit.state
  | .done v, index, s, hs, _, _ => by
    rw [run_done]
    exact ⟨hs, fun _ h => h.elim⟩
  | .step c bound, index, s, hs, hok, herror => by
    simp only [Visits] at hok herror ⊢
    rw [run_step]
    rcases hrun : perform index c s with ⟨e | v, t⟩ <;> simp only [hrun] at hok herror ⊢
    · refine ⟨herror ⟨index, c, s⟩ e t (.inl rfl) hs hrun, ?_⟩
      rintro _ (rfl | h)
      · exact hs
      · exact h.elim
    · have hfirst : I (index + 1) t := hok ⟨index, c, s⟩ v t (.inl rfl) hs hrun
      obtain ⟨hrest, hvisits⟩ := boundKeeps_of_visits bound v (index + 1) t hfirst
        (fun visit w u h => hok visit w u (.inr h)) (fun visit e u h => herror visit e u (.inr h))
      refine ⟨hrest, ?_⟩
      rintro visit (rfl | h)
      · exact hs
      · exact hvisits visit h

theorem boundKeeps_of_visits {α β : Type} : ∀ (bound : Bound A α β) (v : α) (index : Nat) (s : σ),
    I index s →
    (∀ visit w t, bound.Visits perform visit v index s → I visit.index visit.state →
      perform visit.index visit.command visit.state = (.ok w, t) → I (visit.index + 1) t) →
    (∀ visit e t, bound.Visits perform visit v index s → I visit.index visit.state →
      perform visit.index visit.command visit.state = (.error e, t) → E e t) →
    Holds I E (runBound perform bound v index s) ∧
      ∀ visit, bound.Visits perform visit v index s → I visit.index visit.state
  | .nil, v, index, s, hs, _, _ => by
    rw [runBound_nil]
    exact ⟨hs, fun _ h => h.elim⟩
  | .snoc bound f, v, index, s, hs, hok, herror => by
    simp only [Bound.Visits] at hok herror ⊢
    obtain ⟨hbound, hvisits⟩ := boundKeeps_of_visits bound v index s hs
      (fun visit w t h => hok visit w t (.inl h)) (fun visit e t h => herror visit e t (.inl h))
    rw [runBound_snoc]
    rcases hrun : runBound perform bound v index s with ⟨e | ⟨w, count⟩, t⟩ <;>
      rw [hrun] at hbound <;> simp only [hrun] at hok herror ⊢
    · exact ⟨hbound, fun visit h => h.elim (hvisits visit) False.elim⟩
    · obtain ⟨hrest, hlater⟩ := keeps_of_visits (f w) count t hbound
        (fun visit x u h => hok visit x u (.inr h)) (fun visit e u h => herror visit e u (.inr h))
      exact ⟨hrest, fun visit h => h.elim (hvisits visit) (hlater visit)⟩

end

end

section

variable {perform perform' : Performer A σ ε} {visit : Visit A σ}

mutual

theorem run_of_visits {J : σ → Prop} (H : ∀ index c s, J s → J (perform index c s).2)
    (hvisit : J (perform visit.index visit.command visit.state).2) {α : Type} :
    ∀ (p : Program A α) (index : Nat) (s : σ), p.Visits perform visit index s →
      J (run perform p index s).2
  | .done v, index, s, h => h.elim
  | .step c bound, index, s, h => by
    simp only [Visits] at h
    rw [run_step]
    rcases hrun : perform index c s with ⟨e | v, t⟩ <;> simp only [hrun] at h ⊢
    · obtain rfl : visit = ⟨index, c, s⟩ := h.resolve_right id
      rwa [hrun] at hvisit
    · rcases h with rfl | h
      · rw [hrun] at hvisit
        exact runBound_invariant H bound v (index + 1) hvisit
      · exact runBound_of_visits H hvisit bound v (index + 1) t h

theorem runBound_of_visits {J : σ → Prop} (H : ∀ index c s, J s → J (perform index c s).2)
    (hvisit : J (perform visit.index visit.command visit.state).2) {α β : Type} :
    ∀ (bound : Bound A α β) (v : α) (index : Nat) (s : σ), bound.Visits perform visit v index s →
      J (runBound perform bound v index s).2
  | .nil, v, index, s, h => h.elim
  | .snoc bound f, v, index, s, h => by
    simp only [Bound.Visits] at h
    rw [runBound_snoc]
    rcases h with h | h
    · have hbound := runBound_of_visits H hvisit bound v index s h
      rcases hrun : runBound perform bound v index s with ⟨e | ⟨w, count⟩, t⟩ <;> rw [hrun] at hbound
      · exact hbound
      · exact run_invariant H (f w) count hbound
    · rcases hrun : runBound perform bound v index s with ⟨e | ⟨w, count⟩, t⟩ <;>
        simp only [hrun] at h ⊢
      exact run_of_visits H hvisit (f w) count t h

end

mutual

/-- A second performer carries out every command of a run alike, or fails at the first that it carries out
otherwise, where its own run ends. -/
theorem run_eq_or_stops {α : Type} : ∀ (p : Program A α) (index : Nat) (s : σ),
    (∀ visit, p.Visits perform visit index s →
      perform' visit.index visit.command visit.state = perform visit.index visit.command visit.state ∨
        ∃ e t, perform' visit.index visit.command visit.state = (.error e, t)) →
    run perform' p index s = run perform p index s ∨
      ∃ visit e t, p.Visits perform visit index s ∧ p.Visits perform' visit index s ∧
        perform' visit.index visit.command visit.state ≠
          perform visit.index visit.command visit.state ∧
        perform' visit.index visit.command visit.state = (.error e, t) ∧
        run perform' p index s = (.error e, t)
  | .done v, index, s, _ => .inl (by rw [run_done, run_done])
  | .step c bound, index, s, h => by
    simp only [Visits] at h ⊢
    rw [run_step, run_step]
    by_cases hsame : perform' index c s = perform index c s
    · rw [hsame]
      rcases hrun : perform index c s with ⟨e | v, t⟩ <;> simp only [hrun] at h ⊢
      · exact .inl trivial
      · rcases runBound_eq_or_stops bound v (index + 1) t fun visit hv => h visit (.inr hv) with
          heq | ⟨visit, e, u, hv, hv', hrest⟩
        · exact .inl heq
        · exact .inr ⟨visit, e, u, .inr hv, .inr hv', hrest⟩
    · obtain ⟨e, t, hstop⟩ := (h ⟨index, c, s⟩ (.inl rfl)).resolve_left hsame
      refine .inr ⟨⟨index, c, s⟩, e, t, .inl rfl, .inl rfl, hsame, hstop, ?_⟩
      simp only [hstop]

theorem runBound_eq_or_stops {α β : Type} : ∀ (bound : Bound A α β) (v : α) (index : Nat) (s : σ),
    (∀ visit, bound.Visits perform visit v index s →
      perform' visit.index visit.command visit.state = perform visit.index visit.command visit.state ∨
        ∃ e t, perform' visit.index visit.command visit.state = (.error e, t)) →
    runBound perform' bound v index s = runBound perform bound v index s ∨
      ∃ visit e t, bound.Visits perform visit v index s ∧ bound.Visits perform' visit v index s ∧
        perform' visit.index visit.command visit.state ≠
          perform visit.index visit.command visit.state ∧
        perform' visit.index visit.command visit.state = (.error e, t) ∧
        runBound perform' bound v index s = (.error e, t)
  | .nil, v, index, s, _ => .inl (by rw [runBound_nil, runBound_nil])
  | .snoc bound f, v, index, s, h => by
    simp only [Bound.Visits] at h ⊢
    rw [runBound_snoc, runBound_snoc]
    rcases runBound_eq_or_stops bound v index s fun visit hv => h visit (.inl hv) with
      heq | ⟨visit, e, t, hv, hv', hne, hstop, hbound⟩
    · rw [heq]
      rcases hrun : runBound perform bound v index s with ⟨e | ⟨w, count⟩, t⟩ <;>
        simp only [hrun] at h ⊢
      · exact .inl rfl
      · rcases run_eq_or_stops (f w) count t fun visit hv => h visit (.inr hv) with
          hrest | ⟨visit, e, u, hv, hv', hrest⟩
        · exact .inl hrest
        · exact .inr ⟨visit, e, u, .inr hv, .inr hv', hrest⟩
    · refine .inr ⟨visit, e, t, .inl hv, .inl hv', hne, hstop, ?_⟩
      rw [hbound, proceed_error]

end

end

section

variable {κ : Type} {perform : Performer A σ ε} {note : Nat → A.Command → σ → List κ} {x : κ}

mutual

theorem mem_run_noting {α : Type} : ∀ (p : Program A α) (index : Nat) (s : σ × List κ),
    x ∈ (p.run (perform.noting note) index s).2.2 ↔ x ∈ s.2 ∨ ∃ visit,
      p.Visits perform visit index s.1 ∧ x ∈ note visit.index visit.command visit.state
  | .done v, index, s => by simp [Visits]
  | .step c bound, index, s => by
    simp only [Visits, run_step, Performer.noting]
    rcases hrun : perform index c s.1 with ⟨e | v, t⟩
    · simp
    · have h := mem_runBound_noting bound v (index + 1) (t, s.2 ++ note index c s.1)
      exact h.trans (by simp [or_assoc, or_and_right, exists_or])

theorem mem_runBound_noting {α β : Type} : ∀ (bound : Bound A α β) (v : α) (index : Nat)
    (s : σ × List κ), x ∈ (runBound (perform.noting note) bound v index s).2.2 ↔ x ∈ s.2 ∨ ∃ visit,
      bound.Visits perform visit v index s.1 ∧ x ∈ note visit.index visit.command visit.state
  | .nil, v, index, s => by simp [Bound.Visits]
  | .snoc bound f, v, index, s => by
    have hbound := mem_runBound_noting bound v index s
    simp only [Bound.Visits, runBound_snoc, runBound_noting perform note bound v index s]
    rcases hrun : runBound (perform.noting note) bound v index s with ⟨e | ⟨w, count⟩, t⟩ <;>
      rw [hrun] at hbound
    · simpa using hbound
    · have hrest := mem_run_noting (f w) count t
      rw [proceed_ok, hrest, hbound]
      simp [or_assoc, or_and_right, exists_or]

end

theorem mem_notes {α : Type} (p : Program A α) (index : Nat) (s : σ) :
    x ∈ p.notes perform note index s ↔ ∃ visit,
      p.Visits perform visit index s ∧ x ∈ note visit.index visit.command visit.state := by
  rw [notes, mem_run_noting]
  simp

end

end Program

end

variable {L : Type} [Hierarchy L] {σ α β : Type}

/-- A level to run: its language, the selector of its interpreter, its program, and the progress that
it starts from. -/
structure Level (L : Type) [Hierarchy L] (σ : Type) : Type 1 where
  language : L
  selector : Option String
  {β : Type}
  program : Program (algebra language) β
  start : Progress σ

/-- An attempt of a supervised child starts from `t`, the first of them starting from `s`. -/
def Attempts (child : Run σ FailureCause β) (t : Progress σ) : Nat → Progress σ → Prop
  | 0, s => t = s
  | retries + 1, s => t = s ∨ again (child s).1 = true ∧ Attempts child t retries (child s).2

/-- The plan, carried out from a progress on, runs the level. -/
def Plan.Runs {l : L} (i : Interpreter σ (algebra l)) (children : ChildRunner L σ)
    (policyFor : String → FailurePolicy) (level : Level L σ) :
    Plan (algebra (L := L)) l α → Progress σ → Prop
  | .answer _, _ => False
  | .fail _, _ => False
  | .call m next, s =>
    match i m s.state with
    | (.ok reply, state) => (next reply).Runs i children policyFor level { s with state }
    | (.error _, _) => False
  | .child l' selector p next, s => level = ⟨l', selector, p, s⟩ ∨
    match children l' selector p s with
    | (.ok v, s) => (next v).Runs i children policyFor level s
    | (.error _, _) => False
  | .join l₁ p₁ l₂ p₂ next, s => level = ⟨l₁, none, p₁, s⟩ ∨
    level = ⟨l₂, none, p₂, (children l₁ none p₁ s).2⟩ ∨
    match (children l₁ none p₁ s).1, children l₂ none p₂ (children l₁ none p₁ s).2 with
    | .ok v, (.ok w, s) => (next v w).Runs i children policyFor level s
    | _, _ => False
  | .supervise l' selector p next, s =>
    (∃ t, Attempts (children l' selector p) t ((policyFor (algebra l').name).maxAttempts - 1) s ∧
      level = ⟨l', selector, p, t⟩) ∨
    match (policyFor (algebra l').name).supervise (children l' selector p) s with
    | (.ok outcome, s) => (next outcome).Runs i children policyFor level s
    | (.error _, _) => False

theorem superviseFrom_congr {child child' : Run σ FailureCause β} {recovers : Bool} {retries : Nat}
    {s : Progress σ} (h : ∀ t, Attempts child t retries s → child' t = child t) :
    superviseFrom child' recovers retries s = superviseFrom child recovers retries s := by
  induction retries generalizing s with
  | zero =>
    have hlast : child' s = child s := h s rfl
    rw [superviseFrom_last (.inr rfl), superviseFrom_last (.inr rfl), hlast]
  | succ retries ih =>
    have hfirst : child' s = child s := h s (.inl rfl)
    cases hagain : again (child s).1 with
    | true =>
      have hrest := ih fun t ht => h t (.inr ⟨hagain, ht⟩)
      rw [superviseFrom_again hagain, superviseFrom_again (by rwa [hfirst]), hfirst, hrest]
    | false =>
      rw [superviseFrom_last (.inl hagain), superviseFrom_last (.inl (by rwa [hfirst])), hfirst]

/-- Goes on with the value of a result, or fails with its cause. -/
def Plan.ofResult {l : L} (next : β → Plan (algebra (L := L)) l α) :
    Except FailureCause β → Plan (algebra (L := L)) l α
  | .ok v => next v
  | .error cause => .fail cause

/-- A supervised child of a step: its language, and how the step goes on from what came of it. -/
structure Supervision (L : Type) [Hierarchy L] : Type 1 where
  {parent : L}
  {α β : Type}
  language : L
  next : ChildOutcome β → Plan (algebra (L := L)) parent α

namespace Supervision

/-- The step takes a recovered failure for a failure again. -/
def Insists (v : Supervision L) : Prop :=
  ∃ next, v.next = fun outcome => Plan.ofResult next outcome.result

/-- The step does the same under the one policy as under the other. -/
def Indifferent (v : Supervision L) (policy policy' : FailurePolicy) : Prop :=
  policy'.maxAttempts = policy.maxAttempts ∧ (policy'.recovers = policy.recovers ∨ v.Insists)

end Supervision

/-- The plan, carried out from a progress on, supervises a child. -/
def Plan.Supervises {l : L} (i : Interpreter σ (algebra l)) (children : ChildRunner L σ)
    (policyFor : String → FailurePolicy) (v : Supervision L) :
    Plan (algebra (L := L)) l α → Progress σ → Prop
  | .answer _, _ => False
  | .fail _, _ => False
  | .call m next, s =>
    match i m s.state with
    | (.ok reply, state) => (next reply).Supervises i children policyFor v { s with state }
    | (.error _, _) => False
  | .child l' selector p next, s =>
    match children l' selector p s with
    | (.ok w, s) => (next w).Supervises i children policyFor v s
    | (.error _, _) => False
  | .join l₁ p₁ l₂ p₂ next, s =>
    match (children l₁ none p₁ s).1, children l₂ none p₂ (children l₁ none p₁ s).2 with
    | .ok w, (.ok x, s) => (next w x).Supervises i children policyFor v s
    | _, _ => False
  | .supervise l' selector p next, s => v = ⟨l', next⟩ ∨
    match (policyFor (algebra l').name).supervise (children l' selector p) s with
    | (.ok outcome, s) => (next outcome).Supervises i children policyFor v s
    | (.error _, _) => False

theorem superviseFrom_result (child : Run σ FailureCause β) (recovers recovers' : Bool)
    (retries : Nat) (s : Progress σ) :
    (superviseFrom child recovers retries s).1.bind ChildOutcome.result =
        (superviseFrom child recovers' retries s).1.bind ChildOutcome.result ∧
      (superviseFrom child recovers retries s).2 = (superviseFrom child recovers' retries s).2 := by
  induction retries generalizing s with
  | zero => simp only [superviseFrom_last (.inr rfl), verdict_result, and_self]
  | succ retries ih =>
    cases hagain : again (child s).1 with
    | true => simpa only [superviseFrom_again hagain] using ih (child s).2
    | false => simp only [superviseFrom_last (.inl hagain), verdict_result, and_self]

theorem Plan.run_supervise_ofResult {l : L} (i : Interpreter σ (algebra l))
    (children : ChildRunner L σ) (policyFor : String → FailurePolicy) (l' : L)
    (selector : Option String) (p : Program (algebra l') β) (next : β → Plan (algebra (L := L)) l α)
    (s : Progress σ) :
    let r := (policyFor (algebra l').name).supervise (children l' selector p) s
    (Plan.supervise l' selector p fun outcome => ofResult next outcome.result).run i children
        policyFor s =
      (ofResult next (r.1.bind ChildOutcome.result)).run i children policyFor r.2 := by
  intro r
  simp only [Plan.run]
  change (match r with | (.ok outcome, s) => _ | (.error cause, s) => _) = _
  rcases r with ⟨cause | outcome, t⟩ <;> rfl

/-- A plan depends on what runs levels only at those that it runs, and on the policies only at the
children that it supervises. -/
theorem Plan.run_congr_policies {l : L} {i : Interpreter σ (algebra l)}
    {children children' : ChildRunner L σ} {policyFor policyFor' : String → FailurePolicy}
    (plan : Plan (algebra (L := L)) l α) {s : Progress σ}
    (h : ∀ level : Level L σ, plan.Runs i children policyFor level s →
      children' level.language level.selector level.program level.start =
        children level.language level.selector level.program level.start)
    (hpolicies : ∀ v : Supervision L, plan.Supervises i children policyFor v s →
      v.Indifferent (policyFor (algebra v.language).name) (policyFor' (algebra v.language).name)) :
    plan.run i children' policyFor' s = plan.run i children policyFor s := by
  induction plan generalizing s with
  | answer v => rfl
  | fail cause => rfl
  | call m next ih =>
    simp only [Plan.Runs] at h
    simp only [Plan.Supervises] at hpolicies
    simp only [Plan.run]
    rcases hreply : i m s.state with ⟨failure | reply, state⟩
    · rfl
    · simp only [hreply] at h hpolicies
      exact ih reply h hpolicies
  | child l' selector p next ih =>
    simp only [Plan.Runs] at h
    simp only [Plan.Supervises] at hpolicies
    have hchild : children' l' selector p s = children l' selector p s := h _ (.inl rfl)
    simp only [Plan.run, hchild]
    rcases hrun : children l' selector p s with ⟨cause | v, t⟩ <;> simp only [hrun] at h hpolicies
    · rfl
    · exact ih v (fun level hlevel => h level (.inr hlevel)) hpolicies
  | join l₁ p₁ l₂ p₂ next ih =>
    simp only [Plan.Runs] at h
    simp only [Plan.Supervises] at hpolicies
    have hleft : children' l₁ none p₁ s = children l₁ none p₁ s := h _ (.inl rfl)
    have hright : children' l₂ none p₂ (children l₁ none p₁ s).2 =
      children l₂ none p₂ (children l₁ none p₁ s).2 := h _ (.inr (.inl rfl))
    simp only [Plan.run, hleft]
    rcases hrun₁ : children l₁ none p₁ s with ⟨left, t⟩
    simp only [hrun₁] at h hpolicies hright ⊢
    rw [hright]
    rcases hrun₂ : children l₂ none p₂ t with ⟨right, u⟩
    simp only [hrun₂] at h hpolicies ⊢
    rcases left with cause | v
    · rfl
    · rcases right with cause | w
      · rfl
      · exact ih v w (fun level hlevel => h level (.inr (.inr hlevel))) hpolicies
  | supervise l' selector p next ih =>
    simp only [Plan.Runs] at h
    simp only [Plan.Supervises] at hpolicies
    obtain ⟨hattempts, hrecovers⟩ := hpolicies _ (.inl rfl)
    have hsame (policy : FailurePolicy)
        (hmax : policy.maxAttempts = (policyFor (algebra l').name).maxAttempts) :
        policy.supervise (children' l' selector p) s =
          policy.supervise (children l' selector p) s := by
      simp only [FailurePolicy.supervise, hmax]
      exact superviseFrom_congr fun t ht => h ⟨l', selector, p, t⟩ (.inl ⟨t, ht, rfl⟩)
    -- Whatever the other policy makes of the last attempt, the step goes on as after this one.
    have hother : (supervise l' selector p next).run i children' policyFor' s =
        match (policyFor (algebra l').name).supervise (children l' selector p) s with
        | (.ok outcome, t) => (next outcome).run i children' policyFor' t
        | (.error cause, t) => (.error cause, t) := by
      rcases hrecovers with hrecovers | hinsists
      · have hpolicy : (policyFor' (algebra l').name).supervise (children l' selector p) s =
            (policyFor (algebra l').name).supervise (children l' selector p) s := by
          simp only [FailurePolicy.supervise, hattempts, hrecovers]
        rcases hrun : (policyFor (algebra l').name).supervise (children l' selector p) s with
          ⟨cause | outcome, t⟩ <;> simp only [Plan.run, hsame _ hattempts, hpolicy, hrun]
      · have hinsists : ∃ onward : _ → Plan (algebra (L := L)) l α,
          next = fun outcome => ofResult onward outcome.result := hinsists
        obtain ⟨onward, rfl⟩ := hinsists
        have hresult := superviseFrom_result (children l' selector p)
          (policyFor' (algebra l').name).recovers (policyFor (algebra l').name).recovers
          ((policyFor (algebra l').name).maxAttempts - 1) s
        rw [run_supervise_ofResult, hsame _ hattempts]
        simp only [FailurePolicy.supervise, hattempts]
        rw [hresult.1, hresult.2]
        rcases superviseFrom (children l' selector p) _ _ s with ⟨cause | outcome, t⟩ <;> rfl
    rw [hother]
    simp only [Plan.run]
    rcases hrun : FailurePolicy.supervise _ _ s with ⟨cause | outcome, t⟩ <;>
      simp only [hrun] at h hpolicies
    · rfl
    · exact ih outcome (fun level hlevel => h level (.inr hlevel)) fun v hv => hpolicies v (.inr hv)

theorem Plan.run_congr {l : L} {i : Interpreter σ (algebra l)} {children children' : ChildRunner L σ}
    {policyFor : String → FailurePolicy} (plan : Plan (algebra (L := L)) l α) {s : Progress σ}
    (h : ∀ level : Level L σ, plan.Runs i children policyFor level s →
      children' level.language level.selector level.program level.start =
        children level.language level.selector level.program level.start) :
    plan.run i children' policyFor s = plan.run i children policyFor s :=
  plan.run_congr_policies h fun _ _ => ⟨rfl, .inl rfl⟩

theorem mem_superviseHistory {child : Run σ FailureCause β} {history : Progress σ → History L σ}
    {retries : Nat} {s : Progress σ} {act : Act L σ} :
    act ∈ superviseHistory child history retries s ↔
      ∃ t, Attempts child t retries s ∧ act ∈ history t := by
  induction retries generalizing s with
  | zero => simp [superviseHistory, Attempts]
  | succ retries ih =>
    cases hagain : again (child s).1 <;>
      simp [superviseHistory, Attempts, hagain, ih, or_and_right, exists_or]

theorem Plan.reached_mem_history {l : L} {selector : Option String} {i : Interpreter σ (algebra l)}
    {children : ChildRunner L σ} {histories : ChildHistory L σ} {policyFor : String → FailurePolicy}
    {l' : L} {selector' : Option String} {frame : StepFrame} {state : σ}
    (plan : Plan (algebra (L := L)) l α) {s : Progress σ} :
    .reached l' selector' frame state ∈ plan.history selector i children histories policyFor s ↔
      ∃ level : Level L σ, plan.Runs i children policyFor level s ∧ .reached l' selector' frame state ∈
        histories level.language level.selector level.program level.start := by
  induction plan generalizing s with
  | answer v => simp [Plan.history, Plan.Runs]
  | fail cause => simp [Plan.history, Plan.Runs]
  | call m next ih =>
    simp only [Plan.history, Plan.Runs]
    rcases i m s.state with ⟨failure | reply, state⟩ <;> simp [ih]
  | child l₁ selector₁ p next ih =>
    simp only [Plan.history, Plan.Runs]
    rcases children l₁ selector₁ p s with ⟨cause | v, t⟩ <;>
      simp [ih, or_and_right, exists_or]
  | join l₁ p₁ l₂ p₂ next ih =>
    simp only [Plan.history, Plan.Runs]
    rcases children l₁ none p₁ s with ⟨left, t⟩
    rcases children l₂ none p₂ t with ⟨right, u⟩
    rcases left with cause | v
    · simp [or_and_right, exists_or]
    · rcases right with cause | w <;> simp [ih, or_and_right, exists_or]
  | supervise l₁ selector₁ p next ih =>
    have hattempts (attempt : Progress σ → Prop) :
        (∃ level : Level L σ, (∃ t, attempt t ∧ level = ⟨l₁, selector₁, p, t⟩) ∧
          .reached l' selector' frame state ∈
            histories level.language level.selector level.program level.start) ↔
        ∃ t, attempt t ∧ .reached l' selector' frame state ∈ histories l₁ selector₁ p t := by
      constructor
      · rintro ⟨_, ⟨t, ht, rfl⟩, hmem⟩
        exact ⟨t, ht, hmem⟩
      · rintro ⟨t, ht, hmem⟩
        exact ⟨_, ⟨t, ht, rfl⟩, hmem⟩
    simp only [Plan.history, Plan.Runs, List.mem_append, mem_superviseHistory]
    rcases FailurePolicy.supervise _ _ s with ⟨cause | outcome, t⟩ <;>
      simp [ih, or_and_right, exists_or, hattempts]

end Brigade
