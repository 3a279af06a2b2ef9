import Brigade.Proofs.Level
import Brigade.Proofs.Simulation
import Brigade.Proofs.Step
import Brigade.Proofs.Verdict

/-! What a level does from a state is independent of the events before it: it only adds events, all of
them at its own depth or deeper. One property of computations says both, and every level has it. -/

namespace Brigade

variable {σ ε α : Type}

/-- What came of a computation. -/
structure Outcome (σ ε α : Type) where
  result : Except ε α
  state : σ
  /-- The events, the oldest first. -/
  events : List Event

namespace Outcome

def of (r : Except ε α × Progress σ) : Outcome σ ε α := ⟨r.1, r.2.state, r.2.events⟩

def after (events : List Event) (o : Outcome σ ε α) : Outcome σ ε α :=
  { o with events := events ++ o.events }

def reported (o : Outcome σ ExecutionError (α × Nat)) : Outcome σ ExecutionError α :=
  match o.result with
  | .ok (v, steps) => ⟨.ok v, o.state, o.events ++ [.completed steps]⟩
  | .error error => ⟨.error error, o.state, o.events ++ [.failed error]⟩

theorem state_reported (o : Outcome σ ExecutionError (α × Nat)) : o.reported.state = o.state := by
  simp only [reported]
  split <;> rfl

theorem result_reported (o : Outcome σ ExecutionError (α × Nat)) :
    o.reported.result = o.result.map Prod.fst := by
  rcases o with ⟨error | ⟨v, steps⟩, state, events⟩ <;> rfl

theorem eq_of_reported_eq_error {o : Outcome σ ExecutionError (α × Nat)} {error : ExecutionError}
    {s : σ} {events : List Event} (h : o.reported = ⟨.error error, s, events⟩) :
    ∃ dispatches, o = ⟨.error error, s, dispatches⟩ ∧ events = dispatches ++ [.failed error] := by
  rcases o with ⟨error' | ⟨v, steps⟩, state, dispatches⟩ <;> cases h
  exact ⟨dispatches, rfl, rfl⟩

end Outcome

/-- What comes of a computation that starts in a state, with no event before. -/
def Run.outcome (r : Run σ ε α) (s : σ) : Outcome σ ε α := .of (r ⟨s, []⟩)

/-- Whether an event is a dispatch at `depth` or deeper. -/
def Event.reaches (depth : Nat) : Event → Bool
  | .dispatched frame => depth ≤ frame.depth
  | .completed _ | .failed _ => false

/-- A change of the events that no dispatch at `depth` or deeper notices. -/
structure Unnoticed (depth : Nat) (g : Progress σ → Progress σ) : Prop where
  state : ∀ s, (g s).state = s.state
  call : ∀ s state, g { s with state } = { g s with state }
  record : ∀ s frame, depth ≤ frame.depth →
    g (s.record (.dispatched frame)) = (g s).record (.dispatched frame)

/-- The computation goes the same way from the changed progress, and the change stays. -/
def Run.Commutes (g : Progress σ → Progress σ) (r : Run σ ε α) : Prop :=
  ∀ s, r (g s) = ((r s).1, g (r s).2)

/-- A computation that only adds dispatches at `depth` or deeper, and does not look at the events. -/
def Run.Confined (depth : Nat) (r : Run σ ε α) : Prop :=
  ∀ g : Progress σ → Progress σ, Unnoticed depth g → ∀ s, r (g s) = ((r s).1, g (r s).2)

namespace Unnoticed

variable {depth : Nat}

theorem mono {deeper : Nat} (h : depth ≤ deeper) {g : Progress σ → Progress σ}
    (hg : Unnoticed depth g) : Unnoticed deeper g :=
  ⟨hg.state, hg.call, fun s frame hf => hg.record s frame (Nat.le_trans h hf)⟩

theorem older (events : List Event) :
    Unnoticed depth fun s : Progress σ => { s with newest := s.newest ++ events } :=
  ⟨fun _ => rfl, fun _ _ => rfl, fun _ _ _ => rfl⟩

theorem filter_reaches : Unnoticed depth fun s : Progress σ =>
    { s with newest := s.newest.filter (Event.reaches depth) } :=
  ⟨fun _ => rfl, fun _ _ => rfl, fun s frame hf => by simp [Progress.record, Event.reaches, hf]⟩

end Unnoticed

theorem Run.Commutes.superviseFrom {β : Type} {g : Progress σ → Progress σ}
    {child : Run σ FailureCause β} (hc : Run.Commutes g child) (recovers : Bool) (retries : Nat) :
    Run.Commutes g (superviseFrom child recovers retries) := by
  intro s
  have hresult : ∀ s, (child (g s)).1 = (child s).1 := fun s => by rw [hc s]
  induction retries generalizing s with
  | zero => rw [superviseFrom_last (.inr rfl), superviseFrom_last (.inr rfl), hc s]
  | succ n ih =>
    cases h : again (child s).1 with
    | true =>
      rw [superviseFrom_again h, superviseFrom_again (by rwa [hresult]), hc s]
      exact ih (child s).2
    | false =>
      rw [superviseFrom_last (.inl h), superviseFrom_last (.inl (by rwa [hresult])), hc s]

namespace Run.Confined

variable {depth : Nat} {r : Run σ ε α}

theorem outcome_of (hr : Run.Confined depth r) (s : Progress σ) :
    Outcome.of (r s) = (r.outcome s.state).after s.events := by
  have h := hr _ (Unnoticed.older s.newest) ⟨s.state, []⟩
  simp only [List.nil_append] at h
  simp [Outcome.of, h, Run.outcome, Outcome.after, Progress.events]

theorem reaches (hr : Run.Confined depth r) {s : σ} {event : Event}
    (h : event ∈ (r.outcome s).events) : event.reaches depth := by
  have hf := hr _ Unnoticed.filter_reaches ⟨s, []⟩
  have hn : (r ⟨s, []⟩).2.newest = (r ⟨s, []⟩).2.newest.filter (Event.reaches depth) :=
    congrArg (fun q => q.2.newest) hf
  have hm : event ∈ (r ⟨s, []⟩).2.newest := by simpa [Run.outcome, Outcome.of, Progress.events] using h
  rw [hn] at hm
  exact (List.mem_filter.1 hm).2

theorem superviseFrom {β : Type} {child : Run σ FailureCause β} (hc : Run.Confined depth child)
    (recovers : Bool) (retries : Nat) : Run.Confined depth (superviseFrom child recovers retries) :=
  fun g hg => Run.Commutes.superviseFrom (hc g hg) recovers retries

end Run.Confined

variable {L : Type} [Hierarchy L]

def ChildRunner.Confined (depth : Nat) (children : ChildRunner L σ) : Prop :=
  ∀ (l : L) (selector : Option String) {β : Type} (p : Program (algebra l) β),
    Run.Confined depth (children l selector p)

def Interpreter.run {A : Algebra} (i : Interpreter σ A) (m : A.Method) :
    Run σ InterpreterFailure (A.Reply m) := fun s =>
  ((i m s.state).1, { s with state := (i m s.state).2 })

theorem Plan.run_call {l : L} {i : Interpreter σ (algebra l)} {children : ChildRunner L σ}
    {policyFor : String → FailurePolicy} (m : (algebra l).Method)
    (next : (algebra l).Reply m → Plan (algebra (L := L)) l α) (s : Progress σ) :
    (Plan.call m next).run i children policyFor s = match i.run m s with
      | (.ok reply, s) => (next reply).run i children policyFor s
      | (.error failure, s) => (.error (.interpreter failure), s) := by
  simp only [Plan.run, Interpreter.run]
  rcases i m s.state with ⟨failure | reply, state⟩ <;> rfl

theorem Plan.run_call_answer {l : L} {i : Interpreter σ (algebra l)} {children : ChildRunner L σ}
    {policyFor : String → FailurePolicy} (m : (algebra l).Method) (s : Progress σ) :
    (.call m .answer : Plan (algebra (L := L)) l _).run i children policyFor s =
      ((i m s.state).1.mapError .interpreter, { s with state := (i m s.state).2 }) := by
  rw [run_call]
  rcases hcall : i.run m s with ⟨failure | reply, t⟩
  all_goals exact congrArg (fun r => (r.1.mapError FailureCause.interpreter, r.2)) hcall.symm

theorem Plan.state_run_call_answer {l : L} {i : Interpreter σ (algebra l)}
    {children : ChildRunner L σ} {policyFor : String → FailurePolicy} (m : (algebra l).Method)
    (s : Progress σ) :
    ((.call m .answer : Plan (algebra (L := L)) l _).run i children policyFor s).2.state =
      (i m s.state).2 := by
  rw [run_call_answer]

theorem Plan.run_commutes {g : Progress σ → Progress σ} {l : L} {i : Interpreter σ (algebra l)}
    {children : ChildRunner L σ} (hcall : ∀ m, Run.Commutes g (i.run m))
    (hc : ∀ (l : L) (selector : Option String) {β : Type} (p : Program (algebra l) β),
      Run.Commutes g (children l selector p)) (policyFor : String → FailurePolicy)
    (plan : Plan (algebra (L := L)) l α) : Run.Commutes g (plan.run i children policyFor) := by
  intro s
  induction plan generalizing s with
  | answer v => rfl
  | fail cause => rfl
  | call m next ih =>
    rw [run_call, run_call, hcall m s]
    rcases i.run m s with ⟨failure | reply, t⟩
    · rfl
    · exact ih reply t
  | child l' selector p next ih =>
    simp only [Plan.run, hc l' selector p s]
    rcases children l' selector p s with ⟨cause | v, t⟩
    · rfl
    · exact ih v t
  | join l₁ p₁ l₂ p₂ next ih =>
    simp only [Plan.run, hc l₁ none p₁ s]
    rcases children l₁ none p₁ s with ⟨left, t⟩
    simp only [hc l₂ none p₂ t]
    rcases children l₂ none p₂ t with ⟨right, u⟩
    rcases left with cause | v
    · rfl
    · rcases right with cause | w
      · rfl
      · exact ih v w u
  | supervise l' selector p next ih =>
    have hs := (hc l' selector p).superviseFrom (policyFor (algebra l').name).recovers
      ((policyFor (algebra l').name).maxAttempts - 1) s
    simp only [Plan.run, FailurePolicy.supervise, hs]
    generalize Brigade.superviseFrom _ _ _ s = r
    rcases r with ⟨cause | outcome, t⟩
    · rfl
    · exact ih outcome t

theorem Unnoticed.call_commutes {depth : Nat} {g : Progress σ → Progress σ} (hg : Unnoticed depth g)
    {A : Algebra} (i : Interpreter σ A) (m : A.Method) : Run.Commutes g (i.run m) := by
  intro s
  have hcall := hg.call s (i m s.state).2
  simp only [Interpreter.run]
  rw [hcall, hg.state s]

theorem Plan.run_confined {depth : Nat} {l : L} {i : Interpreter σ (algebra l)}
    {children : ChildRunner L σ} (hc : children.Confined depth) (policyFor : String → FailurePolicy)
    (plan : Plan (algebra (L := L)) l α) : Run.Confined depth (plan.run i children policyFor) :=
  fun g hg => Plan.run_commutes (hg.call_commutes i) (fun l selector _ p => hc l selector p g hg)
    policyFor plan

namespace Engine

variable [DecidableEq L]

/-- A change of the progress that the engine and the interpreters of the registry do not notice. -/
structure Hides (e : Engine σ) (registry : Registry L σ) (g : Progress σ → Progress σ) : Prop where
  permit : ∀ (l : L) (selector : Option String) (index : Nat) (s : Progress σ),
    e.permit registry l selector index (g s).state = e.permit registry l selector index s.state
  call : ∀ {l : L} {selector : Option String} {i : Interpreter σ (algebra l)},
    registry.resolve l selector = .ok i → ∀ m, Run.Commutes g (i.run m)

theorem hides_of_unnoticed (e : Engine σ) (registry : Registry L σ) {depth : Nat}
    {g : Progress σ → Progress σ} (hg : Unnoticed depth g) : e.Hides registry g where
  permit l selector index s := by rw [hg.state]
  call _ := hg.call_commutes _

section

variable {e : Engine σ} {registry : Registry L σ} {g : Progress σ → Progress σ}

/-- A step does the same `k` commands later, seen through a change that is hidden but for shifting the
step's own dispatch, if the limit does not tell the two apart and neither does the command. -/
theorem Hides.step_carries (hg : e.Hides registry g) {children : ChildRunner L σ}
    (hc : ∀ (l : L) (selector : Option String) {β : Type} (p : Program (algebra l) β),
      Run.Commutes g (children l selector p)) (depth : Nat) (l : L) (selector : Option String) {k : Nat}
    {P : (algebra l).Command → Prop} {h : ExecutionError → ExecutionError}
    (hrecord : ∀ s index command, g (s.record (.dispatched ⟨depth, index, command⟩)) =
      (g s).record (.dispatched ⟨depth, index + k, command⟩))
    (herror : ∀ index command cause,
      h ⟨⟨depth, index, command⟩, cause⟩ = ⟨⟨depth, index + k, command⟩, cause⟩)
    (hlimit : ∀ index, e.settings.exhausted (index + k) = e.settings.exhausted index)
    (hplan : ∀ c, P c → ∀ index command, Hierarchy.plan l c ⟨depth, index + k, command⟩ =
      Hierarchy.plan l c ⟨depth, index, command⟩) :
    Program.Carries P g h k (e.step registry children depth l selector)
      (e.step registry children depth l selector) := by
  intro c hcommand index s
  have hpermit : e.permit registry l selector (index + k) s.state =
      e.permit registry l selector index s.state := by simp only [Engine.permit, hlimit]
  simp only [step_eq, hg.permit, hpermit, hplan c hcommand, ← hrecord]
  rcases hi : e.permit registry l selector index s.state with cause | i
  · simp only [herror]
  · have hresolve := (permit_eq_ok hi).2.2
    simp only [Plan.run_commutes (hg.call hresolve) hc e.policyFor _ _]
    generalize Plan.run i children e.policyFor _ _ = r
    rcases r with ⟨cause | v, t⟩
    · exact congrArg (fun error => (Except.error error, g t)) (herror index _ cause).symm
    · rfl

/-- What children and the dispatches of a level do not notice, the level does not notice. -/
theorem Hides.run_commutes (hg : e.Hides registry g) {children : ChildRunner L σ}
    (hc : ∀ (l : L) (selector : Option String) {β : Type} (p : Program (algebra l) β),
      Run.Commutes g (children l selector p)) {depth : Nat}
    (hrecord : ∀ s frame, depth ≤ frame.depth →
      g (s.record (.dispatched frame)) = (g s).record (.dispatched frame))
    (l : L) (selector : Option String) (index : Nat) {β : Type} (p : Program (algebra l) β) :
    Run.Commutes g (p.run (e.step registry children depth l selector) index) := by
  intro s
  have hp := Program.only_of_forall (P := fun _ => True) (fun _ => trivial) p
  have hstep := hg.step_carries hc depth l selector (k := 0) (P := fun _ => True) (h := id)
    (fun s _ _ => hrecord s _ (Nat.le_refl depth)) (fun _ _ _ => rfl) (fun _ => rfl)
    (fun _ _ _ _ => rfl)
  have h := Program.run_carry hstep p hp index s
  rwa [Program.carry_id] at h

theorem Hides.children_commute (hg : e.Hides registry g) {room depth : Nat}
    (hrecord : ∀ s frame, depth < frame.depth →
      g (s.record (.dispatched frame)) = (g s).record (.dispatched frame))
    (l : L) (selector : Option String) {β : Type} (p : Program (algebra l) β) :
    Run.Commutes g (e.children registry room depth l selector p) := by
  induction room generalizing depth l selector β p with
  | zero => exact fun _ => rfl
  | succ room ih =>
    intro s
    have hbelow : ∀ s frame, depth + 1 < frame.depth →
        g (s.record (.dispatched frame)) = (g s).record (.dispatched frame) :=
      fun s frame hf => hrecord s frame (by omega)
    have h := hg.run_commutes (fun l selector _ p => ih hbelow l selector p) hrecord l selector 0 p s
    rw [← levelFrom_eq_run, ← level_eq_levelFrom] at h
    simp only [children, LevelRunner.children, h]
    rcases e.level registry room (depth + 1) l selector p s with ⟨error | ⟨v, steps⟩, t⟩ <;> rfl

end

theorem run_confined (e : Engine σ) (registry : Registry L σ) {children : ChildRunner L σ}
    {depth : Nat} (hc : children.Confined (depth + 1)) (l : L) (selector : Option String)
    (index : Nat) {β : Type} (p : Program (algebra l) β) :
    Run.Confined depth (p.run (e.step registry children depth l selector) index) := by
  intro g hg
  have hchildren : Unnoticed (depth + 1) g := hg.mono (Nat.le_succ depth)
  exact (e.hides_of_unnoticed registry hg).run_commutes
    (fun l selector _ p => hc l selector p g hchildren) hg.record l selector index p

theorem children_confined (e : Engine σ) (registry : Registry L σ) (room depth : Nat) :
    (e.children registry room depth).Confined (depth + 1) :=
  fun l selector _ p _ hg =>
    (e.hides_of_unnoticed registry hg).children_commute hg.record l selector p

theorem levelFrom_confined (e : Engine σ) (registry : Registry L σ) (room depth : Nat) (l : L)
    (selector : Option String) (index : Nat) {β : Type} (p : Program (algebra l) β) :
    Run.Confined depth (e.levelFrom registry room depth l selector index p) := by
  rw [levelFrom_eq_run]
  exact e.run_confined registry (e.children_confined registry room depth) l selector index p

theorem level_confined (e : Engine σ) (registry : Registry L σ) (room depth : Nat) (l : L)
    (selector : Option String) {β : Type} (p : Program (algebra l) β) :
    Run.Confined depth (e.level registry room depth l selector p) := by
  rw [level_eq_levelFrom]
  exact e.levelFrom_confined registry room depth l selector 0 p

theorem execute_outcome (e : Engine σ) (registry : Registry L σ) (l : L) (selector : Option String)
    {β : Type} (p : Program (algebra l) β) (s : σ) : (e.execute registry l selector p).outcome s =
      ((e.levelFrom registry e.settings.maxDepth.toNat 0 l selector 0 p).outcome s).reported := by
  simp only [Run.outcome, execute, level_eq_levelFrom]
  generalize e.levelFrom registry _ 0 l selector 0 p _ = r
  rcases r with ⟨error | ⟨v, steps⟩, t⟩ <;>
    simp [Outcome.of, Outcome.reported, Progress.record, Progress.events]

theorem execute_events (e : Engine σ) (registry : Registry L σ) (l : L) (selector : Option String)
    {β : Type} (p : Program (algebra l) β) (s : σ) :
    ∃ last, ((e.execute registry l selector p).outcome s).events =
      ((e.level registry e.settings.maxDepth.toNat 0 l selector p).outcome s).events ++ [last] ∧
      ∀ frame, last ≠ .dispatched frame := by
  simp only [execute_outcome, ← level_eq_levelFrom, Outcome.reported]
  split
  · exact ⟨_, rfl, by simp⟩
  · exact ⟨_, rfl, by simp⟩

end Engine

end Brigade
