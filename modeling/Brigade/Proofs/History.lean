import Brigade.Proofs.Level
import Brigade.Proofs.Simulation
import Brigade.Proofs.Step
import Brigade.Proofs.Verdict

/-! The history of a run: all that it does, in order, with the state in which it does it. The events of
a run are a part of its history, and the calls in the history lead from the first state of the run to
the last. -/

namespace Brigade

/-- One thing that a run does. -/
inductive Act (L : Type) [Hierarchy L] (σ : Type)
  /-- Comes to a step, which may yet be refused. -/
  | reached (l : L) (selector : Option String) (frame : StepFrame) (state : σ)
  /-- Tells the observers of a step. -/
  | dispatched (l : L) (selector : Option String) (frame : StepFrame) (state : σ)
  /-- Calls a method of the interpreter of a step. -/
  | called (l : L) (selector : Option String) (method : (algebra l).Method) (before after : σ)

abbrev History (L : Type) [Hierarchy L] (σ : Type) : Type := List (Act L σ)

variable {L : Type} [Hierarchy L] {σ α : Type}

namespace Act

def after : Act L σ → σ
  | .reached _ _ _ state | .dispatched _ _ _ state => state
  | .called _ _ _ _ after => after

def event? : Act L σ → Option Event
  | .dispatched _ _ frame _ => some (.dispatched frame)
  | .reached _ _ _ _ | .called _ _ _ _ _ => none

end Act

/-- A performer that also notes down what each command does. -/
def Performer.noting {A : Algebra} {σ ε κ : Type} (perform : Performer A σ ε)
    (note : Nat → A.Command → σ → List κ) : Performer A (σ × List κ) ε := fun index c s =>
  ((perform index c s.1).1, (perform index c s.1).2, s.2 ++ note index c s.1)

def Program.notes {A : Algebra} {σ ε κ : Type} (perform : Performer A σ ε)
    (note : Nat → A.Command → σ → List κ) (p : Program A α) (index : Nat) (s : σ) : List κ :=
  (p.run (perform.noting note) index (s, [])).2.2

theorem Performer.noting_carries {A : Algebra} {σ ε κ : Type} (perform : Performer A σ ε)
    (note : Nat → A.Command → σ → List κ) :
    Program.Carries (fun _ => True) Prod.fst id 0 (perform.noting note) perform := by
  intro c _ index s
  simp only [Performer.noting, Nat.add_zero]
  rcases perform index c s.1 with ⟨e | v, t⟩ <;> rfl

theorem Performer.of_noting {A : Algebra} {σ ε κ : Type} {perform : Performer A σ ε}
    {note : Nat → A.Command → σ → List κ} {index : Nat} {c : A.Command} {s t : σ}
    {before after : List κ} {r : Except ε (A.Answer c)}
    (h : perform.noting note index c (s, before) = (r, t, after)) :
    perform index c s = (r, t) ∧ after = before ++ note index c s := by
  cases h
  exact ⟨rfl, rfl⟩

theorem Program.run_noting {A : Algebra} {σ ε κ : Type} (perform : Performer A σ ε)
    (note : Nat → A.Command → σ → List κ) (p : Program A α) (index : Nat) (s : σ × List κ) :
    p.run perform index s.1 =
      ((p.run (perform.noting note) index s).1, (p.run (perform.noting note) index s).2.1) := by
  have h := Program.run_carry (perform.noting_carries note) p
    (Program.only_of_forall (fun _ => trivial) p) index s
  rwa [Program.carry_id] at h

theorem Program.runBound_noting {A : Algebra} {σ ε κ β : Type} (perform : Performer A σ ε)
    (note : Nat → A.Command → σ → List κ) (bound : Bound A α β) (v : α) (index : Nat)
    (s : σ × List κ) : Program.runBound perform bound v index s.1 =
      ((Program.runBound (perform.noting note) bound v index s).1,
        (Program.runBound (perform.noting note) bound v index s).2.1) := by
  have h := Program.runBound_carry (perform.noting_carries note) bound
    (Bound.only_of_forall (fun _ => trivial) bound) v index s
  rwa [Program.carry_id] at h

theorem Program.notes_error {A : Algebra} {σ ε κ : Type} {perform : Performer A σ ε}
    {note : Nat → A.Command → σ → List κ} {I : Nat → σ → Prop} {E : ε → List κ → σ → Prop}
    (hok : ∀ index c s v t, I index s → perform index c s = (.ok v, t) → I (index + 1) t)
    (herror : ∀ index c s e t before, I index s → perform index c s = (.error e, t) →
      E e (before ++ note index c s) t)
    (p : Program A α) {index : Nat} {s t : σ} {e : ε} (hs : I index s)
    (h : p.run perform index s = (.error e, t)) : E e (p.notes perform note index s) t := by
  have hkeeps : Program.Keeps (fun index s => I index s.1) (fun e s => E e s.2 s.1)
      (perform.noting note) := by
    intro index c s hs
    simp only [Performer.noting]
    rcases hrun : perform index c s.1 with ⟨e | v, t⟩
    · exact herror index c s.1 e t s.2 hs hrun
    · exact hok index c s.1 v t hs hrun
  have hrun := Program.run_keeps hkeeps p index (s, []) hs
  rw [Program.run_noting perform note p index (s, [])] at h
  simp only [Program.notes]
  rcases hnoting : p.run (perform.noting note) index (s, []) with ⟨e' | ⟨v, count⟩, u⟩ <;>
    rw [hnoting] at hrun h <;> cases h
  exact hrun

abbrev ChildHistory (L : Type) [Hierarchy L] (σ : Type) : Type 1 :=
  (l : L) → Option String → {β : Type} → Program (algebra l) β → Progress σ → History L σ

/-- What the attempts of a supervised child do. -/
def superviseHistory {β : Type} (child : Run σ FailureCause β) (history : Progress σ → History L σ) :
    Nat → Progress σ → History L σ
  | 0, s => history s
  | retries + 1, s =>
    history s ++ if again (child s).1 then superviseHistory child history retries (child s).2 else []

/-- A supervision ends as its last attempt does, and its history ends with that of the attempt. -/
theorem superviseFrom_eq_verdict {β : Type} (child : Run σ FailureCause β)
    (history : Progress σ → History L σ) (recovers : Bool) (retries : Nat) (s : Progress σ) :
    ∃ t before, superviseFrom child recovers retries s = (verdict recovers (child t).1, (child t).2) ∧
      superviseHistory child history retries s = before ++ history t := by
  induction retries generalizing s with
  | zero => exact ⟨s, [], superviseFrom_last (.inr rfl), rfl⟩
  | succ retries ih =>
    cases hagain : again (child s).1 with
    | true =>
      obtain ⟨t, before, hrun, hhistory⟩ := ih (child s).2
      refine ⟨t, history s ++ before, ?_, ?_⟩
      · rw [superviseFrom_again hagain, hrun]
      · rw [superviseHistory, hagain, if_pos rfl, hhistory, List.append_assoc]
    | false =>
      refine ⟨s, [], superviseFrom_last (.inl hagain), ?_⟩
      simp [superviseHistory, hagain]

def Plan.history {l : L} (selector : Option String) (i : Interpreter σ (algebra l))
    (children : ChildRunner L σ) (histories : ChildHistory L σ) (policyFor : String → FailurePolicy) :
    Plan (algebra (L := L)) l α → Progress σ → History L σ
  | .answer _, _ => []
  | .fail _, _ => []
  | .call m next, s =>
    .called l selector m s.state (i m s.state).2 ::
      match i m s.state with
      | (.ok reply, state) =>
        (next reply).history selector i children histories policyFor { s with state }
      | (.error _, _) => []
  | .child l' selector' p next, s =>
    histories l' selector' p s ++
      match children l' selector' p s with
      | (.ok v, t) => (next v).history selector i children histories policyFor t
      | (.error _, _) => []
  | .join l₁ p₁ l₂ p₂ next, s =>
    histories l₁ none p₁ s ++ (histories l₂ none p₂ (children l₁ none p₁ s).2 ++
      match (children l₁ none p₁ s).1, children l₂ none p₂ (children l₁ none p₁ s).2 with
      | .ok v, (.ok w, u) => (next v w).history selector i children histories policyFor u
      | _, _ => [])
  | .supervise l' selector' p next, s =>
    superviseHistory (children l' selector' p) (histories l' selector' p)
        ((policyFor (algebra l').name).maxAttempts - 1) s ++
      match (policyFor (algebra l').name).supervise (children l' selector' p) s with
      | (.ok outcome, t) => (next outcome).history selector i children histories policyFor t
      | (.error _, _) => []

/-- Every method that the plan calls, on whatever it is told, satisfies `P`. -/
def Plan.Calls {l : L} {α : Type} (P : (algebra l).Method → Prop) :
    Plan (algebra (L := L)) l α → Prop
  | .answer _ | .fail _ => True
  | .call m next => P m ∧ ∀ reply, (next reply).Calls P
  | .child _ _ _ next => ∀ v, (next v).Calls P
  | .join _ _ _ _ next => ∀ v w, (next v w).Calls P
  | .supervise _ _ _ next => ∀ outcome, (next outcome).Calls P

theorem Plan.calls_of_forall {l : L} {P : (algebra l).Method → Prop} (h : ∀ m, P m)
    (plan : Plan (algebra (L := L)) l α) : plan.Calls P := by
  induction plan with
  | answer v => trivial
  | fail cause => trivial
  | call m next ih => exact ⟨h m, ih⟩
  | child l' selector p next ih => exact ih
  | join l₁ p₁ l₂ p₂ next ih => exact ih
  | supervise l' selector p next ih => exact ih

theorem Plan.history_call {l : L} {selector : Option String} {i : Interpreter σ (algebra l)}
    {children : ChildRunner L σ} {histories : ChildHistory L σ} {policyFor : String → FailurePolicy}
    {m : (algebra l).Method} {next : (algebra l).Reply m → Plan (algebra (L := L)) l α}
    (hnext : ∀ reply, ∃ v, next reply = .answer v) (s : Progress σ) :
    (Plan.call m next).history selector i children histories policyFor s =
      [.called l selector m s.state (i m s.state).2] := by
  simp only [history]
  rcases i m s.state with ⟨failure | reply, state⟩
  · rfl
  · obtain ⟨v, hv⟩ := hnext reply
    simp only [hv, history]

namespace Engine

variable [DecidableEq L]

/-- What the step with number `index` of a level does. -/
def stepHistory (e : Engine σ) (registry : Registry L σ) (children : ChildRunner L σ)
    (histories : ChildHistory L σ) (depth : Nat) (l : L) (selector : Option String) :
    Nat → (algebra l).Command → Progress σ → History L σ := fun index c s =>
  let frame : StepFrame := ⟨depth, index, (algebra l).describe c⟩
  .reached l selector frame s.state ::
    match e.permit registry l selector index s.state with
    | .error _ => []
    | .ok i => .dispatched l selector frame s.state ::
      (Hierarchy.plan l c frame).history selector i children histories e.policyFor
        (s.record (.dispatched frame))

theorem stepHistory_of_permit {e : Engine σ} {registry : Registry L σ} {children : ChildRunner L σ}
    {histories : ChildHistory L σ} {depth : Nat} {l : L} {selector : Option String} {index : Nat}
    {c : (algebra l).Command} {s : Progress σ} {i : Interpreter σ (algebra l)}
    (h : e.permit registry l selector index s.state = .ok i) :
    e.stepHistory registry children histories depth l selector index c s =
      let frame : StepFrame := ⟨depth, index, (algebra l).describe c⟩
      .reached l selector frame s.state :: .dispatched l selector frame s.state ::
        (Hierarchy.plan l c frame).history selector i children histories e.policyFor
          (s.record (.dispatched frame)) := by
  simp only [stepHistory, h]

/-- What a level at `depth` does, its children being run and told of as given. -/
def levelHistory (e : Engine σ) (registry : Registry L σ) (children : ChildRunner L σ)
    (histories : ChildHistory L σ) (depth : Nat) : ChildHistory L σ := fun l selector _ p s =>
  p.notes (e.step registry children depth l selector)
    (e.stepHistory registry children histories depth l selector) 0 s

/-- What the children of a level at `depth` do, with `room` levels below it at most. -/
def childHistory (e : Engine σ) (registry : Registry L σ) : Nat → Nat → ChildHistory L σ
  | 0, _ => fun _ _ _ _ _ => []
  | room + 1, depth => e.levelHistory registry (e.children registry room (depth + 1))
      (e.childHistory registry room (depth + 1)) (depth + 1)

/-- What a level does, with `room` levels of children below it at most. -/
def history (e : Engine σ) (registry : Registry L σ) (room depth : Nat) : ChildHistory L σ :=
  e.levelHistory registry (e.children registry room depth) (e.childHistory registry room depth) depth

/-- The acts lead from one progress of a run to another, each as the engine may do it: a step is
dispatched only if no check refuses it, and a call is one of the interpreter bound for the step. -/
inductive Leads (e : Engine σ) (registry : Registry L σ) :
    Progress σ → History L σ → Progress σ → Prop
  | nil (s : Progress σ) : Leads e registry s [] s
  | reached (l : L) (selector : Option String) (frame : StepFrame) {s t : Progress σ}
    {rest : History L σ} (h : Leads e registry s rest t) :
    Leads e registry s (.reached l selector frame s.state :: rest) t
  | dispatched (l : L) (selector : Option String) (frame : StepFrame) {s t : Progress σ}
    {rest : History L σ} (i : Interpreter σ (algebra l))
    (hpermit : e.permit registry l selector frame.index s.state = .ok i)
    (h : Leads e registry (s.record (.dispatched frame)) rest t) :
    Leads e registry s (.dispatched l selector frame s.state :: rest) t
  | called (l : L) (selector : Option String) (method : (algebra l).Method) {s t : Progress σ}
    {rest : History L σ} (i : Interpreter σ (algebra l))
    (hresolve : registry.resolve l selector = .ok i)
    (h : Leads e registry { s with state := (i method s.state).2 } rest t) :
    Leads e registry s (.called l selector method s.state (i method s.state).2 :: rest) t

namespace Leads

variable {e : Engine σ} {registry : Registry L σ} {s t u : Progress σ} {acts rest : History L σ}

theorem append (h : e.Leads registry s acts t) (h' : e.Leads registry t rest u) :
    e.Leads registry s (acts ++ rest) u := by
  induction h with
  | nil s => exact h'
  | reached l selector frame _ ih => exact .reached l selector frame (ih h')
  | dispatched l selector frame i hpermit _ ih => exact .dispatched l selector frame i hpermit (ih h')
  | called l selector method i hresolve _ ih => exact .called l selector method i hresolve (ih h')

theorem of_append (h : e.Leads registry s (acts ++ rest) u) :
    ∃ t, e.Leads registry s acts t ∧ e.Leads registry t rest u := by
  induction acts generalizing s with
  | nil => exact ⟨s, .nil s, h⟩
  | cons act acts ih =>
    cases h with
    | reached l selector frame h =>
      obtain ⟨t, hacts, hrest⟩ := ih h
      exact ⟨t, .reached l selector frame hacts, hrest⟩
    | dispatched l selector frame i hpermit h =>
      obtain ⟨t, hacts, hrest⟩ := ih h
      exact ⟨t, .dispatched l selector frame i hpermit hacts, hrest⟩
    | called l selector method i hresolve h =>
      obtain ⟨t, hacts, hrest⟩ := ih h
      exact ⟨t, .called l selector method i hresolve hacts, hrest⟩

theorem tail {act : Act L σ} (h : e.Leads registry s (act :: rest) u) :
    ∃ t, t.state = act.after ∧ e.Leads registry t rest u := by
  cases h with
  | reached l selector frame h => exact ⟨_, rfl, h⟩
  | dispatched l selector frame i hpermit h => exact ⟨_, by exact rfl, h⟩
  | called l selector method i hresolve h => exact ⟨_, by exact rfl, h⟩

theorem events (h : e.Leads registry s acts t) : t.events = s.events ++ acts.filterMap Act.event? := by
  induction h with
  | nil s => simp
  | reached l selector frame _ ih => rw [ih, List.filterMap_cons_none rfl]
  | @dispatched l selector frame s t rest i hpermit _ ih =>
    have hseen : (Act.dispatched l selector frame s.state).event? = some (.dispatched frame) := rfl
    rw [ih, List.filterMap_cons_some hseen, Progress.events_record, List.append_assoc]
    rfl
  | called l selector method i hresolve _ ih =>
    rw [ih, List.filterMap_cons_none rfl]
    rfl

end Leads

/-- What the children of a step do leads to where they end. -/
def Tells (e : Engine σ) (registry : Registry L σ) (children : ChildRunner L σ)
    (histories : ChildHistory L σ) : Prop :=
  ∀ (l : L) (selector : Option String) {β : Type} (p : Program (algebra l) β) (s : Progress σ),
    e.Leads registry s (histories l selector p s) (children l selector p s).2

end Engine

/-- A relation between the progress before, what is done, and the progress after, that the parts of a
run pass on to the whole. -/
structure Composes (R : Progress σ → History L σ → Progress σ → Prop) : Prop where
  nil : ∀ s, R s [] s
  append : ∀ {s t u acts rest}, R s acts t → R t rest u → R s (acts ++ rest) u

def ChildHistory.Passes (histories : ChildHistory L σ) (children : ChildRunner L σ)
    (R : Progress σ → History L σ → Progress σ → Prop) : Prop :=
  ∀ (l : L) (selector : Option String) {β : Type} (p : Program (algebra l) β) (s : Progress σ),
    R s (histories l selector p s) (children l selector p s).2

/-- What each step does has `R` between its start and its end, if what its children do has. -/
def Engine.StepsPass [DecidableEq L] (e : Engine σ) (registry : Registry L σ)
    (R : Progress σ → History L σ → Progress σ → Prop) : Prop :=
  ∀ (children : ChildRunner L σ) (histories : ChildHistory L σ), histories.Passes children R →
    ∀ (depth : Nat) (l : L) (selector : Option String) (index : Nat) (c : (algebra l).Command)
      (s : Progress σ), R s (e.stepHistory registry children histories depth l selector index c s)
        (e.step registry children depth l selector index c s).2

namespace Composes

variable {R : Progress σ → History L σ → Progress σ → Prop}

theorem supervise (hR : Composes R) {β : Type} {child : Run σ FailureCause β}
    {history : Progress σ → History L σ} (h : ∀ s, R s (history s) (child s).2) (recovers : Bool)
    (retries : Nat) (s : Progress σ) :
    R s (superviseHistory child history retries s) (superviseFrom child recovers retries s).2 := by
  induction retries generalizing s with
  | zero =>
    rw [superviseFrom_last (.inr rfl)]
    exact h s
  | succ retries ih =>
    cases hagain : again (child s).1 with
    | true =>
      rw [superviseFrom_again hagain, superviseHistory, hagain]
      exact hR.append (h s) (ih (child s).2)
    | false =>
      rw [superviseFrom_last (.inl hagain), superviseHistory, hagain]
      exact hR.append (h s) (hR.nil _)

theorem plan_of_calls (hR : Composes R) {children : ChildRunner L σ} {histories : ChildHistory L σ}
    (hc : histories.Passes children R) {l : L} (selector : Option String)
    {i : Interpreter σ (algebra l)} {P : (algebra l).Method → Prop}
    (hcall : ∀ m, P m → ∀ s, R s [.called l selector m s.state (i m s.state).2]
      { s with state := (i m s.state).2 })
    (policyFor : String → FailurePolicy) {plan : Plan (algebra (L := L)) l α} (hplan : plan.Calls P)
    (s : Progress σ) : R s (plan.history selector i children histories policyFor s)
      (plan.run i children policyFor s).2 := by
  induction plan generalizing s with
  | answer v => exact hR.nil s
  | fail cause => exact hR.nil s
  | call m next ih =>
    have hhead := hcall m hplan.1 s
    simp only [Plan.history, Plan.run]
    rcases hreply : i m s.state with ⟨failure | reply, state⟩ <;> rw [hreply] at hhead
    · exact hhead
    · exact hR.append hhead (ih reply (hplan.2 reply) { s with state })
  | child l' selector' p next ih =>
    have hchild := hc l' selector' p s
    simp only [Plan.history, Plan.run]
    rcases hrun : children l' selector' p s with ⟨cause | v, t⟩ <;> rw [hrun] at hchild
    · exact hR.append hchild (hR.nil t)
    · exact hR.append hchild (ih v (hplan v) t)
  | join l₁ p₁ l₂ p₂ next ih =>
    have hleft := hc l₁ none p₁ s
    have hright := hc l₂ none p₂ (children l₁ none p₁ s).2
    simp only [Plan.history, Plan.run]
    rcases hrun₁ : children l₁ none p₁ s with ⟨left, t⟩
    rw [hrun₁] at hleft hright
    dsimp only at hleft hright ⊢
    rcases hrun₂ : children l₂ none p₂ t with ⟨right, u⟩
    rw [hrun₂] at hright
    refine hR.append hleft (hR.append hright ?_)
    rcases left with cause | v
    · exact hR.nil u
    · rcases right with cause | w
      · exact hR.nil u
      · exact ih v w (hplan v w) u
  | supervise l' selector' p next ih =>
    have hattempts := hR.supervise (hc l' selector' p) (policyFor (algebra l').name).recovers
      ((policyFor (algebra l').name).maxAttempts - 1) s
    simp only [Plan.history, Plan.run, FailurePolicy.supervise]
    rcases hrun : superviseFrom _ _ _ s with ⟨cause | outcome, t⟩ <;> rw [hrun] at hattempts
    · exact hR.append hattempts (hR.nil t)
    · exact hR.append hattempts (ih outcome (hplan outcome) t)

theorem plan (hR : Composes R) {children : ChildRunner L σ} {histories : ChildHistory L σ}
    (hc : histories.Passes children R) {l : L} (selector : Option String)
    {i : Interpreter σ (algebra l)}
    (hcall : ∀ m s, R s [.called l selector m s.state (i m s.state).2]
      { s with state := (i m s.state).2 })
    (policyFor : String → FailurePolicy) (plan : Plan (algebra (L := L)) l α) (s : Progress σ) :
    R s (plan.history selector i children histories policyFor s)
      (plan.run i children policyFor s).2 :=
  hR.plan_of_calls hc selector (fun m _ => hcall m) policyFor
    (Plan.calls_of_forall (P := fun _ => True) (fun _ => trivial) plan) s

theorem notes (hR : Composes R) {A : Algebra} {ε : Type} {perform : Performer A (Progress σ) ε}
    {note : Nat → A.Command → Progress σ → History L σ}
    (hstep : ∀ index c s, R s (note index c s) (perform index c s).2) (p : Program A α) (index : Nat)
    (s : Progress σ) : R s (p.notes perform note index s) (p.run perform index s).2 := by
  have hrun : R s (p.run (perform.noting note) index (s, [])).2.2
      (p.run (perform.noting note) index (s, [])).2.1 :=
    Program.run_invariant (J := fun t : Progress σ × History L σ => R s t.2 t.1)
      (fun index c t ht => hR.append ht (hstep index c t.1)) p index (hR.nil s)
  rw [Program.run_noting perform note p index (s, [])]
  exact hrun

variable [DecidableEq L]

theorem children (hR : Composes R) {e : Engine σ} {registry : Registry L σ}
    (hstep : e.StepsPass registry R) (room depth : Nat) :
    (e.childHistory registry room depth).Passes (e.children registry room depth) R := by
  induction room generalizing depth with
  | zero => exact fun _ _ _ _ s => hR.nil s
  | succ room ih =>
    intro l selector β p s
    rw [Engine.children_succ, Engine.children_snd]
    exact hR.notes (hstep _ _ (ih (depth + 1)) (depth + 1) l selector) p 0 s

theorem level (hR : Composes R) {e : Engine σ} {registry : Registry L σ}
    (hstep : e.StepsPass registry R) (room depth : Nat) (l : L) (selector : Option String) {β : Type}
    (p : Program (algebra l) β) (s : Progress σ) :
    R s (e.history registry room depth l selector p s)
      (e.level registry room depth l selector p s).2 := by
  rw [Engine.level_eq_levelFrom, Engine.levelFrom_eq_run]
  exact hR.notes (hstep _ _ (hR.children hstep room depth) depth l selector) p 0 s

end Composes

namespace Engine

variable {e : Engine σ} {registry : Registry L σ} [DecidableEq L]

theorem leads_composes : Composes (e.Leads registry) := ⟨.nil, .append⟩

theorem stepHistory_leads {children : ChildRunner L σ} {histories : ChildHistory L σ}
    (hc : e.Tells registry children histories) (depth : Nat) (l : L) (selector : Option String)
    (index : Nat) (c : (algebra l).Command) (s : Progress σ) :
    e.Leads registry s (e.stepHistory registry children histories depth l selector index c s)
      (e.step registry children depth l selector index c s).2 := by
  simp only [stepHistory, step_eq]
  refine .reached l selector _ ?_
  cases hpermit : e.permit registry l selector index s.state with
  | error cause => exact .nil s
  | ok i =>
    refine .dispatched l selector _ i hpermit ?_
    exact leads_composes.plan hc selector
      (fun m t => .called l selector m i (permit_eq_ok hpermit).2.2 (.nil _)) e.policyFor
      (Hierarchy.plan l c ⟨depth, index, (algebra l).describe c⟩)
      (s.record (.dispatched ⟨depth, index, (algebra l).describe c⟩))

theorem history_leads (e : Engine σ) (registry : Registry L σ) (room depth : Nat) (l : L)
    (selector : Option String) {β : Type} (p : Program (algebra l) β) (s : Progress σ) :
    e.Leads registry s (e.history registry room depth l selector p s)
      (e.level registry room depth l selector p s).2 :=
  leads_composes.level (fun _ _ => stepHistory_leads) room depth l selector p s

theorem of_dispatched_mem_history {room depth : Nat} {l : L} {selector : Option String} {β : Type}
    {p : Program (algebra l) β} {s : Progress σ} {l' : L} {selector' : Option String}
    {frame : StepFrame} {state : σ}
    (h : .dispatched l' selector' frame state ∈ e.history registry room depth l selector p s) :
    (∃ c, frame.command = (algebra l').describe c) ∧
      ∃ i, e.permit registry l' selector' frame.index state = .ok i := by
  have hcomposes : Composes fun (_ : Progress σ) (acts : History L σ) _ =>
      .dispatched l' selector' frame state ∈ acts → (∃ c, frame.command = (algebra l').describe c) ∧
        ∃ i, e.permit registry l' selector' frame.index state = .ok i :=
    ⟨fun _ hmem => (List.not_mem_nil hmem).elim, fun h h' hmem => (List.mem_append.1 hmem).elim h h'⟩
  refine hcomposes.level (fun children histories hc depth l selector index c s => ?_) room depth l
    selector p s h
  simp only [stepHistory, List.mem_cons, reduceCtorEq, false_or]
  rcases hpermit : e.permit registry l selector index s.state with cause | i
  · exact fun hmem => nomatch hmem
  · rintro (_ | ⟨_, hmem⟩)
    · exact ⟨⟨c, rfl⟩, i, hpermit⟩
    · exact hcomposes.plan hc selector (fun _ _ hmem => nomatch hmem) e.policyFor _ _ hmem

end Engine

end Brigade
