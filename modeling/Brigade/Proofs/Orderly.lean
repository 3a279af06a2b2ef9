import Brigade.Language.Plans
import Brigade.Proofs.Shifts

/-! Dispatches and calls. Every command but those of the relay language calls its interpreter once at most,
and before anything else. So where no relay is bound, the calls of a run stand in its history right after
the dispatches that they answer, and the two can be told from one another. -/

namespace Brigade

def Language.opening :
    (l : Language) → (Hierarchy.algebra l).Command → Option (Hierarchy.algebra l).Method
  | .probe, .emit value => some (ProbeMethod.emit value)
  | .relay, c => match c.leaf with
    | .note text => some (RelayMethod.note text)
    | _ => none
  | .sandwich, .start => some SandwichMethod.start
  | .sandwich, .add component body => some (SandwichMethod.add component body)
  | .sandwich, .finish body => some (SandwichMethod.finish body)
  | .pizza, .prepare size => some (PizzaMethod.prepare size)
  | .pizza, .top topping dough => some (PizzaMethod.top topping dough)
  | .pizza, .bake dough minutes => some (PizzaMethod.bake dough minutes)
  | .cooking, .makeSandwich _ => none
  | .cooking, .makePizza _ _ => none
  | .cooking, .makeCombo _ _ => none
  | .cooking, .makeRandomMeal => some CookingMethod.chooseMeal
  | .cooking, .serve meal => some (CookingMethod.serve meal)

namespace Plan

variable {L : Type} [Hierarchy L] {l : L} {α : Type}

/-- The plan calls the method first, if one is given, and makes no other call. -/
def CallsFirst (plan : Plan (algebra (L := L)) l α) : Option (algebra l).Method → Prop
  | none => plan.Calls fun _ => False
  | some m => ∃ next, plan = .call m next ∧ ∀ reply, (next reply).Calls fun _ => False

end Plan

theorem Language.plan_callsFirst {l : Language} (hl : l ≠ .relay)
    (c : (Hierarchy.algebra l).Command) (frame : StepFrame) :
    (Hierarchy.plan l c frame).CallsFirst (l.opening c) := by
  cases l with
  | relay => exact absurd rfl hl
  | probe =>
    cases c with
    | emit value => exact ⟨_, rfl, fun _ => trivial⟩
  | sandwich => cases c <;> exact ⟨_, rfl, fun _ => trivial⟩
  | pizza => cases c <;> exact ⟨_, rfl, fun _ => trivial⟩
  | cooking =>
    cases c with
    | makeSandwich recipe => exact fun _ => trivial
    | makePizza maker recipe => exact fun _ => trivial
    | makeCombo sandwich pizza => exact fun _ _ => trivial
    | makeRandomMeal =>
      refine ⟨_, rfl, fun choice => ?_⟩
      cases choice <;> exact fun _ => trivial
    | serve meal => exact ⟨_, rfl, fun _ => trivial⟩

variable {σ : Type}

/-- A dispatch of a command that calls its interpreter first stands before that call, and there is no
other call. -/
inductive Orderly : History Language σ → Prop
  | nil : Orderly []
  | reached (l : Language) (selector : Option String) (frame : StepFrame) (state : σ)
    {rest : History Language σ} (h : Orderly rest) : Orderly (.reached l selector frame state :: rest)
  | delegates (l : Language) (hl : l ≠ .relay) (selector : Option String) (frame : StepFrame)
    (state : σ) (c : (algebra l).Command) (hcommand : frame.command = (algebra l).describe c)
    (hopening : l.opening c = none) {rest : History Language σ} (h : Orderly rest) :
    Orderly (.dispatched l selector frame state :: rest)
  | asks (l : Language) (hl : l ≠ .relay) (selector : Option String) (frame : StepFrame)
    (state after : σ) (c : (algebra l).Command) (hcommand : frame.command = (algebra l).describe c)
    {m : (algebra l).Method} (hopening : l.opening c = some m) {rest : History Language σ}
    (h : Orderly rest) :
    Orderly (.dispatched l selector frame state :: .called l selector m state after :: rest)

namespace Orderly

variable {acts before rest : History Language σ}

theorem append (h : Orderly acts) (h' : Orderly rest) : Orderly (acts ++ rest) := by
  induction h with
  | nil => exact h'
  | reached l selector frame state _ ih => exact .reached l selector frame state ih
  | delegates l hl selector frame state c hcommand hopening _ ih =>
    exact .delegates l hl selector frame state c hcommand hopening ih
  | asks l hl selector frame state after c hcommand hopening _ ih =>
    exact .asks l hl selector frame state after c hcommand hopening ih

theorem composes : Composes fun (_ : Progress σ) (acts : History Language σ) _ => Orderly acts :=
  ⟨fun _ => .nil, append⟩

/-- A dispatch is never parted from its call by another: what comes before it is orderly by itself, and if
its command calls the interpreter first, the call comes next. -/
theorem at_dispatch {l : Language} {selector : Option String} {frame : StepFrame} {state : σ}
    (h : Orderly (before ++ .dispatched l selector frame state :: rest)) :
    Orderly before ∧ ∃ c, frame.command = (algebra l).describe c ∧
      ∀ m ∈ l.opening c, ∃ after rest', rest = .called l selector m state after :: rest' := by
  generalize hacts : before ++ .dispatched l selector frame state :: rest = acts at h
  induction h generalizing before with
  | nil => simp at hacts
  | reached l' selector' frame' state' _ ih =>
    cases before with
    | nil => cases hacts
    | cons act before =>
      obtain ⟨rfl, hrest⟩ := List.cons.inj hacts
      exact ⟨.reached l' selector' frame' state' (ih hrest).1, (ih hrest).2⟩
  | delegates l' hl' selector' frame' state' c hcommand hopening _ ih =>
    cases before with
    | nil =>
      cases hacts
      exact ⟨.nil, c, hcommand, by simp [hopening]⟩
    | cons act before =>
      obtain ⟨rfl, hrest⟩ := List.cons.inj hacts
      exact ⟨.delegates l' hl' selector' frame' state' c hcommand hopening (ih hrest).1, (ih hrest).2⟩
  | asks l' hl' selector' frame' state' after c hcommand hopening _ ih =>
    cases before with
    | nil =>
      cases hacts
      refine ⟨.nil, c, hcommand, fun m hm => ?_⟩
      obtain rfl := Option.some.inj (hopening.symm.trans hm)
      exact ⟨after, _, rfl⟩
    | cons act before =>
      obtain ⟨rfl, hcall⟩ := List.cons.inj hacts
      cases before with
      | nil => cases hcall
      | cons act before =>
        obtain ⟨rfl, hrest⟩ := List.cons.inj hcall
        exact ⟨.asks l' hl' selector' frame' state' after c hcommand hopening (ih hrest).1, (ih hrest).2⟩

end Orderly

namespace Engine

theorem stepsPass_orderly (e : Engine σ) {registry : Registry Language σ}
    (hrelay : ∀ selector i, registry.resolve .relay selector ≠ .ok i) :
    e.StepsPass registry fun _ acts _ => Orderly acts := by
  intro children histories hc depth l selector index c s
  simp only [stepHistory]
  rcases hpermit : e.permit registry l selector index s.state with cause | i
  · exact .reached l selector _ s.state .nil
  · have hl : l ≠ .relay := by
      rintro rfl
      exact hrelay selector i (permit_eq_ok hpermit).2.2
    let frame : StepFrame := ⟨depth, index, (algebra l).describe c⟩
    -- after its call a plan only runs children, and what they do is orderly
    have hmute {α : Type} {plan : Plan (algebra (L := Language)) l α}
        (hplan : plan.Calls fun _ => False) (t : Progress σ) :
        Orderly (plan.history selector i children histories e.policyFor t) :=
      Orderly.composes.plan_of_calls hc selector (fun _ hcall => hcall.elim) e.policyFor hplan t
    have hfirst := Language.plan_callsFirst hl c frame
    refine .reached l selector frame s.state ?_
    cases hopening : l.opening c with
    | none =>
      rw [hopening] at hfirst
      exact .delegates l hl selector frame s.state c rfl hopening (hmute hfirst _)
    | some m =>
      rw [hopening] at hfirst
      obtain ⟨next, hplan, hnext⟩ := hfirst
      rw [hplan]
      dsimp only
      rw [Plan.history]
      refine .asks l hl selector frame s.state _ c rfl hopening ?_
      rcases i m (s.record (.dispatched frame)).state with ⟨failure | reply, state⟩
      · exact .nil
      · exact hmute (hnext reply) _

theorem history_orderly (e : Engine σ) {registry : Registry Language σ}
    (hrelay : ∀ selector i, registry.resolve .relay selector ≠ .ok i) (room depth : Nat) (l : Language)
    (selector : Option String) {β : Type} (p : Program (algebra l) β) (s : Progress σ) :
    Orderly (e.history registry room depth l selector p s) :=
  Orderly.composes.level (e.stepsPass_orderly hrelay) room depth l selector p s

end Engine

theorem Job.history_orderly {registry : Registry Language σ}
    (hrelay : ∀ selector i, registry.resolve .relay selector ≠ .ok i) (job : Job Language σ) (s : σ) :
    Orderly (job.history registry s) :=
  job.engine.history_orderly hrelay _ _ _ _ _ _

theorem Shift.history_orderly {registry : Registry Language σ}
    (hrelay : ∀ selector i, registry.resolve .relay selector ≠ .ok i) (jobs : Shift Language σ) (s : σ) :
    Orderly (Shift.history registry jobs s) := by
  induction jobs generalizing s with
  | nil => exact .nil
  | cons job jobs ih => exact (job.history_orderly hrelay s).append (ih _)

end Brigade
