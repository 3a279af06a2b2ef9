import Brigade.Proofs.Crews
import Brigade.Proofs.Orderly
import Mathlib.Data.List.Forall2
import Mathlib.Data.List.ReduceOption

/-! The log of recording interpreters. Each call of one adds its line to the log they share, and each call
in a run answers the dispatch before it. So the log gains one line for each dispatch that the observers
hear of, in order, but none for the commands that only run recipes. -/

namespace Brigade

namespace Recorder

/-- The line that the recording interpreter under a selector writes for a call. -/
def line (selector : Option String) : (l : Language) → (algebra l).Method → String
  | .sandwich, SandwichMethod.start => "sandwich.start"
  | .sandwich, SandwichMethod.add component _ => s!"sandwich.add({component.name})"
  | .sandwich, SandwichMethod.finish _ => "sandwich.finish"
  | .pizza, PizzaMethod.prepare size => s!"{selector.getD houseMaker}.dough({size.name})"
  | .pizza, PizzaMethod.top topping _ => s!"{selector.getD houseMaker}.top({topping.name})"
  | .pizza, PizzaMethod.bake _ minutes => s!"{selector.getD houseMaker}.bake({minutes.toNat})"
  | .cooking, CookingMethod.chooseMeal => "machine.choose"
  | .cooking, CookingMethod.serve meal => s!"machine.serve({meal.text})"
  | .probe, _ | .relay, _ => ""

/-- The commands that only run recipes. -/
def unrecorded : List String := ["MakeSandwich", "MakePizza", "MakeCombo"]

def Records (selector : Option String) (l : Language) (i : Interpreter Store (algebra l)) : Prop :=
  ∀ m s, (i m s).2.log = s.log.record (line selector l m)

theorem sandwich_records (selector : Option String) :
    Records selector .sandwich (Recorder.sandwich.within Store.logSlot) := by
  rintro (_ | ⟨component, body⟩ | body) s <;> rfl

theorem pizza_records (selector : Option String) (n : Nat) :
    Records selector .pizza
      ((Recorder.pizza (selector.getD houseMaker)).within (Store.pizzaRecorder n)) := by
  rintro (size | ⟨topping, dough⟩ | ⟨dough, minutes⟩) s
  · simp only [Interpreter.within, pizza, Store.pizzaRecorder, PizzaState.record, PizzaState.take]
    rcases Store.cell none n s.pizzaFailures with _ | budget
    · rfl
    · rcases hbudget : budget.take with ⟨_ | failure, budget'⟩ <;> simp only [hbudget] <;> rfl
  · rfl
  · rfl

theorem machine_records (selector : Option String) (choice : Option MealChoice) (n : Nat) :
    Records selector .cooking ((Recorder.machine choice).within (Store.machine n)) := by
  rintro (_ | meal) s
  · cases choice <;> rfl
  · rfl

theorem records (makers : List String) (choice : Option MealChoice) (store : Store) {l : Language}
    {selector : Option String} {i : Interpreter Store (algebra l)}
    (h : (Recorder.staff makers choice store).registry.resolve l selector = .ok i) :
    Records selector l i := by
  cases (hired_staff makers choice store).posted rfl h with
  | sandwich => exact sandwich_records none
  | house => exact pizza_records none _
  | @maker maker i hmans =>
    obtain ⟨n, rfl, -⟩ := hmans
    exact pizza_records (some maker) n
  | machine => exact machine_records none choice _

end Recorder

namespace Act

def line? : Act Language Store → Option String
  | .called l selector m _ _ => some (Recorder.line selector l m)
  | .reached _ _ _ _ | .dispatched _ _ _ _ => none

end Act

theorem Registry.Moves.log_entries {registry : Registry Language Store} {s t : Store}
    {acts : History Language Store} (h : registry.Moves s acts t)
    (hrecords : ∀ {l selector i}, registry.resolve l selector = .ok i → Recorder.Records selector l i) :
    t.log.entries = s.log.entries ++ acts.filterMap Act.line? := by
  refine h.keeps (I := fun acts u => u.log.entries = s.log.entries ++ acts.filterMap Act.line?)
    ?_ ?_ (by simp)
  · intro before act u hact hbefore
    have hline : act.line? = none := by cases act <;> first | rfl | cases hact
    rw [hbefore, List.filterMap_append, List.filterMap_cons_none hline, List.filterMap_nil,
      List.append_nil]
  · intro before l selector m i u hresolve hbefore
    rw [hrecords hresolve m u, CallLog.entries_record, hbefore, List.filterMap_append,
      List.append_assoc]
    rfl

/-- What is written down of a dispatch: the line of the call that its command opens with, and nothing if
the command only runs recipes. -/
def Dispatch.Noted (d : Dispatch Language) (note : Option String) : Prop :=
  ∃ c, d.frame.command = (algebra d.language).describe c ∧
    note = (d.language.opening c).map (Recorder.line d.selector d.language) ∧
    (note = none ↔ d.frame.command.name ∈ Recorder.unrecorded)

theorem Language.opening_eq_none_iff {l : Language} (hl : l ≠ .relay)
    (c : (Hierarchy.algebra l).Command) :
    l.opening c = none ↔ ((Hierarchy.algebra l).describe c).name ∈ Recorder.unrecorded := by
  cases l with
  | relay => exact absurd rfl hl
  | probe => exact iff_of_false nofun (of_decide_eq_false rfl)
  | sandwich => cases c <;> exact iff_of_false nofun (of_decide_eq_false rfl)
  | pizza => cases c <;> exact iff_of_false nofun (of_decide_eq_false rfl)
  | cooking =>
    cases c with
    | makeSandwich | makePizza | makeCombo => exact iff_of_true rfl (of_decide_eq_true rfl)
    | makeRandomMeal | serve => exact iff_of_false nofun (of_decide_eq_false rfl)

theorem Recorder.line_eq_of_describe_eq {l : Language} {c c' : (algebra l).Command}
    (h : (algebra l).describe c = (algebra l).describe c') {m m' : (algebra l).Method}
    (hm : l.opening c = some m) (hm' : l.opening c' = some m') (selector : Option String) :
    line selector l m = line selector l m' := by
  have hname := congrArg CommandInfo.name h
  have hdetail := congrArg CommandInfo.detail h
  cases l with
  | probe => rfl
  | relay => rfl
  | sandwich =>
    cases c <;> cases c' <;> cases hm <;> cases hm'
    case sandwich.add.add.refl.refl => exact congrArg (fun name => s!"sandwich.add({name})") hdetail
    all_goals first | rfl | exact absurd hname (of_decide_eq_false rfl)
  | pizza =>
    cases c <;> cases c' <;> cases hm <;> cases hm'
    case pizza.prepare.prepare.refl.refl =>
      exact congrArg (fun name => s!"{selector.getD houseMaker}.dough({name})") hdetail
    case pizza.top.top.refl.refl =>
      exact congrArg (fun name => s!"{selector.getD houseMaker}.top({name})") hdetail
    case pizza.bake.bake.refl.refl dough minutes dough' minutes' =>
      have hminutes : toString minutes.toNat = toString minutes'.toNat :=
        (String.append_left_inj " min").1 hdetail
      exact congrArg (fun minutes : String => s!"{selector.getD houseMaker}.bake({minutes})") hminutes
    all_goals exact absurd hname (of_decide_eq_false rfl)
  | cooking =>
    cases c <;> cases c' <;> cases hm <;> cases hm'
    case cooking.serve.serve.refl.refl => exact congrArg (fun meal => s!"machine.serve({meal})") hdetail
    all_goals first | rfl | exact absurd hname (of_decide_eq_false rfl)

/-- What is written down of a dispatch depends on what the observers hear, and the selector. -/
theorem Dispatch.noted_rightUnique : Relator.RightUnique Dispatch.Noted := by
  rintro d _ _ ⟨c, hcommand, rfl, hnone⟩ ⟨c', hcommand', rfl, hnone'⟩
  rw [← hnone'] at hnone
  rcases hm : d.language.opening c with _ | m <;> rcases hm' : d.language.opening c' with _ | m'
  · rfl
  · simp [hm, hm'] at hnone
  · simp [hm, hm'] at hnone
  · exact congrArg some
      (Recorder.line_eq_of_describe_eq (hcommand.symm.trans hcommand') hm hm' d.selector)

theorem Orderly.noted {acts : History Language Store} (h : Orderly acts) :
    ∃ notes, List.Forall₂ Dispatch.Noted (acts.filterMap Act.dispatch?) notes ∧
      acts.filterMap Act.line? = notes.reduceOption := by
  induction h with
  | nil => exact ⟨[], .nil, rfl⟩
  | reached l selector frame state _ ih => exact ih
  | delegates l hl selector frame state c hcommand hopening _ ih =>
    obtain ⟨notes, hnotes, hlines⟩ := ih
    have hname := Language.opening_eq_none_iff hl c
    rw [hopening, ← hcommand] at hname
    have hnoted : Dispatch.Noted ⟨l, selector, frame⟩ none :=
      ⟨c, hcommand, by rw [hopening]; rfl, by simpa using hname⟩
    refine ⟨_, .cons hnoted hnotes, ?_⟩
    rwa [List.reduceOption_cons_of_none]
  | @asks l hl selector frame state after c hcommand m hopening _ _ ih =>
    obtain ⟨notes, hnotes, hlines⟩ := ih
    have hname := Language.opening_eq_none_iff hl c
    rw [hopening, ← hcommand] at hname
    have hnoted : Dispatch.Noted ⟨l, selector, frame⟩ (some (Recorder.line selector l m)) :=
      ⟨c, hcommand, by rw [hopening]; rfl, by simpa using hname⟩
    refine ⟨_, .cons hnoted hnotes, ?_⟩
    rw [List.reduceOption_cons_of_some, ← hlines]
    rfl

/-- The log of recording interpreters after a run, from any state, whatever comes of the run: it gains a
line for each dispatch that the observers hear of, in order, but for those of commands that only run
recipes; and what it gains is determined by the dispatches. -/
theorem Recorder.execute_log (makers : List String) (choice : Option MealChoice) (store : Store)
    (e : Engine Store) (l : Language) (selector : Option String) {β : Type}
    (p : Program (algebra l) β) (s : Store) :
    let registry := (Recorder.staff makers choice store).registry
    let o := (e.execute registry l selector p).outcome s
    let dispatches := (e.history registry e.settings.maxDepth.toNat 0 l selector p ⟨s, []⟩).filterMap
      Act.dispatch?
    (∃ last, (∀ frame, last ≠ .dispatched frame) ∧
      o.events = dispatches.map (fun d => .dispatched d.frame) ++ [last]) ∧
    ∃ notes, List.Forall₂ Dispatch.Noted dispatches notes ∧
      (∀ notes', List.Forall₂ Dispatch.Noted dispatches notes' → notes' = notes) ∧
      o.state.log.entries = s.log.entries ++ notes.reduceOption := by
  intro registry o dispatches
  let job : Job Language Store := ⟨e, l, selector, p⟩
  have hrelay : ∀ selector i, registry.resolve .relay selector ≠ .ok i :=
    fun selector i hresolve => nomatch (Recorder.hired_staff makers choice store).posted rfl hresolve
  have hentries := (job.history_moves registry s).log_entries fun hresolve =>
    Recorder.records makers choice store hresolve
  obtain ⟨notes, hnotes, hlines⟩ := (e.history_orderly hrelay e.settings.maxDepth.toNat 0 l selector p
    ⟨s, []⟩).noted
  obtain ⟨last, hlast, hevents⟩ := job.events_eq registry s
  rw [filterMap_event?] at hevents
  refine ⟨⟨last, hlast, hevents⟩, notes, hnotes, fun notes' hnotes' => ?_, ?_⟩
  · exact Dispatch.noted_rightUnique.forall₂ hnotes' hnotes
  · rw [← hlines]
    exact hentries

end Brigade
