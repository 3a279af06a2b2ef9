import Brigade.Kitchen.Menu
import Brigade.Proofs.Supervision
import Brigade.Proofs.Visits

/-! Random meals. The machine chooses once what to make, and the recipe of its choice runs as a supervised
child of one of two languages. Only a policy that recovers makes a meal of the failure of the child, a
meal that is unavailable. -/

namespace Brigade

variable {σ ε α β : Type}

/-- The computation with a function of its value in the place of the value. -/
def Run.mapped (f : α → β) (r : Run σ ε α) : Run σ ε β := fun s => ((r s).1.map f, (r s).2)

def ChildOutcome.map (f : α → β) : ChildOutcome α → ChildOutcome β
  | .completed v => .completed (f v)
  | .recovered error => .recovered error

namespace Run

theorem Confined.mapped {depth : Nat} {r : Run σ ε α} (hr : Run.Confined depth r) (f : α → β) :
    Run.Confined depth (r.mapped f) := by
  intro g hg s
  simp only [Run.mapped, hr g hg s]

theorem Enters.mapped {child : Run σ FailureCause α} (hc : child.Enters) (f : α → β) :
    Run.Enters (child.mapped f) := by
  intro s cause h
  refine hc s cause ?_
  simp only [Run.mapped] at h
  rcases hresult : (child s).1 with cause' | v <;> rw [hresult] at h <;> cases h
  rfl

theorem again_mapped (f : α → β) (r : Except FailureCause α) : again (r.map f) = again r := by
  rcases r with cause | v
  · cases cause <;> rfl
  · rfl

theorem verdict_mapped (f : α → β) (recovers : Bool) (r : Except FailureCause α) :
    verdict recovers (r.map f) = (verdict recovers r).map (ChildOutcome.map f) := by
  rcases r with cause | v
  · cases cause with
    | child frame cause =>
      simp only [Except.map, verdict]
      split <;> rfl
    | _ => rfl
  · rfl

theorem superviseFrom_mapped (f : α → β) (child : Run σ FailureCause α) (recovers : Bool)
    (retries : Nat) : superviseFrom (child.mapped f) recovers retries =
      Run.mapped (ChildOutcome.map f) (superviseFrom child recovers retries) := by
  funext s
  induction retries generalizing s with
  | zero =>
    simp only [Run.mapped, superviseFrom_last (.inr rfl), verdict_mapped]
  | succ retries ih =>
    have hmapped : again (child.mapped f s).1 = again (child s).1 := again_mapped f (child s).1
    cases hagain : again (child s).1 with
    | true =>
      have hrest := ih (child s).2
      rw [superviseFrom_again (hmapped.trans hagain)]
      simp only [Run.mapped, superviseFrom_again hagain] at hrest ⊢
      exact hrest
    | false =>
      simp only [superviseFrom_last (.inl (hmapped.trans hagain)), Run.mapped,
        superviseFrom_last (.inl hagain), verdict_mapped]

end Run

namespace Plan

variable {L : Type} [Hierarchy L] {l : L} {i : Interpreter σ (algebra l)} {children : ChildRunner L σ}
  {histories : ChildHistory L σ} {policyFor : String → FailurePolicy} {s : Progress σ}

theorem runs_call {m : (algebra l).Method}
    {next : (algebra l).Reply m → Plan (algebra (L := L)) l α} {level : Level L σ}
    (h : (Plan.call m next).Runs i children policyFor level s) :
    ∃ reply t, i.run m s = (.ok reply, t) ∧ (next reply).Runs i children policyFor level t := by
  simp only [Runs] at h
  rcases hreply : i m s.state with ⟨failure | reply, state⟩ <;> simp only [hreply] at h
  exact ⟨reply, { s with state }, by simp only [Interpreter.run, hreply], h⟩

theorem history_call_cons (i : Interpreter σ (algebra l)) (children : ChildRunner L σ)
    (histories : ChildHistory L σ) (policyFor : String → FailurePolicy) (selector : Option String)
    (m : (algebra l).Method) (next : (algebra l).Reply m → Plan (algebra (L := L)) l α)
    (s : Progress σ) : ∃ rest,
      (Plan.call m next).history selector i children histories policyFor s =
        .called l selector m s.state (i m s.state).2 :: rest ∧
      ((∃ failure t, i.run m s = (.error failure, t)) ∧ rest = [] ∨
        ∃ reply t, i.run m s = (.ok reply, t) ∧
          rest = (next reply).history selector i children histories policyFor t) := by
  simp only [history, Interpreter.run]
  refine ⟨_, rfl, ?_⟩
  rcases i m s.state with ⟨failure | reply, state⟩
  · exact .inl ⟨⟨failure, _, rfl⟩, rfl⟩
  · exact .inr ⟨reply, _, rfl, rfl⟩

section

variable {l' : L} {selector' : Option String} {p : Program (algebra l') β}
  {answer : ChildOutcome β → α}

theorem runs_supervise_answer {level : Level L σ}
    (h : (Plan.supervise l' selector' p fun outcome => .answer (answer outcome)).Runs i children
      policyFor level s) : ∃ t, level = ⟨l', selector', p, t⟩ := by
  simp only [Runs] at h
  rcases h with ⟨t, -, rfl⟩ | h
  · exact ⟨t, rfl⟩
  · rcases hrun : (policyFor (algebra l').name).supervise (children l' selector' p) s with
      ⟨cause | outcome, t⟩ <;> simp only [hrun] at h

theorem mem_history_supervise_answer {selector : Option String} {act : Act L σ}
    (h : act ∈ (Plan.supervise l' selector' p fun outcome => .answer (answer outcome)).history selector i
      children histories policyFor s) : ∃ t, act ∈ histories l' selector' p t := by
  simp only [history, List.mem_append, mem_superviseHistory] at h
  rcases h with ⟨t, -, h⟩ | h
  · exact ⟨t, h⟩
  · rcases hrun : (policyFor (algebra l').name).supervise (children l' selector' p) s with
      ⟨cause | outcome, t⟩ <;> simp only [hrun] at h <;> cases h

end

end Plan

namespace MealChoice

def language : MealChoice → Language
  | .sandwich _ => .sandwich
  | .pizza _ _ => .pizza

/-- The level that makes the meal: the recipe of the order, for a pizza in the oven of the maker. -/
def level (choice : MealChoice) (start : Progress σ) : Level Language σ :=
  match choice with
  | .sandwich order => ⟨.sandwich, none, order.recipe, start⟩
  | .pizza maker order => ⟨.pizza, maker, order.recipe, start⟩

/-- What a child makes that runs this level. -/
def make (children : ChildRunner Language σ) : MealChoice → Run σ FailureCause Meal
  | .sandwich order => Run.mapped Meal.sandwich (children .sandwich none order.recipe)
  | .pizza maker order => Run.mapped Meal.pizza (children .pizza maker order.recipe)

variable {children : ChildRunner Language σ}

theorem isAvailable_of_make {choice : MealChoice} {s : Progress σ} {meal : Meal}
    (h : (choice.make children s).1 = .ok meal) : meal.isAvailable = true := by
  cases choice with
  | sandwich order =>
    simp only [make, Run.mapped] at h
    rcases hresult : (children .sandwich none order.recipe s).1 with cause | v <;>
      rw [hresult] at h <;> cases h
    rfl
  | pizza maker order =>
    simp only [make, Run.mapped] at h
    rcases hresult : (children .pizza maker order.recipe s).1 with cause | v <;>
      rw [hresult] at h <;> cases h
    rfl

end MealChoice

theorem MealChoice.make_confined (e : Engine σ) (registry : Registry Language σ) (room depth : Nat)
    (choice : MealChoice) :
    Run.Confined (depth + 1) (choice.make (e.children registry room depth)) := by
  cases choice with
  | sandwich order =>
    exact (e.children_confined registry room depth .sandwich none order.recipe).mapped Meal.sandwich
  | pizza maker order =>
    exact (e.children_confined registry room depth .pizza maker order.recipe).mapped Meal.pizza

theorem MealChoice.make_enters (e : Engine σ) (registry : Registry Language σ) (room depth : Nat)
    (choice : MealChoice) : Run.Enters (choice.make (e.children registry room depth)) := by
  cases choice with
  | sandwich order =>
    exact (e.children_enters registry room depth .sandwich none order.recipe).mapped Meal.sandwich
  | pizza maker order =>
    exact (e.children_enters registry room depth .pizza maker order.recipe).mapped Meal.pizza

/-- Under supervision the choice comes to what the last attempt makes of it. -/
theorem MealChoice.supervise_outcome (e : Engine σ) (registry : Registry Language σ)
    (room depth : Nat) (choice : MealChoice) (policy : FailurePolicy) (s : Progress σ) :
    let child := choice.make (e.children registry room depth)
    ∃ j, IsLeast {n | Settled (attempt child s.state n).result ∨ n + 1 = policy.maxAttempts} j ∧
      (∀ meal, (attempt child s.state j).result = .ok meal → meal.isAvailable = true) ∧
      Outcome.of (policy.supervise child s) =
        ⟨verdict policy.recovers (attempt child s.state j).result, (attempt child s.state j).state,
          s.events ++ attemptEvents child s.state (j + 1)⟩ := by
  intro child
  have hconfined : Run.Confined (depth + 1) child := choice.make_confined e registry room depth
  obtain ⟨j, hj, hsupervise⟩ :=
    policy.supervise_outcome hconfined (choice.make_enters e registry room depth) s.state
  refine ⟨j, hj, fun meal hok => ?_, ?_⟩
  · obtain ⟨before, hbefore⟩ := exists_attempt_eq child s.state j
    rw [hbefore] at hok
    exact isAvailable_of_make hok
  · have hafter := (hconfined.superviseFrom policy.recovers (policy.maxAttempts - 1)).outcome_of s
    exact hafter.trans (congrArg (Outcome.after s.events) hsupervise)

/-- The calls of the machine. -/
def Act.machineCall? : Act Language σ → Option CookingMethod
  | .called .cooking _ m _ _ => some m
  | _ => none

namespace CookingCommand

variable {i : Interpreter σ (algebra Language.cooking)} {children : ChildRunner Language σ}
  {policyFor : String → FailurePolicy}

theorem run_supervise_settle (l' : Language) (selector : Option String)
    (p : Program (algebra l') α) (meal : α → Meal) (s : Progress σ) :
    Plan.run (l := Language.cooking) i children policyFor
        (.supervise l' selector p fun outcome => .answer (settle meal outcome)) s =
      Run.mapped (settle id) ((policyFor (algebra l').name).supervise
        (Run.mapped meal (children l' selector p))) s := by
  simp only [Plan.run, FailurePolicy.supervise, Run.superviseFrom_mapped, Run.mapped]
  rcases superviseFrom (children l' selector p) _ _ s with ⟨cause | ⟨v | error⟩, t⟩ <;> rfl

theorem run_makeRandomMeal (s : Progress σ) :
    Plan.run (l := Language.cooking) i children policyFor makeRandomMeal.plan s =
      match i.run CookingMethod.chooseMeal s with
      | (.ok choice, t) => Run.mapped (settle id)
          ((policyFor (algebra (MealChoice.language choice)).name).supervise
            (MealChoice.make children choice)) t
      | (.error failure, t) => (.error (.interpreter failure), t) := by
  refine (Plan.run_call (l := Language.cooking) CookingMethod.chooseMeal _ s).trans ?_
  rcases i.run CookingMethod.chooseMeal s with ⟨failure | choice, t⟩
  · rfl
  · cases choice with
    | sandwich order => exact run_supervise_settle .sandwich none order.recipe Meal.sandwich t
    | pizza maker order => exact run_supervise_settle .pizza maker order.recipe Meal.pizza t

theorem runs_makeRandomMeal {choice : MealChoice} {s t : Progress σ}
    (hchoice : i.run CookingMethod.chooseMeal s = (.ok choice, t)) {level : Level Language σ}
    (h : Plan.Runs (l := Language.cooking) i children policyFor level makeRandomMeal.plan s) :
    ∃ u, level = choice.level u := by
  obtain ⟨reply, u, hreply, hruns⟩ := Plan.runs_call (l := Language.cooking) h
  obtain ⟨hsame, rfl⟩ := Prod.mk.inj (hreply.symm.trans hchoice)
  obtain rfl : reply = choice := Except.ok.inj hsame
  cases reply with
  | sandwich order => exact Plan.runs_supervise_answer (l := Language.cooking) hruns
  | pizza maker order => exact Plan.runs_supervise_answer (l := Language.cooking) hruns

theorem history_makeRandomMeal (i : Interpreter σ (algebra Language.cooking))
    (children : ChildRunner Language σ) (histories : ChildHistory Language σ)
    (policyFor : String → FailurePolicy) (selector : Option String) (s : Progress σ) : ∃ rest,
      Plan.history (l := Language.cooking) selector i children histories policyFor
          makeRandomMeal.plan s =
        .called .cooking selector CookingMethod.chooseMeal s.state
          (i CookingMethod.chooseMeal s.state).2 :: rest ∧
      ((∃ failure, (i CookingMethod.chooseMeal s.state).1 = .error failure) → rest = []) ∧
      ∀ act ∈ rest, ∃ (choice : MealChoice) (t : Progress σ),
        act ∈ histories (choice.level t).language (choice.level t).selector
          (choice.level t).program (choice.level t).start := by
  obtain ⟨rest, hhistory, hrest⟩ := Plan.history_call_cons (l := Language.cooking) i children histories
    policyFor selector CookingMethod.chooseMeal _ s
  refine ⟨rest, hhistory, ?_⟩
  rcases hrest with ⟨⟨failure, t, hfailure⟩, rfl⟩ | ⟨choice, t, hchoice, rfl⟩
  · simp
  · refine ⟨?_, fun act hact => ⟨choice, ?_⟩⟩
    · rintro ⟨failure, hfailure⟩
      simp only [Interpreter.run, hfailure] at hchoice
      cases hchoice
    · cases choice with
      | sandwich order => exact Plan.mem_history_supervise_answer (l := Language.cooking) hact
      | pizza maker order => exact Plan.mem_history_supervise_answer (l := Language.cooking) hact

/-- What the last attempt makes of the step: its own meal or failure, or an unavailable meal. -/
theorem settle_verdict (recovers : Bool) {r : Except FailureCause Meal}
    (hmeal : ∀ meal, r = .ok meal → meal.isAvailable = true) (frame : StepFrame) :
    let result := ((verdict recovers r).map (settle id)).mapError (ExecutionError.mk frame)
    (∀ reason, result = .ok (.unavailable reason) ↔ recovers = true ∧ ∃ error : ExecutionError,
      r = .error error.asChild ∧ error.isCancelled = false ∧ reason = error.root.message) ∧
    (∀ meal, result = .ok meal ∧ meal.isAvailable = true ↔ r = .ok meal) ∧
    ∀ error, result = .error error ↔ error.frame = frame ∧ r = .error error.cause ∧
      ¬ (recovers = true ∧
        ∃ inner : ExecutionError, error.cause = inner.asChild ∧ inner.isCancelled = false) := by
  intro result
  have hframe (error : ExecutionError) (cause : FailureCause) :
      (⟨frame, cause⟩ : ExecutionError) = error ↔ error.frame = frame ∧ cause = error.cause := by
    constructor
    · rintro rfl
      exact ⟨rfl, rfl⟩
    · rintro ⟨rfl, rfl⟩
      rfl
  rcases hverdict : verdict recovers r with cause | (meal | error)
  · obtain ⟨rfl, hpasses⟩ := verdict_eq_error_iff.1 hverdict
    have hresult : result = .error ⟨frame, cause⟩ := by simp only [result, hverdict]; rfl
    simp only [hresult, Except.error.injEq, reduceCtorEq, false_and, hframe]
    refine ⟨fun reason => ⟨False.elim, ?_⟩, fun _ => trivial, fun error => ⟨?_, ?_⟩⟩
    · rintro ⟨hrecovers, error, rfl, hcancelled, -⟩
      exact hpasses ⟨hrecovers, error, rfl, hcancelled⟩
    · rintro ⟨hsame, rfl⟩
      exact ⟨hsame, rfl, hpasses⟩
    · rintro ⟨hsame, hcause, -⟩
      exact ⟨hsame, hcause⟩
  · obtain rfl := verdict_eq_completed_iff.1 hverdict
    have havailable := hmeal meal rfl
    have hresult : result = .ok meal := by simp only [result, hverdict]; rfl
    simp only [hresult, Except.ok.injEq, reduceCtorEq, false_and, and_false, exists_false, iff_false,
      implies_true, and_true]
    refine ⟨?_, fun meal' => and_iff_left_of_imp ?_⟩
    · rintro reason rfl
      cases havailable
    · rintro rfl
      exact havailable
  · obtain ⟨hrecovers, rfl, hcancelled⟩ := verdict_eq_recovered_iff.1 hverdict
    have hresult : result = .ok (.unavailable error.root.message) := by
      simp only [result, hverdict]; rfl
    simp only [hresult, Except.ok.injEq, Except.error.injEq, Meal.unavailable.injEq, reduceCtorEq,
      iff_false, false_iff]
    refine ⟨fun reason => ⟨?_, ?_⟩, ?_, ?_⟩
    · rintro rfl
      exact ⟨hrecovers, error, rfl, hcancelled, rfl⟩
    · rintro ⟨-, ⟨frame', cause⟩, hsame, -, rfl⟩
      obtain ⟨rfl, rfl⟩ := FailureCause.child.inj hsame
      rfl
    · rintro meal ⟨rfl, havailable⟩
      cases havailable
    · rintro error' ⟨-, hcause, hpasses⟩
      exact hpasses ⟨hrecovers, error, hcause.symm, hcancelled⟩

end CookingCommand

theorem Program.lift_bind_of_error {A : Algebra} {κ : Type} {perform : Performer A σ ε}
    (note : Nat → A.Command → σ → List κ) {c : A.Command} {index : Nat} {s t : σ} {error : ε}
    (h : perform index c s = (.error error, t)) (f : A.Answer c → Program A β) :
    ((lift c).bind f).run perform index s = (.error error, t) ∧
      ((lift c).bind f).notes perform note index s = note index c s := by
  have hnoting : perform.noting note index c (s, []) = (.error error, t, note index c s) := by
    simp only [Performer.noting, h, List.nil_append]
  constructor
  · rw [run_bind, lift, run_step, h, proceed_error]
  · rw [notes, run_bind, lift, run_step, hnoting, proceed_error]

theorem Language.plan_recipe {l : Language} (hl : l = .sandwich ∨ l = .pizza)
    (c : (algebra l).Command) (frame : StepFrame) : ∃ m next,
      Hierarchy.plan l c frame = .call m next ∧ ∀ reply, ∃ v, next reply = .answer v := by
  rcases hl with rfl | rfl <;> cases c <;> exact ⟨_, _, rfl, fun v => ⟨v, rfl⟩⟩

namespace Engine

theorem machineCall?_of_mem_levelHistory {e : Engine σ} {registry : Registry Language σ}
    {children : ChildRunner Language σ} {histories : ChildHistory Language σ} {depth : Nat}
    {l : Language} (hl : l = .sandwich ∨ l = .pizza) {selector : Option String}
    {p : Program (algebra l) α} {s : Progress σ} {act : Act Language σ}
    (h : act ∈ e.levelHistory registry children histories depth l selector p s) :
    act.machineCall? = none := by
  obtain ⟨⟨index, command, state⟩, -, hact⟩ := (Program.mem_notes p 0 s).1 h
  simp only [stepHistory, List.mem_cons] at hact
  rcases hact with rfl | hact
  · rfl
  · rcases hpermit : e.permit registry l selector index state.state with cause | i <;>
      simp only [hpermit] at hact
    · cases hact
    · rcases List.mem_cons.1 hact with rfl | hact
      · rfl
      · obtain ⟨m, next, hplan, hnext⟩ := Language.plan_recipe hl command
          ⟨depth, index, (algebra l).describe command⟩
        rw [hplan, Plan.history_call hnext, List.mem_singleton] at hact
        rw [hact]
        rcases hl with rfl | rfl <;> rfl

theorem machineCall?_of_mem_childHistory {e : Engine σ} {registry : Registry Language σ}
    {room depth : Nat} {choice : MealChoice} {t : Progress σ} {act : Act Language σ}
    (h : act ∈ e.childHistory registry room depth (choice.level t).language (choice.level t).selector
      (choice.level t).program (choice.level t).start) : act.machineCall? = none := by
  have hlanguage : (choice.level t).language = .sandwich ∨ (choice.level t).language = .pizza := by
    cases choice
    · exact .inl rfl
    · exact .inr rfl
  cases room with
  | zero => cases h
  | succ room => exact machineCall?_of_mem_levelHistory hlanguage h

def randomMealFrame (depth index : Nat) : StepFrame :=
  ⟨depth, index, cookingAlgebra.describe CookingCommand.makeRandomMeal⟩

def randomMeal (e : Engine σ) (registry : Registry Language σ) (room depth : Nat)
    (selector : Option String) (index : Nat) : Run σ ExecutionError Meal :=
  e.step registry (e.children registry room depth) depth .cooking selector index
    CookingCommand.makeRandomMeal

def randomMealHistory (e : Engine σ) (registry : Registry Language σ) (room depth : Nat)
    (selector : Option String) (index : Nat) (s : σ) : History Language σ :=
  e.stepHistory registry (e.children registry room depth) (e.childHistory registry room depth) depth
    .cooking selector index CookingCommand.makeRandomMeal ⟨s, []⟩

section

variable (room depth : Nat) {e : Engine σ} {registry : Registry Language σ} {selector : Option String}
  {index : Nat} {s t : σ} {i : Interpreter σ (algebra Language.cooking)}
  (hpermit : e.permit registry .cooking selector index s = .ok i)

include hpermit

/-- The machine is asked once; what follows, if it chooses, is done by levels of recipes. -/
theorem randomMealHistory_eq : ∃ rest, e.randomMealHistory registry room depth selector index s =
      [.reached .cooking selector (randomMealFrame depth index) s,
        .dispatched .cooking selector (randomMealFrame depth index) s,
        .called .cooking selector CookingMethod.chooseMeal s (i CookingMethod.chooseMeal s).2] ++ rest ∧
    ((∃ failure, (i CookingMethod.chooseMeal s).1 = .error failure) → rest = []) ∧
    ∀ act ∈ rest, act.machineCall? = none := by
  let frame := randomMealFrame depth index
  obtain ⟨rest, hhistory, hnone, hrest⟩ := CookingCommand.history_makeRandomMeal i
    (e.children registry room depth) (e.childHistory registry room depth) e.policyFor selector
    ⟨s, [.dispatched frame]⟩
  refine ⟨rest, ?_, hnone, fun act hact => ?_⟩
  · refine (stepHistory_of_permit (l := Language.cooking) hpermit).trans ?_
    exact congrArg ([.reached .cooking selector frame s, .dispatched .cooking selector frame s] ++ ·)
      hhistory
  · obtain ⟨choice, t, hmem⟩ := hrest act hact
    exact machineCall?_of_mem_childHistory hmem

theorem randomMeal_eq : e.randomMeal registry room depth selector index ⟨s, []⟩ =
    let frame := randomMealFrame depth index
    let r := Plan.run (l := Language.cooking) i (e.children registry room depth) e.policyFor
      CookingCommand.makeRandomMeal.plan ⟨s, [.dispatched frame]⟩
    (r.1.mapError (.mk frame), r.2) :=
  step_of_permit (l := Language.cooking) hpermit

/-- If the machine does not choose, that is all, and its failure is that of the step. -/
theorem randomMeal_of_no_choice {failure : InterpreterFailure}
    (hcall : i CookingMethod.chooseMeal s = (.error failure, t)) :
    Run.outcome (e.randomMeal registry room depth selector index) s =
      ⟨.error ⟨randomMealFrame depth index, .interpreter failure⟩, t,
        [.dispatched (randomMealFrame depth index)]⟩ := by
  have hstep := randomMeal_eq room depth hpermit
  simp only [CookingCommand.run_makeRandomMeal, Interpreter.run, hcall] at hstep
  simp only [Run.outcome, hstep]
  rfl

/-- If the machine chooses, the recipe of its choice is attempted as its policy says, and the last attempt
is what the step comes to. -/
theorem randomMeal_of_choice {choice : MealChoice}
    (hcall : i CookingMethod.chooseMeal s = (.ok choice, t)) :
    let frame := randomMealFrame depth index
    let child := MealChoice.make (e.children registry room depth) choice
    let policy := e.policyFor (algebra (MealChoice.language choice)).name
    ∃ j, IsLeast {n | Settled (attempt child t n).result ∨ n + 1 = policy.maxAttempts} j ∧
      (∀ meal, (attempt child t j).result = .ok meal → meal.isAvailable = true) ∧
      Run.outcome (e.randomMeal registry room depth selector index) s =
        ⟨((verdict policy.recovers (attempt child t j).result).map
            (CookingCommand.settle id)).mapError (.mk frame),
          (attempt child t j).state, .dispatched frame :: attemptEvents child t (j + 1)⟩ := by
  intro frame child policy
  obtain ⟨j, hj, hmeal, hsupervise⟩ :=
    MealChoice.supervise_outcome e registry room depth choice policy ⟨t, [.dispatched frame]⟩
  refine ⟨j, hj, hmeal, ?_⟩
  have hsettle := congrArg (fun r : Outcome σ FailureCause (ChildOutcome Meal) =>
    (⟨(r.result.map (CookingCommand.settle id)).mapError (.mk frame), r.state, r.events⟩ :
      Outcome σ ExecutionError Meal)) hsupervise
  refine Eq.trans ?_ hsettle
  have hstep := randomMeal_eq room depth hpermit
  simp only [CookingCommand.run_makeRandomMeal, Interpreter.run, hcall] at hstep
  simp only [Run.outcome, hstep]
  rfl

/-- What would follow a random meal that fails is not run, so that the machine serves nothing. -/
theorem levelFrom_of_no_meal {error : ExecutionError}
    (herror : (Run.outcome (e.randomMeal registry room depth selector index) s).result = .error error)
    (f : Meal → Cooking β) :
    ((e.levelFrom registry room depth .cooking selector index
        (Cooking.makeRandomMeal.bind f)).outcome s).result = .error error ∧
      ((Cooking.makeRandomMeal.bind f).notes
        (e.step registry (e.children registry room depth) depth .cooking selector)
        (e.stepHistory registry (e.children registry room depth) (e.childHistory registry room depth)
          depth .cooking selector) index ⟨s, []⟩).filterMap Act.machineCall? =
        [CookingMethod.chooseMeal] := by
  rcases hrun : e.randomMeal registry room depth selector index ⟨s, []⟩ with ⟨error' | meal, t⟩
  · obtain rfl : error' = error := by
      simp only [Run.outcome, hrun] at herror
      exact Except.error.inj herror
    obtain ⟨hresult, hnotes⟩ := Program.lift_bind_of_error (e.stepHistory registry
      (e.children registry room depth) (e.childHistory registry room depth) depth .cooking selector)
      hrun f
    obtain ⟨rest, hacts, -, hmute⟩ := randomMealHistory_eq room depth hpermit
    have hcalls : rest.filterMap Act.machineCall? = [] := List.filterMap_eq_nil_iff.2 hmute
    refine ⟨?_, ?_⟩
    · have hlevel := congrFun (levelFrom_eq_run e registry room depth .cooking selector index
        (Cooking.makeRandomMeal.bind f)) ⟨s, []⟩
      exact congrArg Prod.fst (hlevel.trans hresult)
    · refine (congrArg (List.filterMap Act.machineCall?) (hnotes.trans hacts)).trans ?_
      rw [List.filterMap_append, hcalls]
      rfl
  · simp only [Run.outcome, hrun] at herror
    cases herror

end

/-- What a step that makes a random meal does. The machine chooses once, however often the recipe is
attempted, and its own failure is that of the step. Else the recipe of the choice, and nothing else, runs
up to the last attempt; an unavailable meal comes of a failure that the policy recovers, and else the meal
or the failure is that of the last attempt. What would follow a failure is not run: nothing is served. -/
theorem step_makeRandomMeal (e : Engine σ) (registry : Registry Language σ) (room depth : Nat)
    (selector : Option String) (index : Nat) (s : σ) (i : Interpreter σ (algebra Language.cooking))
    (hpermit : e.permit registry .cooking selector index s = .ok i) :
    let frame : StepFrame := ⟨depth, index, cookingAlgebra.describe CookingCommand.makeRandomMeal⟩
    let children : ChildRunner Language σ := e.children registry room depth
    let step := e.step registry children depth .cooking selector
    let note := e.stepHistory registry children (e.childHistory registry room depth) depth .cooking
      selector
    let o : Outcome σ ExecutionError Meal :=
      Run.outcome (step index CookingCommand.makeRandomMeal) s
    let acts := note index CookingCommand.makeRandomMeal ⟨s, []⟩
    let opening : History Language σ := [.reached .cooking selector frame s,
      .dispatched .cooking selector frame s,
      .called .cooking selector CookingMethod.chooseMeal s (i CookingMethod.chooseMeal s).2]
    (∃ rest, acts = opening ++ rest ∧ ∀ act ∈ rest, act.machineCall? = none) ∧
    (∀ failure t, i CookingMethod.chooseMeal s = (.error failure, t) →
      o = ⟨.error ⟨frame, .interpreter failure⟩, t, [.dispatched frame]⟩ ∧ acts = opening) ∧
    (∀ choice t, i CookingMethod.chooseMeal s = (.ok choice, t) →
      let child := MealChoice.make children choice
      let policy := e.policyFor (algebra (MealChoice.language choice)).name
      (∀ level, Plan.Runs (l := Language.cooking) i children e.policyFor level
        CookingCommand.makeRandomMeal.plan ⟨s, [.dispatched frame]⟩ →
          ∃ u, level = MealChoice.level choice u) ∧
      ∃ j, IsLeast {n | Settled (attempt child t n).result ∨ n + 1 = policy.maxAttempts} j ∧
        let last := attempt child t j
        o.state = last.state ∧ o.events = .dispatched frame :: attemptEvents child t (j + 1) ∧
        (∀ reason, o.result = .ok (.unavailable reason) ↔ policy = .recover ∧
          ∃ error : ExecutionError, last.result = .error error.asChild ∧ error.isCancelled = false ∧
            reason = error.root.message) ∧
        (∀ meal, o.result = .ok meal ∧ meal.isAvailable = true ↔ last.result = .ok meal) ∧
        ∀ error, o.result = .error error ↔ error.frame = frame ∧ last.result = .error error.cause ∧
          ¬ (policy = .recover ∧ ∃ inner : ExecutionError, error.cause = inner.asChild ∧
            inner.isCancelled = false)) ∧
    ∀ error, o.result = .error error → ∀ {β : Type} (f : Meal → Cooking β),
      ((e.levelFrom registry room depth .cooking selector index
        (Cooking.makeRandomMeal.bind f)).outcome s).result = .error error ∧
      ((Cooking.makeRandomMeal.bind f).notes step note index ⟨s, []⟩).filterMap Act.machineCall? =
        [CookingMethod.chooseMeal] := by
  intro frame children step note o acts opening
  obtain ⟨rest, hacts, hnone, hmute⟩ := randomMealHistory_eq room depth hpermit
  refine ⟨⟨rest, hacts, hmute⟩,
    fun failure t hcall => ⟨randomMeal_of_no_choice room depth hpermit hcall, ?_⟩,
    fun choice t hcall => ?_, fun error herror β f => levelFrom_of_no_meal room depth hpermit herror f⟩
  · rw [hnone ⟨failure, congrArg Prod.fst hcall⟩, List.append_nil] at hacts
    exact hacts
  · intro child policy
    obtain ⟨j, hj, hmeal, ho⟩ := randomMeal_of_choice room depth hpermit hcall
    have hverdict := CookingCommand.settle_verdict policy.recovers hmeal frame
    simp only [FailurePolicy.recovers_iff] at hverdict
    refine ⟨fun level => CookingCommand.runs_makeRandomMeal (t := ⟨t, [.dispatched frame]⟩)
      (by simp only [Interpreter.run, hcall]), j, hj, ?_⟩
    rw [show o = _ from ho]
    exact ⟨rfl, rfl, hverdict⟩

def insistentMachine (order : PizzaOrder) : Interpreter Nat (algebra Language.cooking) :=
  fun m calls => match m with
    | .chooseMeal => (.ok (.pizza none order), calls + 1)
    | .serve _ => (.ok (1 : UInt32), calls + 1)

def coldOven : Interpreter Nat (algebra Language.pizza) := fun m calls => match m with
  | .prepare _ => (.error (.unavailable "no dough"), calls + 1)
  | .top topping dough => (.ok (dough.add topping), calls + 1)
  | .bake dough minutes => (.ok (dough.bake minutes "nobody"), calls + 1)

def coldKitchen (order : PizzaOrder) : Registry Language Nat :=
  ⟨[⟨.cooking, none, insistentMachine order⟩, ⟨.pizza, none, coldOven⟩]⟩

def underPolicy (policy : FailurePolicy) : Engine Nat :=
  ⟨{}, Table.empty.insert "pizza" policy, fun _ => false⟩

def noDough : ExecutionError :=
  ⟨⟨1, 0, ⟨⟨"pizza"⟩, "PrepareDough", "medium"⟩⟩, .interpreter (.unavailable "no dough")⟩

theorem attempt_coldKitchen {order : PizzaOrder} (horder : Menu.housePizza = .ok order)
    (policy : FailurePolicy) (calls n : Nat) :
    attempt (MealChoice.make ((underPolicy policy).children (coldKitchen order) 16 0)
      (.pizza none order)) calls n =
        ⟨.error noDough.asChild, calls + n + 1, [.dispatched noDough.frame]⟩ := by
  have hmake (calls : Nat) : Run.outcome (MealChoice.make
      ((underPolicy policy).children (coldKitchen order) 16 0) (.pizza none order)) calls =
        ⟨.error noDough.asChild, calls + 1, [.dispatched noDough.frame]⟩ := by
    cases horder
    simp only [Run.outcome, MealChoice.make, Run.mapped, children_succ]
    rfl
  induction n with
  | zero => exact hmake calls
  | succ n ih => rw [attempt, ih, hmake, Nat.add_assoc calls]

theorem step_makeRandomMeal_coldKitchen : ∃ order, Menu.housePizza = .ok order ∧
    (∃ i, ∀ policy, (underPolicy policy).permit (coldKitchen order) .cooking none 0 0 = .ok i) ∧
    let step (policy : FailurePolicy) := (underPolicy policy).step (coldKitchen order)
      ((underPolicy policy).children (coldKitchen order) 16 0) 0 .cooking none
    let o (policy : FailurePolicy) : Outcome Nat ExecutionError Meal :=
      Run.outcome (step policy 0 CookingCommand.makeRandomMeal) 0
    (o .recover).result = .ok (.unavailable "resource unavailable: no dough") ∧
      (o .recover).state = 2 ∧
      (o (.retry 3)).result = .error ⟨⟨0, 0, ⟨⟨"cooking"⟩, "MakeRandomMeal", ""⟩⟩, noDough.asChild⟩ ∧
      (o (.retry 3)).state = 4 ∧
      ((Cooking.makeRandomMeal.bind Cooking.serve).notes (step (.retry 3))
        ((underPolicy (.retry 3)).stepHistory (coldKitchen order)
          ((underPolicy (.retry 3)).children (coldKitchen order) 16 0)
          ((underPolicy (.retry 3)).childHistory (coldKitchen order) 16 0) 0 .cooking none) 0
        ⟨0, []⟩).filterMap Act.machineCall? = [CookingMethod.chooseMeal] := by
  have hhouse : ∃ order, Menu.housePizza = .ok order := ⟨_, rfl⟩
  obtain ⟨order, horder⟩ := hhouse
  have hpermit (policy : FailurePolicy) : (underPolicy policy).permit (coldKitchen order) .cooking none
    0 0 = .ok (insistentMachine order) := rfl
  -- no attempt is settled, so all that the policy allows take place
  have hlast {policy : FailurePolicy} {j : Nat} (hj : IsLeast {n | Settled (attempt (MealChoice.make
      ((underPolicy policy).children (coldKitchen order) 16 0) (.pizza none order)) 1 n).result ∨
        n + 1 = policy.maxAttempts} j) : j + 1 = policy.maxAttempts := by
    rcases hj.1 with hsettled | hlast
    · rw [attempt_coldKitchen horder] at hsettled
      rcases hsettled with hroot | hrecoverable
      · cases hroot
      · cases hrecoverable
    · exact hlast
  obtain ⟨-, -, hrecover, -⟩ := step_makeRandomMeal (underPolicy .recover) (coldKitchen order) 16 0
    none 0 0 (insistentMachine order) (hpermit _)
  obtain ⟨-, -, hretry, hserved⟩ := step_makeRandomMeal (underPolicy (.retry 3)) (coldKitchen order) 16
    0 none 0 0 (insistentMachine order) (hpermit _)
  obtain ⟨-, j, hj, hstate, -, hunavailable, -⟩ := hrecover (.pizza none order) 1 rfl
  obtain ⟨-, j', hj', hstate', -, -, -, herror⟩ := hretry (.pizza none order) 1 rfl
  obtain rfl : j = 0 := Nat.succ.inj (hlast hj)
  obtain rfl : j' = 2 := Nat.succ.inj (hlast hj')
  rw [attempt_coldKitchen horder] at hstate hunavailable hstate' herror
  have hfailed := (herror ⟨⟨0, 0, ⟨⟨"cooking"⟩, "MakeRandomMeal", ""⟩⟩, noDough.asChild⟩).2
    ⟨rfl, rfl, fun hrecovers => by cases hrecovers.1⟩
  exact ⟨order, horder, ⟨_, hpermit⟩, (hunavailable _).2 ⟨rfl, noDough, rfl, by decide, by decide⟩,
    hstate, hfailed, hstate', (hserved _ hfailed Cooking.serve).2⟩

end Engine

end Brigade
