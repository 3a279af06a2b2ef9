import Brigade.Proofs.Shifts
import Brigade.Proofs.Outcome

/-! Direct languages, whose every command is one call of an interpreter. A run of such a program is a
sequence of turns: a command, the state in which it is carried out, and the interpreter's answer, which
decides how the program goes on. The result of a run, its events and its calls are read off its turns. -/

namespace Brigade

/-- A language whose commands call one method each, and give what it replies. -/
class Direct {L : Type} [Hierarchy L] (l : L) where
  method : (algebra l).Command → (algebra l).Method
  answer : (c : (algebra l).Command) → (algebra l).Reply (method c) → (algebra l).Answer c
  plan_eq : ∀ c frame,
    Hierarchy.plan l c frame = .call (method c) fun reply => .answer (answer c reply)

namespace Language

instance : Direct Language.sandwich where
  method
    | .start => SandwichMethod.start
    | .add component body => SandwichMethod.add component body
    | .finish body => SandwichMethod.finish body
  answer
    | .start => id
    | .add _ _ => id
    | .finish _ => id
  plan_eq c _ := by cases c <;> rfl

instance : Direct Language.pizza where
  method
    | .prepare size => PizzaMethod.prepare size
    | .top topping dough => PizzaMethod.top topping dough
    | .bake dough minutes => PizzaMethod.bake dough minutes
  answer
    | .prepare _ => id
    | .top _ _ => id
    | .bake _ _ => id
  plan_eq c _ := by cases c <;> rfl

end Language

variable {L : Type} [Hierarchy L] {l : L} {σ α β : Type}

/-- A command of a run, with the state in which it is carried out. -/
structure Turn (l : L) (σ : Type) : Type 1 where
  command : (algebra l).Command
  before : σ

section

variable [Direct l] (i : Interpreter σ (algebra l))

/-- What an interpreter answers to a command of a direct language. -/
def Interpreter.ask (c : (algebra l).Command) (s : σ) :
    Except InterpreterFailure ((algebra l).Answer c) × σ :=
  ((i (Direct.method c) s).1.map (Direct.answer c), (i (Direct.method c) s).2)

namespace Turn

def info (turn : Turn l σ) : CommandInfo := (algebra l).describe turn.command

def answer (turn : Turn l σ) : Except InterpreterFailure ((algebra l).Answer turn.command) :=
  (i.ask turn.command turn.before).1

def call (selector : Option String) (turn : Turn l σ) : Act L σ :=
  .called l selector (Direct.method turn.command) turn.before (i.ask turn.command turn.before).2

def answered? (read? : (c : (algebra l).Command) → (algebra l).Answer c → Option β)
    (turn : Turn l σ) : Option β :=
  (turn.answer i).toOption.bind (read? turn.command)

def Answered (turn : Turn l σ) : Prop := ∃ v, turn.answer i = .ok v

variable {i}

theorem not_answered {turn : Turn l σ} {failure : InterpreterFailure}
    (h : turn.answer i = .error failure) : ¬ turn.Answered i := by
  rintro ⟨v, hv⟩
  cases h.symm.trans hv

theorem answered?_ok {turn : Turn l σ} {v : (algebra l).Answer turn.command}
    (h : turn.answer i = .ok v)
    (read? : (c : (algebra l).Command) → (algebra l).Answer c → Option β) :
    turn.answered? i read? = read? turn.command v := by
  rw [answered?, h]
  rfl

theorem answered?_error {turn : Turn l σ} {failure : InterpreterFailure}
    (h : turn.answer i = .error failure)
    (read? : (c : (algebra l).Command) → (algebra l).Answer c → Option β) :
    turn.answered? i read? = none := by
  rw [answered?, h]
  rfl

end Turn

end

/-- The dispatches of commands one after the other, the first of them with the number `index`. -/
def dispatchesFrom (depth index : Nat) (infos : List CommandInfo) : List Event :=
  infos.mapIdx fun k info => .dispatched ⟨depth, index + k, info⟩

theorem dispatchesFrom_cons (depth index : Nat) (info : CommandInfo) (infos : List CommandInfo) :
    dispatchesFrom depth index (info :: infos) =
      .dispatched ⟨depth, index, info⟩ :: dispatchesFrom depth (index + 1) infos := by
  simp only [dispatchesFrom, List.mapIdx_cons, Nat.add_zero, Nat.add_right_comm, Nat.add_assoc]

namespace Engine

variable [DecidableEq L] [Direct l] {e : Engine σ} {registry : Registry L σ} {depth index : Nat}
  {selector : Option String} {i : Interpreter σ (algebra l)} {s t u : σ}

section

variable {children : ChildRunner L σ} {histories : ChildHistory L σ} {newest : List Event}

theorem step_direct (h : e.permit registry l selector index s = .ok i) (c : (algebra l).Command) :
    e.step registry children depth l selector index c ⟨s, newest⟩ =
      let frame : StepFrame := ⟨depth, index, (algebra l).describe c⟩
      ((i.ask c s).1.mapError fun failure => ⟨frame, .interpreter failure⟩,
        ⟨(i.ask c s).2, .dispatched frame :: newest⟩) := by
  simp only [step_of_permit (s := ⟨s, newest⟩) h, Direct.plan_eq, Plan.run_call, Interpreter.run,
    Progress.record, Interpreter.ask]
  rcases i (Direct.method c) s with ⟨failure | reply, t⟩ <;> rfl

theorem filter_isCall_stepHistory (h : e.permit registry l selector index s = .ok i)
    (c : (algebra l).Command) :
    (e.stepHistory registry children histories depth l selector index c ⟨s, newest⟩).filter Act.isCall =
      [Turn.call i selector ⟨c, s⟩] := by
  simp only [stepHistory_of_permit (s := ⟨s, newest⟩) h, Direct.plan_eq,
    Plan.history_call fun _ => ⟨_, rfl⟩]
  rfl

omit [Direct l] in
theorem filter_isCall_stepHistory_of_refused {cause : FailureCause}
    (h : e.permit registry l selector index s = .error cause) (c : (algebra l).Command) :
    (e.stepHistory registry children histories depth l selector index c ⟨s, newest⟩).filter Act.isCall =
      [] := by
  simp [stepHistory, h, Act.isCall]

end

/-- Running the program as the rest of a level that has performed `index` commands takes these turns and
comes to this result. -/
inductive Takes (e : Engine σ) (registry : Registry L σ) (depth : Nat) (selector : Option String)
    (i : Interpreter σ (algebra l)) : Program (algebra l) α → Nat → σ → List (Turn l σ) →
      Except ExecutionError α → σ → Prop
  | done (v : α) (index : Nat) (s : σ) : Takes e registry depth selector i (.done v) index s [] (.ok v) s
  /-- The command is refused, and it takes no turn. -/
  | refused {index : Nat} {s : σ} {cause : FailureCause} (c : (algebra l).Command)
    (bound : Bound (algebra l) ((algebra l).Answer c) α)
    (hpermit : e.permit registry l selector index s = .error cause) :
    Takes e registry depth selector i (.step c bound) index s []
      (.error ⟨⟨depth, index, (algebra l).describe c⟩, cause⟩) s
  | failed {index : Nat} {s t : σ} {failure : InterpreterFailure} (c : (algebra l).Command)
    (bound : Bound (algebra l) ((algebra l).Answer c) α)
    (hpermit : e.permit registry l selector index s = .ok i) (hask : i.ask c s = (.error failure, t)) :
    Takes e registry depth selector i (.step c bound) index s [⟨c, s⟩]
      (.error ⟨⟨depth, index, (algebra l).describe c⟩, .interpreter failure⟩) t
  /-- The program goes on with the answer. -/
  | answered {index : Nat} {s t u : σ} {turns : List (Turn l σ)} {r : Except ExecutionError α}
    (c : (algebra l).Command) (bound : Bound (algebra l) ((algebra l).Answer c) α)
    {v : (algebra l).Answer c} (hpermit : e.permit registry l selector index s = .ok i)
    (hask : i.ask c s = (.ok v, t))
    (h : Takes e registry depth selector i (Program.resume bound v) (index + 1) t turns r u) :
    Takes e registry depth selector i (.step c bound) index s (⟨c, s⟩ :: turns) r u

namespace Takes

variable {turns rest : List (Turn l σ)} {p : Program (algebra l) α} {r : Except ExecutionError α}

theorem bind {v : α} {f : α → Program (algebra l) β} {q : Except ExecutionError β}
    (h : e.Takes registry depth selector i p index s turns (.ok v) t)
    (hf : e.Takes registry depth selector i (f v) (index + turns.length) t rest q u) :
    e.Takes registry depth selector i (p.bind f) index s (turns ++ rest) q u := by
  generalize hr : Except.ok v = r at h
  induction h with
  | done w index s =>
    cases hr
    exact hf
  | refused | failed => cases hr
  | answered c bound hpermit hask _ ih =>
    refine .answered c (bound.snoc f) hpermit hask (ih ?_ hr)
    rwa [List.length_cons, ← Nat.add_assoc, Nat.add_right_comm] at hf

theorem bind_error {error : ExecutionError}
    (h : e.Takes registry depth selector i p index s turns (.error error) t)
    (f : α → Program (algebra l) β) :
    e.Takes registry depth selector i (p.bind f) index s turns (.error error) t := by
  generalize hr : Except.error error = r at h
  induction h with
  | done w index s => cases hr
  | refused c bound hpermit =>
    cases hr
    exact .refused c (bound.snoc f) hpermit
  | failed c bound hpermit hask =>
    cases hr
    exact .failed c (bound.snoc f) hpermit hask
  | answered c bound hpermit hask _ ih => exact .answered c (bound.snoc f) hpermit hask (ih hr)

end Takes

mutual

theorem exists_takes (hi : registry.resolve l selector = .ok i) : ∀ {α : Type}
    (p : Program (algebra l) α) (index : Nat) (s : σ),
      ∃ turns r t, e.Takes registry depth selector i p index s turns r t
  | _, .done v, index, s => ⟨[], .ok v, s, .done v index s⟩
  | _, .step c bound, index, s => by
    rcases hpermit : e.permit registry l selector index s with cause | j
    · exact ⟨_, _, _, .refused c bound hpermit⟩
    · obtain rfl : i = j := Except.ok.inj (hi.symm.trans (permit_eq_ok hpermit).2.2)
      rcases hask : i.ask c s with ⟨failure | v, t⟩
      · exact ⟨_, _, _, .failed c bound hpermit hask⟩
      · obtain ⟨turns, r, u, hrest⟩ := exists_takes_resume hi bound v (index + 1) t
        exact ⟨_, r, u, .answered c bound hpermit hask hrest⟩

theorem exists_takes_resume (hi : registry.resolve l selector = .ok i) : ∀ {α β : Type}
    (bound : Bound (algebra l) α β) (v : α) (index : Nat) (s : σ),
      ∃ turns r t, e.Takes registry depth selector i (Program.resume bound v) index s turns r t
  | _, _, .nil, v, index, s => ⟨[], .ok v, s, .done v index s⟩
  | _, _, .snoc bound f, v, index, s => by
    obtain ⟨turns, error | w, t, hbound⟩ := exists_takes_resume hi bound v index s
    · exact ⟨turns, .error error, t, hbound.bind_error f⟩
    · obtain ⟨rest, r, u, hrest⟩ := exists_takes hi (f w) (index + turns.length) t
      exact ⟨turns ++ rest, r, u, hbound.bind hrest⟩

end

namespace Takes

variable {turns : List (Turn l σ)} {p : Program (algebra l) α} {r : Except ExecutionError α}

theorem run_noting (h : e.Takes registry depth selector i p index s turns r t)
    (children : ChildRunner L σ) (histories : ChildHistory L σ) (newest : List Event)
    (before : History L σ) :
    ∃ acts, p.run ((e.step registry children depth l selector).noting
        (e.stepHistory registry children histories depth l selector)) index (⟨s, newest⟩, before) =
        (r.map (·, index + turns.length),
          ⟨t, (dispatchesFrom depth index (turns.map Turn.info)).reverse ++ newest⟩, before ++ acts) ∧
      acts.filter Act.isCall = turns.map (Turn.call i selector) := by
  let note := e.stepHistory registry children histories depth l selector
  induction h generalizing newest before with
  | done v index s => exact ⟨[], by simp [Except.map, dispatchesFrom], rfl⟩
  | @refused index s cause c bound hpermit =>
    refine ⟨note index c ⟨s, newest⟩, ?_, filter_isCall_stepHistory_of_refused hpermit c⟩
    rw [Program.run_step, Performer.noting, step_of_refused hpermit]
    rfl
  | @failed index s t failure c bound hpermit hask =>
    refine ⟨note index c ⟨s, newest⟩, ?_, filter_isCall_stepHistory hpermit c⟩
    rw [Program.run_step, Performer.noting, step_direct hpermit, hask]
    rfl
  | @answered index s t u turns r c bound v hpermit hask _ ih =>
    obtain ⟨acts, hrun, hcalls⟩ := ih (.dispatched ⟨depth, index, (algebra l).describe c⟩ :: newest)
      (before ++ note index c ⟨s, newest⟩)
    refine ⟨note index c ⟨s, newest⟩ ++ acts, ?_, ?_⟩
    · have hstep : (e.step registry children depth l selector).noting note index c
          (⟨s, newest⟩, before) =
          (.ok v, ⟨t, .dispatched ⟨depth, index, (algebra l).describe c⟩ :: newest⟩,
            before ++ note index c ⟨s, newest⟩) := by
        rw [Performer.noting, step_direct hpermit, hask]
        rfl
      rw [Program.run_step_ok hstep, hrun, List.length_cons, List.map_cons, dispatchesFrom_cons,
        Nat.add_right_comm, List.reverse_cons, List.append_assoc, List.append_assoc]
      rfl
    · rw [List.filter_append, filter_isCall_stepHistory hpermit, hcalls]
      rfl

theorem filter_isCall_history (h : e.Takes registry depth selector i p 0 s turns r t) (room : Nat) :
    (e.history registry room depth l selector p ⟨s, []⟩).filter Act.isCall =
      turns.map (Turn.call i selector) := by
  obtain ⟨acts, hrun, hcalls⟩ := h.run_noting (e.children registry room depth)
    (e.childHistory registry room depth) [] []
  rw [history, levelHistory, Program.notes, hrun]
  exact hcalls

/-- A run comes to the result of its turns, and its observers hear of each turn, and then of its end. -/
theorem execute (h : e.Takes registry 0 selector i p 0 s turns r t) :
    (e.execute registry l selector p).outcome s =
      (⟨r.map (·, turns.length), t, dispatchesFrom 0 0 (turns.map Turn.info)⟩ :
        Outcome σ ExecutionError (α × Nat)).reported := by
  obtain ⟨acts, hrun, -⟩ := h.run_noting (e.children registry e.settings.maxDepth.toNat 0)
    (e.childHistory registry e.settings.maxDepth.toNat 0) [] []
  have hlevel := Program.run_noting (e.step registry (e.children registry e.settings.maxDepth.toNat 0) 0 l
    selector) (e.stepHistory registry (e.children registry e.settings.maxDepth.toNat 0)
      (e.childHistory registry e.settings.maxDepth.toNat 0) 0 l selector) p 0 (⟨s, []⟩, [])
  rw [hrun] at hlevel
  rw [execute_outcome, levelFrom_eq_run, Run.outcome, hlevel]
  simp [Outcome.of, Progress.events]

theorem execute_ok {v : α} (h : e.Takes registry 0 selector i p 0 s turns (.ok v) t)
    {infos : List CommandInfo} (hinfos : turns.map Turn.info = infos) :
    (e.execute registry l selector p).outcome s =
      ⟨.ok v, t, dispatchesFrom 0 0 infos ++ [.completed infos.length]⟩ := by
  rw [h.execute, ← hinfos, List.length_map]
  rfl

theorem execute_error {error : ExecutionError}
    (h : e.Takes registry 0 selector i p 0 s turns (.error error) t)
    {infos : List CommandInfo} (hinfos : turns.map Turn.info = infos) :
    (e.execute registry l selector p).outcome s =
      ⟨.error error, t, dispatchesFrom 0 0 infos ++ [.failed error]⟩ := by
  rw [h.execute, ← hinfos]
  rfl

theorem answered_of_ok (h : e.Takes registry depth selector i p index s turns r t) {v : α}
    (hv : r = .ok v) : ∀ turn ∈ turns, turn.Answered i := by
  induction h with
  | done v index s => exact fun _ hmem => nomatch hmem
  | refused | failed => cases hv
  | @answered index s t u turns r c bound v' hpermit hask _ ih =>
    have hturn : Turn.Answered i (⟨c, s⟩ : Turn l σ) := ⟨v', congrArg Prod.fst hask⟩
    exact List.forall_mem_cons.2 ⟨hturn, ih hv⟩

/-- A run that fails was not answered at its last turn, and fails there; or else the step after its turns
was refused. -/
theorem of_error (h : e.Takes registry depth selector i p index s turns r t) {error : ExecutionError}
    (herror : r = .error error) :
    (∃ before turn failure, turns = before ++ [turn] ∧ (∀ other ∈ before, other.Answered i) ∧
      turn.answer i = .error failure ∧
      error = ⟨⟨depth, index + before.length, turn.info⟩, .interpreter failure⟩) ∨
    (∀ turn ∈ turns, turn.Answered i) ∧ error.frame.index = index + turns.length ∧
      e.permit registry l selector error.frame.index t = .error error.cause := by
  induction h with
  | done v index s => cases herror
  | refused c bound hpermit =>
    cases herror
    exact .inr ⟨fun _ hmem => (nomatch hmem), rfl, hpermit⟩
  | @failed index s t failure c bound hpermit hask =>
    cases herror
    exact .inl ⟨[], ⟨c, s⟩, failure, rfl, fun _ hmem => (nomatch hmem), congrArg Prod.fst hask, rfl⟩
  | @answered index s t u turns r c bound v hpermit hask _ ih =>
    have hturn : Turn.Answered i (⟨c, s⟩ : Turn l σ) := ⟨v, congrArg Prod.fst hask⟩
    rcases ih herror with ⟨before, turn, failure, rfl, hbefore, hanswer, rfl⟩ | ⟨hall, hindex, hrefused⟩
    · refine .inl ⟨⟨c, s⟩ :: before, turn, failure, rfl, List.forall_mem_cons.2 ⟨hturn, hbefore⟩, hanswer,
        ?_⟩
      rw [List.length_cons, Nat.add_right_comm]
      rfl
    · refine .inr ⟨List.forall_mem_cons.2 ⟨hturn, hall⟩, ?_, hrefused⟩
      rw [hindex, List.length_cons, Nat.add_right_comm]
      rfl

end Takes

end Engine

end Brigade
