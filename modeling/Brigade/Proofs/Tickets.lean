import Brigade.Kitchen.Menu
import Brigade.Proofs.Accounting
import Brigade.Proofs.Crews
import Brigade.Proofs.Grouping
import Brigade.Proofs.Orderly
import Mathlib.Algebra.Group.Nat.Defs

/-! Tickets. The machine of a staff, whether it cooks or only records, numbers the meals it serves from 1
on, and nobody else gives a number. So over any runs the meal that is served with the `i`-th command to
serve has the number `i`: no number is left out or given twice, whatever comes of the other commands. -/

namespace Brigade

theorem Chef.nextTicket_chooseMeal (c : Chef) : c.chooseMeal.2.nextTicket = c.nextTicket := by
  simp only [chooseMeal, chooseSandwich, choosePizza]
  split
  · rfl
  · split
    · rfl
    · split <;> rfl

/-- Those who can be in the places of a kitchen. -/
inductive Crew
  | kitchen (k : Kitchen)
  | recorders (makers : List String) (choice : Option MealChoice)

namespace Crew

def staff : Crew → Store → Staff
  | kitchen k, store => k.staff store
  | recorders makers choice, store => Recorder.staff makers choice store

def machine : Crew → Store → Nat
  | kitchen _, store => store.chefs.length
  | recorders _ _, store => store.machineTickets.length

/-- The next ticket of the machine in the cell with number `n`. -/
def ticket? (n : Nat) : Crew → Store → Option UInt32
  | kitchen _, s => s.chefs[n]?.map Chef.nextTicket
  | recorders _ _, s => s.machineTickets[n]?

end Crew

def Language.servesMeal : (l : Language) → (Hierarchy.algebra l).Method → Bool
  | .cooking, CookingMethod.serve _ => true
  | .cooking, CookingMethod.chooseMeal => false
  | .probe, _ | .relay, _ | .sandwich, _ | .pizza, _ => false

def Event.isServe : Event → Bool
  | .dispatched frame => frame.command.algebra = cookingAlgebra.id && frame.command.name = "Serve"
  | .completed _ | .failed _ => false

def Act.servesMeal : Act Language Store → Bool
  | .called l _ m _ _ => l.servesMeal m
  | .reached _ _ _ _ | .dispatched _ _ _ _ => false

/-- The machine of a registry gives out the tickets: the next one with each meal that is served, and none
with any other call of anybody. -/
structure GivesTickets (registry : Registry Language Store) (ticket? : Store → Option UInt32) :
    Prop where
  serve : ∀ {selector i}, registry.resolve .cooking selector = .ok i → ∀ meal s ticket,
    ticket? s = some ticket →
      (i (.serve meal) s).1 = .ok ticket ∧ ticket? (i (.serve meal) s).2 = some (ticket + 1)
  others : ∀ {l selector i}, registry.resolve l selector = .ok i → ∀ m, l.servesMeal m = false →
    ∀ s, ticket? (i m s).2 = ticket? s

theorem Store.map_set_cell {τ κ : Type} {look : τ → κ} {default v : τ} {n : Nat} {cells : List τ}
    (h : look v = look (cell default n cells)) :
    (cells.set n v)[n]?.map look = cells[n]?.map look := by
  rcases hcell : cells[n]? with _ | w
  · rw [List.set_eq_of_length_le (List.getElem?_eq_none_iff.1 hcell), hcell]
  · have hlt : n < cells.length := (List.getElem?_eq_some_iff.1 hcell).1
    rw [List.getElem?_set_self hlt, Option.map_some, Option.map_some, h, cell_eq hcell]

theorem Kitchen.givesTickets (k : Kitchen) (store : Store) :
    GivesTickets (k.staff store).registry (Crew.ticket? store.chefs.length (.kitchen k)) where
  serve := by
    intro selector i hresolve meal s ticket hticket
    cases (k.hired_staff store).posted rfl hresolve
    obtain ⟨c, hcell, rfl⟩ := Option.map_eq_some_iff.1 hticket
    have hget : Store.cell (.ofSeed 0 []) store.chefs.length s.chefs = c := Store.cell_eq hcell
    have hlt : store.chefs.length < s.chefs.length := (List.getElem?_eq_some_iff.1 hcell).1
    simp only [Interpreter.within, Store.chef, hget, Chef.interpreter, Chef.serve, Crew.ticket?,
      List.getElem?_set_self hlt, Option.map_some]
    exact ⟨rfl, trivial⟩
  others := by
    intro l selector i hresolve m hm s
    cases (k.hired_staff store).posted rfl hresolve with
    | sandwich => cases m <;> rfl
    | house => rfl
    | maker hmans =>
      obtain ⟨n, rfl, -⟩ := hmans
      rfl
    | machine =>
      cases m with
      | serve meal => cases hm
      | chooseMeal => exact Store.map_set_cell (Chef.nextTicket_chooseMeal _)

theorem Recorder.givesTickets (makers : List String) (choice : Option MealChoice) (store : Store) :
    GivesTickets (Recorder.staff makers choice store).registry
      (Crew.ticket? store.machineTickets.length (.recorders makers choice)) where
  serve := by
    intro selector i hresolve meal s ticket hticket
    cases (hired_staff makers choice store).posted rfl hresolve
    have hget : Store.cell 1 store.machineTickets.length s.machineTickets = ticket :=
      Store.cell_eq hticket
    have hlt : store.machineTickets.length < s.machineTickets.length :=
      (List.getElem?_eq_some_iff.1 hticket).1
    simp only [Interpreter.within, Store.machine, hget, machine, Crew.ticket?,
      List.getElem?_set_self hlt]
    exact ⟨rfl, trivial⟩
  others := by
    intro l selector i hresolve m hm s
    cases (hired_staff makers choice store).posted rfl hresolve with
    | sandwich => rfl
    | house => rfl
    | maker hmans =>
      obtain ⟨n, rfl, -⟩ := hmans
      rfl
    | machine =>
      cases m with
      | serve meal => cases hm
      | chooseMeal =>
        have hset := Store.set_cell 1 store.machineTickets.length s.machineTickets
        cases choice <;> exact congrArg (·[store.machineTickets.length]?) hset

theorem Crew.givesTickets (crew : Crew) (store : Store) :
    GivesTickets (crew.staff store).registry (crew.ticket? (crew.machine store)) := by
  cases crew with
  | kitchen k => exact k.givesTickets store
  | recorders makers choice => exact Recorder.givesTickets makers choice store

theorem Crew.ticket?_staff (crew : Crew) (store : Store) :
    crew.ticket? (crew.machine store) (crew.staff store).store = some 1 := by
  cases crew with
  | kitchen k => simp [ticket?, machine, staff, k.chefs_staff, Chef.ofSeed]
  | recorders makers choice =>
    obtain ⟨more, hstore⟩ := (Recorder.hired_staff makers choice store).grows
    simp [ticket?, machine, staff, hstore, Recorder.house]

theorem Crew.resolve_relay (crew : Crew) (store : Store) (selector : Option String)
    (i : Interpreter Store (algebra Language.relay)) :
    (crew.staff store).registry.resolve .relay selector ≠ .ok i := by
  intro hresolve
  cases crew with
  | kitchen k => cases (k.hired_staff store).posted rfl hresolve
  | recorders makers choice => cases (Recorder.hired_staff makers choice store).posted rfl hresolve

theorem GivesTickets.ticket_of_moves {registry : Registry Language Store}
    {ticket? : Store → Option UInt32} (h : GivesTickets registry ticket?) {acts : History Language Store}
    {s t : Store} (hmoves : registry.Moves s acts t) {ticket : UInt32} (hs : ticket? s = some ticket) :
    ticket? t = some (ticket + UInt32.ofNat (acts.countP Act.servesMeal)) := by
  refine hmoves.keeps (I := fun acts u =>
    ticket? u = some (ticket + UInt32.ofNat (acts.countP Act.servesMeal))) ?_ ?_ (by simpa using hs)
  · intro before act u hact hbefore
    have hserves : act.servesMeal = false := by cases act <;> first | rfl | cases hact
    rw [hbefore, List.countP_append, List.countP_singleton, hserves]
    rfl
  · intro before l selector m i u hresolve hbefore
    -- tickets wrap around, so the count is added as a word and not yet as a number
    cases hm : l.servesMeal m with
    | false =>
      have hserves : (Act.called l selector m u (i m u).2).servesMeal = false := hm
      rw [h.others hresolve m hm, hbefore, List.countP_append, List.countP_singleton, hserves]
      rfl
    | true =>
      have hserves : (Act.called l selector m u (i m u).2).servesMeal = true := hm
      rw [List.countP_append, List.countP_singleton, hserves, if_pos rfl, UInt32.ofNat_add,
        ← UInt32.add_assoc]
      cases l with
      | cooking =>
        cases m with
        | chooseMeal => cases hm
        | serve meal => exact (h.serve hresolve meal u _ hbefore).2
      | probe | relay | sandwich | pizza => cases hm

theorem Event.isServe_dispatched {l : Language} {c : (algebra l).Command} {frame : StepFrame}
    (hcommand : frame.command = (algebra l).describe c) :
    (Event.dispatched frame).isServe = (l.opening c).any l.servesMeal := by
  simp only [isServe, hcommand]
  cases l with
  | probe => cases c; rfl
  | relay =>
    obtain ⟨env, leaf⟩ := c
    cases leaf <;> rfl
  | sandwich => cases c <;> rfl
  | pizza => cases c <;> rfl
  | cooking => cases c <;> rfl

theorem Orderly.countP_isServe {acts : History Language Store} (h : Orderly acts) :
    (acts.filterMap Act.event?).countP Event.isServe = acts.countP Act.servesMeal := by
  induction h with
  | nil => rfl
  | reached l selector frame state _ ih => exact ih
  | delegates l hl selector frame state c hcommand hopening _ ih =>
    have hserve := Event.isServe_dispatched hcommand
    have hseen : (.dispatched l selector frame state : Act Language Store).event? =
      some (.dispatched frame) := rfl
    rw [hopening] at hserve
    rw [List.filterMap_cons_some hseen, List.countP_cons, List.countP_cons, hserve, ih]
    rfl
  | @asks l hl selector frame state after c hcommand m hopening _ _ ih =>
    have hserve := Event.isServe_dispatched hcommand
    have hseen : (.dispatched l selector frame state : Act Language Store).event? =
      some (.dispatched frame) := rfl
    have hunseen : (Act.called l selector m state after).event? = none := rfl
    rw [hopening] at hserve
    rw [List.filterMap_cons_some hseen, List.filterMap_cons_none hunseen, List.countP_cons,
      List.countP_cons, List.countP_cons, hserve, ih]
    rfl

theorem Orderly.serve_dispatched {before rest : History Language Store} {l : Language}
    {selector : Option String} {frame : StepFrame} {state : Store}
    (h : Orderly (before ++ .dispatched l selector frame state :: rest))
    (hserve : (Event.dispatched frame).isServe = true) : l = .cooking ∧ ∃ meal after rest',
      frame.command = cookingAlgebra.describe (.serve meal) ∧
      rest = .called .cooking selector (CookingMethod.serve meal) state after :: rest' := by
  obtain ⟨-, c, hcommand, hcall⟩ := h.at_dispatch
  rw [Event.isServe_dispatched hcommand, Option.any_eq_true] at hserve
  obtain ⟨m, hm, hserves⟩ := hserve
  obtain ⟨after, rest', rfl⟩ := hcall m hm
  cases l with
  | cooking =>
    cases c with
    | makeSandwich | makePizza | makeCombo => cases hm
    | makeRandomMeal =>
      cases hm
      cases hserves
    | serve meal =>
      cases hm
      exact ⟨rfl, meal, after, rest', hcommand, rfl⟩
  | probe | relay | sandwich | pizza => cases hserves

section

variable {σ : Type}

/-- The command to serve the meal, carried out in the one state, is answered with the meal under the
ticket, and leaves the other. -/
def ServesUnder (i : Interpreter σ cookingAlgebra) (meal : Meal) (ticket : UInt32) (s t : σ) : Prop :=
  ∀ (children : ChildRunner Language σ) (policyFor : String → FailurePolicy) (newest : List Event),
    (CookingCommand.serve meal).plan.run i children policyFor ⟨s, newest⟩ =
      (.ok ⟨ticket, meal⟩, ⟨t, newest⟩)

theorem servesUnder {i : Interpreter σ cookingAlgebra} {meal : Meal} {ticket : UInt32} {s t : σ}
    (h : i (.serve meal) s = (.ok ticket, t)) : ServesUnder i meal ticket s t := by
  intro children policyFor newest
  refine (Plan.run_call (l := Language.cooking) (CookingMethod.serve meal) _ ⟨s, newest⟩).trans ?_
  simp only [Interpreter.run, h]
  rfl

theorem Order.meal_run {maker : Option String} {order : Order} {p : Cooking Meal}
    (h : order.meal maker = .ok p) : ∃ (c : CookingCommand) (f : CookingCommand.Answer c → Meal),
      ∀ {σ ε : Type} (perform : Performer cookingAlgebra σ ε),
        p.run perform = ((Program.lift (A := cookingAlgebra) c).map f).run perform := by
  cases order with
  | sandwich =>
    rw [meal, Built.transform] at h
    obtain ⟨sandwich, -, h⟩ := Built.andThen_eq_ok h
    cases h
    exact ⟨_, _, fun _ => rfl⟩
  | pizza =>
    rw [meal] at h
    obtain ⟨pizza, -, h⟩ := Built.andThen_eq_ok h
    cases maker with
    | none =>
      cases h
      exact ⟨_, _, fun _ => rfl⟩
    | some maker =>
      simp only [Built.transform, Cooking.makePizzaBy] at h
      obtain ⟨q, hq, h⟩ := Built.andThen_eq_ok h
      obtain ⟨name, -, hq⟩ := Built.andThen_eq_ok hq
      cases hq
      cases h
      exact ⟨_, _, fun _ => rfl⟩
  | combo =>
    rw [meal] at h
    obtain ⟨sandwich, -, h⟩ := Built.andThen_eq_ok h
    rw [Built.transform] at h
    obtain ⟨pizza, -, h⟩ := Built.andThen_eq_ok h
    cases h
    exact ⟨.makeCombo sandwich.recipe pizza.recipe, id,
      fun perform => (Program.run_bind_done perform _).symm⟩
  | random =>
    cases h
    exact ⟨.makeRandomMeal, id, fun perform => (Program.run_bind_done perform _).symm⟩

theorem Order.program_run {maker : Option String} {order : Order} {p : Cooking Served}
    (h : order.program maker = .ok p) : ∃ (c : CookingCommand) (f : CookingCommand.Answer c → Meal),
      ∀ {ε : Type} (perform : Performer cookingAlgebra σ ε) {s t : σ} {served : Served} {count : Nat},
        p.run perform 0 s = (.ok (served, count), t) → ∃ v u, perform 0 c s = (.ok v, u) ∧
          perform 1 (.serve (f v)) u = (.ok served, t) := by
  rw [program, Built.transform] at h
  obtain ⟨q, hq, h⟩ := Built.andThen_eq_ok h
  cases h
  obtain ⟨c, f, hrun⟩ := meal_run hq
  refine ⟨c, f, fun perform s t served count hserved => ?_⟩
  rw [Program.run_bind, hrun, Program.map, Program.run_bind] at hserved
  rcases hfirst : (Program.lift (A := cookingAlgebra) c).run perform 0 s with ⟨error | ⟨v, index⟩, u⟩
  · rw [hfirst] at hserved
    cases hserved
  · obtain ⟨hcommand, rfl⟩ := Program.of_run_lift perform hfirst
    rw [hfirst] at hserved
    have hsecond := Program.of_run_lift (c := CookingCommand.serve (f v)) perform hserved
    exact ⟨v, u, hcommand, hsecond.1⟩

theorem Engine.run_noting_of_execute_ok {L : Type} [Hierarchy L] [DecidableEq L] {β : Type}
    {e : Engine σ} {registry : Registry L σ} {l : L} {selector : Option String}
    {p : Program (algebra l) β} {s : σ} {v : β}
    (h : ((e.execute registry l selector p).outcome s).result = .ok v) :
    let o := (e.execute registry l selector p).outcome s
    let room := e.settings.maxDepth.toNat
    let perform := e.step registry (e.children registry room 0) 0 l selector
    let note := e.stepHistory registry (e.children registry room 0) (e.childHistory registry room 0) 0 l
      selector
    ∃ count t, p.run (perform.noting note) 0 (⟨s, []⟩, []) =
        (.ok (v, count), t, e.history registry room 0 l selector p ⟨s, []⟩) ∧
      o.state = t.state ∧ o.events = t.events ++ [.completed count] := by
  intro o room perform note
  have ho : o = (Outcome.of (p.run perform 0 ⟨s, []⟩)).reported := by
    simp only [o, execute_outcome, levelFrom_eq_run]
    rfl
  have hresult : o.result = .ok v := h
  have hhistory : e.history registry room 0 l selector p ⟨s, []⟩ =
      (p.run (perform.noting note) 0 (⟨s, []⟩, [])).2.2 := rfl
  rw [Program.run_noting perform note p 0 (⟨s, []⟩, [])] at ho
  rw [ho] at hresult ⊢
  rw [hhistory]
  clear ho hhistory
  generalize p.run (perform.noting note) 0 (⟨s, []⟩, []) = r at hresult ⊢
  rcases r with ⟨error | ⟨w, count⟩, t, acts⟩ <;> cases hresult
  exact ⟨count, t, rfl, rfl, rfl⟩

theorem Engine.step_serve {e : Engine σ} {registry : Registry Language σ}
    {children : ChildRunner Language σ} {depth : Nat} {selector : Option String} {index : Nat}
    {meal : Meal} {served : Served} {s t : Progress σ}
    (h : e.step registry children depth .cooking selector index (CookingCommand.serve meal) s =
      (.ok served, t)) (histories : ChildHistory Language σ) :
    let frame : StepFrame := ⟨depth, index, cookingAlgebra.describe (.serve meal)⟩
    served.meal = meal ∧ ∃ i, registry.resolve .cooking selector = .ok i ∧
      i (.serve meal) s.state = (.ok served.ticket, t.state) ∧
      e.stepHistory registry children histories depth .cooking selector index
        (CookingCommand.serve meal) s = [.reached .cooking selector frame s.state,
          .dispatched .cooking selector frame s.state,
          .called .cooking selector (CookingMethod.serve meal) s.state t.state] := by
  intro frame
  obtain ⟨i, hpermit, hplan⟩ := step_eq_ok h
  have hrun := (Plan.run_call (l := Language.cooking) (CookingMethod.serve meal) _
    (s.record (.dispatched frame))).symm.trans hplan
  have hstate : (s.record (.dispatched frame)).state = s.state := rfl
  simp only [Interpreter.run, hstate] at hrun
  rcases hcall : i (.serve meal) s.state with ⟨failure | ticket, after⟩ <;>
    simp only [hcall] at hrun <;> cases hrun
  refine ⟨rfl, i, (permit_eq_ok hpermit).2.2, hcall, ?_⟩
  have hhistory : (Hierarchy.plan Language.cooking (CookingCommand.serve meal) frame).history selector i
      children histories e.policyFor (s.record (.dispatched frame)) =
        [.called Language.cooking selector (CookingMethod.serve meal) s.state after] := by
    refine (Plan.history_call (fun ticket => ⟨_, rfl⟩) (s.record (.dispatched frame))).trans ?_
    rw [hstate, hcall]
  simp only [stepHistory, hpermit]
  exact congrArg (fun acts => Act.reached Language.cooking selector frame s.state ::
    Act.dispatched Language.cooking selector frame s.state :: acts) hhistory

/-- A run of an order that is served dispatches two commands at its outermost level, of which the second
serves the meal, and does nothing after that. -/
theorem Order.execute_ok {maker : Option String} {order : Order} {p : Cooking Served}
    (hp : order.program maker = .ok p) (e : Engine σ) (registry : Registry Language σ)
    (selector : Option String) (s : σ) {served : Served}
    (h : ((e.execute registry Language.cooking selector p).outcome s).result = .ok served) :
    let o := (e.execute registry Language.cooking selector p).outcome s
    let acts := e.history registry e.settings.maxDepth.toNat 0 Language.cooking selector p ⟨s, []⟩
    let second : StepFrame := ⟨0, 1, cookingAlgebra.describe (.serve served.meal)⟩
    (∃ c, framesAt 0 o.events = [⟨0, 0, cookingAlgebra.describe c⟩, second]) ∧
      ∃ before i state, registry.resolve .cooking selector = .ok i ∧
        acts = before ++ [.dispatched .cooking selector second state,
          .called .cooking selector (CookingMethod.serve served.meal) state o.state] ∧
        ServesUnder i served.meal served.ticket state o.state := by
  intro o acts second
  obtain ⟨count, t, hrun, hstate, hevents⟩ := Engine.run_noting_of_execute_ok (l := Language.cooking) h
  obtain ⟨c, f, hcommands⟩ := Order.program_run hp
  obtain ⟨v, ⟨u, done⟩, hfirst, hsecond⟩ := hcommands _ hrun
  obtain ⟨hstep₁, -⟩ := Performer.of_noting hfirst
  obtain ⟨hstep₂, hacts⟩ := Performer.of_noting hsecond
  obtain ⟨hmeal, i, hresolve, hcall, hserve⟩ := Engine.step_serve hstep₂
    (e.childHistory registry e.settings.maxDepth.toNat 0)
  rw [← hmeal] at hcall hserve hstep₂ hacts
  have hevents : o.events = t.events ++ [.completed count] := hevents
  have hstate : o.state = t.state := hstate
  refine ⟨⟨c, ?_⟩, done ++ [.reached .cooking selector second u.state], i, u.state, hresolve, ?_, ?_⟩
  · obtain ⟨_, hpermit₁, -⟩ := Engine.step_eq_ok hstep₁
    obtain ⟨_, hpermit₂, -⟩ := Engine.step_eq_ok hstep₂
    have hc := e.children_confined registry e.settings.maxDepth.toNat 0
    have hfirst := Engine.step_framesAt (l := Language.cooking) (c := c) hc hpermit₁
    have hsecond := Engine.step_framesAt (l := Language.cooking)
      (c := CookingCommand.serve served.meal) hc hpermit₂
    rw [hstep₁] at hfirst
    rw [hstep₂] at hsecond
    calc framesAt 0 o.events = framesAt 0 t.events := by
          rw [hevents, framesAt_append]
          exact List.append_nil _
      _ = framesAt 0 u.events ++ [second] := hsecond
      _ = [⟨0, 0, cookingAlgebra.describe c⟩, second] := congrArg (· ++ [second]) hfirst
  · rw [hstate, List.append_assoc]
    exact hacts.trans (congrArg (done ++ ·) hserve)
  · rw [hstate]
    exact servesUnder hcall

end

theorem Event.countP_isServe_filter (events : List Event) :
    (events.filter (Event.reaches 0)).countP Event.isServe = events.countP Event.isServe := by
  rw [List.countP_filter]
  congr 1
  funext event
  cases event <;> simp [isServe, reaches]

/-- The next ticket is one more than the number of commands to serve that the observers heard of. -/
theorem Crew.ticket?_stateAfter (crew : Crew) (store : Store) {acts : History Language Store} {s : Store}
    (hmoves : (crew.staff store).registry.Moves (crew.staff store).store acts s) (hacts : Orderly acts) :
    crew.ticket? (crew.machine store) s =
      some (1 + UInt32.ofNat ((acts.filterMap Act.event?).countP Event.isServe)) := by
  rw [hacts.countP_isServe]
  exact (crew.givesTickets store).ticket_of_moves hmoves (crew.ticket?_staff store)

theorem toNat_ticket {count : Nat} (h : count < 2 ^ 32 - 1) :
    (1 + UInt32.ofNat count).toNat = count + 1 := by
  rw [UInt32.toNat_add, UInt32.toNat_ofNat', UInt32.toNat_one]
  omega

/-- Tickets are consecutive, over any runs of a crew in which fewer meals are served than there are
tickets. Each command to serve is answered with its meal, under the number that it has among the commands
to serve that the observers hear of. A run that dispatches none leaves the next ticket as it is. And an
order that is served dispatches two commands at its outermost level, and the second serves its meal. -/
theorem Crew.tickets_consecutive (crew : Crew) (store : Store) (jobs : Shift Language Store)
    (hfew : (Shift.events (crew.staff store).registry jobs (crew.staff store).store).countP
      Event.isServe < 2 ^ 32 - 1) :
    let staff := crew.staff store
    let acts := Shift.history staff.registry jobs staff.store
    let events := Shift.events staff.registry jobs staff.store
    let s := Shift.state staff.registry jobs staff.store
    events.filter (Event.reaches 0) = acts.filterMap Act.event? ∧
    (∀ before l selector frame state rest, acts = before ++ .dispatched l selector frame state :: rest →
      (Event.dispatched frame).isServe = true → ∃ meal ticket i after rest',
        l = .cooking ∧ staff.registry.resolve .cooking selector = .ok i ∧
        frame.command = cookingAlgebra.describe (.serve meal) ∧
        rest = .called .cooking selector (CookingMethod.serve meal) state after :: rest' ∧
        ServesUnder i meal ticket state after ∧
        ticket.toNat = (before.filterMap Act.event?).countP Event.isServe + 1) ∧
    (∀ selector i, staff.registry.resolve .cooking selector = .ok i → ∀ meal,
      (∃ ticket after, ServesUnder i meal ticket s after ∧
        ticket.toNat = events.countP Event.isServe + 1) ∧
      ∀ job : Job Language Store, let o := job.outcome staff.registry s
        o.events.countP Event.isServe = 0 → (i (.serve meal) o.state).1 = (i (.serve meal) s).1) ∧
    ∀ maker (order : Order) p, order.program maker = .ok p → ∀ (e : Engine Store) selector t served,
      let o := (e.execute staff.registry Language.cooking selector p).outcome t
      let second : StepFrame := ⟨0, 1, cookingAlgebra.describe (.serve served.meal)⟩
      o.result = .ok served → (∃ c, framesAt 0 o.events = [⟨0, 0, cookingAlgebra.describe c⟩, second]) ∧
        ∃ before i state, staff.registry.resolve .cooking selector = .ok i ∧
          e.history staff.registry e.settings.maxDepth.toNat 0 Language.cooking selector p ⟨t, []⟩ =
            before ++ [.dispatched .cooking selector second state,
              .called .cooking selector (CookingMethod.serve served.meal) state o.state] ∧
          ServesUnder i served.meal served.ticket state o.state := by
  intro staff acts events s
  have hrelay := crew.resolve_relay store
  have hgives := crew.givesTickets store
  have hmoves : staff.registry.Moves staff.store acts s := Shift.history_moves _ jobs _
  have hacts : Orderly acts := Shift.history_orderly hrelay jobs staff.store
  have hseen : events.filter (Event.reaches 0) = acts.filterMap Act.event? :=
    Shift.filter_events staff.registry jobs staff.store
  have hcount : events.countP Event.isServe = (acts.filterMap Act.event?).countP Event.isServe := by
    rw [← hseen, Event.countP_isServe_filter]
  have hnext := crew.ticket?_stateAfter store hmoves hacts
  rw [← hcount] at hnext
  refine ⟨hseen, ?_, ?_, ?_⟩
  · intro before l selector frame state rest heq hserve
    rw [heq] at hmoves hacts hcount
    obtain ⟨rfl, meal, after, rest', hcommand, rfl⟩ := hacts.serve_dispatched hserve
    obtain ⟨rfl, hrest⟩ := hmoves.dispatch
    have hrest : staff.registry.Moves _ ([] ++ _) s := hrest
    obtain ⟨-, i, hresolve, rfl⟩ := hrest.call
    have hticket := crew.ticket?_stateAfter store hmoves.of_append.1 hacts.at_dispatch.1
    have hcall := hgives.serve hresolve meal _ _ hticket
    -- the ticket is a number as long as no meal of the whole history wraps it around
    have hfewer : (before.filterMap Act.event?).countP Event.isServe < 2 ^ 32 - 1 := by
      rw [List.filterMap_append, List.countP_append] at hcount
      change events.countP _ < _ at hfew
      omega
    exact ⟨meal, _, i, _, rest', rfl, hresolve, hcommand, rfl, servesUnder (Prod.ext hcall.1 rfl),
      toNat_ticket hfewer⟩
  · intro selector i hresolve meal
    have hcall := hgives.serve hresolve meal s _ hnext
    refine ⟨⟨_, _, servesUnder (Prod.ext hcall.1 rfl), toNat_ticket hfew⟩, ?_⟩
    intro job o hnone
    have hrun := hgives.ticket_of_moves (job.history_moves staff.registry s) hnext
    have hjob : (job.history staff.registry s).countP Act.servesMeal = 0 := by
      rw [← (job.history_orderly hrelay s).countP_isServe, ← job.filter_events,
        Event.countP_isServe_filter]
      exact hnone
    have hzero : UInt32.ofNat 0 = 0 := rfl
    rw [hjob, hzero, UInt32.add_zero] at hrun
    rw [hcall.1]
    exact (hgives.serve hresolve meal o.state _ hrun).1
  · intro maker order p hp e selector t served o second hserved
    exact Order.execute_ok hp e staff.registry selector t hserved

def closed : Meal := .unavailable "closed"

def serveClosed : Job Language Store := ⟨Engine.plain, .cooking, none, Cooking.serve closed⟩

def serveFrame : StepFrame := ⟨0, 0, ⟨⟨"cooking"⟩, "Serve", "meal unavailable (closed)"⟩⟩

def serveActs (s t : Store) : History Language Store :=
  [.reached .cooking none serveFrame s, .dispatched .cooking none serveFrame s,
    .called .cooking none (CookingMethod.serve closed) s t]

theorem Crew.tickets_consecutive_twice :
    let staff := (Crew.recorders [] none).staff .empty
    let jobs := [serveClosed, serveClosed]
    (Shift.events staff.registry jobs staff.store).countP Event.isServe < 2 ^ 32 - 1 ∧
      ∃ s t u ticket i, Shift.history staff.registry jobs staff.store = serveActs s t ++ serveActs t u ∧
        staff.registry.resolve .cooking none = .ok i ∧ ServesUnder i closed ticket t u ∧
        ticket.toNat = 2 := by
  intro staff jobs
  have hdepth : serveClosed.engine.settings.maxDepth.toNat = 16 := rfl
  have hevents : (Shift.events staff.registry jobs staff.store).countP Event.isServe = 2 := by
    simp only [jobs, Shift.events, Job.outcome, Engine.execute_outcome, Engine.levelFrom_eq_run, hdepth]
    rfl
  have hfew : (Shift.events staff.registry jobs staff.store).countP Event.isServe < 2 ^ 32 - 1 := by
    rw [hevents]
    decide
  let s := staff.store
  let t := Shift.state staff.registry [serveClosed] s
  let u := Shift.state staff.registry jobs s
  have hacts : Shift.history staff.registry jobs s = serveActs s t ++ serveActs t u := by
    simp only [jobs, s, t, u, Shift.history, Shift.state, Job.history, Job.outcome,
      Engine.execute_outcome, Engine.levelFrom_eq_run, hdepth]
    rfl
  obtain ⟨meal, ticket, i, after, rest, -, hresolve, -, hcall, hserves, hticket⟩ :=
    (Crew.tickets_consecutive (.recorders [] none) .empty jobs hfew).2.1
      (serveActs s t ++ [.reached .cooking none serveFrame t]) .cooking none serveFrame t
      [.called .cooking none (CookingMethod.serve closed) t u] (by simpa [serveActs] using hacts) rfl
  cases hcall
  exact ⟨hfew, s, t, u, ticket, i, hacts, hresolve, hserves, hticket⟩

end Brigade
