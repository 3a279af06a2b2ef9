import Brigade.Proofs.Crews
import Brigade.Proofs.Outcome
import Brigade.Session.Equipment

/-! Children joined in a kitchen are isolated from each other. What older entries are in the log makes no
difference to any equipment, and a sandwich changes nothing else; so the pizza beside it goes the same
way with or without it, whichever of the two fails. -/

namespace Brigade

/-- What the results of two joined children make of their step: a value if both have one, or else the
failure of the first that fails. -/
def joined {α β γ : Type} (frame : StepFrame) (f : α → β → γ) :
    Except ExecutionError (α × Nat) → Except ExecutionError (β × Nat) → Except ExecutionError γ
  | .ok (v, _), .ok (w, _) => .ok (f v w)
  | .error error, _ => .error ⟨frame, error.asChild⟩
  | .ok _, .error error => .error ⟨frame, error.asChild⟩

namespace Engine

variable {L : Type} [Hierarchy L] [DecidableEq L] {σ : Type}

variable (e : Engine σ) (registry : Registry L σ) (room depth : Nat) {index : Nat} {l l₁ l₂ : L}
  {selector : Option String} {c : (algebra l).Command} {frame : StepFrame} {s : Progress σ}
  {i : Interpreter σ (algebra l)} {β γ : Type} {p₁ : Program (algebra l₁) β}
  {p₂ : Program (algebra l₂) γ} {f : β → γ → (algebra l).Answer c}

theorem step_join (hpermit : e.permit registry l selector index s.state = .ok i)
    (hframe : frame = ⟨depth, index, (algebra l).describe c⟩)
    (hplan : Hierarchy.plan l c frame = .join l₁ p₁ l₂ p₂ fun v w => .answer (f v w)) :
    let left := e.level registry room (depth + 1) l₁ none p₁ (s.record (.dispatched frame))
    let right := e.level registry room (depth + 1) l₂ none p₂ left.2
    e.step registry (e.children registry (room + 1) depth) depth l selector index c s =
      (joined frame f left.1 right.1, right.2) := by
  subst hframe
  intro left right
  simp only [step_eq, hpermit, hplan, Plan.run, children, LevelRunner.children, left, right]
  rcases e.level registry room (depth + 1) l₁ none p₁ _ with ⟨error | ⟨v, n⟩, t⟩ <;> dsimp only <;>
    rcases e.level registry room (depth + 1) l₂ none p₂ t with ⟨error' | ⟨w, m⟩, u⟩ <;> rfl

/-- The right child goes on in the state in which the left one ends, whether or not that failed. -/
theorem step_join_outcome (hpermit : e.permit registry l selector index s.state = .ok i)
    (hframe : frame = ⟨depth, index, (algebra l).describe c⟩)
    (hplan : Hierarchy.plan l c frame = .join l₁ p₁ l₂ p₂ fun v w => .answer (f v w))
    {left : Outcome σ ExecutionError (β × Nat)} {right : Outcome σ ExecutionError (γ × Nat)}
    (hleft : (e.level registry room (depth + 1) l₁ none p₁).outcome s.state = left)
    (hright : (e.level registry room (depth + 1) l₂ none p₂).outcome left.state = right) :
    Outcome.of (e.step registry (e.children registry (room + 1) depth) depth l selector index c s) =
      ⟨joined frame f left.result right.result, right.state,
        s.events ++ .dispatched frame :: (left.events ++ right.events)⟩ := by
  have hrun₁ := (e.level_confined registry room (depth + 1) l₁ none p₁).outcome_of
    (s.record (.dispatched frame))
  have hrun₂ := (e.level_confined registry room (depth + 1) l₂ none p₂).outcome_of
    (e.level registry room (depth + 1) l₁ none p₁ (s.record (.dispatched frame))).2
  rw [e.step_join registry room depth hpermit hframe hplan]
  generalize e.level registry room (depth + 1) l₁ none p₁ (s.record (.dispatched frame)) = r₁ at *
  generalize e.level registry room (depth + 1) l₂ none p₂ r₁.2 = r₂ at *
  have hleft' : Outcome.of r₁ = left.after (s.events ++ [.dispatched frame]) := by
    rw [hrun₁, Progress.events_record, ← hleft]
    rfl
  obtain ⟨hresult, hstate, hevents⟩ := Outcome.mk.inj hleft'
  rw [hstate, hright, hevents] at hrun₂
  obtain ⟨hresult', hstate', hevents'⟩ := Outcome.mk.inj hrun₂
  have htrace : r₂.2.events = s.events ++ .dispatched frame :: (left.events ++ right.events) := by
    rw [hevents']
    simp
  rw [Outcome.of, hresult, hresult', hstate', htrace]

end Engine

/-- The interpreter does the same from the changed state, and the change stays. -/
def Interpreter.Commutes {σ : Type} {A : Algebra} (f : σ → σ) (i : Interpreter σ A) : Prop :=
  ∀ m s, i m (f s) = ((i m s).1, f (i m s).2)

theorem Interpreter.Commutes.within {σ τ : Type} {A : Algebra} {i : Interpreter τ A} {f : τ → τ}
    (hi : i.Commutes f) {slot : Slot σ τ} {g : σ → σ} (hget : ∀ s, slot.get (g s) = f (slot.get s))
    (hset : ∀ own s, slot.set (f own) (g s) = g (slot.set own s)) : (i.within slot).Commutes g := by
  intro m s
  simp only [Interpreter.within, hget, hi m, hset]

def CallLog.withOlder (older : List String) (log : CallLog) : CallLog := ⟨log.newest ++ older⟩

def NoteBook.withOlder (older : List String) (b : NoteBook) : NoteBook := { b with log := b.log.withOlder older }

def Recorder.PizzaState.withOlder (older : List String) (s : Recorder.PizzaState) : Recorder.PizzaState :=
  { s with log := s.log.withOlder older }

def Store.withOlder (older : List String) (s : Store) : Store := { s with log := s.log.withOlder older }

def Progress.withOlder (older : List String) (s : Progress Store) : Progress Store :=
  { s with state := s.state.withOlder older }

theorem NoteBook.interpreter_commutes (older : List String) :
    NoteBook.interpreter.Commutes (NoteBook.withOlder older) := by
  intro m b
  cases m with
  | note text =>
    simp only [interpreter, withOlder]
    rcases FailureBudget.takeFor text b.failures with ⟨_ | failure, failures⟩ <;> rfl
  | recovered error => rfl

theorem Recorder.pizza_commutes (maker : String) (older : List String) :
    (Recorder.pizza maker).Commutes (Recorder.PizzaState.withOlder older) := by
  intro m s
  cases m with
  | prepare size =>
    obtain ⟨log, _ | budget⟩ := s
    · rfl
    · simp only [pizza, PizzaState.record, PizzaState.take, PizzaState.withOlder]
      rcases budget.take with ⟨_ | failure, left⟩ <;> rfl
  | _ => rfl

theorem Equipment.install_commutes (e : Equipment) (flagNumber : Nat) (store : Store)
    (older : List String) : (e.install flagNumber store).1.Commutes (Store.withOlder older) := by
  cases e with
  | noteBook failures =>
    exact (NoteBook.interpreter_commutes older).within (fun _ => rfl) (fun _ _ => rfl)
  | pizzaRecorder maker failure =>
    exact (Recorder.pizza_commutes maker older).within (fun _ => rfl) (fun _ _ => rfl)
  | machine choice =>
    rintro (_ | _) s
    · cases choice <;> rfl
    · rfl
  | station station => rintro (_ | _ | _) s <;> rfl
  | sandwichRecorder => rintro (_ | _ | _) s <;> rfl
  | _ => exact fun _ _ => rfl

theorem Equipment.install_sandwich (e : Equipment) (h : e.language = .sandwich) (flagNumber : Nat)
    (store : Store) (m : (algebra e.language).Method) (s : Store) : ∃ added,
      ((e.install flagNumber store).1 m s).2 = { s with log := ⟨added ++ s.log.newest⟩ } := by
  cases e with
  | station station => exact ⟨[], by cases m <;> rfl⟩
  | sandwichRecorder => cases m <;> exact ⟨[_], rfl⟩
  | _ => cases h

/-- Every interpreter of the registry is that of some equipment. -/
def Registry.Equipped (r : Registry Language Store) : Prop :=
  ∀ b ∈ r.bindings, ∃ (e : Equipment) (selector : Option String) (flagNumber : Nat) (store : Store),
    b = ⟨e.language, selector, (e.install flagNumber store).1⟩

namespace Registry.Equipped

variable {r : Registry Language Store}

theorem empty : Registry.Equipped .empty := nofun

theorem bind (staff : Staff) (h : staff.registry.Equipped) (e : Equipment)
    (selector : Option String) (flagNumber : Nat) :
    (staff.bind e.language selector (e.install flagNumber staff.store)).registry.Equipped := by
  intro b hb
  rcases Registry.eq_or_mem_of_mem_bind hb with rfl | hb
  · exact ⟨e, selector, flagNumber, staff.store, rfl⟩
  · exact h b hb

theorem foldl {f : Staff → String → Staff}
    (hf : ∀ staff maker, staff.registry.Equipped → (f staff maker).registry.Equipped)
    (makers : List String) {staff : Staff} (h : staff.registry.Equipped) :
    (makers.foldl f staff).registry.Equipped :=
  List.foldlRecOn makers f h fun staff hstaff maker _ => hf staff maker hstaff

end Registry.Equipped

theorem Kitchen.equipped_staff (k : Kitchen) (store : Store) : (k.staff store).registry.Equipped := by
  have hoven (selector : Option String) (maker : String) (staff : Staff)
      (h : staff.registry.Equipped) : (k.addOven selector maker staff).registry.Equipped :=
    .bind staff h (.oven ⟨maker⟩ k.doughStock) selector 0
  have hstation := Registry.Equipped.bind ⟨.empty, store⟩ .empty (.station k.station) none 0
  have hhouse := hoven none houseMaker _ hstation
  have hchef := Registry.Equipped.bind _ hhouse (.chef (.ofSeed k.seed k.makers)) none 0
  exact .foldl (fun staff maker => hoven (some maker) maker staff) k.makers hchef

theorem Recorder.equipped_staff (makers : List String) (choice : Option MealChoice) (store : Store) :
    (Recorder.staff makers choice store).registry.Equipped := by
  have hmaker (selector : Option String) (maker : String) (staff : Staff)
      (h : staff.registry.Equipped) : (addMaker selector maker staff).registry.Equipped :=
    .bind staff h (.pizzaRecorder maker none) selector 0
  have hsandwich := Registry.Equipped.bind ⟨.empty, store⟩ .empty .sandwichRecorder none 0
  have hhouse := hmaker none houseMaker _ hsandwich
  have hmachine := Registry.Equipped.bind _ hhouse (.machine choice) none 0
  exact .foldl (fun staff maker => hmaker (some maker) maker staff) makers hmachine

namespace Registry.Equipped

variable {r : Registry Language Store} {l : Language} {selector : Option String}
  {i : Interpreter Store (algebra l)}

theorem commutes (h : r.Equipped) (hresolve : r.resolve l selector = .ok i) (older : List String) :
    i.Commutes (Store.withOlder older) := by
  obtain ⟨e, _, flagNumber, store, heq⟩ := h _ (Registry.mem_of_resolve hresolve)
  cases heq
  exact e.install_commutes flagNumber store older

theorem sandwich (h : r.Equipped) (hresolve : r.resolve l selector = .ok i) (hl : l = .sandwich)
    (m : (algebra l).Method) (s : Store) : ∃ added,
      (i m s).2 = { s with log := ⟨added ++ s.log.newest⟩ } := by
  obtain ⟨e, _, flagNumber, store, heq⟩ := h _ (Registry.mem_of_resolve hresolve)
  cases heq
  exact e.install_sandwich hl flagNumber store m s

end Registry.Equipped

namespace Engine

variable {e : Engine Store} {flag : Nat} {registry : Registry Language Store}

/-- Neither an engine whose runs a flag cancels nor equipment looks at the entries in the log. -/
theorem hides_withOlder (hflag : e.cancelled = (Store.flag flag).get) (h : registry.Equipped)
    (older : List String) : e.Hides registry (Progress.withOlder older) where
  permit l selector index s := by
    simp only [permit, hflag]
    rfl
  call hresolve m s := by
    have hcall := h.commutes hresolve older m s.state
    simp only [Interpreter.run, Progress.withOlder] at hcall ⊢
    rw [hcall]

theorem level_withOlder (hflag : e.cancelled = (Store.flag flag).get) (h : registry.Equipped)
    (older : List String) (room depth : Nat) (l : Language) (selector : Option String) {β : Type}
    (p : Program (algebra l) β) :
    Run.Commutes (Progress.withOlder older) (e.level registry room depth l selector p) := by
  have hhides := hides_withOlder hflag h older
  rw [level_eq_levelFrom, levelFrom_eq_run]
  exact hhides.run_commutes
    (fun l selector _ p => hhides.children_commute (fun _ _ _ => rfl) l selector p)
    (fun _ _ _ => rfl) l selector 0 p

theorem level_sandwich (h : registry.Equipped) (room depth : Nat) (selector : Option String)
    {β : Type} (p : Program (algebra Language.sandwich) β) (s : Progress Store) : ∃ added,
      (e.level registry room depth .sandwich selector p s).2.state =
        { s.state with log := ⟨added ++ s.state.log.newest⟩ } := by
  rw [level_eq_levelFrom, levelFrom_eq_run]
  refine Program.run_invariant (J := fun t : Progress Store => ∃ added,
    t.state = { s.state with log := ⟨added ++ s.state.log.newest⟩ }) ?_ p 0 ⟨[], rfl⟩
  rintro index c t ⟨added, ht⟩
  rw [step_eq]
  rcases hpermit : e.permit registry .sandwich selector index t.state with cause | i
  · exact ⟨added, ht⟩
  · have hcall (m : SandwichMethod) := h.sandwich (permit_eq_ok hpermit).2.2 rfl m t.state
    have hplan : ∃ m, ∀ frame u, ((Hierarchy.plan Language.sandwich c frame).run i
        (e.children registry room depth) e.policyFor u).2.state = (i m u.state).2 := by
      cases c with
      | start => exact ⟨.start, fun _ u => Plan.state_run_call_answer _ u⟩
      | add component body => exact ⟨.add component body, fun _ u => Plan.state_run_call_answer _ u⟩
      | finish body => exact ⟨.finish body, fun _ u => Plan.state_run_call_answer _ u⟩
    obtain ⟨m, hm⟩ := hplan
    obtain ⟨more, hmore⟩ := hcall m
    have hstate : t.state.log.newest = added ++ s.state.log.newest := by rw [ht]
    refine ⟨more ++ added, (hm _ _).trans (hmore.trans ?_)⟩
    rw [hstate, ht, List.append_assoc]

theorem level_outcome_withOlder (hflag : e.cancelled = (Store.flag flag).get) (h : registry.Equipped)
    (older : List String) (room depth : Nat) (l : Language) (selector : Option String) {β : Type}
    (p : Program (algebra l) β) (s : Store) :
    (e.level registry room depth l selector p).outcome (s.withOlder older) =
      let o := (e.level registry room depth l selector p).outcome s
      { o with state := o.state.withOlder older } :=
  congrArg Outcome.of (level_withOlder hflag h older room depth l selector p ⟨s, []⟩)

/-- A kitchen's registry, or that of recording interpreters in the same places. -/
inductive OfKitchen : Registry Language Store → Prop
  | kitchen (k : Kitchen) (store : Store) : OfKitchen (k.staff store).registry
  | recorders (makers : List String) (choice : Option MealChoice) (store : Store) :
    OfKitchen (Recorder.staff makers choice store).registry

theorem OfKitchen.equipped (h : OfKitchen registry) : registry.Equipped := by
  cases h with
  | kitchen k store => exact k.equipped_staff store
  | recorders makers choice store => exact Recorder.equipped_staff makers choice store

/-- The two halves of a combo are isolated from each other. The step gives what each half gives alone,
from the state in which the step begins; the pizza is made even if the sandwich fails, with the events
and the changes that it makes alone, over the log entries of the sandwich. -/
theorem makeCombo_isolated (hflag : e.cancelled = (Store.flag flag).get) (hregistry : OfKitchen registry)
    (room depth : Nat) (selector : Option String) (index : Nat) (t : Progress Store)
    {i : Interpreter Store (algebra Language.cooking)}
    (hpermit : e.permit registry .cooking selector index t.state = .ok i) (sandwich : SandwichRecipe)
    (pizza : PizzaRecipe) :
    let c : (algebra Language.cooking).Command := CookingCommand.makeCombo sandwich pizza
    let frame : StepFrame := ⟨depth, index, (algebra Language.cooking).describe c⟩
    let rs := (e.level registry room (depth + 1) .sandwich none sandwich).outcome t.state
    let rp := (e.level registry room (depth + 1) .pizza none pizza).outcome t.state
    let o := Outcome.of
      (e.step registry (e.children registry (room + 1) depth) depth .cooking selector index c t)
    o.result = joined frame Meal.combo rs.result rp.result ∧
    o.events = t.events ++ .dispatched frame :: (rs.events ++ rp.events) ∧
    ∃ ms mp, rs.state = { t.state with log := ⟨ms ++ t.state.log.newest⟩ } ∧
      rp.state.log.newest = mp ++ t.state.log.newest ∧
      o.state = { rp.state with log := ⟨mp ++ (ms ++ t.state.log.newest)⟩ } := by
  intro c frame rs rp o
  have hequipped := hregistry.equipped
  -- Both halves start over the same entries; the pizza beside the sandwich finds more of them.
  let bare : Store := { t.state with log := .empty }
  let ro := (e.level registry room (depth + 1) .pizza none pizza).outcome bare
  have halone (older : List String) : (e.level registry room (depth + 1) .pizza none pizza).outcome
      (bare.withOlder older) = { ro with state := ro.state.withOlder older } :=
    level_outcome_withOlder hflag hequipped older room (depth + 1) .pizza none pizza bare
  have hrp : rp = { ro with state := ro.state.withOlder t.state.log.newest } := halone t.state.log.newest
  obtain ⟨ms, hrs⟩ : ∃ ms, rs.state = bare.withOlder (ms ++ t.state.log.newest) :=
    level_sandwich hequipped room (depth + 1) none sandwich ⟨t.state, []⟩
  have hright : (e.level registry room (depth + 1) .pizza none pizza).outcome rs.state =
      { rp with state := ro.state.withOlder (ms ++ t.state.log.newest) } := by rw [hrs, halone, hrp]
  have hframe : frame = ⟨depth, index, (algebra Language.cooking).describe c⟩ := rfl
  have ho := e.step_join_outcome registry room depth hpermit hframe rfl rfl hright
  refine ⟨congrArg Outcome.result ho, congrArg Outcome.events ho, ms, ro.state.log.newest, hrs, ?_, ?_⟩
  · rw [hrp]
    rfl
  · rw [hrp]
    exact congrArg Outcome.state ho

def flagged : Engine Store := ⟨{}, .empty, (Store.flag 0).get⟩

def bareSandwich : Program (algebra Language.sandwich) Sandwich :=
  SandwichRecipe.start.bind SandwichRecipe.finish

def barePizza : Program (algebra Language.pizza) Pizza :=
  (PizzaRecipe.prepare .small).bind fun dough => PizzaRecipe.bakeFor dough 10

theorem makeCombo_isolated_bareSandwich :
    let staff := Kitchen.onePortion.staff .empty
    let c : (algebra Language.cooking).Command := CookingCommand.makeCombo bareSandwich barePizza
    let o := Outcome.of (flagged.step staff.registry (flagged.children staff.registry 16 0) 0 .cooking
      none 0 c ⟨staff.store, []⟩)
    OfKitchen staff.registry ∧
      (∃ i, flagged.permit staff.registry .cooking none 0 staff.store = .ok i) ∧
      o.result = .error ⟨⟨0, 0, ⟨⟨"cooking"⟩, "MakeCombo", ""⟩⟩,
        .child ⟨1, 1, ⟨⟨"sandwich"⟩, "FinishSandwich", "0 components"⟩⟩
          (.interpreter (.rejected "nothing between the bread"))⟩ ∧
      (Store.oven 0).get staff.store = some 1 ∧ (Store.oven 0).get o.state = some 0 := by
  intro staff c o
  have hkitchen : OfKitchen staff.registry := .kitchen .onePortion .empty
  have hpermit : ∃ i, flagged.permit staff.registry .cooking none 0 staff.store = .ok i := ⟨_, rfl⟩
  obtain ⟨i, hi⟩ := hpermit
  obtain ⟨hresult, -, ms, mp, -, -, hstate⟩ := makeCombo_isolated (e := flagged) rfl hkitchen 15 0 none 0
    ⟨staff.store, []⟩ hi bareSandwich barePizza
  refine ⟨hkitchen, ⟨i, hi⟩, hresult.trans ?_, rfl, (congrArg (Store.oven 0).get hstate).trans ?_⟩
  · simp only [Run.outcome, level_eq_levelFrom, levelFrom_eq_run]
    rfl
  · simp only [Run.outcome, level_eq_levelFrom, levelFrom_eq_run]
    rfl

end Engine

end Brigade
