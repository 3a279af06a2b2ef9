import Brigade.Proofs.Abreast
import Brigade.Proofs.Crews
import Brigade.Proofs.Recipes

/-! Orders carried out by a kitchen and by recording interpreters. An order within the limits of the
kitchen runs abreast on any two staffs that are ready for it: the same commands are dispatched, and either
the same meal is served or both runs are stopped, at the same step and for the same reason, which is never
that an interpreter failed. -/

namespace Brigade

namespace Engine

/-- Whether runs are cancelled depends on the flags alone. -/
def ReadsFlags (e : Engine Store) : Prop := ∀ s t, s.flags = t.flags → e.cancelled s = e.cancelled t

/-- What can stop an order that is within the limits of the kitchen, if its pizza is baked under
`selector`. -/
inductive Hinders (e : Engine Store) (makers : List String) (selector : Option String) (s : Store) :
    FailureCause → Prop
  | cancelled (h : e.cancelled s = true) : Hinders e makers selector s .cancelled
  | stepLimit (h : 0 < e.settings.maxSteps.toNat) :
    Hinders e makers selector s (.stepLimit e.settings.maxSteps.toNat)
  | tooDeep (h : e.settings.maxDepth.toNat = 0) : Hinders e makers selector s (.tooDeep 0)
  | stranger {maker : String} (hselector : selector = some maker) (hmaker : maker ∉ makers) :
    Hinders e makers selector s (.unbound ⟨pizzaAlgebra.id, some maker⟩)

theorem Hinders.of_default {e : Engine Store} {makers : List String} {selector : Option String}
    {s : Store} {cause : FailureCause} (h : e.Hinders makers selector s cause)
    (hsettings : e.settings = .default) (hcancelled : e.cancelled s = false) :
    ∃ maker, selector = some maker ∧ maker ∉ makers ∧
      cause = .unbound ⟨pizzaAlgebra.id, some maker⟩ := by
  cases h with
  | cancelled h => simp [hcancelled] at h
  | stepLimit h =>
    rw [hsettings] at h
    exact absurd h (by decide)
  | tooDeep h =>
    rw [hsettings] at h
    exact absurd h (by decide)
  | stranger hselector hmaker => exact ⟨_, hselector, hmaker, rfl⟩

end Engine

/-- An order within the limits of the kitchen, carried out and served: the place of its pizza maker, the
meal that it asks for, and its program. -/
inductive Serving (limit : Nat) : Option String → Meal → Cooking Served → Prop
  | sandwich {order : SandwichOrder} (hheight : order.components.length ≤ limit) :
    Serving limit none (.sandwich ⟨order.components⟩)
      (((Cooking.makeSandwich order.recipe).map .sandwich).bind Cooking.serve)
  | pizza {order : PizzaOrder} (htoppings : order.toppings.length ≤ Oven.maxToppings) :
    Serving limit none (.pizza ⟨order.size, order.toppings, order.minutes, houseMaker⟩)
      (((Cooking.makePizza order.recipe).map .pizza).bind Cooking.serve)
  | pizzaBy {order : PizzaOrder} {name maker : String} {p : Cooking Pizza}
    (hname : Cooking.makerOfText name = .ok maker)
    (htoppings : order.toppings.length ≤ Oven.maxToppings)
    (hp : Cooking.makePizzaBy name order.recipe = .ok p) :
    Serving limit (some maker) (.pizza ⟨order.size, order.toppings, order.minutes, maker⟩)
      ((p.map .pizza).bind Cooking.serve)
  | combo {sandwich : SandwichOrder} {pizza : PizzaOrder}
    (hheight : sandwich.components.length ≤ limit)
    (htoppings : pizza.toppings.length ≤ Oven.maxToppings) :
    Serving limit none
      (.combo ⟨sandwich.components⟩ ⟨pizza.size, pizza.toppings, pizza.minutes, houseMaker⟩)
      ((Cooking.makeCombo sandwich.recipe pizza.recipe).bind Cooking.serve)

/-- One engine with two staffs that have the same makers, and the place of the pizza maker. -/
structure Rehearsal where
  engine : Engine Store
  makers : List String
  selector : Option String
  left : Staff
  right : Staff

namespace Rehearsal

structure Ready (g : Rehearsal) (limit : Nat) : Prop where
  readsFlags : g.engine.ReadsFlags
  flags : g.left.store.flags = g.right.store.flags
  left : g.left.Ready g.makers limit
  right : g.right.Ready g.makers limit

/-- Whether a failure is that of a run which something stopped, at whatever depth. -/
def Stops (g : Rehearsal) (cause : FailureCause) : Prop :=
  g.engine.Hinders g.makers g.selector g.left.store cause.root

/-- Whether somebody is bound at the place of the pizza maker. -/
def Staffed (g : Rehearsal) : Prop := ∀ maker ∈ g.selector, maker ∈ g.makers

/-- Both runs have told their observers the same, and each has changed the store of its staff as `M`
allows. -/
structure Paired (g : Rehearsal) (M : Store → Store → Prop) (s t : Progress Store) : Prop where
  left : M g.left.store s.state
  right : M g.right.store t.state
  newest : s.newest = t.newest

variable {g : Rehearsal} {limit : Nat} {M N O : Store → Store → Prop} {s t : Progress Store}

theorem Paired.mono (h : g.Paired M s t) (hMN : ∀ s t, M s t → N s t) : g.Paired N s t :=
  ⟨hMN _ _ h.left, hMN _ _ h.right, h.newest⟩

theorem Ready.permit (hg : g.Ready limit) (hM : ∀ s t, M s t → s.SameButPizzas t)
    (hst : g.Paired M s t) (l : Language) (place : Option String) (index : Nat) :
    (∃ cause, g.engine.permit g.left.registry l place index s.state = .error cause ∧
        g.engine.permit g.right.registry l place index t.state = .error cause ∧ g.Stops cause) ∨
      (g.engine.permit g.left.registry l place index s.state =
          (g.left.registry.resolve l place).mapError .unbound ∧
        g.engine.permit g.right.registry l place index t.state =
          (g.right.registry.resolve l place).mapError .unbound) := by
  have hs : g.engine.cancelled s.state = g.engine.cancelled g.left.store :=
    hg.readsFlags _ _ (hM _ _ hst.left).flags_eq
  have ht : g.engine.cancelled t.state = g.engine.cancelled g.left.store :=
    hg.readsFlags _ _ ((hM _ _ hst.right).flags_eq.trans hg.flags.symm)
  simp only [Engine.permit, hs, ht]
  by_cases hcancelled : g.engine.cancelled g.left.store = true
  · simp only [if_pos hcancelled]
    exact .inl ⟨_, rfl, rfl, .cancelled hcancelled⟩
  · simp only [if_neg hcancelled]
    by_cases hexhausted : g.engine.settings.exhausted index = true
    · simp only [if_pos hexhausted]
      refine .inl ⟨_, rfl, rfl, .stepLimit ?_⟩
      simp only [EngineSettings.exhausted, Bool.and_eq_true, decide_eq_true_eq] at hexhausted
      exact hexhausted.1
    · simp only [if_neg hexhausted]
      refine .inr ⟨?_, ?_⟩
      · cases g.left.registry.resolve l place <;> rfl
      · cases g.right.registry.resolve l place <;> rfl

/-- At a level of each run the program runs abreast, from stores changed as `M` allows: to one value,
which satisfies `V`, or until both are stopped, and the stores are then changed as `N` allows. -/
def Runs (g : Rehearsal) (children children' : ChildRunner Language Store) (depth : Nat) (l : Language)
    (place : Option String) (M : Store → Store → Prop) {α : Type} (p : Program (algebra l) α)
    (V : α → Prop) (N : Store → Store → Prop) : Prop :=
  ∀ index s t, g.Paired M s t →
    Abreast (fun r => V r.1) (fun error => g.Stops error.cause) (g.Paired N)
      (p.run (g.engine.step g.left.registry children depth l place) index s)
      (p.run (g.engine.step g.right.registry children' depth l place) index t)

section

variable {children children' : ChildRunner Language Store} {depth : Nat} {l : Language}
  {place : Option String} {α β : Type}

theorem Runs.bind {p : Program (algebra l) α} {f : α → Program (algebra l) β} {V : α → Prop}
    {W : β → Prop} (hp : g.Runs children children' depth l place M p V N)
    (hf : ∀ v, V v → g.Runs children children' depth l place N (f v) W O)
    (hNO : ∀ s t, N s t → O s t) : g.Runs children children' depth l place M (p.bind f) W O :=
  fun index s t hst => Program.abreast_bind (hp index s t hst)
    (fun v index s t hv hst => hf v hv index s t hst) fun _ _ h => h.mono hNO

theorem Runs.map {p : Program (algebra l) α} {V : α → Prop} {f : α → β} {W : β → Prop}
    (hp : g.Runs children children' depth l place M p V N) (hf : ∀ v, V v → W (f v)) :
    g.Runs children children' depth l place M (p.map f) W N :=
  fun index s t hst => Program.abreast_map (hp index s t hst) hf

theorem Runs.mono {p : Program (algebra l) α} {V : α → Prop}
    (hp : g.Runs children children' depth l place N p V O) (hMN : ∀ s t, M s t → N s t) :
    g.Runs children children' depth l place M p V O :=
  fun index s t hst => hp index s t (hst.mono hMN)

theorem Runs.imp {p : Program (algebra l) α} {V W : α → Prop}
    (hp : g.Runs children children' depth l place M p V N) (hV : ∀ v, V v → W v) :
    g.Runs children children' depth l place M p W N :=
  fun index s t hst => (hp index s t hst).mono (fun _ h => hV _ h) fun _ _ h => h

theorem runs_closedUnderBind (M : Store → Store → Prop) : Program.ClosedUnderBind fun _ p v =>
    g.Runs children children' depth l place M p (· = v) M where
  bind hp hf := by
    refine hp.bind ?_ fun _ _ h => h
    rintro _ rfl
    exact hf

theorem Runs.lift {c : (algebra l).Command} {V : (algebra l).Answer c → Prop}
    (h : ∀ index s t, g.Paired M s t →
      Abreast V (fun error => g.Stops error.cause) (g.Paired N)
        (g.engine.step g.left.registry children depth l place index c s)
        (g.engine.step g.right.registry children' depth l place index c t)) :
    g.Runs children children' depth l place M (.lift c) V N :=
  fun index s t hst => Program.abreast_lift (h index s t hst)

theorem Ready.runs_call (hg : g.Ready limit) (hM : ∀ s t, M s t → s.SameButPizzas t)
    (hMN : ∀ s t, M s t → N s t) {c : (algebra l).Command} {m : (algebra l).Method}
    {reply : (algebra l).Reply m} {v : (algebra l).Answer c}
    (hplan : ∀ frame, ∃ next, Hierarchy.plan l c frame = .call m next ∧ next reply = .answer v)
    {i i' : Interpreter Store (algebra l)} (hi : g.left.registry.resolve l place = .ok i)
    (hi' : g.right.registry.resolve l place = .ok i')
    (hcall : i.Answers (M g.left.store) m reply (N g.left.store))
    (hcall' : i'.Answers (M g.right.store) m reply (N g.right.store)) :
    g.Runs children children' depth l place M (.lift c) (· = v) N := by
  refine Runs.lift fun index s t hst => Engine.step_abreast rfl ?_
  obtain ⟨cause, hs, ht, hcause⟩ | ⟨hs, ht⟩ := hg.permit hM hst l place index
  · exact .inl ⟨cause, hs, ht, hcause, hst.mono hMN⟩
  · rw [hi] at hs
    rw [hi'] at ht
    refine .inr ⟨i, i', hs, ht, ?_⟩
    obtain ⟨hreply, hleft⟩ := hcall s.state hst.left
    obtain ⟨hreply', hright⟩ := hcall' t.state hst.right
    obtain ⟨next, hplan, hnext⟩ := hplan ⟨depth, index, (algebra l).describe c⟩
    simp only [hplan, Plan.run_call, Interpreter.run, Progress.record, hreply, hreply', hnext, Plan.run]
    exact .value rfl ⟨hleft, hright, congrArg (_ :: ·) hst.newest⟩

theorem Ready.runs_unbound (hg : g.Ready limit) (hM : ∀ s t, M s t → s.SameButPizzas t)
    (hMN : ∀ s t, M s t → N s t) {unbound : UnboundAlgebra}
    (hi : g.left.registry.resolve l place = .error unbound)
    (hi' : g.right.registry.resolve l place = .error unbound) (hstops : g.Stops (.unbound unbound))
    {c : (algebra l).Command} {V : (algebra l).Answer c → Prop} :
    g.Runs children children' depth l place M (.lift c) V N := by
  refine Runs.lift fun index s t hst => Engine.step_abreast rfl (.inl ?_)
  obtain ⟨cause, hs, ht, hcause⟩ | ⟨hs, ht⟩ := hg.permit hM hst l place index
  · exact ⟨cause, hs, ht, hcause, hst.mono hMN⟩
  · rw [hi] at hs
    rw [hi'] at ht
    exact ⟨_, hs, ht, hstops, hst.mono hMN⟩

end

section

variable (hg : g.Ready limit) {children children' : ChildRunner Language Store} {depth : Nat}

include hg

theorem Ready.runs_sandwich {order : SandwichOrder} (hheight : order.components.length ≤ limit) :
    g.Runs children children' depth .sandwich none Store.SameButLog order.recipe
      (· = (⟨order.components⟩ : Sandwich)) Store.SameButLog := by
  obtain ⟨i, hi, ha⟩ := hg.left.sandwich
  obtain ⟨i', hi', ha'⟩ := hg.right.sandwich
  refine order.recipe_holds (runs_closedUnderBind (l := .sandwich) Store.SameButLog) hheight ?_ ?_ ?_
  · exact hg.runs_call (fun _ _ h => h.sameButPizzas) (fun _ _ h => h) (fun _ => ⟨_, rfl, rfl⟩) hi hi'
      ha.start ha'.start
  · intro component body hroom
    exact hg.runs_call (fun _ _ h => h.sameButPizzas) (fun _ _ h => h) (fun _ => ⟨_, rfl, rfl⟩) hi hi'
      (ha.add component body hroom) (ha'.add component body hroom)
  · intro body hfilled
    exact hg.runs_call (l := .sandwich) (c := SandwichCommand.finish body)
      (v := (⟨body.components⟩ : Sandwich)) (fun _ _ h => h.sameButPizzas) (fun _ _ h => h)
      (fun _ => ⟨_, rfl, rfl⟩) hi hi' (ha.finish body hfilled) (ha'.finish body hfilled)

section

variable {i i' : Interpreter Store pizzaAlgebra} {place : Option String} {maker : String}
  (hi : g.left.registry.resolve .pizza place = .ok i)
  (hi' : g.right.registry.resolve .pizza place = .ok i')
  (hb : Bakes maker g.left.store i) (hb' : Bakes maker g.right.store i')

include hi hi' hb hb'

theorem Ready.runs_bound_pizza {order : PizzaOrder}
    (htoppings : order.toppings.length ≤ Oven.maxToppings) :
    g.Runs children children' depth .pizza place Store.SameButLog order.recipe
      (· = (⟨order.size, order.toppings, order.minutes, maker⟩ : Pizza)) Store.SameButPizzas := by
  have hprepare : g.Runs children children' depth .pizza place Store.SameButLog
      (PizzaRecipe.prepare order.size) (· = Dough.plain order.size) Store.SameButPizzas :=
    hg.runs_call (fun _ _ h => h.sameButPizzas) (fun _ _ h => h.sameButPizzas)
      (fun _ => ⟨_, rfl, rfl⟩) hi hi' (hb.prepare order.size) (hb'.prepare order.size)
  refine hprepare.bind ?_ fun _ _ h => h
  rintro _ rfl
  refine PizzaOrder.layer_holds (runs_closedUnderBind (l := .pizza) Store.SameButPizzas) htoppings ?_ ?_
  · intro topping dough hroom
    exact hg.runs_call (fun _ _ h => h) (fun _ _ h => h) (fun _ => ⟨_, rfl, rfl⟩) hi hi'
      (hb.top topping dough hroom) (hb'.top topping dough hroom)
  · intro dough
    exact hg.runs_call (l := .pizza) (c := PizzaCommand.bake dough order.minutes)
      (v := dough.bake order.minutes maker) (fun _ _ h => h) (fun _ _ h => h)
      (fun _ => ⟨_, rfl, rfl⟩) hi hi' (hb.bake dough order.minutes) (hb'.bake dough order.minutes)

end

theorem Ready.runs_unbound_pizza {maker : String} (hselector : g.selector = some maker)
    (hmaker : maker ∉ g.makers) (order : PizzaOrder) {V : Pizza → Prop} :
    g.Runs children children' depth .pizza (some maker) Store.SameButLog order.recipe V
      Store.SameButPizzas := by
  have hprepare : g.Runs children children' depth .pizza (some maker) Store.SameButLog
      (PizzaRecipe.prepare order.size) (fun _ => False) Store.SameButPizzas :=
    hg.runs_unbound (fun _ _ h => h.sameButPizzas) (fun _ _ h => h.sameButPizzas)
      (hg.left.stranger maker hmaker) (hg.right.stranger maker hmaker) (.stranger hselector hmaker)
  exact hprepare.bind (fun _ h => h.elim) fun _ _ h => h

theorem Ready.runs_pizza {order : PizzaOrder} (htoppings : order.toppings.length ≤ Oven.maxToppings) :
    g.Runs children children' depth .pizza g.selector Store.SameButLog order.recipe
      (fun v => v = (⟨order.size, order.toppings, order.minutes, g.selector.getD houseMaker⟩ : Pizza) ∧
        g.Staffed)
      Store.SameButPizzas := by
  cases hselector : g.selector with
  | none =>
    obtain ⟨i, hi, hb⟩ := hg.left.house
    obtain ⟨i', hi', hb'⟩ := hg.right.house
    have hstaffed : g.Staffed := by simp [Staffed, hselector]
    exact (hg.runs_bound_pizza hi hi' hb hb' htoppings).imp fun _ hv => ⟨hv, hstaffed⟩
  | some maker =>
    by_cases hmaker : maker ∈ g.makers
    · obtain ⟨i, hi, hb⟩ := hg.left.maker maker hmaker
      obtain ⟨i', hi', hb'⟩ := hg.right.maker maker hmaker
      have hstaffed : g.Staffed := by simp [Staffed, hselector, hmaker]
      exact (hg.runs_bound_pizza hi hi' hb hb' htoppings).imp fun _ hv => ⟨hv, hstaffed⟩
    · exact hg.runs_unbound_pizza hselector hmaker order

end

def children (g : Rehearsal) (staff : Staff) : ChildRunner Language Store :=
  g.engine.children staff.registry g.engine.settings.maxDepth.toNat 0

theorem Runs.children {l : Language} {place : Option String} {β : Type} {p : Program (algebra l) β}
    {V : β → Prop}
    (hp : ∀ {children children' depth}, g.Runs children children' depth l place M p V N)
    (hMN : ∀ s t, M s t → N s t) (hst : g.Paired M s t) :
    Abreast V g.Stops (g.Paired N) (g.children g.left l place p s) (g.children g.right l place p t) := by
  simp only [Rehearsal.children]
  cases hroom : g.engine.settings.maxDepth.toNat with
  | zero =>
    have hstops : g.Stops (.tooDeep g.engine.settings.maxDepth.toNat) := by
      rw [hroom]
      exact .tooDeep hroom
    exact .failure hstops (hst.mono hMN)
  | succ room =>
    apply Engine.children_abreast
    exact hp 0 s t hst

abbrev Cooks (g : Rehearsal) (M : Store → Store → Prop) {α : Type} (p : Cooking α) (V : α → Prop)
    (N : Store → Store → Prop) : Prop :=
  g.Runs (g.children g.left) (g.children g.right) 0 .cooking none M p V N

section

variable (hg : g.Ready limit) {c : (algebra Language.cooking).Command}
  {v : (algebra Language.cooking).Answer c}

include hg

theorem Ready.cooks_step {V : (algebra Language.cooking).Answer c → Prop}
    (hM : ∀ s t, M s t → s.SameButPizzas t) (hMN : ∀ s t, M s t → N s t)
    (hplan : ∀ i i' frame s t, g.Paired M s t → Abreast V g.Stops (g.Paired N)
      ((Hierarchy.plan Language.cooking c frame).run i (g.children g.left) g.engine.policyFor s)
      ((Hierarchy.plan Language.cooking c frame).run i' (g.children g.right) g.engine.policyFor t)) :
    g.Cooks M (.lift c) V N := by
  obtain ⟨i, hi, -⟩ := hg.left.machine
  obtain ⟨i', hi', -⟩ := hg.right.machine
  refine Runs.lift fun index s t hst => Engine.step_abreast rfl ?_
  obtain ⟨cause, hs, ht, hcause⟩ | ⟨hs, ht⟩ := hg.permit hM hst .cooking none index
  · exact .inl ⟨cause, hs, ht, hcause, hst.mono hMN⟩
  · rw [hi] at hs
    rw [hi'] at ht
    exact .inr ⟨i, i', hs, ht, hplan i i' _ _ _ ⟨hst.left, hst.right, congrArg (_ :: ·) hst.newest⟩⟩

theorem Ready.makeSandwich {order : SandwichOrder} (hheight : order.components.length ≤ limit) :
    g.Cooks Store.SameButLog (Cooking.makeSandwich order.recipe)
      (· = (⟨order.components⟩ : Sandwich)) Store.SameButLog := by
  refine hg.cooks_step (c := CookingCommand.makeSandwich order.recipe)
    (fun _ _ h => h.sameButPizzas) (fun _ _ h => h) fun i i' frame s t hst => ?_
  refine Plan.abreast_child (Runs.children (hg.runs_sandwich hheight) (fun _ _ h => h) hst) ?_
  exact fun v s t hv hst => .value hv hst

theorem Ready.makePizza {order : PizzaOrder} (htoppings : order.toppings.length ≤ Oven.maxToppings) :
    g.Cooks Store.SameButLog
      (.lift (A := cookingAlgebra) (CookingCommand.makePizza g.selector order.recipe) : Cooking Pizza)
      (fun v => v = (⟨order.size, order.toppings, order.minutes, g.selector.getD houseMaker⟩ : Pizza) ∧
        g.Staffed)
      Store.SameButPizzas := by
  refine hg.cooks_step (c := CookingCommand.makePizza g.selector order.recipe)
    (fun _ _ h => h.sameButPizzas) (fun _ _ h => h.sameButPizzas) fun i i' frame s t hst => ?_
  refine Plan.abreast_child (Runs.children (hg.runs_pizza htoppings) (fun _ _ h => h.sameButPizzas)
    hst) ?_
  exact fun v s t hv hst => .value hv hst

theorem Ready.makeCombo (hselector : g.selector = none) {sandwich : SandwichOrder} {pizza : PizzaOrder}
    (hheight : sandwich.components.length ≤ limit)
    (htoppings : pizza.toppings.length ≤ Oven.maxToppings) :
    g.Cooks Store.SameButLog (Cooking.makeCombo sandwich.recipe pizza.recipe)
      (fun v => v = Meal.combo ⟨sandwich.components⟩
        ⟨pizza.size, pizza.toppings, pizza.minutes, houseMaker⟩ ∧ g.Staffed)
      Store.SameButPizzas := by
  refine hg.cooks_step (c := CookingCommand.makeCombo sandwich.recipe pizza.recipe)
    (fun _ _ h => h.sameButPizzas) (fun _ _ h => h.sameButPizzas) fun i i' frame s t hst => ?_
  have hpizza {s t : Progress Store} (hst : g.Paired Store.SameButLog s t) :=
    Runs.children (hg.runs_pizza htoppings) (fun _ _ h => h.sameButPizzas) hst
  rw [hselector] at hpizza
  refine Plan.abreast_join (Runs.children (hg.runs_sandwich hheight) (fun _ _ h => h) hst)
    (fun s t hst => hpizza hst) ?_
  rintro _ _ s t rfl ⟨rfl, hstaffed⟩ hst
  exact .value ⟨rfl, hstaffed⟩ hst

theorem Ready.serves {p : Cooking Meal} {meal : Meal} (hMN : ∀ s t, M s t → s.SameButPizzas t)
    (hp : g.Cooks Store.SameButLog p (fun v => v = meal ∧ g.Staffed) M) :
    g.Cooks Store.SameButLog (p.bind Cooking.serve) (fun v => v = (⟨1, meal⟩ : Served) ∧ g.Staffed)
      fun _ _ => True := by
  obtain ⟨i, hi, hserves⟩ := hg.left.machine
  obtain ⟨i', hi', hserves'⟩ := hg.right.machine
  have hserve : g.Cooks Store.SameButPizzas (Cooking.serve meal) (· = (⟨1, meal⟩ : Served))
      fun _ _ => True :=
    hg.runs_call (fun _ _ h => h) (fun _ _ _ => trivial) (fun _ => ⟨_, rfl, rfl⟩) hi hi'
      (hserves meal) (hserves' meal)
  refine hp.bind ?_ fun _ _ _ => trivial
  rintro _ ⟨rfl, hstaffed⟩
  exact (hserve.mono hMN).imp fun _ hv => ⟨hv, hstaffed⟩

end

theorem Ready.cooks (hg : g.Ready limit) {meal : Meal} {p : Cooking Served}
    (hp : Serving limit g.selector meal p) :
    g.Cooks Store.SameButLog p (fun v => v = (⟨1, meal⟩ : Served) ∧ g.Staffed)
      fun _ _ => True := by
  generalize hselector : g.selector = selector at hp
  cases hp with
  | sandwich hheight =>
    have hstaffed : g.Staffed := by simp [Staffed, hselector]
    exact hg.serves (fun _ _ h => h.sameButPizzas)
      ((hg.makeSandwich hheight).map fun _ hv => ⟨congrArg Meal.sandwich hv, hstaffed⟩)
  | pizza htoppings =>
    have hpizza := hg.makePizza htoppings
    rw [hselector] at hpizza
    exact hg.serves (fun _ _ h => h) (hpizza.map fun _ hv => ⟨congrArg Meal.pizza hv.1, hv.2⟩)
  | pizzaBy hname htoppings hp =>
    have hpizza := hg.makePizza htoppings
    rw [hselector] at hpizza
    simp only [Cooking.makePizzaBy, hname] at hp
    cases hp
    exact hg.serves (fun _ _ h => h) (hpizza.map fun _ hv => ⟨congrArg Meal.pizza hv.1, hv.2⟩)
  | combo hheight htoppings =>
    exact hg.serves (fun _ _ h => h) (hg.makeCombo hselector hheight htoppings)

theorem Ready.execute (hg : g.Ready limit) {meal : Meal} {p : Cooking Served}
    (hp : Serving limit g.selector meal p) :
    let o := (g.engine.execute g.left.registry Language.cooking none p).outcome g.left.store
    let o' := (g.engine.execute g.right.registry Language.cooking none p).outcome g.right.store
    o.result = o'.result ∧ o.events = o'.events ∧
      ((o.result = .ok ⟨1, meal⟩ ∧ g.Staffed) ∨
        ∃ error, o.result = .error error ∧ g.Stops error.cause) := by
  have hstart : g.Paired Store.SameButLog ⟨g.left.store, []⟩ ⟨g.right.store, []⟩ :=
    ⟨.refl _, .refl _, rfl⟩
  have hcooks := hg.cooks hp 0 _ _ hstart
  obtain ⟨hresult, hevents, hends⟩ := Engine.execute_abreast (e := g.engine) (l := Language.cooking)
    (V := fun v => v = (⟨1, meal⟩ : Served) ∧ g.Staffed) (F := fun error => g.Stops error.cause)
    (M := g.Paired fun _ _ => True) (fun _ _ h => h.newest) hcooks
  refine ⟨hresult, hevents, ?_⟩
  obtain ⟨v, hv, rfl, hstaffed⟩ | hfailed := hends
  · exact .inl ⟨hv, hstaffed⟩
  · exact .inr hfailed

/-- A kitchen beside recording interpreters that have its makers. -/
def ofKitchen (e : Engine Store) (k : Kitchen) (choice : Option MealChoice) (s t : Store)
    (selector : Option String) : Rehearsal where
  engine := e
  makers := k.makers
  selector := selector
  left := k.staff s
  right := Recorder.staff k.makers choice t

theorem ready_ofKitchen {e : Engine Store} (he : e.ReadsFlags) {k : Kitchen}
    (hdough : k.doughStock ≠ some 0) (choice : Option MealChoice) {s t : Store}
    (hflags : s.flags = t.flags) (selector : Option String) :
    (ofKitchen e k choice s t selector).Ready k.station.maxComponents where
  readsFlags := he
  flags := (k.flags_staff s).trans (hflags.trans (Recorder.flags_staff k.makers choice t).symm)
  left := Kitchen.ready hdough s
  right := Recorder.ready k.makers choice t _

end Rehearsal

/-- A kitchen and recording interpreters with the same makers carry out an order alike: with the same
events, and the same result. The meal that was asked for is served first, or both runs end in the same
failure, because they are cancelled, or reach a limit of the engine, or nobody has the maker's name. -/
theorem Kitchen.execute_rehearsed {e : Engine Store} (he : e.ReadsFlags) {k : Kitchen}
    (hdough : k.doughStock ≠ some 0) (choice : Option MealChoice) {s t : Store}
    (hflags : s.flags = t.flags) {selector : Option String} {meal : Meal} {p : Cooking Served}
    (hp : Serving k.station.maxComponents selector meal p) :
    let kitchen := k.staff s
    let recorders := Recorder.staff k.makers choice t
    let o := (e.execute kitchen.registry Language.cooking none p).outcome kitchen.store
    let o' := (e.execute recorders.registry Language.cooking none p).outcome recorders.store
    o.result = o'.result ∧ o.events = o'.events ∧
      ((o.result = .ok ⟨1, meal⟩ ∧ ∀ maker ∈ selector, maker ∈ k.makers) ∨
        ∃ error, o.result = .error error ∧ e.Hinders k.makers selector kitchen.store error.root) :=
  (Rehearsal.ready_ofKitchen he hdough choice hflags selector).execute hp

def oneMaker : Kitchen := ⟨["Mario"], 0, some 1, .standard⟩

theorem Kitchen.execute_rehearsed_oneMaker : ∃ (order : PizzaOrder) (p : Cooking Pizza),
    Menu.housePizza = .ok order ∧ Cooking.makePizzaBy " Mario" order.recipe = .ok p ∧
      Engine.plain.ReadsFlags ∧ oneMaker.doughStock ≠ some 0 ∧
      let kitchen := oneMaker.staff .empty
      let recorders := Recorder.staff oneMaker.makers none .empty
      let program := (p.map .pizza).bind Cooking.serve
      let o := (Engine.plain.execute kitchen.registry Language.cooking none program).outcome kitchen.store
      let o' := (Engine.plain.execute recorders.registry Language.cooking none program).outcome
        recorders.store
      o.result = .ok ⟨1, .pizza ⟨order.size, order.toppings, order.minutes, "Mario"⟩⟩ ∧
        o'.result = o.result ∧ o'.events = o.events := by
  have hname : Cooking.makerOfText " Mario" = .ok "Mario" := rfl
  have hhouse : ∃ order, Menu.housePizza = .ok order ∧ order.toppings.length ≤ Oven.maxToppings :=
    ⟨_, rfl, by decide⟩
  obtain ⟨order, horder, htoppings⟩ := hhouse
  have hp : Cooking.makePizzaBy " Mario" order.recipe = .ok _ := rfl
  have hreads : Engine.plain.ReadsFlags := fun _ _ _ => rfl
  have hdough : oneMaker.doughStock ≠ some 0 := by decide
  obtain ⟨hresult, hevents, hends⟩ :=
    Kitchen.execute_rehearsed hreads hdough none (s := .empty) (t := .empty) rfl
      (.pizzaBy hname htoppings hp)
  refine ⟨order, _, horder, hp, hreads, hdough, ?_, hresult.symm, hevents.symm⟩
  obtain ⟨hserved, -⟩ | ⟨error, -, hhinders⟩ := hends
  · exact hserved
  · obtain ⟨maker, hmaker, hstranger, -⟩ := hhinders.of_default rfl rfl
    cases hmaker
    exact absurd (List.mem_singleton.2 rfl) hstranger

end Brigade
