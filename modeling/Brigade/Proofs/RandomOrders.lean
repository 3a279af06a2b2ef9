import Brigade.Proofs.Choices
import Brigade.Proofs.Dough
import Brigade.Proofs.RandomMeals
import Brigade.Proofs.Rehearsal
import Brigade.Proofs.Success
import Mathlib.Algebra.Group.Nat.Defs

/-! Random orders in a kitchen that has all the dough it needs. All that the chef can choose is within the
limits of the station and the ovens, and under every name that he can choose an oven is bound. A run
changes nothing but the chef, who goes on in his stream and gives the next ticket. So after any number of
random orders the next is served too. -/

namespace Brigade

theorem Program.Gives.closedUnderBind {A : Algebra} {σ ε : Type} {perform : Performer A (Progress σ) ε}
    (s : σ) : Program.ClosedUnderBind fun _ (p : Program A _) v => p.Gives perform s v s where
  bind hp hf := hp.bind hf

namespace Engine

/-- The settings are the standard ones, and nothing cancels the runs while the flags are as in `s`. -/
structure Unhindered (e : Engine Store) (s : Store) : Prop where
  settings : e.settings = .default
  readsFlags : e.ReadsFlags
  running : e.cancelled s = false

namespace Unhindered

variable {e : Engine Store} {registry : Registry Language Store} {s : Store}

theorem of_flags_eq (h : e.Unhindered s) {t : Store} (hflags : t.flags = s.flags) : e.Unhindered t where
  settings := h.settings
  readsFlags := h.readsFlags
  running := (h.readsFlags t s hflags).trans h.running

theorem permit (h : e.Unhindered s) {l : Language} {place : Option String}
    {i : Interpreter Store (algebra l)} (hi : registry.resolve l place = .ok i) (index : Nat) :
    e.permit registry l place index s = .ok i := by
  have hexhausted : e.settings.exhausted index = false := by
    rw [h.settings]
    rfl
  simp only [Engine.permit, h.running, hexhausted, Bool.false_eq_true, if_false, hi]

theorem gives_call (h : e.Unhindered s) {l : Language} {place : Option String}
    {i : Interpreter Store (algebra l)} (hi : registry.resolve l place = .ok i)
    {children : ChildRunner Language Store} {depth : Nat} {c : (algebra l).Command}
    {m : (algebra l).Method} {reply : (algebra l).Reply m} {v : (algebra l).Answer c} {t : Store}
    (hplan : ∀ frame, ∃ next, Hierarchy.plan l c frame = .call m next ∧ next reply = .answer v)
    (hcall : i m s = (.ok reply, t)) :
    (Program.lift c).Gives (e.step registry children depth l place) s v t := by
  refine gives_lift (h.permit hi) fun frame => ?_
  obtain ⟨next, hplan, hnext⟩ := hplan frame
  rw [hplan]
  refine Plan.gives_call hcall fun newest => ⟨newest, ?_⟩
  rw [hnext]
  rfl

section

variable (h : e.Unhindered s) {children : ChildRunner Language Store} {depth : Nat}

include h

section

variable {i : Interpreter Store sandwichAlgebra} {limit : Nat}
  (hi : registry.resolve .sandwich none = .ok i) (ha : Assembles limit s i) (hleaves : i.Leaves s)

include hi ha hleaves

theorem gives_sandwich {order : SandwichOrder} (hheight : order.components.length ≤ limit) :
    order.recipe.Gives (e.step registry children depth .sandwich none) s ⟨order.components⟩ s := by
  refine order.recipe_holds (Program.Gives.closedUnderBind s) hheight ?_ ?_ ?_
  · exact h.gives_call (l := .sandwich) (c := SandwichCommand.start) hi (fun _ => ⟨_, rfl, rfl⟩)
      (ha.start.eq (.refl s) hleaves)
  · intro component body hroom
    exact h.gives_call (l := .sandwich) (c := SandwichCommand.add component body) hi
      (fun _ => ⟨_, rfl, rfl⟩) ((ha.add component body hroom).eq (.refl s) hleaves)
  · intro body hfilled
    exact h.gives_call (l := .sandwich) (c := SandwichCommand.finish body) hi
      (fun _ => ⟨_, rfl, rfl⟩) ((ha.finish body hfilled).eq (.refl s) hleaves)

end

section

variable {i : Interpreter Store pizzaAlgebra} {place : Option String} {maker : String}
  (hi : registry.resolve .pizza place = .ok i) (hb : Bakes maker s i) (hleaves : i.Leaves s)

include hi hb hleaves

theorem gives_pizza {order : PizzaOrder} (htoppings : order.toppings.length ≤ Oven.maxToppings) :
    order.recipe.Gives (e.step registry children depth .pizza place) s
      ⟨order.size, order.toppings, order.minutes, maker⟩ s := by
  refine Program.Gives.bind (h.gives_call (l := .pizza) (c := PizzaCommand.prepare order.size) hi
    (fun _ => ⟨_, rfl, rfl⟩) ((hb.prepare order.size).eq (.refl s) hleaves)) ?_
  refine PizzaOrder.layer_holds (Program.Gives.closedUnderBind s) htoppings ?_ ?_
  · intro topping dough hroom
    exact h.gives_call (l := .pizza) (c := PizzaCommand.top topping dough) hi
      (fun _ => ⟨_, rfl, rfl⟩) ((hb.top topping dough hroom).eq (.refl s) hleaves)
  · intro dough
    exact h.gives_call (l := .pizza) (c := PizzaCommand.bake dough order.minutes) hi
      (fun _ => ⟨_, rfl, rfl⟩) ((hb.bake dough order.minutes).eq (.refl s) hleaves)

end

end

end Unhindered

end Engine

theorem Run.Gives.mapped {σ ε α β : Type} {r : Run σ ε α} {s t : σ} {v : α} (h : r.Gives s v t)
    (f : α → β) : Run.Gives (r.mapped f) s (f v) t := by
  intro newest
  obtain ⟨later, hrun⟩ := h newest
  refine ⟨later, ?_⟩
  rw [Run.mapped, hrun]
  rfl

/-- The meal that was chosen, if nothing goes wrong. -/
def MealChoice.meal : MealChoice → Meal
  | .sandwich order => .sandwich ⟨order.components⟩
  | .pizza maker order =>
    .pizza ⟨order.size, order.toppings, order.minutes, maker.getD houseMaker⟩

theorem MealChoice.isAvailable_meal (choice : MealChoice) : choice.meal.isAvailable = true := by
  cases choice <;> rfl

theorem MealChoice.ChosenFrom.meal {pantry : List Ingredient} {makers : List String}
    {choice : MealChoice} (h : choice.ChosenFrom pantry makers) :
    (∃ sandwich, choice.meal = .sandwich sandwich) ∨ ∃ pizza, choice.meal = .pizza pizza ∧
      if makers = [] then pizza.maker = houseMaker else pizza.maker ∈ makers := by
  cases h with
  | sandwich _ => exact .inl ⟨_, rfl⟩
  | pizza _ _ hmaker =>
    refine .inr ⟨_, rfl, ?_⟩
    by_cases hnobody : makers = []
    · rw [if_pos hnobody] at hmaker ⊢
      rw [hmaker]
      rfl
    · rw [if_neg hnobody] at hmaker ⊢
      obtain ⟨name, hname, rfl⟩ := hmaker
      exact hname

theorem CookingCommand.gives_makeRandomMeal {σ : Type} {i : Interpreter σ (algebra Language.cooking)}
    {children : ChildRunner Language σ} {policyFor : String → FailurePolicy} {choice : MealChoice}
    {s t u : σ} {meal : Meal} (hchoice : i CookingMethod.chooseMeal s = (.ok choice, t))
    (hmake : Run.Gives (choice.make children) t meal u) :
    Run.Gives (Plan.run (l := Language.cooking) i children policyFor makeRandomMeal.plan) s meal u := by
  intro newest
  obtain ⟨later, hsettled⟩ := ((hmake.supervise _).mapped (settle id)) newest
  refine ⟨later, ?_⟩
  rw [run_makeRandomMeal]
  simp only [Interpreter.run, hchoice]
  exact hsettled

namespace Kitchen

variable {k : Kitchen} {store s t : Store}

/-- The chef of the kitchen, with `served` meals served. -/
def chef (k : Kitchen) (stream : Random.Stream) (served : Nat) : Chef :=
  { Chef.ofSeed k.seed k.makers with stream, nextTicket := UInt32.ofNat (served + 1) }

/-- The store of the kitchen at a moment when `served` meals are served: it is that of the staff but for
the chef, who has gone on in his stream. -/
def AtWork (k : Kitchen) (store : Store) (served : Nat) (s : Store) : Prop :=
  ∃ stream, s = (Store.chef store.chefs.length).set (k.chef stream served) (k.staff store).store

theorem atWork_staff (k : Kitchen) (store : Store) : k.AtWork store 0 (k.staff store).store := by
  have hcell : Store.cell (.ofSeed 0 []) store.chefs.length (k.staff store).store.chefs =
    .ofSeed k.seed k.makers := Store.cell_eq (k.chefs_staff store)
  have hset := Store.set_cell (.ofSeed 0 []) store.chefs.length (k.staff store).store.chefs
  rw [hcell] at hset
  refine ⟨.ofSeed k.seed, ?_⟩
  simp only [Store.chef]
  exact congrArg (fun chefs => { (k.staff store).store with chefs }) hset.symm

namespace AtWork

variable {served : Nat}

theorem ovens_eq (h : k.AtWork store served s) : s.ovens = (k.staff store).store.ovens := by
  obtain ⟨stream, rfl⟩ := h
  rfl

theorem flags_eq (h : k.AtWork store served s) : s.flags = (k.staff store).store.flags := by
  obtain ⟨stream, rfl⟩ := h
  rfl

theorem call_chef (h : k.AtWork store served s) : ∃ stream, ∀ {m r after},
    Chef.interpreter m (k.chef stream served) = (r, after) →
      Chef.interpreter.within (Store.chef store.chefs.length) m s =
        (r, (Store.chef store.chefs.length).set after (k.staff store).store) := by
  obtain ⟨stream, rfl⟩ := h
  refine ⟨stream, fun {m r after} hcall => ?_⟩
  have hlt : store.chefs.length < (k.staff store).store.chefs.length :=
    (List.getElem?_eq_some_iff.1 (k.chefs_staff store)).1
  have hget : (Store.chef store.chefs.length).get ((Store.chef store.chefs.length).set
      (k.chef stream served) (k.staff store).store) = k.chef stream served :=
    Store.cell_eq (List.getElem?_set_self hlt)
  rw [← hget] at hcall
  rw [Interpreter.within_eq hcall]
  simp only [Store.chef, List.set_set]

theorem chooseMeal (h : k.AtWork store served s) : ∃ choice t,
    Chef.interpreter.within (Store.chef store.chefs.length) .chooseMeal s = (.ok choice, t) ∧
      k.AtWork store served t ∧
      choice.ChosenFrom (Chef.ofSeed k.seed k.makers).pantry k.makers := by
  obtain ⟨stream, hcall⟩ := h.call_chef
  obtain ⟨choice, stream', hchoose, hchosen⟩ := Chef.chooseMeal_chosenFrom (c := k.chef stream served)
    (Chef.ofSeed_pantry_ne_nil k.seed k.makers)
  exact ⟨choice, _, hcall (m := .chooseMeal) hchoose, ⟨stream', rfl⟩, hchosen⟩

theorem serve (h : k.AtWork store served s) (meal : Meal) : ∃ t,
    Chef.interpreter.within (Store.chef store.chefs.length) (.serve meal) s =
        (.ok (UInt32.ofNat (served + 1)), t) ∧ k.AtWork store (served + 1) t := by
  obtain ⟨stream, hcall⟩ := h.call_chef
  have hnext : UInt32.ofNat (served + 1) + 1 = UInt32.ofNat (served + 1 + 1) :=
    (UInt32.ofNat_add (served + 1) 1).symm
  refine ⟨_, hcall (m := .serve meal) rfl, stream, ?_⟩
  simp only [chef, hnext]

variable {e : Engine Store} (h : k.AtWork store served s) (he : e.Unhindered (k.staff store).store)

include h he

theorem gives_make (hdough : k.doughStock = none) (hheight : 4 ≤ k.station.maxComponents)
    {choice : MealChoice} {pantry : List Ingredient} (hchosen : choice.ChosenFrom pantry k.makers)
    (room depth : Nat) :
    Run.Gives (choice.make (e.children (k.staff store).registry (room + 1) depth)) s choice.meal s := by
  have hs : e.Unhindered s := he.of_flags_eq h.flags_eq
  have hhired := k.hired_staff store
  cases hchosen with
  | @sandwich order hcomponents =>
    have hlength := hcomponents.length.2
    have hfits : order.components.length ≤ k.station.maxComponents := by omega
    exact (Engine.gives_children (hs.gives_sandwich (hhired.resolve_none .sandwich)
      (k.station.assembles s) (k.station.interpreter_leaves s) hfits)).mapped Meal.sandwich
  | @pizza maker order htoppings _ hmaker =>
    have hlength := htoppings.length.2
    have hfits : order.toppings.length ≤ Oven.maxToppings := by
      have hmost : Oven.maxToppings = 8 := rfl
      omega
    -- the oven of whoever was chosen, or that of the house
    have hbound : ∃ n, (k.staff store).registry.resolve .pizza maker =
        .ok ((Oven.mk (maker.getD houseMaker)).interpreter.within (Store.oven n)) ∧
          s.ovens[n]? = some none := by
      rw [h.ovens_eq]
      by_cases hnobody : k.makers = []
      · rw [if_pos hnobody] at hmaker
        subst hmaker
        exact ⟨store.ovens.length, hhired.resolve_none .pizza, hdough ▸ k.ovens_staff store⟩
      · rw [if_neg hnobody] at hmaker
        obtain ⟨name, hname, rfl⟩ := hmaker
        obtain ⟨i, hresolve, n, rfl, hcell⟩ := hhired.maker name hname
        exact ⟨n, hresolve, hdough ▸ hcell⟩
    obtain ⟨n, hresolve, hcell⟩ := hbound
    exact (Engine.gives_children (hs.gives_pizza hresolve (Oven.bakes hcell (by simp) _)
      (Oven.within_leaves _ hcell) hfits)).mapped Meal.pizza

/-- The next random order is served, under the next ticket. -/
theorem random_order (hdough : k.doughStock = none) (hheight : 4 ≤ k.station.maxComponents) :
    ∃ choice : MealChoice, choice.ChosenFrom (Chef.ofSeed k.seed k.makers).pantry k.makers ∧
      let o := (e.execute (k.staff store).registry Language.cooking none
        (Cooking.makeRandomMeal.bind Cooking.serve)).outcome s
      o.result = .ok ⟨UInt32.ofNat (served + 1), choice.meal⟩ ∧ k.AtWork store (served + 1) o.state := by
  have hchef : (k.staff store).registry.resolve .cooking none =
      .ok (Chef.interpreter.within (Store.chef store.chefs.length)) :=
    (k.hired_staff store).resolve_none .cooking
  have hroom : e.settings.maxDepth.toNat = 15 + 1 := by
    rw [he.settings]
    rfl
  obtain ⟨choice, t, hchoose, ht, hchosen⟩ := h.chooseMeal
  obtain ⟨u, hserve, hu⟩ := ht.serve choice.meal
  have hmake := ht.gives_make he hdough hheight hchosen 15 0
  have hmeal : Cooking.makeRandomMeal.Gives (e.step (k.staff store).registry
      (e.children (k.staff store).registry (15 + 1) 0) 0 .cooking none) s choice.meal t :=
    Engine.gives_lift (l := Language.cooking) ((he.of_flags_eq h.flags_eq).permit hchef) fun _ =>
      CookingCommand.gives_makeRandomMeal hchoose hmake
  have hserved : (Cooking.serve choice.meal).Gives (e.step (k.staff store).registry
      (e.children (k.staff store).registry (15 + 1) 0) 0 .cooking none) t
        ⟨UInt32.ofNat (served + 1), choice.meal⟩ u :=
    (he.of_flags_eq ht.flags_eq).gives_call (l := .cooking) (c := CookingCommand.serve choice.meal) hchef
      (fun _ => ⟨_, rfl, rfl⟩) hserve
  rw [← hroom] at hmeal hserved
  obtain ⟨hresult, rfl⟩ := Engine.execute_of_gives (l := Language.cooking) (hmeal.bind hserved)
  exact ⟨choice, hchosen, hresult, hu⟩

end AtWork

/-- Runs of a program of the cooking language, one after the other, each under an engine of its own. -/
def shift (engines : List (Engine Store)) (p : Cooking Served) : Shift Language Store :=
  engines.map fun e => ⟨e, .cooking, none, p⟩

theorem AtWork.random_orders {served : Nat} (h : k.AtWork store served s)
    (hdough : k.doughStock = none) (hheight : 4 ≤ k.station.maxComponents)
    {engines : List (Engine Store)} (hengines : ∀ e ∈ engines, e.Unhindered (k.staff store).store) :
    k.AtWork store (served + engines.length) (Shift.state (k.staff store).registry
      (shift engines (Cooking.makeRandomMeal.bind Cooking.serve)) s) := by
  induction engines generalizing served s with
  | nil => exact h
  | cons e engines ih =>
    obtain ⟨choice, -, -, hnext⟩ := h.random_order (hengines e (.head _)) hdough hheight
    have hrest := ih hnext fun e' he' => hengines e' (.tail _ he')
    rw [List.length_cons, Nat.add_comm engines.length, ← Nat.add_assoc]
    exact hrest

/-- A kitchen with all the dough it needs and the standard station never fails a random order. Whatever
the names of the makers and the seed, and however many random orders there are, each under an engine with
any policies that has the standard settings and is not cancelled: each is served, the first under the
ticket 1 and each under the ticket after that of the one before. Tickets wrap: after the largest comes 0.
The meal is a sandwich or a pizza, the pizza by one of the makers if there are any, and by the house if
there are none. -/
theorem random_orders_served (hdough : k.doughStock = none) (hstation : k.station = .standard)
    (store : Store) (maker : Option String) {engines : List (Engine Store)}
    (hengines : ∀ e ∈ engines, e.Unhindered (k.staff store).store) :
    ∃ p, Order.random.program maker = .ok p ∧
      let staff := k.staff store
      ∀ i (hi : i < engines.length),
        let s := Shift.state staff.registry (shift (engines.take i) p) staff.store
        ∃ served, ((engines[i].execute staff.registry Language.cooking none p).outcome s).result =
            .ok served ∧
          served.ticket = UInt32.ofNat (i + 1) ∧ (i + 1 < 2 ^ 32 → served.ticket.toNat = i + 1) ∧
          served.meal.isAvailable = true ∧
          ((∃ sandwich, served.meal = .sandwich sandwich) ∨ ∃ pizza, served.meal = .pizza pizza ∧
            if k.makers = [] then pizza.maker = houseMaker else pizza.maker ∈ k.makers) := by
  refine ⟨Cooking.makeRandomMeal.bind Cooking.serve, rfl, fun i hi => ?_⟩
  have hheight : 4 ≤ k.station.maxComponents := by
    rw [hstation]
    decide
  have hfirst : ∀ e ∈ engines.take i, e.Unhindered (k.staff store).store :=
    fun e he => hengines e (List.mem_of_mem_take he)
  have hbefore := (k.atWork_staff store).random_orders hdough hheight hfirst
  rw [List.length_take_of_le (Nat.le_of_lt hi), Nat.zero_add] at hbefore
  obtain ⟨choice, hchosen, hresult, -⟩ :=
    hbefore.random_order (hengines engines[i] (List.getElem_mem hi)) hdough hheight
  exact ⟨_, hresult, rfl, fun hfew => UInt32.toNat_ofNat_of_lt hfew, choice.isAvailable_meal,
    hchosen.meal⟩

def crowded : Kitchen := ⟨["luigi", "", " mario ", "luigi"], 7, none, .standard⟩

def lenient : Engine Store :=
  ⟨{}, (Table.empty.insert "pizza" .recover).insert "sandwich" (.retry 3), fun _ => false⟩

theorem random_orders_served_crowded : ∃ p, Order.random.program none = .ok p ∧
    crowded.doughStock = none ∧ crowded.station = .standard ∧
    let staff := crowded.staff .empty
    let s := Shift.state staff.registry (shift [lenient] p) staff.store
    (∀ e ∈ [lenient, Engine.plain], e.Unhindered staff.store) ∧
      ∃ meal, ((Engine.plain.execute staff.registry Language.cooking none p).outcome s).result =
        .ok ⟨2, meal⟩ ∧ meal.isAvailable = true ∧
          ∀ pizza, meal = .pizza pizza → pizza.maker ∈ ["luigi", "", " mario ", "luigi"] := by
  have hengines : ∀ e ∈ [lenient, Engine.plain], e.Unhindered (crowded.staff .empty).store := by
    intro e he
    rcases List.mem_cons.1 he with rfl | he
    · exact ⟨rfl, fun _ _ _ => rfl, rfl⟩
    · obtain rfl := List.mem_singleton.1 he
      exact ⟨rfl, fun _ _ _ => rfl, rfl⟩
  obtain ⟨p, hp, hserved⟩ := random_orders_served (k := crowded) rfl rfl .empty none hengines
  obtain ⟨⟨ticket, meal⟩, hresult, rfl, -, havailable, hmeal⟩ := hserved 1 (by decide)
  refine ⟨p, hp, rfl, rfl, hengines, meal, hresult, havailable, ?_⟩
  intro pizza hpizza
  subst hpizza
  rcases hmeal with ⟨sandwich, hsandwich⟩ | ⟨pizza', hsame, hmaker⟩
  · cases hsandwich
  · cases hsame
    exact hmaker

end Kitchen

end Brigade
