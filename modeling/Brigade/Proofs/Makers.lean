import Brigade.CommandLine.Run
import Brigade.Proofs.Rehearsal

/-! Pizzas of the house by a maker. A maker is bound under the name that was given, and ordered from under
the name without the blanks around it; so a maker can be ordered from if there are none, or if some other
maker has the name without them. -/

namespace Brigade

open Text (trim isBlankText)

theorem Cooking.makerOfText_of_not_blank {name : String} (h : isBlankText name = false) :
    makerOfText name = .ok (trim name) := by
  simp only [makerOfText, h, Bool.false_eq_true, if_false]

namespace Menu

theorem exists_houseSandwich : ∃ order, houseSandwich = .ok order ∧
    order.components.length ≤ Station.standard.maxComponents := ⟨_, rfl, by decide⟩

theorem exists_housePizza :
    ∃ order, housePizza = .ok order ∧ order.toppings.length ≤ Oven.maxToppings := ⟨_, rfl, by decide⟩

end Menu

theorem Order.pizza_serving {name : String} (hblank : isBlankText name = false) (limit : Nat) :
    ∃ order p, Menu.housePizza = .ok order ∧ Order.pizza.program (some name) = .ok p ∧
      Serving limit (some (trim name))
        (.pizza ⟨order.size, order.toppings, order.minutes, trim name⟩) p := by
  obtain ⟨order, horder, htoppings⟩ := Menu.exists_housePizza
  have hname := Cooking.makerOfText_of_not_blank hblank
  obtain ⟨p, hp⟩ : ∃ p, Cooking.makePizzaBy name order.recipe = .ok p := by
    simp only [Cooking.makePizzaBy, hname]
    exact ⟨_, rfl⟩
  refine ⟨order, (p.map .pizza).bind Cooking.serve, horder, ?_, .pizzaBy hname htoppings hp⟩
  simp only [Order.program, Order.meal, horder, Built.andThen_ok, hp]
  rfl

namespace CommandLine.Options

def kitchen (o : Options) (freshSeed : UInt64) : Kitchen :=
  ⟨o.makers, o.seed.getD freshSeed, o.doughStock, .standard⟩

theorem staff_eq_ok {o : Options} {freshSeed : UInt64} {staff : Staff}
    (h : o.staff freshSeed = .ok staff) :
    (o.mock = false ∧ staff = (o.kitchen freshSeed).staff .empty) ∨
      (o.mock = true ∧ ∃ choice, Menu.houseChoice o.baker = .ok choice ∧
        staff = Recorder.staff o.makers (some choice) .empty) := by
  rw [Options.staff] at h
  split at h
  · next hmock =>
    cases hchoice : Menu.houseChoice o.baker with
    | error e => simp [hchoice, Except.map] at h
    | ok choice =>
      rw [hchoice] at h
      cases h
      exact .inr ⟨hmock, choice, rfl, rfl⟩
  · next hmock =>
    cases h
    exact .inl ⟨by simpa using hmock, rfl⟩

theorem ready_staff {o : Options} (hdough : o.doughStock = none) {freshSeed : UInt64} {staff : Staff}
    (h : o.staff freshSeed = .ok staff) :
    staff.Ready o.makers Station.standard.maxComponents ∧ staff.store.flags = [] := by
  obtain ⟨-, rfl⟩ | ⟨-, choice, -, rfl⟩ := staff_eq_ok h
  · have hstock : (o.kitchen freshSeed).doughStock ≠ some 0 := by simp [kitchen, hdough]
    exact ⟨Kitchen.ready hstock .empty, Kitchen.flags_staff _ _⟩
  · exact ⟨Recorder.ready _ _ _ _, Recorder.flags_staff _ _ _⟩

end CommandLine.Options

/-- A staff that was set up with makers: that of a kitchen with dough without limit, or the one that the
command line sets up, in either of its modes. -/
inductive Staff.SetUp : List String → Staff → Prop
  | kitchen {k : Kitchen} (hdough : k.doughStock = none) (store : Store) : SetUp k.makers (k.staff store)
  | commandLine {o : CommandLine.Options} (hdough : o.doughStock = none) {freshSeed : UInt64}
    {staff : Staff} (hstaff : o.staff freshSeed = .ok staff) : SetUp o.makers staff

theorem Staff.SetUp.ready {makers : List String} {staff : Staff} (h : Staff.SetUp makers staff) :
    ∃ limit, staff.Ready makers limit := by
  cases h with
  | @kitchen k hdough store =>
    have hstock : k.doughStock ≠ some 0 := by simp [hdough]
    exact ⟨_, Kitchen.ready hstock store⟩
  | commandLine hdough hstaff => exact ⟨_, (CommandLine.Options.ready_staff hdough hstaff).1⟩

/-- On a staff that is ready an order is served, unless its pizza is to be baked by a maker that nobody
is. -/
theorem Staff.Ready.execute_default {makers : List String} {limit : Nat} {staff : Staff}
    (h : staff.Ready makers limit) {e : Engine Store} (hsettings : e.settings = .default)
    (hcancelled : ∀ s, e.cancelled s = false) {selector : Option String} {meal : Meal}
    {p : Cooking Served} (hp : Serving limit selector meal p) :
    let result := ((e.execute staff.registry Language.cooking none p).outcome staff.store).result
    ((∀ maker ∈ selector, maker ∈ makers) ∧ result = .ok ⟨1, meal⟩) ∨
      ∃ maker ∈ selector, maker ∉ makers ∧ ∃ error, result = .error error ∧
        error.root = .unbound ⟨pizzaAlgebra.id, some maker⟩ := by
  intro result
  let g : Rehearsal := ⟨e, makers, selector, staff, staff⟩
  have hreads : e.ReadsFlags := fun s t _ => (hcancelled s).trans (hcancelled t).symm
  have hg : g.Ready limit := ⟨hreads, rfl, h, h⟩
  obtain ⟨-, -, ⟨hserved, hstaffed⟩ | ⟨error, herror, hstops⟩⟩ := hg.execute hp
  · exact .inl ⟨hstaffed, hserved⟩
  · obtain ⟨maker, hselector, hmaker, hroot⟩ := hstops.of_default hsettings (hcancelled _)
    exact .inr ⟨maker, hselector, hmaker, error, herror, hroot⟩

/-- Ordering the house pizza from a maker. It is baked under the maker's name without the blanks around
it, if somebody is bound under that; otherwise the run fails, as nobody is. So it is baked by the maker
that was asked for exactly if there are no blanks around the name. -/
theorem Staff.execute_pizza_by {e : Engine Store} (hsettings : e.settings = .default)
    (hcancelled : ∀ s, e.cancelled s = false) {makers : List String} {staff : Staff}
    (hstaff : Staff.SetUp makers staff) {name : String} (hname : name ∈ makers)
    (hblank : isBlankText name = false) :
    ∃ order p, Menu.housePizza = .ok order ∧ Order.pizza.program (some name) = .ok p ∧
      let result := ((e.execute staff.registry Language.cooking none p).outcome staff.store).result
      let pizzaBy (maker : String) : Meal :=
        .pizza ⟨order.size, order.toppings, order.minutes, maker⟩
      (trim name ∈ makers → result = .ok ⟨1, pizzaBy (trim name)⟩) ∧
      (trim name ∉ makers → ∃ error, result = .error error ∧
        error.root = .unbound ⟨pizzaAlgebra.id, some (trim name)⟩) ∧
      (result = .ok ⟨1, pizzaBy name⟩ ↔ trim name = name) := by
  obtain ⟨limit, hready⟩ := hstaff.ready
  obtain ⟨order, p, horder, hp, hserving⟩ := Order.pizza_serving hblank limit
  refine ⟨order, p, horder, hp, ?_⟩
  intro result pizzaBy
  obtain ⟨hbound, hserved⟩ | ⟨_, ⟨⟩, hmaker, hfailed⟩ :=
    hready.execute_default hsettings hcancelled hserving
  · refine ⟨fun _ => hserved, fun h => absurd (hbound _ rfl) h, ?_⟩
    have hresult : result = .ok ⟨1, pizzaBy (trim name)⟩ := hserved
    rw [hresult]
    simp [pizzaBy]
  · refine ⟨fun h => absurd h hmaker, fun _ => hfailed, ?_⟩
    obtain ⟨error, herror, -⟩ := hfailed
    have hresult : result = .error error := herror
    rw [hresult]
    constructor
    · exact nofun
    · intro heq
      rw [heq] at hmaker
      exact absurd hname hmaker

def kitchenOf (maker : String) : Kitchen := ⟨[maker], 0, none, .standard⟩

/-- A maker with blanks around the name cannot be ordered from. -/
theorem Staff.execute_pizza_by_padded : " luigi " ∈ (kitchenOf " luigi ").makers ∧
    isBlankText " luigi " = false ∧ ∃ p, Order.pizza.program (some " luigi ") = .ok p ∧
      let staff := (kitchenOf " luigi ").staff .empty
      ∃ error, ((Engine.plain.execute staff.registry Language.cooking none p).outcome staff.store).result =
          .error error ∧
        error.root = .unbound ⟨pizzaAlgebra.id, some "luigi"⟩ := by
  have hblank : isBlankText " luigi " = false := rfl
  have htrim : trim " luigi " = "luigi" := rfl
  have hdough : (kitchenOf " luigi ").doughStock ≠ some 0 := by decide
  obtain ⟨order, p, -, hp, hserving⟩ :=
    Order.pizza_serving hblank (kitchenOf " luigi ").station.maxComponents
  refine ⟨by decide, hblank, p, hp, ?_⟩
  obtain ⟨hbound, -⟩ | ⟨_, ⟨⟩, -, hfailed⟩ :=
    (Kitchen.ready hdough .empty).execute_default (e := Engine.plain) rfl (fun _ => rfl) hserving
  · exact absurd (hbound _ rfl) (by rw [htrim]; decide)
  · rwa [htrim] at hfailed

theorem Staff.execute_pizza_by_plain : "Mario" ∈ (kitchenOf "Mario").makers ∧
    isBlankText "Mario" = false ∧ ∃ order p, Menu.housePizza = .ok order ∧
      Order.pizza.program (some "Mario") = .ok p ∧
      let staff := (kitchenOf "Mario").staff .empty
      ((Engine.plain.execute staff.registry Language.cooking none p).outcome staff.store).result =
        .ok ⟨1, .pizza ⟨order.size, order.toppings, order.minutes, "Mario"⟩⟩ := by
  have hblank : isBlankText "Mario" = false := rfl
  have hname : "Mario" ∈ (kitchenOf "Mario").makers := by decide
  obtain ⟨order, p, horder, hp, -, -, hserved⟩ := Staff.execute_pizza_by (e := Engine.plain) rfl
    (fun _ => rfl) (.kitchen (k := kitchenOf "Mario") rfl .empty) hname hblank
  exact ⟨hname, hblank, order, p, horder, hp, hserved.2 rfl⟩

end Brigade
