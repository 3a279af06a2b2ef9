import Brigade.Kitchen.Basic
import Brigade.Proofs.Recipes
import Brigade.Proofs.Retries
import Brigade.Proofs.Sequencing

/-! What the station and the ovens can make. Both put one item after another on what there is so far, up to
a limit, and refuse the first item over it; an oven uses a portion of dough for every order that it begins.
So an order that fits is filled exactly, and any other fails at its first item over the limit. -/

namespace Brigade

namespace Engine

variable {L : Type} [Hierarchy L] [DecidableEq L] {l : L} [Direct l] {σ ι β γ : Type} {e : Engine σ}
  {registry : Registry L σ} {steps : Nat} {selector : Option String}
  {i : Interpreter σ (algebra l)} {s : σ}

/-- In the state `s`, which does not change, the programs put items on a body one by one while it has room,
one command for each, and then fail; this is told of the first `steps` commands of a level. -/
structure Piles (e : Engine σ) (registry : Registry L σ) (steps : Nat) (selector : Option String)
    (i : Interpreter σ (algebra l)) (s : σ) (stack : List ι → β → Program (algebra l) γ)
    (push : β → ι → β) (info : ι → CommandInfo) (room : β → Nat) (full : InterpreterFailure) : Prop where
  room_push : ∀ b x, room (push b x) = room b - 1
  add : ∀ x rest b {index turns r t}, 0 < room b → index < steps →
    e.Takes registry 0 selector i (stack rest (push b x)) (index + 1) s turns r t →
    ∃ turn : Turn l σ, turn.info = info x ∧
      e.Takes registry 0 selector i (stack (x :: rest) b) index s (turn :: turns) r t
  refuse : ∀ x rest b {index}, room b = 0 → index < steps → ∃ turn : Turn l σ, turn.info = info x ∧
    e.Takes registry 0 selector i (stack (x :: rest) b) index s [turn]
      (.error ⟨⟨0, index, info x⟩, .interpreter full⟩) s

namespace Piles

variable {stack : List ι → β → Program (algebra l) γ} {push : β → ι → β} {info : ι → CommandInfo}
  {room : β → Nat} {full : InterpreterFailure}
  (h : e.Piles registry steps selector i s stack push info room full)

include h

theorem room_foldl (items : List ι) (b : β) : room (items.foldl push b) = room b - items.length := by
  induction items generalizing b with
  | nil => rfl
  | cons x rest ih =>
    rw [List.foldl_cons, ih, h.room_push, List.length_cons]
    omega

/-- Items for which there is room are put on the body, and the rest goes on from there. -/
theorem fit {items rest : List ι} {b : β} {index : Nat} {turns : List (Turn l σ)}
    {r : Except ExecutionError γ} {t : σ} (hroom : items.length ≤ room b)
    (hsteps : index + items.length ≤ steps)
    (hrest : e.Takes registry 0 selector i (stack rest (items.foldl push b)) (index + items.length) s
      turns r t) :
    ∃ adds : List (Turn l σ), adds.map Turn.info = items.map info ∧
      e.Takes registry 0 selector i (stack (items ++ rest) b) index s (adds ++ turns) r t := by
  induction items generalizing b index with
  | nil => exact ⟨[], rfl, hrest⟩
  | cons x items ih =>
    rw [List.length_cons] at hroom hsteps hrest
    have hpush : items.length ≤ room (push b x) := by
      rw [h.room_push]
      omega
    have hindex : index + (items.length + 1) = index + 1 + items.length := by omega
    rw [hindex] at hsteps hrest
    obtain ⟨adds, hinfos, htakes⟩ := ih hpush hsteps hrest
    obtain ⟨turn, hinfo, hturn⟩ := h.add x (items ++ rest) b (by omega) (by omega) htakes
    exact ⟨turn :: adds, by rw [List.map_cons, List.map_cons, hinfo, hinfos], hturn⟩

/-- The first item for which there is no room is refused. -/
theorem overflow {items : List ι} {b : β} {index : Nat} (hover : room b < items.length)
    (hsteps : index + room b < steps) :
    ∃ turns : List (Turn l σ), turns.map Turn.info = (items.take (room b + 1)).map info ∧
      e.Takes registry 0 selector i (stack items b) index s turns
        (.error ⟨⟨0, index + room b, info items[room b]⟩, .interpreter full⟩) s := by
  have hlength : (items.take (room b)).length = room b := List.length_take_of_le hover.le
  have hsplit : items.take (room b) ++ items[room b] :: items.drop (room b + 1) = items := by
    rw [List.getElem_cons_drop, List.take_append_drop]
  have hfull : room ((items.take (room b)).foldl push b) = 0 := by
    rw [h.room_foldl, hlength, Nat.sub_self]
  obtain ⟨turn, hinfo, hrefused⟩ := h.refuse items[room b] (items.drop (room b + 1)) _ hfull hsteps
  obtain ⟨adds, hinfos, htakes⟩ := h.fit hlength.le (by rw [hlength]; exact hsteps.le)
    (by rw [hlength]; exact hrefused)
  rw [hsplit] at htakes
  refine ⟨adds ++ [turn], ?_, htakes⟩
  rw [List.map_append, hinfos, List.map_singleton, hinfo, ← List.map_singleton, ← List.map_append,
    List.take_append_getElem]

end Piles

end Engine

theorem countP_isAt_dispatchesFrom {depth index : Nat} {infos : List CommandInfo} {last : Event}
    (hlast : last.isAt depth = false) :
    (dispatchesFrom depth index infos ++ [last]).countP (Event.isAt depth) = infos.length := by
  induction infos generalizing index with
  | nil => simp [dispatchesFrom, hlast]
  | cons info infos ih => simp [dispatchesFrom_cons, ih, Event.isAt]

theorem command_mem_of_dispatchesFrom {depth index : Nat} {infos : List CommandInfo} {frame : StepFrame}
    (h : .dispatched frame ∈ dispatchesFrom depth index infos) : frame.command ∈ infos := by
  induction infos generalizing index with
  | nil => cases h
  | cons info infos ih =>
    rw [dispatchesFrom_cons] at h
    rcases List.mem_cons.1 h with hfirst | hrest
    · cases hfirst
      exact List.mem_cons_self
    · exact List.mem_cons_of_mem info (ih hrest)

namespace Station

variable {σ : Type} {e : Engine σ} {registry : Registry Language σ} {steps : Nat}
  {selector : Option String} {s : σ} {station : Station}

def addition (component : Ingredient) : CommandInfo := ⟨⟨"sandwich"⟩, "AddComponent", component.name⟩

def started : CommandInfo := ⟨⟨"sandwich"⟩, "StartNewSandwich", ""⟩

def finished (order : SandwichOrder) : CommandInfo :=
  ⟨⟨"sandwich"⟩, "FinishSandwich", s!"{order.components.length} components"⟩

theorem piles (hpermit : ∀ k < steps,
      e.permit registry Language.sandwich selector k s = .ok station.interpreter) :
    e.Piles (l := Language.sandwich) registry steps selector station.interpreter s
      SandwichRecipe.stack SandwichBody.add addition
      (fun body => station.maxComponents - body.components.length)
      (.rejected s!"sandwich already has {station.maxComponents} components") where
  room_push body component := by
    simp only [SandwichBody.add, List.length_append, List.length_singleton]
    omega
  add component rest body index turns r t hroom hindex h := by
    have hfits : ¬ station.maxComponents ≤ body.components.length := by omega
    have hask : Interpreter.ask (l := Language.sandwich) station.interpreter
        (SandwichCommand.add component body) s = (.ok (body.add component), s) := by
      simp only [Interpreter.ask, Direct.method, interpreter, add, if_neg hfits]
      rfl
    exact ⟨⟨SandwichCommand.add component body, s⟩, rfl, .answered (l := Language.sandwich)
      (SandwichCommand.add component body) (.snoc .nil (SandwichRecipe.stack rest)) (hpermit index hindex)
      hask h⟩
  refuse component rest body index hroom hindex := by
    have hfull : station.maxComponents ≤ body.components.length := by omega
    have hask : Interpreter.ask (l := Language.sandwich) station.interpreter
        (SandwichCommand.add component body) s =
        (.error (.rejected s!"sandwich already has {station.maxComponents} components"), s) := by
      simp only [Interpreter.ask, Direct.method, interpreter, add, if_pos hfull]
      rfl
    exact ⟨⟨SandwichCommand.add component body, s⟩, rfl, .failed (l := Language.sandwich)
      (SandwichCommand.add component body) (.snoc .nil (SandwichRecipe.stack rest)) (hpermit index hindex)
      hask⟩

section

variable {order : SandwichOrder}
  (hpermit : ∀ k < steps, e.permit registry Language.sandwich selector k s = .ok station.interpreter)

include hpermit

theorem takes_recipe (hsteps : 0 < steps) {turns : List (Turn Language.sandwich σ)}
    {r : Except ExecutionError Sandwich}
    (h : e.Takes (l := Language.sandwich) registry 0 selector station.interpreter
      (SandwichRecipe.stack order.components .empty) 1 s turns r s) :
    e.Takes (l := Language.sandwich) registry 0 selector station.interpreter order.recipe 0 s
      (⟨SandwichCommand.start, s⟩ :: turns) r s :=
  .answered (l := Language.sandwich) SandwichCommand.start
    (.snoc .nil (SandwichRecipe.stack order.components)) (hpermit 0 hsteps) rfl h

theorem takes_fitting (hfits : order.components.length ≤ station.maxComponents)
    (hsteps : order.components.length + 2 ≤ steps) :
    ∃ turns : List (Turn Language.sandwich σ),
      turns.map Turn.info = started :: (order.components.map addition ++ [finished order]) ∧
      e.Takes (l := Language.sandwich) registry 0 selector station.interpreter order.recipe 0 s turns
        (.ok ⟨order.components⟩) s := by
  have hask : Interpreter.ask (l := Language.sandwich) station.interpreter
      (SandwichCommand.finish ⟨order.components⟩) s = (.ok ⟨order.components⟩, s) := by
    have hfilled : order.components.isEmpty = false := by simpa using order.nonempty
    simp only [Interpreter.ask, Direct.method, interpreter, finish, hfilled]
    rfl
  have hfinish : e.Takes (l := Language.sandwich) registry 0 selector station.interpreter
      (SandwichRecipe.stack [] (order.components.foldl SandwichBody.add .empty))
      (1 + order.components.length) s [⟨SandwichCommand.finish ⟨order.components⟩, s⟩]
      (.ok ⟨order.components⟩) s := by
    rw [SandwichBody.foldl_add]
    exact .answered (l := Language.sandwich) (SandwichCommand.finish ⟨order.components⟩) .nil
      (hpermit _ (by omega)) hask (.done _ _ _)
  obtain ⟨adds, hinfos, htakes⟩ := (piles hpermit).fit (b := .empty) hfits (by omega) hfinish
  rw [List.append_nil] at htakes
  refine ⟨_, ?_, takes_recipe hpermit (by omega) htakes⟩
  rw [List.map_cons, List.map_append, hinfos]
  rfl

theorem takes_overfull (hover : station.maxComponents < order.components.length)
    (hsteps : station.maxComponents + 2 ≤ steps) :
    ∃ turns : List (Turn Language.sandwich σ),
      turns.map Turn.info =
        started :: (order.components.take (station.maxComponents + 1)).map addition ∧
      e.Takes (l := Language.sandwich) registry 0 selector station.interpreter order.recipe 0 s turns
        (.error ⟨⟨0, station.maxComponents + 1, addition order.components[station.maxComponents]⟩,
          .interpreter (.rejected s!"sandwich already has {station.maxComponents} components")⟩) s := by
  have hplace : 1 + station.maxComponents < steps := by omega
  obtain ⟨turns, hinfos, htakes⟩ := (piles hpermit).overflow (b := .empty) hover hplace
  refine ⟨⟨SandwichCommand.start, s⟩ :: turns, congrArg (List.cons started) hinfos,
    takes_recipe hpermit (by omega) ?_⟩
  rw [Nat.add_comm station.maxComponents]
  exact htakes

end

/-- What a station makes of an order is decided by its limit. An order with no more components than that is
filled, with all of them in their order; any other fails at the first component over the limit, which is
the last command that is dispatched. -/
theorem execute_sandwich_recipe (station : Station) (e : Engine σ) (registry : Registry Language σ)
    (selector : Option String) (s : σ) (order : SandwichOrder)
    (hi : registry.resolve Language.sandwich selector = .ok station.interpreter)
    (hcancelled : e.cancelled s = false)
    (hexhausted : ∀ k < min order.components.length station.maxComponents + 2,
      e.settings.exhausted k = false) :
    let o := (e.execute registry .sandwich selector order.recipe).outcome s
    let limit := station.maxComponents
    (order.components.length ≤ limit →
      o = ⟨.ok ⟨order.components⟩, s,
        dispatchesFrom 0 0 (started :: (order.components.map addition ++ [finished order])) ++
          [.completed (order.components.length + 2)]⟩ ∧
      o.events.countP (Event.isAt 0) = order.components.length + 2) ∧
    ∀ h : limit < order.components.length,
      let error : ExecutionError := ⟨⟨0, limit + 1, addition order.components[limit]⟩,
        .interpreter (.rejected s!"sandwich already has {limit} components")⟩
      o = ⟨.error error, s,
        dispatchesFrom 0 0 (started :: (order.components.take (limit + 1)).map addition) ++ [.failed error]⟩ ∧
      o.events.countP (Event.isAt 0) = limit + 2 ∧
      ∀ frame, .dispatched frame ∈ o.events → frame.command.name ≠ "FinishSandwich" := by
  intro o limit
  have hpermit : ∀ k < min order.components.length limit + 2,
      e.permit registry Language.sandwich selector k s = .ok station.interpreter :=
    fun k hk => Engine.permit_of_resolve hcancelled (hexhausted k hk) hi
  refine ⟨fun hfits => ?_, fun hover => ?_⟩
  · obtain ⟨turns, hinfos, htakes⟩ := takes_fitting hpermit hfits (by omega)
    have hlength : (started :: (order.components.map addition ++ [finished order])).length =
        order.components.length + 2 := by simp
    have ho := htakes.execute_ok hinfos
    rw [hlength] at ho
    refine ⟨ho, ?_⟩
    rw [show o = _ from ho, countP_isAt_dispatchesFrom rfl, hlength]
  · intro error
    obtain ⟨turns, hinfos, htakes⟩ := takes_overfull hpermit hover (by omega)
    have ho : o = ⟨.error error, s,
        dispatchesFrom 0 0 (started :: (order.components.take (limit + 1)).map addition) ++
          [.failed error]⟩ := htakes.execute_error hinfos
    refine ⟨ho, ?_, ?_⟩
    · rw [ho, countP_isAt_dispatchesFrom rfl, List.length_cons, List.length_map, List.length_take_of_le hover]
    · intro frame hmem
      rw [ho] at hmem
      rcases List.mem_append.1 hmem with hdispatch | hlast
      · rcases List.mem_cons.1 (command_mem_of_dispatchesFrom hdispatch) with hstarted | hadded
        · rw [hstarted]
          show "StartNewSandwich" ≠ "FinishSandwich"
          decide
        · obtain ⟨component, -, hadded⟩ := List.mem_map.1 hadded
          rw [← hadded]
          show "AddComponent" ≠ "FinishSandwich"
          decide
      · cases List.mem_singleton.1 hlast

def onlyStation (station : Station) : Registry Language Unit :=
  ⟨[⟨.sandwich, none, station.interpreter⟩]⟩

theorem execute_sandwich_recipe_house : ∃ order, Menu.houseSandwich = .ok order ∧
    let made (station : Station) :=
      (Engine.plain.execute (onlyStation station) .sandwich none order.recipe).outcome ()
    (made .standard).result = .ok ⟨order.components⟩ ∧
      (made .standard).events.countP (Event.isAt 0) = 4 ∧
      (made ⟨1⟩).result = .error ⟨⟨0, 2, ⟨⟨"sandwich"⟩, "AddComponent", "Salt"⟩⟩,
        .interpreter (.rejected "sandwich already has 1 components")⟩ ∧
      (made ⟨1⟩).events.countP (Event.isAt 0) = 3 := by
  have horder : ∃ order, Menu.houseSandwich = .ok order ∧
      order.components.map Ingredient.name = ["Cheese", "Salt"] := ⟨_, rfl, rfl⟩
  obtain ⟨order, horder, hnames⟩ := horder
  have hlength : order.components.length = 2 := by simpa using congrArg List.length hnames
  have hover : 1 < order.components.length := by omega
  have hsalt : order.components[1].name = "Salt" := by
    have hsecond : (order.components.map Ingredient.name)[1]? = some "Salt" := by rw [hnames]; rfl
    simpa [hover] using hsecond
  have hfits := (execute_sandwich_recipe .standard Engine.plain (onlyStation .standard) none () order
    rfl rfl fun _ _ => rfl).1 (by rw [hlength]; decide)
  have hfull := (execute_sandwich_recipe ⟨1⟩ Engine.plain (onlyStation ⟨1⟩) none () order rfl rfl
    fun _ _ => rfl).2 hover
  refine ⟨order, horder, congrArg Outcome.result hfits.1, hfits.2.trans (by rw [hlength]), ?_, hfull.2.1⟩
  have hresult := congrArg Outcome.result hfull.1
  rw [addition, hsalt] at hresult
  exact hresult

end Station

namespace Oven

variable {σ : Type} {e : Engine σ} {registry : Registry Language σ} {steps : Nat}
  {selector : Option String} (oven : Oven) {slot : Slot σ DoughStock} {s t : σ}

def addition (topping : Ingredient) : CommandInfo := ⟨⟨"pizza"⟩, "AddTopping", topping.name⟩

def prepared (order : PizzaOrder) : CommandInfo := ⟨⟨"pizza"⟩, "PrepareDough", order.size.name⟩

def baked (order : PizzaOrder) : CommandInfo := ⟨⟨"pizza"⟩, "Bake", s!"{order.minutes.toNat} min"⟩

theorem ask_top (ht : slot.set (slot.get t) t = t) (topping : Ingredient) (dough : Dough) :
    Interpreter.ask (l := Language.pizza) (oven.interpreter.within slot) (PizzaCommand.top topping dough) t =
      (top topping dough, t) := by
  simp only [Interpreter.ask, Direct.method, Interpreter.within, interpreter, ht]
  rcases top topping dough with failure | dough <;> rfl

theorem piles (ht : slot.set (slot.get t) t = t)
    (hpermit : ∀ k < steps,
      e.permit registry Language.pizza selector k t = .ok (oven.interpreter.within slot))
    (minutes : UInt32) :
    e.Piles (l := Language.pizza) registry steps selector (oven.interpreter.within slot) t
      (PizzaRecipe.layer minutes) Dough.add addition (fun dough => maxToppings - dough.toppings.length)
      (.rejected "more than 8 toppings") where
  room_push dough topping := by
    simp only [Dough.add, List.length_append, List.length_singleton]
    omega
  add topping rest dough index turns r u hroom hindex h := by
    have hfits : ¬ maxToppings ≤ dough.toppings.length := by omega
    have hask := oven.ask_top ht topping dough
    rw [top, if_neg hfits] at hask
    exact ⟨⟨PizzaCommand.top topping dough, t⟩, rfl, .answered (l := Language.pizza)
      (PizzaCommand.top topping dough) (.snoc .nil (PizzaRecipe.layer minutes rest)) (hpermit index hindex)
      hask h⟩
  refuse topping rest dough index hroom hindex := by
    have hfull : maxToppings ≤ dough.toppings.length := by omega
    have hask := oven.ask_top ht topping dough
    rw [top, if_pos hfull] at hask
    exact ⟨⟨PizzaCommand.top topping dough, t⟩, rfl, .failed (l := Language.pizza)
      (PizzaCommand.top topping dough) (.snoc .nil (PizzaRecipe.layer minutes rest)) (hpermit index hindex)
      hask⟩

variable {order : PizzaOrder}

theorem takes_outOfDough (hslot : slot.LawfulAt s) (hstock : slot.get s = some 0)
    (hpermit : e.permit registry Language.pizza selector 0 s = .ok (oven.interpreter.within slot)) :
    e.Takes (l := Language.pizza) registry 0 selector (oven.interpreter.within slot) order.recipe 0 s
      [⟨PizzaCommand.prepare order.size, s⟩]
      (.error ⟨⟨0, 0, prepared order⟩, .interpreter (.unavailable s!"{oven.maker} is out of dough")⟩)
      s := by
  have hask : Interpreter.ask (l := Language.pizza) (oven.interpreter.within slot)
      (PizzaCommand.prepare order.size) s =
      (.error (.unavailable s!"{oven.maker} is out of dough"), s) := by
    have hset : slot.set (some 0) s = s := hstock ▸ hslot.set_get
    simp only [Interpreter.ask, Direct.method, Interpreter.within, interpreter, hstock, prepare, if_pos,
      hset]
    rfl
  exact .failed (l := Language.pizza) (PizzaCommand.prepare order.size)
    (.snoc .nil (PizzaRecipe.layer order.minutes order.toppings)) hpermit hask

theorem takes_recipe (hstock : slot.get s ≠ some 0)
    (hpermit : e.permit registry Language.pizza selector 0 s = .ok (oven.interpreter.within slot))
    {turns : List (Turn Language.pizza σ)} {r : Except ExecutionError Pizza}
    (h : e.Takes (l := Language.pizza) registry 0 selector (oven.interpreter.within slot)
      (PizzaRecipe.layer order.minutes order.toppings (.plain order.size)) 1
      (slot.set ((slot.get s).map (· - 1)) s) turns r t) :
    e.Takes (l := Language.pizza) registry 0 selector (oven.interpreter.within slot) order.recipe 0 s
      (⟨PizzaCommand.prepare order.size, s⟩ :: turns) r t := by
  have hask : Interpreter.ask (l := Language.pizza) (oven.interpreter.within slot)
      (PizzaCommand.prepare order.size) s =
      (.ok (Dough.plain order.size), slot.set ((slot.get s).map (· - 1)) s) := by
    simp only [Interpreter.ask, Direct.method, Interpreter.within, interpreter]
    rcases hget : slot.get s with _ | left
    · rfl
    · have hleft : left ≠ 0 := fun hzero => hstock (hzero ▸ hget)
      simp only [prepare, if_neg hleft]
      rfl
  exact .answered (l := Language.pizza) (PizzaCommand.prepare order.size)
    (.snoc .nil (PizzaRecipe.layer order.minutes order.toppings)) hpermit hask h

theorem takes_fitting (ht : slot.set (slot.get t) t = t)
    (hpermit : ∀ k < steps,
      e.permit registry Language.pizza selector k t = .ok (oven.interpreter.within slot))
    (hfits : order.toppings.length ≤ maxToppings) (hsteps : order.toppings.length + 2 ≤ steps) :
    ∃ turns : List (Turn Language.pizza σ),
      turns.map Turn.info = order.toppings.map addition ++ [baked order] ∧
      e.Takes (l := Language.pizza) registry 0 selector (oven.interpreter.within slot)
        (PizzaRecipe.layer order.minutes order.toppings (.plain order.size)) 1 t turns
        (.ok ⟨order.size, order.toppings, order.minutes, oven.maker⟩) t := by
  let dough : Dough := ⟨order.size, order.toppings⟩
  have hask : Interpreter.ask (l := Language.pizza) (oven.interpreter.within slot)
      (PizzaCommand.bake dough order.minutes) t = (.ok (dough.bake order.minutes oven.maker), t) := by
    simp only [Interpreter.ask, Direct.method, Interpreter.within, interpreter, ht]
    rfl
  have hbake : e.Takes (l := Language.pizza) registry 0 selector (oven.interpreter.within slot)
      (PizzaRecipe.layer order.minutes [] (order.toppings.foldl Dough.add (.plain order.size)))
      (1 + order.toppings.length) t [⟨PizzaCommand.bake dough order.minutes, t⟩]
      (.ok (dough.bake order.minutes oven.maker)) t := by
    rw [Dough.foldl_add]
    exact .answered (l := Language.pizza) (PizzaCommand.bake dough order.minutes) .nil
      (hpermit _ (by omega)) hask (.done _ _ _)
  obtain ⟨adds, hinfos, htakes⟩ :=
    (oven.piles ht hpermit order.minutes).fit (b := .plain order.size) hfits (by omega) hbake
  rw [List.append_nil] at htakes
  refine ⟨_, ?_, htakes⟩
  rw [List.map_append, hinfos]
  rfl

theorem takes_overfull (ht : slot.set (slot.get t) t = t)
    (hpermit : ∀ k < steps,
      e.permit registry Language.pizza selector k t = .ok (oven.interpreter.within slot))
    (hover : 8 < order.toppings.length) (hsteps : 10 ≤ steps) :
    ∃ turns : List (Turn Language.pizza σ), turns.map Turn.info = (order.toppings.take 9).map addition ∧
      e.Takes (l := Language.pizza) registry 0 selector (oven.interpreter.within slot)
        (PizzaRecipe.layer order.minutes order.toppings (.plain order.size)) 1 t turns
        (.error ⟨⟨0, 9, addition order.toppings[8]⟩, .interpreter (.rejected "more than 8 toppings")⟩)
        t :=
  (oven.piles ht hpermit order.minutes).overflow (b := .plain order.size) hover hsteps

theorem map_toNat_sub_one {stock : DoughStock} (h : stock ≠ some 0) :
    (stock.map (· - 1)).map UInt32.toNat = stock.map (·.toNat - 1) := by
  cases stock with
  | none => rfl
  | some left =>
    have hpos : left.toNat ≠ 0 := fun hzero => h (congrArg some (UInt32.toNat_inj.1 hzero))
    have hle : 1 ≤ left := UInt32.le_iff_toNat_le.2 (Nat.one_le_iff_ne_zero.2 hpos)
    simp [UInt32.toNat_sub_of_le _ _ hle]

/-- What an oven makes of an order is decided by its dough and by the number of toppings. Without dough the
order fails at once and the stock stays empty. Else it uses one portion, whatever comes of it: with 8
toppings at most it is filled as it was ordered, by the maker of the oven, and with more it fails at the
ninth, which is the last command that is dispatched. -/
theorem execute_pizza_recipe (oven : Oven) (e : Engine σ) (registry : Registry Language σ)
    (selector : Option String) {slot : Slot σ DoughStock} {s : σ} (hslot : slot.LawfulAt s)
    (order : PizzaOrder)
    (hi : registry.resolve Language.pizza selector = .ok (oven.interpreter.within slot))
    (hcancelled : ∀ stock, e.cancelled (slot.set stock s) = false)
    (hexhausted : ∀ k < min order.toppings.length 8 + 2, e.settings.exhausted k = false) :
    let o := (e.execute registry .pizza selector order.recipe).outcome s
    (slot.get s = some 0 →
      let error : ExecutionError :=
        ⟨⟨0, 0, prepared order⟩, .interpreter (.unavailable s!"{oven.maker} is out of dough")⟩
      o = ⟨.error error, s, [.dispatched error.frame, .failed error]⟩ ∧ slot.get o.state = some 0) ∧
    (slot.get s ≠ some 0 →
      o.state = slot.set ((slot.get s).map (· - 1)) s ∧
      (slot.get o.state).map UInt32.toNat = (slot.get s).map (·.toNat - 1) ∧
      (order.toppings.length ≤ 8 →
        o.result = .ok ⟨order.size, order.toppings, order.minutes, oven.maker⟩ ∧
        o.events = dispatchesFrom 0 0 (prepared order :: (order.toppings.map addition ++ [baked order])) ++
          [.completed (order.toppings.length + 2)] ∧
        o.events.countP (Event.isAt 0) = order.toppings.length + 2) ∧
      ∀ h : 8 < order.toppings.length,
        let error : ExecutionError := ⟨⟨0, 9, addition order.toppings[8]⟩,
          .interpreter (.rejected "more than 8 toppings")⟩
        o.result = .error error ∧
        o.events = dispatchesFrom 0 0 (prepared order :: (order.toppings.take 9).map addition) ++
          [.failed error] ∧
        o.events.countP (Event.isAt 0) = 10) := by
  intro o
  have hfirst : e.permit registry Language.pizza selector 0 s = .ok (oven.interpreter.within slot) := by
    have hs := hcancelled (slot.get s)
    rw [hslot.set_get] at hs
    exact Engine.permit_of_resolve hs e.settings.exhausted_zero hi
  refine ⟨fun hstock => ?_, fun hstock => ?_⟩
  · intro error
    have ho : o = ⟨.error error, s, [.dispatched error.frame, .failed error]⟩ :=
      (oven.takes_outOfDough hslot hstock hfirst).execute
    refine ⟨ho, ?_⟩
    rw [ho]
    exact hstock
  · let left := slot.set ((slot.get s).map (· - 1)) s
    have hleft : slot.set (slot.get left) left = left := by
      simp only [left, hslot.get_set, hslot.set_set]
    have hpermit : ∀ k < min order.toppings.length 8 + 2,
        e.permit registry Language.pizza selector k left = .ok (oven.interpreter.within slot) :=
      fun k hk => Engine.permit_of_resolve (hcancelled _) (hexhausted k hk) hi
    have hused : (slot.get left).map UInt32.toNat = (slot.get s).map (·.toNat - 1) := by
      rw [hslot.get_set]
      exact map_toNat_sub_one hstock
    by_cases hfits : order.toppings.length ≤ 8
    · obtain ⟨turns, hinfos, htakes⟩ := oven.takes_fitting hleft hpermit hfits (by omega)
      have hlength : (prepared order :: (order.toppings.map addition ++ [baked order])).length =
          order.toppings.length + 2 := by simp
      have ho := (oven.takes_recipe hstock hfirst htakes).execute_ok
        (congrArg (List.cons (prepared order)) hinfos)
      rw [hlength] at ho
      rw [show o = _ from ho]
      refine ⟨rfl, hused, fun _ => ⟨rfl, rfl, ?_⟩, fun hover => absurd hfits (by omega)⟩
      rw [countP_isAt_dispatchesFrom rfl, hlength]
    · have hover : 8 < order.toppings.length := by omega
      obtain ⟨turns, hinfos, htakes⟩ := oven.takes_overfull hleft hpermit hover (by omega)
      have ho := (oven.takes_recipe hstock hfirst htakes).execute_error
        (congrArg (List.cons (prepared order)) hinfos)
      rw [show o = _ from ho]
      refine ⟨rfl, hused, fun hfits' => absurd hfits' hfits, fun _ => ⟨rfl, rfl, ?_⟩⟩
      rw [countP_isAt_dispatchesFrom rfl, List.length_cons, List.length_map, List.length_take_of_le hover]

end Oven

theorem Store.oven_lawfulAt {n : Nat} {s : Store} (hn : n < s.ovens.length) :
    (Store.oven n).LawfulAt s where
  get_set x := by simp [oven, cell, List.getD_eq_getElem?_getD, hn]
  set_get := by simp [oven, cell, List.getD_eq_getElem?_getD, hn]
  set_set x y := by simp [oven]

namespace Oven

def houseOven : Oven := ⟨houseMaker⟩

def onePortion : Store := { Store.empty with ovens := [some 1] }

def onlyOven : Registry Language Store :=
  ⟨[⟨.pizza, none, houseOven.interpreter.within (Store.oven 0)⟩]⟩

theorem execute_pizza_recipe_onePortion : ∃ order, Menu.housePizza = .ok order ∧
    let made (s : Store) := (Engine.plain.execute onlyOven .pizza none order.recipe).outcome s
    let left := (made onePortion).state
    (made onePortion).result = .ok ⟨order.size, order.toppings, 12, "house"⟩ ∧
      (made onePortion).events.countP (Event.isAt 0) = 5 ∧
      (Store.oven 0).get left = some 0 ∧
      (made left).result = .error ⟨⟨0, 0, ⟨⟨"pizza"⟩, "PrepareDough", "medium"⟩⟩,
        .interpreter (.unavailable "house is out of dough")⟩ := by
  have horder : ∃ order, Menu.housePizza = .ok order ∧ order.toppings.length = 3 ∧ order.minutes = 12 ∧
      order.size = .medium := ⟨_, rfl, rfl, rfl, rfl⟩
  obtain ⟨order, horder, hlength, hminutes, hsize⟩ := horder
  have hrun (s : Store) (hs : 0 < s.ovens.length) := execute_pizza_recipe houseOven Engine.plain
    onlyOven none (Store.oven_lawfulAt hs) order rfl (fun _ => rfl) fun _ _ => rfl
  obtain ⟨hstate, -, hfits, -⟩ := (hrun onePortion (by decide)).2 (by decide)
  obtain ⟨hbaked, -, hcount⟩ := hfits (by rw [hlength]; decide)
  refine ⟨order, horder, ?_⟩
  intro made left
  have hleft : left = { Store.empty with ovens := [some 0] } := hstate
  obtain ⟨hempty, -⟩ := (hrun left (by rw [hleft]; decide)).1 (by rw [hleft]; rfl)
  refine ⟨hbaked.trans (by rw [hminutes]; rfl), hcount.trans (by rw [hlength]), by rw [hleft]; rfl, ?_⟩
  refine (congrArg Outcome.result hempty).trans ?_
  rw [prepared, hsize]
  rfl

end Oven

end Brigade
