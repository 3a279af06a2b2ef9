import Brigade.Kitchen.Menu
import Brigade.Proofs.Turns

/-! Recipes. A recipe is a chain of commands, in which each is handed the body that the interpreter gave
for the one before. Whatever the interpreter answers, a run of a recipe takes the commands of its order in
their order, and goes on up to the first that fails. -/

namespace Brigade

/-- Applies each command to the body that it is handed. -/
def handed {κ : Type 1} {β : Type} (commands : List (β → κ)) (bodies : List β) : List κ :=
  List.zipWith (fun command body => command body) commands bodies

section

variable {A : Algebra} {β γ : Type}

/-- The program issues the commands one after the other, the first of them handed `b` and every other one
the body that is read off the answer before. Its value is read off the last answer. -/
inductive Program.Chain (body? : (c : A.Command) → A.Answer c → Option β)
    (value? : (c : A.Command) → A.Answer c → Option γ) :
    List (β → A.Command) → β → Program A γ → Prop
  | last (command : β → A.Command) (b : β) (bound : Bound A (A.Answer (command b)) γ)
    (value : A.Answer (command b) → γ) (hvalue : ∀ v, value? (command b) v = some (value v))
    (hend : ∀ v, resume bound v = .done (value v)) :
    Chain body? value? [command] b (.step (command b) bound)
  | next (command : β → A.Command) {commands : List (β → A.Command)} (b : β)
    (bound : Bound A (A.Answer (command b)) γ) (body : A.Answer (command b) → β)
    (hbody : ∀ v, body? (command b) v = some (body v))
    (h : ∀ v, Chain body? value? commands (body v) (resume bound v)) :
    Chain body? value? (command :: commands) b (.step (command b) bound)

/-- What is said of a program and its value is so of two programs bound together, if it is of each. -/
structure Program.ClosedUnderBind (Φ : (α : Type) → Program A α → α → Prop) : Prop where
  bind : ∀ {α β : Type} {p : Program A α} {f : α → Program A β} {v : α} {w : β},
    Φ α p v → Φ β (f v) w → Φ β (p.bind f) w

/-- The programs put items on a body one by one, and finish it when none is left. -/
structure Program.Stacks {ι : Type} (stack : List ι → β → Program A γ) (put : ι → β → Program A β)
    (finish : β → Program A γ) : Prop where
  nil : ∀ b, stack [] b = finish b
  cons : ∀ x rest b, stack (x :: rest) b = (put x b).bind (stack rest)

/-- Items for which there is room are put on the body, and it is finished with all of them. -/
theorem Program.Stacks.holds {ι : Type} {stack : List ι → β → Program A γ}
    {put : ι → β → Program A β} {finish : β → Program A γ} (h : Stacks stack put finish)
    {Φ : (α : Type) → Program A α → α → Prop} (hΦ : ClosedUnderBind Φ) (push : β → ι → β)
    (room : β → Nat) (hroom : ∀ b x, room (push b x) = room b - 1)
    (hput : ∀ x b, 0 < room b → Φ β (put x b) (push b x)) {items : List ι} {b : β} {v : γ}
    (hfits : items.length ≤ room b) (hfinish : Φ γ (finish (items.foldl push b)) v) :
    Φ γ (stack items b) v := by
  induction items generalizing b with
  | nil =>
    rw [h.nil]
    exact hfinish
  | cons x rest ih =>
    rw [List.length_cons] at hfits
    have hrest : rest.length ≤ room (push b x) := by
      rw [hroom]
      omega
    rw [h.cons]
    exact hΦ.bind (hput x b (by omega)) (ih hrest hfinish)

end

theorem SandwichBody.foldl_add (components : List Ingredient) (body : SandwichBody) :
    components.foldl SandwichBody.add body = ⟨body.components ++ components⟩ := by
  induction components generalizing body with
  | nil => simp
  | cons component rest ih => simp [ih, SandwichBody.add]

theorem Dough.foldl_add (toppings : List Ingredient) (dough : Dough) :
    toppings.foldl Dough.add dough = ⟨dough.size, dough.toppings ++ toppings⟩ := by
  induction toppings generalizing dough with
  | nil => simp
  | cons topping rest ih => simp [ih, Dough.add]

namespace SandwichCommand

def body? : (c : SandwichCommand) → c.Answer → Option SandwichBody
  | .start, body => some body
  | .add _ _, body => some body
  | .finish _, _ => none

def sandwich? : (c : SandwichCommand) → c.Answer → Option Sandwich
  | .start, _ => none
  | .add _ _, _ => none
  | .finish _, sandwich => some sandwich

end SandwichCommand

namespace PizzaCommand

def dough? : (c : PizzaCommand) → c.Answer → Option Dough
  | .prepare _, dough => some dough
  | .top _ _, dough => some dough
  | .bake _ _, _ => none

def pizza? : (c : PizzaCommand) → c.Answer → Option Pizza
  | .prepare _, _ => none
  | .top _ _, _ => none
  | .bake _ _, pizza => some pizza

end PizzaCommand

namespace SandwichOrder

theorem stack_chain (components : List Ingredient) (body : SandwichBody) :
    Program.Chain (A := sandwichAlgebra) SandwichCommand.body? SandwichCommand.sandwich?
      (components.map SandwichCommand.add ++ [SandwichCommand.finish]) body
      (SandwichRecipe.stack components body) := by
  induction components generalizing body with
  | nil =>
    exact .last (A := sandwichAlgebra) SandwichCommand.finish body .nil (fun sandwich => sandwich)
      (fun _ => rfl) fun _ => rfl
  | cons component rest ih =>
    exact .next (A := sandwichAlgebra) (SandwichCommand.add component) body
      (.snoc .nil (SandwichRecipe.stack rest)) (fun body => body) (fun _ => rfl) ih

theorem recipe_chain (o : SandwichOrder) :
    Program.Chain (A := sandwichAlgebra) SandwichCommand.body? SandwichCommand.sandwich?
      ((fun _ => SandwichCommand.start) ::
        (o.components.map SandwichCommand.add ++ [SandwichCommand.finish])) .empty o.recipe :=
  .next (A := sandwichAlgebra) (fun _ => SandwichCommand.start) SandwichBody.empty
    (.snoc .nil (SandwichRecipe.stack o.components)) (fun body => body) (fun _ => rfl)
    (stack_chain o.components)

/-- An order within the limit is filled, if each of its commands does its part. -/
theorem recipe_holds {Φ : (α : Type) → Program sandwichAlgebra α → α → Prop}
    (hΦ : Program.ClosedUnderBind Φ) {limit : Nat} {order : SandwichOrder}
    (hheight : order.components.length ≤ limit)
    (hstart : Φ SandwichBody SandwichRecipe.start .empty)
    (hadd : ∀ component (body : SandwichBody), body.components.length < limit →
      Φ SandwichBody (SandwichRecipe.add component body) (body.add component))
    (hfinish : ∀ body : SandwichBody, body.components ≠ [] →
      Φ Sandwich (SandwichRecipe.finish body) ⟨body.components⟩) :
    Φ Sandwich order.recipe ⟨order.components⟩ := by
  have hstacks : Program.Stacks SandwichRecipe.stack SandwichRecipe.add SandwichRecipe.finish :=
    ⟨fun _ => rfl, fun _ _ _ => rfl⟩
  refine hΦ.bind hstart (hstacks.holds hΦ SandwichBody.add
    (fun body => limit - body.components.length) ?_ ?_ hheight ?_)
  · intro body component
    simp only [SandwichBody.add, List.length_append, List.length_singleton]
    omega
  · exact fun component body hroom => hadd component body (by omega)
  · rw [SandwichBody.foldl_add]
    exact hfinish ⟨order.components⟩ order.nonempty

end SandwichOrder

namespace PizzaOrder

theorem layer_chain (minutes : UInt32) (toppings : List Ingredient) (dough : Dough) :
    Program.Chain (A := pizzaAlgebra) PizzaCommand.dough? PizzaCommand.pizza?
      (toppings.map PizzaCommand.top ++ [fun dough => .bake dough minutes]) dough
      (PizzaRecipe.layer minutes toppings dough) := by
  induction toppings generalizing dough with
  | nil =>
    exact .last (A := pizzaAlgebra) (fun dough => PizzaCommand.bake dough minutes) dough .nil
      (fun pizza => pizza) (fun _ => rfl) fun _ => rfl
  | cons topping rest ih =>
    exact .next (A := pizzaAlgebra) (PizzaCommand.top topping) dough
      (.snoc .nil (PizzaRecipe.layer minutes rest)) (fun dough => dough) (fun _ => rfl) ih

theorem recipe_chain (o : PizzaOrder) :
    Program.Chain (A := pizzaAlgebra) PizzaCommand.dough? PizzaCommand.pizza?
      ((fun _ => PizzaCommand.prepare o.size) ::
        (o.toppings.map PizzaCommand.top ++ [fun dough => .bake dough o.minutes])) (.plain o.size)
      o.recipe :=
  .next (A := pizzaAlgebra) (fun _ => PizzaCommand.prepare o.size) (Dough.plain o.size)
    (.snoc .nil (PizzaRecipe.layer o.minutes o.toppings)) (fun dough => dough) (fun _ => rfl)
    (layer_chain o.minutes o.toppings)

theorem layer_holds {Φ : (α : Type) → Program pizzaAlgebra α → α → Prop}
    (hΦ : Program.ClosedUnderBind Φ) {limit : Nat} {maker : String} {order : PizzaOrder}
    (htoppings : order.toppings.length ≤ limit)
    (htop : ∀ topping (dough : Dough), dough.toppings.length < limit →
      Φ Dough (PizzaRecipe.top topping dough) (dough.add topping))
    (hbake : ∀ dough : Dough,
      Φ Pizza (PizzaRecipe.bakeFor dough order.minutes) (dough.bake order.minutes maker)) :
    Φ Pizza (PizzaRecipe.layer order.minutes order.toppings (.plain order.size))
      ⟨order.size, order.toppings, order.minutes, maker⟩ := by
  have hstacks : Program.Stacks (PizzaRecipe.layer order.minutes) PizzaRecipe.top fun dough =>
      PizzaRecipe.bakeFor dough order.minutes := ⟨fun _ => rfl, fun _ _ _ => rfl⟩
  refine hstacks.holds hΦ Dough.add (fun dough => limit - dough.toppings.length) ?_ ?_ htoppings ?_
  · intro dough topping
    simp only [Dough.add, List.length_append, List.length_singleton]
    omega
  · exact fun topping dough hroom => htop topping dough (by omega)
  · rw [Dough.foldl_add]
    exact hbake ⟨order.size, order.toppings⟩

theorem minutes_of_bake_mem {o : PizzaOrder} {commands : List PizzaCommand} {doughs : List Dough}
    (h : commands <+: PizzaCommand.prepare o.size ::
      handed (o.toppings.map PizzaCommand.top ++ [fun dough => .bake dough o.minutes]) doughs)
    {dough : Dough} {minutes : UInt32} (hmem : .bake dough minutes ∈ commands) :
    minutes = o.minutes := by
  rcases List.mem_cons.1 (h.subset hmem) with hprepare | hnext
  · cases hprepare
  · rw [handed, ← List.map_uncurry_zip_eq_zipWith] at hnext
    obtain ⟨⟨command, body⟩, hzip, hbake⟩ := List.mem_map.1 hnext
    rcases List.mem_append.1 (List.of_mem_zip hzip).1 with htop | hlast
    · obtain ⟨topping, -, rfl⟩ := List.mem_map.1 htop
      cases hbake
    · obtain rfl := List.mem_singleton.1 hlast
      cases hbake
      rfl

end PizzaOrder

namespace Engine

variable {L : Type} [Hierarchy L] [DecidableEq L] {l : L} [Direct l] {σ β γ : Type} {e : Engine σ}
  {registry : Registry L σ} {selector : Option String} {i : Interpreter σ (algebra l)}
  {body? : (c : (algebra l).Command) → (algebra l).Answer c → Option β}
  {value? : (c : (algebra l).Command) → (algebra l).Answer c → Option γ}

theorem Takes.chain {depth index : Nat} {s t : σ} {turns : List (Turn l σ)}
    {p : Program (algebra l) γ} {r : Except ExecutionError γ}
    (h : e.Takes registry depth selector i p index s turns r t)
    {commands : List (β → (algebra l).Command)} {b : β} (hp : p.Chain body? value? commands b) :
    turns.map Turn.command <+: handed commands (b :: turns.filterMap (Turn.answered? i body?)) ∧
    (∀ v, r = .ok v → turns.length = commands.length ∧
      ∃ turn, turns.getLast? = some turn ∧ turn.answered? i value? = some v) ∧
    ∀ error, r = .error error → error.frame.index < index + commands.length := by
  induction hp generalizing index s turns with
  | last command b bound value hvalue hend =>
    cases h with
    | refused c bound hpermit => simp
    | @failed _ s t failure _ _ hpermit hask => simp [handed]
    | @answered _ s t _ rest _ _ _ v hpermit hask hrest =>
      have hturn : Turn.answer i (⟨command b, s⟩ : Turn l σ) = .ok v := congrArg Prod.fst hask
      rw [hend] at hrest
      cases hrest
      simp [handed, Turn.answered?_ok hturn, hvalue]
  | next command b bound body hbody hchain ih =>
    cases h with
    | refused c bound hpermit => simp
    | @failed _ s t failure _ _ hpermit hask =>
      have hturn : Turn.answer i (⟨command b, s⟩ : Turn l σ) = .error failure := congrArg Prod.fst hask
      simp [handed, Turn.answered?_error hturn]
    | @answered _ s t _ rest _ _ _ v hpermit hask hrest =>
      have hturn : Turn.answer i (⟨command b, s⟩ : Turn l σ) = .ok v := congrArg Prod.fst hask
      have hbody' : Turn.answered? i body? (⟨command b, s⟩ : Turn l σ) = some (body v) :=
        (Turn.answered?_ok hturn body?).trans (hbody v)
      obtain ⟨hhanded, hok, herror⟩ := ih v hrest
      refine ⟨?_, ?_, ?_⟩
      · rw [List.filterMap_cons_some hbody']
        exact List.cons_prefix_cons.2 ⟨rfl, hhanded⟩
      · intro w hw
        obtain ⟨hlength, turn, hlast, hvalue⟩ := hok w hw
        refine ⟨congrArg Nat.succ hlength, turn, ?_, hvalue⟩
        rw [List.getLast?_cons, hlast]
        rfl
      · intro error hr
        have hindex := herror error hr
        rw [List.length_cons]
        omega

theorem Takes.failure_of_error {α : Type} {depth steps : Nat} {s t : σ} {turns : List (Turn l σ)}
    {p : Program (algebra l) α} {error : ExecutionError}
    (h : e.Takes registry depth selector i p 0 s turns (.error error) t)
    (hi : registry.resolve l selector = .ok i) (hsteps : error.frame.index < steps) :
    (∃ before turn failure, turns = before ++ [turn] ∧ (∀ other ∈ before, other.Answered i) ∧
      turn.answer i = .error failure ∧ error = ⟨⟨depth, before.length, turn.info⟩, .interpreter failure⟩) ∨
    (∀ turn ∈ turns, turn.Answered i) ∧ error.frame.index = turns.length ∧ turns.length < steps ∧
      (error.cause = .cancelled ∧ e.cancelled t = true ∨
        error.cause = .stepLimit e.settings.maxSteps.toNat ∧ e.settings.exhausted turns.length = true) := by
  rcases h.of_error rfl with ⟨before, turn, failure, hturns, hbefore, hanswer, herror⟩ |
    ⟨hall, hindex, hrefused⟩
  · rw [Nat.zero_add] at herror
    exact .inl ⟨before, turn, failure, hturns, hbefore, hanswer, herror⟩
  · rw [Nat.zero_add] at hindex
    refine .inr ⟨hall, hindex, hindex ▸ hsteps, ?_⟩
    rw [hindex] at hrefused
    rcases permit_eq_error hrefused with hcancelled | hexhausted | ⟨unbound, -, hunbound⟩
    · exact .inl hcancelled
    · exact .inr hexhausted
    · cases hi.symm.trans hunbound

/-- How a run carries out a chain of commands, `first` and then `next`, `steps` of them in all. -/
structure CarriesOut (e : Engine σ) (selector : Option String) (i : Interpreter σ (algebra l))
    (first : (algebra l).Command) (next : List (β → (algebra l).Command))
    (body? : (c : (algebra l).Command) → (algebra l).Answer c → Option β)
    (value? : (c : (algebra l).Command) → (algebra l).Answer c → Option γ) (steps : Nat)
    (turns : List (Turn l σ)) (acts : History L σ) (o : Outcome σ ExecutionError γ) : Prop where
  /-- The calls that the run makes are those of its turns. -/
  calls : acts.filter Act.isCall = turns.map (Turn.call i selector)
  /-- All that the observers hear of is the turns, and last how the run ended. -/
  events : ∃ last, (∀ frame, last ≠ .dispatched frame) ∧
    o.events = dispatchesFrom 0 0 (turns.map Turn.info) ++ [last]
  /-- The turns are commands of the chain, from the first on, each handed the body that the turn before
  was answered. -/
  commands : turns.map Turn.command <+: first :: handed next (turns.filterMap (Turn.answered? i body?))
  /-- A value is the last answer, after all the steps. -/
  value : ∀ v, o.result = .ok v → turns.length = steps ∧ o.events.getLast? = some (.completed steps) ∧
    (∀ turn ∈ turns, turn.Answered i) ∧
    ∃ turn, turns.getLast? = some turn ∧ turn.answered? i value? = some v
  /-- A failure is that of the first turn that is not answered, and of no turn only where the run is
  cancelled or cut by the limit. -/
  failure : ∀ error, o.result = .error error →
    (∃ before turn failure, turns = before ++ [turn] ∧ (∀ other ∈ before, other.Answered i) ∧
      turn.answer i = .error failure ∧ error = ⟨⟨0, before.length, turn.info⟩, .interpreter failure⟩) ∨
    (∀ turn ∈ turns, turn.Answered i) ∧ error.frame.index = turns.length ∧ turns.length < steps ∧
      (error.cause = .cancelled ∧ e.cancelled o.state = true ∨
        error.cause = .stepLimit e.settings.maxSteps.toNat ∧ e.settings.exhausted turns.length = true)
  /-- With nothing in its way, the run succeeds exactly if every turn is answered. -/
  ok_iff : (∀ state, e.cancelled state = false) → (∀ k < steps, e.settings.exhausted k = false) →
    ((∃ v, o.result = .ok v) ↔ ∀ turn ∈ turns, turn.Answered i)

theorem exists_carriesOut {p : Program (algebra l) γ} {first : (algebra l).Command}
    {next : List (β → (algebra l).Command)} {b : β} {steps : Nat}
    (hp : p.Chain body? value? ((fun _ => first) :: next) b) (hsteps : next.length + 1 = steps)
    (hi : registry.resolve l selector = .ok i) (s : σ) :
    ∃ turns, e.CarriesOut selector i first next body? value? steps turns
      (e.history registry e.settings.maxDepth.toNat 0 l selector p ⟨s, []⟩)
      ((e.execute registry l selector p).outcome s) := by
  obtain ⟨turns, r, t, htakes⟩ : ∃ turns r t, e.Takes registry 0 selector i p 0 s turns r t :=
    exists_takes hi p 0 s
  obtain ⟨hcommands, hvalue, hindex⟩ := htakes.chain hp
  rw [List.length_cons, hsteps] at hvalue hindex
  rw [Nat.zero_add] at hindex
  have hcalls := htakes.filter_isCall_history e.settings.maxDepth.toNat
  refine ⟨turns, ?_⟩
  rcases r with error | v
  · rw [htakes.execute_error rfl]
    refine ⟨hcalls, ⟨_, by simp, rfl⟩, hcommands, by simp, ?_, ?_⟩
    · rintro _ ⟨⟩
      exact htakes.failure_of_error hi (hindex error rfl)
    · intro hcancelled hexhausted
      refine iff_of_false (by simp) fun hall => ?_
      rcases htakes.failure_of_error hi (hindex error rfl) with
        ⟨before, turn, failure, rfl, -, hanswer, -⟩ | ⟨-, -, hlt, ⟨-, htrue⟩ | ⟨-, htrue⟩⟩
      · exact Turn.not_answered hanswer (hall turn (by simp))
      · cases (hcancelled t).symm.trans htrue
      · cases (hexhausted _ hlt).symm.trans htrue
  · obtain ⟨hlength, hlast⟩ := hvalue v rfl
    have hanswered := htakes.answered_of_ok rfl
    rw [htakes.execute_ok rfl]
    refine ⟨hcalls, ⟨_, by simp, rfl⟩, hcommands, ?_, by simp, fun _ _ => iff_of_true ⟨v, rfl⟩ hanswered⟩
    rintro _ ⟨⟩
    exact ⟨hlength, by simp [hlength], hanswered, hlast⟩

/-- A recipe dispatches its order, whoever interprets it and whatever is answered. A sandwich is started,
gets the components of the order in their order and is finished; the dough of a pizza is prepared, gets the
toppings of the order in their order and is baked, for 5 to 30 minutes. Each command is handed what the one
before was answered, and the run goes on up to the first that is not answered. -/
theorem execute_recipe (e : Engine σ) (registry : Registry Language σ) (selector : Option String) (s : σ) :
    (∀ (i : Interpreter σ (algebra Language.sandwich)) (order : SandwichOrder),
      registry.resolve .sandwich selector = .ok i → ∃ turns,
        e.CarriesOut (l := Language.sandwich) selector i SandwichCommand.start
          (order.components.map SandwichCommand.add ++ [SandwichCommand.finish])
          SandwichCommand.body? SandwichCommand.sandwich? (order.components.length + 2) turns
          (e.history registry e.settings.maxDepth.toNat 0 .sandwich selector order.recipe ⟨s, []⟩)
          ((e.execute registry .sandwich selector order.recipe).outcome s)) ∧
    ∀ (i : Interpreter σ (algebra Language.pizza)) (order : PizzaOrder),
      registry.resolve .pizza selector = .ok i → ∃ turns,
        e.CarriesOut (l := Language.pizza) selector i (PizzaCommand.prepare order.size)
          (order.toppings.map PizzaCommand.top ++ [fun dough => .bake dough order.minutes])
          PizzaCommand.dough? PizzaCommand.pizza? (order.toppings.length + 2) turns
          (e.history registry e.settings.maxDepth.toNat 0 .pizza selector order.recipe ⟨s, []⟩)
          ((e.execute registry .pizza selector order.recipe).outcome s) ∧
        ∀ turn ∈ turns, ∀ dough minutes, turn.command = .bake dough minutes →
          5 ≤ minutes.toNat ∧ minutes.toNat ≤ 30 := by
  constructor
  · intro i order hi
    have hsteps : (order.components.map SandwichCommand.add ++ [SandwichCommand.finish]).length + 1 =
        order.components.length + 2 := by simp
    exact exists_carriesOut order.recipe_chain hsteps hi s
  · intro i order hi
    have hsteps : (order.toppings.map PizzaCommand.top ++
        [fun dough => PizzaCommand.bake dough order.minutes]).length + 1 = order.toppings.length + 2 := by
      simp
    obtain ⟨turns, hrun⟩ := exists_carriesOut order.recipe_chain hsteps hi s
    refine ⟨turns, hrun, fun turn hturn dough minutes hbake => ?_⟩
    have hmem : PizzaCommand.bake dough minutes ∈ turns.map Turn.command :=
      List.mem_map.2 ⟨turn, hturn, hbake⟩
    obtain rfl := PizzaOrder.minutes_of_bake_mem hrun.commands hmem
    exact order.bakeable

def forgetfulMaker : Interpreter Unit (algebra Language.sandwich) := fun m s => match m with
  | .start => (.ok SandwichBody.empty, s)
  | .add component _ => (.ok ⟨[component]⟩, s)
  | .finish body => (.ok ⟨body.components⟩, s)

def idleMaker : Interpreter Unit (algebra Language.pizza) := fun _ s => (.error .aborted, s)

def oddMakers : Registry Language Unit :=
  ⟨[⟨.sandwich, none, forgetfulMaker⟩, ⟨.pizza, none, idleMaker⟩]⟩

theorem execute_recipe_oddMakers : ∃ sandwich pizza, Menu.houseSandwich = .ok sandwich ∧
    Menu.housePizza = .ok pizza ∧
    let made := (plain.execute oddMakers .sandwich none sandwich.recipe).outcome ()
    let refused := (plain.execute oddMakers .pizza none pizza.recipe).outcome ()
    (∃ v, made.result = .ok v) ∧ made.events.getLast? = some (.completed (sandwich.components.length + 2)) ∧
      refused.result =
        .error ⟨⟨0, 0, pizzaAlgebra.describe (.prepare pizza.size)⟩, .interpreter .aborted⟩ := by
  have horders : ∃ sandwich pizza, Menu.houseSandwich = .ok sandwich ∧ Menu.housePizza = .ok pizza :=
    ⟨_, _, rfl, rfl⟩
  obtain ⟨sandwich, pizza, hsandwich, hpizza⟩ := horders
  refine ⟨sandwich, pizza, hsandwich, hpizza, ?_⟩
  obtain ⟨turns, hmade⟩ := (execute_recipe plain oddMakers none ()).1 forgetfulMaker sandwich rfl
  obtain ⟨turns', hrefused, -⟩ := (execute_recipe plain oddMakers none ()).2 idleMaker pizza rfl
  have hfree : ∀ k, (plain : Engine Unit).settings.exhausted k = false := fun k => rfl
  have hanswered : ∀ turn ∈ turns, turn.Answered forgetfulMaker := by
    rintro ⟨_ | _ | _, before⟩ - <;> exact ⟨_, rfl⟩
  have hidle (turn : Turn Language.pizza Unit) : turn.answer idleMaker = .error .aborted := rfl
  obtain ⟨v, hv⟩ := (hmade.ok_iff (fun _ => rfl) fun k _ => hfree k).2 hanswered
  refine ⟨⟨v, hv⟩, (hmade.value v hv).2.1, ?_⟩
  rcases hresult : ((plain.execute oddMakers .pizza none pizza.recipe).outcome ()).result with error | v
  · rcases hrefused.failure error hresult with ⟨before, turn, failure, rfl, hbefore, hanswer, rfl⟩ |
      ⟨hall, hindex, hlt, ⟨-, hcancelled⟩ | ⟨-, hexhausted⟩⟩
    · have hnil : before = [] := List.eq_nil_iff_forall_not_mem.2 fun other hmem =>
        Turn.not_answered (hidle other) (hbefore other hmem)
      subst hnil
      cases hanswer
      have hcommand : turn.command = .prepare pizza.size := (List.cons_prefix_cons.1 hrefused.commands).1
      rw [Turn.info, hcommand]
      rfl
    · cases hcancelled
    · cases (hfree _).symm.trans hexhausted
  · obtain ⟨-, -, hall, turn, hlast, -⟩ := hrefused.value v hresult
    exact absurd (hall turn (List.mem_of_getLast? hlast)) (Turn.not_answered (hidle turn))

end Engine

end Brigade
