import Brigade.Kitchen.Basic

/-! What the staff of a kitchen and recording interpreters have in common, as contracts on their answers.
Within the limits of the kitchen each call is answered as the language means it, and the store changes in
what the call is about and in the log at most. Both staffs are shown to keep the contracts. -/

namespace Brigade

/-- From every state that satisfies `P` the call is answered so, and the state after it satisfies `Q`. -/
def Interpreter.Answers {σ : Type} {A : Algebra} (i : Interpreter σ A) (P : σ → Prop) (m : A.Method)
    (reply : A.Reply m) (Q : σ → Prop) : Prop :=
  ∀ s, P s → (i m s).1 = .ok reply ∧ Q (i m s).2

def Interpreter.Leaves {σ : Type} {A : Algebra} (i : Interpreter σ A) (s : σ) : Prop :=
  ∀ m, (i m s).2 = s

theorem Interpreter.Answers.eq {σ : Type} {A : Algebra} {i : Interpreter σ A} {P Q : σ → Prop}
    {m : A.Method} {reply : A.Reply m} {s : σ} (h : i.Answers P m reply Q) (hs : P s)
    (hleaves : i.Leaves s) : i m s = (.ok reply, s) :=
  Prod.ext (h s hs).1 (hleaves m)

theorem Interpreter.within_eq {σ τ : Type} {A : Algebra} {i : Interpreter τ A} {slot : Slot σ τ}
    {m : A.Method} {r : Except InterpreterFailure (A.Reply m)} {s : σ} {own : τ}
    (h : i m (slot.get s) = (r, own)) : i.within slot m s = (r, slot.set own s) := by
  rw [within, h]

namespace Store

def SameButLog (s t : Store) : Prop := ∃ log, t = { s with log }

def SameButPizzas (s t : Store) : Prop := ∃ log ovens, t = { s with log, ovens }

theorem SameButLog.refl (s : Store) : s.SameButLog s := ⟨s.log, rfl⟩

theorem SameButLog.sameButPizzas {s t : Store} (h : s.SameButLog t) : s.SameButPizzas t := by
  obtain ⟨log, rfl⟩ := h
  exact ⟨log, s.ovens, rfl⟩

theorem SameButPizzas.refl (s : Store) : s.SameButPizzas s :=
  (SameButLog.refl s).sameButPizzas

theorem SameButPizzas.flags_eq {s t : Store} (h : s.SameButPizzas t) : t.flags = s.flags := by
  obtain ⟨log, ovens, rfl⟩ := h
  rfl

theorem set_cell {τ : Type} (default : τ) (n : Nat) (cells : List τ) :
    cells.set n (cell default n cells) = cells := by
  apply List.ext_getElem?
  intro k
  rw [List.getElem?_set]
  grind [cell]

theorem cell_eq {τ : Type} {default v : τ} {n : Nat} {cells : List τ} (h : cells[n]? = some v) :
    cell default n cells = v := by
  simp [cell, h]

end Store

/-- Sandwiches of up to `limit` components are assembled, in stores that are as `s` but for the log. -/
structure Assembles (limit : Nat) (s : Store) (i : Interpreter Store sandwichAlgebra) : Prop where
  start : i.Answers s.SameButLog SandwichMethod.start SandwichBody.empty s.SameButLog
  add : ∀ component (body : SandwichBody), body.components.length < limit →
    i.Answers s.SameButLog (SandwichMethod.add component body) (body.add component) s.SameButLog
  finish : ∀ body : SandwichBody, body.components ≠ [] →
    i.Answers s.SameButLog (SandwichMethod.finish body) (⟨body.components⟩ : Sandwich) s.SameButLog

/-- One pizza is baked in stores that are as `s` but for the log: its dough is prepared, and whatever
becomes of the ovens, it gets its toppings and is baked. -/
structure Bakes (maker : String) (s : Store) (i : Interpreter Store pizzaAlgebra) : Prop where
  prepare : ∀ size, i.Answers s.SameButLog (PizzaMethod.prepare size) (Dough.plain size) s.SameButPizzas
  top : ∀ topping (dough : Dough), dough.toppings.length < Oven.maxToppings →
    i.Answers s.SameButPizzas (PizzaMethod.top topping dough) (dough.add topping) s.SameButPizzas
  bake : ∀ (dough : Dough) minutes,
    i.Answers s.SameButPizzas (PizzaMethod.bake dough minutes) (dough.bake minutes maker) s.SameButPizzas

/-- Every meal is served under the number 1, once a pizza may have been baked. -/
def ServesFirst (s : Store) (i : Interpreter Store cookingAlgebra) : Prop :=
  ∀ meal, i.Answers s.SameButPizzas (CookingMethod.serve meal) (1 : UInt32) fun _ => True

theorem Station.assembles (station : Station) (s : Store) :
    Assembles station.maxComponents s station.interpreter where
  start t ht := ⟨rfl, ht⟩
  add component body hroom t ht := by
    have hfits : ¬ station.maxComponents ≤ body.components.length := by omega
    refine ⟨?_, ht⟩
    simp only [interpreter, add, if_neg hfits]
    rfl
  finish body hbody t ht := by
    have hfilled : body.components.isEmpty = false := by simpa using hbody
    refine ⟨?_, ht⟩
    simp only [interpreter, finish, hfilled, Bool.false_eq_true, if_false]
    rfl

theorem Station.interpreter_leaves (station : Station) (s : Store) :
    Interpreter.Leaves (station.interpreter (σ := Store)) s := by
  intro m
  cases m <;> rfl

theorem Recorder.assembles (limit : Nat) (s : Store) :
    Assembles limit s (Recorder.sandwich.within Store.logSlot) where
  start := by
    rintro t ⟨log, rfl⟩
    exact ⟨rfl, _, rfl⟩
  add component body _ := by
    rintro t ⟨log, rfl⟩
    exact ⟨rfl, _, rfl⟩
  finish body _ := by
    rintro t ⟨log, rfl⟩
    exact ⟨rfl, _, rfl⟩

theorem Oven.bakes {s : Store} {n : Nat} {stock : DoughStock} (hcell : s.ovens[n]? = some stock)
    (hstock : stock ≠ some 0) (maker : String) :
    Bakes maker s ((Oven.mk maker).interpreter.within (Store.oven n)) where
  prepare size := by
    rintro t ⟨log, rfl⟩
    have hget : (Store.oven n).get { s with log } = stock := Store.cell_eq hcell
    have hprepare : ((Oven.mk maker).prepare size stock).1 = .ok (.plain size) := by
      cases stock with
      | none => rfl
      | some left =>
        have hleft : left ≠ 0 := fun h => hstock (congrArg some h)
        simp only [prepare, if_neg hleft]
    refine ⟨?_, log, _, rfl⟩
    simp only [Interpreter.within, hget]
    exact hprepare
  top topping dough hroom := by
    rintro t ⟨log, ovens, rfl⟩
    have hfits : ¬ maxToppings ≤ dough.toppings.length := by omega
    refine ⟨?_, log, _, rfl⟩
    simp only [Interpreter.within, interpreter, top, if_neg hfits]
    rfl
  bake dough minutes := by
    rintro t ⟨log, ovens, rfl⟩
    exact ⟨rfl, log, _, rfl⟩

theorem Store.pizzaRecorder_set (n : Nat) (s : Store) (log : CallLog) :
    (Store.pizzaRecorder n).set ⟨log, cell none n s.pizzaFailures⟩ s = { s with log } := by
  simp only [pizzaRecorder, set_cell]

theorem Recorder.bakes {s : Store} {n : Nat} (hcell : s.pizzaFailures[n]? = some none) (maker : String) :
    Bakes maker s ((Recorder.pizza maker).within (Store.pizzaRecorder n)) where
  prepare size := by
    rintro t ⟨log, rfl⟩
    have hnone : Store.cell none n s.pizzaFailures = none := Store.cell_eq hcell
    have hset := fun log' => Store.pizzaRecorder_set n { s with log } log'
    simp only [hnone] at hset
    simp only [Interpreter.within, Store.pizzaRecorder, pizza, PizzaState.record, PizzaState.take, hnone]
    exact ⟨trivial, _, s.ovens, hset _⟩
  top topping dough _ := by
    rintro t ⟨log, ovens, rfl⟩
    exact ⟨rfl, _, ovens, Store.pizzaRecorder_set n { s with log, ovens } _⟩
  bake dough minutes := by
    rintro t ⟨log, ovens, rfl⟩
    exact ⟨rfl, _, ovens, Store.pizzaRecorder_set n { s with log, ovens } _⟩

theorem Chef.servesFirst {s : Store} {n : Nat} {c : Chef} (hcell : s.chefs[n]? = some c)
    (hticket : c.nextTicket = 1) : ServesFirst s (Chef.interpreter.within (Store.chef n)) := by
  rintro meal t ⟨log, ovens, rfl⟩
  have hget : (Store.chef n).get { s with log, ovens } = c := Store.cell_eq hcell
  refine ⟨?_, trivial⟩
  simp only [Interpreter.within, hget, interpreter, serve, hticket]

theorem Recorder.servesFirst {s : Store} {n : Nat} (hcell : s.machineTickets[n]? = some 1)
    (choice : Option MealChoice) : ServesFirst s ((Recorder.machine choice).within (Store.machine n)) := by
  rintro meal t ⟨log, ovens, rfl⟩
  have hget : ((Store.machine n).get { s with log, ovens }).nextTicket = 1 := Store.cell_eq hcell
  refine ⟨?_, trivial⟩
  simp only [Interpreter.within, machine, hget]

/-- A staff that makes sandwiches of up to `limit` components and bakes pizzas by the house and by each of
the makers, under their names and under no other. -/
structure Staff.Ready (makers : List String) (limit : Nat) (staff : Staff) : Prop where
  sandwich : ∃ i, staff.registry.resolve .sandwich none = .ok i ∧ Assembles limit staff.store i
  house : ∃ i, staff.registry.resolve .pizza none = .ok i ∧ Bakes houseMaker staff.store i
  maker : ∀ maker ∈ makers,
    ∃ i, staff.registry.resolve .pizza (some maker) = .ok i ∧ Bakes maker staff.store i
  stranger : ∀ maker ∉ makers,
    staff.registry.resolve .pizza (some maker) = .error ⟨pizzaAlgebra.id, some maker⟩
  machine : ∃ i, staff.registry.resolve .cooking none = .ok i ∧ ServesFirst staff.store i

/-- Makers were bound one after the other, each to an interpreter that `Mans` the maker's place, while
the store only grew; every other binding is as it was before. -/
structure Staff.Hired (Mans : String → Interpreter Store pizzaAlgebra → Store → Prop)
    (Grows : Store → Store → Prop) (makers : List String) (before after : Staff) : Prop where
  maker : ∀ maker ∈ makers,
    ∃ i, after.registry.resolve .pizza (some maker) = .ok i ∧ Mans maker i after.store
  others : ∀ l selector, (∀ maker ∈ makers, ¬ (Language.pizza = l ∧ some maker = selector)) →
    after.registry.resolve l selector = before.registry.resolve l selector
  grows : Grows before.store after.store

namespace Staff.Hired

variable {Mans : String → Interpreter Store pizzaAlgebra → Store → Prop}
  {Grows : Store → Store → Prop} {hire : Staff → String → Staff}

theorem foldl (hrefl : ∀ s, Grows s s) (htrans : ∀ s t u, Grows s t → Grows t u → Grows s u)
    (hstays : ∀ maker i s t, Grows s t → Mans maker i s → Mans maker i t)
    (hhire : ∀ staff maker, ∃ i store, hire staff maker =
      ⟨staff.registry.bind .pizza (some maker) i, store⟩ ∧ Mans maker i store ∧ Grows staff.store store)
    (makers : List String) (staff : Staff) :
    Staff.Hired Mans Grows makers staff (makers.foldl hire staff) := by
  induction makers generalizing staff with
  | nil => exact ⟨nofun, fun _ _ _ => rfl, hrefl _⟩
  | cons maker rest ih =>
    obtain ⟨i, store, heq, hmans, hgrows⟩ := hhire staff maker
    have hrest := ih (hire staff maker)
    rw [List.foldl_cons]
    refine ⟨fun maker' hmaker' => ?_, fun l selector hother => ?_, ?_⟩
    · -- of two places with one name the later is the one that is found
      by_cases hlater : maker' ∈ rest
      · exact hrest.maker maker' hlater
      · obtain rfl : maker' = maker := by simpa [hlater] using hmaker'
        refine ⟨i, ?_, hstays _ _ _ _ hrest.grows (by rwa [heq])⟩
        rw [hrest.others .pizza (some maker') (fun m hm h => hlater (Option.some.inj h.2 ▸ hm)), heq]
        exact Registry.resolve_bind_self _ _ _ _
    · rw [hrest.others l selector fun m hm => hother m (.tail maker hm), heq]
      exact Registry.resolve_bind_of_ne _ (hother maker (.head rest)) _
    · exact htrans _ _ _ (by rwa [heq]) hrest.grows

theorem resolve_none {makers : List String} {before after : Staff}
    (h : Staff.Hired Mans Grows makers before after) (l : Language) :
    after.registry.resolve l none = before.registry.resolve l none :=
  h.others l none fun _ _ heq => nomatch heq.2

end Staff.Hired

def Registry.ofHouse (sandwich : Interpreter Store sandwichAlgebra)
    (pizza : Interpreter Store pizzaAlgebra) (machine : Interpreter Store cookingAlgebra) :
    Registry Language Store :=
  ((Registry.empty.bind .sandwich none sandwich).bind .pizza none pizza).bind .cooking none machine

theorem Registry.ofHouse_stranger (sandwich : Interpreter Store sandwichAlgebra)
    (pizza : Interpreter Store pizzaAlgebra) (machine : Interpreter Store cookingAlgebra)
    (maker : String) : (Registry.ofHouse sandwich pizza machine).resolve .pizza (some maker) =
      .error ⟨pizzaAlgebra.id, some maker⟩ := rfl

/-- The interpreter is in a place of a staff: that of the sandwich maker, of the house, of a maker or of
the machine. -/
inductive Staff.Posted (Mans : String → Interpreter Store pizzaAlgebra → Store → Prop)
    (sandwich : Interpreter Store sandwichAlgebra) (pizza : Interpreter Store pizzaAlgebra)
    (machine : Interpreter Store cookingAlgebra) (s : Store) :
    (l : Language) → Option String → Interpreter Store (algebra l) → Prop
  | sandwich : Posted Mans sandwich pizza machine s .sandwich none sandwich
  | house : Posted Mans sandwich pizza machine s .pizza none pizza
  | maker {maker : String} {i : Interpreter Store pizzaAlgebra} (hmans : Mans maker i s) :
    Posted Mans sandwich pizza machine s .pizza (some maker) i
  | machine : Posted Mans sandwich pizza machine s .cooking none machine

theorem Staff.Hired.posted {Mans : String → Interpreter Store pizzaAlgebra → Store → Prop}
    {Grows : Store → Store → Prop} {makers : List String} {before after : Staff}
    {sandwich : Interpreter Store sandwichAlgebra} {pizza : Interpreter Store pizzaAlgebra}
    {machine : Interpreter Store cookingAlgebra} (h : Staff.Hired Mans Grows makers before after)
    (hbefore : before.registry = .ofHouse sandwich pizza machine) {l : Language}
    {selector : Option String} {i : Interpreter Store (algebra l)}
    (hresolve : after.registry.resolve l selector = .ok i) :
    Staff.Posted Mans sandwich pizza machine after.store l selector i := by
  by_cases hmaker : ∃ maker ∈ makers, Language.pizza = l ∧ some maker = selector
  · obtain ⟨maker, hmem, rfl, rfl⟩ := hmaker
    obtain ⟨i', hresolve', hmans⟩ := h.maker maker hmem
    cases hresolve'.symm.trans hresolve
    exact .maker hmans
  · have hhouse : (Registry.ofHouse sandwich pizza machine).resolve l selector = .ok i := by
      rw [← hbefore, ← hresolve]
      exact (h.others l selector fun maker hmem hplace => hmaker ⟨maker, hmem, hplace⟩).symm
    cases l <;> cases selector <;> cases hhouse
    · exact .sandwich
    · exact .house
    · exact .machine

theorem Staff.Hired.ready {Mans : String → Interpreter Store pizzaAlgebra → Store → Prop}
    {Grows : Store → Store → Prop} {makers : List String} {limit : Nat} {before after : Staff}
    {sandwich : Interpreter Store sandwichAlgebra} {pizza : Interpreter Store pizzaAlgebra}
    {machine : Interpreter Store cookingAlgebra} (h : Staff.Hired Mans Grows makers before after)
    (hbefore : before.registry = .ofHouse sandwich pizza machine)
    (hsandwich : Assembles limit after.store sandwich) (hhouse : Bakes houseMaker after.store pizza)
    (hmachine : ServesFirst after.store machine)
    (hmans : ∀ maker i, Mans maker i after.store → Bakes maker after.store i) :
    after.Ready makers limit where
  sandwich := ⟨sandwich, (h.resolve_none .sandwich).trans (by rw [hbefore]; rfl), hsandwich⟩
  house := ⟨pizza, (h.resolve_none .pizza).trans (by rw [hbefore]; rfl), hhouse⟩
  maker maker hmaker := by
    obtain ⟨i, hresolve, hi⟩ := h.maker maker hmaker
    exact ⟨i, hresolve, hmans maker i hi⟩
  stranger maker hmaker := by
    have hother : ∀ m ∈ makers, ¬ (Language.pizza = .pizza ∧ some m = some maker) := by
      rintro m hm ⟨-, heq⟩
      cases heq
      exact hmaker hm
    rw [h.others _ _ hother, hbefore]
    exact Registry.ofHouse_stranger sandwich pizza machine maker
  machine := ⟨machine, (h.resolve_none .cooking).trans (by rw [hbefore]; rfl), hmachine⟩

namespace Kitchen

/-- The interpreter is an oven of the kitchen that has the dough of the kitchen. -/
def Mans (k : Kitchen) (maker : String) (i : Interpreter Store pizzaAlgebra) (s : Store) : Prop :=
  ∃ n, i = (Oven.mk maker).interpreter.within (Store.oven n) ∧ s.ovens[n]? = some k.doughStock

def Grows (s t : Store) : Prop := ∃ more, t = { s with ovens := s.ovens ++ more }

theorem hired (k : Kitchen) (staff : Staff) : Staff.Hired k.Mans Grows k.makers staff
    (k.makers.foldl (fun staff maker => k.addOven (some maker) maker staff) staff) := by
  refine .foldl (fun s => ⟨[], by simp⟩) ?_ ?_ ?_ k.makers staff
  · rintro s _ _ ⟨more, rfl⟩ ⟨more', rfl⟩
    exact ⟨more ++ more', by simp⟩
  · rintro maker i s _ ⟨more, rfl⟩ ⟨n, hi, hcell⟩
    exact ⟨n, hi, by grind⟩
  · intro staff maker
    exact ⟨_, _, rfl, ⟨staff.store.ovens.length, rfl, by simp [Store.addOven]⟩, [k.doughStock], rfl⟩

def house (k : Kitchen) (store : Store) : Staff :=
  ⟨.ofHouse k.station.interpreter
    ((Oven.mk houseMaker).interpreter.within (Store.oven store.ovens.length))
    (Chef.interpreter.within (Store.chef store.chefs.length)),
    { store with ovens := store.ovens ++ [k.doughStock]
                 chefs := store.chefs ++ [.ofSeed k.seed k.makers] }⟩

theorem hired_staff (k : Kitchen) (store : Store) :
    Staff.Hired k.Mans Grows k.makers (k.house store) (k.staff store) := k.hired (k.house store)

theorem ovens_staff (k : Kitchen) (store : Store) :
    (k.staff store).store.ovens[store.ovens.length]? = some k.doughStock := by
  obtain ⟨more, hstore⟩ := (k.hired_staff store).grows
  rw [hstore]
  simp [house]

theorem chefs_staff (k : Kitchen) (store : Store) :
    (k.staff store).store.chefs[store.chefs.length]? = some (.ofSeed k.seed k.makers) := by
  obtain ⟨more, hstore⟩ := (k.hired_staff store).grows
  rw [hstore]
  simp [house]

theorem ready {k : Kitchen} (hdough : k.doughStock ≠ some 0) (store : Store) :
    (k.staff store).Ready k.makers k.station.maxComponents := by
  refine (k.hired_staff store).ready rfl (k.station.assembles _)
    (Oven.bakes (k.ovens_staff store) hdough houseMaker) (Chef.servesFirst (k.chefs_staff store) rfl) ?_
  rintro maker _ ⟨n, rfl, hcell⟩
  exact Oven.bakes hcell hdough maker

theorem flags_staff (k : Kitchen) (store : Store) : (k.staff store).store.flags = store.flags := by
  obtain ⟨more, hstore⟩ := (k.hired_staff store).grows
  rw [hstore]
  rfl

/-- A kitchen with dough for one pizza in its oven. -/
def onePortion : Kitchen := ⟨[], 0, some 1, .standard⟩

end Kitchen

namespace Recorder

def Mans (maker : String) (i : Interpreter Store pizzaAlgebra) (s : Store) : Prop :=
  ∃ n, i = (Recorder.pizza maker).within (Store.pizzaRecorder n) ∧ s.pizzaFailures[n]? = some none

def Grows (s t : Store) : Prop := ∃ more, t = { s with pizzaFailures := s.pizzaFailures ++ more }

theorem hired (makers : List String) (staff : Staff) : Staff.Hired Mans Grows makers staff
    (makers.foldl (fun staff maker => addMaker (some maker) maker staff) staff) := by
  refine .foldl (fun s => ⟨[], by simp⟩) ?_ ?_ ?_ makers staff
  · rintro s _ _ ⟨more, rfl⟩ ⟨more', rfl⟩
    exact ⟨more ++ more', by simp⟩
  · rintro maker i s _ ⟨more, rfl⟩ ⟨n, hi, hcell⟩
    exact ⟨n, hi, by grind⟩
  · intro staff maker
    exact ⟨_, _, rfl, ⟨staff.store.pizzaFailures.length, rfl, by simp [Store.addPizzaRecorder]⟩,
      [none], rfl⟩

def house (choice : Option MealChoice) (store : Store) : Staff :=
  ⟨.ofHouse (Recorder.sandwich.within Store.logSlot)
    ((Recorder.pizza houseMaker).within (Store.pizzaRecorder store.pizzaFailures.length))
    ((Recorder.machine choice).within (Store.machine store.machineTickets.length)),
    { store with pizzaFailures := store.pizzaFailures ++ [none]
                 machineTickets := store.machineTickets ++ [1] }⟩

theorem hired_staff (makers : List String) (choice : Option MealChoice) (store : Store) :
    Staff.Hired Mans Grows makers (house choice store) (Recorder.staff makers choice store) :=
  hired makers (house choice store)

theorem ready (makers : List String) (choice : Option MealChoice) (store : Store) (limit : Nat) :
    (Recorder.staff makers choice store).Ready makers limit := by
  have hhired := hired_staff makers choice store
  obtain ⟨more, hstore⟩ := hhired.grows
  have hpizza : (Recorder.staff makers choice store).store.pizzaFailures[store.pizzaFailures.length]? =
      some none := by
    rw [hstore]
    simp [house]
  have hmachine : (Recorder.staff makers choice store).store.machineTickets[store.machineTickets.length]? =
      some 1 := by
    rw [hstore]
    simp [house]
  refine hhired.ready rfl (Recorder.assembles limit _) (Recorder.bakes hpizza houseMaker)
    (Recorder.servesFirst hmachine choice) ?_
  rintro maker _ ⟨n, rfl, hcell⟩
  exact Recorder.bakes hcell maker

theorem flags_staff (makers : List String) (choice : Option MealChoice) (store : Store) :
    (Recorder.staff makers choice store).store.flags = store.flags := by
  obtain ⟨more, hstore⟩ := (hired_staff makers choice store).grows
  rw [hstore]
  rfl

end Recorder

end Brigade
