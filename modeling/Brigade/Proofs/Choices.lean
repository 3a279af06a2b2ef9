import Brigade.Kitchen.Chef
import Mathlib.Data.List.Nodup

/-! Random choices. Whatever the words of the stream are, an element that is chosen is one of those to
choose from, and elements that are picked stand at distinct places, as many as were asked for or as there
are. So a chef with something in the pantry always chooses, and only what makes an order. -/

namespace Brigade

namespace Random.Stream

/-- `count` numbers below `bound`, no two alike. -/
structure Draws (bound count : Nat) (numbers : List Nat) : Prop where
  nodup : numbers.Nodup
  lt : ∀ n ∈ numbers, n < bound
  length : numbers.length = count

theorem place_perm (new wanted : Nat) (chosen : List Nat) :
    (place new wanted chosen).Perm ((if wanted ∈ chosen then new else wanted) :: chosen) := by
  by_cases h : wanted ∈ chosen
  · have hparts : chosen.takeWhile (· != wanted) ++ chosen.dropWhile (· != wanted) = chosen :=
      List.takeWhile_append_dropWhile
    rw [place, if_pos h, if_pos h]
    calc (chosen.takeWhile (· != wanted) ++ new :: chosen.dropWhile (· != wanted)).Perm
          (new :: (chosen.takeWhile (· != wanted) ++ chosen.dropWhile (· != wanted))) :=
          List.perm_middle
      _ = new :: chosen := congrArg (new :: ·) hparts
  · rw [place, if_neg h, if_neg h]
    exact List.perm_append_singleton wanted chosen

namespace Draws

variable {bound count : Nat} {numbers : List Nat}

theorem empty (bound : Nat) : Draws bound 0 [] := ⟨.nil, nofun, rfl⟩

theorem perm {others : List Nat} (h : Draws bound count numbers) (hperm : others.Perm numbers) :
    Draws bound count others where
  nodup := hperm.nodup_iff.2 h.nodup
  lt n hn := h.lt n (hperm.mem_iff.1 hn)
  length := hperm.length_eq.trans h.length

theorem cons (h : Draws bound count numbers) {n : Nat} (hn : n ≤ bound) (hnew : n ∉ numbers) :
    Draws (bound + 1) (count + 1) (n :: numbers) where
  nodup := List.nodup_cons.2 ⟨hnew, h.nodup⟩
  lt m hm := by
    rcases List.mem_cons.1 hm with rfl | hm
    · omega
    · have hlt := h.lt m hm
      omega
  length := by rw [List.length_cons, h.length]

/-- One more number is drawn, below a bound that is one higher. -/
theorem place (h : Draws bound count numbers) {wanted : Nat} (hwanted : wanted ≤ bound) :
    Draws (bound + 1) (count + 1) (place bound wanted numbers) := by
  have hperm := place_perm bound wanted numbers
  by_cases hmem : wanted ∈ numbers
  · have hnew : bound ∉ numbers := fun hbound => Nat.lt_irrefl bound (h.lt bound hbound)
    rw [if_pos hmem] at hperm
    exact (h.cons (Nat.le_refl bound) hnew).perm hperm
  · rw [if_neg hmem] at hperm
    exact (h.cons hwanted hmem).perm hperm

theorem placements (h : Draws bound count numbers) (more : Nat) (s : Stream) :
    Draws (bound + more) (count + more) (placements more bound numbers s).1 := by
  induction more generalizing bound count numbers s with
  | zero => exact h
  | succ more ih =>
    have hwanted : (s.between .single 0 bound).1 ≤ bound :=
      (between_mem .single (Nat.zero_le bound) s).2
    have hrest := ih (h.place hwanted) (s.between .single 0 bound).2
    rw [Nat.add_right_comm bound, Nat.add_right_comm count] at hrest
    exact hrest

theorem length_filterMap {α : Type} {xs : List α} (h : Draws xs.length count numbers) :
    (numbers.filterMap (xs[·]?)).length = count := by
  rw [List.filterMap_length_eq_length.2, h.length]
  intro n hn
  rw [List.getElem?_eq_getElem (h.lt n hn)]
  rfl

end Draws

theorem distinct_draws {count size : Nat} (h : count ≤ size) (s : Stream) :
    Draws size count (s.distinct count size).1 := by
  have hall := (Draws.empty (size - count)).placements count s
  rw [Nat.sub_add_cancel h, Nat.zero_add] at hall
  exact hall

/-- The elements at distinct places of a list, at least one and at most `most` of them. -/
def Picked {α : Type} (xs : List α) (most : Nat) (picked : List α) : Prop :=
  ∃ count places, Draws xs.length count places ∧ 1 ≤ count ∧ count ≤ most ∧
    picked = places.filterMap (xs[·]?)

theorem Picked.length {α : Type} {xs : List α} {most : Nat} {picked : List α}
    (h : Picked xs most picked) : 1 ≤ picked.length ∧ picked.length ≤ most := by
  obtain ⟨count, places, hdraws, hleast, hmost, rfl⟩ := h
  rw [hdraws.length_filterMap]
  exact ⟨hleast, hmost⟩

theorem Picked.ne_nil {α : Type} {xs : List α} {most : Nat} {picked : List α}
    (h : Picked xs most picked) : picked ≠ [] := by
  exact List.ne_nil_of_length_pos h.length.1

theorem Picked.exists_places {α : Type} {xs : List α} {most : Nat} {picked : List α}
    (h : Picked xs most picked) :
    ∃ places : List Nat, places.Nodup ∧ picked.map some = places.map (xs[·]?) := by
  obtain ⟨count, places, hdraws, -, -, rfl⟩ := h
  refine ⟨places, hdraws.nodup, ?_⟩
  rw [List.map_filterMap]
  have hsome : ∀ n ∈ places, (xs[n]?).map some = some xs[n]? := by
    intro n hn
    rw [List.getElem?_eq_getElem (hdraws.lt n hn), Option.map_some]
  rw [List.filterMap_congr hsome, List.filterMap_eq_map']

theorem pick_picked {α : Type} {xs : List α} (hxs : xs ≠ []) {most : Nat} (hmost : 1 ≤ most)
    (s : Stream) : ∃ picked t, s.pick xs 1 most = (picked, t) ∧
      Picked xs (min most xs.length) picked := by
  have hlength : 0 < xs.length := List.length_pos_iff.2 hxs
  have hmem := between_mem .double hmost s
  simp only [pick]
  generalize s.between .double 1 most = drawn at hmem ⊢
  obtain ⟨n, t⟩ := drawn
  obtain ⟨hleast, hmost⟩ := hmem
  dsimp only at hleast hmost
  refine ⟨_, _, rfl, _, _, distinct_draws (Nat.min_le_right n xs.length) t, ?_, ?_, rfl⟩
  · omega
  · omega

theorem choose_of_ne_nil {α : Type} {xs : List α} (h : xs ≠ []) (s : Stream) :
    ∃ x ∈ xs, ∃ t, s.choose xs = (some x, t) := by
  cases xs with
  | nil => exact absurd rfl h
  | cons x xs =>
    have hle := (between_mem .single (Nat.zero_le ((x :: xs).length - 1)) s).2
    have hlt : (s.between .single 0 ((x :: xs).length - 1)).1 < (x :: xs).length := by
      rw [List.length_cons] at hle ⊢
      omega
    exact ⟨_, List.getElem_mem hlt, _, Prod.ext (List.getElem?_eq_getElem hlt) rfl⟩

end Random.Stream

open Random.Stream

/-- What a chef chooses from a pantry and a list of makers. -/
inductive MealChoice.ChosenFrom (pantry : List Ingredient) (makers : List String) : MealChoice → Prop
  | sandwich {order : SandwichOrder} (hcomponents : Picked pantry (min 4 pantry.length) order.components) :
    ChosenFrom pantry makers (.sandwich order)
  | pizza {maker : Option String} {order : PizzaOrder}
    (htoppings : Picked pantry (min 3 pantry.length) order.toppings)
    (hminutes : 8 ≤ order.minutes.toNat ∧ order.minutes.toNat ≤ 15)
    (hmaker : if makers = [] then maker = none else ∃ name ∈ makers, maker = some name) :
    ChosenFrom pantry makers (.pizza maker order)

theorem SandwichOrder.ofComponents_components (order : SandwichOrder) :
    SandwichOrder.ofComponents order.components = .ok order := dif_neg order.nonempty

theorem PizzaOrder.ofToppings_toppings (order : PizzaOrder) :
    PizzaOrder.ofToppings order.size order.toppings order.minutes = .ok order := by
  rw [PizzaOrder.ofToppings, dif_neg order.nonempty, dif_pos order.bakeable]

namespace Chef

variable {c : Chef}

theorem choose_maker (makers : List String) (s : Random.Stream) : ∃ maker t,
    s.choose makers = (maker, t) ∧
      if makers = [] then maker = none else ∃ name ∈ makers, maker = some name := by
  by_cases h : makers = []
  · subst h
    exact ⟨none, s, rfl, rfl⟩
  · obtain ⟨name, hname, t, hchoose⟩ := choose_of_ne_nil h s
    refine ⟨some name, t, hchoose, ?_⟩
    rw [if_neg h]
    exact ⟨name, hname, rfl⟩

theorem chooseSandwich_chosenFrom (h : c.pantry ≠ []) : ∃ choice stream,
    c.chooseSandwich = (.ok choice, { c with stream }) ∧ choice.ChosenFrom c.pantry c.makers := by
  obtain ⟨components, stream, hpick, hpicked⟩ := pick_picked h (by decide : 1 ≤ 4) c.stream
  have hbuilt : SandwichOrder.ofComponents components = .ok ⟨components, hpicked.ne_nil⟩ :=
    dif_neg hpicked.ne_nil
  refine ⟨.sandwich ⟨components, hpicked.ne_nil⟩, stream, ?_, .sandwich hpicked⟩
  simp only [chooseSandwich, hpick, hbuilt]
  rfl

theorem between_bakeable (s : Random.Stream) : ∃ n t, s.between .single 8 15 = (n, t) ∧
    PizzaRecipe.Bakeable (.ofNat n) ∧ 8 ≤ (UInt32.ofNat n).toNat ∧ (UInt32.ofNat n).toNat ≤ 15 := by
  have hmem := between_mem .single (by decide : 8 ≤ 15) s
  generalize s.between .single 8 15 = drawn at hmem ⊢
  obtain ⟨n, t⟩ := drawn
  obtain ⟨hleast, hmost⟩ := hmem
  dsimp only at hleast hmost
  have hn : (UInt32.ofNat n).toNat = n := UInt32.toNat_ofNat_of_lt (Nat.lt_of_le_of_lt hmost (by decide))
  have hfrom : PizzaRecipe.leastMinutes.toNat = 5 := rfl
  have hto : PizzaRecipe.mostMinutes.toNat = 30 := rfl
  refine ⟨n, t, rfl, ⟨UInt32.le_iff_toNat_le.2 ?_, UInt32.le_iff_toNat_le.2 ?_⟩, ?_, ?_⟩ <;> omega

theorem choosePizza_chosenFrom (h : c.pantry ≠ []) : ∃ choice stream,
    c.choosePizza = (.ok choice, { c with stream }) ∧ choice.ChosenFrom c.pantry c.makers := by
  simp only [choosePizza]
  generalize c.stream.choose PizzaSize.all = chosen
  obtain ⟨size, s⟩ := chosen
  obtain ⟨toppings, t, hpick, hpicked⟩ := pick_picked h (by decide : 1 ≤ 3) s
  obtain ⟨minutes, u, hbetween, hbakeable, hminutes⟩ := between_bakeable t
  obtain ⟨maker, stream, hchoose, hmaker⟩ := choose_maker c.makers u
  let order : PizzaOrder := ⟨size.getD .medium, toppings, .ofNat minutes, hpicked.ne_nil, hbakeable⟩
  have hbuilt : PizzaOrder.ofToppings (size.getD .medium) toppings (.ofNat minutes) = .ok order := by
    rw [PizzaOrder.ofToppings, dif_neg hpicked.ne_nil, dif_pos hbakeable]
  refine ⟨.pizza maker order, stream, ?_, .pizza hpicked hminutes hmaker⟩
  simp only [hpick, hbetween, hbuilt, hchoose]

theorem chooseMeal_chosenFrom (h : c.pantry ≠ []) : ∃ choice stream,
    c.chooseMeal = (.ok choice, { c with stream }) ∧ choice.ChosenFrom c.pantry c.makers := by
  have hfilled : c.pantry.isEmpty = false := by simpa using h
  simp only [chooseMeal, hfilled, Bool.false_eq_true, if_false]
  generalize c.stream.coin = tossed
  obtain ⟨sandwich, stream⟩ := tossed
  cases sandwich with
  | true =>
    simp only [if_true]
    exact chooseSandwich_chosenFrom (c := { c with stream }) h
  | false =>
    simp only [Bool.false_eq_true, if_false]
    exact choosePizza_chosenFrom (c := { c with stream }) h

/-- What a chef chooses, wherever in the stream of a seed it is. With nothing in the pantry it fails and
draws nothing. Otherwise it chooses, from different places of the pantry, one to four components of a
sandwich or one to three toppings of a pizza, fewer if the pantry holds fewer; the parts are those of a
valid order, a pizza bakes for 8 to 15 minutes, and it has a maker unless there are none to choose from.
Of the chef itself only the stream goes on. -/
theorem chooseMeal_valid (c : Chef) :
    (c.pantry = [] → c.chooseMeal = (.error (.unavailable "pantry is empty"), c)) ∧
    (c.pantry ≠ [] → ∃ choice stream, c.chooseMeal = (.ok choice, { c with stream }) ∧
      match choice with
      | .sandwich order =>
        1 ≤ order.components.length ∧ order.components.length ≤ min 4 c.pantry.length ∧
        (∃ places : List Nat, places.Nodup ∧
          order.components.map some = places.map (c.pantry[·]?)) ∧
        SandwichOrder.ofComponents order.components = .ok order
      | .pizza maker order =>
        1 ≤ order.toppings.length ∧ order.toppings.length ≤ min 3 c.pantry.length ∧
        (∃ places : List Nat, places.Nodup ∧
          order.toppings.map some = places.map (c.pantry[·]?)) ∧
        8 ≤ order.minutes.toNat ∧ order.minutes.toNat ≤ 15 ∧
        PizzaOrder.ofToppings order.size order.toppings order.minutes = .ok order ∧
        if c.makers = [] then maker = none else ∃ name ∈ c.makers, maker = some name) := by
  constructor
  · intro hempty
    rw [chooseMeal, hempty]
    rfl
  · intro hfilled
    obtain ⟨choice, stream, hchoose, hfrom⟩ := chooseMeal_chosenFrom hfilled
    refine ⟨choice, stream, hchoose, ?_⟩
    cases hfrom with
    | sandwich hcomponents =>
      obtain ⟨hleast, hmost⟩ := hcomponents.length
      exact ⟨hleast, hmost, hcomponents.exists_places, SandwichOrder.ofComponents_components _⟩
    | pizza htoppings hminutes hmaker =>
      obtain ⟨hleast, hmost⟩ := htoppings.length
      exact ⟨hleast, hmost, htoppings.exists_places, hminutes.1, hminutes.2,
        PizzaOrder.ofToppings_toppings _, hmaker⟩

/-- Where salt is all there is, an order is for one portion of it, and without makers nobody is named. -/
theorem chooseMeal_valid_saltAlone : ∃ salt choice stream,
    Ingredient.ofText "Salt" = .ok salt ∧
    chooseMeal { ofSeed 1 [] with pantry := [salt] } =
      (.ok choice, { ofSeed 1 [] with pantry := [salt], stream }) ∧
    match choice with
    | .sandwich order => order.components.length = 1
    | .pizza maker order => order.toppings.length = 1 ∧ maker = none := by
  have hsalt : ∃ salt, Ingredient.ofText "Salt" = .ok salt := ⟨_, rfl⟩
  obtain ⟨salt, hsalt⟩ := hsalt
  obtain ⟨-, hfilled⟩ := chooseMeal_valid { ofSeed 1 [] with pantry := [salt] }
  obtain ⟨choice, stream, hchoose, hvalid⟩ := hfilled (List.cons_ne_nil salt [])
  refine ⟨salt, choice, stream, hsalt, hchoose, ?_⟩
  cases choice with
  | sandwich order =>
    obtain ⟨hleast, hmost, -, -⟩ := hvalid
    exact Nat.le_antisymm hmost hleast
  | pizza maker order =>
    obtain ⟨hleast, hmost, -, -, -, -, hmaker⟩ := hvalid
    exact ⟨Nat.le_antisymm hmost hleast, hmaker⟩

theorem ofSeed_pantry_ne_nil (seed : UInt64) (makers : List String) :
    (Chef.ofSeed seed makers).pantry ≠ [] := by
  have hsalt : ∃ salt, Ingredient.ofText "Salt" = .ok salt := ⟨_, rfl⟩
  obtain ⟨salt, hsalt⟩ := hsalt
  simp only [ofSeed, ne_eq, List.filterMap_eq_nil_iff, not_forall]
  exact ⟨"Salt", by decide, by simp [hsalt, Except.toOption]⟩

end Chef

end Brigade
