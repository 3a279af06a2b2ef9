import Brigade.Proofs.Crews
import Brigade.Proofs.Shifts
import Mathlib.Logic.Function.Basic

/-! Dough is conserved. In a kitchen each oven has a cell of its own, which the calls of the oven alone
change. So at every moment of a shift the portions that are left and those that were prepared are together
those that the oven had, whatever came of the pizzas; and an oven without dough prepares no more. -/

namespace Brigade

namespace Oven

variable (maker : String) {n : Nat} {s : Store}

theorem prepare_within_of_empty (hcell : s.ovens[n]? = some (some 0)) (size : PizzaSize) :
    (Oven.mk maker).interpreter.within (Store.oven n) (.prepare size) s =
      (.error (.unavailable s!"{maker} is out of dough"), s) := by
  have hget : Store.cell none n s.ovens = some 0 := Store.cell_eq hcell
  have hset := Store.set_cell none n s.ovens
  rw [hget] at hset
  simp only [Interpreter.within, Store.oven, hget, interpreter, prepare, if_pos, hset]
  rfl

theorem prepare_within_of_left {left : UInt32} (hcell : s.ovens[n]? = some (some left))
    (hleft : left ≠ 0) (size : PizzaSize) :
    (Oven.mk maker).interpreter.within (Store.oven n) (.prepare size) s =
      (.ok (Dough.plain size), { s with ovens := s.ovens.set n (some (left - 1)) }) := by
  have hget : Store.cell none n s.ovens = some left := Store.cell_eq hcell
  simp only [Interpreter.within, Store.oven, hget, interpreter, prepare, if_neg hleft]
  rfl

theorem within_of_not_prepare {m : PizzaMethod} (hm : ∀ size, m ≠ .prepare size) :
    ((Oven.mk maker).interpreter.within (Store.oven n) m s).2 = s := by
  have hset := Store.set_cell none n s.ovens
  cases m with
  | prepare size => exact absurd rfl (hm size)
  | top topping dough => simp only [Interpreter.within, Store.oven, interpreter, hset]
  | bake dough minutes => simp only [Interpreter.within, Store.oven, interpreter, hset]

theorem within_leaves (hcell : s.ovens[n]? = some none) :
    Interpreter.Leaves ((Oven.mk maker).interpreter.within (Store.oven n)) s := by
  intro m
  have hget : Store.cell none n s.ovens = none := Store.cell_eq hcell
  have hset := Store.set_cell none n s.ovens
  rw [hget] at hset
  by_cases hm : ∃ size, m = .prepare size
  · obtain ⟨size, rfl⟩ := hm
    simp only [Interpreter.within, Store.oven, hget, interpreter, prepare, hset]
  · exact within_of_not_prepare maker fun size heq => hm ⟨size, heq⟩

end Oven

/-- The pizza makers of a staff are ovens with the stock: under each selector that of the maker, in the
cell with the number given, no two in one cell. Nobody else changes the ovens. -/
structure Staff.Stocked (stock : DoughStock) (number : Option String → Nat) (staff : Staff) : Prop where
  oven : ∀ {selector i}, staff.registry.resolve .pizza selector = .ok i →
    i = (Oven.mk (selector.getD houseMaker)).interpreter.within (Store.oven (number selector))
  stock : ∀ {selector i}, staff.registry.resolve .pizza selector = .ok i →
    staff.store.ovens[number selector]? = some stock
  apart : ∀ {selector selector' i i'}, staff.registry.resolve .pizza selector = .ok i →
    staff.registry.resolve .pizza selector' = .ok i' → number selector = number selector' →
      selector = selector'
  others : ∀ {l selector i}, l ≠ .pizza → staff.registry.resolve l selector = .ok i →
    ∀ m s, (i m s).2.ovens = s.ovens

namespace Staff.Stocked

variable {stock : DoughStock} {number : Option String → Nat} {staff : Staff}

theorem bind_other (h : staff.Stocked stock number) {l : Language} (hl : l ≠ .pizza)
    (selector : Option String) (i : Installed (algebra l)) (hi : ∀ m s, (i.1 m s).2.ovens = s.ovens)
    (hstore : i.2.ovens = staff.store.ovens) : (staff.bind l selector i).Stocked stock number := by
  have hpizza (selector' : Option String) :
      (staff.registry.bind l selector i.1).resolve .pizza selector' =
        staff.registry.resolve .pizza selector' :=
    staff.registry.resolve_bind_of_ne (fun hplace => hl hplace.1) i.1
  constructor
  · intro selector' j hresolve
    exact h.oven ((hpizza selector').symm.trans hresolve)
  · intro selector' j hresolve
    exact (congrArg (·[number selector']?) hstore).trans
      (h.stock ((hpizza selector').symm.trans hresolve))
  · intro selector₁ selector₂ i₁ i₂ hresolve₁ hresolve₂
    exact h.apart ((hpizza selector₁).symm.trans hresolve₁) ((hpizza selector₂).symm.trans hresolve₂)
  · intro l' selector' j hl' hresolve
    by_cases hplace : l = l' ∧ selector = selector'
    · obtain ⟨rfl, rfl⟩ := hplace
      cases (staff.registry.resolve_bind_self l selector i.1).symm.trans hresolve
      exact hi
    · exact h.others hl' ((staff.registry.resolve_bind_of_ne hplace i.1).symm.trans hresolve)

theorem number_lt (h : staff.Stocked stock number) {selector : Option String}
    {i : Interpreter Store pizzaAlgebra} (hresolve : staff.registry.resolve .pizza selector = .ok i) :
    number selector < staff.store.ovens.length :=
  (List.getElem?_eq_some_iff.1 (h.stock hresolve)).1

theorem addOven {k : Kitchen} (h : staff.Stocked k.doughStock number) (selector : Option String) :
    (k.addOven selector (selector.getD houseMaker) staff).Stocked k.doughStock
      (Function.update number selector staff.store.ovens.length) where
  oven := by
    intro selector' i hresolve
    obtain ⟨rfl, rfl⟩ | ⟨hne, hresolve⟩ := Registry.resolve_bind_eq_ok hresolve
    · rw [Function.update_self]
      rfl
    · rw [Function.update_of_ne hne.symm]
      exact h.oven hresolve
  stock := by
    intro selector' i hresolve
    obtain ⟨rfl, rfl⟩ | ⟨hne, hresolve⟩ := Registry.resolve_bind_eq_ok hresolve
    · rw [Function.update_self]
      exact List.getElem?_concat_length
    · rw [Function.update_of_ne hne.symm]
      exact (List.getElem?_append_left (h.number_lt hresolve)).trans (h.stock hresolve)
  apart := by
    intro selector₁ selector₂ i₁ i₂ hresolve₁ hresolve₂ hnumber
    obtain ⟨rfl, -⟩ | ⟨hne₁, hresolve₁⟩ := Registry.resolve_bind_eq_ok hresolve₁ <;>
      obtain ⟨rfl, -⟩ | ⟨hne₂, hresolve₂⟩ := Registry.resolve_bind_eq_ok hresolve₂
    · rfl
    · rw [Function.update_self, Function.update_of_ne hne₂.symm] at hnumber
      exact absurd hnumber.symm (Nat.ne_of_lt (h.number_lt hresolve₂))
    · rw [Function.update_self, Function.update_of_ne hne₁.symm] at hnumber
      exact absurd hnumber (Nat.ne_of_lt (h.number_lt hresolve₁))
    · rw [Function.update_of_ne hne₁.symm, Function.update_of_ne hne₂.symm] at hnumber
      exact h.apart hresolve₁ hresolve₂ hnumber
  others := by
    intro l selector' i hl hresolve
    exact h.others hl ((staff.registry.resolve_bind_of_ne (fun hplace => hl hplace.1.symm) _).symm.trans
      hresolve)

theorem foldl_addOven (k : Kitchen) (makers : List String) {staff : Staff}
    (h : staff.Stocked k.doughStock number) : ∃ number,
      (makers.foldl (fun staff maker => k.addOven (some maker) maker staff) staff).Stocked k.doughStock
        number := by
  induction makers generalizing staff number with
  | nil => exact ⟨number, h⟩
  | cons maker makers ih => exact ih (h.addOven (some maker))

theorem kitchen (k : Kitchen) (store : Store) :
    ∃ number, (k.staff store).Stocked k.doughStock number := by
  let nobody : Staff := ⟨.empty, store⟩
  let station : Staff := nobody.bind .sandwich none (k.station.interpreter, store)
  let house : Staff := k.addOven none houseMaker station
  have hnobody : nobody.Stocked k.doughStock fun _ => 0 := ⟨nofun, nofun, nofun, nofun⟩
  have hstation : station.Stocked k.doughStock fun _ => 0 :=
    hnobody.bind_other (l := .sandwich) nofun none (k.station.interpreter, store)
      (by rintro (_ | _ | _) s <;> rfl) rfl
  have hhouse : house.Stocked k.doughStock _ := hstation.addOven none
  have hchef := hhouse.bind_other (l := .cooking) nofun none
    (house.store.addChef (.ofSeed k.seed k.makers)) (fun _ _ => rfl) rfl
  exact hchef.foldl_addOven k k.makers

variable {selector : Option String} {i : Interpreter Store pizzaAlgebra}

theorem call_other (h : staff.Stocked stock number)
    (hbound : staff.registry.resolve .pizza selector = .ok i) {l : Language} {selector' : Option String}
    {j : Interpreter Store (algebra l)} (hresolve : staff.registry.resolve l selector' = .ok j)
    (hother : ¬ (l = .pizza ∧ selector' = selector)) (m : (algebra l).Method) (s : Store) :
    (j m s).2.ovens[number selector]? = s.ovens[number selector]? := by
  by_cases hl : l = .pizza
  · subst hl
    have hne : number selector' ≠ number selector :=
      fun hnumber => hother ⟨rfl, h.apart hresolve hbound hnumber⟩
    obtain rfl := h.oven hresolve
    exact List.getElem?_set_ne hne
  · rw [h.others hl hresolve]

end Staff.Stocked

/-- The act is a call, under the selector, of an oven that prepares dough. -/
def Act.prepares (selector : Option String) (i : Interpreter Store pizzaAlgebra) :
    Act Language Store → Bool
  | .called .pizza selector' (PizzaMethod.prepare size) before _ =>
    selector' = selector && (i (.prepare size) before).1.isOk
  | _ => false

theorem Act.prepares_iff {selector : Option String} {i : Interpreter Store pizzaAlgebra}
    {act : Act Language Store} : act.prepares selector i = true ↔ ∃ size before after dough,
      act = .called .pizza selector (PizzaMethod.prepare size) before after ∧
        (i (.prepare size) before).1 = .ok dough := by
  constructor
  · intro h
    rcases act with _ | _ | ⟨_ | _ | _ | _ | _, selector', m, before, after⟩
    all_goals try cases h
    cases m with
    | top topping dough => cases h
    | bake dough minutes => cases h
    | prepare size =>
      obtain ⟨hselector, hreply⟩ := Bool.and_eq_true_iff.1 h
      obtain rfl := of_decide_eq_true hselector
      rcases hdough : (i (.prepare size) before).1 with failure | dough
      · rw [hdough] at hreply
        cases hreply
      · exact ⟨size, before, after, dough, rfl, hdough⟩
  · rintro ⟨size, before, after, dough, rfl, hdough⟩
    simp [prepares, hdough, Except.isOk, Except.toBool]

/-- What an oven has left and what it prepared are what it had. -/
def Conserves (portions : UInt32) (n : Nat) (selector : Option String)
    (i : Interpreter Store pizzaAlgebra) (acts : History Language Store) (s : Store) : Prop :=
  ∃ left : UInt32, s.ovens[n]? = some (some left) ∧
    left.toNat + acts.countP (Act.prepares selector i) = portions.toNat

namespace Conserves

variable {portions : UInt32} {n : Nat} {selector : Option String} {i : Interpreter Store pizzaAlgebra}
  {acts : History Language Store} {s t : Store}

theorem concat (h : Conserves portions n selector i acts s) {act : Act Language Store}
    (hact : act.prepares selector i = false) (hcell : t.ovens[n]? = s.ovens[n]?) :
    Conserves portions n selector i (acts ++ [act]) t := by
  obtain ⟨left, hleft, hcount⟩ := h
  refine ⟨left, hcell.trans hleft, ?_⟩
  rw [List.countP_append, List.countP_singleton, hact]
  exact hcount

theorem call {maker : String} (hi : i = (Oven.mk maker).interpreter.within (Store.oven n))
    (h : Conserves portions n selector i acts s) (m : PizzaMethod) :
    Conserves portions n selector i (acts ++ [.called .pizza selector m s (i m s).2]) (i m s).2 := by
  -- only preparing dough changes the cell, and only while some is left
  by_cases hm : ∃ size, m = .prepare size
  · obtain ⟨size, rfl⟩ := hm
    obtain ⟨left, hcell, hcount⟩ := h
    by_cases hleft : left = 0
    · subst hleft
      have hcall := Oven.prepare_within_of_empty maker hcell size
      rw [← hi] at hcall
      refine concat ⟨0, hcell, hcount⟩ ?_ (by rw [hcall])
      simp [Act.prepares, hcall, Except.isOk, Except.toBool]
    · have hcall := Oven.prepare_within_of_left maker hcell hleft size
      rw [← hi] at hcall
      have hprepares : (Act.called Language.pizza selector (PizzaMethod.prepare size) s
          (i (.prepare size) s).2).prepares selector i = true :=
        Act.prepares_iff.2 ⟨size, s, _, _, rfl, congrArg Prod.fst hcall⟩
      have hlt : n < s.ovens.length := (List.getElem?_eq_some_iff.1 hcell).1
      refine ⟨left - 1, ?_, ?_⟩
      · rw [hcall]
        exact List.getElem?_set_self hlt
      · have hpos : left.toNat ≠ 0 := fun hzero => hleft (UInt32.toNat_inj.1 hzero)
        have hone : (left - 1).toNat = left.toNat - 1 :=
          UInt32.toNat_sub_of_le left 1 (UInt32.le_iff_toNat_le.2 (Nat.one_le_iff_ne_zero.2 hpos))
        rw [List.countP_append, List.countP_singleton, hprepares, if_pos rfl]
        omega
  · have hkept : (i m s).2 = s := by
      rw [hi]
      exact Oven.within_of_not_prepare maker fun size heq => hm ⟨size, heq⟩
    refine h.concat ?_ (by rw [hkept])
    rw [← Bool.not_eq_true, Act.prepares_iff]
    rintro ⟨size, before, after, dough, heq, -⟩
    cases heq
    exact hm ⟨size, rfl⟩

end Conserves

theorem Staff.Stocked.conserves {portions : UInt32} {number : Option String → Nat} {staff : Staff}
    (h : staff.Stocked (some portions) number) {selector : Option String}
    {i : Interpreter Store pizzaAlgebra} (hbound : staff.registry.resolve .pizza selector = .ok i)
    {acts : History Language Store} {s : Store} (hmoves : staff.registry.Moves staff.store acts s) :
    Conserves portions (number selector) selector i acts s := by
  refine hmoves.keeps (I := Conserves portions (number selector) selector i) ?_ ?_
    ⟨portions, h.stock hbound, rfl⟩
  · intro before act u hact hbefore
    exact hbefore.concat (by cases act <;> first | rfl | cases hact) rfl
  · intro before l selector' m j u hresolve hbefore
    by_cases hplace : l = .pizza ∧ selector' = selector
    · obtain ⟨rfl, rfl⟩ := hplace
      cases hresolve.symm.trans hbound
      exact hbefore.call (h.oven hbound) m
    · refine hbefore.concat ?_ (h.call_other hbound hresolve hplace m u)
      rw [← Bool.not_eq_true, Act.prepares_iff]
      rintro ⟨size, before, after, dough, heq, -⟩
      cases heq
      exact hplace ⟨rfl, rfl⟩

/-- Dough is conserved in a kitchen, over any runs and at every moment. Each oven that is bound has a cell
of its own with the stock of the kitchen: what is left of it and the portions that the oven prepared since
are together the stock. An oven that is out of dough says so whenever it is to prepare more, and then
nothing changes. The calls of everybody else leave the cell as it is. -/
theorem Kitchen.dough_conserved (k : Kitchen) {portions : UInt32} (hstock : k.doughStock = some portions)
    (store : Store) {selector : Option String} {i : Interpreter Store pizzaAlgebra}
    (hbound : (k.staff store).registry.resolve .pizza selector = .ok i) :
    let staff := k.staff store
    let maker := selector.getD houseMaker
    ∃ n, i = (Oven.mk maker).interpreter.within (Store.oven n) ∧ ∀ jobs : Shift Language Store,
      let acts := Shift.history staff.registry jobs staff.store
      stateAfter staff.store acts = Shift.state staff.registry jobs staff.store ∧
      (∀ before later, acts = before ++ later → ∃ left,
        (Store.oven n).get (stateAfter staff.store before) = some left ∧
        left.toNat + before.countP (Act.prepares selector i) = portions.toNat ∧
        (left = 0 → ∀ size s₁ s₂,
          .called .pizza selector (PizzaMethod.prepare size) s₁ s₂ ∈ later →
            (i (.prepare size) s₁).1 = .error (.unavailable s!"{maker} is out of dough") ∧ s₂ = s₁)) ∧
      ∀ l selector' m s₁ s₂, .called l selector' m s₁ s₂ ∈ acts →
        ¬ (l = .pizza ∧ selector' = selector) → (Store.oven n).get s₂ = (Store.oven n).get s₁ := by
  intro staff maker
  obtain ⟨number, hstocked⟩ := Staff.Stocked.kitchen k store
  rw [hstock] at hstocked
  refine ⟨number selector, hstocked.oven hbound, fun jobs => ?_⟩
  intro acts
  have hmoves := Shift.history_moves staff.registry jobs staff.store
  refine ⟨hmoves.state_eq, ?_, ?_⟩
  · intro before later hacts
    rw [show Shift.history staff.registry jobs staff.store = _ from hacts] at hmoves
    obtain ⟨left, hcell, hcount⟩ := hstocked.conserves hbound hmoves.of_append.1
    refine ⟨left, Store.cell_eq hcell, hcount, ?_⟩
    rintro rfl size s₁ s₂ hmem
    obtain ⟨mid, rest, rfl⟩ := List.append_of_mem hmem
    rw [← List.append_assoc] at hmoves
    obtain ⟨rfl, j, hresolve, rfl⟩ := hmoves.call
    cases hbound.symm.trans hresolve
    -- nothing is prepared in between, as nothing was left
    obtain ⟨left, hcell, hcount'⟩ := hstocked.conserves hbound hmoves.of_append.1
    have hleft : left.toNat = (0 : UInt32).toNat := by
      rw [UInt32.toNat_zero] at hcount ⊢
      rw [List.countP_append] at hcount'
      omega
    obtain rfl := UInt32.toNat_inj.1 hleft
    have hcall := Oven.prepare_within_of_empty maker hcell size
    rw [← hstocked.oven hbound] at hcall
    exact ⟨by rw [hcall], by rw [hcall]⟩
  · intro l selector' m s₁ s₂ hmem hother
    obtain ⟨before, later, hacts⟩ := List.append_of_mem hmem
    rw [show Shift.history staff.registry jobs staff.store = _ from hacts] at hmoves
    obtain ⟨-, j, hresolve, rfl⟩ := hmoves.call
    simp only [Store.oven, Store.cell, List.getD_eq_getElem?_getD]
    rw [hstocked.call_other hbound hresolve hother]

def prepareSmall : Job Language Store := ⟨Engine.plain, .pizza, none, PizzaRecipe.prepare .small⟩

theorem Kitchen.dough_conserved_onePortion :
    let staff := Kitchen.onePortion.staff .empty
    let acts := Shift.history staff.registry [prepareSmall, prepareSmall] staff.store
    Kitchen.onePortion.doughStock = some 1 ∧ ∃ i, staff.registry.resolve .pizza none = .ok i ∧
      acts.countP (Act.prepares none i) = 1 ∧
      ∃ n, (Store.oven n).get (stateAfter staff.store acts) = some 0 := by
  intro staff acts
  let i := (Oven.mk houseMaker).interpreter.within (Store.oven 0)
  have hbound : staff.registry.resolve .pizza none = .ok i := rfl
  obtain ⟨n, -, hconserved⟩ := dough_conserved onePortion rfl .empty hbound
  obtain ⟨left, hcell, hcount, -⟩ := (hconserved [prepareSmall, prepareSmall]).2.1 acts []
    (List.append_nil acts).symm
  have hprepared : acts.countP (Act.prepares none i) = 1 := by
    have hdepth : prepareSmall.engine.settings.maxDepth.toNat = 16 := rfl
    simp only [acts, Shift.history, Job.history, Job.outcome, Engine.execute_outcome,
      Engine.levelFrom_eq_run, hdepth]
    rfl
  refine ⟨rfl, i, hbound, hprepared, n, ?_⟩
  rw [hprepared] at hcount
  have hleft : left.toNat = (0 : UInt32).toNat := Nat.succ.inj hcount
  rw [hcell, UInt32.toNat_inj.1 hleft]

end Brigade
