import Mathlib.Data.List.Basic

/-! Lists that grow at their end, such as histories, split at one of their items. -/

namespace Brigade

variable {α : Type*} {xs before after : List α} {x last : α}

/-- A split of a list that ends with `last` is at an item before it, or at `last`. -/
theorem concat_eq_split_iff : xs ++ [last] = before ++ x :: after ↔
    (∃ rest, xs = before ++ x :: rest ∧ after = rest ++ [last]) ∨
      (xs = before ∧ last = x ∧ after = []) := by
  constructor
  · intro heq
    rcases after.eq_nil_or_concat with rfl | ⟨rest, last', rfl⟩
    · obtain ⟨rfl, rfl⟩ := List.append_singleton_inj.1 heq
      exact .inr ⟨rfl, rfl, rfl⟩
    · rw [List.concat_eq_append, ← List.cons_append, ← List.append_assoc] at heq
      obtain ⟨hxs, rfl⟩ := List.append_singleton_inj.1 heq
      exact .inl ⟨rest, hxs, List.concat_eq_append⟩
  · rintro (⟨rest, rfl, rfl⟩ | ⟨rfl, rfl, rfl⟩)
    · rw [List.append_assoc, List.cons_append]
    · rfl

theorem forall_split_concat {p : List α → α → Prop} :
    (∀ before x after, xs ++ [last] = before ++ x :: after → p before x) ↔
      (∀ before x after, xs = before ++ x :: after → p before x) ∧ p xs last := by
  constructor
  · intro h
    refine ⟨fun before x rest heq => h before x (rest ++ [last]) ?_, h xs last [] rfl⟩
    exact concat_eq_split_iff.2 (.inl ⟨rest, heq, rfl⟩)
  · rintro ⟨hxs, hlast⟩ before x after heq
    rcases concat_eq_split_iff.1 heq with ⟨rest, heq, -⟩ | ⟨rfl, rfl, -⟩
    · exact hxs before x rest heq
    · exact hlast

end Brigade
