import Brigade.Proofs.Splits
import Brigade.Registry
import Mathlib.Data.Finset.Card

/-! Registries after any changes. A registry is a map from places, a language and a selector each, to
interpreters: a place has what was bound there last, unless it was unbound since. Every query agrees with
this reading of the changes made. -/

namespace Brigade.Registry

variable {L : Type} [Hierarchy L] {σ : Type}

namespace Change

def language : Change L σ → L
  | .bind l _ _ | .unbind l _ => l

def selector : Change L σ → Option String
  | .bind _ selector _ | .unbind _ selector => selector

def Touches (c : Change L σ) (l : L) (selector : Option String) : Prop :=
  c.language = l ∧ c.selector = selector

end Change

/-- The interpreter was bound in the place, and no later change touched the place. -/
def Live (changes : List (Change L σ)) (l : L) (selector : Option String)
    (i : Interpreter σ (algebra l)) : Prop :=
  ∃ before after, changes = before ++ .bind l selector i :: after ∧
    ∀ c ∈ after, ¬ c.Touches l selector

section

variable {changes : List (Change L σ)} {c : Change L σ} {l : L} {selector : Option String}
  {i : Interpreter σ (algebra l)}

theorem not_live_nil : ¬ Live [] l selector i := by
  rintro ⟨before, after, heq, -⟩
  simp at heq

theorem live_concat_of_touches (h : c.Touches l selector) :
    Live (changes ++ [c]) l selector i ↔ c = .bind l selector i := by
  constructor
  · rintro ⟨before, after, heq, hafter⟩
    rcases concat_eq_split_iff.1 heq with ⟨rest, -, rfl⟩ | ⟨-, hlast, -⟩
    · exact absurd h (hafter c (by simp))
    · exact hlast
  · rintro rfl
    exact ⟨changes, [], rfl, nofun⟩

theorem live_concat_of_not_touches (h : ¬ c.Touches l selector) :
    Live (changes ++ [c]) l selector i ↔ Live changes l selector i := by
  constructor
  · rintro ⟨before, after, heq, hafter⟩
    rcases concat_eq_split_iff.1 heq with ⟨rest, hrest, rfl⟩ | ⟨-, rfl, -⟩
    · exact ⟨before, rest, hrest, fun c' hc' => hafter c' (by simp [hc'])⟩
    · exact absurd ⟨rfl, rfl⟩ h
  · rintro ⟨before, after, rfl, hafter⟩
    refine ⟨before, after ++ [c], by simp, fun c' hc' => ?_⟩
    rcases List.mem_append.1 hc' with hc' | hc'
    · exact hafter c' hc'
    · rwa [List.mem_singleton.1 hc']

end

def places (r : Registry L σ) : List (L × Option String) :=
  r.bindings.map fun b => (b.language, b.selector)

theorem mem_places {r : Registry L σ} {l : L} {selector : Option String} :
    (l, selector) ∈ r.places ↔ ∃ b ∈ r.bindings, Serves b l selector := by
  simp [places, Serves]

variable [DecidableEq L]

theorem isBound_iff_mem_places {r : Registry L σ} {l : L} {selector : Option String} :
    r.isBound l selector = true ↔ (l, selector) ∈ r.places := by
  simp [isBound, mem_places]

theorem exists_find?_iff {l : L} {selector : Option String} {bindings : List (Binding L σ)} :
    (∃ i, find? l selector bindings = some i) ↔ ∃ b ∈ bindings, Serves b l selector := by
  constructor
  · rintro ⟨i, hfind⟩
    exact ⟨_, mem_of_find? hfind, rfl, rfl⟩
  · rintro ⟨b, hmem, hserves⟩
    induction bindings with
    | nil => cases hmem
    | cons first rest ih =>
      by_cases hfirst : Serves first l selector
      · exact ⟨_, dif_pos hfirst⟩
      · rcases List.mem_cons.1 hmem with rfl | hmem
        · exact absurd hserves hfirst
        · obtain ⟨i, hfind⟩ := ih hmem
          exact ⟨i, (dif_neg hfirst).trans hfind⟩

theorem isBound_iff {r : Registry L σ} {l : L} {selector : Option String} :
    r.isBound l selector = true ↔ ∃ i, r.resolve l selector = .ok i := by
  rw [isBound_iff_mem_places, mem_places, ← exists_find?_iff]
  simp only [resolve]
  cases find? l selector r.bindings with
  | none => simp
  | some i => simp

theorem places_unbind (r : Registry L σ) (l : L) (selector : Option String) :
    (r.unbind l selector).places = r.places.filter fun place => place ≠ (l, selector) := by
  rw [places, unbind, places, List.filter_map]
  congr 1
  refine List.filter_congr fun b _ => Bool.eq_iff_iff.2 ?_
  rw [Bool.not_eq_true', decide_eq_false_iff_not, Function.comp_apply, decide_eq_true_iff]
  simp [Serves]

theorem places_bind (r : Registry L σ) (l : L) (selector : Option String)
    (i : Interpreter σ (algebra l)) :
    (r.bind l selector i).places = (r.unbind l selector).places ++ [(l, selector)] := by
  simp [places, bind]

theorem nodup_places_change {r : Registry L σ} (h : r.places.Nodup) (c : Change L σ) :
    (r.change c).2.places.Nodup := by
  have hunbind (l : L) (selector : Option String) : (r.unbind l selector).places.Nodup := by
    rw [places_unbind]
    exact h.filter _
  cases c with
  | unbind l selector => exact hunbind l selector
  | bind l selector i =>
    have hfresh : (l, selector) ∉ (r.unbind l selector).places := by simp [places_unbind]
    simp only [change, places_bind]
    exact (hunbind l selector).append (List.nodup_singleton _) (by simpa using hfresh)

theorem size_unbind_lt_iff {r : Registry L σ} {l : L} {selector : Option String} :
    (r.unbind l selector).size < r.size ↔ r.isBound l selector = true := by
  rw [isBound_iff_mem_places, mem_places]
  simp only [size, unbind, List.length_filter_lt_length_iff_exists]
  simp

theorem mem_selectors {r : Registry L σ} {l : L} {name : String} :
    name ∈ r.selectors l ↔ (l, some name) ∈ r.places := by
  simp [selectors, mem_places, Serves]

theorem pairwise_selectors {r : Registry L σ} (h : r.places.Nodup) (l : L) :
    (r.selectors l).Pairwise (· < ·) := by
  let name? (place : L × Option String) : Option String := if place.1 = l then place.2 else none
  have hselectors : r.selectors l = (r.places.filterMap name?).mergeSort := by
    simp only [selectors, places, List.filterMap_map]
    rfl
  have hsorted : (r.selectors l).Pairwise (· ≤ ·) := by
    rw [hselectors]
    exact (List.pairwise_mergeSort (by simpa using fun a b c => String.le_trans)
      (by simpa using String.le_total) _).imp of_decide_eq_true
  have hnodup : (r.selectors l).Nodup := by
    rw [hselectors, (List.mergeSort_perm _ _).nodup_iff]
    refine h.filterMap ?_
    rintro ⟨l₁, selector₁⟩ ⟨l₂, selector₂⟩ name hname hname'
    grind [Option.mem_def]
  exact (hsorted.and hnodup).imp fun ⟨hle, hne⟩ =>
    String.not_le.1 fun hge => hne (String.le_antisymm hle hge)

/-- The empty registry after changes. -/
def replay (changes : List (Change L σ)) : Registry L σ :=
  changes.foldl (fun r c => (r.change c).2) .empty

@[simp] theorem replay_concat (changes : List (Change L σ)) (c : Change L σ) :
    replay (changes ++ [c]) = ((replay changes).change c).2 := by
  simp [replay]

theorem nodup_places_replay (changes : List (Change L σ)) : (replay changes).places.Nodup := by
  induction changes using List.reverseRecOn with
  | nil => exact List.nodup_nil
  | append_singleton changes c ih =>
    rw [replay_concat]
    exact nodup_places_change ih c

theorem resolve_replay_iff (changes : List (Change L σ)) (l : L) (selector : Option String)
    (i : Interpreter σ (algebra l)) :
    (replay changes).resolve l selector = .ok i ↔ Live changes l selector i := by
  induction changes using List.reverseRecOn with
  | nil =>
    simp only [not_live_nil, iff_false]
    exact nofun
  | append_singleton changes c ih =>
    rw [replay_concat]
    -- the last change settles its own place; any other is settled by the changes before it
    by_cases htouches : c.Touches l selector
    · rw [live_concat_of_touches htouches]
      obtain ⟨rfl, rfl⟩ := htouches
      cases c with
      | bind l selector i' =>
        have hself : ((replay changes).bind l selector i').resolve l selector = .ok i' :=
          resolve_bind_self _ l selector i'
        constructor
        · intro hresolve
          cases hself.symm.trans hresolve
          rfl
        · intro heq
          cases heq
          exact hself
      | unbind l selector =>
        have hself : ((replay changes).unbind l selector).resolve l selector = .error _ :=
          resolve_unbind_self _ l selector
        refine iff_of_false (fun hresolve => ?_) nofun
        cases hself.symm.trans hresolve
    · rw [live_concat_of_not_touches htouches, ← ih]
      cases c with
      | bind l' selector' i' => exact Eq.congr_left (resolve_bind_of_ne _ htouches i')
      | unbind l' selector' => exact Eq.congr_left (resolve_unbind_of_ne _ htouches)

theorem isBound_replay_iff (changes : List (Change L σ)) (l : L) (selector : Option String) :
    (replay changes).isBound l selector = true ↔ ∃ i, Live changes l selector i := by
  simp only [isBound_iff, resolve_replay_iff]

/-- A registry is the map that its changes describe. -/
theorem replay_live (changes : List (Change L σ)) :
    let r := replay changes
    (∀ l selector i, r.resolve l selector = .ok i ↔ Live changes l selector i) ∧
    (∀ l selector e, r.resolve l selector = .error e ↔
      e = ⟨(algebra l).id, selector⟩ ∧ ∀ i, ¬ Live changes l selector i) ∧
    (∀ l selector, r.isBound l selector = true ↔ ∃ i, Live changes l selector i) ∧
    (∀ c : Change L σ, (r.change c).1 = true ↔ ∃ i, Live changes c.language c.selector i) ∧
    (∀ l selector, (r.change (.unbind l selector)).1 = true ↔
      (r.change (.unbind l selector)).2.size < r.size) ∧
    (∀ l, (r.selectors l).Pairwise (· < ·) ∧
      ∀ name, name ∈ r.selectors l ↔ ∃ i, Live changes l (some name) i) ∧
    (∃ live : Finset (L × Option String),
      (∀ l selector, (l, selector) ∈ live ↔ ∃ i, Live changes l selector i) ∧ r.size = live.card) ∧
    (r.isEmpty = true ↔ r.size = 0) := by
  intro r
  have hbound := isBound_replay_iff changes
  have hplaces (l : L) (selector : Option String) :
      (l, selector) ∈ r.places ↔ ∃ i, Live changes l selector i := by
    rw [← isBound_iff_mem_places, hbound]
  have hnodup : r.places.Nodup := nodup_places_replay changes
  refine ⟨resolve_replay_iff changes, fun l selector e => ?_, hbound, fun c => ?_,
    fun l selector => size_unbind_lt_iff.symm, fun l => ⟨pairwise_selectors hnodup l, fun name => ?_⟩,
    ⟨r.places.toFinset, fun l selector => ?_, ?_⟩, ?_⟩
  · constructor
    · intro herror
      refine ⟨resolve_eq_error herror, fun i hlive => ?_⟩
      rw [(resolve_replay_iff changes l selector i).2 hlive] at herror
      cases herror
    · rintro ⟨rfl, hdead⟩
      rcases hresolve : r.resolve l selector with e | i
      · rw [resolve_eq_error hresolve]
      · exact absurd ((resolve_replay_iff changes l selector i).1 hresolve) (hdead i)
  · cases c <;> exact hbound _ _
  · rw [mem_selectors, hplaces]
  · rw [List.mem_toFinset, hplaces]
  · rw [List.toFinset_card_of_nodup hnodup]
    simp [size, places]
  · simp [isEmpty, size]

end Brigade.Registry
