import Brigade.Hierarchy

/-! Registries: which interpreter serves a language, by default or under a name. A look-up under a name
never falls back to the default. -/

namespace Brigade

variable {L : Type} [Hierarchy L] {σ : Type}

structure Binding (L : Type) [Hierarchy L] (σ : Type) where
  language : L
  selector : Option String
  interpreter : Interpreter σ (algebra language)

structure Registry (L : Type) [Hierarchy L] (σ : Type) where
  bindings : List (Binding L σ)

namespace Registry

variable [DecidableEq L]

def empty : Registry L σ := ⟨[]⟩

def Serves (b : Binding L σ) (l : L) (selector : Option String) : Prop :=
  b.language = l ∧ b.selector = selector

instance (b : Binding L σ) (l : L) (selector : Option String) : Decidable (Serves b l selector) :=
  inferInstanceAs (Decidable (_ ∧ _))

def find? (l : L) (selector : Option String) :
    List (Binding L σ) → Option (Interpreter σ (algebra l))
  | [] => none
  | b :: rest =>
    if h : Serves b l selector then some (h.1 ▸ b.interpreter) else find? l selector rest

/-- The interpreter bound for `l` under a selector. -/
def resolve (r : Registry L σ) (l : L) (selector : Option String) :
    Except UnboundAlgebra (Interpreter σ (algebra l)) :=
  match find? l selector r.bindings with
  | some i => .ok i
  | none => .error ⟨(algebra l).id, selector⟩

def isBound (r : Registry L σ) (l : L) (selector : Option String) : Bool :=
  r.bindings.any fun b => Serves b l selector

def unbind (r : Registry L σ) (l : L) (selector : Option String) : Registry L σ :=
  ⟨r.bindings.filter fun b => !decide (Serves b l selector)⟩

/-- Sets a binding, in place of the one with its language and selector if there is one. -/
def bind (r : Registry L σ) (l : L) (selector : Option String)
    (i : Interpreter σ (algebra l)) : Registry L σ :=
  ⟨(r.unbind l selector).bindings ++ [⟨l, selector, i⟩]⟩

/-- A change of one place of a registry. -/
inductive Change (L : Type) [Hierarchy L] (σ : Type)
  | bind (l : L) (selector : Option String) (i : Interpreter σ (algebra l))
  | unbind (l : L) (selector : Option String)

/-- Makes a change; tells whether something was bound in its place before. -/
def change (r : Registry L σ) : Change L σ → Bool × Registry L σ
  | .bind l selector i => (r.isBound l selector, r.bind l selector i)
  | .unbind l selector => (r.isBound l selector, r.unbind l selector)

theorem find?_append (l : L) (selector : Option String) (before after : List (Binding L σ)) :
    find? l selector (before ++ after) = (find? l selector before).or (find? l selector after) := by
  induction before with
  | nil => rfl
  | cons b rest ih =>
    simp only [List.cons_append, find?, ih]
    split <;> rfl

theorem find?_filter_of_ne {l l' : L} {selector selector' : Option String}
    (h : ¬ (l = l' ∧ selector = selector')) (bindings : List (Binding L σ)) :
    find? l' selector' (bindings.filter fun b => !decide (Serves b l selector)) =
      find? l' selector' bindings := by
  induction bindings with
  | nil => rfl
  | cons b rest ih =>
    by_cases hb : Serves b l selector
    · have hother : ¬ Serves b l' selector' := fun hb' => h ⟨hb.1 ▸ hb'.1, hb.2 ▸ hb'.2⟩
      rw [List.filter_cons_of_neg (by simpa using hb), ih, find?, dif_neg hother]
    · rw [List.filter_cons_of_pos (by simpa using hb), find?, find?, ih]

theorem find?_filter_self (l : L) (selector : Option String) (bindings : List (Binding L σ)) :
    find? l selector (bindings.filter fun b => !decide (Serves b l selector)) = none := by
  induction bindings with
  | nil => rfl
  | cons b rest ih =>
    by_cases hb : Serves b l selector
    · rw [List.filter_cons_of_neg (by simpa using hb), ih]
    · rw [List.filter_cons_of_pos (by simpa using hb), find?, dif_neg hb, ih]

theorem resolve_unbind_of_ne (r : Registry L σ) {l l' : L} {selector selector' : Option String}
    (h : ¬ (l = l' ∧ selector = selector')) :
    (r.unbind l selector).resolve l' selector' = r.resolve l' selector' := by
  simp only [resolve, unbind, find?_filter_of_ne h]

@[simp] theorem resolve_unbind_self (r : Registry L σ) (l : L) (selector : Option String) :
    (r.unbind l selector).resolve l selector = .error ⟨(algebra l).id, selector⟩ := by
  simp only [resolve, unbind, find?_filter_self]

@[simp] theorem resolve_bind_self (r : Registry L σ) (l : L) (selector : Option String)
    (i : Interpreter σ (algebra l)) : (r.bind l selector i).resolve l selector = .ok i := by
  have hserves : Serves (⟨l, selector, i⟩ : Binding L σ) l selector := ⟨rfl, rfl⟩
  simp only [resolve, bind, unbind, find?_append, find?_filter_self, find?, dif_pos hserves]
  rfl

theorem resolve_bind_of_ne (r : Registry L σ) {l l' : L} {selector selector' : Option String}
    (h : ¬ (l = l' ∧ selector = selector')) (i : Interpreter σ (algebra l)) :
    (r.bind l selector i).resolve l' selector' = r.resolve l' selector' := by
  have hserves : ¬ Serves (⟨l, selector, i⟩ : Binding L σ) l' selector' := h
  simp only [resolve, bind, unbind, find?_append, find?_filter_of_ne h, find?, dif_neg hserves,
    Option.or_none]

theorem resolve_bind_eq_ok {r : Registry L σ} {l : L} {selector selector' : Option String}
    {i j : Interpreter σ (algebra l)} (h : (r.bind l selector i).resolve l selector' = .ok j) :
    (selector = selector' ∧ i = j) ∨ (selector ≠ selector' ∧ r.resolve l selector' = .ok j) := by
  by_cases heq : selector = selector'
  · subst heq
    rw [resolve_bind_self] at h
    exact .inl ⟨rfl, Except.ok.inj h⟩
  · rw [resolve_bind_of_ne r fun hplace => heq hplace.2] at h
    exact .inr ⟨heq, h⟩

/-- A name that is not bound is told as it was looked up. -/
theorem resolve_eq_error {r : Registry L σ} {l : L} {selector : Option String}
    {unbound : UnboundAlgebra} (h : r.resolve l selector = .error unbound) :
    unbound = ⟨(algebra l).id, selector⟩ := by
  simp only [resolve] at h
  split at h
  · cases h
  · cases h
    rfl

theorem mem_of_find? {l : L} {selector : Option String} {i : Interpreter σ (algebra l)}
    {bindings : List (Binding L σ)} (h : find? l selector bindings = some i) :
    ⟨l, selector, i⟩ ∈ bindings := by
  induction bindings with
  | nil => cases h
  | cons b rest ih =>
    rw [find?] at h
    split at h
    · next hserves =>
      obtain ⟨rfl, rfl⟩ := hserves
      cases h
      exact .head rest
    · exact .tail b (ih h)

theorem mem_of_resolve {r : Registry L σ} {l : L} {selector : Option String}
    {i : Interpreter σ (algebra l)} (h : r.resolve l selector = .ok i) :
    ⟨l, selector, i⟩ ∈ r.bindings := by
  rw [resolve] at h
  split at h
  · next hfind =>
    cases h
    exact mem_of_find? hfind
  · cases h

theorem eq_or_mem_of_mem_bind {r : Registry L σ} {l : L} {selector : Option String}
    {i : Interpreter σ (algebra l)} {b : Binding L σ} (h : b ∈ (r.bind l selector i).bindings) :
    b = ⟨l, selector, i⟩ ∨ b ∈ r.bindings := by
  rcases List.mem_append.1 h with hkept | hnew
  · exact .inr (List.mem_filter.1 hkept).1
  · exact .inl (List.mem_singleton.1 hnew)

def selectors (r : Registry L σ) (l : L) : List String :=
  (r.bindings.filterMap fun b => if b.language = l then b.selector else none).mergeSort

def insertName (id : AlgebraId) : List AlgebraId → List AlgebraId
  | [] => [id]
  | a :: rest =>
    if id.name < a.name then id :: a :: rest
    else if id = a then a :: rest
    else a :: insertName id rest

def algebras (r : Registry L σ) : List AlgebraId :=
  r.bindings.foldl (fun ids b => insertName (algebra b.language).id ids) []

def size (r : Registry L σ) : Nat := r.bindings.length

def isEmpty (r : Registry L σ) : Bool := r.bindings.isEmpty

def diagnostic (r : Registry L σ) : String :=
  let ids := String.intercalate ", " (r.algebras.map AlgebraId.diagnostic)
  "InterpreterRegistry \x7b algebras: [" ++ ids ++ "], bindings: " ++ toString r.size ++ " \x7d"

end Registry

end Brigade
