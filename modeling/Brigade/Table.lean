/-! Finite maps from names to values, kept in strictly increasing order of the names. -/

namespace Brigade

def insertEntry {α : Type} (key : String) (value : α) : List (String × α) → List (String × α)
  | [] => [(key, value)]
  | (k, v) :: rest =>
    if key < k then (key, value) :: (k, v) :: rest
    else if key = k then (key, value) :: rest
    else (k, v) :: insertEntry key value rest

theorem mem_insertEntry {α : Type} {key : String} {value : α} {e : String × α}
    {entries : List (String × α)} (h : e ∈ insertEntry key value entries) :
    e = (key, value) ∨ e ∈ entries := by
  induction entries with
  | nil => simpa [insertEntry] using h
  | cons head rest ih =>
    obtain ⟨k, v⟩ := head
    grind [insertEntry]

theorem pairwise_insertEntry {α : Type} (key : String) (value : α) {entries : List (String × α)}
    (h : entries.Pairwise fun a b => a.1 < b.1) :
    (insertEntry key value entries).Pairwise fun a b => a.1 < b.1 := by
  induction entries with
  | nil => simp [insertEntry]
  | cons head rest ih =>
    obtain ⟨k, v⟩ := head
    obtain ⟨hk, hrest⟩ := List.pairwise_cons.1 h
    unfold insertEntry
    split
    · next hlt =>
      refine List.pairwise_cons.2 ⟨fun e he => ?_, h⟩
      rcases List.mem_cons.1 he with rfl | he
      · exact hlt
      · exact String.lt_trans hlt (hk e he)
    · next hlt =>
      split
      · next heq => subst heq; exact List.pairwise_cons.2 ⟨hk, hrest⟩
      · next hne =>
        refine List.pairwise_cons.2 ⟨fun e he => ?_, ih hrest⟩
        rcases mem_insertEntry he with rfl | he
        · have hle : k ≤ key := String.not_lt.1 hlt
          exact Decidable.byContradiction fun hn =>
            hne (String.le_antisymm (String.not_lt.1 hn) hle)
        · exact hk e he

theorem lookup_insertEntry {α : Type} (key : String) (value : α) (entries : List (String × α))
    (name : String) : (insertEntry key value entries).lookup name =
      if name = key then some value else entries.lookup name := by
  induction entries with
  | nil => grind [insertEntry]
  | cons head rest ih =>
    obtain ⟨k, v⟩ := head
    simp only [insertEntry]
    split
    · grind
    · split <;> grind

theorem insertEntry_of_forall_lt {α : Type} {key : String} (value : α) {entries : List (String × α)}
    (h : ∀ e ∈ entries, e.1 < key) : insertEntry key value entries = entries ++ [(key, value)] := by
  induction entries with
  | nil => rfl
  | cons head rest ih =>
    obtain ⟨k, v⟩ := head
    have hk : k < key := h (k, v) (.head rest)
    have hlt : ¬ key < k := fun hlt => String.lt_irrefl k (String.lt_trans hk hlt)
    have hne : key ≠ k := fun heq => String.lt_irrefl k (heq ▸ hk)
    have hrest := ih fun e he => h e (.tail _ he)
    simp [insertEntry, hlt, hne, hrest]

/-- In increasing order no name comes twice, so the first entry with a name is also the last. -/
theorem lookup_reverse {α : Type} {entries : List (String × α)}
    (h : entries.Pairwise fun a b => a.1 < b.1) (name : String) :
    entries.reverse.lookup name = entries.lookup name := by
  induction entries with
  | nil => rfl
  | cons head rest ih =>
    obtain ⟨k, v⟩ := head
    obtain ⟨hk, hrest⟩ := List.pairwise_cons.1 h
    rw [List.reverse_cons, List.lookup_append, ih hrest]
    by_cases hname : name = k
    · subst hname
      have hlater : rest.lookup name = none := by
        rw [List.lookup_eq_none_iff]
        intro e he
        have hlt : name < e.1 := hk e he
        grind
      simp [hlater]
    · grind

structure Table (α : Type) where
  entries : List (String × α)
  sorted : entries.Pairwise fun a b => a.1 < b.1

namespace Table

variable {α : Type}

instance [DecidableEq α] : DecidableEq (Table α) := fun a b =>
  decidable_of_iff (a.entries = b.entries) ⟨fun h => by cases a; cases b; simpa using h, fun h => h ▸ rfl⟩

def empty : Table α := ⟨[], .nil⟩

def insert (t : Table α) (key : String) (value : α) : Table α :=
  ⟨insertEntry key value t.entries, pairwise_insertEntry key value t.sorted⟩

def get? (t : Table α) (key : String) : Option α := t.entries.lookup key

def merge (t u : Table α) : Table α :=
  u.entries.foldl (fun t e => t.insert e.1 e.2) t

/-- The table of entries given one after the other: of two with one name the later counts. -/
def ofList (entries : List (String × α)) : Table α :=
  entries.foldl (fun t e => t.insert e.1 e.2) empty

theorem get?_insert (t : Table α) (key : String) (value : α) (name : String) :
    (t.insert key value).get? name = if name = key then some value else t.get? name :=
  lookup_insertEntry key value t.entries name

theorem get?_foldl_insert (entries : List (String × α)) (t : Table α) (name : String) :
    (entries.foldl (fun t e => t.insert e.1 e.2) t).get? name =
      (entries.reverse.lookup name).or (t.get? name) := by
  induction entries generalizing t with
  | nil => rfl
  | cons head rest ih =>
    rw [List.foldl_cons, ih, get?_insert, List.reverse_cons, List.lookup_append, Option.or_assoc]
    grind

theorem get?_merge (t u : Table α) (name : String) :
    (t.merge u).get? name = (u.get? name).or (t.get? name) := by
  rw [merge, get?_foldl_insert, lookup_reverse u.sorted, get?, get?]

theorem get?_ofList (entries : List (String × α)) (name : String) :
    (ofList entries).get? name = entries.reverse.lookup name := by
  rw [ofList, get?_foldl_insert]
  exact Option.or_none

theorem entries_foldl_insert {entries : List (String × α)} {t : Table α}
    (h : (t.entries ++ entries).Pairwise fun a b => a.1 < b.1) :
    (entries.foldl (fun t e => t.insert e.1 e.2) t).entries = t.entries ++ entries := by
  induction entries generalizing t with
  | nil => simp
  | cons head rest ih =>
    have hlast : ∀ e ∈ t.entries, e.1 < head.1 := fun e he =>
      (List.pairwise_append.1 h).2.2 e he head (.head rest)
    have hinsert : (t.insert head.1 head.2).entries = t.entries ++ [head] :=
      insertEntry_of_forall_lt head.2 hlast
    rw [List.foldl_cons, ih, hinsert, List.append_assoc, List.singleton_append]
    rwa [hinsert, List.append_assoc, List.singleton_append]

theorem ofList_entries (t : Table α) : ofList t.entries = t := by
  have h : (ofList t.entries).entries = t.entries := entries_foldl_insert (t := empty) t.sorted
  cases hlist : ofList t.entries with
  | mk entries sorted =>
    rw [hlist] at h
    cases t
    cases h
    rfl

theorem get?_of_mem {t : Table α} {e : String × α} (h : e ∈ t.entries) : t.get? e.1 = some e.2 := by
  obtain ⟨before, after, heq⟩ := List.append_of_mem h
  have hsorted := t.sorted
  rw [heq] at hsorted
  refine List.lookup_eq_some_iff.2 ⟨before, after, heq, fun e' he' => ?_⟩
  have hlt : e'.1 < e.1 := (List.pairwise_append.1 hsorted).2.2 e' he' e (.head after)
  grind

theorem get?_eq_some_iff {t : Table α} {key : String} {value : α} :
    t.get? key = some value ↔ (key, value) ∈ t.entries := by
  refine ⟨fun h => ?_, get?_of_mem⟩
  obtain ⟨before, after, hentries, -⟩ := List.lookup_eq_some_iff.1 h
  rw [hentries]
  exact List.mem_append_right before List.mem_cons_self

theorem findSome?_eq_some_iff {β : Type} {t : Table α} {f : String × α → Option β} {b : β} :
    t.entries.findSome? f = some b ↔
      ∃ e ∈ t.entries, f e = some b ∧ ∀ e' ∈ t.entries, e'.1 < e.1 → f e' = none := by
  have hsorted := t.sorted
  rw [List.findSome?_eq_some_iff]
  constructor
  · rintro ⟨before, e, after, hentries, hfound, hbefore⟩
    rw [hentries] at hsorted ⊢
    refine ⟨e, List.mem_append_right before List.mem_cons_self, hfound, fun e' he' hlt => ?_⟩
    rcases List.mem_append.1 he' with hin | hin
    · exact hbefore e' hin
    · rcases List.mem_cons.1 hin with rfl | hin
      · exact absurd hlt (String.lt_irrefl e'.1)
      · have hafter := (List.pairwise_cons.1 (List.pairwise_append.1 hsorted).2.1).1 e' hin
        exact absurd (String.lt_trans hlt hafter) (String.lt_irrefl e'.1)
  · rintro ⟨e, he, hfound, hfirst⟩
    obtain ⟨before, after, hentries⟩ := List.append_of_mem he
    refine ⟨before, e, after, hentries, hfound, fun e' he' => ?_⟩
    have hin : e' ∈ t.entries := by
      rw [hentries]
      exact List.mem_append_left (e :: after) he'
    rw [hentries] at hsorted
    exact hfirst e' hin ((List.pairwise_append.1 hsorted).2.2 e' he' e List.mem_cons_self)

end Table

end Brigade
