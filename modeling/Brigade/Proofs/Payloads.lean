import Brigade.Config.Basic
import Brigade.Kitchen.Pizza
import Brigade.Kitchen.Sandwich
import Mathlib.Data.List.Forall2
import Mathlib.Data.Set.List

/-! What is written as JSON is read back. A value is written in one way, its canonical form, and is read
from others as well: a record from the array of its fields, or with fields that it does not have, or
without those that have a default; a name with blanks around it. Whatever a value is read from, it is
written canonically, and the canonical forms are exactly what is written. -/

namespace Brigade

variable {α : Type}

namespace Json

def IsString (P : String → Prop) : Json → Prop
  | .str s => P s
  | _ => False

def IsBool : Json → Prop
  | .bool _ => True
  | _ => False

def IsWord (size : Nat) : Json → Prop
  | .int n => 0 ≤ n ∧ n < size
  | _ => False

def IsList (P : Json → Prop) : Json → Prop
  | .arr items => ∀ j ∈ items, P j
  | _ => False

/-- An object with these fields in this order, and no others. -/
def IsRecord (fields : List (String × (Json → Prop))) : Json → Prop
  | .obj entries => List.Forall₂ (fun field entry => entry.1 = field.1 ∧ field.2 entry.2) fields entries
  | _ => False

/-- An object with names in increasing order. -/
def IsTable (P : Json → Prop) : Json → Prop
  | .obj entries => (entries.Pairwise fun a b => a.1 < b.1) ∧ ∀ e ∈ entries, P e.2
  | _ => False

/-- What is written is exactly what satisfies `P`. -/
def Writes (write : α → Json) (P : Json → Prop) : Prop := ∀ j, P j ↔ ∃ v, write v = j

/-- What is written is read back. -/
def ReadsBack (write : α → Json) (read : Json → Option α) : Prop := ∀ v, read (write v) = some v

theorem writes_bool : Writes Json.bool IsBool := by
  intro j
  cases j <;> simp [IsBool]

theorem writes_string : Writes Json.str (IsString fun _ => True) := by
  intro j
  cases j <;> simp [IsString]

theorem isWord_iff {size : Nat} {j : Json} : IsWord size j ↔ ∃ n < size, ofNat n = j := by
  cases j with
  | int n =>
    constructor
    · intro h
      have hlow := h.1
      have hhigh := h.2
      refine ⟨n.toNat, by omega, ?_⟩
      rw [ofNat, Int.toNat_of_nonneg hlow]
    · rintro ⟨m, hm, hj⟩
      obtain rfl := Json.int.inj hj
      exact ⟨Int.natCast_nonneg m, Int.ofNat_lt.2 hm⟩
  | _ => simp [IsWord, ofNat]

theorem writes_word32 : Writes (fun n : UInt32 => .ofNat n.toNat) (IsWord UInt32.size) := by
  intro j
  rw [isWord_iff]
  constructor
  · rintro ⟨n, hn, rfl⟩
    exact ⟨.ofNatLT n hn, by simp⟩
  · rintro ⟨w, rfl⟩
    exact ⟨w.toNat, w.toNat_lt_size, rfl⟩

theorem writes_word64 : Writes (fun n : UInt64 => .ofNat n.toNat) (IsWord UInt64.size) := by
  intro j
  rw [isWord_iff]
  constructor
  · rintro ⟨n, hn, rfl⟩
    exact ⟨.ofNatLT n hn, by simp⟩
  · rintro ⟨w, rfl⟩
    exact ⟨w.toNat, w.toNat_lt_size, rfl⟩

theorem readsBack_word32 : ReadsBack (fun n : UInt32 => .ofNat n.toNat) word32? := by
  intro n
  simp [word32?, ofNat, asInt?, Text.word32OfInt?, Text.word32?_eq_some_iff]

theorem readsBack_word64 : ReadsBack (fun n : UInt64 => .ofNat n.toNat) word64? := by
  intro n
  simp [word64?, ofNat, asInt?, Text.word64OfInt?, Text.word64?_eq_some_iff]

theorem Writes.list {write : α → Json} {P : Json → Prop} (h : Writes write P) :
    Writes (ofList write) (IsList P) := by
  intro j
  cases j with
  | arr items =>
    have hitems : items ∈ Set.range (List.map write) ↔ ∀ j ∈ items, P j := by
      rw [Set.range_list_map]
      exact forall₂_congr fun j _ => (h j).symm
    simp only [IsList, ofList, Json.arr.injEq, ← hitems, Set.mem_range]
  | _ => simp [IsList, ofList]

/-- Values that are written as others are, and as all of them. -/
theorem Writes.comp {β : Type} {write : α → Json} {P : Json → Prop} (h : Writes write P) {f : β → α}
    (hf : f.Surjective) : Writes (fun v => write (f v)) P := by
  intro j
  rw [h j, hf.exists]

theorem ReadsBack.list {write : α → Json} {read : Json → Option α} (h : ReadsBack write read) :
    ReadsBack (ofList write) (listOf? read) := by
  intro vs
  simp only [ofList, listOf?]
  induction vs with
  | nil => rfl
  | cons v vs ih => simp [h v, ih]

theorem isRecord_nil {j : Json} : IsRecord [] j ↔ j = .obj [] := by
  cases j <;> simp [IsRecord]

theorem isRecord_cons {name : String} {P : Json → Prop} {fields : List (String × (Json → Prop))}
    {j : Json} : IsRecord ((name, P) :: fields) j ↔
      ∃ value rest, j = .obj ((name, value) :: rest) ∧ P value ∧ IsRecord fields (.obj rest) := by
  cases j with
  | obj entries =>
    constructor
    · intro h
      obtain ⟨⟨key, value⟩, rest, ⟨hkey, hvalue⟩, hrest, rfl⟩ := List.forall₂_cons_left_iff.1 h
      obtain rfl : key = name := hkey
      exact ⟨value, rest, rfl, hvalue, hrest⟩
    · rintro ⟨value, rest, ⟨⟩, hvalue, hrest⟩
      exact .cons ⟨rfl, hvalue⟩ hrest
  | _ => simp [IsRecord]

end Json

namespace Ingredient

/-- What a name of an ingredient is. -/
structure IsName (name : String) : Prop where
  trimmed : Text.trim name = name
  nonempty : name ≠ ""
  short : name.length ≤ maxLength
  chars : ∀ c ∈ name.toList, Text.isLetter c ∨ c = ' ' ∨ c = '-'

theorem fault?_eq_none_iff {name : String} : fault? name = none ↔
    name ≠ "" ∧ name.length ≤ maxLength ∧ ∀ c ∈ name.toList, Text.isLetter c ∨ c = ' ' ∨ c = '-' := by
  have hchar (c : Char) : Text.isLetter c ∨ c = ' ' ∨ c = '-' ↔ isNameChar c = true := by
    simp [isNameChar, or_assoc]
  simp only [fault?, hchar]
  by_cases hempty : name = ""
  · simp [hempty]
  · by_cases hlong : maxLength < name.length
    · simp [hempty, hlong]
    · simp [hempty, hlong, Nat.not_lt.1 hlong]

theorem isName (i : Ingredient) : IsName i.name := by
  obtain ⟨hnonempty, hshort, hchars⟩ := fault?_eq_none_iff.1 i.faultless
  exact ⟨i.trimmed, hnonempty, hshort, hchars⟩

theorem writes : Json.Writes toJson (Json.IsString IsName) := by
  intro j
  cases j with
  | str name =>
    constructor
    · intro h
      have hname : IsName name := h
      have hfaultless := fault?_eq_none_iff.2 ⟨hname.nonempty, hname.short, hname.chars⟩
      exact ⟨⟨name, hname.trimmed, hfaultless⟩, rfl⟩
    · rintro ⟨i, hi⟩
      obtain rfl := Json.str.inj hi
      exact i.isName
  | _ => simp [Json.IsString, toJson]

theorem ofText_eq_ok {s : String} {i : Ingredient} (h : Text.trim s = i.name) : ofText s = .ok i := by
  obtain ⟨name, htrimmed, hfaultless⟩ := i
  obtain rfl : Text.trim s = name := h
  unfold ofText
  split
  · rfl
  · next error hfault =>
    rw [hfaultless] at hfault
    cases hfault

theorem readsBack : Json.ReadsBack toJson ofJson? := by
  intro i
  simp only [toJson, ofJson?, Json.asString?, Option.bind_some, ofText_eq_ok i.trimmed]
  rfl

end Ingredient

namespace PizzaSize

theorem writes : Json.Writes toJson (Json.IsString (· ∈ ["small", "medium", "large"])) := by
  intro j
  cases j with
  | str name =>
    constructor
    · intro h
      simp only [Json.IsString, List.mem_cons, List.not_mem_nil, or_false] at h
      rcases h with rfl | rfl | rfl
      · exact ⟨.small, rfl⟩
      · exact ⟨.medium, rfl⟩
      · exact ⟨.large, rfl⟩
    · rintro ⟨size, hsize⟩
      obtain rfl := Json.str.inj hsize
      cases size <;> simp [Json.IsString, name]
  | _ => simp [Json.IsString, toJson]

theorem readsBack : Json.ReadsBack toJson ofJson? := by
  intro size
  cases size <;> rfl

end PizzaSize

theorem Ingredient.writes_list :
    Json.Writes listToJson (Json.IsList (Json.IsString IsName)) := writes.list

theorem Ingredient.readsBack_list : Json.ReadsBack listToJson (Json.listOf? ofJson?) :=
  readsBack.list

namespace Dough

def Canonical : Json → Prop :=
  Json.IsRecord [("size", Json.IsString (· ∈ ["small", "medium", "large"])),
    ("toppings", Json.IsList (Json.IsString Ingredient.IsName))]

theorem writes : Json.Writes toJson Canonical := by
  intro j
  simp only [Canonical, Json.isRecord_cons, Json.isRecord_nil]
  constructor
  · rintro ⟨size, _, rfl, hsize, toppings, _, ⟨⟩, htoppings, ⟨⟩⟩
    obtain ⟨size, rfl⟩ := (PizzaSize.writes _).1 hsize
    obtain ⟨toppings, rfl⟩ := (Ingredient.writes_list _).1 htoppings
    exact ⟨⟨size, toppings⟩, rfl⟩
  · rintro ⟨d, rfl⟩
    exact ⟨_, _, rfl, (PizzaSize.writes _).2 ⟨_, rfl⟩, _, _, rfl,
      (Ingredient.writes_list _).2 ⟨_, rfl⟩, rfl⟩

theorem readsBack : Json.ReadsBack toJson ofJson? := by
  intro d
  simp [toJson, ofJson?, Json.record?, Json.fields?, List.lookup_cons, PizzaSize.readsBack d.size,
    Ingredient.readsBack_list d.toppings]

end Dough

namespace Pizza

def Canonical : Json → Prop :=
  Json.IsRecord [("size", Json.IsString (· ∈ ["small", "medium", "large"])),
    ("toppings", Json.IsList (Json.IsString Ingredient.IsName)),
    ("baked_minutes", Json.IsWord UInt32.size), ("maker", Json.IsString fun _ => True)]

theorem writes : Json.Writes toJson Canonical := by
  intro j
  simp only [Canonical, Json.isRecord_cons, Json.isRecord_nil]
  constructor
  · rintro ⟨size, _, rfl, hsize, toppings, _, ⟨⟩, htoppings, minutes, _, ⟨⟩, hminutes, maker, _, ⟨⟩,
      hmaker, ⟨⟩⟩
    obtain ⟨size, rfl⟩ := (PizzaSize.writes _).1 hsize
    obtain ⟨toppings, rfl⟩ := (Ingredient.writes_list _).1 htoppings
    obtain ⟨minutes, rfl⟩ := (Json.writes_word32 _).1 hminutes
    obtain ⟨maker, rfl⟩ := (Json.writes_string _).1 hmaker
    exact ⟨⟨size, toppings, minutes, maker⟩, rfl⟩
  · rintro ⟨p, rfl⟩
    exact ⟨_, _, rfl, (PizzaSize.writes _).2 ⟨_, rfl⟩, _, _, rfl,
      (Ingredient.writes_list _).2 ⟨_, rfl⟩, _, _, rfl, (Json.writes_word32 _).2 ⟨_, rfl⟩, _, _, rfl,
      trivial, rfl⟩

theorem readsBack : Json.ReadsBack toJson ofJson? := by
  intro p
  simp [toJson, ofJson?, Json.record?, Json.fields?, List.lookup_cons, PizzaSize.readsBack p.size,
    Ingredient.readsBack_list p.toppings, Json.readsBack_word32 p.bakedMinutes, Json.asString?]

end Pizza

def CanonicalComponents : Json → Prop :=
  Json.IsRecord [("components", Json.IsList (Json.IsString Ingredient.IsName))]

theorem writes_components :
    Json.Writes (fun components => .obj [("components", Ingredient.listToJson components)])
      CanonicalComponents := by
  intro j
  simp only [CanonicalComponents, Json.isRecord_cons, Json.isRecord_nil]
  constructor
  · rintro ⟨components, _, rfl, hcomponents, ⟨⟩⟩
    obtain ⟨components, rfl⟩ := (Ingredient.writes_list _).1 hcomponents
    exact ⟨components, rfl⟩
  · rintro ⟨components, rfl⟩
    exact ⟨_, _, rfl, (Ingredient.writes_list _).2 ⟨_, rfl⟩, rfl⟩

theorem readsBack_components :
    Json.ReadsBack (fun components => .obj [("components", Ingredient.listToJson components)])
      componentsOfJson? := by
  intro components
  simp [componentsOfJson?, Json.record?, Json.fields?, List.lookup_cons,
    Ingredient.readsBack_list components]

theorem SandwichBody.writes : Json.Writes toJson CanonicalComponents :=
  writes_components.comp fun components => ⟨⟨components⟩, rfl⟩

theorem SandwichBody.readsBack : Json.ReadsBack toJson ofJson? := by
  intro body
  simp only [toJson, ofJson?, readsBack_components body.components, Option.map_some]

theorem Sandwich.writes : Json.Writes toJson CanonicalComponents :=
  writes_components.comp fun components => ⟨⟨components⟩, rfl⟩

theorem Sandwich.readsBack : Json.ReadsBack toJson ofJson? := by
  intro sandwich
  simp only [toJson, ofJson?, readsBack_components sandwich.components, Option.map_some]

namespace FailurePolicy

def Canonical (j : Json) : Prop :=
  j = .obj [("kind", .str "propagate")] ∨ j = .obj [("kind", .str "recover")] ∨
    Json.IsRecord [("kind", (· = .str "retry")), ("attempts", Json.IsWord UInt32.size)] j

theorem writes : Json.Writes toJson Canonical := by
  intro j
  simp only [Canonical, Json.isRecord_cons, Json.isRecord_nil]
  constructor
  · rintro (rfl | rfl | ⟨_, _, rfl, rfl, attempts, _, ⟨⟩, hattempts, ⟨⟩⟩)
    · exact ⟨.propagate, rfl⟩
    · exact ⟨.recover, rfl⟩
    · obtain ⟨attempts, rfl⟩ := (Json.writes_word32 _).1 hattempts
      exact ⟨.retry attempts, rfl⟩
  · rintro ⟨policy, rfl⟩
    cases policy with
    | propagate => exact .inl rfl
    | recover => exact .inr (.inl rfl)
    | retry attempts =>
      exact .inr (.inr ⟨_, _, rfl, rfl, _, _, rfl, (Json.writes_word32 _).2 ⟨_, rfl⟩, rfl⟩)

theorem readsBack : Json.ReadsBack toJson ofJson? := by
  intro policy
  cases policy with
  | propagate => rfl
  | recover => rfl
  | retry attempts =>
    simp [toJson, ofJson?, List.lookup_cons, Json.readsBack_word32 attempts]

end FailurePolicy

namespace InterpreterFailure

def Canonical (j : Json) : Prop :=
  j = .str "Aborted" ∨
    ∃ kind ∈ ["Unavailable", "Failed", "Rejected"], Json.IsRecord [(kind, Json.IsString fun _ => True)] j

theorem writes : Json.Writes toJson Canonical := by
  intro j
  simp only [Canonical, Json.isRecord_cons, Json.isRecord_nil]
  constructor
  · rintro (rfl | ⟨kind, hkind, reason, _, rfl, hreason, ⟨⟩⟩)
    · exact ⟨.aborted, rfl⟩
    · obtain ⟨reason, rfl⟩ := (Json.writes_string _).1 hreason
      simp only [List.mem_cons, List.not_mem_nil, or_false] at hkind
      rcases hkind with rfl | rfl | rfl
      · exact ⟨.unavailable reason, rfl⟩
      · exact ⟨.failed reason, rfl⟩
      · exact ⟨.rejected reason, rfl⟩
  · rintro ⟨failure, rfl⟩
    cases failure with
    | unavailable reason => exact .inr ⟨"Unavailable", by simp, _, _, rfl, trivial, rfl⟩
    | failed reason => exact .inr ⟨"Failed", by simp, _, _, rfl, trivial, rfl⟩
    | rejected reason => exact .inr ⟨"Rejected", by simp, _, _, rfl, trivial, rfl⟩
    | aborted => exact .inl rfl

theorem readsBack : Json.ReadsBack toJson ofJson? := by
  intro failure
  cases failure <;> rfl

end InterpreterFailure

namespace EngineSettings

def Canonical : Json → Prop :=
  Json.IsRecord [("max_depth", Json.IsWord UInt64.size), ("max_steps", Json.IsWord UInt64.size),
    ("trace_commands", Json.IsBool)]

theorem writes : Json.Writes toJson Canonical := by
  intro j
  simp only [Canonical, Json.isRecord_cons, Json.isRecord_nil]
  constructor
  · rintro ⟨depth, _, rfl, hdepth, steps, _, ⟨⟩, hsteps, trace, _, ⟨⟩, htrace, ⟨⟩⟩
    obtain ⟨depth, rfl⟩ := (Json.writes_word64 _).1 hdepth
    obtain ⟨steps, rfl⟩ := (Json.writes_word64 _).1 hsteps
    obtain ⟨trace, rfl⟩ := (Json.writes_bool _).1 htrace
    exact ⟨⟨depth, steps, trace⟩, rfl⟩
  · rintro ⟨s, rfl⟩
    exact ⟨_, _, rfl, (Json.writes_word64 _).2 ⟨_, rfl⟩, _, _, rfl,
      (Json.writes_word64 _).2 ⟨_, rfl⟩, _, _, rfl, trivial, rfl⟩

theorem readsBack (surplus : Json.Surplus) : Json.ReadsBack toJson (read? surplus) := by
  intro s
  simp [toJson, read?, Json.fields?, List.lookup_cons, Json.orDefault?, Json.readsBack_word64 s.maxDepth,
    Json.readsBack_word64 s.maxSteps, Json.asBool?]

end EngineSettings

namespace Config

def Canonical : Json → Prop :=
  Json.IsRecord [("debug", Json.IsBool), ("engine", EngineSettings.Canonical),
    ("policies", Json.IsTable FailurePolicy.Canonical)]

def policiesToJson (table : PolicyTable) : Json :=
  .obj (table.entries.map fun e => (e.1, e.2.toJson))

theorem writes_policies : Json.Writes policiesToJson (Json.IsTable FailurePolicy.Canonical) := by
  intro j
  cases j with
  | obj fields =>
    have hfields : fields ∈ Set.range (List.map fun e : String × FailurePolicy => (e.1, e.2.toJson)) ↔
        ∀ f ∈ fields, FailurePolicy.Canonical f.2 := by
      rw [Set.range_list_map]
      refine forall₂_congr fun f _ => ?_
      rw [FailurePolicy.writes f.2]
      constructor
      · rintro ⟨e, rfl⟩
        exact ⟨e.2, rfl⟩
      · rintro ⟨policy, hpolicy⟩
        exact ⟨(f.1, policy), Prod.ext rfl hpolicy⟩
    constructor
    · rintro ⟨hsorted, hpolicies⟩
      obtain ⟨entries, rfl⟩ := hfields.2 hpolicies
      rw [List.pairwise_map] at hsorted
      exact ⟨⟨entries, hsorted⟩, rfl⟩
    · rintro ⟨table, htable⟩
      obtain rfl := Json.obj.inj htable
      exact ⟨List.pairwise_map.2 table.sorted, hfields.1 ⟨table.entries, rfl⟩⟩
  | _ => simp [Json.IsTable, policiesToJson]

theorem readsBack_policies : Json.ReadsBack policiesToJson policiesOfJson? := by
  intro table
  have hentries (entries : List (String × FailurePolicy)) :
      (entries.map fun e => (e.1, e.2.toJson)).mapM
        (fun f => (FailurePolicy.ofJson? f.2).bind fun policy => some (f.1, policy)) = some entries := by
    induction entries with
    | nil => rfl
    | cons e rest ih =>
      rw [List.map_cons, List.mapM_cons, ih, FailurePolicy.readsBack e.2]
      rfl
  simp only [policiesToJson, policiesOfJson?, Json.asFields?, Option.bind_eq_bind, Option.bind_some,
    Option.pure_def]
  rw [hentries, Option.bind_some, Table.ofList_entries]

theorem writes : Json.Writes toJson Canonical := by
  intro j
  simp only [Canonical, Json.isRecord_cons, Json.isRecord_nil]
  constructor
  · rintro ⟨debug, _, rfl, hdebug, engine, _, ⟨⟩, hengine, policies, _, ⟨⟩, hpolicies, ⟨⟩⟩
    obtain ⟨debug, rfl⟩ := (Json.writes_bool _).1 hdebug
    obtain ⟨engine, rfl⟩ := (EngineSettings.writes _).1 hengine
    obtain ⟨policies, rfl⟩ := (writes_policies _).1 hpolicies
    exact ⟨⟨debug, engine, policies⟩, rfl⟩
  · rintro ⟨c, rfl⟩
    exact ⟨_, _, rfl, trivial, _, _, rfl, (EngineSettings.writes _).2 ⟨_, rfl⟩, _, _, rfl,
      (writes_policies _).2 ⟨_, rfl⟩, rfl⟩

theorem readsBack (surplus : Json.Surplus) : Json.ReadsBack toJson (read? surplus) := by
  intro c
  have hpolicies := readsBack_policies c.policies
  rw [policiesToJson] at hpolicies
  simp [toJson, read?, Json.fields?, List.lookup_cons, Json.orDefault?, Json.asBool?,
    EngineSettings.readsBack surplus c.engine, hpolicies]

end Config

namespace Json

theorem lookup_filter {β : Type} {P : String → Bool} {name : String} (h : P name = true)
    (entries : List (String × β)) :
    (entries.filter fun e => P e.1).lookup name = entries.lookup name := by
  induction entries with
  | nil => rfl
  | cons e rest ih =>
    obtain ⟨key, v⟩ := e
    by_cases hkey : P key = true
    · simp [hkey, List.lookup_cons, ih]
    · have hne : name ≠ key := fun heq => hkey (heq ▸ h)
      simp [hkey, List.lookup_cons, beq_false_of_ne hne, ih]

theorem lookup_eq_some_iff_mem {β : Type} {entries : List (String × β)}
    (h : (entries.map Prod.fst).Nodup) {name : String} {v : β} :
    entries.lookup name = some v ↔ (name, v) ∈ entries := by
  induction entries with
  | nil => simp
  | cons e rest ih =>
    obtain ⟨key, w⟩ := e
    obtain ⟨hkey, hrest⟩ := List.nodup_cons.1 h
    by_cases heq : name = key
    · subst heq
      have hnot : (name, v) ∉ rest := fun hmem => hkey (List.mem_map.2 ⟨_, hmem, rfl⟩)
      simp [hnot, eq_comm]
    · simp [List.lookup_cons, beq_false_of_ne heq, heq, ih hrest]

/-- A record is read alike from an object with its fields and from one that has others too, whatever
their order. -/
theorem fields?_of_perm {surplus : Surplus} {names : List String} {fields known : List (String × Json)}
    (hnames : (known.map Prod.fst).Nodup) (h : (fields.filter fun f => f.1 ∈ names).Perm known) :
    fields? surplus names (.obj fields) = fields? surplus names (.obj known) := by
  simp only [fields?, Option.some.injEq]
  refine List.map_congr_left fun name hname => ?_
  have hfilter := lookup_filter (P := fun name => decide (name ∈ names)) (by simpa using hname) fields
  have hnames' : ((fields.filter fun f => f.1 ∈ names).map Prod.fst).Nodup :=
    (h.map Prod.fst).nodup_iff.2 hnames
  rw [← hfilter]
  refine Option.ext fun v => ?_
  rw [lookup_eq_some_iff_mem hnames', lookup_eq_some_iff_mem hnames]
  exact h.mem_iff

theorem fields?_arr {surplus : Surplus} {fields : List (String × Json)}
    (hnames : (fields.map Prod.fst).Nodup) :
    fields? surplus (fields.map Prod.fst) (.arr (fields.map Prod.snd)) =
      fields? surplus (fields.map Prod.fst) (.obj fields) := by
  have hlookup : (fields.map Prod.fst).map (fun name => fields.lookup name) =
      (fields.map Prod.snd).map some := by
    rw [List.map_map, List.map_map]
    exact List.map_congr_left fun f hf => (lookup_eq_some_iff_mem hnames).2 hf
  have hlength : (fields.map Prod.snd).take fields.length = fields.map Prod.snd := by
    rw [← List.length_map (f := Prod.snd), List.take_length]
  simp [fields?, hlookup, hlength]

end Json

/-- The types of values that are written as JSON. -/
inductive Payload : Type → Type
  | ingredient : Payload Ingredient
  | pizzaSize : Payload PizzaSize
  | dough : Payload Dough
  | pizza : Payload Pizza
  | sandwichBody : Payload SandwichBody
  | sandwich : Payload Sandwich
  | policy : Payload FailurePolicy
  | failure : Payload InterpreterFailure
  | settings : Payload EngineSettings
  | config : Payload Config

namespace Payload

def encode : Payload α → α → Json
  | .ingredient => Ingredient.toJson
  | .pizzaSize => PizzaSize.toJson
  | .dough => Dough.toJson
  | .pizza => Pizza.toJson
  | .sandwichBody => SandwichBody.toJson
  | .sandwich => Sandwich.toJson
  | .policy => FailurePolicy.toJson
  | .failure => InterpreterFailure.toJson
  | .settings => EngineSettings.toJson
  | .config => Config.toJson

def decode : Payload α → Json → Option α
  | .ingredient => Ingredient.ofJson?
  | .pizzaSize => PizzaSize.ofJson?
  | .dough => Dough.ofJson?
  | .pizza => Pizza.ofJson?
  | .sandwichBody => SandwichBody.ofJson?
  | .sandwich => Sandwich.ofJson?
  | .policy => FailurePolicy.ofJson?
  | .failure => InterpreterFailure.ofJson?
  | .settings => EngineSettings.ofJson?
  | .config => Config.ofJson?

def Canonical : Payload α → Json → Prop
  | .ingredient => Json.IsString Ingredient.IsName
  | .pizzaSize => Json.IsString (· ∈ ["small", "medium", "large"])
  | .dough => Dough.Canonical
  | .pizza => Pizza.Canonical
  | .sandwichBody => CanonicalComponents
  | .sandwich => CanonicalComponents
  | .policy => FailurePolicy.Canonical
  | .failure => InterpreterFailure.Canonical
  | .settings => EngineSettings.Canonical
  | .config => Config.Canonical

def ingredients : Payload α → α → List Ingredient
  | .ingredient, i => [i]
  | .dough, d => d.toppings
  | .pizza, p => p.toppings
  | .sandwichBody, b => b.components
  | .sandwich, s => s.components
  | .pizzaSize, _ | .policy, _ | .failure, _ | .settings, _ | .config, _ => []

/-- The names of the fields of a record. -/
def names? : Payload α → Option (List String)
  | .dough => some ["size", "toppings"]
  | .pizza => some ["size", "toppings", "baked_minutes", "maker"]
  | .sandwichBody => some ["components"]
  | .sandwich => some ["components"]
  | .settings => some ["max_depth", "max_steps", "trace_commands"]
  | .config => some ["debug", "engine", "policies"]
  | .ingredient | .pizzaSize | .policy | .failure => none

theorem writes (p : Payload α) : Json.Writes p.encode p.Canonical := by
  cases p with
  | ingredient => exact Ingredient.writes
  | pizzaSize => exact PizzaSize.writes
  | dough => exact Dough.writes
  | pizza => exact Pizza.writes
  | sandwichBody => exact SandwichBody.writes
  | sandwich => exact Sandwich.writes
  | policy => exact FailurePolicy.writes
  | failure => exact InterpreterFailure.writes
  | settings => exact EngineSettings.writes
  | config => exact Config.writes

theorem readsBack (p : Payload α) : Json.ReadsBack p.encode p.decode := by
  cases p with
  | ingredient => exact Ingredient.readsBack
  | pizzaSize => exact PizzaSize.readsBack
  | dough => exact Dough.readsBack
  | pizza => exact Pizza.readsBack
  | sandwichBody => exact SandwichBody.readsBack
  | sandwich => exact Sandwich.readsBack
  | policy => exact FailurePolicy.readsBack
  | failure => exact InterpreterFailure.readsBack
  | settings => exact EngineSettings.readsBack .refused
  | config => exact Config.readsBack .refused

theorem exists_fields {p : Payload α} {names : List String} (hnames : p.names? = some names) (v : α) :
    names.Nodup ∧ ∃ fields, p.encode v = .obj fields ∧ fields.map Prod.fst = names := by
  cases p <;> cases hnames <;> exact ⟨by decide, _, rfl, rfl⟩

theorem decode_congr {p : Payload α} {names : List String} (hnames : p.names? = some names)
    {j j' : Json} (h : j.fields? .refused names = j'.fields? .refused names) :
    p.decode j = p.decode j' := by
  cases p <;> cases hnames
  all_goals
    simp only [decode, Dough.ofJson?, Pizza.ofJson?, SandwichBody.ofJson?, Sandwich.ofJson?,
      componentsOfJson?, EngineSettings.ofJson?, EngineSettings.read?, Config.ofJson?, Config.read?,
      Json.record?, h]

/-- What is written is canonical and is read back, and what is read is written canonically: as what it
was read from, if that was canonical. A record is read from the array of its fields as well, and from
an object that has its fields among others. The ingredients of what is read have names. -/
theorem roundTrip (p : Payload α) :
    (∀ v, p.decode (p.encode v) = some v) ∧
    (∀ j, p.Canonical j ↔ ∃ v, p.encode v = j) ∧
    (∀ j v, p.decode j = some v →
      p.Canonical (p.encode v) ∧ p.decode (p.encode v) = some v ∧ (p.Canonical j → p.encode v = j) ∧
        ∀ i ∈ p.ingredients v, Ingredient.IsName i.name) ∧
    ∀ names, p.names? = some names → ∀ v, ∃ fields, p.encode v = .obj fields ∧
      fields.map Prod.fst = names ∧ p.decode (.arr (fields.map Prod.snd)) = some v ∧
      ∀ entries, (entries.filter fun e => e.1 ∈ names).Perm fields →
        p.decode (.obj entries) = some v := by
  refine ⟨p.readsBack, p.writes, fun j v h => ⟨(p.writes _).2 ⟨v, rfl⟩, p.readsBack v, fun hj => ?_,
    fun i _ => i.isName⟩, fun names hnames v => ?_⟩
  · obtain ⟨w, rfl⟩ := (p.writes j).1 hj
    obtain rfl : w = v := Option.some.inj ((p.readsBack w).symm.trans h)
    rfl
  · obtain ⟨hnodup, fields, hencode, rfl⟩ := exists_fields hnames v
    have hread : p.decode (.obj fields) = some v := hencode ▸ p.readsBack v
    refine ⟨fields, hencode, rfl, ?_, fun entries hperm => ?_⟩
    · rw [decode_congr hnames (Json.fields?_arr hnodup), hread]
    · rw [decode_congr hnames (Json.fields?_of_perm hnodup hperm), hread]

/-- A pizza as an array, with its size as an object and blanks around the name of a topping; and settings
with a field that they do not have and their own the other way round. -/
theorem roundTrip_untidy :
    let untidy : Json := .arr [.obj [("medium", .null)], .arr [.str "  Salt "], .int 12,
      .str "Mario"]
    let tidy : Json := .obj [("size", .str "medium"), ("toppings", .arr [.str "Salt"]),
      ("baked_minutes", .int 12), ("maker", .str "Mario")]
    let settings : EngineSettings := { maxSteps := 3 }
    (∃ pizza, Payload.pizza.decode untidy = some pizza ∧ Payload.pizza.encode pizza = tidy ∧
      Payload.pizza.Canonical tidy ∧ Payload.pizza.decode tidy = some pizza ∧
      ∀ i ∈ pizza.toppings, Ingredient.IsName i.name) ∧
    Payload.settings.decode (.arr [.int 16, .int 3, .bool true]) = some settings ∧
    Payload.settings.decode (.obj [("trace_commands", .bool true), ("max_depth", .int 16),
      ("comment", .null), ("max_steps", .int 3)]) = some settings := by
  intro untidy tidy settings
  have hread : ∃ pizza, Payload.pizza.decode untidy = some pizza ∧ Payload.pizza.encode pizza = tidy :=
    ⟨_, rfl, rfl⟩
  obtain ⟨pizza, hdecode, hencode⟩ := hread
  obtain ⟨-, -, hpizza, -⟩ := roundTrip .pizza
  obtain ⟨hcanonical, hback, -, hnames⟩ := hpizza untidy pizza hdecode
  obtain ⟨-, -, -, hrecord⟩ := roundTrip .settings
  obtain ⟨fields, hfields, -, harray, hobject⟩ := hrecord _ rfl settings
  obtain rfl : fields = [("max_depth", .int 16), ("max_steps", .int 3), ("trace_commands", .bool true)] :=
    (Json.obj.inj hfields).symm
  rw [hencode] at hcanonical hback
  refine ⟨⟨pizza, hdecode, hencode, hcanonical, hback, hnames⟩, harray, hobject _ ?_⟩
  have hown : [("trace_commands", Json.bool true), ("max_depth", .int 16), ("comment", .null),
      ("max_steps", .int 3)].filter (fun e => e.1 ∈ ["max_depth", "max_steps", "trace_commands"]) =
        [("trace_commands", .bool true), ("max_depth", .int 16), ("max_steps", .int 3)] := by simp
  rw [hown]
  exact (List.Perm.swap _ _ _).trans ((List.Perm.swap _ _ _).cons _)

end Payload

end Brigade
