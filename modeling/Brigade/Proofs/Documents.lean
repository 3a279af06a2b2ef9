import Brigade.Config.Document
import Brigade.Proofs.Lines
import Brigade.Proofs.Payloads

/-! What is written of a configuration as TOML is read back. The text is one of lines, each of which is
read as one statement; the statements put pairs and tables with new names at the end of the document, so
its entries are those of the configuration in their order. -/

namespace Brigade

namespace Toml

/-! ### Tables -/

namespace Entries

variable {entries : Entries} {key : String}

theorem lookup_of_new (h : key ∉ entries.map Prod.fst) : entries.lookup key = none := by
  rw [List.lookup_eq_none_iff]
  intro e he
  have hne : key ≠ e.1 := fun heq => h (List.mem_map.2 ⟨e, he, heq.symm⟩)
  exact bne_iff_ne.2 hne

theorem put_of_new (h : key ∉ entries.map Prod.fst) (item : Item) :
    put key item entries = entries ++ [(key, item)] := by
  induction entries with
  | nil => rfl
  | cons e rest ih =>
    obtain ⟨k, i⟩ := e
    simp only [List.map_cons, List.mem_cons, not_or] at h
    rw [put, if_neg (Ne.symm h.1), ih h.2, List.cons_append]

theorem put_last (h : key ∉ entries.map Prod.fst) (old item : Item) :
    put key item (entries ++ [(key, old)]) = entries ++ [(key, item)] := by
  induction entries with
  | nil => simp [put]
  | cons e rest ih =>
    obtain ⟨k, i⟩ := e
    simp only [List.map_cons, List.mem_cons, not_or] at h
    rw [List.cons_append, put, if_neg (Ne.symm h.1), ih h.2, List.cons_append]

theorem adjust_new (h : key ∉ entries.map Prod.fst) (f : Option Item → Option Item) :
    entries.adjust key f = (f none).map fun item => entries ++ [(key, item)] := by
  rw [adjust, lookup_of_new h]
  exact congrArg (Option.map · (f none)) (funext (put_of_new h))

theorem adjust_last (h : key ∉ entries.map Prod.fst) (old : Item) (f : Option Item → Option Item) :
    adjust key f (entries ++ [(key, old)]) =
      (f (some old)).map fun item => entries ++ [(key, item)] := by
  have hlookup : (entries ++ [(key, old)]).lookup key = some old := by
    rw [List.lookup_append, lookup_of_new h]
    simp
  rw [adjust, hlookup]
  exact congrArg (Option.map · (f (some old))) (funext (put_last h old))

theorem descend_append (f : Entries → Option Entries) (path path' : List String) :
    descend f (path ++ path') = descend (descend f path') path := by
  induction path with
  | nil => rfl
  | cons key path ih =>
    funext entries
    rw [List.cons_append, descend, descend, ih]

end Entries

/-- The table at a path, with what is around it: what changes the table changes it there. -/
def Encloses (entries : Entries) (path : List String) (inner : Entries) (wrap : Entries → Entries) :
    Prop :=
  ∀ f, Entries.descend f path entries = (f inner).map wrap

namespace Encloses

variable {entries inner innermost outer : Entries} {path path' : List String}
  {wrap wrap' : Entries → Entries} {key : String}

theorem here (entries : Entries) : Encloses entries [] entries id :=
  fun f => (congrFun Option.map_id (f entries)).symm

theorem implied (h : key ∉ outer.map Prod.fst) :
    Encloses outer [key] [] fun inner => outer ++ [(key, .table .implied inner)] := by
  intro f
  rw [Entries.descend, Entries.adjust_new h, Option.map_map]
  rfl

theorem last (h : key ∉ outer.map Prod.fst) (origin : Origin) (inner : Entries) :
    Encloses (outer ++ [(key, .table origin inner)]) [key] inner
      fun inner => outer ++ [(key, .table origin inner)] := by
  intro f
  rw [Entries.descend, Entries.adjust_last h, Option.map_map]
  rfl

theorem inside (h : Encloses entries path inner wrap) (h' : Encloses inner path' innermost wrap') :
    Encloses entries (path ++ path') innermost fun innermost => wrap (wrap' innermost) := by
  intro f
  rw [Entries.descend_append, h, h', Option.map_map]
  rfl

end Encloses

def pairs (fields : List (String × Json)) : List Statement := fields.map fun f => .pair [] f.1 f.2

def values (fields : List (String × Json)) : Entries := fields.map fun f => (f.1, .value f.2)

def tableOf (path : List String) (name : String) (fields : List (String × Json)) : List Statement :=
  .table path name :: pairs fields

namespace Document

variable {entries inner : Entries} {path : List String} {wrap : Entries → Entries} {name : String}
  {fields : List (String × Json)}

theorem add?_pair (h : Encloses entries path inner wrap) (hname : name ∉ inner.map Prod.fst) (v : Json) :
    add? ⟨entries, path⟩ (.pair [] name v) = some ⟨wrap (inner ++ [(name, .value v)]), path⟩ := by
  rw [add?, h, Entries.assign, Entries.adjust_new hname]
  rfl

theorem add?_header (h : Encloses entries path inner wrap) (hname : name ∉ inner.map Prod.fst)
    (current : List String) : add? ⟨entries, current⟩ (.table path name) =
      some ⟨wrap (inner ++ [(name, .table .stated [])]), path ++ [name]⟩ := by
  rw [add?, Entries.openTable, h, Entries.adjust_new hname]
  rfl

theorem foldlM_pairs (h : ∀ inner, Encloses (wrap inner) path inner wrap)
    (hnames : (inner.map Prod.fst ++ fields.map Prod.fst).Nodup) :
    (pairs fields).foldlM add? ⟨wrap inner, path⟩ = some ⟨wrap (inner ++ values fields), path⟩ := by
  induction fields generalizing inner with
  | nil => simp [pairs, values]
  | cons field fields ih =>
    obtain ⟨name, v⟩ := field
    have hname : name ∉ inner.map Prod.fst := fun hmem =>
      (List.nodup_append.1 hnames).2.2 name hmem name List.mem_cons_self rfl
    have hrest : ((inner ++ [(name, Item.value v)]).map Prod.fst ++ fields.map Prod.fst).Nodup := by
      simpa using hnames
    rw [pairs, List.map_cons, List.foldlM_cons, add?_pair (h inner) hname v]
    have hpairs := ih hrest
    rw [List.append_assoc] at hpairs
    exact hpairs

theorem foldlM_tableOf (h : ∀ inner, Encloses (wrap inner) path inner wrap)
    (hentries : Encloses entries path inner wrap) (hname : name ∉ inner.map Prod.fst)
    (hfields : (fields.map Prod.fst).Nodup) (current : List String) :
    (tableOf path name fields).foldlM add? ⟨entries, current⟩ =
      some ⟨wrap (inner ++ [(name, .table .stated (values fields))]), path ++ [name]⟩ := by
  have hinside (table : Entries) := (h (inner ++ [(name, .table .stated table)])).inside
    (Encloses.last hname .stated table)
  have hnames : (([] : Entries).map Prod.fst ++ fields.map Prod.fst).Nodup := hfields
  have hpairs := foldlM_pairs hinside hnames
  rw [tableOf, List.foldlM_cons, add?_header hentries hname]
  exact hpairs

theorem foldlM_tables (h : ∀ inner, Encloses (wrap inner) path inner wrap)
    {tables : List (String × List (String × Json))}
    (hfields : ∀ t ∈ tables, (t.2.map Prod.fst).Nodup)
    (hnames : (inner.map Prod.fst ++ tables.map Prod.fst).Nodup) (current : List String) :
    ∃ last, (tables.flatMap fun t => tableOf path t.1 t.2).foldlM add? ⟨wrap inner, current⟩ =
      some ⟨wrap (inner ++ tables.map fun t => (t.1, .table .stated (values t.2))), last⟩ := by
  induction tables generalizing inner current with
  | nil => exact ⟨current, by simp⟩
  | cons table tables ih =>
    have hname : table.1 ∉ inner.map Prod.fst := fun hmem =>
      (List.nodup_append.1 hnames).2.2 table.1 hmem table.1 List.mem_cons_self rfl
    have hrest : ((inner ++ [(table.1, Item.table .stated (values table.2))]).map Prod.fst ++
        tables.map Prod.fst).Nodup := by
      simpa using hnames
    obtain ⟨last, htables⟩ := ih (fun t ht => hfields t (.tail table ht)) hrest (path ++ [table.1])
    refine ⟨last, ?_⟩
    rw [List.flatMap_cons, List.foldlM_append,
      foldlM_tableOf h (h inner) hname (hfields table List.mem_cons_self)]
    rw [List.append_assoc] at htables
    exact htables

/-- The first of several tables implies the table that encloses them. -/
theorem foldlM_implied {outer : Entries} {key : String} (hkey : key ∉ outer.map Prod.fst)
    {tables : List (String × List (String × Json))} (hne : tables ≠ [])
    (hfields : ∀ t ∈ tables, (t.2.map Prod.fst).Nodup) (hnames : (tables.map Prod.fst).Nodup)
    (current : List String) :
    ∃ last, (tables.flatMap fun t => tableOf [key] t.1 t.2).foldlM add? ⟨outer, current⟩ =
      some ⟨outer ++ [(key, .table .implied
        (tables.map fun t => (t.1, .table .stated (values t.2))))], last⟩ := by
  obtain ⟨table, tables, rfl⟩ := List.exists_cons_of_ne_nil hne
  have hlast (inner : Entries) := Encloses.last hkey .implied inner
  have hfirst := foldlM_tableOf hlast (.implied hkey) (List.not_mem_nil (a := table.1))
    (hfields table List.mem_cons_self) current
  have hrestNames : (([(table.1, .table .stated (values table.2))] : Entries).map Prod.fst ++
      tables.map Prod.fst).Nodup := hnames
  obtain ⟨last, hrest⟩ :=
    foldlM_tables hlast (fun t ht => hfields t (.tail table ht)) hrestNames ([key] ++ [table.1])
  refine ⟨last, ?_⟩
  rw [List.flatMap_cons, List.foldlM_append, hfirst]
  exact hrest

end Document

theorem parse?_of_lines {s : String} {statements : List Statement} (h : Lines s.toList statements)
    (hmark : s.toList.head? ≠ some '\uFEFF') :
    parse? s = (Document.ofStatements? statements).map Document.toJson := by
  have hdrop : dropMark s.toList = s.toList := by
    unfold dropMark
    split
    · next heq => exact absurd (congrArg List.head? heq) hmark
    · rfl
  simp only [parse?, hdrop, h.statements?_eq (Nat.lt_succ_self _), Option.bind_eq_bind, Option.bind_some]
  cases Document.ofStatements? statements <;> rfl

/-! ### Values -/

theorem entriesToFields_eq_map (entries : Entries) :
    entriesToFields entries = entries.map fun e => (e.1, e.2.toJson) := by
  induction entries with
  | nil => rw [entriesToFields, List.map_nil]
  | cons e rest ih =>
    obtain ⟨key, item⟩ := e
    rw [entriesToFields, ih, List.map_cons]

theorem entriesToFields_values (fields : List (String × Json)) :
    entriesToFields (values fields) = fields := by
  rw [entriesToFields_eq_map, values, List.map_map]
  exact List.map_id' fields

end Toml

def FailurePolicy.fields : FailurePolicy → List (String × Json)
  | .propagate => [("kind", .str "propagate")]
  | .retry attempts => [("kind", .str "retry"), ("attempts", .ofNat attempts.toNat)]
  | .recover => [("kind", .str "recover")]

theorem FailurePolicy.toJson_eq (policy : FailurePolicy) : policy.toJson = .obj policy.fields := by
  cases policy <;> rfl

namespace Config

open Toml

def engineFields (c : Config) : List (String × Json) :=
  [("max_depth", .ofNat c.engine.maxDepth.toNat), ("max_steps", .ofNat c.engine.maxSteps.toNat),
    ("trace_commands", .bool c.engine.traceCommands)]

/-- The statements about policies: a table for each, or one for none. -/
def policyStatements (policies : PolicyTable) : List Statement :=
  if policies.entries.isEmpty then tableOf [] "policies" []
  else policies.entries.flatMap fun e => tableOf ["policies"] e.1 e.2.fields

/-- The statements that a configuration is written as. -/
def statements (c : Config) : List Statement :=
  pairs [("debug", .bool c.debug)] ++ tableOf [] "engine" c.engineFields ++ policyStatements c.policies

theorem lines_pair {name value : String} {v : Json} (hname : keyText name = name)
    (h : ValueText value.toList v) :
    Lines (name ++ " = " ++ value ++ "\n").toList [.pair [] name v] := by
  have htext : (name ++ " = " ++ value ++ "\n").toList =
      (keyText name).toList ++ ' ' :: '=' :: ' ' :: value.toList ++ '\n' :: [] := by
    simp [hname]
  rw [htext]
  exact .line (.pair name h) .done

theorem lines_policyLines (policy : FailurePolicy) :
    Lines (policyLines policy).toList (pairs policy.fields) := by
  cases policy with
  | propagate => exact .line (.pair "kind" (.string "propagate")) .done
  | retry attempts =>
    have hsmall : attempts.toNat < 2 ^ 63 := by
      have hlt := attempts.toNat_lt
      omega
    have hkind : Lines "kind = \"retry\"\n".toList [.pair [] "kind" (.str "retry")] :=
      .line (.pair "kind" (.string "retry")) .done
    have hattempts : Lines ("attempts" ++ " = " ++ toString attempts.toNat ++ "\n").toList
        [.pair [] "attempts" (.int attempts.toNat)] :=
      lines_pair rfl (Nat.toList_repr ▸ .number hsmall)
    have htext : policyLines (.retry attempts) =
        "kind = \"retry\"\n" ++ ("attempts" ++ " = " ++ toString attempts.toNat ++ "\n") := by
      have hshape : policyLines (.retry attempts) =
          "kind = \"retry\"\nattempts = " ++ toString attempts.toNat ++ "\n" := rfl
      have hstart : "kind = \"retry\"\nattempts = " =
          "kind = \"retry\"\n" ++ ("attempts" ++ " = ") := rfl
      simp only [hshape, hstart, String.append_assoc]
    rw [htext, String.toList_append]
    exact hkind.append hattempts
  | recover => exact .line (.pair "kind" (.string "recover")) .done

theorem lines_policyTable (e : String × FailurePolicy) :
    Lines (policyTable e).toList (tableOf ["policies"] e.1 e.2.fields) := by
  have hheader : Line ('[' :: (pathText "policies" [e.1] ++ [']'])) (.table ["policies"] e.1) :=
    .header "policies" (by decide : 1 < maxDepth)
  have hname : keyText "policies" = "policies" := rfl
  have htext : (policyTable e).toList = '\n' :: ('[' :: (pathText "policies" [e.1] ++ [']']) ++
      '\n' :: (policyLines e.2).toList) := by
    simp [policyTable, pathText, hname, toString]
  rw [htext]
  exact .blank (.line hheader (lines_policyLines e.2))

theorem lines_policyTables (policies : PolicyTable) :
    Lines (policyTables policies).toList (policyStatements policies) := by
  unfold policyTables policyStatements
  split
  · exact .blank (.line (.header "policies" (by decide : [].length < maxDepth)) .done)
  · generalize policies.entries = entries
    induction entries with
    | nil => exact .done
    | cons e rest ih =>
      have h := (lines_policyTable e).append ih
      simpa using h

/-- TOML has no number of 64 bits without sign. -/
theorem numberLine?_eq_some_iff {name text : String} {n : UInt64} :
    numberLine? name n = some text ↔
      n.toNat < 2 ^ 63 ∧ text = name ++ " = " ++ toString n.toNat ++ "\n" := by
  have hmax : Int64.maxValue.toInt = 2 ^ 63 - 1 := rfl
  have hrange : ((n.toNat : Int) ≤ Int64.maxValue.toInt) ↔ n.toNat < 2 ^ 63 := by omega
  rw [numberLine?]
  split
  · next h =>
    exact ⟨fun heq => ⟨hrange.1 h, (Option.some.inj heq).symm⟩, fun hline => congrArg some hline.2.symm⟩
  · next h => exact ⟨nofun, fun hline => absurd (hrange.2 hline.1) h⟩

theorem lines_numberLine? {name text : String} {n : UInt64} (h : numberLine? name n = some text)
    (hname : keyText name = name) : Lines text.toList [.pair [] name (.int n.toNat)] := by
  obtain ⟨hsmall, rfl⟩ := numberLine?_eq_some_iff.1 h
  exact lines_pair hname (Nat.toList_repr ▸ .number hsmall)

theorem toToml?_eq_some_iff {c : Config} {text : String} : c.toToml? = some text ↔
    ∃ depth steps, numberLine? "max_depth" c.engine.maxDepth = some depth ∧
      numberLine? "max_steps" c.engine.maxSteps = some steps ∧
      text = "debug = " ++ toString c.debug ++ "\n\n[engine]\n" ++ depth ++ steps ++
        ("trace_commands = " ++ toString c.engine.traceCommands ++ "\n") ++ policyTables c.policies := by
  simp only [toToml?, Option.bind_eq_bind, Option.bind_eq_some_iff, Option.pure_def]
  constructor
  · rintro ⟨depth, hdepth, steps, hsteps, htext⟩
    exact ⟨depth, steps, hdepth, hsteps, (Option.some.inj htext).symm⟩
  · rintro ⟨depth, steps, hdepth, hsteps, rfl⟩
    exact ⟨depth, hdepth, steps, hsteps, rfl⟩

theorem lines_toToml? {c : Config} {text : String} (h : c.toToml? = some text) :
    Lines text.toList c.statements := by
  obtain ⟨depth, steps, hdepth, hsteps, rfl⟩ := toToml?_eq_some_iff.1 h
  have hdebug : Lines ("debug" ++ " = " ++ toString c.debug ++ "\n").toList
      [.pair [] "debug" (.bool c.debug)] := lines_pair rfl (.bool c.debug)
  have hheader : Lines "\n[engine]\n".toList [.table [] "engine"] :=
    .blank (.line (.header "engine" (by decide : [].length < maxDepth)) .done)
  have htrace : Lines ("trace_commands" ++ " = " ++ toString c.engine.traceCommands ++ "\n").toList
      [.pair [] "trace_commands" (.bool c.engine.traceCommands)] :=
    lines_pair rfl (.bool c.engine.traceCommands)
  have hengine := (hheader.append (lines_numberLine? hdepth rfl)).append
    ((lines_numberLine? hsteps rfl).append htrace)
  have hlines := (hdebug.append hengine).append (lines_policyTables c.policies)
  -- the parts of the text, cut where its lines end
  have hstart : "debug = " = "debug" ++ " = " := rfl
  have hbreak : "\n\n[engine]\n" = "\n" ++ "\n[engine]\n" := rfl
  have hlast : "trace_commands = " = "trace_commands" ++ " = " := rfl
  simp only [← String.toList_append, String.append_assoc] at hlines
  simp only [hstart, hbreak, hlast, String.append_assoc]
  exact hlines

theorem nodup_fields (policy : FailurePolicy) : (policy.fields.map Prod.fst).Nodup := by
  cases policy <;> simp [FailurePolicy.fields]

/-- The table of policies is stated by its own header where it is empty, and implied by those of the
policies otherwise. -/
theorem foldlM_policyStatements {entries : Entries} (h : "policies" ∉ entries.map Prod.fst)
    (policies : PolicyTable) (current : List String) :
    ∃ item last, (policyStatements policies).foldlM Document.add? ⟨entries, current⟩ =
      some ⟨entries ++ [("policies", item)], last⟩ ∧ item.toJson = policiesToJson policies := by
  unfold policyStatements
  split
  · next hempty =>
    have hnil : policies.entries = [] := List.isEmpty_iff.1 hempty
    have htop (inner : Entries) : Encloses (id inner) [] inner id := .here inner
    have hfields : (([] : List (String × Json)).map Prod.fst).Nodup := .nil
    refine ⟨_, _, Document.foldlM_tableOf htop (.here entries) h hfields current, ?_⟩
    simp [policiesToJson, hnil, Item.toJson, entriesToFields_values]
  · next hsome =>
    let tables := policies.entries.map fun e => (e.1, e.2.fields)
    have hne : tables ≠ [] := by
      simpa [tables] using hsome
    have hfields : ∀ t ∈ tables, (t.2.map Prod.fst).Nodup := by
      intro t ht
      obtain ⟨e, -, rfl⟩ := List.mem_map.1 ht
      exact nodup_fields e.2
    have hnames : (tables.map Prod.fst).Nodup := by
      have hsorted : (policies.entries.map Prod.fst).Nodup :=
        List.pairwise_map.2 (policies.sorted.imp fun hlt => String.ne_of_lt hlt)
      rwa [List.map_map]
    obtain ⟨last, htables⟩ := Document.foldlM_implied h hne hfields hnames current
    rw [List.flatMap_map] at htables
    refine ⟨_, last, htables, ?_⟩
    rw [Item.toJson, entriesToFields_eq_map, policiesToJson, List.map_map, List.map_map]
    refine congrArg Json.obj (List.map_congr_left fun e _ => ?_)
    simp [Item.toJson, entriesToFields_values, FailurePolicy.toJson_eq]

theorem ofStatements?_statements (c : Config) :
    ∃ d, Document.ofStatements? c.statements = some d ∧ d.toJson = c.toJson := by
  let debug : Entries := values [("debug", .bool c.debug)]
  let engine : Entries := [("engine", .table .stated (values c.engineFields))]
  have htop (inner : Entries) : Encloses (id inner) [] inner id := .here inner
  have hdebug : (pairs [("debug", .bool c.debug)]).foldlM Document.add? ⟨id [], []⟩ =
      some ⟨id ([] ++ debug), []⟩ := Document.foldlM_pairs htop (by simp)
  have hengine : (tableOf [] "engine" c.engineFields).foldlM Document.add? ⟨debug, []⟩ =
      some ⟨debug ++ engine, ["engine"]⟩ :=
    Document.foldlM_tableOf htop (.here debug) (by simp [debug, values]) (by simp [engineFields]) []
  have hnew : "policies" ∉ (debug ++ engine).map Prod.fst := by
    simp [debug, engine, values]
  obtain ⟨item, last, hpolicies, hitem⟩ := foldlM_policyStatements hnew c.policies ["engine"]
  refine ⟨⟨debug ++ engine ++ [("policies", item)], last⟩, ?_, ?_⟩
  · rw [Document.ofStatements?, statements, List.foldlM_append, List.foldlM_append]
    exact Option.bind_eq_some_iff.2 ⟨_, Option.bind_eq_some_iff.2 ⟨_, hdebug, hengine⟩, hpolicies⟩
  · rw [policiesToJson] at hitem
    simp [Document.toJson, entriesToFields_eq_map, toJson, debug, engine, values, Item.toJson, hitem,
      engineFields, EngineSettings.toJson]

theorem head?_of_toToml? {c : Config} {text : String} (h : c.toToml? = some text) :
    text.toList.head? = some 'd' := by
  obtain ⟨depth, steps, -, -, rfl⟩ := toToml?_eq_some_iff.1 h
  have hstart : "debug = ".toList.head? = some 'd' := rfl
  simp only [String.toList_append, List.append_assoc, List.head?_append, hstart, Option.some_or]

theorem ofToml?_toToml? {c : Config} {text : String} (h : c.toToml? = some text) :
    ofToml? text = some c := by
  obtain ⟨d, hdocument, hjson⟩ := ofStatements?_statements c
  have hmark : text.toList.head? ≠ some '\uFEFF' := by
    rw [head?_of_toToml? h]
    decide
  rw [ofToml?, parse?_of_lines (lines_toToml? h) hmark, hdocument, Option.map_some, Option.bind_some,
    hjson]
  exact readsBack .ignored c

theorem isSome_toToml? {c : Config} : c.toToml?.isSome = true ↔
    c.engine.maxDepth.toNat ≤ 2 ^ 63 - 1 ∧ c.engine.maxSteps.toNat ≤ 2 ^ 63 - 1 := by
  have hline (name : String) (n : UInt64) :
      (∃ text, numberLine? name n = some text) ↔ n.toNat ≤ 2 ^ 63 - 1 := by
    simp only [numberLine?_eq_some_iff, exists_and_left, exists_eq, and_true]
    omega
  rw [← hline "max_depth", ← hline "max_steps", Option.isSome_iff_exists]
  simp only [toToml?_eq_some_iff]
  constructor
  · rintro ⟨text, depth, steps, hdepth, hsteps, -⟩
    exact ⟨⟨depth, hdepth⟩, steps, hsteps⟩
  · rintro ⟨⟨depth, hdepth⟩, steps, hsteps⟩
    exact ⟨_, depth, steps, hdepth, hsteps, rfl⟩

/-- A configuration is written as TOML if its limits are numbers of TOML, and what is written gives the
configuration back, whatever the names of its policies are. A limit that is none is not written as
another number: nothing is written. -/
theorem toml_roundTrip (c : Config) :
    (c.engine.maxDepth.toNat ≤ 2 ^ 63 - 1 ∧ c.engine.maxSteps.toNat ≤ 2 ^ 63 - 1 →
      ∃ text, c.toToml? = some text ∧ ofToml? text = some c) ∧
    (2 ^ 63 - 1 < c.engine.maxDepth.toNat ∨ 2 ^ 63 - 1 < c.engine.maxSteps.toNat →
      c.toToml? = none) := by
  constructor
  · intro hlimits
    obtain ⟨text, htext⟩ := Option.isSome_iff_exists.1 (isSome_toToml?.2 hlimits)
    exact ⟨text, htext, ofToml?_toToml? htext⟩
  · intro hlarge
    rw [← Option.not_isSome_iff_eq_none, isSome_toToml?]
    omega

/-- Policies with names that are no bare keys, and a limit that is no number of TOML. -/
theorem toml_roundTrip_oddNames :
    (∃ text, Config.toToml? ⟨true, ⟨9223372036854775807, 0, false⟩, .ofList [("", .recover),
        ("a.b", .retry 0), ("it's \"quoted\"\n", .propagate), ("pâte\u0001", .retry 3)]⟩ = some text ∧
      ofToml? text = some ⟨true, ⟨9223372036854775807, 0, false⟩, .ofList [("", .recover),
        ("a.b", .retry 0), ("it's \"quoted\"\n", .propagate), ("pâte\u0001", .retry 3)]⟩) ∧
    Config.toToml? ⟨false, ⟨9223372036854775808, 1, true⟩, .empty⟩ = none :=
  ⟨(toml_roundTrip _).1 (by decide), (toml_roundTrip _).2 (by decide)⟩

end Config

end Brigade
