import Brigade.Proofs.Layers

/-! Faults in what configuration is loaded from. The sources are looked at in a fixed order, and each is
either sound or has a first fault, which is the error that loading gives; where all are sound loading gives
a configuration. Policies are checked last, so only those that are in force count. -/

namespace Brigade

/-! ### Files -/

/-- What is wrong with a file that does not give a document. -/
inductive ConfigFile.Faulty : Option ConfigFile → ConfigError → Prop
  | unreadable {path reason : String} :
    Faulty (some ⟨path, .unreadable reason⟩) (.unreadable path reason)
  | malformed {path text : String} (h : Config.ofToml? text = none) :
    Faulty (some ⟨path, .text text⟩) (.malformed path "not a configuration")

theorem ConfigFile.gives_or_faulty (file : Option ConfigFile) :
    (∃ document, Gives file document) ∨ ∃ e, Faulty file e := by
  match file with
  | none => exact .inl ⟨_, .leftOut⟩
  | some ⟨_, .absent⟩ => exact .inl ⟨_, .absent⟩
  | some ⟨_, .unreadable _⟩ => exact .inr ⟨_, .unreadable⟩
  | some ⟨_, .text text⟩ =>
    cases htext : Config.ofToml? text with
    | none => exact .inr ⟨_, .malformed htext⟩
    | some c =>
      obtain ⟨document, hparse, hread⟩ := Option.bind_eq_some_iff.1 htext
      exact .inl ⟨document, .written hparse hread⟩

/-! ### Variables -/

namespace ConfigKey

variable {α : Type}

def envName : ConfigKey α → String
  | .debug => "HFM_DEBUG"
  | .traceCommands => "HFM_TRACE_COMMANDS"
  | .maxDepth => "HFM_MAX_DEPTH"
  | .maxSteps => "HFM_MAX_STEPS"

def expected : ConfigKey α → String
  | .debug | .traceCommands => "expected bool"
  | .maxDepth | .maxSteps => "expected non-negative integer"

def ofText? : ConfigKey α → String → Option α
  | .debug | .traceCommands => Config.truth?
  | .maxDepth | .maxSteps => Config.limit?

/-- The keys in the order in which their variables are read. -/
def inOrder : List (Σ α : Type, ConfigKey α) :=
  [⟨Bool, .debug⟩, ⟨Bool, .traceCommands⟩, ⟨UInt64, .maxDepth⟩, ⟨UInt64, .maxSteps⟩]

/-- The variable of the key is not set, or has a value of the key. -/
def Readable (lookup : String → Option String) (key : ConfigKey α) : Prop :=
  ∀ s, lookup key.envName = some s → ∃ v, key.ofText? s = some v

def misset? (lookup : String → Option String) (key : ConfigKey α) : Option ConfigError :=
  (lookup key.envName).bind fun s =>
    if (key.ofText? s).isNone then some (.invalidVariable key.envName key.expected) else none

/-- The value of the variable of a key if it is set, or else the value that a configuration has. -/
def overridden (environment : Option (String → Option String)) (c : Config) (key : ConfigKey α) : α :=
  ((environment.bind fun lookup => lookup key.envName).bind key.ofText?).getD (key.get c)

variable {lookup : String → Option String} {key : ConfigKey α}

theorem misset?_eq_none_iff : key.misset? lookup = none ↔ key.Readable lookup := by
  simp [misset?, Readable, Option.bind_eq_none_iff, Option.ne_none_iff_exists']

theorem misset?_eq_some_iff {e : ConfigError} : key.misset? lookup = some e ↔
    ∃ s, lookup key.envName = some s ∧ key.ofText? s = none ∧
      e = .invalidVariable key.envName key.expected := by
  rw [misset?, Option.bind_eq_some_iff]
  refine exists_congr fun s => and_congr_right fun _ => ?_
  cases key.ofText? s <;> simp [eq_comm]

theorem fromVariable_eq (lookup : String → Option String) (key : ConfigKey α) (c : Config) :
    Config.fromVariable lookup key.envName key.expected key.ofText? (key.get c) =
      match key.misset? lookup with
      | none => .ok (key.overridden (some lookup) c)
      | some e => .error e := by
  rw [Config.fromVariable, misset?, overridden, Option.bind_some]
  cases lookup key.envName with
  | none => rfl
  | some s =>
    dsimp only [Option.bind_some]
    cases key.ofText? s <;> rfl

end ConfigKey

namespace Config

def withEnvironment (c : Config) (environment : Option (String → Option String)) : Config where
  debug := ConfigKey.debug.overridden environment c
  engine :=
    ⟨ConfigKey.maxDepth.overridden environment c, ConfigKey.maxSteps.overridden environment c,
      ConfigKey.traceCommands.overridden environment c⟩
  policies := c.policies

theorem get_withEnvironment {α : Type} (c : Config) (environment : Option (String → Option String))
    (key : ConfigKey α) : key.get (c.withEnvironment environment) = key.overridden environment c := by
  cases key <;> rfl

theorem addVariables_eq (c : Config) (lookup : String → Option String) : c.addVariables lookup =
    match ConfigKey.inOrder.findSome? fun key => key.2.misset? lookup with
    | none => .ok (c.withEnvironment (some lookup))
    | some e => .error e := by
  have hdebug := ConfigKey.debug.fromVariable_eq lookup c
  have htrace := ConfigKey.traceCommands.fromVariable_eq lookup c
  have hdepth := ConfigKey.maxDepth.fromVariable_eq lookup c
  have hsteps := ConfigKey.maxSteps.fromVariable_eq lookup c
  simp only [ConfigKey.envName, ConfigKey.expected, ConfigKey.ofText?, ConfigKey.get]
    at hdebug htrace hdepth hsteps
  simp only [addVariables, hdebug, htrace, hdepth, hsteps, ConfigKey.inOrder, List.findSome?]
  cases ConfigKey.debug.misset? lookup with
  | some e => rfl
  | none =>
    cases ConfigKey.traceCommands.misset? lookup with
    | some e => rfl
    | none =>
      cases ConfigKey.maxDepth.misset? lookup with
      | some e => rfl
      | none => cases ConfigKey.maxSteps.misset? lookup <;> rfl

/-! ### Policies -/

/-- What a policy has to be: it is for an algebra with a name, and it tries at least once. -/
structure Admits (algebra : String) (policy : FailurePolicy) : Prop where
  named : ∃ c ∈ algebra.toList, Text.isBlank c = false
  attempts : policy ≠ .retry 0

/-- What is wrong with a policy; a blank name is told rather than that nothing is tried. -/
inductive PolicyFault (algebra : String) : FailurePolicy → String → Prop
  | blank {policy : FailurePolicy} (h : ∀ c ∈ algebra.toList, Text.isBlank c = true) :
    PolicyFault algebra policy "algebra name is empty"
  | noAttempt (hnamed : ∃ c ∈ algebra.toList, Text.isBlank c = false) :
    PolicyFault algebra (.retry 0) "retry needs at least one attempt"

theorem isBlankText_eq_false_iff {s : String} :
    Text.isBlankText s = false ↔ ∃ c ∈ s.toList, Text.isBlank c = false := by
  rw [← Bool.not_eq_true, Text.isBlankText_iff]
  simp

theorem policyFault?_eq_none_iff {algebra : String} {policy : FailurePolicy} :
    policyFault? algebra policy = none ↔ Admits algebra policy := by
  unfold policyFault?
  split_ifs with hblank hretry
  · refine ⟨nofun, fun h => ?_⟩
    rw [isBlankText_eq_false_iff.2 h.named] at hblank
    cases hblank
  · exact ⟨nofun, fun h => absurd hretry h.attempts⟩
  · exact ⟨fun _ => ⟨isBlankText_eq_false_iff.1 (Bool.not_eq_true _ ▸ hblank), hretry⟩, fun _ => rfl⟩

theorem policyFault?_eq_some_iff {algebra reason : String} {policy : FailurePolicy} :
    policyFault? algebra policy = some reason ↔ PolicyFault algebra policy reason := by
  constructor
  · intro h
    unfold policyFault? at h
    split_ifs at h with hblank hretry
    · obtain rfl := Option.some.inj h
      exact .blank (Text.isBlankText_iff.1 hblank)
    · obtain rfl := Option.some.inj h
      rw [hretry]
      exact .noAttempt (isBlankText_eq_false_iff.1 (Bool.not_eq_true _ ▸ hblank))
  · intro h
    cases h with
    | blank hblank => rw [policyFault?, Text.isBlankText_iff.2 hblank, if_pos rfl]
    | noAttempt hnamed =>
      rw [policyFault?, isBlankText_eq_false_iff.2 hnamed, if_neg Bool.false_ne_true, if_pos rfl]

theorem fault?_eq_some_iff {c : Config} {algebra reason : String} :
    c.fault? = some (algebra, reason) ↔ ∃ policy, c.policies.get? algebra = some policy ∧
      PolicyFault algebra policy reason ∧
        ∀ name < algebra, ∀ other, c.policies.get? name = some other → Admits name other := by
  have hfault (e : String × FailurePolicy) :
      (policyFault? e.1 e.2).map (fun fault => (e.1, fault)) = some (algebra, reason) ↔
        e.1 = algebra ∧ PolicyFault algebra e.2 reason := by
    rw [Option.map_eq_some_iff, ← policyFault?_eq_some_iff]
    constructor
    · rintro ⟨fault, hfault, ⟨⟩⟩
      exact ⟨rfl, hfault⟩
    · rintro ⟨rfl, hfault⟩
      exact ⟨reason, hfault, rfl⟩
  simp only [fault?, Table.findSome?_eq_some_iff, hfault, Option.map_eq_none_iff, policyFault?_eq_none_iff,
    Table.get?_eq_some_iff]
  constructor
  · rintro ⟨⟨name, policy⟩, hmem, ⟨rfl, hfault⟩, hfirst⟩
    exact ⟨policy, hmem, hfault, fun name' hlt other hother => hfirst (name', other) hother hlt⟩
  · rintro ⟨policy, hmem, hfault, hfirst⟩
    exact ⟨(algebra, policy), hmem, ⟨rfl, hfault⟩, fun e he hlt => hfirst e.1 hlt e.2 he⟩

/-! ### Sources -/

/-- The policy in force for an algebra if a policy of the project replaces the global one. -/
def policyInForce? (global project : Json) (algebra : String) : Option FailurePolicy :=
  (givenPolicy? project algebra).or (givenPolicy? global algebra)

/-- Sources without a fault: files with these documents, variables with values of their keys, and no
policy in force that may not be. -/
structure Sound (sources : ConfigSources) (g p : Json) : Prop where
  global : ConfigFile.Gives sources.global g
  project : ConfigFile.Gives sources.project p
  environment : ∀ lookup ∈ sources.environment, ∀ key ∈ ConfigKey.inOrder, key.2.Readable lookup
  policies : ∀ algebra policy, policyInForce? g p algebra = some policy → Admits algebra policy

/-- The first fault of sources: what was looked at before has none. -/
inductive FirstFault (sources : ConfigSources) : ConfigError → Prop
  | global {e : ConfigError} (h : ConfigFile.Faulty sources.global e) : FirstFault sources e
  | project {g : Json} {e : ConfigError} (hglobal : ConfigFile.Gives sources.global g)
    (h : ConfigFile.Faulty sources.project e) : FirstFault sources e
  | environment {g p : Json} {lookup : String → Option String} {α : Type} {key : ConfigKey α}
    {before after : List (Σ α : Type, ConfigKey α)} {s : String}
    (hglobal : ConfigFile.Gives sources.global g) (hproject : ConfigFile.Gives sources.project p)
    (henvironment : sources.environment = some lookup)
    (horder : ConfigKey.inOrder = before ++ ⟨α, key⟩ :: after)
    (hbefore : ∀ key' ∈ before, key'.2.Readable lookup)
    (hset : lookup key.envName = some s) (h : key.ofText? s = none) :
    FirstFault sources (.invalidVariable key.envName key.expected)
  | policy {g p : Json} {algebra reason : String} {policy : FailurePolicy}
    (hglobal : ConfigFile.Gives sources.global g) (hproject : ConfigFile.Gives sources.project p)
    (hvariables : ∀ lookup ∈ sources.environment, ∀ key ∈ ConfigKey.inOrder, key.2.Readable lookup)
    (hbefore : ∀ name < algebra, ∀ other, policyInForce? g p name = some other → Admits name other)
    (hforce : policyInForce? g p algebra = some policy) (h : PolicyFault algebra policy reason) :
    FirstFault sources (.invalidPolicy algebra reason)

variable {global project : Option ConfigFile} {g p : Json} {sources : ConfigSources} {e : ConfigError}

theorem addFile_of_faulty {file : Option ConfigFile} (h : ConfigFile.Faulty file e) (c : Config) :
    c.addFile file = .error e := by
  cases h with
  | unreadable => rfl
  | malformed htext => simp only [addFile, htext]

def missetVariable? (environment : Option (String → Option String)) : Option ConfigError :=
  environment.bind fun lookup => ConfigKey.inOrder.findSome? fun key => key.2.misset? lookup

theorem missetVariable?_eq_none_iff {environment : Option (String → Option String)} :
    missetVariable? environment = none ↔
      ∀ lookup ∈ environment, ∀ key ∈ ConfigKey.inOrder, key.2.Readable lookup := by
  simp only [missetVariable?, Option.bind_eq_none_iff, List.findSome?_eq_none_iff,
    ConfigKey.misset?_eq_none_iff, Option.mem_def]

theorem load_of_gives (hglobal : ConfigFile.Gives global g) (hproject : ConfigFile.Gives project p) :
    ∃ c : Config, (∀ algebra, c.policies.get? algebra = policyInForce? g p algebra) ∧
      ∀ environment, load ⟨global, project, environment⟩ =
        match missetVariable? environment with
        | none => (c.withEnvironment environment).validate
        | some e => .error e := by
  obtain ⟨earlier, hearlier, haddGlobal⟩ := addFile_of_gives hglobal
  obtain ⟨later, hlater, haddProject⟩ := addFile_of_gives hproject
  refine ⟨(default.merge earlier).merge later, fun algebra => ?_, fun environment => ?_⟩
  · rw [policyInForce?, ← policies_of_read? hlater, ← policies_of_read? hearlier]
    simp only [merge, Table.get?_merge]
    exact congrArg _ Option.or_none
  · rw [load, haddGlobal]
    dsimp only [bind, Except.bind]
    rw [haddProject]
    cases environment with
    | none => rfl
    | some lookup =>
      dsimp only
      rw [addVariables_eq, missetVariable?, Option.bind_some]
      cases ConfigKey.inOrder.findSome? fun key => key.2.misset? lookup <;> rfl

theorem validate_eq_error_iff {c : Config} : c.validate = .error e ↔
    ∃ algebra reason, c.fault? = some (algebra, reason) ∧ e = .invalidPolicy algebra reason := by
  rw [validate]
  split
  · next h => simp [h]
  · next algebra reason h => simp [h, eq_comm]

theorem load_of_firstFault (h : FirstFault sources e) : load sources = .error e := by
  obtain ⟨global, project, environment⟩ := sources
  cases h with
  | global h =>
    rw [load, addFile_of_faulty h]
    rfl
  | project hglobal h =>
    obtain ⟨earlier, -, haddGlobal⟩ := addFile_of_gives hglobal
    rw [load, haddGlobal]
    dsimp only [bind, Except.bind]
    rw [addFile_of_faulty h]
  | @environment g p lookup α key before after s hglobal hproject henvironment horder hbefore hset h =>
    obtain ⟨c, -, hload⟩ := load_of_gives hglobal hproject
    have hmisset : missetVariable? environment = some (.invalidVariable key.envName key.expected) := by
      obtain rfl : environment = some lookup := henvironment
      refine List.findSome?_eq_some_iff.2 ⟨before, ⟨α, key⟩, after, horder, ?_, fun key' hkey' => ?_⟩
      · exact ConfigKey.misset?_eq_some_iff.2 ⟨s, hset, h, rfl⟩
      · exact ConfigKey.misset?_eq_none_iff.2 (hbefore key' hkey')
    rw [hload, hmisset]
  | @policy g p algebra reason policy hglobal hproject hvariables hbefore hforce h =>
    obtain ⟨c, hpolicies, hload⟩ := load_of_gives hglobal hproject
    rw [hload, missetVariable?_eq_none_iff.2 hvariables]
    refine validate_eq_error_iff.2 ⟨algebra, reason, fault?_eq_some_iff.2 ⟨policy, ?_, h, ?_⟩, rfl⟩
    · exact (hpolicies algebra).trans hforce
    · exact fun name hlt other hother => hbefore name hlt other ((hpolicies name).symm.trans hother)

theorem load_of_sound (h : Sound sources g p) : ∃ c : Config,
    (∀ algebra, c.policies.get? algebra = policyInForce? g p algebra) ∧
    load { sources with environment := none } = .ok c ∧
    load sources = .ok (c.withEnvironment sources.environment) := by
  obtain ⟨c, hpolicies, hload⟩ := load_of_gives h.global h.project
  have hvalid (environment : Option (String → Option String)) :
      (c.withEnvironment environment).validate = .ok (c.withEnvironment environment) := by
    refine (validate_eq_ok_iff _).2 fun name policy hget => policyFault?_eq_none_iff.2 ?_
    exact h.policies name policy ((hpolicies name).symm.trans hget)
  refine ⟨c, hpolicies, ?_, ?_⟩
  · rw [hload]
    exact hvalid none
  · rw [hload, missetVariable?_eq_none_iff.2 h.environment]
    exact hvalid sources.environment

theorem sound_or_firstFault (sources : ConfigSources) :
    (∃ g p, Sound sources g p) ∨ ∃ e, FirstFault sources e := by
  -- source by source, in the order in which loading looks at them
  rcases ConfigFile.gives_or_faulty sources.global with ⟨g, hglobal⟩ | ⟨e, h⟩
  · rcases ConfigFile.gives_or_faulty sources.project with ⟨p, hproject⟩ | ⟨e, h⟩
    · obtain ⟨c, hpolicies, -⟩ := load_of_gives hglobal hproject
      cases hmisset : missetVariable? sources.environment with
      | some e =>
        obtain ⟨lookup, henvironment, hfirst⟩ := Option.bind_eq_some_iff.1 hmisset
        obtain ⟨before, ⟨α, key⟩, after, horder, hkey, hbefore⟩ := List.findSome?_eq_some_iff.1 hfirst
        obtain ⟨s, hset, htext, -⟩ := ConfigKey.misset?_eq_some_iff.1 hkey
        exact .inr ⟨_, .environment hglobal hproject henvironment horder
          (fun key' hkey' => ConfigKey.misset?_eq_none_iff.1 (hbefore key' hkey')) hset htext⟩
      | none =>
        have hvariables := missetVariable?_eq_none_iff.1 hmisset
        cases hfault : c.fault? with
        | some fault =>
          obtain ⟨policy, hget, h, hbefore⟩ := fault?_eq_some_iff.1 hfault
          exact .inr ⟨_, .policy hglobal hproject hvariables
            (fun name hlt other hother => hbefore name hlt other ((hpolicies name).trans hother))
            ((hpolicies fault.1).symm.trans hget) h⟩
        | none =>
          have hvalid : c.validate = .ok c := by rw [validate, hfault]
          refine .inl ⟨g, p, hglobal, hproject, hvariables, fun algebra policy hforce => ?_⟩
          exact policyFault?_eq_none_iff.1
            ((validate_eq_ok_iff c).1 hvalid algebra policy ((hpolicies algebra).trans hforce))
    · exact .inr ⟨e, .project hglobal h⟩
  · exact .inr ⟨e, .global h⟩

/-- Loading succeeds exactly if the sources are sound, and otherwise gives their first fault. What is
loaded has the policies in force, the values of the variables that are set, and everything else as it is
without the environment. -/
theorem load_sound_or_firstFault (sources : ConfigSources) :
    ((∃ c, load sources = .ok c) ↔ ∃ g p, Sound sources g p) ∧
    (∀ g p c, Sound sources g p → load sources = .ok c →
      (∀ algebra, c.policies.get? algebra = policyInForce? g p algebra) ∧
      ∃ files, load { sources with environment := none } = .ok files ∧ c.policies = files.policies ∧
        ∀ {α : Type} (key : ConfigKey α), key.get c = key.overridden sources.environment files) ∧
    ∀ e, load sources = .error e ↔ FirstFault sources e := by
  have hsound (g p : Json) (h : Sound sources g p) : ∃ c, load sources = .ok c := by
    obtain ⟨c, -, -, hload⟩ := load_of_sound h
    exact ⟨_, hload⟩
  refine ⟨⟨?_, ?_⟩, fun g p c h hc => ?_, fun e => ⟨fun he => ?_, load_of_firstFault⟩⟩
  · rintro ⟨c, hc⟩
    rcases sound_or_firstFault sources with h | ⟨e, h⟩
    · exact h
    · cases hc.symm.trans (load_of_firstFault h)
  · rintro ⟨g, p, h⟩
    exact hsound g p h
  · obtain ⟨files, hpolicies, hfiles, hload⟩ := load_of_sound h
    obtain rfl := Except.ok.inj (hc.symm.trans hload)
    exact ⟨hpolicies, files, hfiles, rfl, get_withEnvironment files sources.environment⟩
  · rcases sound_or_firstFault sources with ⟨g, p, h⟩ | ⟨e', h⟩
    · obtain ⟨c, hc⟩ := hsound g p h
      cases hc.symm.trans he
    · obtain rfl := Except.error.inj ((load_of_firstFault h).symm.trans he)
      exact h

def ovenDocument (policy : FailurePolicy) : Json :=
  .obj [("policies", .obj [("oven", policy.toJson)])]

def ovenTable (policy : FailurePolicy) : PolicyTable :=
  ⟨[("oven", policy)], List.pairwise_singleton _ ("oven", policy)⟩

theorem parse_oven (policy : FailurePolicy) :
    Toml.parse? ("[policies.oven]\n" ++ policyLines policy) = some (ovenDocument policy) := by
  have hheader : Toml.Line "[policies.oven]".toList (.table ["policies"] "oven") :=
    .header "policies" (by decide : ["oven"].length < Toml.maxDepth)
  have hlines : Toml.Lines ("[policies.oven]\n" ++ policyLines policy).toList
      (Toml.tableOf ["policies"] "oven" policy.fields) := by
    rw [String.toList_append]
    exact .line hheader (lines_policyLines policy)
  rw [Toml.parse?_of_lines hlines (by simp)]
  cases policy <;> rfl

theorem read_idle : read? .ignored (ovenDocument (.retry 0)) =
    some ⟨false, .default, ovenTable (.retry 0)⟩ :=
  rfl

theorem read_recovering :
    read? .ignored (ovenDocument .recover) = some ⟨false, .default, ovenTable .recover⟩ :=
  rfl

def idleFile : ConfigFile := ⟨"home.toml", .text "[policies.oven]\nkind = \"retry\"\nattempts = 0\n"⟩

def recoveringFile : ConfigFile := ⟨"hfm.toml", .text "[policies.oven]\nkind = \"recover\"\n"⟩

/-- The policy that never tries is the fault of the global file alone, and none beside the project. -/
theorem load_sound_or_firstFault_replaced :
    load ⟨some idleFile, none, none⟩ =
      .error (.invalidPolicy "oven" "retry needs at least one attempt") ∧
    ∃ c, load ⟨some idleFile, some recoveringFile, none⟩ = .ok c := by
  have hidle : ConfigFile.Gives (some idleFile) (ovenDocument (.retry 0)) :=
    .written (parse_oven (.retry 0)) read_idle
  have hglobal (name : String) : givenPolicy? (ovenDocument (.retry 0)) name =
      (ovenTable (.retry 0)).get? name := (policies_of_read? read_idle name).symm
  have hproject (name : String) : givenPolicy? (ovenDocument .recover) name =
      (ovenTable .recover).get? name := (policies_of_read? read_recovering name).symm
  have hnamed : ∃ c ∈ "oven".toList, Text.isBlank c = false := ⟨'o', by decide⟩
  constructor
  · refine ((load_sound_or_firstFault _).2.2 _).2
      (.policy hidle .leftOut nofun (fun name hlt other hother => ?_) rfl (.noAttempt hnamed))
    have hget : (ovenTable (.retry 0)).get? name = some other := (hglobal name).symm.trans hother
    obtain ⟨rfl, -⟩ : name = "oven" ∧ other = .retry 0 := by
      simpa [Table.get?_eq_some_iff, ovenTable] using hget
    exact absurd hlt (String.lt_irrefl "oven")
  · refine (load_sound_or_firstFault _).1.2 ⟨_, _, hidle,
      .written (parse_oven .recover) read_recovering, nofun, fun algebra policy hforce => ?_⟩
    rw [policyInForce?, hglobal, hproject, Option.or_eq_some_iff] at hforce
    simp only [Table.get?_eq_some_iff, ovenTable, List.mem_singleton, Prod.mk.injEq] at hforce
    rcases hforce with ⟨rfl, rfl⟩ | ⟨hnone, rfl, rfl⟩
    · exact ⟨hnamed, nofun⟩
    · cases hnone

end Config

end Brigade
