import Brigade.Config.Load
import Brigade.Proofs.Documents
import Mathlib.Data.List.Induction

/-! Configuration files as layers. What the document of a file gives for a key is put beside what loading
makes of two files: the value of the project counts before that of the global file, but a value that is
the default leaves what was there before. A policy replaces the one under the same name, whatever it is. -/

namespace Brigade

namespace Json

/-- A field of a record: under its name in an object, at its position in an array. -/
def member? (position : Nat) (name : String) : Json → Option Json
  | .obj fields => fields.lookup name
  | .arr items => items[position]?
  | _ => none

theorem fields?_eq_some {surplus : Surplus} {names : List String} {j : Json}
    {fields : List (Option Json)} (h : j.fields? surplus names = some fields) :
    fields = names.mapIdx fun position name => j.member? position name := by
  cases j with
  | obj entries =>
    cases h
    exact List.ext_getElem? fun i => by simp [member?]
  | arr items =>
    simp only [fields?] at h
    split at h
    · cases h
    · cases h
      refine List.ext_getElem? fun i => ?_
      simp only [List.getElem?_append, List.getElem?_map, List.getElem?_mapIdx, List.length_map,
        List.length_take, List.getElem?_replicate, member?]
      grind
  | _ => cases h

theorem orDefault?_eq_some {α : Type} {read : Json → Option α} {default v : α} {field : Option Json}
    (h : orDefault? read default field = some v) : v = (field.bind read).getD default := by
  cases field with
  | none => exact (Option.some.inj h).symm
  | some j => simp [show read j = some v from h]

end Json

/-- The keys of a configuration that have one value, by the type of the value. -/
inductive ConfigKey : Type → Type
  | debug : ConfigKey Bool
  | maxDepth : ConfigKey UInt64
  | maxSteps : ConfigKey UInt64
  | traceCommands : ConfigKey Bool

namespace ConfigKey

variable {α : Type}

def get (c : Config) : ConfigKey α → α
  | .debug => c.debug
  | .maxDepth => c.engine.maxDepth
  | .maxSteps => c.engine.maxSteps
  | .traceCommands => c.engine.traceCommands

def default (key : ConfigKey α) : α := key.get Config.default

/-- The value that a document gives for a key, if it gives one. -/
def given? (document : Json) : ConfigKey α → Option α
  | .debug => (document.member? 0 "debug").bind Json.asBool?
  | .maxDepth => (document.member? 1 "engine").bind fun engine =>
    (engine.member? 0 "max_depth").bind Json.word64?
  | .maxSteps => (document.member? 1 "engine").bind fun engine =>
    (engine.member? 1 "max_steps").bind Json.word64?
  | .traceCommands => (document.member? 1 "engine").bind fun engine =>
    (engine.member? 2 "trace_commands").bind Json.asBool?

/-- The value in force if each layer overrides the one before: that of the project, or else the global
one, or else the default. -/
def layered (global project : Json) (key : ConfigKey α) : α :=
  ((key.given? project).or (key.given? global)).getD key.default

/-- The project gives the default for a key that has another value in the global file. -/
def Shadowed (global project : Json) (key : ConfigKey α) : Prop :=
  key.given? project = some key.default ∧ ∃ v, key.given? global = some v ∧ v ≠ key.default

end ConfigKey

/-- The policy that a document gives for an algebra; of two under one name the later counts. -/
def Config.givenPolicy? (document : Json) (name : String) : Option FailurePolicy :=
  ((document.member? 2 "policies").bind Json.asFields?).bind fun fields =>
    (fields.reverse.lookup name).bind FailurePolicy.ofJson?

/-- A file that is well formed, with its document. Where no file is, the document is empty. -/
inductive ConfigFile.Gives : Option ConfigFile → Json → Prop
  | leftOut : Gives none (.obj [])
  | absent {path : String} : Gives (some ⟨path, .absent⟩) (.obj [])
  | written {path text : String} {document : Json} {c : Config}
    (hparse : Toml.parse? text = some document) (hread : Config.read? .ignored document = some c) :
    Gives (some ⟨path, .text text⟩) document

namespace EngineSettings

theorem read?_eq_some {surplus : Json.Surplus} {j : Json} {s : EngineSettings}
    (h : read? surplus j = some s) :
    s.maxDepth = ((j.member? 0 "max_depth").bind Json.word64?).getD default.maxDepth ∧
      s.maxSteps = ((j.member? 1 "max_steps").bind Json.word64?).getD default.maxSteps ∧
      s.traceCommands = ((j.member? 2 "trace_commands").bind Json.asBool?).getD
        default.traceCommands := by
  simp only [read?, Option.bind_eq_bind, Option.bind_eq_some_iff] at h
  obtain ⟨fields, hfields, h⟩ := h
  obtain rfl := Json.fields?_eq_some hfields
  obtain ⟨depth, hdepth, steps, hsteps, trace, htrace, ⟨⟩⟩ := by
    simpa only [List.mapIdx_cons, List.mapIdx_nil, Option.bind_eq_some_iff] using h
  exact ⟨Json.orDefault?_eq_some hdepth, Json.orDefault?_eq_some hsteps,
    Json.orDefault?_eq_some htrace⟩

end EngineSettings

namespace Config

variable {α : Type}

theorem read?_eq_some {surplus : Json.Surplus} {j : Json} {c : Config} (h : read? surplus j = some c) :
    c.debug = ((j.member? 0 "debug").bind Json.asBool?).getD default.debug ∧
      Json.orDefault? (EngineSettings.read? surplus) default.engine (j.member? 1 "engine") =
        some c.engine ∧
      Json.orDefault? policiesOfJson? default.policies (j.member? 2 "policies") = some c.policies := by
  simp only [read?, Option.bind_eq_bind, Option.bind_eq_some_iff] at h
  obtain ⟨fields, hfields, h⟩ := h
  obtain rfl := Json.fields?_eq_some hfields
  obtain ⟨debug, hdebug, engine, hengine, policies, hpolicies, ⟨⟩⟩ := by
    simpa only [List.mapIdx_cons, List.mapIdx_nil, Option.bind_eq_some_iff] using h
  exact ⟨Json.orDefault?_eq_some hdebug, hengine, hpolicies⟩

theorem get_of_read? {surplus : Json.Surplus} {j : Json} {c : Config} (h : read? surplus j = some c)
    (key : ConfigKey α) : key.get c = (key.given? j).getD key.default := by
  obtain ⟨hdebug, hengine, -⟩ := read?_eq_some h
  cases hmember : j.member? 1 "engine" with
  | none =>
    rw [hmember] at hengine
    have hdefault : c.engine = default.engine := (Option.some.inj hengine).symm
    cases key with
    | debug => exact hdebug
    | _ =>
      simp only [ConfigKey.get, ConfigKey.given?, hmember, hdefault]
      rfl
  | some engine =>
    rw [hmember] at hengine
    obtain ⟨hdepth, hsteps, htrace⟩ := EngineSettings.read?_eq_some hengine
    cases key with
    | debug => exact hdebug
    | maxDepth =>
      simp only [ConfigKey.given?, hmember, Option.bind_some]
      exact hdepth
    | maxSteps =>
      simp only [ConfigKey.given?, hmember, Option.bind_some]
      exact hsteps
    | traceCommands =>
      simp only [ConfigKey.given?, hmember, Option.bind_some]
      exact htrace

/-- What is read entry by entry keeps the names, so the last entry under a name is that of the last. -/
theorem lookup_of_mapM {β : Type} {read : Json → Option β} {fields : List (String × Json)}
    {entries : List (String × β)}
    (h : (fields.mapM fun f => do return (f.1, ← read f.2)) = some entries) (name : String) :
    entries.reverse.lookup name = (fields.reverse.lookup name).bind read := by
  induction fields using List.reverseRecOn generalizing entries with
  | nil =>
    cases h
    rfl
  | append_singleton fields field ih =>
    obtain ⟨key, j⟩ := field
    simp only [List.mapM_append, List.mapM_cons, List.mapM_nil, Option.bind_eq_bind,
      Option.pure_def, Option.bind_eq_some_iff] at h
    obtain ⟨before, hbefore, last, ⟨entry, ⟨v, hv, ⟨⟩⟩, after, ⟨⟩, ⟨⟩⟩, ⟨⟩⟩ := h
    rw [List.reverse_concat, List.reverse_concat, List.lookup_cons, List.lookup_cons]
    split
    · exact hv.symm
    · exact ih hbefore

theorem policies_of_read? {surplus : Json.Surplus} {j : Json} {c : Config}
    (h : read? surplus j = some c) (name : String) : c.policies.get? name = givenPolicy? j name := by
  obtain ⟨-, -, hpolicies⟩ := read?_eq_some h
  cases hmember : j.member? 2 "policies" with
  | none =>
    rw [hmember] at hpolicies
    rw [← Option.some.inj hpolicies, givenPolicy?, hmember]
    rfl
  | some table =>
    rw [hmember] at hpolicies
    simp only [Json.orDefault?, policiesOfJson?, Option.bind_eq_bind, Option.bind_eq_some_iff] at hpolicies
    obtain ⟨fields, hfields, entries, hentries, htable⟩ := hpolicies
    rw [← Option.some.inj htable, Table.get?_ofList, lookup_of_mapM hentries, givenPolicy?, hmember,
      Option.bind_some, hfields, Option.bind_some]

theorem get_override (earlier later : Config) (key : ConfigKey α) :
    (key.get later = key.default → key.get (earlier.merge later) = key.get earlier) ∧
      (key.get later ≠ key.default → key.get (earlier.merge later) = key.get later) := by
  cases key <;> exact ⟨fun h => if_pos h, fun h => if_neg h⟩

theorem addFile_written {path text : String} {document : Json} {later : Config}
    (hparse : Toml.parse? text = some document) (hread : read? .ignored document = some later)
    (c : Config) : c.addFile (some ⟨path, .text text⟩) = .ok (c.merge later) := by
  have hofToml : ofToml? text = some later := by rw [ofToml?, hparse, Option.bind_some, hread]
  simp only [addFile, hofToml]

theorem addFile_of_gives {file : Option ConfigFile} {document : Json}
    (h : ConfigFile.Gives file document) : ∃ later, read? .ignored document = some later ∧
      ∀ c : Config, c.addFile file = .ok (c.merge later) := by
  cases h with
  | leftOut => exact ⟨default, rfl, fun _ => rfl⟩
  | absent => exact ⟨default, rfl, fun _ => rfl⟩
  | written hparse hread => exact ⟨_, hread, addFile_written hparse hread⟩

def variableNames : List String := ["HFM_DEBUG", "HFM_TRACE_COMMANDS", "HFM_MAX_DEPTH", "HFM_MAX_STEPS"]

theorem addVariables_of_unset {lookup : String → Option String}
    (h : ∀ name ∈ variableNames, lookup name = none) (c : Config) : c.addVariables lookup = .ok c := by
  have hdebug := h "HFM_DEBUG" (by decide)
  have htrace := h "HFM_TRACE_COMMANDS" (by decide)
  have hdepth := h "HFM_MAX_DEPTH" (by decide)
  have hsteps := h "HFM_MAX_STEPS" (by decide)
  simp only [addVariables, fromVariable, hdebug, htrace, hdepth, hsteps]
  rfl

theorem validate_eq_ok_iff (c : Config) : c.validate = .ok c ↔
    ∀ name policy, c.policies.get? name = some policy → policyFault? name policy = none := by
  have hfault : c.fault? = none ↔ ∀ e ∈ c.policies.entries, policyFault? e.1 e.2 = none := by
    simp only [fault?, List.findSome?_eq_none_iff, Option.map_eq_none_iff]
  have hvalid : c.validate = .ok c ↔ c.fault? = none := by
    rw [validate]
    split
    · next hnone => exact ⟨fun _ => hnone, fun _ => rfl⟩
    · next hsome => exact ⟨nofun, fun hnone => absurd (hsome.symm.trans hnone) nofun⟩
  rw [hvalid, hfault]
  constructor
  · intro h name policy hget
    obtain ⟨before, after, hentries, -⟩ := List.lookup_eq_some_iff.1 hget
    exact h (name, policy) (by rw [hentries]; simp)
  · exact fun h e he => h e.1 e.2 (Table.get?_of_mem he)

theorem get_default_merge (later : Config) (key : ConfigKey α) :
    key.get (default.merge later) = key.get later := by
  obtain ⟨hdefault, hother⟩ := get_override default later key
  by_cases h : key.get later = key.default
  · rw [hdefault h, h, ConfigKey.default]
  · exact hother h

/-- What merging makes of a key that two documents may give: a value of the later that is the default
counts as none. -/
theorem get_merge_of_given {global project : Json} {earlier later : Config} {key : ConfigKey α}
    (hget : key.get earlier = (key.given? global).getD key.default)
    (hget' : key.get later = (key.given? project).getD key.default) :
    (¬ key.Shadowed global project → key.get (earlier.merge later) = key.layered global project) ∧
      (key.Shadowed global project → key.get (earlier.merge later) ≠ key.layered global project ∧
        key.given? global = some (key.get (earlier.merge later))) := by
  obtain ⟨hdefault, hother⟩ := get_override earlier later key
  constructor
  · intro hnot
    cases hproject : key.given? project with
    | none =>
      rw [hproject] at hget'
      rw [hdefault hget', hget, ConfigKey.layered, hproject, Option.none_or]
    | some w =>
      rw [hproject, Option.getD_some] at hget'
      have hlayered : key.layered global project = w := by rw [ConfigKey.layered, hproject]; rfl
      -- a value that is the default is lost, which does no harm where nothing else is given
      by_cases hw : w = key.default
      · rw [hdefault (hget'.trans hw), hget, hlayered, hw]
        cases hglobal : key.given? global with
        | none => rfl
        | some v =>
          by_contra hv
          exact hnot ⟨hproject.trans (congrArg some hw), v, hglobal, hv⟩
      · rw [hother (fun h => hw (hget'.symm.trans h)), hget', hlayered]
  · rintro ⟨hproject, v, hglobal, hv⟩
    rw [hproject, Option.getD_some] at hget'
    rw [hglobal, Option.getD_some] at hget
    have hlayered : key.layered global project = key.default := by
      rw [ConfigKey.layered, hproject]
      rfl
    rw [hdefault hget', hget, hlayered]
    exact ⟨hv, hglobal⟩

/-- Loading two well-formed files with no variable set. It succeeds exactly if no policy in force has a
fault, and in what is loaded the value of a key is that of the last layer that gives it, except that a
project that gives the default leaves another value of the global file in force. A policy of the project
replaces the global one under its name in any case. -/
theorem load_layers {global project : Option ConfigFile} {g p : Json}
    {environment : Option (String → Option String)} (hglobal : ConfigFile.Gives global g)
    (hproject : ConfigFile.Gives project p)
    (hunset : ∀ lookup ∈ environment, ∀ name ∈ variableNames, lookup name = none) :
    ∃ c : Config, load ⟨global, project, environment⟩ = c.validate ∧
      (load ⟨global, project, environment⟩ = .ok c ↔ ∀ name policy,
        (givenPolicy? p name).or (givenPolicy? g name) = some policy →
          policyFault? name policy = none) ∧
      (∀ {α : Type} (key : ConfigKey α),
        (key.get c = key.layered g p ↔ ¬ key.Shadowed g p) ∧
        (key.Shadowed g p → key.given? g = some (key.get c))) ∧
      ∀ name, c.policies.get? name = (givenPolicy? p name).or (givenPolicy? g name) := by
  obtain ⟨earlier, hearlier, haddGlobal⟩ := addFile_of_gives hglobal
  obtain ⟨later, hlater, haddProject⟩ := addFile_of_gives hproject
  let c := (default.merge earlier).merge later
  have hload : load ⟨global, project, environment⟩ = c.validate := by
    rw [load, haddGlobal]
    dsimp only [bind, Except.bind]
    rw [haddProject]
    cases environment with
    | none => rfl
    | some lookup =>
      dsimp only
      rw [addVariables_of_unset (hunset lookup rfl)]
  have hpolicies (name : String) :
      c.policies.get? name = (givenPolicy? p name).or (givenPolicy? g name) := by
    rw [← policies_of_read? hlater, ← policies_of_read? hearlier]
    simp only [c, merge, Table.get?_merge]
    exact congrArg _ Option.or_none
  refine ⟨c, hload, ?_, fun key => ?_, hpolicies⟩
  · rw [hload, validate_eq_ok_iff]
    simp only [hpolicies]
  · have hearlier' := (get_default_merge earlier key).trans (get_of_read? hearlier key)
    obtain ⟨hkept, hshadowed⟩ := get_merge_of_given hearlier' (get_of_read? hlater key)
    exact ⟨⟨fun h hs => (hshadowed hs).1 h, hkept⟩, fun hs => (hshadowed hs).2⟩

def layerDocument (debug : Bool) (maxDepth : Int) : Json :=
  .obj [("debug", .bool debug), ("engine", .obj [("max_depth", .int maxDepth)])]

theorem parse_layer {text : String} {debug : Bool} {depth : Nat} (hdepth : depth < 2 ^ 63)
    (htext : text.toList = "debug = ".toList ++ (toString debug).toList ++ '\n' :: '\n' ::
      ("[engine]".toList ++ '\n' :: ("max_depth = ".toList ++ Nat.toDigits 10 depth ++ ['\n']))) :
    Toml.parse? text = some (layerDocument debug depth) := by
  have hdebug : Toml.Line ("debug = ".toList ++ (toString debug).toList)
      (.pair [] "debug" (.bool debug)) :=
    .pair "debug" (.bool debug)
  have hengine : Toml.Line "[engine]".toList (.table [] "engine") :=
    .header "engine" (by decide : [].length < Toml.maxDepth)
  have hlimit : Toml.Line ("max_depth = ".toList ++ Nat.toDigits 10 depth)
      (.pair [] "max_depth" (.int depth)) :=
    .pair "max_depth" (.number hdepth)
  have hlines : Toml.Lines text.toList
      [.pair [] "debug" (.bool debug), .table [] "engine", .pair [] "max_depth" (.int depth)] := by
    rw [htext]
    exact .line hdebug (.blank (.line hengine (.line hlimit .done)))
  rw [Toml.parse?_of_lines hlines (by simp [htext])]
  rfl

def shallowFile : ConfigFile := ⟨"home.toml", .text "debug = true\n\n[engine]\nmax_depth = 3\n"⟩

theorem parse_shallow : Toml.parse? "debug = true\n\n[engine]\nmax_depth = 3\n" =
    some (layerDocument true 3) :=
  parse_layer (by decide) (by decide)

def standardFile : ConfigFile := ⟨"hfm.toml", .text "debug = false\n\n[engine]\nmax_depth = 16\n"⟩

theorem parse_standard : Toml.parse? "debug = false\n\n[engine]\nmax_depth = 16\n" =
    some (layerDocument false 16) :=
  parse_layer (by decide) (by decide)

theorem read_shallow :
    read? .ignored (layerDocument true 3) = some ⟨true, ⟨3, 0, true⟩, .empty⟩ :=
  rfl

theorem read_standard : read? .ignored (layerDocument false 16) = some default :=
  rfl

theorem shallow_gives : ConfigFile.Gives (some shallowFile) (layerDocument true 3) :=
  .written parse_shallow read_shallow

theorem standard_gives : ConfigFile.Gives (some standardFile) (layerDocument false 16) :=
  .written parse_standard read_standard

/-- The project's values are not those that are loaded. -/
theorem load_standard_over_shallow :
    ConfigFile.Gives (some shallowFile) (layerDocument true 3) ∧
      ConfigFile.Gives (some standardFile) (layerDocument false 16) ∧
      load ⟨some shallowFile, some standardFile, some fun _ => none⟩ = .ok ⟨true, ⟨3, 0, true⟩, .empty⟩ ∧
      ConfigKey.debug.layered (layerDocument true 3) (layerDocument false 16) = false ∧
      ConfigKey.maxDepth.layered (layerDocument true 3) (layerDocument false 16) = 16 := by
  have hload : load ⟨some shallowFile, some standardFile, some fun _ => none⟩ =
      .ok ⟨true, ⟨3, 0, true⟩, .empty⟩ := by
    simp only [load, shallowFile, standardFile, addFile_written parse_shallow read_shallow]
    dsimp only [bind, Except.bind]
    rw [addFile_written parse_standard read_standard]
    rfl
  exact ⟨shallow_gives, standard_gives, hload, rfl, rfl⟩

/-- In the other order the project's values are loaded. -/
theorem load_layers_shallow_over_standard : ∃ c,
    load ⟨some standardFile, some shallowFile, some fun _ => none⟩ = .ok c ∧ c.debug = true ∧
      c.engine.maxDepth = 3 ∧ c.engine.maxSteps = 0 := by
  have hunset : ∀ lookup ∈ some fun _ : String => (none : Option String),
      ∀ name ∈ variableNames, lookup name = none := by
    rintro _ ⟨⟩ _ _
    rfl
  obtain ⟨c, -, hvalid, hkeys, -⟩ := load_layers standard_gives shallow_gives hunset
  have hloaded : load ⟨some standardFile, some shallowFile, some fun _ => none⟩ = .ok c := by
    refine hvalid.2 fun name policy h => ?_
    cases h
  have hkept {α : Type} (key : ConfigKey α) (h : key.given? (layerDocument true 3) ≠ some key.default) :
      key.get c = key.layered (layerDocument false 16) (layerDocument true 3) :=
    (hkeys key).1.2 fun hs => h hs.1
  exact ⟨c, hloaded, hkept .debug (by decide), hkept .maxDepth (by decide), hkept .maxSteps (by decide)⟩

end Config

end Brigade
