import Brigade.Proofs.Traversal
import Brigade.Proofs.Visits

/-! The bindings that a run asks its registry for. A level asks under its own selector, once it comes to a
step that is neither cancelled nor over the limit, and the selector of a child is the one that the step
above names for it. A run depends on the registry in nothing else. -/

namespace Brigade.Engine

variable {L : Type} [Hierarchy L] [DecidableEq L] {σ β : Type}

/-- The level, or a level below it, asks the registry for the binding. -/
inductive Asks (e : Engine σ) (registry : Registry L σ) :
    Nat → Nat → Level L σ → L → Option String → Prop
  | own {room depth : Nat} {level : Level L σ}
    {visit : Visit (algebra level.language) (Progress σ)}
    (hvisit : level.program.Visits (e.step registry (e.children registry room depth) depth
      level.language level.selector) visit 0 level.start)
    (hcancelled : e.cancelled visit.state.state = false)
    (hexhausted : e.settings.exhausted visit.index = false) :
    Asks e registry room depth level level.language level.selector
  | child {room depth : Nat} {level inner : Level L σ}
    {visit : Visit (algebra level.language) (Progress σ)}
    {i : Interpreter σ (algebra level.language)} {l : L} {selector : Option String}
    (hvisit : level.program.Visits (e.step registry (e.children registry (room + 1) depth) depth
      level.language level.selector) visit 0 level.start)
    (hpermit : e.permit registry level.language level.selector visit.index visit.state.state = .ok i)
    (hruns : (Hierarchy.plan level.language visit.command (visit.frame depth)).Runs i
      (e.children registry (room + 1) depth) e.policyFor inner
      (visit.state.record (.dispatched (visit.frame depth))))
    (hinner : Asks e registry room (depth + 1) inner l selector) :
    Asks e registry (room + 1) depth level l selector

section

variable {e : Engine σ} {registry registry' : Registry L σ} {l : L} {selector : Option String}

theorem permit_congr {index : Nat} {state : σ}
    (h : e.cancelled state = false → e.settings.exhausted index = false →
      registry'.resolve l selector = registry.resolve l selector) :
    e.permit registry' l selector index state = e.permit registry l selector index state := by
  simp only [permit]
  split
  · rfl
  · next hcancelled =>
    split
    · rfl
    · next hexhausted => rw [h (by simpa using hcancelled) (by simpa using hexhausted)]

/-- A step is the same for two engines if the same checks refuse it and its plan does the same. -/
theorem step_congr {e' : Engine σ} {children children' : ChildRunner L σ} {depth index : Nat}
    {c : (algebra l).Command} {s : Progress σ}
    (hpermit : e'.permit registry' l selector index s.state =
      e.permit registry l selector index s.state)
    (hplan : ∀ i frame, e.permit registry l selector index s.state = .ok i →
      frame = ⟨depth, index, (algebra l).describe c⟩ →
      (Hierarchy.plan l c frame).run i children' e'.policyFor (s.record (.dispatched frame)) =
        (Hierarchy.plan l c frame).run i children e.policyFor (s.record (.dispatched frame))) :
    e'.step registry' children' depth l selector index c s =
      e.step registry children depth l selector index c s := by
  rw [step_eq, step_eq, hpermit]
  rcases h : e.permit registry l selector index s.state with cause | i
  · rfl
  · simp only [hplan i _ h rfl]

theorem level_congr {room depth : Nat} {level : Level L σ}
    (h : ∀ l selector, e.Asks registry room depth level l selector →
      registry'.resolve l selector = registry.resolve l selector) :
    e.level registry' room depth level.language level.selector level.program level.start =
      e.level registry room depth level.language level.selector level.program level.start := by
  induction room generalizing depth level with
  | zero =>
    simp only [level_eq_levelFrom, levelFrom_eq_run]
    refine Program.run_congr _ 0 _ fun visit hvisit => ?_
    exact step_congr (permit_congr fun hcancelled hexhausted =>
      h _ _ (.own hvisit hcancelled hexhausted)) fun i _ _ _ => rfl
  | succ room ih =>
    simp only [level_eq_levelFrom, levelFrom_eq_run]
    refine Program.run_congr _ 0 _ fun visit hvisit => ?_
    refine step_congr (permit_congr fun hcancelled hexhausted =>
      h _ _ (.own hvisit hcancelled hexhausted)) ?_
    rintro i _ hpermit rfl
    refine Plan.run_congr _ fun inner hruns => ?_
    have hinner := ih fun l selector hasks => h l selector (.child hvisit hpermit hruns hasks)
    simp only [children, LevelRunner.children, hinner]

theorem reached_mem_history {room depth : Nat} {level : Level L σ} {frame : StepFrame} {state : σ} :
    .reached l selector frame state ∈ e.history registry room depth level.language level.selector
        level.program level.start ↔
      ∃ visit, level.program.Visits (e.step registry (e.children registry room depth) depth
          level.language level.selector) visit 0 level.start ∧
        ((l = level.language ∧ selector = level.selector ∧ frame = visit.frame depth ∧
            state = visit.state.state) ∨
          ∃ i, e.permit registry level.language level.selector visit.index visit.state.state = .ok i ∧
            ∃ inner : Level L σ,
              (Hierarchy.plan level.language visit.command (visit.frame depth)).Runs i
                (e.children registry room depth) e.policyFor inner
                (visit.state.record (.dispatched (visit.frame depth))) ∧
              .reached l selector frame state ∈ e.childHistory registry room depth inner.language
                inner.selector inner.program inner.start) := by
  simp only [history, levelHistory, Program.mem_notes, stepHistory, Visit.frame]
  refine exists_congr fun visit => and_congr_right fun _ => ?_
  rcases e.permit registry level.language level.selector visit.index visit.state.state with cause | i
  · simp
  · simp [Plan.reached_mem_history]

/-- What a level asks for is what a step of its history is looked up under, unless the step is cancelled
or over the limit. -/
theorem asks_iff {room depth : Nat} {level : Level L σ} :
    e.Asks registry room depth level l selector ↔ ∃ frame state,
      .reached l selector frame state ∈ e.history registry room depth level.language level.selector
        level.program level.start ∧
      e.cancelled state = false ∧ e.settings.exhausted frame.index = false := by
  constructor
  · intro h
    induction h with
    | own hvisit hcancelled hexhausted =>
      exact ⟨_, _, reached_mem_history.2 ⟨_, hvisit, .inl ⟨rfl, rfl, rfl, rfl⟩⟩, hcancelled, hexhausted⟩
    | child hvisit hpermit hruns _ ih =>
      obtain ⟨frame, state, hmem, hchecks⟩ := ih
      exact ⟨frame, state, reached_mem_history.2 ⟨_, hvisit, .inr ⟨_, hpermit, _, hruns, hmem⟩⟩, hchecks⟩
  · rintro ⟨frame, state, hmem, hcancelled, hexhausted⟩
    induction room generalizing depth level with
    | zero =>
      obtain ⟨visit, hvisit, ⟨rfl, rfl, rfl, rfl⟩ | ⟨i, -, inner, -, hinner⟩⟩ :=
        reached_mem_history.1 hmem
      · exact .own hvisit hcancelled hexhausted
      · cases hinner
    | succ room ih =>
      obtain ⟨visit, hvisit, ⟨rfl, rfl, rfl, rfl⟩ | ⟨i, hpermit, inner, hruns, hinner⟩⟩ :=
        reached_mem_history.1 hmem
      · exact .own hvisit hcancelled hexhausted
      · exact .child hvisit hpermit hruns (ih hinner)

end

/-- A run depends on the registry only through the bindings that it asks for: those under which the steps
of its history are looked up, each the language and the selector that the step above names. -/
theorem execute_asks (e : Engine σ) (registry : Registry L σ) (l : L) (selector : Option String)
    (p : Program (algebra l) β) (s : σ) :
    let asks := e.Asks registry e.settings.maxDepth.toNat 0 ⟨l, selector, p, ⟨s, []⟩⟩
    let o := (e.execute registry l selector p).outcome s
    (∀ l' selector', asks l' selector' ↔ ∃ frame state,
      .reached l' selector' frame state ∈
        e.history registry e.settings.maxDepth.toNat 0 l selector p ⟨s, []⟩ ∧
      e.cancelled state = false ∧ e.settings.exhausted frame.index = false) ∧
    (∀ registry' : Registry L σ, (∀ l' selector', asks l' selector' →
        registry'.resolve l' selector' = registry.resolve l' selector') →
      (e.execute registry' l selector p).outcome s = o) ∧
    ∀ l' selector', ¬ asks l' selector' →
      (∀ i, (e.execute (registry.bind l' selector' i) l selector p).outcome s = o) ∧
      (e.execute (registry.unbind l' selector') l selector p).outcome s = o := by
  intro asks o
  have hagree : ∀ registry' : Registry L σ, (∀ l' selector', asks l' selector' →
      registry'.resolve l' selector' = registry.resolve l' selector') →
      (e.execute registry' l selector p).outcome s = o := by
    intro registry' h
    have hlevel : e.level registry' _ 0 l selector p ⟨s, []⟩ =
      e.level registry _ 0 l selector p ⟨s, []⟩ := level_congr h
    simp only [o, Run.outcome, execute, hlevel]
  refine ⟨fun l' selector' => asks_iff, hagree, fun l' selector' hnot => ?_⟩
  have hother : ∀ {l'' selector''}, asks l'' selector'' → ¬ (l' = l'' ∧ selector' = selector'') := by
    rintro _ _ hasks ⟨rfl, rfl⟩
    exact hnot hasks
  exact ⟨fun i => hagree _ fun _ _ hasks => registry.resolve_bind_of_ne (hother hasks) i,
    hagree _ fun _ _ hasks => registry.resolve_unbind_of_ne (hother hasks)⟩

def namedAndDefault : Registry Language ScriptedProbe :=
  let relay : Interpreter ScriptedProbe (algebra Language.relay) := fun _ s => (.error .aborted, s)
  (((Registry.empty.bind .relay none relay).bind .relay (some "tens") relay).bind .probe none
    ScriptedProbe.interpreter).bind .probe (some "tens")
      fun m s => ScriptedProbe.interpreter m { s with offset := 10 }

def namedThenDefault : Program (algebra Language.relay) Int64 :=
  RelayScript.program (.leaf (.nest (some "tens") (.leaf (.forward none (.leaf (.number 7)))))) []

theorem execute_asks_namedThenDefault :
    let asks := plain.Asks namedAndDefault 16 0 ⟨.relay, none, namedThenDefault, ⟨.initial, []⟩⟩
    let o := (plain.execute namedAndDefault .relay none namedThenDefault).outcome .initial
    asks .relay none ∧ asks .relay (some "tens") ∧ asks .probe none ∧ ¬ asks .probe (some "tens") ∧
      (plain.execute (namedAndDefault.unbind .probe (some "tens")) .relay none
        namedThenDefault).outcome .initial = o ∧ o.result = .ok 7 := by
  intro asks o
  obtain ⟨hasks, -, hother⟩ :=
    execute_asks plain namedAndDefault .relay none namedThenDefault .initial
  have hhistory : ∃ after,
      plain.history namedAndDefault 16 0 .relay none namedThenDefault ⟨.initial, []⟩ =
        [.reached .relay none ⟨0, 0, ⟨⟨"relay"⟩, "NestAs", "tens"⟩⟩ .initial,
         .dispatched .relay none ⟨0, 0, ⟨⟨"relay"⟩, "NestAs", "tens"⟩⟩ .initial,
         .reached .relay (some "tens") ⟨1, 0, ⟨⟨"relay"⟩, "Forward", ""⟩⟩ .initial,
         .dispatched .relay (some "tens") ⟨1, 0, ⟨⟨"relay"⟩, "Forward", ""⟩⟩ .initial,
         .reached .probe none ⟨2, 0, ⟨⟨"probe"⟩, "Emit", "7"⟩⟩ .initial,
         .dispatched .probe none ⟨2, 0, ⟨⟨"probe"⟩, "Emit", "7"⟩⟩ .initial,
         .called .probe none (ProbeMethod.emit 7) .initial after] := by
    rw [history, childHistory, children_succ, children_succ]
    exact ⟨_, rfl⟩
  obtain ⟨after, hhistory⟩ := hhistory
  rw [plain_maxDepth, hhistory] at hasks
  have hnamed : ¬ asks .probe (some "tens") := by
    intro hnamed
    obtain ⟨frame, state, hmem, -⟩ := (hasks _ _).1 hnamed
    simp at hmem
  refine ⟨(hasks _ _).2 ⟨_, _, .head _, rfl, rfl⟩,
    (hasks _ _).2 ⟨_, _, .tail _ (.tail _ (.head _)), rfl, rfl⟩,
    (hasks _ _).2 ⟨_, _, .tail _ (.tail _ (.tail _ (.tail _ (.head _)))), rfl, rfl⟩, hnamed,
    (hother .probe (some "tens") hnamed).2, ?_⟩
  simp only [o]
  rw [execute_outcome, plain_maxDepth, levelFrom_eq_run, children_succ, children_succ]
  rfl

end Brigade.Engine
