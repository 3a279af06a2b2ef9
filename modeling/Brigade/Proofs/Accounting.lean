import Brigade.Proofs.Lawful
import Brigade.Proofs.Outcome
import Brigade.Proofs.Supervision

/-! What the observers hear of a level agrees with what the level gives. The steps that a level
dispatches at its own depth are numbered from 0 on without a gap; its count is their number, and its
failure is that of the step after them, if that was refused, or of the last of them. -/

namespace Brigade

variable {σ ε α β : Type}

def Event.frameAt? (depth : Nat) : Event → Option StepFrame
  | .dispatched frame => if frame.depth = depth then some frame else none
  | .completed _ | .failed _ => none

/-- The steps that are dispatched at `depth` itself, the oldest first. -/
def framesAt (depth : Nat) (events : List Event) : List StepFrame :=
  events.filterMap (Event.frameAt? depth)

theorem Event.frameAt?_eq_none {depth : Nat} {event : Event} (h : event.reaches (depth + 1)) :
    event.frameAt? depth = none := by
  cases event with
  | dispatched frame =>
    have hdeep : depth + 1 ≤ frame.depth := by simpa [reaches] using h
    exact if_neg (by omega)
  | completed _ => rfl
  | failed _ => rfl

theorem Event.exists_of_reaches {depth : Nat} {event : Event} (h : event.reaches depth) :
    ∃ frame, event = .dispatched frame := by
  cases event with
  | dispatched frame => exact ⟨frame, rfl⟩
  | completed _ => cases h
  | failed _ => cases h

@[simp] theorem framesAt_append (depth : Nat) (before after : List Event) :
    framesAt depth (before ++ after) = framesAt depth before ++ framesAt depth after :=
  List.filterMap_append

theorem framesAt_record (s : Progress σ) (frame : StepFrame) :
    framesAt frame.depth (s.record (.dispatched frame)).events =
      framesAt frame.depth s.events ++ [frame] := by
  simp [framesAt, Event.frameAt?]

theorem mem_framesAt {frame : StepFrame} {events : List Event} :
    frame ∈ framesAt frame.depth events ↔ .dispatched frame ∈ events := by
  simp only [framesAt, List.mem_filterMap]
  constructor
  · rintro ⟨event, hmem, hframe⟩
    cases event with
    | dispatched other =>
      obtain ⟨-, rfl⟩ : other.depth = frame.depth ∧ other = frame := by
        simpa [Event.frameAt?] using hframe
      exact hmem
    | completed _ => cases hframe
    | failed _ => cases hframe
  · intro hmem
    exact ⟨.dispatched frame, hmem, if_pos rfl⟩

/-- The steps are numbered from 0 on, without a gap. -/
def Numbered (frames : List StepFrame) : Prop :=
  frames.map StepFrame.index = List.range frames.length

theorem Numbered.concat {frames : List StepFrame} (h : Numbered frames) {frame : StepFrame}
    (hindex : frame.index = frames.length) : Numbered (frames ++ [frame]) := by
  rw [Numbered] at h ⊢
  simp [h, hindex, List.range_succ]

theorem Numbered.index_lt {frames : List StepFrame} (h : Numbered frames) {frame : StepFrame}
    (hmem : frame ∈ frames) : frame.index < frames.length := by
  have hindex : frame.index ∈ frames.map StepFrame.index := List.mem_map_of_mem hmem
  rw [h] at hindex
  exact List.mem_range.1 hindex

theorem Run.Confined.framesAt {depth : Nat} {r : Run σ ε α} (hr : Run.Confined (depth + 1) r)
    (s : Progress σ) : framesAt depth (r s).2.events = framesAt depth s.events := by
  have hevents : (r s).2.events = s.events ++ (r.outcome s.state).events :=
    congrArg Outcome.events (hr.outcome_of s)
  have hnone : Brigade.framesAt depth (r.outcome s.state).events = [] :=
    List.filterMap_eq_nil_iff.2 fun event hmem => Event.frameAt?_eq_none (hr.reaches hmem)
  rw [hevents, framesAt_append, hnone, List.append_nil]

variable {L : Type} [Hierarchy L]

theorem Plan.not_refuses {children : ChildRunner L σ}
    (hchildren : ∀ {l : L} {selector : Option String} {β : Type} {p : Program (algebra l) β}
      {s t : Progress σ} {cause : FailureCause},
        children l selector p s = (.error cause, t) → cause.refuses = false)
    {l : L} (i : Interpreter σ (algebra l)) (policyFor : String → FailurePolicy)
    {plan : Plan (algebra (L := L)) l α} (hplan : plan.Forwards fun _ => False) {s t : Progress σ}
    {cause : FailureCause} (h : plan.run i children policyFor s = (.error cause, t)) :
    cause.refuses = false := by
  have hP : Heritable children (fun _ _ _ _ _ => []) fun cause _ _ => cause.refuses = false :=
    { interpreter := fun _ _ _ => rfl
      child := hchildren
      prepend := fun _ h => h
      beside := fun _ _ _ _ h => h
      told := fun _ _ _ _ => rfl }
  exact Plan.run_error hP none i policyFor hplan (fun _ h => h.elim) h

namespace Engine

variable [DecidableEq L] {e : Engine σ} {registry : Registry L σ} {children : ChildRunner L σ}
  {depth : Nat} {l : L} {selector : Option String}

theorem step_framesAt (hc : children.Confined (depth + 1)) {index : Nat} {c : (algebra l).Command}
    {s : Progress σ} {i : Interpreter σ (algebra l)}
    (hpermit : e.permit registry l selector index s.state = .ok i) :
    framesAt depth (e.step registry children depth l selector index c s).2.events =
      framesAt depth s.events ++ [⟨depth, index, (algebra l).describe c⟩] := by
  have hplan := Plan.run_confined (i := i) hc e.policyFor
    (Hierarchy.plan l c ⟨depth, index, (algebra l).describe c⟩)
  simp only [step_eq, hpermit, hplan.framesAt]
  exact framesAt_record s ⟨depth, index, (algebra l).describe c⟩

/-- How a level at `depth` that dispatched the steps fails: at the next step, which is refused, or at
the last of them, whose plan fails. -/
def FailsAfter (e : Engine σ) (children : ChildRunner L σ) (depth : Nat) (l : L)
    (frames : List StepFrame) (error : ExecutionError) : Prop :=
  error.frame.depth = depth ∧
    ((error.cause.refuses = true ∧ error.frame.index = frames.length) ∨
      (frames.getLast? = some error.frame ∧ ∃ (c : (algebra l).Command)
        (i : Interpreter σ (algebra l)) (s t : Progress σ),
          (Hierarchy.plan l c error.frame).run i children e.policyFor s = (.error error.cause, t)))

/-- The steps at `depth` are numbered, `count` of them. -/
def Counts (depth count : Nat) (s : Progress σ) : Prop :=
  Numbered (framesAt depth s.events) ∧ (framesAt depth s.events).length = count

theorem step_numbers (e : Engine σ) (registry : Registry L σ) (hc : children.Confined (depth + 1))
    (l : L) (selector : Option String) :
    Program.Keeps (Counts depth)
      (fun error s => Numbered (framesAt depth s.events) ∧
        e.FailsAfter children depth l (framesAt depth s.events) error)
      (e.step registry children depth l selector) := by
  rintro index c s ⟨hnumbered, hlength⟩
  -- A refused step leaves the events as they are; any other is the last of them at its depth.
  rcases hstep : e.step registry children depth l selector index c s with ⟨error | v, t⟩
  · obtain ⟨hframe, ⟨hpermit, rfl⟩ | ⟨i, hpermit, hrun⟩⟩ := step_eq_error hstep
    · have hindex : error.frame.index = (framesAt depth t.events).length := by rw [hframe, hlength]
      exact ⟨hnumbered, by rw [hframe], .inl ⟨refuses_of_permit hpermit, hindex⟩⟩
    · have hframes := step_framesAt (c := c) hc hpermit
      rw [hstep, ← hframe] at hframes
      have hindex : error.frame.index = (framesAt depth s.events).length := by rw [hframe, hlength]
      simp only [hframes]
      exact ⟨hnumbered.concat hindex, by rw [hframe],
        .inr ⟨List.getLast?_concat, c, i, _, t, hrun⟩⟩
  · obtain ⟨i, hpermit, -⟩ := step_eq_ok hstep
    have hframes := step_framesAt (c := c) hc hpermit
    rw [hstep] at hframes
    simp only [Counts, hframes]
    exact ⟨hnumbered.concat hlength.symm, by simp [hlength]⟩

/-- A level numbers the steps at its depth, and counts them or fails after them. -/
theorem level_numbers (e : Engine σ) (registry : Registry L σ) (room depth : Nat) (l : L)
    (selector : Option String) (p : Program (algebra l) β) (s : σ) :
    Program.Holds (Counts depth)
      (fun error s => Numbered (framesAt depth s.events) ∧
        e.FailsAfter (e.children registry room depth) depth l (framesAt depth s.events) error)
      (e.levelFrom registry room depth l selector 0 p ⟨s, []⟩) := by
  rw [levelFrom_eq_run]
  have hkeeps := e.step_numbers registry (e.children_confined registry room depth) l selector
  exact Program.run_keeps hkeeps p 0 ⟨s, []⟩ ⟨rfl, rfl⟩

/-- What the events that a level at `depth` adds have to do with its result. -/
structure Accounts (depth : Nat) (emitted : List Event) (r : Except ExecutionError (β × Nat)) :
    Prop where
  dispatches : ∀ event ∈ emitted, ∃ frame, event = .dispatched frame
  numbered : Numbered (framesAt depth emitted)
  steps : ∀ v steps, r = .ok (v, steps) → steps = (framesAt depth emitted).length
  depth_eq : ∀ error, r = .error error → error.frame.depth = depth
  /-- The step comes after those that were dispatched, and was not dispatched itself. -/
  refused : ∀ error, r = .error error → error.cause.refuses = true →
    error.frame.index = (framesAt depth emitted).length ∧ .dispatched error.frame ∉ emitted
  last : ∀ error, r = .error error → error.cause.refuses = false →
    (framesAt depth emitted).getLast? = some error.frame

theorem children_not_refuses {room : Nat} {p : Program (algebra l) β} {s t : Progress σ}
    {cause : FailureCause} (h : e.children registry room depth l selector p s = (.error cause, t)) :
    cause.refuses = false := by
  rcases children_error (congrArg Prod.fst h) with ⟨-, rfl⟩ | ⟨-, error, rfl⟩ <;> rfl

theorem FailsAfter.refused [LawfulHierarchy L] {room : Nat} {frames : List StepFrame}
    {error : ExecutionError} (h : e.FailsAfter (e.children registry room depth) depth l frames error)
    (hrefuses : error.cause.refuses = true) : error.frame.index = frames.length := by
  obtain ⟨-, ⟨-, hindex⟩ | ⟨-, c, i, s, t, hrun⟩⟩ := h
  · exact hindex
  · have hplan := Plan.not_refuses children_not_refuses i e.policyFor
      (LawfulHierarchy.forwards l c error.frame) hrun
    rw [hrefuses] at hplan
    cases hplan

omit [DecidableEq L] in
theorem FailsAfter.last {frames : List StepFrame} {error : ExecutionError}
    (h : e.FailsAfter children depth l frames error) (hrefuses : error.cause.refuses = false) :
    frames.getLast? = some error.frame := by
  obtain ⟨-, ⟨hrefused, -⟩ | ⟨hlast, -⟩⟩ := h
  · rw [hrefuses] at hrefused
    cases hrefused
  · exact hlast

variable [LawfulHierarchy L]

theorem level_accounts (e : Engine σ) (registry : Registry L σ) (room depth : Nat) (l : L)
    (selector : Option String) (p : Program (algebra l) β) (s : σ) :
    let o := (e.levelFrom registry room depth l selector 0 p).outcome s
    Accounts depth o.events o.result := by
  intro o
  have hnumbers := e.level_numbers registry room depth l selector p s
  have hdispatches : ∀ event ∈ o.events, ∃ frame, event = .dispatched frame := fun event hmem =>
    Event.exists_of_reaches ((e.levelFrom_confined registry room depth l selector 0 p).reaches hmem)
  simp only [o, Run.outcome] at hdispatches ⊢
  generalize e.levelFrom registry room depth l selector 0 p ⟨s, []⟩ = r at hnumbers hdispatches ⊢
  rcases r with ⟨error | ⟨v, steps⟩, t⟩
  · obtain ⟨hnumbered, hfails⟩ := hnumbers
    refine ⟨hdispatches, hnumbered, by rintro _ _ ⟨⟩, ?_, ?_, ?_⟩
    · rintro _ ⟨⟩
      exact hfails.1
    · rintro _ ⟨⟩ hrefuses
      refine ⟨hfails.refused hrefuses, fun hmem => ?_⟩
      have hlt := hnumbered.index_lt (hfails.1 ▸ mem_framesAt.2 hmem)
      exact absurd (hfails.refused hrefuses) (Nat.ne_of_lt hlt)
    · rintro _ ⟨⟩ hrefuses
      exact hfails.last hrefuses
  · obtain ⟨hnumbered, hcount⟩ := hnumbers
    refine ⟨hdispatches, hnumbered, ?_, by rintro _ ⟨⟩, by rintro _ ⟨⟩, by rintro _ ⟨⟩⟩
    rintro _ _ ⟨⟩
    exact hcount.symm

/-- What a level adds to the events agrees with its result, wherever in a run it takes place, and the
observers of a run are told once how it ended, after all dispatches. -/
theorem execute_accounts (e : Engine σ) (registry : Registry L σ) :
    (∀ (room depth : Nat) (l : L) (selector : Option String) {β : Type} (p : Program (algebra l) β)
      (s : Progress σ),
      let level := e.level registry room depth l selector p s
      ∃ emitted, level.2.events = s.events ++ emitted ∧ Accounts depth emitted level.1) ∧
    ∀ (l : L) (selector : Option String) {β : Type} (p : Program (algebra l) β) (s : σ),
      let o := (e.execute registry l selector p).outcome s
      ∃ dispatches, (∀ event ∈ dispatches, ∃ frame, event = .dispatched frame) ∧
        ((∃ v, o.result = .ok v ∧
            o.events = dispatches ++ [.completed (framesAt 0 dispatches).length]) ∨
          ∃ error, o.result = .error error ∧ o.events = dispatches ++ [.failed error]) := by
  constructor
  · intro room depth l selector β p s level
    have hafter := (e.levelFrom_confined registry room depth l selector 0 p).outcome_of s
    have haccounts := e.level_accounts registry room depth l selector p s.state
    rw [← level_eq_levelFrom] at hafter haccounts
    have hresult : level.1 = ((e.level registry room depth l selector p).outcome s.state).result :=
      congrArg Outcome.result hafter
    exact ⟨_, congrArg Outcome.events hafter, hresult ▸ haccounts⟩
  · intro l selector β p s o
    have haccounts := e.level_accounts registry e.settings.maxDepth.toNat 0 l selector p s
    simp only [o, execute_outcome]
    generalize (e.levelFrom registry e.settings.maxDepth.toNat 0 l selector 0 p).outcome s = level
      at haccounts
    rcases level with ⟨error | ⟨v, steps⟩, state, dispatches⟩
    · exact ⟨dispatches, haccounts.dispatches, .inr ⟨error, rfl, rfl⟩⟩
    · refine ⟨dispatches, haccounts.dispatches, .inl ⟨v, rfl, ?_⟩⟩
      rw [← haccounts.steps v steps rfl]
      rfl

theorem execute_accounts_nest :
    let level := shallow.level noteTakers 0 1 .relay none nest ⟨⟨.empty, []⟩, []⟩
    let o := (shallow.execute noteTakers .relay none nest).outcome ⟨.empty, []⟩
    level.1 = .error ⟨nestFrame, .tooDeep 1⟩ ∧
      (∃ emitted, level.2.events = emitted ∧ (framesAt 1 emitted).getLast? = some nestFrame) ∧
      o.result = .ok 7 ∧
      ∃ dispatches, o.events = dispatches ++ [.completed (framesAt 0 dispatches).length] := by
  intro level o
  have hlevel : level.1 = .error ⟨nestFrame, .tooDeep 1⟩ := by
    simp only [level, level_eq_levelFrom, levelFrom_eq_run]
    rfl
  have hresult : o.result = .ok 7 := by
    have hdepth : shallow.settings.maxDepth.toNat = 1 := rfl
    simp only [o]
    rw [execute_outcome, hdepth, levelFrom_eq_run, children_succ]
    rfl
  obtain ⟨emitted, hemitted, haccounts⟩ := (execute_accounts shallow noteTakers).1 0 1 .relay none nest
    ⟨⟨.empty, []⟩, []⟩
  obtain ⟨dispatches, -, hended⟩ := (execute_accounts shallow noteTakers).2 .relay none nest
    ⟨.empty, []⟩
  refine ⟨hlevel, ⟨emitted, hemitted, haccounts.last _ hlevel rfl⟩, hresult, dispatches, ?_⟩
  rcases hended with ⟨v, -, hevents⟩ | ⟨error, herror, -⟩
  · exact hevents
  · change o.result = _ at herror
    rw [hresult] at herror
    cases herror

end Engine

end Brigade
