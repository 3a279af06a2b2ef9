import Brigade.Proofs.Cancellation
import Brigade.Proofs.Lawful
import Mathlib.Data.List.Chain

/-! Failures of runs are coherent: the frames of a failure lead one level down at a time, and its root
cause fits the step it is told of. What fits is said once, by how failures are built; the walks over a
failure are read off from it. -/

namespace Brigade

namespace FailureCause

def levels (frame : StepFrame) : FailureCause → List ExecutionError
  | .child inner cause => ⟨frame, .child inner cause⟩ :: cause.levels inner
  | cause => [⟨frame, cause⟩]

theorem root_ne_child (cause : FailureCause) (frame : StepFrame) (inner : FailureCause) :
    cause.root ≠ .child frame inner := by
  induction cause with
  | child frame' cause ih => exact ih
  | _ => simp [root]

theorem head?_levels (frame : StepFrame) (cause : FailureCause) :
    (cause.levels frame).head? = some ⟨frame, cause⟩ := by
  cases cause <;> rfl

theorem map_frame_levels (frame : StepFrame) (cause : FailureCause) :
    (cause.levels frame).map ExecutionError.frame = frame :: cause.frames := by
  induction cause generalizing frame with
  | child inner cause ih => simp [levels, frames, ih]
  | _ => rfl

theorem isChain_levels (frame : StepFrame) (cause : FailureCause) :
    (cause.levels frame).IsChain fun outer inner => outer.cause = inner.asChild := by
  induction cause generalizing frame with
  | child inner cause ih =>
    rw [levels, List.isChain_cons]
    refine ⟨fun next hnext => ?_, ih inner⟩
    rw [head?_levels] at hnext
    cases hnext
    rfl
  | _ => exact .singleton _

theorem getLast?_levels (frame : StepFrame) (cause : FailureCause) :
    (cause.levels frame).getLast? = some ⟨cause.innermost frame, cause.root⟩ := by
  induction cause generalizing frame with
  | child inner cause ih =>
    have hne : cause.levels inner ≠ [] := by
      intro hnil
      have hhead := head?_levels inner cause
      rw [hnil] at hhead
      cases hhead
    rw [levels, List.getLast?_cons, ih]
    rfl
  | _ => rfl

end FailureCause

namespace ExecutionError

def levels (error : ExecutionError) : List ExecutionError := error.cause.levels error.frame

theorem recoverable_iff (error : ExecutionError) : Coded.recoverable error = true ↔ ∃ reason,
    error.root = .interpreter (.unavailable reason) ∨ error.root = .interpreter (.failed reason) := by
  have hroot : Coded.recoverable error = error.root.recoverable :=
    (FailureCause.recoverable_root error.cause).symm
  rw [hroot]
  cases h : error.root with
  | interpreter failure =>
    cases failure <;> simp [FailureCause.recoverable, InterpreterFailure.recoverable]
  | child frame inner => exact absurd h (error.cause.root_ne_child frame inner)
  | _ => simp [FailureCause.recoverable]

@[simp] theorem path_child (frame : StepFrame) (inner : ExecutionError) :
    (mk frame inner.asChild).path = frame :: inner.path := rfl

/-- How a level at `depth`, with `room` levels below it at most, can fail. -/
inductive Fits (settings : EngineSettings) : Nat → Nat → ExecutionError → Prop
  | cancelled (room depth index : Nat) (command : CommandInfo) :
    Fits settings room depth ⟨⟨depth, index, command⟩, .cancelled⟩
  | stepLimit (room depth : Nat) (command : CommandInfo) (h : 0 < settings.maxSteps.toNat) :
    Fits settings room depth
      ⟨⟨depth, settings.maxSteps.toNat, command⟩, .stepLimit settings.maxSteps.toNat⟩
  | unbound (room depth : Nat) (command : CommandInfo) (selector : Option String) :
    Fits settings room depth ⟨⟨depth, 0, command⟩, .unbound ⟨command.algebra, selector⟩⟩
  | interpreter (room depth index : Nat) (command : CommandInfo) (failure : InterpreterFailure) :
    Fits settings room depth ⟨⟨depth, index, command⟩, .interpreter failure⟩
  | tooDeep (depth index : Nat) (command : CommandInfo) :
    Fits settings 0 depth ⟨⟨depth, index, command⟩, .tooDeep settings.maxDepth.toNat⟩
  | child (room depth index : Nat) (command : CommandInfo) {inner : ExecutionError}
    (h : Fits settings room (depth + 1) inner) :
    Fits settings (room + 1) depth ⟨⟨depth, index, command⟩, inner.asChild⟩

namespace Fits

variable {settings : EngineSettings} {room depth : Nat} {error : ExecutionError}

theorem depths (h : error.Fits settings room depth) :
    error.path.map StepFrame.depth = List.range' depth error.path.length := by
  induction h with
  | child room depth index command h ih =>
    rw [path_child, List.map_cons, ih, List.length_cons, List.range'_succ]
  | _ => rfl

theorem length_path_le (h : error.Fits settings room depth) : error.path.length ≤ room + 1 := by
  induction h with
  | child room depth index command h ih =>
    rw [path_child, List.length_cons]
    exact Nat.succ_le_succ ih
  | _ => simp [path, FailureCause.frames]

theorem root_tooDeep (h : error.Fits settings room depth) {limit : Nat}
    (hroot : error.root = .tooDeep limit) :
    limit = settings.maxDepth.toNat ∧ error.path.length = room + 1 := by
  induction h with
  | tooDeep depth index command =>
    cases hroot
    exact ⟨rfl, rfl⟩
  | child room depth index command h ih =>
    obtain ⟨hlimit, hlength⟩ := ih hroot
    exact ⟨hlimit, by rw [path_child, List.length_cons, hlength]⟩
  | _ => cases hroot

theorem root_stepLimit (h : error.Fits settings room depth) {limit : Nat}
    (hroot : error.root = .stepLimit limit) :
    limit = settings.maxSteps.toNat ∧ 0 < limit ∧ error.innermost.index = limit := by
  induction h with
  | stepLimit room depth command hpos =>
    cases hroot
    exact ⟨rfl, hpos, rfl⟩
  | child room depth index command h ih => exact ih hroot
  | _ => cases hroot

theorem root_unbound (h : error.Fits settings room depth) {unbound : UnboundAlgebra}
    (hroot : error.root = .unbound unbound) :
    error.innermost.index = 0 ∧ unbound.algebra = error.innermost.command.algebra := by
  induction h with
  | unbound room depth command selector =>
    cases hroot
    exact ⟨rfl, rfl⟩
  | child room depth index command h ih => exact ih hroot
  | _ => cases hroot

end Fits

end ExecutionError

variable {L : Type} [Hierarchy L] {σ : Type}

namespace Engine

/-- If the root cause is that the run was cancelled: the flag is set, and the step was reached, in the
state `s`. -/
def StoppedAt (e : Engine σ) (error : ExecutionError) (acts : History L σ) (s : σ) : Prop :=
  error.root = .cancelled → e.cancelled s = true ∧
    ∃ l selector, Act.reached l selector error.innermost s ∈ acts

theorem StoppedAt.mono {e : Engine σ} {error : ExecutionError} {acts acts' : History L σ} {s : σ}
    (h : e.StoppedAt error acts s) (hsub : acts ⊆ acts') : e.StoppedAt error acts' s := by
  intro hroot
  obtain ⟨hs, l, selector, hmem⟩ := h hroot
  exact ⟨hs, l, selector, hsub hmem⟩

/-- What a failure of a level at `depth` satisfies, with `room` levels below it at most. -/
structure Explained (e : Engine σ) (room depth : Nat) (error : ExecutionError) (acts : History L σ)
    (s : σ) : Prop where
  fits : error.Fits e.settings room depth
  stopped : e.StoppedAt error acts s

theorem Explained.mono {e : Engine σ} {room depth : Nat} {error : ExecutionError}
    {acts acts' : History L σ} {s : σ} (h : e.Explained room depth error acts s)
    (hsub : acts ⊆ acts') : e.Explained room depth error acts' s :=
  ⟨h.fits, h.stopped.mono hsub⟩

/-- Every step at `depth` that fails with the cause is explained. -/
def Explains (e : Engine σ) (room depth : Nat) (cause : FailureCause) (acts : History L σ)
    (t : Progress σ) : Prop :=
  ∀ index command, e.Explained room depth ⟨⟨depth, index, command⟩, cause⟩ acts t.state

/-- A failure of a level explains the failure of the step that ran it, one level up. -/
theorem Explained.asChild {e : Engine σ} {room depth : Nat} {error : ExecutionError}
    {acts : History L σ} {t : Progress σ} (h : e.Explained room (depth + 1) error acts t.state) :
    e.Explains (room + 1) depth error.asChild acts t :=
  fun index command => ⟨.child room depth index command h.fits, h.stopped⟩

variable [DecidableEq L]

/-- Steps pass on that a failure is explained, if the levels of their children are. -/
theorem heritable_explains {e : Engine σ} {registry : Registry L σ} {room depth : Nat}
    (hchild : ∀ {l : L} {selector : Option String} {β : Type} {p : Program (algebra l) β}
      {s t : Progress σ} {cause : FailureCause},
      e.children registry room depth l selector p s = (.error cause, t) →
        e.Explains room depth cause (e.childHistory registry room depth l selector p s) t) :
    Heritable (e.children registry room depth) (e.childHistory registry room depth)
      (e.Explains room depth) where
  interpreter failure acts t index command :=
    ⟨.interpreter room depth index command failure, fun hroot => by cases hroot⟩
  child := hchild
  prepend before h index command := (h index command).mono (List.subset_append_right _ _)
  beside := by
    -- A run that failed as cancelled has its flag set, so the right half of a join changes nothing.
    intro cause acts t l selector β p later h index command
    obtain ⟨hfits, hstopped⟩ := h index command
    refine ⟨hfits, fun hroot => ?_⟩
    obtain ⟨hs, l', selector', hmem⟩ := hstopped hroot
    rw [e.children_of_cancelled registry room depth l selector p hs]
    exact ⟨hs, l', selector', List.mem_append_left later hmem⟩
  told := by
    intro error acts t h hcancelled acts' t' index command
    refine ⟨(h index command).fits, fun hroot => ?_⟩
    exact absurd hroot (error.not_isCancelled_iff.1 hcancelled)

/-- What the checks of a level have let pass so far: the limit allows as many commands as there were,
and the interpreter is bound if there was one. -/
def Passed (e : Engine σ) (registry : Registry L σ) (l : L) (selector : Option String)
    (index : Nat) : Prop :=
  (0 < e.settings.maxSteps.toNat → index ≤ e.settings.maxSteps.toNat) ∧
    (0 < index → ∃ i, registry.resolve l selector = .ok i)

theorem passed_succ {e : Engine σ} {registry : Registry L σ} {l : L} {selector : Option String}
    {index : Nat} {state : σ} {i : Interpreter σ (algebra l)}
    (h : e.permit registry l selector index state = .ok i) :
    e.Passed registry l selector (index + 1) := by
  obtain ⟨-, hexhausted, hresolve⟩ := permit_eq_ok h
  refine ⟨fun hpos => ?_, fun _ => ⟨i, hresolve⟩⟩
  by_contra hlt
  have hle : e.settings.maxSteps.toNat ≤ index := by omega
  simp [EngineSettings.exhausted, hpos, hle] at hexhausted

theorem fits_of_refused {e : Engine σ} {registry : Registry L σ} {l : L} {selector : Option String}
    {index : Nat} {state : σ} {cause : FailureCause} (hpassed : e.Passed registry l selector index)
    (h : e.permit registry l selector index state = .error cause) (room depth : Nat)
    (c : (algebra l).Command) :
    (⟨⟨depth, index, (algebra l).describe c⟩, cause⟩ : ExecutionError).Fits e.settings room depth ∧
      (cause = .cancelled → e.cancelled state = true) := by
  rcases permit_eq_error h with ⟨rfl, hcancelled⟩ | ⟨rfl, hexhausted⟩ | ⟨unbound, rfl, hresolve⟩
  · exact ⟨.cancelled room depth index _, fun _ => hcancelled⟩
  · have hlimit : 0 < e.settings.maxSteps.toNat ∧ e.settings.maxSteps.toNat ≤ index := by
      simpa [EngineSettings.exhausted] using hexhausted
    obtain rfl : index = e.settings.maxSteps.toNat := Nat.le_antisymm (hpassed.1 hlimit.1) hlimit.2
    exact ⟨.stepLimit room depth _ hlimit.1, by simp⟩
  · -- The registry is the same for the whole level, so only its first command can find no interpreter.
    have hzero : index = 0 := by
      by_contra hne
      obtain ⟨i, hbound⟩ := hpassed.2 (Nat.pos_of_ne_zero hne)
      rw [hresolve] at hbound
      cases hbound
    rw [Registry.resolve_eq_error hresolve, hzero]
    exact ⟨.unbound room depth _ selector, by simp⟩

variable [LawfulHierarchy L]

theorem step_explained {e : Engine σ} {registry : Registry L σ} {room depth : Nat}
    (hP : Heritable (e.children registry room depth) (e.childHistory registry room depth)
      (e.Explains room depth)) {l : L} {selector : Option String} {index : Nat}
    {c : (algebra l).Command} {s t : Progress σ} {error : ExecutionError}
    (hpassed : e.Passed registry l selector index)
    (h : e.step registry (e.children registry room depth) depth l selector index c s =
      (.error error, t)) :
    e.Explained room depth error
      (e.stepHistory registry (e.children registry room depth) (e.childHistory registry room depth)
        depth l selector index c s) t.state := by
  obtain ⟨frame, cause⟩ := error
  obtain ⟨hframe, ⟨hpermit, rfl⟩ | ⟨i, hpermit, hrun⟩⟩ := step_eq_error h
  · obtain rfl : frame = _ := hframe
    obtain ⟨hfits, hcancelled⟩ := fits_of_refused hpassed hpermit room depth c
    refine ⟨hfits, fun hroot => ?_⟩
    obtain rfl : cause = .cancelled := by
      rcases permit_eq_error hpermit with ⟨rfl, _⟩ | ⟨rfl, _⟩ | ⟨unbound, rfl, _⟩
      · rfl
      · cases hroot
      · cases hroot
    exact ⟨hcancelled rfl, l, selector, .head _⟩
  · obtain rfl : frame = _ := hframe
    have hplan := Plan.run_error hP selector i e.policyFor
      (LawfulHierarchy.forwards l c ⟨depth, index, (algebra l).describe c⟩) (fun _ h => h.elim) hrun
    refine (hplan index ((algebra l).describe c)).mono ?_
    simp only [stepHistory, hpermit]
    exact List.subset_append_right [_, _] _

theorem level_explained {e : Engine σ} {registry : Registry L σ} {room depth : Nat}
    (hP : Heritable (e.children registry room depth) (e.childHistory registry room depth)
      (e.Explains room depth)) {l : L} {selector : Option String} {β : Type}
    {p : Program (algebra l) β} {s t : Progress σ} {error : ExecutionError}
    (h : e.level registry room depth l selector p s = (.error error, t)) :
    e.Explained room depth error (e.history registry room depth l selector p s) t.state := by
  rw [level_eq_levelFrom, levelFrom_eq_run] at h
  refine Program.notes_error (I := fun index _ => e.Passed registry l selector index)
    (E := fun error (acts : History L σ) t => e.Explained room depth error acts t.state) ?_ ?_ p
    ⟨fun _ => Nat.zero_le _, by simp⟩ h
  · intro index c s v t _ hstep
    obtain ⟨i, hpermit, -⟩ := step_eq_ok hstep
    exact passed_succ hpermit
  · intro index c s error t before hpassed hstep
    exact (step_explained hP hpassed hstep).mono (List.subset_append_right _ _)

theorem children_explained (e : Engine σ) (registry : Registry L σ) (room depth : Nat) :
    Heritable (e.children registry room depth) (e.childHistory registry room depth)
      (e.Explains room depth) := by
  induction room generalizing depth with
  | zero =>
    refine heritable_explains ?_
    intro l selector β p s t cause h index command
    cases h
    exact ⟨.tooDeep depth index command, fun hroot => by cases hroot⟩
  | succ room ih =>
    refine heritable_explains ?_
    intro l selector β p s t cause h
    simp only [children, LevelRunner.children] at h
    rcases hlevel : e.level registry room (depth + 1) l selector p s with ⟨error | ⟨v, steps⟩, u⟩ <;>
      rw [hlevel] at h <;> cases h
    exact (level_explained (ih (depth + 1)) hlevel).asChild

/-- What a failure of a run tells of the run: `acts` are what it did, and `s` is where it ended. -/
structure Coherent (e : Engine σ) (error : ExecutionError) (acts : History L σ) (s : σ) : Prop where
  depths : error.path.map StepFrame.depth = List.range error.path.length
  length_path_le : error.path.length ≤ e.settings.maxDepth.toNat + 1
  /-- The path and the innermost failure are those of the levels, and a level that is not the last
  has the failure of the next as its cause. -/
  map_frame_levels : error.levels.map ExecutionError.frame = error.path
  isChain_levels : error.levels.IsChain fun outer inner => outer.cause = inner.asChild
  getLast?_levels : error.levels.getLast? = some ⟨error.innermost, error.root⟩
  root_ne_child : ∀ frame cause, error.root ≠ .child frame cause
  recoverable_iff : Coded.recoverable error = true ↔ ∃ reason,
    error.root = .interpreter (.unavailable reason) ∨ error.root = .interpreter (.failed reason)
  tooDeep : ∀ limit, error.root = .tooDeep limit →
    limit = e.settings.maxDepth.toNat ∧ error.path.length = limit + 1
  stepLimit : ∀ limit, error.root = .stepLimit limit →
    limit = e.settings.maxSteps.toNat ∧ 0 < limit ∧ error.innermost.index = limit
  unbound : ∀ unbound, error.root = .unbound unbound →
    error.innermost.index = 0 ∧ unbound.algebra = error.innermost.command.algebra
  /-- Nothing changed after the step was reached, so its state is that in which the run ended. -/
  cancelled : error.root = .cancelled → e.cancelled s = true ∧
    ∃ l selector, Act.reached l selector error.innermost s ∈ acts

/-- Every failure of a run is coherent. -/
theorem execute_error_coherent (e : Engine σ) (registry : Registry L σ) (l : L)
    (selector : Option String) {β : Type} (p : Program (algebra l) β) {s s' : σ}
    {error : ExecutionError} {events : List Event}
    (h : (e.execute registry l selector p).outcome s = ⟨.error error, s', events⟩) :
    e.Coherent error (e.history registry e.settings.maxDepth.toNat 0 l selector p ⟨s, []⟩) s' := by
  rw [execute_outcome] at h
  obtain ⟨dispatches, houtcome, -⟩ := Outcome.eq_of_reported_eq_error h
  rw [Run.outcome, ← level_eq_levelFrom] at houtcome
  rcases hlevel : e.level registry e.settings.maxDepth.toNat 0 l selector p ⟨s, []⟩ with ⟨r, t⟩
  rw [hlevel] at houtcome
  cases houtcome
  obtain ⟨hfits, hstopped⟩ := level_explained (e.children_explained registry _ 0) hlevel
  exact {
    depths := by rw [hfits.depths, List.range_eq_range']
    length_path_le := hfits.length_path_le
    map_frame_levels := error.cause.map_frame_levels error.frame
    isChain_levels := error.cause.isChain_levels error.frame
    getLast?_levels := error.cause.getLast?_levels error.frame
    root_ne_child := error.cause.root_ne_child
    recoverable_iff := error.recoverable_iff
    tooDeep := fun limit hroot => by
      obtain ⟨rfl, hlength⟩ := hfits.root_tooDeep hroot
      exact ⟨rfl, hlength⟩
    stepLimit := fun limit hroot => hfits.root_stepLimit hroot
    unbound := fun unbound hroot => hfits.root_unbound hroot
    cancelled := hstopped }

def nestTwice : Program (algebra Language.relay) Int64 :=
  RelayScript.program (RelayScript.nested 2 (.pure (.number 7))) []

def outerFrame : StepFrame := { nestFrame with depth := 0 }

theorem nestTwice_outcome (s : NoteBook) :
    (shallow.execute noteTakers .relay none nestTwice).outcome s =
      ⟨.error ⟨outerFrame, .child nestFrame (.tooDeep 1)⟩, s, [.dispatched outerFrame,
        .dispatched nestFrame, .failed ⟨outerFrame, .child nestFrame (.tooDeep 1)⟩]⟩ := by
  have hdepth : shallow.settings.maxDepth.toNat = 1 := rfl
  rw [execute_outcome, hdepth, levelFrom_eq_run, children_succ]
  rfl

theorem execute_error_coherent_nestTwice :
    let error : ExecutionError := ⟨outerFrame, .child nestFrame (.tooDeep 1)⟩
    ((shallow.execute noteTakers .relay none nestTwice).outcome ⟨.empty, []⟩).result = .error error ∧
      shallow.Coherent error (shallow.history noteTakers shallow.settings.maxDepth.toNat 0 .relay none
        nestTwice ⟨⟨.empty, []⟩, []⟩) ⟨.empty, []⟩ ∧
      error.path = [outerFrame, nestFrame] ∧ error.root = .tooDeep 1 := by
  intro error
  refine ⟨by rw [nestTwice_outcome], ?_, rfl, rfl⟩
  exact execute_error_coherent shallow noteTakers .relay none nestTwice (nestTwice_outcome _)

end Engine

end Brigade
