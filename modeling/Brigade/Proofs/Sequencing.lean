import Brigade.Proofs.Accounting

/-! Binds run in sequence: first the program, then what the function gives, as the rest of the same
level. The rest of a level does what the program does on its own, with the indices of its steps
shifted, unless a command reads the index of its step. -/

namespace Brigade

variable {σ ε α β : Type}

/-- Whether an event is a dispatch at `depth` itself. -/
def Event.isAt (depth : Nat) : Event → Bool
  | .dispatched frame => frame.depth = depth
  | .completed _ | .failed _ => false

theorem countP_isAt (depth : Nat) (events : List Event) :
    events.countP (Event.isAt depth) = (framesAt depth events).length := by
  rw [framesAt, List.length_filterMap_eq_countP]
  congr 1
  funext event
  cases event with
  | dispatched frame => by_cases h : frame.depth = depth <;> simp [Event.isAt, Event.frameAt?, h]
  | completed _ => rfl
  | failed _ => rfl

/-- The frame that a step has when its level performed `k` commands more before it. -/
def StepFrame.shift (k : Nat) (frame : StepFrame) : StepFrame :=
  { frame with index := frame.index + k }

/-- Shifts the outermost frame only. -/
def ExecutionError.shift (k : Nat) (error : ExecutionError) : ExecutionError :=
  { error with frame := error.frame.shift k }

/-- Shifts the steps at `depth`, and what is told of the level there. -/
def Event.shift (depth k : Nat) : Event → Event
  | .dispatched frame => .dispatched (if frame.depth = depth then frame.shift k else frame)
  | .completed steps => .completed (steps + k)
  | .failed error => .failed (error.shift k)

def Progress.shift (depth k : Nat) (s : Progress σ) : Progress σ :=
  { s with newest := s.newest.map (Event.shift depth k) }

theorem Progress.shift_record (depth k : Nat) (s : Progress σ) (event : Event) :
    (s.record event).shift depth k = (s.shift depth k).record (event.shift depth k) := rfl

theorem Unnoticed.shift (depth k : Nat) :
    Unnoticed (depth + 1) fun s : Progress σ => s.shift depth k := by
  refine ⟨fun _ => rfl, fun _ _ => rfl, fun s frame hf => ?_⟩
  have hdepth : frame.depth ≠ depth := by omega
  simp only [Progress.shift_record, Event.shift, hdepth, if_false]

namespace Outcome

def proceed (o : Outcome σ ε (α × Nat)) (next : α → Nat → σ → Outcome σ ε (β × Nat)) :
    Outcome σ ε (β × Nat) :=
  match o.result with
  | .ok (v, index) => (next v index o.state).after o.events
  | .error error => ⟨.error error, o.state, o.events⟩

/-- The outcome of the same run at the root of a run that performed `k` commands before. -/
def shift (k : Nat) (o : Outcome σ ExecutionError α) : Outcome σ ExecutionError α :=
  ⟨o.result.mapError (ExecutionError.shift k), o.state, o.events.map (Event.shift 0 k)⟩

theorem reported_after (o : Outcome σ ExecutionError (α × Nat)) (events : List Event) :
    (o.after events).reported = o.reported.after events := by
  rcases o with ⟨error | ⟨v, steps⟩, state, trace⟩ <;> simp [after, reported]

theorem reported_of_carry (k : Nat) (r : Except ExecutionError (α × Nat) × Progress σ) :
    (of (Program.carry (Progress.shift 0 k) (ExecutionError.shift k) k r)).reported =
      (of r).reported.shift k := by
  rcases r with ⟨error | ⟨v, steps⟩, s⟩ <;>
    simp [of, reported, shift, Progress.shift, Progress.events, Event.shift] <;> rfl

end Outcome

variable {L : Type} [Hierarchy L]

/-- How the command is carried out does not depend on the index of its step. -/
def IgnoresIndex {l : L} (c : (algebra l).Command) : Prop :=
  ∀ (frame : StepFrame) (index : Nat),
    Hierarchy.plan l c { frame with index } = Hierarchy.plan l c frame

namespace Engine

variable [DecidableEq L]

/-- A level that runs a bind runs the program, and then what the function gives as its rest. -/
theorem levelFrom_bind_outcome (e : Engine σ) (registry : Registry L σ) (room depth : Nat) (l : L)
    (selector : Option String) (index : Nat) (p : Program (algebra l) α)
    (f : α → Program (algebra l) β) (s : σ) :
    (e.levelFrom registry room depth l selector index (p.bind f)).outcome s =
      ((e.levelFrom registry room depth l selector index p).outcome s).proceed fun v index =>
        (e.levelFrom registry room depth l selector index (f v)).outcome := by
  simp only [Run.outcome, levelFrom_bind]
  rcases e.levelFrom registry room depth l selector index p ⟨s, []⟩ with ⟨error | ⟨v, index⟩, t⟩
  · rfl
  · exact (e.levelFrom_confined registry room depth l selector index (f v)).outcome_of t

theorem countP_isAt_of_level (e : Engine σ) (registry : Registry L σ) (room depth : Nat) (l : L)
    (selector : Option String) (p : Program (algebra l) β) {s s' : σ} {v : β} {k : Nat}
    {events : List Event}
    (h : (e.levelFrom registry room depth l selector 0 p).outcome s = ⟨.ok (v, k), s', events⟩) :
    events.countP (Event.isAt depth) = k := by
  have hnumbers := e.level_numbers registry room depth l selector p s
  simp only [Run.outcome] at h
  generalize e.levelFrom registry room depth l selector 0 p ⟨s, []⟩ = r at h hnumbers
  rcases r with ⟨error | ⟨w, index⟩, t⟩ <;> cases h
  rw [countP_isAt]
  exact hnumbers.2

theorem step_shift (e : Engine σ) (he : e.settings.maxSteps = 0) (registry : Registry L σ)
    {children : ChildRunner L σ} {depth : Nat} (hc : children.Confined (depth + 1)) (l : L)
    (selector : Option String) (k : Nat) :
    Program.Carries IgnoresIndex (Progress.shift depth k) (ExecutionError.shift k) k
      (e.step registry children depth l selector) (e.step registry children depth l selector) := by
  have hunlimited : ∀ n, e.settings.exhausted n = false := fun n => by
    simp [EngineSettings.exhausted, he]
  have hshift : Unnoticed (depth + 1) (Progress.shift (σ := σ) depth k) := Unnoticed.shift depth k
  refine (e.hides_of_unnoticed registry hshift).step_carries (fun l selector _ p =>
    hc l selector p _ hshift) depth l selector ?_ (fun _ _ _ => rfl) ?_ ?_
  · intro s index command
    simp [Progress.shift_record, Event.shift, StepFrame.shift]
  · intro index
    rw [hunlimited, hunlimited]
  · intro c hignores index command
    exact hignores ⟨depth, index, command⟩ (index + k)

/-- The rest of a level, after `k` commands, does what the program does on its own, shifted. -/
theorem levelFrom_reported_shift (e : Engine σ) (he : e.settings.maxSteps = 0)
    (registry : Registry L σ) (room : Nat) (l : L) (selector : Option String) (k : Nat)
    {p : Program (algebra l) β} (hp : p.Only IgnoresIndex) (s : σ) :
    ((e.levelFrom registry room 0 l selector k p).outcome s).reported =
      ((e.levelFrom registry room 0 l selector 0 p).outcome s).reported.shift k := by
  have hrun := Program.run_carry
    (e.step_shift he registry (e.children_confined registry room 0) l selector k) p hp 0 ⟨s, []⟩
  rw [← levelFrom_eq_run, ← levelFrom_eq_run, Nat.zero_add] at hrun
  have hcarry := Outcome.reported_of_carry k (e.levelFrom registry room 0 l selector 0 p ⟨s, []⟩)
  rw [← hrun] at hcarry
  exact hcarry

/-- Running a bind is running its program and then what the function gives. A failure of the program
is that of the bind, with the same events and state. From a value on, the bind goes on as the rest of
the level; it then does what the function's program does on its own, with the indices shifted, if
there is no limit on the steps and no command of that program reads its index. -/
theorem execute_bind (e : Engine σ) (registry : Registry L σ) (l : L) (selector : Option String)
    (p : Program (algebra l) α) (f : α → Program (algebra l) β) (s : σ) :
    (∀ error s' events,
      (e.execute registry l selector p).outcome s = ⟨.error error, s', events⟩ →
      (e.execute registry l selector (p.bind f)).outcome s = ⟨.error error, s', events⟩) ∧
    ∀ v s' events, (e.execute registry l selector p).outcome s = ⟨.ok v, s', events⟩ →
      ∃ k dispatches, events = dispatches ++ [.completed k] ∧
        dispatches.countP (Event.isAt 0) = k ∧
        (e.execute registry l selector (p.bind f)).outcome s =
          ((e.levelFrom registry e.settings.maxDepth.toNat 0 l selector k (f v)).outcome
            s').reported.after dispatches ∧
        (e.settings.maxSteps = 0 → (f v).Only IgnoresIndex →
          (e.execute registry l selector (p.bind f)).outcome s =
            (((e.execute registry l selector (f v)).outcome s').shift k).after dispatches) := by
  simp only [execute_outcome, levelFrom_bind_outcome]
  rcases ho : (e.levelFrom registry e.settings.maxDepth.toNat 0 l selector 0 p).outcome s with
    ⟨error | ⟨v, k⟩, s', dispatches⟩
  · simp [Outcome.reported, Outcome.proceed]
  · refine ⟨by simp [Outcome.reported], ?_⟩
    rintro _ _ _ ⟨⟩
    refine ⟨k, dispatches, rfl, e.countP_isAt_of_level registry _ 0 l selector p ho, ?_, ?_⟩
    · exact Outcome.reported_after _ dispatches
    · intro he hf
      rw [← e.levelFrom_reported_shift he registry _ l selector k hf s']
      exact Outcome.reported_after _ dispatches

def place : Program (algebra Language.relay) Int64 := RelayScript.program (.leaf .place) []

def placeFrame : StepFrame := ⟨0, 0, ⟨⟨"relay"⟩, "Where", ""⟩⟩

def note : Program (algebra Language.relay) Int64 := RelayScript.program (.leaf (.note "salt")) []

def noteFrame : StepFrame := ⟨0, 0, ⟨⟨"relay"⟩, "Note", "salt"⟩⟩

theorem place_outcome (s : NoteBook) :
    (plain.execute noteTakers .relay none place).outcome s =
      ⟨.ok 0, s, [.dispatched placeFrame, .completed 1]⟩ := by
  rw [execute_outcome, levelFrom_eq_run]
  rfl

/-- A command that reads the index of its step does something else after a bind. -/
theorem execute_bind_place :
    let run := fun p => (plain.execute noteTakers .relay none p).outcome ⟨.empty, []⟩
    (plain : Engine NoteBook).settings.maxSteps = 0 ∧
      run place = ⟨.ok 0, ⟨.empty, []⟩, [.dispatched placeFrame] ++ [.completed 1]⟩ ∧
      (run (place.bind fun _ => place)).result = .ok 1 ∧
      (((run place).shift 1).after [.dispatched placeFrame]).result = .ok 0 := by
  intro run
  refine ⟨rfl, place_outcome _, ?_, ?_⟩
  · simp only [run]
    rw [execute_outcome, levelFrom_eq_run]
    rfl
  · simp only [run]
    rw [place_outcome]
    rfl

theorem note_only_ignoresIndex : note.Only IgnoresIndex := by
  simp only [note, RelayScript.program, Script.program, Program.lift, Program.Only, Bound.Only]
  exact ⟨fun _ _ => rfl, trivial⟩

theorem note_outcome (log : CallLog) :
    (plain.execute noteTakers .relay none note).outcome ⟨log, []⟩ =
      ⟨.ok 4, ⟨log.record "note(salt)", []⟩, [.dispatched noteFrame, .completed 1]⟩ := by
  rw [execute_outcome, levelFrom_eq_run]
  rfl

theorem note_refused (s : NoteBook) :
    (plain.execute (L := Language) ⟨[]⟩ .relay none note).outcome s =
      ⟨.error ⟨noteFrame, .unbound ⟨⟨"relay"⟩, none⟩⟩, s,
        [.failed ⟨noteFrame, .unbound ⟨⟨"relay"⟩, none⟩⟩]⟩ := by
  rw [execute_outcome, levelFrom_eq_run]
  rfl

theorem execute_bind_note :
    (plain.execute (L := Language) ⟨[]⟩ .relay none (note.bind fun _ => note)).outcome
        (⟨.empty, []⟩ : NoteBook) =
          (plain.execute (L := Language) ⟨[]⟩ .relay none note).outcome ⟨.empty, []⟩ ∧
      (plain.execute noteTakers .relay none (note.bind fun _ => note)).outcome ⟨.empty, []⟩ =
        (((plain.execute noteTakers .relay none note).outcome
          ⟨CallLog.empty.record "note(salt)", []⟩).shift 1).after [.dispatched noteFrame] := by
  constructor
  · rw [note_refused]
    exact (execute_bind (L := Language) plain ⟨[]⟩ .relay none note (fun _ => note)
      ⟨.empty, []⟩).1 _ _ _ (note_refused _)
  · obtain ⟨k, dispatches, hevents, -, -, hshift⟩ :=
      (execute_bind plain noteTakers .relay none note (fun _ => note) ⟨.empty, []⟩).2 _ _ _
        (note_outcome .empty)
    have hsplit : [.dispatched noteFrame] ++ [.completed 1] = dispatches ++ [.completed k] := hevents
    obtain ⟨hdispatches, hcompleted⟩ := List.append_inj' hsplit rfl
    cases hdispatches
    cases hcompleted
    exact hshift rfl note_only_ignoresIndex

end Engine

end Brigade
