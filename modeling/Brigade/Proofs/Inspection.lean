import Brigade.Proofs.StepLimit

/-! Inspecting a program. What can be told of a program without running it agrees with its runs: a
finished program gives its value and dispatches nothing, whatever the engine and the registry, and any
other comes first to the command that it shows, which functions that are bound to it do not change. -/

namespace Brigade

variable {σ α β : Type}

namespace Program

variable {A : Algebra}

theorem exists_of_isDone {p : Program A α} (h : p.isDone = true) : ∃ v, p = .done v := by
  cases p with
  | done v => exact ⟨v, rfl⟩
  | step c bound => cases h

theorem exists_of_not_isDone {p : Program A α} (h : p.isDone = false) :
    ∃ c bound, p = .step c bound := by
  cases p with
  | done v => cases h
  | step c bound => exact ⟨c, bound, rfl⟩

theorem peek_bind {p : Program A α} (h : p.isDone = false) (f : α → Program A β) :
    (p.bind f).peek = p.peek := by
  obtain ⟨c, bound, rfl⟩ := exists_of_not_isDone h
  rfl

end Program

namespace Engine

variable {L : Type} [Hierarchy L] [DecidableEq L] {e : Engine σ} {registry : Registry L σ} {l : L}
  {selector : Option String} {s : σ}

theorem execute_done (v : α) : (e.execute registry l selector (.done v)).outcome s =
    ⟨.ok v, s, [.completed 0]⟩ := by
  rw [execute_outcome, levelFrom_eq_run, Run.outcome, Program.run_done]
  rfl

section

variable {c : (algebra l).Command} {bound : Bound (algebra l) ((algebra l).Answer c) α}

theorem execute_step_of_refused {cause : FailureCause}
    (h : e.permit registry l selector 0 s = .error cause) :
    let frame : StepFrame := ⟨0, 0, (algebra l).describe c⟩
    (e.execute registry l selector (.step c bound)).outcome s =
      ⟨.error ⟨frame, cause⟩, s, [.failed ⟨frame, cause⟩]⟩ := by
  intro frame
  have hstep : e.step registry (e.children registry e.settings.maxDepth.toNat 0) 0 l selector 0 c
      ⟨s, []⟩ = (.error ⟨frame, cause⟩, ⟨s, []⟩) := step_of_refused h
  rw [execute_outcome, levelFrom_eq_run, Run.outcome, Program.run_step_error hstep]
  rfl

theorem execute_step_of_permit {i : Interpreter σ (algebra l)}
    (h : e.permit registry l selector 0 s = .ok i) :
    ((e.execute registry l selector (.step c bound)).outcome s).events.head? =
      some (.dispatched ⟨0, 0, (algebra l).describe c⟩) := by
  let level : Level L σ := ⟨l, selector, .step c bound, ⟨s, []⟩⟩
  have hvisit : e.ComesTo registry e.settings.maxDepth.toNat 0 level ⟨0, c, ⟨s, []⟩⟩ := by
    simp only [ComesTo, level, Program.Visits, true_or]
  obtain ⟨later, hlater⟩ := hvisit.dispatched_prefix h
  obtain ⟨last, hevents, -⟩ := e.execute_events registry l selector (.step c bound) s
  have hlevel : ((e.level registry e.settings.maxDepth.toNat 0 l selector (.step c bound)).outcome
      s).events = .dispatched ⟨0, 0, (algebra l).describe c⟩ :: later := hlater.symm
  rw [hevents, hlevel]
  rfl

end

/-- What inspection tells of a program is what its runs show. A finished program gives the value that it
shows, with no command dispatched or counted, whether or not its language is served and the run cancelled.
Any other shows a command, the same whatever is bound to it. Its runs dispatch this command first, if they
are not cancelled and the language is served; and else they dispatch nothing and fail at this command, as
cancelled or as unbound. -/
theorem execute_inspected (e : Engine σ) (registry : Registry L σ) {l : L} (selector : Option String)
    (p : Program (algebra l) α) (s : σ) :
    let o := (e.execute registry l selector p).outcome s
    (p.isDone = true → ∃ v, p.value? = some v ∧ o = ⟨.ok v, s, [.completed 0]⟩) ∧
    (p.isDone = false → ∃ command, p.peek = some command ∧
      (∀ {β : Type} (f : α → Program (algebra l) β), (p.bind f).peek = p.peek) ∧
      (∀ {β : Type} (f : α → β), (p.map f).peek = p.peek) ∧
      (∀ {β : Type} (q : Program (algebra l) β), (p.andThen q).peek = p.peek) ∧
      let frame : StepFrame := ⟨0, 0, command⟩
      let refused (cause : FailureCause) : Outcome σ ExecutionError α :=
        ⟨.error ⟨frame, cause⟩, s, [.failed ⟨frame, cause⟩]⟩
      (o.events.head? = some (.dispatched frame) ↔
        e.cancelled s = false ∧ ∃ i, registry.resolve l selector = .ok i) ∧
      (o = refused .cancelled ↔ e.cancelled s = true) ∧
      (o = refused (.unbound ⟨(algebra l).id, selector⟩) ↔
        e.cancelled s = false ∧ ∀ i, registry.resolve l selector ≠ .ok i)) := by
  intro o
  constructor
  · intro hdone
    obtain ⟨v, rfl⟩ := Program.exists_of_isDone hdone
    exact ⟨v, rfl, execute_done v⟩
  · intro hdone
    obtain ⟨c, bound, rfl⟩ := Program.exists_of_not_isDone hdone
    refine ⟨(algebra l).describe c, rfl, Program.peek_bind hdone, fun f => Program.peek_bind hdone _,
      fun q => Program.peek_bind hdone _, ?_⟩
    intro frame refused
    have hhead (cause : FailureCause) : (refused cause).events.head? ≠ some (.dispatched frame) := by
      simp [refused]
    have hcause {cause cause' : FailureCause} (h : refused cause = refused cause') : cause = cause' := by
      simpa [refused] using h
    cases hcancelled : e.cancelled s with
    | true =>
      have ho : o = refused .cancelled := execute_step_of_refused (permit_of_cancelled hcancelled)
      rw [ho]
      refine ⟨iff_of_false (hhead _) (by simp), iff_of_true rfl rfl, iff_of_false ?_ (by simp)⟩
      intro h
      cases hcause h
    | false =>
      rcases hresolve : registry.resolve l selector with unbound | i
      · obtain rfl := Registry.resolve_eq_error hresolve
        have hpermit : e.permit registry l selector 0 s = .error (.unbound ⟨(algebra l).id, selector⟩) := by
          simp [permit, hcancelled, hresolve]
        have ho : o = refused (.unbound ⟨(algebra l).id, selector⟩) := execute_step_of_refused hpermit
        rw [ho]
        refine ⟨iff_of_false (hhead _) (by simp), iff_of_false ?_ (by simp), iff_of_true rfl (by simp)⟩
        intro h
        cases hcause h
      · have hfirst : o.events.head? = some (.dispatched frame) :=
          execute_step_of_permit (permit_of_resolve hcancelled e.settings.exhausted_zero hresolve)
        have hrefused (cause : FailureCause) : o ≠ refused cause := fun h => hhead cause (h ▸ hfirst)
        refine ⟨iff_of_true hfirst (by simp), iff_of_false (hrefused _) (by simp),
          iff_of_false (hrefused _) (by simp)⟩

def echoOne : Program (algebra Language.probe) Int64 := (Probe.emit 1).bind Probe.emit

def halted : Engine ScriptedProbe := ⟨{}, .empty, fun _ => true⟩

/-- A finished program gives its value even where nothing is bound and the run is cancelled; the echo shows
that it emits 1, which is what it first does, and where it is stopped. -/
theorem execute_inspected_echoOne :
    let served := (plain.execute probeOnly Language.probe none echoOne).outcome .initial
    let stopped := (halted.execute probeOnly Language.probe none echoOne).outcome .initial
    let frame : StepFrame := ⟨0, 0, probeAlgebra.describe (.emit 1)⟩
    (halted.execute .empty Language.probe none (.done 7 : Program probeAlgebra Nat)).outcome .initial =
        ⟨.ok 7, .initial, [.completed 0]⟩ ∧
      echoOne.isDone = false ∧ served.events.head? = some (.dispatched frame) ∧
      stopped = ⟨.error ⟨frame, .cancelled⟩, .initial, [.failed ⟨frame, .cancelled⟩]⟩ := by
  intro served stopped frame
  obtain ⟨_, ⟨⟩, hdone⟩ := (execute_inspected (l := Language.probe) halted .empty none
    (.done 7 : Program probeAlgebra Nat) .initial).1 rfl
  obtain ⟨_, ⟨⟩, -, -, -, hserved, -⟩ := (execute_inspected plain probeOnly none echoOne .initial).2 rfl
  obtain ⟨_, ⟨⟩, -, -, -, -, hstopped, -⟩ :=
    (execute_inspected halted probeOnly none echoOne .initial).2 rfl
  exact ⟨hdone, rfl, hserved.2 ⟨rfl, _, rfl⟩, hstopped.2 rfl⟩

end Engine

end Brigade
