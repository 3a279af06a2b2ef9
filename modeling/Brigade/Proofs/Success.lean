import Brigade.Proofs.Outcome

/-! Runs that succeed: which value a computation gives from a state, and which state it leaves, whatever
its observers heard before. There is one rule for each way in which steps, children and programs are put
together. -/

namespace Brigade

variable {σ ε α β : Type}

/-- From the state `s` the computation gives the value and leaves the state `t`. -/
def Run.Gives (r : Run σ ε α) (s : σ) (v : α) (t : σ) : Prop :=
  ∀ newest, ∃ later, r ⟨s, newest⟩ = (.ok v, ⟨t, later⟩)

/-- From the state `s` the program gives the value and leaves the state `t`, however many commands were
performed before. -/
def Program.Gives {A : Algebra} (perform : Performer A (Progress σ) ε) (p : Program A α) (s : σ) (v : α)
    (t : σ) : Prop :=
  ∀ index newest, ∃ count later, p.run perform index ⟨s, newest⟩ = (.ok (v, count), ⟨t, later⟩)

section

variable {s t u : σ} {v : α} {w : β}

theorem Run.Gives.supervise {child : Run σ FailureCause α} (h : child.Gives s v t)
    (policy : FailurePolicy) : Run.Gives (policy.supervise child) s (.completed v) t := by
  intro newest
  obtain ⟨later, hchild⟩ := h newest
  have hlast : again (child ⟨s, newest⟩).1 = false := by
    rw [hchild]
    rfl
  refine ⟨later, ?_⟩
  rw [FailurePolicy.supervise, superviseFrom_last (.inl hlast), hchild]
  rfl

namespace Program.Gives

variable {A : Algebra} {perform : Performer A (Progress σ) ε}

theorem bind {p : Program A α} {f : α → Program A β} (hp : p.Gives perform s v t)
    (hf : (f v).Gives perform t w u) : (p.bind f).Gives perform s w u := by
  intro index newest
  obtain ⟨count, later, hfirst⟩ := hp index newest
  obtain ⟨count', later', hrest⟩ := hf count later
  refine ⟨count', later', ?_⟩
  rw [run_bind, hfirst, proceed_ok, hrest]

theorem lift {c : A.Command} {v : A.Answer c} (h : ∀ index, Run.Gives (perform index c) s v t) :
    (Program.lift c).Gives perform s v t := by
  intro index newest
  obtain ⟨later, hcommand⟩ := h index newest
  refine ⟨index + 1, later, ?_⟩
  rw [Program.lift, run_step, hcommand]
  exact runBound_nil perform v (index + 1) _

end Program.Gives

end

variable {L : Type} [Hierarchy L]

theorem Plan.gives_call {l : L} {i : Interpreter σ (algebra l)} {children : ChildRunner L σ}
    {policyFor : String → FailurePolicy} {m : (algebra l).Method} {reply : (algebra l).Reply m}
    {next : (algebra l).Reply m → Plan (algebra (L := L)) l α} {s t u : σ} {v : α}
    (hcall : i m s = (.ok reply, t)) (hnext : Run.Gives ((next reply).run i children policyFor) t v u) :
    Run.Gives ((Plan.call m next).run i children policyFor) s v u := by
  intro newest
  obtain ⟨later, hrest⟩ := hnext newest
  refine ⟨later, ?_⟩
  simp only [run_call, Interpreter.run, hcall, hrest]

namespace Engine

variable [DecidableEq L] {e : Engine σ} {registry : Registry L σ} {l : L} {selector : Option String}
  {s t : σ}

theorem gives_lift {children : ChildRunner L σ} {depth : Nat} {c : (algebra l).Command}
    {v : (algebra l).Answer c} {i : Interpreter σ (algebra l)}
    (hpermit : ∀ index, e.permit registry l selector index s = .ok i)
    (hplan : ∀ frame, Run.Gives ((Hierarchy.plan l c frame).run i children e.policyFor) s v t) :
    (Program.lift c).Gives (e.step registry children depth l selector) s v t := by
  refine Program.Gives.lift fun index newest => ?_
  let frame : StepFrame := ⟨depth, index, (algebra l).describe c⟩
  obtain ⟨later, hrun⟩ := hplan frame (.dispatched frame :: newest)
  refine ⟨later, ?_⟩
  rw [step_of_permit (s := ⟨s, newest⟩) (hpermit index)]
  simp only [Progress.record]
  rw [hrun]
  rfl

theorem gives_children {room depth : Nat} {p : Program (algebra l) α} {v : α}
    (h : p.Gives (e.step registry (e.children registry room (depth + 1)) (depth + 1) l selector) s v t) :
    Run.Gives (e.children registry (room + 1) depth l selector p) s v t := by
  intro newest
  obtain ⟨count, later, hrun⟩ := h 0 newest
  refine ⟨later, ?_⟩
  simp only [children_succ, LevelRunner.children, hrun]

theorem execute_of_gives {p : Program (algebra l) α} {v : α}
    (h : p.Gives (e.step registry (e.children registry e.settings.maxDepth.toNat 0) 0 l selector) s v t) :
    ((e.execute registry l selector p).outcome s).result = .ok v ∧
      ((e.execute registry l selector p).outcome s).state = t := by
  obtain ⟨count, later, hrun⟩ := h 0 []
  rw [execute_outcome, levelFrom_eq_run, Run.outcome, hrun]
  exact ⟨rfl, rfl⟩

end Engine

end Brigade
