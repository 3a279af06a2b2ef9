import Brigade.Proofs.Lookup

/-! The levels that a run enters: its own, and those that the plans of its steps run, and so on down. Two
engines run alike if they permit the same steps at each of these levels; how much room is left for
children matters at the lowest of them only, and there only if a step runs a child. -/

namespace Brigade

theorem Program.eq_of_visits_lift {A : Algebra} {σ ε : Type} {perform : Performer A σ ε}
    {visit : Visit A σ} {c : A.Command} {index : Nat} {s : σ}
    (h : (lift c).Visits perform visit index s) : visit = ⟨index, c, s⟩ := by
  simp only [lift, Visits, Bound.Visits] at h
  rcases h with rfl | h
  · rfl
  · rcases hrun : perform index c s with ⟨e | v, t⟩ <;> simp only [hrun] at h

variable {L : Type} [Hierarchy L] {σ β : Type}

theorem Plan.eq_of_runs_child {l l' : L} {i : Interpreter σ (algebra l)} {children : ChildRunner L σ}
    {policyFor : String → FailurePolicy} {selector : Option String} {p : Program (algebra l') β}
    {α : Type} {answer : β → α} {level : Level L σ} {s : Progress σ}
    (h : (child l' selector p fun v => .answer (answer v)).Runs i children policyFor level s) :
    level = ⟨l', selector, p, s⟩ := by
  simp only [Runs] at h
  rcases h with rfl | h
  · rfl
  · rcases hrun : children l' selector p s with ⟨cause | v, t⟩ <;> simp only [hrun] at h

namespace Engine

variable [DecidableEq L]

/-- A level at `depth`, with `room` levels of children below it at most, comes to the command. -/
def ComesTo (e : Engine σ) (registry : Registry L σ) (room depth : Nat) (level : Level L σ)
    (visit : Visit (algebra level.language) (Progress σ)) : Prop :=
  level.program.Visits (e.step registry (e.children registry room depth) depth level.language
    level.selector) visit 0 level.start

namespace ComesTo

variable {e : Engine σ} {registry : Registry L σ} {room depth : Nat} {level : Level L σ}
  {visit : Visit (algebra level.language) (Progress σ)}

theorem only (h : e.ComesTo registry room depth level visit)
    {P : (algebra level.language).Command → Prop} (hP : level.program.Only P) : P visit.command :=
  Program.only_of_visits _ _ _ hP h

theorem invariant {I : Nat → Progress σ → Prop}
    (h : e.ComesTo registry room depth level visit) (hstart : I 0 level.start)
    (hstep : ∀ visit v t, e.ComesTo registry room depth level visit → I visit.index visit.state →
      e.step registry (e.children registry room depth) depth level.language level.selector visit.index
        visit.command visit.state = (.ok v, t) → I (visit.index + 1) t) :
    I visit.index visit.state :=
  (Program.keeps_of_visits (E := fun _ _ => True) level.program 0 level.start hstart hstep
    fun _ _ _ _ _ _ => trivial).2 visit h

end ComesTo

/-- A step of the level runs the child. -/
def Descends (e : Engine σ) (registry : Registry L σ) (room depth : Nat) (level child : Level L σ) :
    Prop :=
  ∃ visit i, e.ComesTo registry room depth level visit ∧
    e.permit registry level.language level.selector visit.index visit.state.state = .ok i ∧
    (Hierarchy.plan level.language visit.command (visit.frame depth)).Runs i
      (e.children registry room depth) e.policyFor child
      (visit.state.record (.dispatched (visit.frame depth)))

/-- The run of the level is, or goes through, that of the inner one. -/
inductive Enters (e : Engine σ) (registry : Registry L σ) :
    Nat → Nat → Level L σ → Nat → Nat → Level L σ → Prop
  | self {room depth : Nat} {level : Level L σ} : Enters e registry room depth level room depth level
  | child {room depth room' depth' : Nat} {level child inner : Level L σ}
    (h : e.Descends registry (room + 1) depth level child)
    (hinner : Enters e registry room (depth + 1) child room' depth' inner) :
    Enters e registry (room + 1) depth level room' depth' inner

variable {e e' : Engine σ} {registry : Registry L σ} {level : Level L σ}

/-- A level is the same for two engines with the same policies if they permit the same steps of it and
run its children alike. -/
theorem level_congr_of_descends {room room' depth : Nat} (hpolicies : e'.policies = e.policies)
    (hpermit : ∀ visit, e.ComesTo registry room depth level visit →
      e'.permit registry level.language level.selector visit.index visit.state.state =
        e.permit registry level.language level.selector visit.index visit.state.state)
    (hchildren : ∀ child, e.Descends registry room depth level child →
      e'.children registry room' depth child.language child.selector child.program child.start =
        e.children registry room depth child.language child.selector child.program child.start) :
    e'.level registry room' depth level.language level.selector level.program level.start =
      e.level registry room depth level.language level.selector level.program level.start := by
  have hpolicyFor : e'.policyFor = e.policyFor := by
    funext name
    simp only [policyFor, hpolicies]
  simp only [level_eq_levelFrom, levelFrom_eq_run]
  refine Program.run_congr _ 0 _ fun visit hvisit => step_congr (hpermit visit hvisit) ?_
  rintro i _ hi rfl
  rw [hpolicyFor]
  exact Plan.run_congr _ fun child hruns => hchildren child ⟨visit, i, hvisit, hi, hruns⟩

/-- A level is the same for two engines with the same policies if they permit the same steps of every
level that is entered, and run the children of the lowest of these alike, where the second engine may
have more room. -/
theorem level_congr_of_enters {room depth more : Nat} (hpolicies : e'.policies = e.policies)
    (hpermit : ∀ room' depth' inner visit, e.Enters registry room depth level room' depth' inner →
      e.ComesTo registry room' depth' inner visit →
      e'.permit registry inner.language inner.selector visit.index visit.state.state =
        e.permit registry inner.language inner.selector visit.index visit.state.state)
    (hlowest : ∀ depth' inner child, e.Enters registry room depth level 0 depth' inner →
      e.Descends registry 0 depth' inner child →
      e'.children registry more depth' child.language child.selector child.program child.start =
        e.children registry 0 depth' child.language child.selector child.program child.start) :
    e'.level registry (more + room) depth level.language level.selector level.program level.start =
      e.level registry room depth level.language level.selector level.program level.start := by
  induction room generalizing depth level with
  | zero =>
    exact level_congr_of_descends hpolicies (fun visit => hpermit _ _ _ visit .self)
      fun child => hlowest _ _ child .self
  | succ room ih =>
    refine level_congr_of_descends hpolicies (fun visit => hpermit _ _ _ visit .self)
      fun child hchild => ?_
    have hinner : e'.level registry (more + room) (depth + 1) child.language child.selector
        child.program child.start = e.level registry room (depth + 1) child.language child.selector
        child.program child.start := by
      apply ih
      · intro room' depth' inner visit hinner
        exact hpermit room' depth' inner visit (.child hchild hinner)
      · intro depth' inner child' hinner
        exact hlowest depth' inner child' (.child hchild hinner)
    rw [← Nat.add_assoc]
    simp only [children, LevelRunner.children, hinner]

theorem execute_congr_of_enters {more : Nat} {l : L} {selector : Option String}
    {p : Program (algebra l) β} {s : Progress σ} (hpolicies : e'.policies = e.policies)
    (hmore : e'.settings.maxDepth.toNat = more + e.settings.maxDepth.toNat)
    (hpermit : ∀ room depth inner visit,
      e.Enters registry e.settings.maxDepth.toNat 0 ⟨l, selector, p, s⟩ room depth inner →
      e.ComesTo registry room depth inner visit →
      e'.permit registry inner.language inner.selector visit.index visit.state.state =
        e.permit registry inner.language inner.selector visit.index visit.state.state)
    (hlowest : ∀ depth inner child,
      e.Enters registry e.settings.maxDepth.toNat 0 ⟨l, selector, p, s⟩ 0 depth inner →
      e.Descends registry 0 depth inner child →
      e'.children registry more depth child.language child.selector child.program child.start =
        e.children registry 0 depth child.language child.selector child.program child.start) :
    e'.execute registry l selector p s = e.execute registry l selector p s := by
  have hlevel : e'.level registry (more + e.settings.maxDepth.toNat) 0 l selector p s =
      e.level registry e.settings.maxDepth.toNat 0 l selector p s :=
    level_congr_of_enters hpolicies hpermit hlowest
  simp only [execute, hmore, hlevel]

end Engine

end Brigade
