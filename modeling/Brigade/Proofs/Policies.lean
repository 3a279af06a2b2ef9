import Brigade.Proofs.Lookup
import Brigade.Proofs.Supervision

/-! What the failure policies matter to: the children that steps supervise, each under the entry for its
own algebra. No other child, and no entry for another algebra, changes a run. -/

namespace Brigade

variable {L : Type} [Hierarchy L] {σ α β : Type}

namespace FailurePolicy

/-- The entries under which a supervised child runs once and its failure is that of the step. -/
def passing : List (Option FailurePolicy) :=
  [none, some .propagate, some (.retry 0), some (.retry 1)]

theorem of_mem_passing {entry : Option FailurePolicy} (h : entry ∈ passing) :
    (entry.getD .propagate).maxAttempts = 1 ∧ (entry.getD .propagate).recovers = false := by
  simp only [passing, List.mem_cons, List.not_mem_nil, or_false] at h
  rcases h with rfl | rfl | rfl | rfl <;> exact ⟨rfl, rfl⟩

theorem maxAttempts_of_mem {entry : Option FailurePolicy} (h : entry ∈ some .recover :: passing) :
    (entry.getD .propagate).maxAttempts = 1 := by
  rcases List.mem_cons.1 h with rfl | h
  · rfl
  · exact (of_mem_passing h).1

end FailurePolicy

namespace Supervision

/-- The entries are the same, or both pass failures on; where the step insists on a value, the entry
that recovers counts among those. -/
def Interchangeable (v : Supervision L) (entry entry' : Option FailurePolicy) : Prop :=
  entry = entry' ∨
    (entry ∈ FailurePolicy.passing ∧ entry' ∈ FailurePolicy.passing) ∨
    (v.Insists ∧ entry ∈ some .recover :: FailurePolicy.passing ∧
      entry' ∈ some .recover :: FailurePolicy.passing)

theorem Interchangeable.indifferent {v : Supervision L} {entry entry' : Option FailurePolicy}
    (h : v.Interchangeable entry entry') :
    v.Indifferent (entry.getD .propagate) (entry'.getD .propagate) := by
  rcases h with rfl | ⟨hentry, hentry'⟩ | ⟨hinsists, hentry, hentry'⟩
  · exact ⟨rfl, .inl rfl⟩
  · obtain ⟨hmax, hrecovers⟩ := FailurePolicy.of_mem_passing hentry
    obtain ⟨hmax', hrecovers'⟩ := FailurePolicy.of_mem_passing hentry'
    exact ⟨by rw [hmax, hmax'], .inl (by rw [hrecovers, hrecovers'])⟩
  · refine ⟨?_, .inr hinsists⟩
    rw [FailurePolicy.maxAttempts_of_mem hentry, FailurePolicy.maxAttempts_of_mem hentry']

end Supervision

namespace Plan

variable {l : L} {i : Interpreter σ (algebra l)} {children : ChildRunner L σ}
  {policyFor : String → FailurePolicy}

/-- A step that supervises a child for one attempt and takes the outcome for a result might as well
run the child. -/
theorem run_supervise_once {l' : L} (h : (policyFor (algebra l').name).maxAttempts = 1)
    (selector : Option String) (p : Program (algebra l') β) (next : β → Plan (algebra (L := L)) l α)
    (s : Progress σ) :
    (supervise l' selector p fun outcome => ofResult next outcome.result).run i children policyFor s =
      (child l' selector p next).run i children policyFor s := by
  rw [run_supervise_ofResult, FailurePolicy.supervise, h, superviseFrom_last (.inr rfl),
    verdict_result, run]
  rcases children l' selector p s with ⟨cause | v, t⟩ <;> rfl

/-- Every command of a child of the plan satisfies `P`, and every supervised child `Q`. -/
def Only (P : (l : L) → (algebra l).Command → Prop) (Q : Supervision L → Prop) :
    Plan (algebra (L := L)) l α → Prop
  | .answer _ | .fail _ => True
  | .call _ next => ∀ reply, (next reply).Only P Q
  | .child l' _ p next => p.Only (P l') ∧ ∀ v, (next v).Only P Q
  | .join l₁ p₁ l₂ p₂ next => p₁.Only (P l₁) ∧ p₂.Only (P l₂) ∧ ∀ v w, (next v w).Only P Q
  | .supervise l' _ p next =>
    Q ⟨l', next⟩ ∧ p.Only (P l') ∧ ∀ outcome, (next outcome).Only P Q

namespace Only

variable {P : (l : L) → (algebra l).Command → Prop} {Q : Supervision L → Prop}
  {plan : Plan (algebra (L := L)) l α}

theorem of_supervises (h : plan.Only P Q) {v : Supervision L} {s : Progress σ}
    (hv : plan.Supervises i children policyFor v s) : Q v := by
  induction plan generalizing s with
  | answer w => exact hv.elim
  | fail cause => exact hv.elim
  | call m next ih =>
    simp only [Supervises] at hv
    rcases hreply : i m s.state with ⟨failure | reply, state⟩ <;> simp only [hreply] at hv
    exact ih reply (h reply) hv
  | child l' selector p next ih =>
    simp only [Supervises] at hv
    rcases hrun : children l' selector p s with ⟨cause | w, t⟩ <;> simp only [hrun] at hv
    exact ih w (h.2 w) hv
  | join l₁ p₁ l₂ p₂ next ih =>
    simp only [Supervises] at hv
    rcases hrun₁ : children l₁ none p₁ s with ⟨left, t⟩
    rcases hrun₂ : children l₂ none p₂ t with ⟨right, u⟩
    simp only [hrun₁, hrun₂] at hv
    rcases left with cause | w
    · exact hv.elim
    · rcases right with cause | x
      · exact hv.elim
      · exact ih w x (h.2.2 w x) hv
  | supervise l' selector p next ih =>
    simp only [Supervises] at hv
    rcases hv with rfl | hv
    · exact h.1
    · rcases hrun : (policyFor (algebra l').name).supervise (children l' selector p) s with
        ⟨cause | outcome, t⟩ <;> simp only [hrun] at hv
      exact ih outcome (h.2.2 outcome) hv

theorem of_runs (h : plan.Only P Q) {level : Level L σ} {s : Progress σ}
    (hruns : plan.Runs i children policyFor level s) : level.program.Only (P level.language) := by
  induction plan generalizing s with
  | answer w => exact hruns.elim
  | fail cause => exact hruns.elim
  | call m next ih =>
    simp only [Runs] at hruns
    rcases hreply : i m s.state with ⟨failure | reply, state⟩ <;> simp only [hreply] at hruns
    exact ih reply (h reply) hruns
  | child l' selector p next ih =>
    simp only [Runs] at hruns
    rcases hruns with rfl | hruns
    · exact h.1
    · rcases hrun : children l' selector p s with ⟨cause | w, t⟩ <;> simp only [hrun] at hruns
      exact ih w (h.2 w) hruns
  | join l₁ p₁ l₂ p₂ next ih =>
    simp only [Runs] at hruns
    rcases hruns with rfl | rfl | hruns
    · exact h.1
    · exact h.2.1
    · rcases hrun₁ : children l₁ none p₁ s with ⟨left, t⟩
      rcases hrun₂ : children l₂ none p₂ t with ⟨right, u⟩
      simp only [hrun₁, hrun₂] at hruns
      rcases left with cause | w
      · exact hruns.elim
      · rcases right with cause | x
        · exact hruns.elim
        · exact ih w x (h.2.2 w x) hruns
  | supervise l' selector p next ih =>
    simp only [Runs] at hruns
    rcases hruns with ⟨t, -, rfl⟩ | hruns
    · exact h.2.1
    · rcases hrun : (policyFor (algebra l').name).supervise (children l' selector p) s with
        ⟨cause | outcome, t⟩ <;> simp only [hrun] at hruns
      exact ih outcome (h.2.2 outcome) hruns

end Only

end Plan

namespace Engine

variable [DecidableEq L]

/-- The level, or a level below it, has a step that supervises a child. -/
inductive Supervises (e : Engine σ) (registry : Registry L σ) :
    Nat → Nat → Level L σ → Supervision L → Prop
  | own {room depth : Nat} {level : Level L σ}
    {visit : Visit (algebra level.language) (Progress σ)}
    {i : Interpreter σ (algebra level.language)} {v : Supervision L}
    (hvisit : level.program.Visits (e.step registry (e.children registry room depth) depth
      level.language level.selector) visit 0 level.start)
    (hpermit : e.permit registry level.language level.selector visit.index visit.state.state = .ok i)
    (hsupervises : (Hierarchy.plan level.language visit.command (visit.frame depth)).Supervises i
      (e.children registry room depth) e.policyFor v
      (visit.state.record (.dispatched (visit.frame depth)))) :
    Supervises e registry room depth level v
  | child {room depth : Nat} {level inner : Level L σ}
    {visit : Visit (algebra level.language) (Progress σ)}
    {i : Interpreter σ (algebra level.language)} {v : Supervision L}
    (hvisit : level.program.Visits (e.step registry (e.children registry (room + 1) depth) depth
      level.language level.selector) visit 0 level.start)
    (hpermit : e.permit registry level.language level.selector visit.index visit.state.state = .ok i)
    (hruns : (Hierarchy.plan level.language visit.command (visit.frame depth)).Runs i
      (e.children registry (room + 1) depth) e.policyFor inner
      (visit.state.record (.dispatched (visit.frame depth))))
    (hinner : Supervises e registry room (depth + 1) inner v) :
    Supervises e registry (room + 1) depth level v

section

variable {e : Engine σ} {registry : Registry L σ}

theorem level_congr_policies {table : PolicyTable} {room depth : Nat} {level : Level L σ}
    (h : ∀ v : Supervision L, e.Supervises registry room depth level v →
      v.Indifferent (e.policyFor (algebra v.language).name)
        (policyFor { e with policies := table } (algebra v.language).name)) :
    Engine.level { e with policies := table } registry room depth level.language level.selector
        level.program level.start =
      e.level registry room depth level.language level.selector level.program level.start := by
  induction room generalizing depth level with
  | zero =>
    simp only [level_eq_levelFrom, levelFrom_eq_run]
    refine Program.run_congr _ 0 _ fun visit hvisit => step_congr rfl ?_
    rintro i _ hpermit rfl
    exact Plan.run_congr_policies _ (fun _ _ => rfl) fun v hv => h v (.own hvisit hpermit hv)
  | succ room ih =>
    simp only [level_eq_levelFrom, levelFrom_eq_run]
    refine Program.run_congr _ 0 _ fun visit hvisit => step_congr rfl ?_
    rintro i _ hpermit rfl
    refine Plan.run_congr_policies _ (fun inner hruns => ?_) fun v hv => h v (.own hvisit hpermit hv)
    have hinner := ih fun v hv => h v (.child hvisit hpermit hruns hv)
    simp only [children, LevelRunner.children, hinner]

theorem of_supervises {P : (l : L) → (algebra l).Command → Prop} {Q : Supervision L → Prop}
    (hP : ∀ l c frame, P l c → (Hierarchy.plan l c frame).Only P Q) {room depth : Nat}
    {level : Level L σ} (hlevel : level.program.Only (P level.language)) {v : Supervision L}
    (h : e.Supervises registry room depth level v) : Q v := by
  induction h with
  | own hvisit _ hsupervises =>
    exact (hP _ _ _ (Program.only_of_visits _ _ _ hlevel hvisit)).of_supervises hsupervises
  | child hvisit _ hruns _ ih =>
    exact ih ((hP _ _ _ (Program.only_of_visits _ _ _ hlevel hvisit)).of_runs hruns)

theorem execute_congr_policies {table : PolicyTable} {l : L} {selector : Option String}
    {p : Program (algebra l) β} {s : Progress σ}
    (h : ∀ v : Supervision L, e.Supervises registry e.settings.maxDepth.toNat 0 ⟨l, selector, p, s⟩ v →
      v.Interchangeable (e.policies.get? (algebra v.language).name)
        (table.get? (algebra v.language).name)) :
    Engine.execute { e with policies := table } registry l selector p s =
      e.execute registry l selector p s := by
  have hlevel : Engine.level { e with policies := table } registry _ 0 l selector p s =
    e.level registry _ 0 l selector p s := level_congr_policies fun v hv => (h v hv).indifferent
  simp only [execute, hlevel]

end

end Engine

/-- The commands of the kitchen that supervise nothing, and those of the languages below it. -/
def Language.unsupervised : (l : Language) → (algebra l).Command → Prop
  | .cooking, c => c ≠ CookingCommand.makeRandomMeal
  | .relay, _ => False
  | .probe, _ | .sandwich, _ | .pizza, _ => True

theorem Language.plan_unsupervised (l : Language) (c : (algebra l).Command) (frame : StepFrame)
    (h : l.unsupervised c) :
    (Hierarchy.plan l c frame).Only Language.unsupervised fun _ => False := by
  have hsandwich {β : Type} (p : Program sandwichAlgebra β) : p.Only Language.sandwich.unsupervised :=
    Program.only_of_forall (fun _ => trivial) p
  have hpizza {β : Type} (p : Program pizzaAlgebra β) : p.Only Language.pizza.unsupervised :=
    Program.only_of_forall (fun _ => trivial) p
  cases l with
  | relay => exact h.elim
  | probe => exact fun _ => trivial
  | sandwich => cases c <;> exact fun _ => trivial
  | pizza => cases c <;> exact fun _ => trivial
  | cooking =>
    cases c with
    | makeSandwich recipe => exact ⟨hsandwich recipe, fun _ => trivial⟩
    | makePizza maker recipe => exact ⟨hpizza recipe, fun _ => trivial⟩
    | makeCombo sandwich pizza => exact ⟨hsandwich sandwich, hpizza pizza, fun _ _ => trivial⟩
    | makeRandomMeal => exact absurd rfl h
    | serve meal => exact fun _ => trivial

/-- A run depends on the policies only through the entries for the algebras of the children that it
supervises, and there only up to entries that are interchangeable. Where the outcome is taken for a
result, a child under an entry for one attempt is as good as a plain child. -/
theorem Engine.execute_policies [DecidableEq L] (e : Engine σ) (table : PolicyTable) :
    let e' : Engine σ := { e with policies := table }
    (∀ (registry : Registry L σ) (l : L) (selector : Option String) (p : Program (algebra l) β)
      (s : Progress σ),
      (∀ v : Supervision L,
        e.Supervises registry e.settings.maxDepth.toNat 0 ⟨l, selector, p, s⟩ v →
          v.Interchangeable (e.policies.get? (algebra v.language).name)
            (table.get? (algebra v.language).name)) →
      e'.execute registry l selector p s = e.execute registry l selector p s) ∧
    (∀ (l l' : L) (i : Interpreter σ (algebra l)) (children : ChildRunner L σ)
      (selector : Option String) (p : Program (algebra l') β)
      (next : β → Plan (algebra (L := L)) l α) (s : Progress σ),
      e.policies.get? (algebra l').name ∈ some .recover :: FailurePolicy.passing →
        (Plan.supervise l' selector p fun outcome => Plan.ofResult next outcome.result).run i children
            e.policyFor s =
          (Plan.child l' selector p next).run i children e.policyFor s) ∧
    ∀ (registry : Registry Language σ) (selector : Option String) (s : Progress σ),
      (∀ p : Program sandwichAlgebra β, e'.execute registry .sandwich selector p s =
        e.execute registry .sandwich selector p s) ∧
      (∀ p : Program pizzaAlgebra β, e'.execute registry .pizza selector p s =
        e.execute registry .pizza selector p s) ∧
      ∀ p : Program cookingAlgebra β, p.Only (· ≠ CookingCommand.makeRandomMeal) →
        e'.execute registry .cooking selector p s = e.execute registry .cooking selector p s := by
  intro e'
  have hquiet {l : Language} (registry : Registry Language σ) (selector : Option String)
      (p : Program (algebra l) β) (hp : p.Only l.unsupervised) (s : Progress σ) :
      e'.execute registry l selector p s = e.execute registry l selector p s :=
    execute_congr_policies fun _ hv => (of_supervises Language.plan_unsupervised hp hv).elim
  refine ⟨fun registry l selector p s h => execute_congr_policies h,
    fun l l' i children selector p next s h => ?_, fun registry selector s => ⟨fun p => ?_, fun p => ?_,
      fun p hp => hquiet (l := .cooking) registry selector p hp s⟩⟩
  · exact Plan.run_supervise_once (FailurePolicy.maxAttempts_of_mem h) selector p next s
  · exact hquiet (l := .sandwich) registry selector p (Program.only_of_forall (fun _ => trivial) p) s
  · exact hquiet (l := .pizza) registry selector p (Program.only_of_forall (fun _ => trivial) p) s

theorem Language.plan_insist (env : Bindings) (p : ProbeScript) (frame : StepFrame) :
    Hierarchy.plan Language.relay (⟨env, .insist p⟩ : RelayCommand) frame =
      .supervise .probe none (p.program env) fun outcome => Plan.ofResult .answer outcome.result := by
  refine congrArg (Plan.supervise _ _ _) (funext fun outcome => ?_)
  cases outcome <;> rfl

namespace Engine

def recoversProbes : Engine ScriptedProbe :=
  ⟨{}, Table.empty.insert "probe" .recover, fun _ => false⟩

def insist : Program (algebra Language.relay) Int64 :=
  .lift (A := relayAlgebra) ⟨[], .insist (.leaf (.number 7))⟩

def sevenless : ScriptedProbe :=
  { ScriptedProbe.initial with failures := [(7, ⟨.unavailable "no sevens", none⟩)] }

def insisted : (l : Language) → (algebra l).Command → Prop
  | .relay, c => c = (⟨[], .insist (.leaf (.number 7))⟩ : RelayCommand)
  | .probe, _ => True
  | .sandwich, _ | .pizza, _ | .cooking, _ => False

theorem supervises_insist {room : Nat} {s : Progress ScriptedProbe} {v : Supervision Language}
    (h : recoversProbes.Supervises namedAndDefault room 0 ⟨.relay, none, insist, s⟩ v) :
    v.language = .probe ∧ v.Insists := by
  refine of_supervises (P := insisted) (Q := fun v => v.language = .probe ∧ v.Insists) ?_ ?_ h
  · rintro (_ | _ | _ | _ | _) c frame hc
    · exact fun _ => trivial
    · obtain rfl : c = _ := hc
      rw [Language.plan_insist]
      refine ⟨⟨rfl, .answer, rfl⟩, Program.only_of_forall (fun _ => trivial) _, ?_⟩
      rintro (v | error) <;> trivial
    all_goals exact hc.elim
  · simp only [insist, Program.lift, Program.Only, Bound.Only]
    exact ⟨rfl, trivial⟩

theorem execute_policies_insist :
    let table := (Table.empty.insert "probe" (.retry 1)).insert "relay" .recover
    let e' : Engine ScriptedProbe := { recoversProbes with policies := table }
    let o := (recoversProbes.execute namedAndDefault .relay none insist).outcome sevenless
    let serving : Program cookingAlgebra Served :=
      .lift (A := cookingAlgebra) (CookingCommand.serve (.unavailable "closed"))
    (e'.execute namedAndDefault .relay none insist).outcome sevenless = o ∧
      o.result = .error ⟨⟨0, 0, ⟨⟨"relay"⟩, "Insist", ""⟩⟩,
        .child ⟨1, 0, ⟨⟨"probe"⟩, "Emit", "7"⟩⟩ (.interpreter (.unavailable "no sevens"))⟩ ∧
      (∀ (i : Interpreter ScriptedProbe (algebra Language.relay))
        (children : ChildRunner Language ScriptedProbe) (p : ProbeScript) (frame : StepFrame)
        (s : Progress ScriptedProbe),
        (Hierarchy.plan Language.relay (⟨[], .insist p⟩ : RelayCommand) frame).run i children
            recoversProbes.policyFor s =
          Plan.run i children recoversProbes.policyFor
            (.child Language.probe none (p.program []) .answer) s) ∧
      ∀ (registry : Registry Language ScriptedProbe) (s : Progress ScriptedProbe),
        e'.execute registry .cooking none serving s =
          recoversProbes.execute registry .cooking none serving s := by
  intro table e' o serving
  obtain ⟨hcongr, -, -⟩ :=
    execute_policies (L := Language) (α := Unit) (β := Int64) recoversProbes table
  obtain ⟨-, honce, -⟩ :=
    execute_policies (L := Language) (α := Int64) (β := Int64) recoversProbes table
  obtain ⟨-, -, hkitchen⟩ :=
    execute_policies (L := Language) (α := Unit) (β := Served) recoversProbes table
  refine ⟨congrArg Outcome.of (hcongr namedAndDefault .relay none insist ⟨sevenless, []⟩ ?_), ?_,
    fun i children p frame s => ?_, fun registry s => (hkitchen registry none s).2.2 serving ?_⟩
  · intro v hv
    obtain ⟨hlanguage, hinsists⟩ := supervises_insist hv
    rw [hlanguage]
    exact .inr (.inr ⟨hinsists, by decide, by decide⟩)
  · have hdepth : recoversProbes.settings.maxDepth.toNat = 16 := rfl
    simp only [o]
    rw [execute_outcome, hdepth, levelFrom_eq_run, children_succ, children_succ]
    rfl
  · rw [Language.plan_insist]
    exact honce .relay .probe i children none (p.program []) .answer s (by decide)
  · simp [serving, Program.lift, Program.Only, Bound.Only]

end Engine

end Brigade
