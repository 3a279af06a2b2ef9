import Brigade.Proofs.Entry

/-! The limit on the commands of a level. A level that runs no children is cut before the first command
over the limit, in the state in which the level without a limit comes to that command; a level that
keeps to the limit does not notice it, and neither does a run all of whose levels do. -/

namespace Brigade

variable {L : Type} [Hierarchy L] {σ α β : Type}

/-- The plan runs no child. -/
def Plan.Childless {l : L} : Plan (algebra (L := L)) l α → Prop
  | .answer _ | .fail _ => True
  | .call _ next => ∀ reply, (next reply).Childless
  | .child .. | .join .. | .supervise .. => False

namespace Plan.Childless

variable {l : L} {plan : Plan (algebra (L := L)) l α} {i : Interpreter σ (algebra l)}
  {children : ChildRunner L σ} {policyFor : String → FailurePolicy}

theorem not_runs (h : plan.Childless) {level : Level L σ} {s : Progress σ} :
    ¬ plan.Runs i children policyFor level s := by
  induction plan generalizing s with
  | answer | fail => exact id
  | call m next ih =>
    simp only [Runs]
    rcases i m s.state with ⟨failure | reply, state⟩
    · exact id
    · exact ih reply (h reply)
  | child | join | supervise => exact h.elim

theorem newest_run (h : plan.Childless) (s : Progress σ) :
    (plan.run i children policyFor s).2.newest = s.newest := by
  induction plan generalizing s with
  | answer | fail => rfl
  | call m next ih =>
    simp only [run]
    rcases i m s.state with ⟨failure | reply, state⟩
    · rfl
    · exact ih reply (h reply) { s with state }
  | child | join | supervise => exact h.elim

end Plan.Childless

/-- Carrying out the command runs no child. -/
def Childless (l : L) (c : (algebra l).Command) : Prop := ∀ frame, (Hierarchy.plan l c frame).Childless

theorem Language.childless {l : Language} (h : l ∈ [.probe, .sandwich, .pizza])
    (c : (algebra l).Command) : Childless l c := by
  simp only [List.mem_cons, List.not_mem_nil, or_false] at h
  rcases h with rfl | rfl | rfl
  · exact fun _ _ => trivial
  · cases c <;> exact fun _ _ => trivial
  · cases c <;> exact fun _ _ => trivial

namespace Engine

variable [DecidableEq L]

/-- The engine with a limit on the commands of a level; 0 is no limit. -/
def withMaxSteps (e : Engine σ) (limit : UInt64) : Engine σ :=
  { e with settings := { e.settings with maxSteps := limit } }

/-- How many commands of its own the level dispatches. -/
def dispatches (e : Engine σ) (registry : Registry L σ) (room depth : Nat) (level : Level L σ) : Nat :=
  (framesAt depth ((e.level registry room depth level.language level.selector level.program).outcome
    level.start.state).events).length

variable {e : Engine σ} {registry : Registry L σ} {room depth : Nat}

section

variable {children : ChildRunner L σ} {l : L} {selector : Option String} {index : Nat}
  {c : (algebra l).Command} {s : Progress σ}

theorem dispatched_prefix_step (hc : children.Confined (depth + 1)) {i : Interpreter σ (algebra l)}
    (hpermit : e.permit registry l selector index s.state = .ok i) :
    s.events ++ [.dispatched ⟨depth, index, (algebra l).describe c⟩] <+:
      (e.step registry children depth l selector index c s).2.events := by
  let frame : StepFrame := ⟨depth, index, (algebra l).describe c⟩
  have hplan := congrArg Outcome.events ((Plan.run_confined (i := i) hc e.policyFor
    (Hierarchy.plan l c frame)).outcome_of (s.record (.dispatched frame)))
  simp only [Outcome.of, Outcome.after, Progress.events_record] at hplan
  rw [step_of_permit hpermit]
  exact ⟨_, hplan.symm⟩

theorem events_prefix_step (hc : children.Confined (depth + 1)) :
    s.events <+: (e.step registry children depth l selector index c s).2.events := by
  rcases hpermit : e.permit registry l selector index s.state with cause | i
  · have hsame : s.events ++ [] = (e.step registry children depth l selector index c s).2.events := by
      rw [step_of_refused hpermit, List.append_nil]
    exact ⟨[], hsame⟩
  · exact (List.prefix_append _ _).trans (dispatched_prefix_step hc hpermit)

theorem newest_step (hc : Childless l c) {i : Interpreter σ (algebra l)}
    (hpermit : e.permit registry l selector index s.state = .ok i) :
    (e.step registry children depth l selector index c s).2.newest =
      .dispatched ⟨depth, index, (algebra l).describe c⟩ :: s.newest := by
  rw [step_of_permit hpermit]
  exact (hc _).newest_run _

end

namespace ComesTo

variable {level : Level L σ} {visit : Visit (algebra level.language) (Progress σ)}

theorem dispatched_prefix (h : e.ComesTo registry room depth level visit)
    {i : Interpreter σ (algebra level.language)}
    (hpermit : e.permit registry level.language level.selector visit.index visit.state.state = .ok i) :
    visit.state.events ++ [.dispatched (visit.frame depth)] <+:
      (e.level registry room depth level.language level.selector level.program level.start).2.events := by
  have hconfined := e.children_confined registry room depth
  rw [level_eq_levelFrom, levelFrom_eq_run]
  exact Program.run_of_visits
    (J := fun s => visit.state.events ++ [.dispatched (visit.frame depth)] <+: s.events)
    (fun index c s hs => hs.trans (events_prefix_step hconfined))
    (dispatched_prefix_step hconfined hpermit) _ 0 _ h

theorem resolve_eq_ok (h : e.ComesTo registry room depth level visit) (hpos : 0 < visit.index) :
    ∃ i, registry.resolve level.language level.selector = .ok i := by
  refine h.invariant
    (I := fun index _ => 0 < index → ∃ i, registry.resolve level.language level.selector = .ok i)
    (fun hzero => absurd hzero (Nat.lt_irrefl 0)) (fun visit v t _ _ hstep _ => ?_) hpos
  obtain ⟨i, hpermit, -⟩ := step_eq_ok hstep
  exact ⟨i, (permit_eq_ok hpermit).2.2⟩

theorem length_framesAt (h : e.ComesTo registry room depth level visit) :
    (framesAt depth visit.state.events).length =
      (framesAt depth level.start.events).length + visit.index := by
  refine h.invariant (I := fun index s => (framesAt depth s.events).length =
    (framesAt depth level.start.events).length + index) rfl fun visit v t _ hvisit hstep => ?_
  obtain ⟨i, hpermit, -⟩ := step_eq_ok hstep
  have hframes := step_framesAt (c := visit.command) (e.children_confined registry room depth) hpermit
  rw [hstep] at hframes
  rw [hframes, List.length_append, hvisit, List.length_singleton, Nat.add_assoc]

theorem index_lt_dispatches (h : e.ComesTo registry room depth level visit)
    {i : Interpreter σ (algebra level.language)}
    (hpermit : e.permit registry level.language level.selector visit.index visit.state.state = .ok i) :
    visit.index < e.dispatches registry room depth level := by
  have hall := (h.dispatched_prefix hpermit).filterMap (Event.frameAt? depth) |>.length_le
  have hevents := congrArg Outcome.events
    ((e.level_confined registry room depth level.language level.selector level.program).outcome_of
      level.start)
  simp only [Outcome.of, Outcome.after] at hevents
  have hlength := h.length_framesAt
  have hframe : framesAt depth [.dispatched (visit.frame depth)] = [visit.frame depth] := by
    simp [framesAt, Event.frameAt?, Visit.frame]
  change (framesAt depth _).length ≤ (framesAt depth _).length at hall
  simp only [hevents, framesAt_append, List.length_append, hframe, hlength, List.length_singleton] at hall
  rw [dispatches]
  omega

end ComesTo

section

variable {limit : UInt64}

theorem toNat_pos (hlimit : limit ≠ 0) : 0 < limit.toNat :=
  Nat.pos_of_ne_zero fun hzero => hlimit (UInt64.toNat_inj.1 hzero)

theorem exhausted_withMaxSteps (hlimit : limit ≠ 0) (index : Nat) :
    (e.withMaxSteps limit).settings.exhausted index = true ↔ limit.toNat ≤ index := by
  rw [EngineSettings.exhausted, Bool.and_eq_true, decide_eq_true_iff, decide_eq_true_iff]
  exact ⟨And.right, fun hover => ⟨toNat_pos hlimit, hover⟩⟩

theorem lt_of_permit (hlimit : limit ≠ 0) {l : L} {selector : Option String} {index : Nat} {state : σ}
    {i : Interpreter σ (algebra l)}
    (hpermit : (e.withMaxSteps limit).permit registry l selector index state = .ok i) :
    index < limit.toNat := by
  have hwithin := (permit_eq_ok hpermit).2.1
  by_contra hover
  rw [(exhausted_withMaxSteps hlimit index).2 (Nat.le_of_not_lt hover)] at hwithin
  cases hwithin

/-- Wherever a level without a limit comes to a command, the limit permits the same, or the command is
over the limit and would be permitted without it. -/
theorem permit_withMaxSteps (hlimit : limit ≠ 0) {level : Level L σ}
    {visit : Visit (algebra level.language) (Progress σ)}
    (h : (e.withMaxSteps 0).ComesTo registry room depth level visit) :
    let permits (e : Engine σ) :=
      e.permit registry level.language level.selector visit.index visit.state.state
    permits (e.withMaxSteps limit) = permits (e.withMaxSteps 0) ∨
      limit.toNat ≤ visit.index ∧ (∃ i, permits (e.withMaxSteps 0) = .ok i) ∧
        permits (e.withMaxSteps limit) = .error (.stepLimit limit.toNat) := by
  intro permits
  have hexhausted := exhausted_withMaxSteps (e := e) hlimit visit.index
  cases hcancelled : e.cancelled visit.state.state with
  | true =>
    have hrefused (limit : UInt64) : permits (e.withMaxSteps limit) = .error .cancelled :=
      permit_of_cancelled hcancelled
    exact .inl ((hrefused limit).trans (hrefused 0).symm)
  | false =>
    by_cases hover : limit.toNat ≤ visit.index
    · obtain ⟨i, hresolve⟩ := h.resolve_eq_ok (Nat.lt_of_lt_of_le (toNat_pos hlimit) hover)
      exact .inr ⟨hover, ⟨i, permit_of_resolve (e := e.withMaxSteps 0) hcancelled rfl hresolve⟩,
        permit_of_exhausted hcancelled (hexhausted.2 hover)⟩
    · have hwithin : (e.withMaxSteps limit).settings.exhausted visit.index = false :=
        Bool.eq_false_iff.2 fun h => hover (hexhausted.1 h)
      refine .inl ?_
      simp only [permits, permit, hwithin]
      rfl

theorem step_withMaxSteps (hlimit : limit ≠ 0) {level : Level L σ}
    {visit : Visit (algebra level.language) (Progress σ)} (hc : Childless level.language visit.command)
    (h : (e.withMaxSteps 0).ComesTo registry room depth level visit) :
    let step (e : Engine σ) := e.step registry (e.children registry room depth) depth level.language
      level.selector visit.index visit.command visit.state
    step (e.withMaxSteps limit) = step (e.withMaxSteps 0) ∨
      limit.toNat ≤ visit.index ∧
        (∃ i, (e.withMaxSteps 0).permit registry level.language level.selector visit.index
          visit.state.state = .ok i) ∧
        step (e.withMaxSteps limit) =
          (.error ⟨visit.frame depth, .stepLimit limit.toNat⟩, visit.state) := by
  intro step
  rcases permit_withMaxSteps hlimit h with hsame | ⟨hover, hpermit, hstop⟩
  · exact .inl (step_congr hsame fun i frame _ _ =>
      Plan.run_congr _ fun child hruns => ((hc frame).not_runs hruns).elim)
  · exact .inr ⟨hover, hpermit, step_of_refused hstop⟩

theorem dispatches_le_length_events (level : Level L σ) : e.dispatches registry room depth level ≤
    ((e.level registry room depth level.language level.selector level.program).outcome
      level.start.state).events.length := List.length_filterMap_le _ _

variable {l : L} {p : Program (algebra l) β}

/-- A level without children, under a limit, has one event for each command, and no more of either than
the limit allows. -/
theorem length_newest_le (e : Engine σ) (registry : Registry L σ) (hlimit : limit ≠ 0)
    (room depth : Nat) (selector : Option String) (hp : p.Only (Childless l)) (s : σ) :
    let bounded := e.withMaxSteps limit
    (bounded.level registry room depth l selector p ⟨s, []⟩).2.newest.length ≤ limit.toNat ∧
      ∀ visit, bounded.ComesTo registry room depth ⟨l, selector, p, ⟨s, []⟩⟩ visit →
        visit.state.newest.length = visit.index ∧ visit.index ≤ limit.toNat := by
  intro bounded
  let perform := bounded.step registry (bounded.children registry room depth) depth l selector
  have hnewest (visit : Visit (algebra l) (Progress σ))
      (hvisit : p.Visits perform visit 0 ⟨s, []⟩)
      (hlength : visit.state.newest.length = visit.index) {i : Interpreter σ (algebra l)}
      (hpermit : bounded.permit registry l selector visit.index visit.state.state = .ok i) :
      (perform visit.index visit.command visit.state).2.newest.length = visit.index + 1 := by
    have hchildless : Childless l visit.command := Program.only_of_visits p 0 _ hp hvisit
    simp only [perform, newest_step hchildless hpermit, List.length_cons, hlength]
  have hok : ∀ visit v t, p.Visits perform visit 0 ⟨s, []⟩ →
      visit.state.newest.length = visit.index ∧ visit.index ≤ limit.toNat →
      perform visit.index visit.command visit.state = (.ok v, t) →
      t.newest.length = visit.index + 1 ∧ visit.index + 1 ≤ limit.toNat := by
    rintro visit v t hvisit ⟨hlength, -⟩ hstep
    obtain ⟨i, hpermit, -⟩ := step_eq_ok hstep
    have hnext := hnewest visit hvisit hlength hpermit
    rw [hstep] at hnext
    exact ⟨hnext, lt_of_permit hlimit hpermit⟩
  have herror : ∀ visit error t, p.Visits perform visit 0 ⟨s, []⟩ →
      visit.state.newest.length = visit.index ∧ visit.index ≤ limit.toNat →
      perform visit.index visit.command visit.state = (.error error, t) →
      t.newest.length ≤ limit.toNat := by
    rintro visit error t hvisit ⟨hlength, hle⟩ hstep
    obtain ⟨-, ⟨-, rfl⟩ | ⟨i, hpermit, -⟩⟩ := step_eq_error hstep
    · rwa [hlength]
    · have hnext := hnewest visit hvisit hlength hpermit
      rw [hstep] at hnext
      rw [hnext]
      exact lt_of_permit hlimit hpermit
  have hkeeps := Program.keeps_of_visits
    (I := fun index (t : Progress σ) => t.newest.length = index ∧ index ≤ limit.toNat)
    (E := fun _ t => t.newest.length ≤ limit.toNat) p 0 ⟨s, []⟩ ⟨rfl, Nat.zero_le _⟩ hok herror
  refine ⟨?_, hkeeps.2⟩
  have hend := hkeeps.1
  rw [level_eq_levelFrom, levelFrom_eq_run]
  change (p.run perform 0 ⟨s, []⟩).2.newest.length ≤ limit.toNat
  rcases hrun : p.run perform 0 ⟨s, []⟩ with ⟨error | ⟨v, count⟩, t⟩ <;> rw [hrun] at hend
  · exact hend
  · exact hend.1.trans_le hend.2

/-- A level without children that keeps to the limit does not notice it. One that does not is cut before
the first command over the limit: there it fails, with the events up to the command and in the state in
which the level without a limit comes to it. -/
theorem level_withMaxSteps (e : Engine σ) (registry : Registry L σ) (hlimit : limit ≠ 0)
    (room depth : Nat) (selector : Option String) (hp : p.Only (Childless l)) (s : σ) :
    let free := e.withMaxSteps 0
    let count := free.dispatches registry room depth ⟨l, selector, p, ⟨s, []⟩⟩
    let o := (free.level registry room depth l selector p).outcome s
    let o' := ((e.withMaxSteps limit).level registry room depth l selector p).outcome s
    (count ≤ limit.toNat → o' = o) ∧
    (limit.toNat < count → ∃ c t,
      free.ComesTo registry room depth ⟨l, selector, p, ⟨s, []⟩⟩ ⟨limit.toNat, c, t⟩ ∧
      t.events = o.events.take limit.toNat ∧
      o' = ⟨.error ⟨⟨depth, limit.toNat, (algebra l).describe c⟩, .stepLimit limit.toNat⟩, t.state,
        t.events⟩) := by
  intro free count o o'
  let level : Level L σ := ⟨l, selector, p, ⟨s, []⟩⟩
  let perform (e : Engine σ) : Performer (algebra l) (Progress σ) ExecutionError :=
    e.step registry (e.children registry room depth) depth l selector
  have hrun (e : Engine σ) : e.level registry room depth l selector p = p.run (perform e) 0 := by
    rw [level_eq_levelFrom, levelFrom_eq_run]
  obtain ⟨hlength, hvisits⟩ := e.length_newest_le registry hlimit room depth selector hp s
  have hstep (visit : Visit (algebra l) (Progress σ)) (hvisit : p.Visits (perform free) visit 0 ⟨s, []⟩) :
      perform (e.withMaxSteps limit) visit.index visit.command visit.state =
        perform free visit.index visit.command visit.state ∨
      limit.toNat ≤ visit.index ∧
        (∃ i, free.permit registry l selector visit.index visit.state.state = .ok i) ∧
        perform (e.withMaxSteps limit) visit.index visit.command visit.state =
          (.error ⟨visit.frame depth, .stepLimit limit.toNat⟩, visit.state) := by
    have hcomes : free.ComesTo registry room depth level visit := hvisit
    exact step_withMaxSteps hlimit (hcomes.only hp) hcomes
  -- either the limit is nowhere noticed, or there is a first command at which it is; that both levels come
  -- to it, and the number of events is its index, says that it is the command over the limit
  rcases Program.run_eq_or_stops p 0 ⟨s, []⟩ fun visit hvisit =>
      (hstep visit hvisit).imp id fun ⟨_, _, hstop⟩ => ⟨_, _, hstop⟩ with
    hsame | ⟨visit, error, t, hfree, hbounded, hne, hstop, hcut⟩
  · have hsame : o' = o := by
      simp only [o', o, Run.outcome, hrun]
      exact congrArg Outcome.of hsame
    refine ⟨fun _ => hsame, fun hover => ?_⟩
    have hcount : count ≤ o.events.length := free.dispatches_le_length_events level
    have hlength : o.events.length ≤ limit.toNat := by
      rw [← hsame]
      exact List.length_reverse.trans_le hlength
    omega
  · obtain ⟨hover, ⟨i, hpermit⟩, hstopped⟩ := (hstep visit hfree).resolve_left hne
    have hcomes : free.ComesTo registry room depth level visit := hfree
    have hlt : visit.index < count := hcomes.index_lt_dispatches hpermit
    obtain ⟨hvisited, hle⟩ := hvisits visit hbounded
    have hindex : visit.index = limit.toNat := Nat.le_antisymm hle hover
    have hevents : visit.state.events <+: o.events :=
      (List.prefix_append _ _).trans (hcomes.dispatched_prefix hpermit)
    have hlength : visit.state.events.length = limit.toNat := by
      rw [Progress.events, List.length_reverse, hvisited, hindex]
    refine ⟨fun hwithin => by omega, fun _ => ⟨visit.command, visit.state, ?_, ?_, ?_⟩⟩
    · rw [← hindex]
      exact hcomes
    · rw [← hlength]
      exact List.prefix_iff_eq_take.1 hevents
    · have hfails : (error, t) = (⟨visit.frame depth, .stepLimit limit.toNat⟩, visit.state) := by
        rw [hstop] at hstopped
        cases hstopped
        rfl
      cases hfails
      simp only [o', Run.outcome, hrun, hcut, Visit.frame, hindex]
      rfl

end

/-- The limit on the commands of a level cuts a level without children before the first command over the
limit, and is otherwise not noticed: not by such a level that keeps to the limit, and not by a run all of
whose levels do. The commands of the probe, the sandwich and the pizza language have no children. -/
theorem execute_withMaxSteps (e : Engine σ) {limit : UInt64} (hlimit : limit ≠ 0) :
    let free := e.withMaxSteps 0
    let bounded := e.withMaxSteps limit
    (∀ (registry : Registry L σ) (room depth : Nat) (l : L) (selector : Option String)
      (p : Program (algebra l) β) (s : σ), p.Only (Childless l) →
      let count := free.dispatches registry room depth ⟨l, selector, p, ⟨s, []⟩⟩
      let o := (free.level registry room depth l selector p).outcome s
      let o' := (bounded.level registry room depth l selector p).outcome s
      (count ≤ limit.toNat → o' = o) ∧
      (limit.toNat < count → ∃ c t,
        free.ComesTo registry room depth ⟨l, selector, p, ⟨s, []⟩⟩ ⟨limit.toNat, c, t⟩ ∧
        t.events = o.events.take limit.toNat ∧
        o' = ⟨.error ⟨⟨depth, limit.toNat, (algebra l).describe c⟩, .stepLimit limit.toNat⟩, t.state,
          t.events⟩)) ∧
    (∀ l ∈ [Language.probe, .sandwich, .pizza], ∀ p : Program (algebra l) β, p.Only (Childless l)) ∧
    ∀ (registry : Registry L σ) (l : L) (selector : Option String) (p : Program (algebra l) β)
      (s : Progress σ),
      (∀ room depth level,
        free.Enters registry e.settings.maxDepth.toNat 0 ⟨l, selector, p, s⟩ room depth level →
          free.dispatches registry room depth level ≤ limit.toNat) →
      bounded.execute registry l selector p s = free.execute registry l selector p s := by
  intro free bounded
  refine ⟨fun registry room depth l selector p s hp =>
      e.level_withMaxSteps registry hlimit room depth selector hp s,
    fun l hl p => Program.only_of_forall (Language.childless hl) p,
    fun registry l selector p s hwithin => ?_⟩
  have hpolicies : bounded.policies = free.policies := rfl
  have hdepth : bounded.settings.maxDepth.toNat = 0 + free.settings.maxDepth.toNat :=
    (Nat.zero_add _).symm
  apply execute_congr_of_enters hpolicies hdepth
  · intro room depth level visit hentry hvisit
    refine (permit_withMaxSteps hlimit hvisit).resolve_right ?_
    rintro ⟨hover, ⟨i, hpermit⟩, -⟩
    have hlt := hvisit.index_lt_dispatches hpermit
    have hle := hwithin room depth level hentry
    omega
  · exact fun _ _ _ _ _ => rfl

def countToThree : ProbeScript :=
  .andThen (.leaf (.number 1)) (.andThen (.leaf (.number 2)) (.leaf (.number 3)))

def forwardCount : Program (algebra Language.relay) Int64 :=
  .lift (A := relayAlgebra) ⟨[], .forward none countToThree⟩

theorem dispatches_forwardCount {room room' depth : Nat} {level : Level Language ScriptedProbe}
    (h : (plain.withMaxSteps 0).Enters probeOnly (room + 1) 0
      ⟨.relay, none, forwardCount, ⟨.initial, []⟩⟩ room' depth level) :
    (plain.withMaxSteps 0).dispatches probeOnly room' depth level ≤ 3 := by
  cases h with
  | self =>
    have hself : (plain.withMaxSteps 0).dispatches probeOnly (room + 1) 0
        ⟨.relay, none, forwardCount, ⟨.initial, []⟩⟩ = 1 := by
      simp only [dispatches, level_eq_levelFrom, levelFrom_eq_run, children_succ]
      rfl
    exact hself.trans_le (by decide)
  | child h hinner =>
    obtain ⟨visit, i, hvisit, -, hruns⟩ := h
    obtain rfl := Program.eq_of_visits_lift hvisit
    obtain rfl := Plan.eq_of_runs_child (l := Language.relay) hruns
    cases hinner with
    | self =>
      let count : Program (algebra Language.probe) Int64 := countToThree.program []
      have hchild (newest : List Event) : (plain.withMaxSteps 0).dispatches probeOnly room 1
          ⟨.probe, none, count, ⟨.initial, newest⟩⟩ = 3 := by
        simp only [dispatches, level_eq_levelFrom, levelFrom_eq_run]
        rfl
      exact (hchild _).le
    | child h hinner =>
      obtain ⟨visit, i, -, -, hruns⟩ := h
      exact ((Language.childless (by decide) visit.command _).not_runs hruns).elim

theorem execute_withMaxSteps_countToThree :
    let count : Program (algebra Language.probe) Int64 := countToThree.program []
    let o (limit : UInt64) :=
      ((plain.withMaxSteps limit).level probeOnly 0 5 .probe none count).outcome .initial
    (∃ c, (o 2).result = .error ⟨⟨5, 2, probeAlgebra.describe c⟩, .stepLimit 2⟩) ∧
      (o 2).events = (o 0).events.take 2 ∧ o 3 = o 0 ∧
      (plain.withMaxSteps 3).execute probeOnly .relay none forwardCount ⟨.initial, []⟩ =
        (plain.withMaxSteps 0).execute probeOnly .relay none forwardCount ⟨.initial, []⟩ := by
  intro count o
  have hcount : (plain.withMaxSteps 0).dispatches probeOnly 0 5
      ⟨.probe, none, count, ⟨.initial, []⟩⟩ = 3 := by
    simp only [dispatches, level_eq_levelFrom, levelFrom_eq_run]
    rfl
  obtain ⟨hlevels, hchildless, -⟩ := execute_withMaxSteps (L := Language) (β := Int64) plain
    (show (2 : UInt64) ≠ 0 by decide)
  have hp := hchildless .probe (by decide) count
  obtain ⟨-, hcut⟩ := hlevels probeOnly 0 5 .probe none count .initial hp
  obtain ⟨hlevels, -, hruns⟩ := execute_withMaxSteps (L := Language) (β := Int64) plain
    (show (3 : UInt64) ≠ 0 by decide)
  obtain ⟨hkept, -⟩ := hlevels probeOnly 0 5 .probe none count .initial hp
  obtain ⟨c, t, -, hevents, ho⟩ := hcut (by rw [hcount]; decide)
  refine ⟨⟨c, congrArg Outcome.result ho⟩, (congrArg Outcome.events ho).trans hevents,
    hkept (by rw [hcount]; decide), hruns probeOnly .relay none forwardCount ⟨.initial, []⟩ ?_⟩
  intro room depth level hentry
  exact dispatches_forwardCount hentry

end Engine

end Brigade
