import Brigade.Proofs.History
import Brigade.Proofs.Supervision

/-! Cancellation. A step is dispatched only while the flag is not set, so once the flag is set and
stays so, a run dispatches nothing more: not at the level where it was set, not at a level around it,
not in a half of a join that is yet to run, and not after a supervised child failed. -/

namespace Brigade

variable {L : Type} [Hierarchy L] {σ β : Type}

namespace Engine

/-- No call among the acts finds the flag set and leaves it cleared. -/
def KeepsFlag (e : Engine σ) (acts : History L σ) : Prop :=
  ∀ l selector method before after, Act.called l selector method before after ∈ acts →
    e.cancelled before = true → e.cancelled after = true

theorem KeepsFlag.of_cons {e : Engine σ} {act : Act L σ} {acts : History L σ}
    (h : e.KeepsFlag (act :: acts)) : e.KeepsFlag acts :=
  fun l selector method before after hmem => h l selector method before after (.tail act hmem)

variable [DecidableEq L]

/-- Acts that start with the flag set, and keep it, are seen by no observer. -/
theorem Leads.unseen {e : Engine σ} {registry : Registry L σ} {s t : Progress σ} {acts : History L σ}
    (h : e.Leads registry s acts t) (hs : e.cancelled s.state = true) (hkeeps : e.KeepsFlag acts) :
    acts.filterMap Act.event? = [] := by
  induction h with
  | nil s => rfl
  | reached l selector frame _ ih =>
    rw [List.filterMap_cons_none rfl]
    exact ih hs hkeeps.of_cons
  | dispatched l selector frame i hpermit _ _ =>
    -- The flag is looked at first, so no step is dispatched here.
    rw [permit_of_cancelled hs] at hpermit
    cases hpermit
  | called l selector method i hresolve _ ih =>
    have hafter := hkeeps l selector method _ _ (.head _) hs
    rw [List.filterMap_cons_none rfl]
    exact ih hafter hkeeps.of_cons

theorem level_of_cancelled (e : Engine σ) (registry : Registry L σ) (room depth : Nat) (l : L)
    (selector : Option String) (p : Program (algebra l) β) {s : Progress σ}
    (hs : e.cancelled s.state = true) : (e.level registry room depth l selector p s).2 = s := by
  rw [level_eq_levelFrom, levelFrom_eq_run]
  refine Program.run_invariant (J := fun t => t = s) ?_ p 0 rfl
  rintro index c t rfl
  rw [step_eq, permit_of_cancelled hs]

theorem children_of_cancelled (e : Engine σ) (registry : Registry L σ) (room depth : Nat) (l : L)
    (selector : Option String) (p : Program (algebra l) β) {s : Progress σ}
    (hs : e.cancelled s.state = true) : (e.children registry room depth l selector p s).2 = s := by
  cases room with
  | zero => rfl
  | succ room =>
    rw [children, children_snd]
    exact e.level_of_cancelled registry room (depth + 1) l selector p hs

theorem superviseChild_cancelled (e : Engine σ) (registry : Registry L σ) (room depth : Nat) {l : L}
    (i : Interpreter σ (algebra l)) (l' : L) (selector : Option String)
    (p : Program (algebra l') β) (s : σ) :
    let child := e.children registry room depth l' selector p
    let o := (e.superviseChild registry room depth i l' selector p).outcome s
    ∃ j, o.state = (attempt child s j).state ∧ o.events = attemptEvents child s (j + 1) ∧
      (∀ n < j, ∀ cause, (attempt child s n).result = .error cause → cause.root ≠ .cancelled) ∧
      ∀ cause, (attempt child s j).result = .error cause → cause.root = .cancelled →
        o.result = .error cause := by
  intro child o
  obtain ⟨j, hj, ho⟩ := e.superviseChild_outcome registry room depth i l' selector p s
  refine ⟨j, by simp [o, ho, child], by simp [o, ho, child], ?_, ?_⟩
  · intro n hn cause hcause hroot
    have hsettled : Settled (attempt child s n).result := by
      rw [hcause]
      exact .inl hroot
    exact absurd (hj.2 (.inl hsettled)) (Nat.not_le.2 hn)
  · intro cause hcause hroot
    have hverdict : o.result = verdict (e.policyFor (algebra l').name).recovers
        (attempt child s j).result := by simp [o, ho, child]
    rw [hverdict, hcause, verdict_eq_error_iff]
    refine ⟨rfl, ?_⟩
    rintro ⟨-, error, rfl, hcancelled⟩
    exact (error.not_isCancelled_iff.1 hcancelled) hroot

theorem history_leads_execute (e : Engine σ) (registry : Registry L σ) (l : L)
    (selector : Option String) (p : Program (algebra l) β) (s : σ) :
    let acts := e.history registry e.settings.maxDepth.toNat 0 l selector p ⟨s, []⟩
    let o := (e.execute registry l selector p).outcome s
    ∃ t last, e.Leads registry ⟨s, []⟩ acts t ∧ t.state = o.state ∧
      o.events = acts.filterMap Act.event? ++ [last] ∧ ∀ frame, last ≠ .dispatched frame := by
  intro acts o
  have hleads := e.history_leads registry e.settings.maxDepth.toNat 0 l selector p ⟨s, []⟩
  have hevents := hleads.events
  simp only [o, execute_outcome, Run.outcome, ← level_eq_levelFrom]
  rcases hlevel : e.level registry e.settings.maxDepth.toNat 0 l selector p ⟨s, []⟩ with
    ⟨error | ⟨v, steps⟩, t⟩
  all_goals
    rw [hlevel] at hleads hevents
    have hseen : t.events = acts.filterMap Act.event? := hevents
    simp only [Outcome.of, Outcome.reported, hseen]
  · exact ⟨t, .failed error, hleads, rfl, rfl, by simp⟩
  · exact ⟨t, .completed steps, hleads, rfl, rfl, by simp⟩

/-- Once the flag is set, before the run or by any of its acts, and no later call clears it, the
observers hear of no further step. And no supervision goes on after a cancelled attempt, or recovers
it. -/
theorem execute_unseen_of_cancelled (e : Engine σ) (registry : Registry L σ) (l : L)
    (selector : Option String) (p : Program (algebra l) β) (s : σ) :
    let acts := e.history registry e.settings.maxDepth.toNat 0 l selector p ⟨s, []⟩
    let o := (e.execute registry l selector p).outcome s
    (∃ t last, e.Leads registry ⟨s, []⟩ acts t ∧ t.state = o.state ∧
      o.events = acts.filterMap Act.event? ++ [last] ∧ ∀ frame, last ≠ .dispatched frame) ∧
    (e.cancelled s = true → e.KeepsFlag acts → acts.filterMap Act.event? = []) ∧
    (∀ before act later, acts = before ++ act :: later → e.cancelled act.after = true →
      e.KeepsFlag later → later.filterMap Act.event? = []) ∧
    ∀ (room depth : Nat) {l : L} (i : Interpreter σ (algebra l)) (l' : L) (selector : Option String)
      {γ : Type} (q : Program (algebra l') γ) (s : σ),
      let child := e.children registry room depth l' selector q
      let o := (e.superviseChild registry room depth i l' selector q).outcome s
      ∃ j, o.state = (attempt child s j).state ∧ o.events = attemptEvents child s (j + 1) ∧
        (∀ n < j, ∀ cause, (attempt child s n).result = .error cause → cause.root ≠ .cancelled) ∧
        ∀ cause, (attempt child s j).result = .error cause → cause.root = .cancelled →
          o.result = .error cause := by
  intro acts o
  have hleads := e.history_leads registry e.settings.maxDepth.toNat 0 l selector p ⟨s, []⟩
  refine ⟨e.history_leads_execute registry l selector p s, ?_, ?_, ?_⟩
  · intro hs hkeeps
    exact hleads.unseen hs hkeeps
  · intro before act later hacts hafter hkeeps
    change e.Leads registry ⟨s, []⟩ acts _ at hleads
    rw [hacts] at hleads
    obtain ⟨t, -, hrest⟩ := hleads.of_append
    obtain ⟨u, hstate, hlater⟩ := hrest.tail
    exact hlater.unseen (hstate ▸ hafter) hkeeps
  · intro room depth l i l' selector γ q s
    exact e.superviseChild_cancelled registry room depth i l' selector q s

/-- An engine that is cancelled by the flag beside a probe, and that tries a probe child three times. -/
def tripping : Engine (Bool × ScriptedProbe) := ⟨{}, Table.empty.insert "probe" (.retry 3), Prod.fst⟩

def tripwires : Registry Language (Bool × ScriptedProbe) :=
  ⟨[⟨.relay, none, fun _ s => (.error .aborted, s)⟩, ⟨.probe, none, ScriptedProbe.setting (some 1)⟩]⟩

def untripped : Bool × ScriptedProbe := (false, ⟨0, [(1, ⟨.unavailable "cold", none⟩)], .empty⟩)

def tripped : Bool × ScriptedProbe :=
  (true, { untripped.2 with log := CallLog.empty.record "emit(1)" })

def watch : Program (algebra Language.relay) Int64 :=
  RelayScript.program (.leaf (.supervise none (.leaf (.number 1)))) []

def watchFrame : StepFrame := ⟨0, 0, ⟨⟨"relay"⟩, "Supervise", ""⟩⟩

def emitFrame : StepFrame := ⟨1, 0, ⟨⟨"probe"⟩, "Emit", "1"⟩⟩

theorem watch_history : tripping.history tripwires tripping.settings.maxDepth.toNat 0 .relay none watch
    ⟨untripped, []⟩ = [.reached .relay none watchFrame untripped,
      .dispatched .relay none watchFrame untripped, .reached .probe none emitFrame untripped,
      .dispatched .probe none emitFrame untripped] ++
      .called .probe none (ProbeMethod.emit 1) untripped tripped ::
        [.reached .probe none emitFrame tripped] := by
  have hdepth : tripping.settings.maxDepth.toNat = 16 := rfl
  simp only [hdepth, history, levelHistory, Program.notes, children_succ]
  rfl

theorem execute_unseen_of_cancelled_watch :
    let acts := tripping.history tripwires tripping.settings.maxDepth.toNat 0 .relay none watch
      ⟨untripped, []⟩
    let later : History Language (Bool × ScriptedProbe) := [.reached .probe none emitFrame tripped]
    (∃ before, acts = before ++ .called .probe none (ProbeMethod.emit 1) untripped tripped :: later) ∧
      tripping.cancelled tripped = true ∧ tripping.KeepsFlag later ∧
      later.filterMap Act.event? = [] := by
  intro acts later
  have hkeeps : tripping.KeepsFlag later := by
    intro l selector method before after hmem
    simp [later] at hmem
  exact ⟨⟨_, watch_history⟩, rfl, hkeeps,
    (execute_unseen_of_cancelled tripping tripwires .relay none watch untripped).2.2.1 _ _ _
      watch_history rfl hkeeps⟩

end Engine

end Brigade
