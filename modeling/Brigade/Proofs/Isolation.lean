import Brigade.Proofs.History
import Brigade.Proofs.Outcome
import Brigade.Session.Equipment
import Mathlib.Logic.Function.Basic

/-! Scripted probes at work in a run. Each keeps its log in a cell of the store. Whatever else a run
does, the entries that the log gains are the values that are emitted at the levels that resolve to the
probe: one for each dispatch there, in the order in which the observers see them. -/

namespace Brigade

/-- The interpreter is a scripted probe that keeps its state in the cell with number `n`. -/
inductive IsProbe (n : Nat) : Interpreter Store (algebra Language.probe) → Prop
  | scripted : IsProbe n (ScriptedProbe.interpreter.within (Store.probe n))
  | setting (trigger : Option Int64) (flagNumber : Nat) :
    IsProbe n ((ScriptedProbe.setting trigger).within (Store.probeAndFlag n flagNumber))

def Interpreter.KeepsProbes {A : Algebra} (i : Interpreter Store A) : Prop :=
  ∀ m s, (i m s).2.probes = s.probes

namespace IsProbe

variable {n : Nat} {i : Interpreter Store (algebra Language.probe)}

theorem probes_emit (h : IsProbe n i) (v : Int64) (s : Store) : (i (.emit v) s).2.probes =
    s.probes.set n (((Store.probe n).get s).emit v).2 := by
  cases h <;> rfl

end IsProbe

theorem ScriptedProbe.entries_emit (p : ScriptedProbe) (v : Int64) :
    (p.emit v).2.log.entries = p.log.entries ++ [s!"emit({v.toInt})"] := by
  simp only [emit]
  split <;> exact CallLog.entries_record p.log _

theorem Equipment.install_keepsProbes (flagNumber : Nat) (store : Store) {e : Equipment}
    (h : e.language ≠ .probe) : (e.install flagNumber store).1.KeepsProbes := by
  cases e with
  | probe p => exact absurd rfl h
  | cancellingProbe p trigger => exact absurd rfl h
  | station s => rintro (_ | _ | _) t <;> rfl
  | _ => exact fun _ _ => rfl

/-- The probe language is served by scripted probes, under each selector by the one whose cell has the
number given, and no other interpreter changes a probe. -/
structure ProbesApart (registry : Registry Language Store) (number : Option String → Nat) : Prop where
  probe : ∀ {selector i}, registry.resolve .probe selector = .ok i → IsProbe (number selector) i
  others : ∀ {l selector i}, l ≠ .probe → registry.resolve l selector = .ok i → i.KeepsProbes

namespace ProbesApart

variable {registry : Registry Language Store} {number : Option String → Nat}

theorem empty : ProbesApart .empty number := ⟨nofun, nofun⟩

theorem bind_probe (h : ProbesApart registry number) (selector : Option String) {n : Nat}
    {i : Interpreter Store (algebra Language.probe)} (hi : IsProbe n i) :
    ProbesApart (registry.bind .probe selector i) (Function.update number selector n) where
  probe := by
    intro selector' j hresolve
    obtain ⟨rfl, rfl⟩ | ⟨hne, hresolve⟩ := Registry.resolve_bind_eq_ok hresolve
    · rwa [Function.update_self]
    · rw [Function.update_of_ne hne.symm]
      exact h.probe hresolve
  others := by
    intro l selector' j hl hresolve
    rw [registry.resolve_bind_of_ne (fun h => hl h.1.symm)] at hresolve
    exact h.others hl hresolve

theorem bind_other (h : ProbesApart registry number) {l : Language} (hl : l ≠ .probe)
    (selector : Option String) {i : Interpreter Store (algebra l)} (hi : i.KeepsProbes) :
    ProbesApart (registry.bind l selector i) number where
  probe := by
    intro selector' j hresolve
    rw [registry.resolve_bind_of_ne (fun h => hl h.1)] at hresolve
    exact h.probe hresolve
  others := by
    intro l' selector' j hl' hresolve
    by_cases heq : l = l' ∧ selector = selector'
    · obtain ⟨rfl, rfl⟩ := heq
      rw [registry.resolve_bind_self] at hresolve
      cases hresolve
      exact hi
    · rw [registry.resolve_bind_of_ne heq] at hresolve
      exact h.others hl' hresolve

theorem install (h : ProbesApart registry number) (e : Equipment) (selector : Option String)
    (flagNumber : Nat) (store : Store) : ∃ number,
      ProbesApart (registry.bind e.language selector (e.install flagNumber store).1) number := by
  by_cases hl : e.language = .probe
  · cases e with
    | probe p => exact ⟨_, h.bind_probe selector .scripted⟩
    | cancellingProbe p trigger => exact ⟨_, h.bind_probe selector (.setting trigger flagNumber)⟩
    | _ => cases hl
  · exact ⟨number, h.bind_other hl selector (Equipment.install_keepsProbes flagNumber store hl)⟩

end ProbesApart

/-- What an act adds to the log of the probe with number `n`: the value emitted, if it is a dispatch at
a level that resolves to the probe. -/
def Act.emitted? (number : Option String → Nat) (n : Nat) : Act Language Store → Option String
  | .dispatched .probe selector frame _ =>
    if number selector = n then some s!"emit({frame.command.detail})" else none
  | _ => none

/-- The log of each probe gains what the acts add to it. -/
structure LogsGain (number : Option String → Nat) (s : Progress Store) (acts : History Language Store)
    (t : Progress Store) : Prop where
  length : t.state.probes.length = s.state.probes.length
  entries : ∀ n < s.state.probes.length, ((Store.probe n).get t.state).log.entries =
    ((Store.probe n).get s.state).log.entries ++ acts.filterMap (Act.emitted? number n)

namespace LogsGain

variable {number : Option String → Nat}

theorem composes : Composes (LogsGain number) where
  nil _ := ⟨rfl, by simp⟩
  append h h' := ⟨h'.length.trans h.length, fun n hn => by
    rw [h'.entries n (h.length ▸ hn), h.entries n hn, List.filterMap_append, List.append_assoc]⟩

theorem of_silent {s t : Progress Store} {acts : History Language Store}
    (hprobes : t.state.probes = s.state.probes)
    (hacts : ∀ act ∈ acts, ∀ n, act.emitted? number n = none) : LogsGain number s acts t where
  length := by rw [hprobes]
  entries n hn := by
    rw [List.filterMap_eq_nil_iff.2 fun act hact => hacts act hact n, List.append_nil]
    simp only [Store.probe, hprobes]

theorem of_emit {n : Nat} {i : Interpreter Store (algebra Language.probe)} (hi : IsProbe n i)
    {v : Int64} {s t : Progress Store} {acts : History Language Store}
    (hstate : t.state = (i (.emit v) s.state).2)
    (hacts : ∀ n', acts.filterMap (Act.emitted? number n') =
      if n = n' then [s!"emit({v.toInt})"] else []) : LogsGain number s acts t where
  length := by rw [hstate, hi.probes_emit, List.length_set]
  entries n' hn' := by
    rw [hacts]
    simp only [Store.probe, Store.cell, hstate, hi.probes_emit, List.getD_eq_getElem?_getD]
    by_cases heq : n = n'
    · subst heq
      rw [List.getElem?_set_self hn', if_pos rfl]
      exact ScriptedProbe.entries_emit _ v
    · rw [List.getElem?_set_ne heq, if_neg heq, List.append_nil]

theorem of_dispatch {selector : Option String} {i : Interpreter Store (algebra Language.probe)}
    (hi : IsProbe (number selector) i) (children : ChildRunner Language Store)
    (histories : ChildHistory Language Store) (policyFor : String → FailurePolicy)
    (depth index : Nat) (v : Int64) (s : Progress Store) :
    let frame : StepFrame := ⟨depth, index, probeAlgebra.describe (.emit v)⟩
    let plan : Plan (algebra (L := Language)) .probe Int64 := .call (ProbeMethod.emit v) .answer
    LogsGain number s
      (.reached .probe selector frame s.state :: .dispatched .probe selector frame s.state ::
        plan.history selector i children histories policyFor (s.record (.dispatched frame)))
      (plan.run i children policyFor (s.record (.dispatched frame))).2 := by
  intro frame plan
  have hhistory : plan.history selector i children histories policyFor
      (s.record (.dispatched frame)) =
        [.called Language.probe selector (.emit v) s.state (i (.emit v) s.state).2] :=
    Plan.history_call (fun reply => ⟨reply, rfl⟩) (s.record (.dispatched frame))
  refine .of_emit hi (Plan.state_run_call_answer _ (s.record (.dispatched frame))) fun n => ?_
  rw [hhistory]
  by_cases hn : number selector = n
  · simp only [List.filterMap, Act.emitted?, hn, if_true]
    rfl
  · simp only [List.filterMap, Act.emitted?, hn, if_false]

end LogsGain

namespace Engine

section

variable (e : Engine Store) {registry : Registry Language Store} {number : Option String → Nat}

theorem stepsPass_logsGain (h : ProbesApart registry number) :
    e.StepsPass registry (LogsGain number) := by
  intro children histories hc depth l selector index c s
  simp only [stepHistory, step_eq]
  rcases hpermit : e.permit registry l selector index s.state with cause | i
  · exact .of_silent rfl (by simp [Act.emitted?])
  · obtain ⟨-, -, hresolve⟩ := permit_eq_ok hpermit
    let frame : StepFrame := ⟨depth, index, (algebra l).describe c⟩
    by_cases hl : l = .probe
    · subst hl
      obtain ⟨v⟩ := c
      exact .of_dispatch (h.probe hresolve) children histories e.policyFor depth index v s
    · have hcall (m : (algebra l).Method) (t : Progress Store) :
          LogsGain number t [.called l selector m t.state (i m t.state).2]
            { t with state := (i m t.state).2 } :=
        .of_silent (h.others hl hresolve m t.state) (by simp [Act.emitted?])
      have hstart : LogsGain number s [.reached l selector frame s.state,
          .dispatched l selector frame s.state] (s.record (.dispatched frame)) :=
        .of_silent rfl (by simp [Act.emitted?, hl])
      exact LogsGain.composes.append hstart (LogsGain.composes.plan hc selector hcall e.policyFor
        (Hierarchy.plan l c frame) (s.record (.dispatched frame)))

/-- The log of each probe gains the values that are emitted at the levels that resolve to the probe, one
for each dispatch that the observers see there, and nothing else. -/
theorem execute_probeLogs (h : ProbesApart registry number) (l : Language) (selector : Option String)
    {β : Type} (p : Program (algebra l) β) (s : Store) :
    let o := (e.execute registry l selector p).outcome s
    let acts := e.history registry e.settings.maxDepth.toNat 0 l selector p ⟨s, []⟩
    (∃ last, o.events = acts.filterMap Act.event? ++ [last] ∧ ∀ frame, last ≠ .dispatched frame) ∧
    (∀ selector' frame state, .dispatched .probe selector' frame state ∈ acts →
      (∃ v, frame.command = probeAlgebra.describe (.emit v)) ∧
      ∃ i, registry.resolve .probe selector' = .ok i ∧ IsProbe (number selector') i) ∧
    o.state.probes.length = s.probes.length ∧
    ∀ n < s.probes.length, ((Store.probe n).get o.state).log.entries =
      ((Store.probe n).get s).log.entries ++ acts.filterMap (Act.emitted? number n) := by
  intro o acts
  have hstate : o.state =
      (e.level registry e.settings.maxDepth.toNat 0 l selector p ⟨s, []⟩).2.state := by
    simp only [o, execute_outcome, ← level_eq_levelFrom, Outcome.state_reported]
    rfl
  have hgain := LogsGain.composes.level (e.stepsPass_logsGain h) e.settings.maxDepth.toNat 0 l selector
    p ⟨s, []⟩
  have hevents := (e.history_leads registry e.settings.maxDepth.toNat 0 l selector p ⟨s, []⟩).events
  refine ⟨?_, fun selector' frame state hmem => ?_, hstate ▸ hgain.length, hstate ▸ hgain.entries⟩
  · obtain ⟨last, ho, hlast⟩ := e.execute_events registry l selector p s
    exact ⟨last, ho.trans (congrArg (· ++ [last]) hevents), hlast⟩
  · obtain ⟨⟨⟨v⟩, hcommand⟩, i, hpermit⟩ := of_dispatched_mem_history hmem
    have hresolve := (permit_eq_ok hpermit).2.2
    exact ⟨⟨v, hcommand⟩, i, hresolve, h.probe hresolve⟩

end

def secondAttempt : Engine Store :=
  ⟨{}, Table.empty.insert "probe" (.retry 2), fun _ => false⟩

def twoProbes : Registry Language Store :=
  ((Registry.empty.bind .relay none (NoteBook.interpreter.within (Store.noteBook 0))).bind .probe none
    (ScriptedProbe.interpreter.within (Store.probe 0))).bind .probe (some "tens")
    (ScriptedProbe.interpreter.within (Store.probe 1))

def twoProbesNumber : Option String → Nat :=
  Function.update (Function.update (fun _ => 2) none 0) (some "tens") 1

theorem twoProbes_apart : ProbesApart twoProbes twoProbesNumber :=
  ((ProbesApart.empty.bind_other (l := .relay) nofun none fun _ _ => rfl).bind_probe none
    .scripted).bind_probe (some "tens") .scripted

def failsOnce : Store :=
  { Store.empty with
    probes := [⟨0, [(2, ⟨.failed "burnt", some 1⟩)], .empty⟩, .initial], notes := [[]] }

def tensThenSupervise : Program (algebra Language.relay) Int64 :=
  RelayScript.program (.andThen (.leaf (.forward (some "tens") (.leaf (.number 1))))
    (.leaf (.supervise none (.leaf (.number 2))))) []

theorem execute_probeLogs_tensThenSupervise :
    let o := (secondAttempt.execute twoProbes .relay none tensThenSupervise).outcome failsOnce
    ProbesApart twoProbes twoProbesNumber ∧
      ((Store.probe 0).get o.state).log.entries = ["emit(2)", "emit(2)"] ∧
      ((Store.probe 1).get o.state).log.entries = ["emit(1)"] := by
  intro o
  obtain ⟨-, -, -, hentries⟩ :=
    secondAttempt.execute_probeLogs twoProbes_apart .relay none tensThenSupervise failsOnce
  have hdepth : secondAttempt.settings.maxDepth.toNat = 16 := rfl
  rw [hdepth, history, children_succ] at hentries
  exact ⟨twoProbes_apart, (hentries 0 (by decide)).trans rfl, (hentries 1 (by decide)).trans rfl⟩

end Engine

end Brigade
