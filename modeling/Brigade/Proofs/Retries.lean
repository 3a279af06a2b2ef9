import Brigade.Proofs.Supervision
import Brigade.Store

/-! Retries of a child whose probe is scripted to fail. Every attempt emits again from the start, and
every failure uses up one of those that are scripted; the child completes if the failures run out before
the attempts do. -/

namespace Brigade

/-- In this state the slot gives back what is put into it, and keeps nothing of what was there before. -/
structure Slot.LawfulAt {σ τ : Type} (slot : Slot σ τ) (s : σ) : Prop where
  get_set : ∀ x, slot.get (slot.set x s) = x
  set_get : slot.set (slot.get s) s = s
  set_set : ∀ x y, slot.set y (slot.set x s) = slot.set y s

theorem Store.probe_lawfulAt {n : Nat} {s : Store} (hn : n < s.probes.length) :
    (Store.probe n).LawfulAt s where
  get_set x := by simp [probe, cell, List.getD_eq_getElem?_getD, hn]
  set_get := by simp [probe, cell, List.getD_eq_getElem?_getD, hn]
  set_set x y := by simp [probe]

def CallLog.emitted (log : CallLog) (us : List Int64) : CallLog :=
  us.foldl (fun log u => log.record s!"emit({u.toInt})") log

namespace CallLog

variable (log : CallLog) (us us' : List Int64)

theorem emitted_append : log.emitted (us ++ us') = (log.emitted us).emitted us' := List.foldl_append

theorem entries_emitted :
    (log.emitted us).entries = log.entries ++ us.map fun u => s!"emit({u.toInt})" := by
  induction us generalizing log with
  | nil => simp [emitted]
  | cons u us ih =>
    have hrest := ih (log.record s!"emit({u.toInt})")
    rw [entries_record, List.append_assoc] at hrest
    exact hrest

theorem size_emitted : (log.emitted us).size = log.size + us.length := by
  rw [← length_entries, entries_emitted, List.length_append, length_entries, List.length_map]

theorem size_emitted_empty : (empty.emitted us).size = us.length := by
  rw [size_emitted]
  exact Nat.zero_add us.length

end CallLog

namespace ScriptedProbe

/-- A probe that is scripted to fail on `v` so many more times, and on nothing else. -/
def failing (offset v : Int64) (failure : InterpreterFailure) (left : Nat) (log : CallLog) :
    ScriptedProbe := ⟨offset, [(v, ⟨failure, some (.ofNat left)⟩)], log⟩

variable {offset v u : Int64} {failure : InterpreterFailure} {left : Nat} {log : CallLog}

theorem emit_failing_of_ne (h : u ≠ v) : (failing offset v failure left log).emit u =
    (.ok (u + offset), failing offset v failure left (log.emitted [u])) := by
  simp [emit, failing, FailureBudget.takeFor, h.symm, CallLog.emitted]

theorem emit_failing_zero : (failing offset v failure 0 log).emit u =
    (.ok (u + offset), failing offset v failure 0 (log.emitted [u])) := by
  by_cases h : v = u <;> simp [emit, failing, FailureBudget.takeFor, FailureBudget.take, h,
    CallLog.emitted]

theorem emit_failing_succ (hleft : left + 1 < UInt32.size) :
    (failing offset v failure (left + 1) log).emit v =
      (.error failure, failing offset v failure left (log.emitted [v])) := by
  have hne : UInt32.ofNat left + 1 ≠ 0 := by
    intro hzero
    have hmod : (left + 1) % UInt32.size = 0 := by
      simpa [UInt32.toNat_add] using congrArg UInt32.toNat hzero
    rw [Nat.mod_eq_of_lt hleft] at hmod
    exact Nat.succ_ne_zero left hmod
  simp [emit, failing, FailureBudget.takeFor, FailureBudget.take, hne, CallLog.emitted]

/-- What is left of such a probe after `n` attempts that fail, each of which emits the numbers. -/
def retried (offset v : Int64) (failure : InterpreterFailure) (times : UInt32) (us : List Int64)
    (n : Nat) : ScriptedProbe :=
  failing offset v failure (times.toNat - n) (CallLog.empty.emitted (List.replicate n us).flatten)

theorem size_log_retried {times : UInt32} (us : List Int64) (n : Nat) :
    (retried offset v failure times us n).log.size = n * us.length := by
  rw [retried, failing, CallLog.size_emitted_empty]
  simp [List.length_flatten]

/-- Of the probe, which is given by its log, no more than the log changes when it answers the numbers. -/
def Answers (offset : Int64) (us : List Int64) (probe : CallLog → ScriptedProbe) : Prop :=
  ∀ u ∈ us, ∀ log, (probe log).emit u = (.ok (u + offset), probe (log.emitted [u]))

theorem answers_of_notMem {us : List Int64} (h : v ∉ us) :
    Answers offset us (failing offset v failure left) := fun _ hu _ =>
  emit_failing_of_ne fun hv => h (hv ▸ hu)

theorem answers_failing_zero (us : List Int64) : Answers offset us (failing offset v failure 0) :=
  fun _ _ _ => emit_failing_zero

theorem answers_unscripted (us : List Int64) : Answers offset us fun log => ⟨offset, [], log⟩ :=
  fun _ _ _ => by simp [emit, FailureBudget.takeFor, CallLog.emitted]

end ScriptedProbe

/-- The program emits the numbers in their order and gives the value, if each is answered with its sum
with the offset. -/
inductive Emits {α : Type} (offset : Int64) (value : α) :
    List Int64 → Program (algebra Language.probe) α → Prop
  | done : Emits offset value [] (.done value)
  | emit {u : Int64} {us : List Int64} {bound : Bound (algebra Language.probe) Int64 α}
    (h : Emits offset value us (Program.resume bound (u + offset))) :
    Emits offset value (u :: us) (.step (ProbeCommand.emit u) bound)

namespace Emits

variable {α β : Type} {offset : Int64}

theorem single (u : Int64) : Emits offset (u + offset) [u] (Probe.emit u) := .emit .done

theorem bind {value : α} {value' : β} {us us' : List Int64} {p : Program (algebra Language.probe) α}
    {f : α → Program (algebra Language.probe) β} (hp : Emits offset value us p)
    (hf : Emits offset value' us' (f value)) : Emits offset value' (us ++ us') (p.bind f) := by
  induction hp with
  | done => exact hf
  | emit h ih => exact .emit ih

end Emits

def Probe.emitAll : List Int64 → Program (algebra Language.probe) (List Int64)
  | [] => .done []
  | u :: us => (Probe.emit u).bind fun w => (emitAll us).map fun ws => w :: ws

theorem Probe.emits_emitAll (offset : Int64) (us : List Int64) :
    Emits offset (us.map fun u => u + offset) us (emitAll us) := by
  induction us with
  | nil => exact .done
  | cons u us ih =>
    have hrest := ih.bind (f := fun ws => .done ((u + offset) :: ws)) .done
    rw [List.append_nil] at hrest
    exact (Emits.single u).bind hrest

/-- The failure of a child that was at `depth`, on a number that its command with number `index` emits. -/
def FailureCause.emitting (depth index : Nat) (v : Int64) (failure : InterpreterFailure) : FailureCause :=
  .child ⟨depth, index, probeAlgebra.describe (.emit v)⟩ (.interpreter failure)

namespace Engine

variable {σ α : Type}

/-- The engine runs commands of the probe language, so many of a level at least, with a scripted probe in
the slot. -/
structure Hosts (e : Engine σ) (registry : Registry Language σ) (selector : Option String)
    (slot : Slot σ ScriptedProbe) (s : σ) (count : Nat) : Prop where
  lawful : slot.LawfulAt s
  served : registry.resolve .probe selector = .ok (ScriptedProbe.interpreter.within slot)
  running : ∀ probe, e.cancelled (slot.set probe s) = false
  within : ∀ index < count, e.settings.exhausted index = false

namespace Hosts

variable {e : Engine σ} {registry : Registry Language σ} {selector : Option String}
  {slot : Slot σ ScriptedProbe} {s : σ} {count : Nat}

theorem step_emit (h : e.Hosts registry selector slot s count) (index : Nat) (hindex : index < count)
    (children : ChildRunner Language σ) (depth : Nat) (u : Int64) (probe : ScriptedProbe)
    (newest : List Event) :
    let frame : StepFrame := ⟨depth, index, probeAlgebra.describe (.emit u)⟩
    e.step registry children depth .probe selector index (ProbeCommand.emit u)
        ⟨slot.set probe s, newest⟩ =
      ((probe.emit u).1.mapError fun failure => ⟨frame, .interpreter failure⟩,
        ⟨slot.set (probe.emit u).2 s, .dispatched frame :: newest⟩) := by
  intro frame
  let i : Interpreter σ (algebra Language.probe) := ScriptedProbe.interpreter.within slot
  have hpermit : e.permit registry .probe selector index (slot.set probe s) = .ok i :=
    permit_of_resolve (h.running probe) (h.within index hindex) h.served
  have hprobe : ScriptedProbe.interpreter.within slot (.emit u) (slot.set probe s) =
      ((probe.emit u).1, slot.set (probe.emit u).2 s) := by
    simp only [Interpreter.within, h.lawful.get_set, h.lawful.set_set, ScriptedProbe.interpreter]
  have hplan : (Hierarchy.plan Language.probe (ProbeCommand.emit u) frame).run i children e.policyFor
      ⟨slot.set probe s, .dispatched frame :: newest⟩ =
        ((probe.emit u).1.mapError .interpreter,
          ⟨slot.set (probe.emit u).2 s, .dispatched frame :: newest⟩) :=
    (Plan.run_call_answer (l := Language.probe) (i := i) (ProbeMethod.emit u) _).trans
      (congrArg (fun r => (r.1.mapError FailureCause.interpreter,
        (⟨r.2, .dispatched frame :: newest⟩ : Progress σ))) hprobe)
  refine (step_of_permit hpermit).trans
    ((congrArg (fun r => (r.1.mapError (ExecutionError.mk frame), r.2)) hplan).trans ?_)
  rcases (probe.emit u).1 with failure | reply <;> rfl

variable {offset : Int64} {value : α} {p : Program (algebra Language.probe) α}

theorem run_answered (h : e.Hosts registry selector slot s count) (children : ChildRunner Language σ)
    (depth : Nat) {probe : CallLog → ScriptedProbe} {before rest : List Int64}
    (hanswers : ScriptedProbe.Answers offset before probe) (hp : Emits offset value (before ++ rest) p)
    (index : Nat) (hindex : index + before.length ≤ count) (log : CallLog) (newest : List Event) :
    ∃ p' newest', Emits offset value rest p' ∧
      p.run (e.step registry children depth .probe selector) index ⟨slot.set (probe log) s, newest⟩ =
        p'.run (e.step registry children depth .probe selector) (index + before.length)
          ⟨slot.set (probe (log.emitted before)) s, newest'⟩ := by
  induction before generalizing p index log newest with
  | nil => exact ⟨p, newest, hp, rfl⟩
  | cons u before ih =>
    rw [List.length_cons] at hindex
    cases hp with
    | emit hrest =>
      have hstep := h.step_emit index (by omega) children depth u (probe log) newest
      rw [hanswers u List.mem_cons_self log] at hstep
      obtain ⟨p', newest', hp', hrun⟩ := ih (fun w hw => hanswers w (List.mem_cons_of_mem u hw)) hrest
        (index + 1) (by omega) (log.emitted [u]) _
      refine ⟨p', newest', hp', ?_⟩
      refine (Program.run_step_ok hstep).trans (hrun.trans ?_)
      rw [List.length_cons, Nat.add_assoc, Nat.add_comm 1]
      rfl

theorem children_answered (h : e.Hosts registry selector slot s count) {us : List Int64}
    {probe : CallLog → ScriptedProbe} (hanswers : ScriptedProbe.Answers offset us probe)
    (hp : Emits offset value us p) (hcount : us.length ≤ count) (room depth : Nat) (log : CallLog) :
    let o := (e.children registry (room + 1) depth .probe selector p).outcome (slot.set (probe log) s)
    o.result = .ok value ∧ o.state = slot.set (probe (log.emitted us)) s := by
  rw [← List.append_nil us] at hp
  obtain ⟨p', newest, hp', hrun⟩ := h.run_answered (e.children registry room (depth + 1)) (depth + 1)
    hanswers hp 0 (by omega) log []
  cases hp'
  rw [Program.run_done] at hrun
  rw [children_succ]
  simp only [Run.outcome, LevelRunner.children, hrun, Outcome.of, and_self]

theorem children_failed (h : e.Hosts registry selector slot s count) {v : Int64}
    {before after : List Int64} {probe : CallLog → ScriptedProbe} {probe' : ScriptedProbe}
    {failure : InterpreterFailure} {log : CallLog}
    (hanswers : ScriptedProbe.Answers offset before probe)
    (hfails : (probe (log.emitted before)).emit v = (.error failure, probe'))
    (hp : Emits offset value (before ++ v :: after) p) (hcount : before.length < count)
    (room depth : Nat) :
    let o := (e.children registry (room + 1) depth .probe selector p).outcome (slot.set (probe log) s)
    o.result = .error (.emitting (depth + 1) before.length v failure) ∧ o.state = slot.set probe' s := by
  obtain ⟨p', newest, hp', hrun⟩ := h.run_answered (e.children registry room (depth + 1)) (depth + 1)
    hanswers hp 0 (by omega) log []
  cases hp' with
  | emit hrest =>
    have hstep := h.step_emit before.length hcount (e.children registry room (depth + 1)) (depth + 1) v
      (probe (log.emitted before)) newest
    rw [hfails] at hstep
    rw [Nat.zero_add] at hrun
    rw [children_succ]
    simp only [Run.outcome, LevelRunner.children, hrun.trans (Program.run_step_error hstep)]
    exact ⟨rfl, rfl⟩

end Hosts

variable {e : Engine σ} {registry : Registry Language σ} {selector : Option String}
  {slot : Slot σ ScriptedProbe} {s : σ} {offset v : Int64} {before after : List Int64} {value : α}
  {p : Program (algebra Language.probe) α} {failure : InterpreterFailure} {times : UInt32}

section

variable (h : e.Hosts registry selector slot s (before ++ v :: after).length)
  (hp : Emits offset value (before ++ v :: after) p) (hbefore : v ∉ before) (room depth : Nat)

include h hp hbefore

/-- One failure less is left after an attempt, which emits up to it. -/
theorem children_retried {n : Nat} (hn : n < times.toNat) :
    let o := (e.children registry (room + 1) depth .probe selector p).outcome
      (slot.set (.retried offset v failure times (before ++ [v]) n) s)
    o.result = .error (.emitting (depth + 1) before.length v failure) ∧
      o.state = slot.set (.retried offset v failure times (before ++ [v]) (n + 1)) s := by
  have hleft : times.toNat - n = times.toNat - (n + 1) + 1 := by omega
  have hlarge : times.toNat - (n + 1) + 1 < UInt32.size := by
    have htimes := times.toNat_lt_size
    omega
  let log := CallLog.empty.emitted (List.replicate n (before ++ [v])).flatten
  have hlog : CallLog.empty.emitted (List.replicate (n + 1) (before ++ [v])).flatten =
      (log.emitted before).emitted [v] := by
    rw [List.replicate_succ', List.flatten_append, List.flatten_singleton, ← CallLog.emitted_append,
      ← CallLog.emitted_append]
  rw [ScriptedProbe.retried, ScriptedProbe.retried, hleft, hlog]
  exact h.children_failed (ScriptedProbe.answers_of_notMem hbefore)
    (ScriptedProbe.emit_failing_succ hlarge) hp (by simp) room depth

variable (hprobe : slot.get s = ⟨offset, [(v, ⟨failure, some times⟩)], .empty⟩)

include hprobe

theorem attempt_eq_outcome {n : Nat} (hn : n ≤ times.toNat) :
    let child := e.children registry (room + 1) depth .probe selector p
    attempt child s n =
      child.outcome (slot.set (.retried offset v failure times (before ++ [v]) n) s) := by
  intro child
  -- a failed attempt leaves the probe as the next one is to find it
  induction n with
  | zero =>
    have hretried : .retried offset v failure times (before ++ [v]) 0 = slot.get s := by
      rw [hprobe, ScriptedProbe.retried, ScriptedProbe.failing, Nat.sub_zero, UInt32.ofNat_toNat]
      rfl
    rw [hretried, h.lawful.set_get]
    rfl
  | succ n ih =>
    rw [attempt, ih (Nat.le_of_succ_le hn)]
    exact congrArg child.outcome (children_retried h hp hbefore room depth hn).2

theorem attempt_failing {n : Nat} (hn : n < times.toNat) :
    let o := attempt (e.children registry (room + 1) depth .probe selector p) s n
    o.result = .error (.emitting (depth + 1) before.length v failure) ∧
      o.state = slot.set (.retried offset v failure times (before ++ [v]) (n + 1)) s := by
  rw [attempt_eq_outcome h hp hbefore room depth hprobe hn.le]
  exact children_retried h hp hbefore room depth hn

theorem attempt_completing :
    let o := attempt (e.children registry (room + 1) depth .probe selector p) s times.toNat
    o.result = .ok value ∧ o.state = slot.set (.failing offset v failure 0 (CallLog.empty.emitted
      ((List.replicate times.toNat (before ++ [v])).flatten ++ (before ++ v :: after)))) s := by
  rw [attempt_eq_outcome h hp hbefore room depth hprobe le_rfl, ScriptedProbe.retried, Nat.sub_self,
    CallLog.emitted_append]
  exact h.children_answered (ScriptedProbe.answers_failing_zero _) hp le_rfl room depth _

/-- The last attempt: that after all failures or the last that the policy allows, or the first if the
failure does not ask for another. -/
theorem superviseChild_last {attempts : UInt32}
    (hpolicy : e.policyFor (algebra Language.probe).name = .retry attempts)
    {l : Language} (parent : Interpreter σ (algebra l)) :
    let child := e.children registry (room + 1) depth .probe selector p
    let o := (e.superviseChild registry (room + 1) depth parent .probe selector p).outcome s
    ∃ n, n ≤ times.toNat ∧ o.result = (attempt child s n).result.map .completed ∧
      o.state = (attempt child s n).state ∧
      (failure.recoverable = true → n = min times.toNat (max attempts.toNat 1 - 1)) ∧
      (failure.recoverable = false → n = 0) := by
  intro child o
  have hcompletes : Settled (attempt child s times.toNat).result := by
    rw [(attempt_completing h hp hbefore room depth hprobe).1]
    trivial
  have hfails {n : Nat} (hn : n < times.toNat) :
      Settled (attempt child s n).result ↔ failure.recoverable = false := by
    rw [(attempt_failing h hp hbefore room depth hprobe hn).1]
    simp [Settled, FailureCause.emitting, FailureCause.root, FailureCause.recoverable]
  have hlast := e.superviseChild_outcome registry (room + 1) depth parent .probe selector p s
  rw [hpolicy] at hlast
  obtain ⟨n, ⟨hn, hleast⟩, ho⟩ := hlast
  rw [FailurePolicy.recovers, verdict_false] at ho
  have hle : n ≤ times.toNat := hleast (.inl hcompletes)
  refine ⟨n, hle, congrArg Outcome.result ho, congrArg Outcome.state ho, fun hretry => ?_,
    fun hretry => ?_⟩
  · have hpos : 1 ≤ max attempts.toNat 1 := Nat.le_max_right _ _
    have hmost : n ≤ max attempts.toNat 1 - 1 := hleast (.inr (Nat.sub_add_cancel hpos))
    rcases hle.lt_or_eq with hlt | rfl
    · have hlimit : n + 1 = max attempts.toNat 1 :=
        hn.resolve_left fun hsettled => by simp [(hfails hlt).1 hsettled] at hretry
      omega
    · exact (Nat.min_eq_left hmost).symm
  · have hfirst : Settled (attempt child s 0).result := by
      rcases Nat.eq_zero_or_pos times.toNat with hzero | hpos
      · rwa [hzero] at hcompletes
      · exact (hfails hpos).2 hretry
    exact Nat.le_zero.1 (hleast (.inl hfirst))

end

/-- Retries of a child that emits numbers, on one of which its probe fails so many times. If the failure
is recoverable, the child completes exactly if the attempts are more than the failures, as it does where
no failure is scripted; every attempt before emitted up to the failure. If not, there is one attempt. The
attempts have used up the failures that are no longer left, and nothing else has changed. -/
theorem superviseChild_retry {attempts : UInt32}
    (h : e.Hosts registry selector slot s (before ++ v :: after).length)
    (hpolicy : e.policyFor (algebra Language.probe).name = .retry attempts)
    (hp : Emits offset value (before ++ v :: after) p) (hbefore : v ∉ before)
    (hprobe : slot.get s = ⟨offset, [(v, ⟨failure, some times⟩)], .empty⟩) (room depth : Nat)
    {l : Language} (parent : Interpreter σ (algebra l)) :
    let limit := max attempts.toNat 1
    let first := before.length + 1
    let unfailed := (e.children registry (room + 1) depth .probe selector p).outcome
      (slot.set ⟨offset, [], .empty⟩ s)
    let o := (e.superviseChild registry (room + 1) depth parent .probe selector p).outcome s
    let failed : Except FailureCause (ChildOutcome α) :=
      .error (.emitting (depth + 1) before.length v failure)
    let left (n : Nat) : List (Int64 × FailureBudget) := [(v, ⟨failure, some (.ofNat n)⟩)]
    unfailed.result = .ok value ∧ o.state = slot.set (slot.get o.state) s ∧
      (failure.recoverable = true →
        ((∃ w, o.result = .ok (.completed w)) ↔ times.toNat < limit) ∧
        (times.toNat < limit → o.result = unfailed.result.map .completed ∧
          (slot.get o.state).log.size = times.toNat * first + (before ++ v :: after).length) ∧
        (limit ≤ times.toNat → o.result = failed ∧ (slot.get o.state).log.size = limit * first) ∧
        (slot.get o.state).failures = left (times.toNat - min times.toNat limit)) ∧
      (failure.recoverable = false → 1 ≤ times.toNat → o.result = failed ∧
        (slot.get o.state).log.size = first ∧ (slot.get o.state).failures = left (times.toNat - 1)) := by
  intro limit first unfailed o failed left
  have hunfailed : unfailed.result = .ok value :=
    (h.children_answered (ScriptedProbe.answers_unscripted _) hp le_rfl room depth .empty).1
  have hcompletes := attempt_completing h hp hbefore room depth hprobe
  have hfails {n : Nat} (hn : n < times.toNat) := attempt_failing h hp hbefore room depth hprobe hn
  obtain ⟨n, hle, hresult, hstate, hretried, honce⟩ :=
    superviseChild_last h hp hbefore room depth hprobe hpolicy parent
  refine ⟨hunfailed, ?_, fun hretry => ?_, fun hretry hpos => ?_⟩
  · rcases hle.lt_or_eq with hlt | rfl
    · have hset : o.state = _ := hstate.trans (hfails hlt).2
      rw [hset, h.lawful.get_set]
    · have hset : o.state = _ := hstate.trans hcompletes.2
      rw [hset, h.lawful.get_set]
  · rcases Nat.lt_or_ge times.toNat limit with hlt | hge
    · obtain rfl : n = times.toNat :=
        (hretried hretry).trans (Nat.min_eq_left (Nat.le_sub_one_of_lt hlt))
      have hset : o.state = _ := hstate.trans hcompletes.2
      have hvalue : o.result = .ok (.completed value) := by
        rw [hresult, hcompletes.1]
        rfl
      have hleft : times.toNat - min times.toNat limit = 0 := by
        rw [Nat.min_eq_left hlt.le, Nat.sub_self]
      rw [hvalue, hunfailed, hset, h.lawful.get_set, hleft]
      refine ⟨iff_of_true ⟨value, rfl⟩ hlt, fun _ => ⟨rfl, ?_⟩,
        fun hge => absurd hlt (Nat.not_lt.2 hge), rfl⟩
      rw [ScriptedProbe.failing, CallLog.size_emitted_empty]
      simp [List.length_flatten, first]
    · have hlast : n + 1 = limit := by
        have hpos : 1 ≤ limit := Nat.le_max_right _ _
        have hn := hretried hretry
        omega
      have hlt : n < times.toNat := by omega
      have hset : o.state = _ := hstate.trans (hfails hlt).2
      have hcause : o.result = failed := by
        rw [hresult, (hfails hlt).1]
        rfl
      rw [hcause, hset, h.lawful.get_set, hlast, Nat.min_eq_right hge]
      refine ⟨iff_of_false (by simp [failed]) (Nat.not_lt.2 hge),
        fun hlt => absurd hlt (Nat.not_lt.2 hge), fun _ => ⟨rfl, ?_⟩, rfl⟩
      rw [ScriptedProbe.size_log_retried, List.length_append, List.length_singleton]
  · obtain rfl : n = 0 := honce hretry
    have hset : o.state = _ := hstate.trans (hfails hpos).2
    have hcause : o.result = failed := by
      rw [hresult, (hfails hpos).1]
      rfl
    rw [hcause, hset, h.lawful.get_set, ScriptedProbe.size_log_retried, Nat.zero_add, Nat.one_mul,
      List.length_append, List.length_singleton]
    exact ⟨rfl, rfl, rfl⟩

def ovenBusy : ScriptedProbe := ⟨10, [(7, ⟨.unavailable "oven busy", some 2⟩)], .empty⟩

def ovenStore : Store := (Store.empty.addProbe ovenBusy).2

def ovenProbes : Registry Language Store :=
  ⟨[⟨.probe, none, (ScriptedProbe.interpreter.within (Store.probe 0) :
    Interpreter Store (algebra Language.probe))⟩]⟩

def threefold : Engine Store :=
  ⟨{}, Table.empty.insert "probe" (.retry 3), fun s => (Store.flag 0).get s⟩

theorem threefold_hosts (count : Nat) :
    threefold.Hosts ovenProbes none (Store.probe 0) ovenStore count where
  lawful := Store.probe_lawfulAt (by decide)
  served := rfl
  running _ := rfl
  within _ _ := rfl

theorem superviseChild_retry_ovenBusy :
    let parent : Interpreter Store (algebra Language.relay) :=
      NoteBook.interpreter.within (Store.noteBook 0)
    let o := (threefold.superviseChild ovenProbes 1 0 parent .probe none
      (Probe.emitAll [1, 7, 2])).outcome ovenStore
    o.result = .ok (.completed [11, 17, 12]) ∧ ((Store.probe 0).get o.state).log.size = 7 ∧
      ((Store.probe 0).get o.state).failures = [(7, ⟨.unavailable "oven busy", some 0⟩)] := by
  intro parent o
  have hemits : Emits 10 [11, 17, 12] ([1] ++ 7 :: [2]) (Probe.emitAll [1, 7, 2]) :=
    Probe.emits_emitAll 10 [1, 7, 2]
  obtain ⟨hunfailed, -, hretried, -⟩ := superviseChild_retry (threefold_hosts 3) rfl hemits (by decide)
    rfl 0 0 parent
  obtain ⟨-, hcompletes, -, hleft⟩ := hretried rfl
  obtain ⟨hresult, hsize⟩ := hcompletes (by decide)
  rw [hunfailed] at hresult
  exact ⟨hresult, hsize, hleft⟩

end Engine

end Brigade
