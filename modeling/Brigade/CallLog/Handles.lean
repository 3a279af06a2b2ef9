import Brigade.CallLog.Basic

/-! Handles on call logs. A clone of a handle is a handle on the same log; a fresh handle is on a log
of its own. -/

namespace Brigade

/-- Logs, and for every handle the number of its log. -/
structure LogHandles where
  logs : List CallLog
  handles : List Nat

namespace LogHandles

def initial : LogHandles := ⟨[.empty], [0]⟩

def log (h : LogHandles) (handle : Nat) : CallLog :=
  (h.handles[handle]?.bind fun n => h.logs[n]?).getD .empty

def update (h : LogHandles) (handle : Nat) (f : CallLog → CallLog) : LogHandles :=
  match h.handles[handle]? with
  | some n => { h with logs := h.logs.modify n f }
  | none => h

def record (h : LogHandles) (handle : Nat) (entry : String) : LogHandles :=
  h.update handle fun log => log.record entry

def clear (h : LogHandles) (handle : Nat) : LogHandles := h.update handle fun _ => .empty

/-- Adds a handle on the log of a handle. -/
def clone (h : LogHandles) (handle : Nat) : LogHandles :=
  match h.handles[handle]? with
  | some n => { h with handles := h.handles ++ [n] }
  | none => h

/-- Adds a handle on a new log. -/
def fresh (h : LogHandles) : LogHandles :=
  ⟨h.logs ++ [.empty], h.handles ++ [h.logs.length]⟩

/-- The log of every handle exists. -/
def Valid (h : LogHandles) : Prop := ∀ n ∈ h.handles, n < h.logs.length

/-- Two handles are on one log. -/
def SameLog (h : LogHandles) (i j : Nat) : Prop := h.handles[i]? = h.handles[j]?

instance (h : LogHandles) (i j : Nat) : Decidable (h.SameLog i j) :=
  inferInstanceAs (Decidable (h.handles[i]? = h.handles[j]?))

variable {h : LogHandles} {i j : Nat} {f : CallLog → CallLog}

theorem SameLog.log_eq (hsame : h.SameLog i j) : h.log i = h.log j := by
  rw [log, log, hsame]

@[simp] theorem handles_update (h : LogHandles) (i : Nat) (f : CallLog → CallLog) :
    (h.update i f).handles = h.handles := by
  unfold update
  split <;> rfl

@[simp] theorem length_logs_update (h : LogHandles) (i : Nat) (f : CallLog → CallLog) :
    (h.update i f).logs.length = h.logs.length := by
  unfold update
  split
  · exact List.length_modify f _ _
  · rfl

theorem Valid.update (hvalid : h.Valid) (i : Nat) (f : CallLog → CallLog) : (h.update i f).Valid := by
  intro n hn
  rw [handles_update] at hn
  rw [length_logs_update]
  exact hvalid n hn

theorem log_update_of_sameLog (hvalid : h.Valid) (hi : i < h.handles.length) (hsame : h.SameLog i j) :
    (h.update i f).log j = f (h.log j) := by
  have hn : h.handles[i]? = some h.handles[i] := List.getElem?_eq_getElem hi
  have hlog : h.handles[i] < h.logs.length := hvalid _ (List.getElem_mem hi)
  have hj : h.handles[j]? = some h.handles[i] := hsame.symm.trans hn
  simp [update, log, hn, hj, List.getElem?_eq_getElem hlog]

theorem log_update_of_not_sameLog (hother : ¬h.SameLog i j) : (h.update i f).log j = h.log j := by
  unfold update
  split
  · next n hn =>
    have hne : h.handles[j]? ≠ some n := fun hj => hother (hn.trans hj.symm)
    rw [log, log]
    cases hj : h.handles[j]? with
    | none => rfl
    | some m =>
      have hnm : n ≠ m := fun heq => hne (heq ▸ hj)
      simp [List.getElem?_modify, hnm]
  · rfl

theorem handles_clone (hi : i < h.handles.length) : (h.clone i).handles = h.handles ++ [h.handles[i]] := by
  simp [clone, List.getElem?_eq_getElem hi]

theorem logs_clone (h : LogHandles) (i : Nat) : (h.clone i).logs = h.logs := by
  unfold clone
  split <;> rfl

theorem Valid.clone (hvalid : h.Valid) (hi : i < h.handles.length) : (h.clone i).Valid := by
  intro n hn
  rw [handles_clone hi] at hn
  rw [logs_clone]
  rcases List.mem_append.1 hn with hn | hn
  · exact hvalid n hn
  · rw [List.mem_singleton.1 hn]
    exact hvalid _ (List.getElem_mem hi)

theorem sameLog_clone (hi : i < h.handles.length) : (h.clone i).SameLog i h.handles.length := by
  simp [SameLog, handles_clone hi, List.getElem?_append_left hi]

theorem log_clone_of_lt (hi : i < h.handles.length) (hj : j < h.handles.length) :
    (h.clone i).log j = h.log j := by
  simp only [log, handles_clone hi, List.getElem?_append_left hj, logs_clone]

theorem Valid.fresh (hvalid : h.Valid) : h.fresh.Valid := by
  intro n hn
  have hlength : h.fresh.logs.length = h.logs.length + 1 := List.length_append
  rw [hlength]
  rcases List.mem_append.1 hn with hn | hn
  · exact Nat.lt_succ_of_lt (hvalid n hn)
  · rw [List.mem_singleton.1 hn]
    exact Nat.lt_succ_self _

theorem not_sameLog_fresh (hvalid : h.Valid) (hj : j < h.handles.length) :
    ¬h.fresh.SameLog j h.handles.length := by
  have hlog : h.handles[j] < h.logs.length := hvalid _ (List.getElem_mem hj)
  simp [SameLog, fresh, List.getElem?_append_left hj, List.getElem?_eq_getElem hj, Nat.ne_of_lt hlog]

theorem log_fresh_of_lt (hvalid : h.Valid) (hj : j < h.handles.length) : h.fresh.log j = h.log j := by
  have hlog : h.handles[j] < h.logs.length := hvalid _ (List.getElem_mem hj)
  simp [log, fresh, List.getElem?_append_left hj, List.getElem?_eq_getElem hj,
    List.getElem?_append_left hlog]

theorem log_fresh (h : LogHandles) : h.fresh.log h.handles.length = .empty := by
  simp [log, fresh]

end LogHandles

end Brigade
