import Brigade.Proofs.Coherence

/-! The text of a failure is its path. A failure is that of a step itself, or that of a step whose child
program failed; what it is told and the path to its root are put together alike in both cases, so they agree
for failures that are nested to any depth. -/

namespace Brigade

/-- How many failures of child programs are nested in a cause. -/
def FailureCause.childCount : FailureCause → Nat
  | .child _ cause => cause.childCount + 1
  | _ => 0

namespace ExecutionError

/-- The failure of a step itself, not of a child program. -/
def IsOwn (e : ExecutionError) : Prop := ∀ frame cause, e.cause ≠ .child frame cause

@[elab_as_elim]
theorem nested_induction {motive : ExecutionError → Prop} (own : ∀ e, e.IsOwn → motive e)
    (child : ∀ frame inner, motive inner → motive ⟨frame, inner.asChild⟩) (e : ExecutionError) :
    motive e := by
  obtain ⟨frame, cause⟩ := e
  induction cause generalizing frame with
  | child inner cause ih => exact child frame ⟨inner, cause⟩ (ih inner)
  | _ => exact own _ nofun

theorem IsOwn.walks {e : ExecutionError} (h : e.IsOwn) :
    e.path = [e.frame] ∧ e.root = e.cause ∧ e.cause.childCount = 0 := by
  obtain ⟨frame, cause⟩ := e
  cases cause with
  | child inner cause => exact absurd rfl (h inner cause)
  | _ => exact ⟨rfl, rfl, rfl⟩

@[simp] theorem root_child (frame : StepFrame) (inner : ExecutionError) :
    (mk frame inner.asChild).root = inner.root := rfl

theorem childCount_child (frame : StepFrame) (inner : ExecutionError) :
    (mk frame inner.asChild).cause.childCount = inner.cause.childCount + 1 := rfl

theorem message_def (e : ExecutionError) : e.message = e.frame.text ++ ": " ++ e.cause.message := rfl

theorem message_asChild (inner : ExecutionError) :
    inner.asChild.message = "child program failed: " ++ inner.message := by
  have htext : inner.asChild.message =
      "child program failed: " ++ inner.frame.text ++ ": " ++ inner.cause.message := rfl
  rw [htext, message_def]
  simp only [String.append_assoc]

theorem message_child (frame : StepFrame) (inner : ExecutionError) :
    (mk frame inner.asChild).message = frame.text ++ ": child program failed: " ++ inner.message := by
  have hmark : ": child program failed: " = ": " ++ "child program failed: " := rfl
  rw [message_def, message_asChild, hmark]
  simp only [String.append_assoc]

theorem message_eq (e : ExecutionError) : e.message =
    ": child program failed: ".intercalate (e.path.map StepFrame.text) ++ ": " ++ e.root.message := by
  induction e using nested_induction with
  | own e h =>
    obtain ⟨hpath, hroot, -⟩ := h.walks
    rw [hpath, hroot, List.map_singleton, String.intercalate_singleton]
    rfl
  | child frame inner ih =>
    have hne : inner.path.map StepFrame.text ≠ [] := List.cons_ne_nil _ _
    rw [message_child, ih, path_child, root_child, List.map_cons, String.intercalate_cons_of_ne_nil hne]
    simp only [String.append_assoc]

theorem length_path (e : ExecutionError) : e.path.length = e.cause.childCount + 1 := by
  induction e using nested_induction with
  | own e h =>
    obtain ⟨hpath, -, hcount⟩ := h.walks
    rw [hpath, hcount, List.length_singleton]
  | child frame inner ih => rw [path_child, List.length_cons, ih, childCount_child]

theorem getLast?_path (e : ExecutionError) : e.path.getLast? = some e.innermost := by
  have hpath : e.levels.map frame = e.path := e.cause.map_frame_levels e.frame
  have hlast : e.levels.getLast? = some ⟨e.innermost, e.root⟩ := e.cause.getLast?_levels e.frame
  rw [← hpath, List.getLast?_map, hlast, Option.map_some]

theorem code_eq_iff (e : ExecutionError) :
    Coded.code e = "EXECUTION_CHILD_FAILED" ↔ 1 < e.path.length := by
  have hcode : Coded.code e = e.cause.code := rfl
  rw [length_path, hcode]
  cases h : e.cause with
  | child frame cause => exact iff_of_true rfl (by simp [FailureCause.childCount])
  | _ => simp [FailureCause.code, FailureCause.childCount]

/-- A failure is told as its path and its root cause. The path leads from the step that failed in the
outermost program to the innermost one, by the failures of child programs, and is longer than one step
exactly if the code says that a child program failed. -/
theorem message_path (e : ExecutionError) :
    Coded.message e = ": child program failed: ".intercalate (e.path.map StepFrame.text) ++ ": " ++
      Coded.message e.root ∧
    e.path ≠ [] ∧ e.path.head? = some e.frame ∧ e.path.getLast? = some e.innermost ∧
    e.path.length = e.cause.childCount + 1 ∧
    (Coded.code e = "EXECUTION_CHILD_FAILED" ↔ 1 < e.path.length) ∧
    (∃ levels : List ExecutionError, levels.head? = some e ∧
      levels.IsChain (fun outer inner => outer.cause = inner.asChild) ∧
      levels.getLast? = some ⟨e.innermost, e.root⟩ ∧ levels.map frame = e.path) ∧
    ∀ frame cause, e.root ≠ .child frame cause := by
  refine ⟨e.message_eq, List.cons_ne_nil _ _, rfl, e.getLast?_path, e.length_path, e.code_eq_iff, ?_,
    e.cause.root_ne_child⟩
  exact ⟨e.levels, e.cause.head?_levels e.frame, e.cause.isChain_levels e.frame,
    e.cause.getLast?_levels e.frame, e.cause.map_frame_levels e.frame⟩

end ExecutionError

end Brigade
