import Brigade.CallLog.Handles
import Brigade.Proofs.Splits
import Mathlib.Data.List.Basic
import Mathlib.Data.List.Induction
import Mathlib.Logic.Relation

/-! Handles on call logs after any operations. Two handles are on one log exactly if they belong to one
family, that is, if they come from one another by cloning; the entries of a log are those recorded through
its family since the family was last cleared, and no other family has a part in them. -/

namespace Brigade

/-- What can be done with handles on logs. -/
inductive LogOperation
  | record (handle : Nat) (entry : String)
  | clone (handle : Nat)
  | fresh
  | clear (handle : Nat)

namespace LogOperation

/-- The handle that an operation goes through; a fresh handle comes from none. -/
def handle? : LogOperation → Option Nat
  | .record handle _ | .clone handle | .clear handle => some handle
  | .fresh => none

def makesHandle : LogOperation → Bool
  | .clone _ | .fresh => true
  | .record _ _ | .clear _ => false

open Classical in
/-- What an operation records through the handles of a family. -/
noncomputable def recorded? (family : Nat → Prop) : LogOperation → Option String
  | .record handle entry => if family handle then some entry else none
  | .clone _ | .fresh | .clear _ => none

end LogOperation

namespace LogHandles

def perform (hs : LogHandles) : LogOperation → LogHandles
  | .record handle entry => hs.record handle entry
  | .clone handle => hs.clone handle
  | .fresh => hs.fresh
  | .clear handle => hs.clear handle

/-- The handles after operations, from one handle on a new log. -/
def performAll (ops : List LogOperation) : LogHandles := ops.foldl perform initial

/-- How many handles there are after operations. They are numbered in the order in which they are made. -/
def handleCount (ops : List LogOperation) : Nat := ops.countP LogOperation.makesHandle + 1

/-- Every operation goes through a handle that was made before it. -/
def Possible (ops : List LogOperation) : Prop :=
  ∀ before op after, ops = before ++ op :: after → ∀ handle ∈ op.handle?, handle < handleCount before

/-- One handle was cloned, and the other is its clone. -/
inductive ClonedAs (ops : List LogOperation) : Nat → Nat → Prop
  | intro {before after : List LogOperation} {handle : Nat} (h : ops = before ++ .clone handle :: after) :
    ClonedAs ops handle (handleCount before)

/-- Handles that come from one another by cloning, in either direction. -/
def Family (ops : List LogOperation) : Nat → Nat → Prop := Relation.EqvGen (ClonedAs ops)

/-- The entries are those recorded through a family since it was last cleared, or since the start if it
never was. -/
def HoldsSinceClear (family : Nat → Prop) (ops : List LogOperation) (entries : List String) : Prop :=
  ∃ before since, ops = before ++ since ∧
    (before = [] ∨ ∃ earlier handle, family handle ∧ before = earlier ++ [.clear handle]) ∧
    (∀ handle, .clear handle ∈ since → ¬family handle) ∧
    entries = since.filterMap (LogOperation.recorded? family)

variable {ops before more : List LogOperation} {op : LogOperation} {i j handle : Nat}

/-! ### Operations one after the other -/

@[simp] theorem performAll_nil : performAll [] = initial := rfl

@[simp] theorem performAll_concat (ops : List LogOperation) (op : LogOperation) :
    performAll (ops ++ [op]) = (performAll ops).perform op := by
  simp [performAll]

theorem handleCount_concat (ops : List LogOperation) (op : LogOperation) :
    handleCount (ops ++ [op]) = handleCount ops + if op.makesHandle then 1 else 0 := by
  simp only [handleCount, List.countP_append, List.countP_singleton]
  omega

theorem handleCount_le_append (ops more : List LogOperation) :
    handleCount ops ≤ handleCount (ops ++ more) := by
  rw [handleCount, handleCount, List.countP_append]
  omega

theorem lt_handleCount_concat : i < handleCount (ops ++ [op]) ↔
    i < handleCount ops ∨ (op.makesHandle = true ∧ i = handleCount ops) := by
  rw [handleCount_concat]
  split_ifs with hmakes
  · rw [Nat.lt_succ_iff_lt_or_eq, and_iff_right hmakes]
  · rw [Nat.add_zero, or_iff_left fun h => hmakes h.1]

theorem possible_nil : Possible [] := by
  intro before op after h
  simp at h

theorem possible_concat : Possible (ops ++ [op]) ↔
    Possible ops ∧ ∀ handle ∈ op.handle?, handle < handleCount ops :=
  forall_split_concat

@[elab_as_elim]
theorem Possible.induction {motive : ∀ ops, Possible ops → Prop} (nil : motive [] possible_nil)
    (concat : ∀ ops op (hops : Possible ops) (hop : ∀ handle ∈ op.handle?, handle < handleCount ops),
      motive ops hops → motive (ops ++ [op]) (possible_concat.2 ⟨hops, hop⟩))
    {ops : List LogOperation} (h : Possible ops) : motive ops h := by
  induction ops using List.reverseRecOn with
  | nil => exact nil
  | append_singleton ops op ih =>
    obtain ⟨hops, hop⟩ := possible_concat.1 h
    exact concat ops op hops hop (ih hops)

theorem Possible.of_append (h : Possible (ops ++ more)) : Possible ops := by
  rintro before op after rfl
  exact h before op (after ++ more) (by simp)

theorem Possible.handle_lt (h : Possible ops) :
    ∀ op ∈ ops, ∀ handle ∈ op.handle?, handle < handleCount ops := by
  intro op hop handle hhandle
  obtain ⟨before, after, rfl⟩ := List.append_of_mem hop
  exact Nat.lt_of_lt_of_le (h before op after rfl handle hhandle)
    (handleCount_le_append before (op :: after))

theorem clonedAs_concat : ClonedAs (ops ++ [op]) i j ↔
    ClonedAs ops i j ∨ (op = .clone i ∧ j = handleCount ops) := by
  constructor
  · rintro ⟨heq⟩
    rcases concat_eq_split_iff.1 heq with ⟨rest, hops, -⟩ | ⟨rfl, rfl, -⟩
    · exact .inl ⟨hops⟩
    · exact .inr ⟨rfl, rfl⟩
  · rintro (hold | ⟨rfl, rfl⟩)
    · obtain ⟨hops⟩ := hold
      exact ⟨concat_eq_split_iff.2 (.inl ⟨_, hops, rfl⟩)⟩
    · exact ⟨rfl⟩

theorem Family.mono (h : Family ops i j) (more : List LogOperation) : Family (ops ++ more) i j := by
  refine Relation.EqvGen.mono ?_ _ _ h
  rintro _ _ ⟨heq⟩
  exact ⟨by rw [heq, List.append_assoc, List.cons_append]⟩

/-! ### One operation -/

section perform

variable {hs : LogHandles} (hop : ∀ handle ∈ op.handle?, handle < hs.handles.length)
include hop

theorem handles_perform : ∃ made : List Nat, (hs.perform op).handles = hs.handles ++ made ∧
    made.length = if op.makesHandle then 1 else 0 := by
  cases op with
  | record handle entry => exact ⟨[], by simp [perform, LogHandles.record], rfl⟩
  | clone handle => exact ⟨_, handles_clone (hop handle rfl), rfl⟩
  | fresh => exact ⟨[hs.logs.length], rfl, rfl⟩
  | clear handle => exact ⟨[], by simp [perform, LogHandles.clear], rfl⟩

theorem valid_perform (hvalid : hs.Valid) : (hs.perform op).Valid := by
  cases op with
  | record handle entry => exact hvalid.update handle _
  | clone handle => exact hvalid.clone (hop handle rfl)
  | fresh => exact hvalid.fresh
  | clear handle => exact hvalid.update handle _

theorem sameLog_perform (hi : i < hs.handles.length) (hj : j < hs.handles.length) :
    (hs.perform op).SameLog i j ↔ hs.SameLog i j := by
  obtain ⟨made, hmade, -⟩ := handles_perform hop
  rw [SameLog, hmade, List.getElem?_append_left hi, List.getElem?_append_left hj, SameLog]

theorem log_perform_of_not_sameLog (hvalid : hs.Valid) (hj : j < hs.handles.length)
    (hother : ∀ handle ∈ op.handle?, ¬hs.SameLog handle j) : (hs.perform op).log j = hs.log j := by
  cases op with
  | record handle entry => exact log_update_of_not_sameLog (hother handle rfl)
  | clone handle => exact log_clone_of_lt (hop handle rfl) hj
  | fresh => exact log_fresh_of_lt hvalid hj
  | clear handle => exact log_update_of_not_sameLog (hother handle rfl)

end perform

/-! ### Families and logs -/

theorem valid_initial : initial.Valid := by
  intro n hn
  rw [List.mem_singleton.1 hn]
  exact Nat.one_pos

theorem Possible.performAll_valid (h : Possible ops) :
    (performAll ops).handles.length = handleCount ops ∧ (performAll ops).Valid := by
  induction h using Possible.induction with
  | nil => exact ⟨rfl, valid_initial⟩
  | concat ops op hops hop ih =>
    obtain ⟨hlength, hvalid⟩ := ih
    rw [← hlength] at hop
    obtain ⟨made, hmade, hcount⟩ := handles_perform hop
    rw [performAll_concat, handleCount_concat]
    refine ⟨?_, valid_perform hop hvalid⟩
    rw [hmade, List.length_append, hcount, hlength]

theorem ClonedAs.sameLog (h : Possible ops) (hclone : ClonedAs ops i j) :
    i < handleCount ops ∧ j < handleCount ops ∧ (performAll ops).SameLog i j := by
  induction h using Possible.induction with
  | nil =>
    obtain ⟨heq⟩ := hclone
    simp at heq
  | concat ops op hops hop ih =>
    obtain ⟨hlength, -⟩ := hops.performAll_valid
    rw [performAll_concat, handleCount_concat]
    rcases clonedAs_concat.1 hclone with hold | ⟨rfl, rfl⟩
    · obtain ⟨hi, hj, hsame⟩ := ih hold
      refine ⟨Nat.lt_add_right _ hi, Nat.lt_add_right _ hj, ?_⟩
      rw [← hlength] at hop hi hj
      exact (sameLog_perform hop hi hj).2 hsame
    · have hi := hop i rfl
      refine ⟨Nat.lt_add_right _ hi, Nat.lt_succ_self _, ?_⟩
      rw [← hlength] at hi ⊢
      exact sameLog_clone hi

theorem Family.sameLog (h : Possible ops) (hfamily : Family ops i j) : (performAll ops).SameLog i j := by
  induction hfamily with
  | rel i j hclone => exact (hclone.sameLog h).2.2
  | refl i => rfl
  | symm i j _ ih => exact ih.symm
  | trans i j k _ _ ih₁ ih₂ => exact ih₁.trans ih₂

theorem family_of_sameLog (h : Possible ops) (hi : i < handleCount ops) (hj : j < handleCount ops)
    (hsame : (performAll ops).SameLog i j) : Family ops i j := by
  induction h using Possible.induction generalizing i j with
  | nil =>
    obtain rfl : i = 0 := Nat.lt_one_iff.1 hi
    obtain rfl : j = 0 := Nat.lt_one_iff.1 hj
    exact .refl 0
  | concat ops op hops hop ih =>
    obtain ⟨hlength, hvalid⟩ := hops.performAll_valid
    have hexists : ∀ handle ∈ op.handle?, handle < (performAll ops).handles.length := hlength ▸ hop
    rw [performAll_concat] at hsame
    have hold {k m : Nat} (hk : k < handleCount ops) (hm : m < handleCount ops)
        (hsame : ((performAll ops).perform op).SameLog k m) : Family (ops ++ [op]) k m := by
      rw [← hlength] at hk hm
      exact (ih (hlength ▸ hk) (hlength ▸ hm) ((sameLog_perform hexists hk hm).1 hsame)).mono [op]
    -- a new handle is a clone, which belongs to the family of the handle it was cloned from, or fresh
    have hnew {k : Nat} (hk : k < handleCount ops) (hmakes : op.makesHandle = true)
        (hsame : ((performAll ops).perform op).SameLog k (handleCount ops)) :
        Family (ops ++ [op]) k (handleCount ops) := by
      cases op with
      | clone handle =>
        have hclone := sameLog_clone (hexists handle rfl)
        rw [hlength] at hclone
        exact .trans _ _ _ (hold hk (hop handle rfl) (hsame.trans hclone.symm)) (.rel _ _ ⟨rfl⟩)
      | fresh =>
        rw [← hlength] at hk hsame
        exact absurd hsame (not_sameLog_fresh hvalid hk)
      | record | clear => cases hmakes
    rcases lt_handleCount_concat.1 hi with hi | ⟨hmakes, rfl⟩
    · rcases lt_handleCount_concat.1 hj with hj | ⟨hmakes, rfl⟩
      · exact hold hi hj hsame
      · exact hnew hi hmakes hsame
    · rcases lt_handleCount_concat.1 hj with hj | ⟨-, rfl⟩
      · exact (hnew hj hmakes hsame.symm).symm
      · exact .refl _

/-- Handles are on one log exactly if they are of one family. -/
theorem sameLog_iff (h : Possible ops) (hi : i < handleCount ops) (hj : j < handleCount ops) :
    (performAll ops).SameLog i j ↔ Family ops i j :=
  ⟨family_of_sameLog h hi hj, Family.sameLog h⟩

theorem family_concat_iff (h : Possible (ops ++ [op])) (hi : i < handleCount ops)
    (hj : j < handleCount ops) : Family (ops ++ [op]) i j ↔ Family ops i j := by
  obtain ⟨hops, hop⟩ := possible_concat.1 h
  refine ⟨fun hfamily => ?_, fun hfamily => hfamily.mono [op]⟩
  have hsame := hfamily.sameLog h
  obtain ⟨hlength, -⟩ := hops.performAll_valid
  rw [performAll_concat] at hsame
  rw [← hlength] at hop
  exact family_of_sameLog hops hi hj ((sameLog_perform hop (hlength ▸ hi) (hlength ▸ hj)).1 hsame)

/-! ### What a family holds -/

theorem holdsSinceClear_nil (family : Nat → Prop) : HoldsSinceClear family [] [] :=
  ⟨[], [], rfl, .inl rfl, nofun, rfl⟩

namespace HoldsSinceClear

variable {family family' : Nat → Prop} {entries entries' : List String} {between since : List LogOperation}

theorem record (h : HoldsSinceClear family ops entries) (hmine : family handle) (entry : String) :
    HoldsSinceClear family (ops ++ [.record handle entry]) (entries ++ [entry]) := by
  obtain ⟨before, since, rfl, hbefore, hsince, rfl⟩ := h
  refine ⟨before, since ++ [.record handle entry], by simp, hbefore, fun cleared hcleared => ?_, ?_⟩
  · rcases List.mem_append.1 hcleared with hcleared | hcleared
    · exact hsince cleared hcleared
    · cases List.mem_singleton.1 hcleared
  · simp [LogOperation.recorded?, hmine]

theorem clear (family : Nat → Prop) (ops : List LogOperation) (hmine : family handle) :
    HoldsSinceClear family (ops ++ [.clear handle]) [] :=
  ⟨ops ++ [.clear handle], [], by simp, .inr ⟨ops, handle, hmine, rfl⟩, nofun, rfl⟩

theorem quiet (h : HoldsSinceClear family ops entries) (hrecord : op.recorded? family = none)
    (hclear : ∀ handle, op = .clear handle → ¬family handle) :
    HoldsSinceClear family (ops ++ [op]) entries := by
  obtain ⟨before, since, rfl, hbefore, hsince, rfl⟩ := h
  refine ⟨before, since ++ [op], by simp, hbefore, fun cleared hcleared => ?_, by simp [hrecord]⟩
  rcases List.mem_append.1 hcleared with hcleared | hcleared
  · exact hsince cleared hcleared
  · exact hclear cleared (List.mem_singleton.1 hcleared).symm

theorem congr (h : HoldsSinceClear family ops entries)
    (hsame : ∀ op ∈ ops, ∀ handle ∈ op.handle?, family' handle ↔ family handle) :
    HoldsSinceClear family' ops entries := by
  obtain ⟨before, since, rfl, hbefore, hsince, rfl⟩ := h
  refine ⟨before, since, rfl, hbefore.imp_right ?_, fun cleared hcleared => ?_, ?_⟩
  · rintro ⟨earlier, cleared, hmine, rfl⟩
    exact ⟨earlier, cleared, (hsame (.clear cleared) (by simp) cleared rfl).2 hmine, rfl⟩
  · rw [hsame (.clear cleared) (by simp [hcleared]) cleared rfl]
    exact hsince cleared hcleared
  · refine List.filterMap_congr fun op hop => ?_
    cases op with
    | record handle entry =>
      classical
      exact if_congr (hsame (.record handle entry) (by simp [hop]) handle rfl).symm rfl rfl
    | _ => rfl

theorem of_none (hnone : ∀ op ∈ ops, ∀ handle ∈ op.handle?, ¬family handle) :
    HoldsSinceClear family ops [] := by
  refine ⟨[], ops, rfl, .inl rfl, fun cleared hcleared => hnone _ hcleared cleared rfl, ?_⟩
  refine (List.filterMap_eq_nil_iff.2 fun op hop => ?_).symm
  cases op with
  | record handle entry => exact if_neg (hnone _ hop handle rfl)
  | _ => rfl

theorem eq_nil_of_no_clear
    (hlast : before ++ between = [] ∨
      ∃ earlier handle, family handle ∧ before ++ between = earlier ++ [.clear handle])
    (hsince : ∀ handle, .clear handle ∈ between ++ since → ¬family handle) : between = [] := by
  rcases between.eq_nil_or_concat with hnil | ⟨rest, op, rfl⟩
  · exact hnil
  · rcases hlast with hnil | ⟨earlier, handle, hmine, heq⟩
    · simp at hnil
    · rw [List.concat_eq_append, ← List.append_assoc] at heq
      obtain ⟨-, rfl⟩ := List.append_singleton_inj.1 heq
      exact absurd hmine (hsince handle (by simp))

/-- The last clear through a family is one place, so the entries are told. -/
theorem unique (h : HoldsSinceClear family ops entries) (h' : HoldsSinceClear family ops entries') :
    entries = entries' := by
  obtain ⟨before, since, rfl, hbefore, hsince, rfl⟩ := h
  obtain ⟨before', since', heq, hbefore', hsince', rfl⟩ := h'
  rcases List.append_eq_append_iff.1 heq with ⟨between, rfl, rfl⟩ | ⟨between, rfl, rfl⟩
  · rw [eq_nil_of_no_clear hbefore' hsince, List.nil_append]
  · rw [eq_nil_of_no_clear hbefore hsince', List.nil_append]

end HoldsSinceClear

theorem holds_of_lt (h : Possible (ops ++ [op])) (hj : j < handleCount ops)
    (hholds : HoldsSinceClear (Family ops j) ops ((performAll ops).log j).entries) :
    HoldsSinceClear (Family (ops ++ [op]) j) (ops ++ [op]) ((performAll (ops ++ [op])).log j).entries := by
  obtain ⟨hops, hop⟩ := possible_concat.1 h
  obtain ⟨hlength, hvalid⟩ := hops.performAll_valid
  have hexists : ∀ handle ∈ op.handle?, handle < (performAll ops).handles.length := hlength ▸ hop
  have hold : HoldsSinceClear (Family (ops ++ [op]) j) ops ((performAll ops).log j).entries :=
    hholds.congr fun x hx handle hhandle => family_concat_iff h hj (hops.handle_lt x hx handle hhandle)
  -- a handle outside of the family is on another log, and what is done through it is not seen
  have hother {handle : Nat} (hhandle : handle ∈ op.handle?) (hforeign : ¬Family (ops ++ [op]) j handle) :
      ¬(performAll ops).SameLog handle j := by
    intro hsame
    exact hforeign ((family_of_sameLog hops hj (hop handle hhandle) hsame.symm).mono [op])
  have hmine {handle : Nat} (hhandle : handle ∈ op.handle?) (hfamily : Family (ops ++ [op]) j handle) :
      (performAll ops).SameLog handle j :=
    (((family_concat_iff h hj (hop handle hhandle)).1 hfamily).sameLog hops).symm
  rw [performAll_concat]
  cases op with
  | record handle entry =>
    by_cases hfamily : Family (ops ++ [.record handle entry]) j handle
    · rw [perform, LogHandles.record, log_update_of_sameLog hvalid (hexists handle rfl) (hmine rfl hfamily),
        CallLog.entries_record]
      exact hold.record hfamily entry
    · rw [perform, LogHandles.record, log_update_of_not_sameLog (hother rfl hfamily)]
      exact hold.quiet (if_neg hfamily) nofun
  | clone handle =>
    rw [perform, log_clone_of_lt (hexists handle rfl) (hlength ▸ hj)]
    exact hold.quiet rfl nofun
  | fresh =>
    rw [perform, log_fresh_of_lt hvalid (hlength ▸ hj)]
    exact hold.quiet rfl nofun
  | clear handle =>
    by_cases hfamily : Family (ops ++ [.clear handle]) j handle
    · rw [perform, LogHandles.clear, log_update_of_sameLog hvalid (hexists handle rfl) (hmine rfl hfamily)]
      exact .clear _ ops hfamily
    · rw [perform, LogHandles.clear, log_update_of_not_sameLog (hother rfl hfamily)]
      refine hold.quiet rfl fun cleared hcleared => ?_
      cases hcleared
      exact hfamily

theorem holds_clone (h : Possible (ops ++ [.clone handle]))
    (hholds : HoldsSinceClear (Family ops handle) ops ((performAll ops).log handle).entries) :
    HoldsSinceClear (Family (ops ++ [.clone handle]) (handleCount ops)) (ops ++ [.clone handle])
      ((performAll (ops ++ [.clone handle])).log (handleCount ops)).entries := by
  obtain ⟨hops, hop⟩ := possible_concat.1 h
  have hlength := hops.performAll_valid.1
  have hhandle : handle < (performAll ops).handles.length := hlength ▸ hop handle rfl
  have hclone : Family (ops ++ [.clone handle]) handle (handleCount ops) := .rel _ _ ⟨rfl⟩
  rw [← (hclone.sameLog h).log_eq]
  refine (holds_of_lt h (hop handle rfl) hholds).congr fun op _ other _ => ?_
  exact ⟨hclone.trans _ _ _, hclone.symm.trans _ _ _⟩

theorem holds_fresh (h : Possible (ops ++ [.fresh])) :
    HoldsSinceClear (Family (ops ++ [.fresh]) (handleCount ops)) (ops ++ [.fresh])
      ((performAll (ops ++ [.fresh])).log (handleCount ops)).entries := by
  have hops := (possible_concat.1 h).1
  obtain ⟨hlength, hvalid⟩ := hops.performAll_valid
  have hlog : (performAll (ops ++ [.fresh])).log (handleCount ops) = .empty := by
    rw [performAll_concat, perform, ← hlength, log_fresh]
  rw [hlog]
  refine .of_none fun op hop handle hhandle hfamily => ?_
  have hlt : handle < handleCount ops := by
    rcases List.mem_append.1 hop with hop | hop
    · exact hops.handle_lt op hop handle hhandle
    · cases List.mem_singleton.1 hop
      cases hhandle
  have hsame := hfamily.sameLog h
  rw [performAll_concat, ← hlength] at hsame
  rw [← hlength] at hlt
  exact not_sameLog_fresh hvalid hlt hsame.symm

theorem holdsSinceClear (h : Possible ops) (hj : j < handleCount ops) :
    HoldsSinceClear (Family ops j) ops ((performAll ops).log j).entries := by
  induction h using Possible.induction generalizing j with
  | nil =>
    obtain rfl : j = 0 := Nat.lt_one_iff.1 hj
    exact holdsSinceClear_nil _
  | concat ops op hops hop ih =>
    have h := possible_concat.2 ⟨hops, hop⟩
    rcases lt_handleCount_concat.1 hj with hj | ⟨hmakes, rfl⟩
    · exact holds_of_lt h hj (ih hj)
    · cases op with
      | clone handle => exact holds_clone h (ih (hop handle rfl))
      | fresh => exact holds_fresh h
      | record | clear => cases hmakes

theorem log_append (h : Possible (ops ++ more)) (hj : j < handleCount ops)
    (hother : ∀ op ∈ more, ∀ handle ∈ op.handle?, ¬Family (ops ++ more) j handle) :
    (performAll (ops ++ more)).log j = (performAll ops).log j := by
  induction more using List.reverseRecOn with
  | nil => rw [List.append_nil]
  | append_singleton more op ih =>
    rw [← List.append_assoc] at h hother ⊢
    obtain ⟨hbefore, hop⟩ := possible_concat.1 h
    obtain ⟨hlength, hvalid⟩ := hbefore.performAll_valid
    have hlt : j < handleCount (ops ++ more) := Nat.lt_of_lt_of_le hj (handleCount_le_append ops more)
    have hforeign : ∀ handle ∈ op.handle?, ¬(performAll (ops ++ more)).SameLog handle j := by
      intro handle hhandle hsame
      refine hother op (by simp) handle hhandle ?_
      exact (family_of_sameLog hbefore hlt (hop handle hhandle) hsame.symm).mono [op]
    rw [performAll_concat, log_perform_of_not_sameLog (hlength ▸ hop) hvalid (hlength ▸ hlt) hforeign]
    refine ih hbefore fun x hx handle hhandle hfamily => ?_
    exact hother x (List.mem_append_left _ hx) handle hhandle (hfamily.mono [op])

/-- Handles alias exactly their clones: they are on one log if they are of one family, the log holds what
was recorded through the family since it was last cleared, and other families have no part in it. -/
theorem entries_of_family (h : Possible ops) (hj : j < handleCount ops) :
    (∀ i < handleCount ops, (performAll ops).SameLog i j ↔ Family ops i j) ∧
      (∀ entries, ((performAll ops).log j).entries = entries ↔
        HoldsSinceClear (Family ops j) ops entries) ∧
      ((performAll ops).log j).size = ((performAll ops).log j).entries.length ∧
      (((performAll ops).log j).isEmpty = true ↔ ((performAll ops).log j).entries = []) ∧
      ∀ more, Possible (ops ++ more) →
        (∀ op ∈ more, ∀ handle ∈ op.handle?, ¬Family (ops ++ more) j handle) →
        ((performAll (ops ++ more)).log j).entries = ((performAll ops).log j).entries := by
  have hholds := holdsSinceClear h hj
  refine ⟨fun i hi => sameLog_iff h hi hj, fun entries => ⟨fun heq => heq ▸ hholds, hholds.unique⟩,
    (CallLog.length_entries _).symm, CallLog.isEmpty_iff _, fun more hmore hother => ?_⟩
  rw [log_append hmore hj hother]

def cloneAndFresh : List LogOperation :=
  [.record 0 "flour", .clone 0, .fresh, .clear 2, .record 1 "water"]

theorem entries_of_family_cloneAndFresh :
    ((performAll (cloneAndFresh ++ [.record 2 "salt"])).log 0).entries = ["flour", "water"] := by
  have hmore : Possible (cloneAndFresh ++ [.record 2 "salt"]) := by
    change Possible ([] ++ [.record 0 "flour"] ++ [.clone 0] ++ [.fresh] ++ [.clear 2] ++
      [.record 1 "water"] ++ [.record 2 "salt"])
    simp only [possible_concat, possible_nil]
    decide
  obtain ⟨hsame, hentries, -, -, hframe⟩ := entries_of_family hmore.of_append (j := 0) (by decide)
  have hself : Family cloneAndFresh 0 0 := .refl 0
  have hclone : Family cloneAndFresh 0 1 := ((hsame 1 (by decide)).1 (by decide)).symm
  have hforeign : ¬Family cloneAndFresh 0 2 :=
    fun hfamily => absurd ((hsame 2 (by decide)).2 hfamily.symm) (by decide)
  have hsalt := hframe [.record 2 "salt"] hmore fun op hop handle hhandle hfamily => by
    cases List.mem_singleton.1 hop
    cases hhandle
    exact absurd (hfamily.sameLog hmore) (by decide)
  refine hsalt.trans ((hentries _).2 ⟨[], cloneAndFresh, rfl, .inl rfl, ?_, ?_⟩)
  · intro handle hclear hfamily
    obtain rfl : handle = 2 := by simpa [cloneAndFresh] using hclear
    exact hforeign hfamily
  · have hflour : LogOperation.recorded? (Family cloneAndFresh 0) (.record 0 "flour") = some "flour" :=
      if_pos hself
    have hwater : LogOperation.recorded? (Family cloneAndFresh 0) (.record 1 "water") = some "water" :=
      if_pos hclone
    conv_rhs => arg 2; unfold cloneAndFresh
    rw [List.filterMap_cons_some hflour, List.filterMap_cons_none rfl, List.filterMap_cons_none rfl,
      List.filterMap_cons_none rfl, List.filterMap_cons_some hwater, List.filterMap_nil]

end LogHandles

end Brigade
