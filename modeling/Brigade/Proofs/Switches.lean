import Brigade.CommandLine.Arguments

/-! The switch for recording interpreters among the arguments. With the switch turned on beforehand,
arguments are read as they are without, unless they turn it on themselves; and where the switch stands
between other arguments it is as if it had been turned on beforehand. So the arguments that are accepted
with the switch are those that are accepted without, and the options differ in the mode alone. -/

namespace Brigade.CommandLine

/-- What keeps in mind whether the switch is on. -/
class Switched (α : Type) where
  isOn : α → Bool
  turnedOn : α → α

open Switched

instance : Switched Found := ⟨Found.mock, fun f => { f with mock := true }⟩

instance : Switched Scan :=
  ⟨fun s => s.found.mock, fun s => { s with found := { s.found with mock := true } }⟩

instance : Switched Options := ⟨Options.mock, fun o => { o with mock := true }⟩

/-- Two results, the second from a start with the switch turned on. They are the same but for the switch,
which in the first is as it was at the start; or the switch was turned on, which fails where it is on. -/
inductive Twinned {α : Type} [Switched α] (start : Bool) : Except Stop α → Except Stop α → Prop
  | value {v : α} (hv : isOn v = start) : Twinned start (.ok v) (.ok (turnedOn v))
  | failure {stop : Stop} : Twinned start (.error stop) (.error stop)
  | twice {r : Except Stop α} {stop : Stop} (hr : ∀ v, r = .ok v → isOn v = true) :
    Twinned start r (.error stop)

namespace Twinned

variable {α β : Type} [Switched α] [Switched β] {start : Bool} {r r' : Except Stop α}

theorem isOn_of_ok (h : Twinned true r r') {v : α} (hr : r = .ok v) : isOn v = true := by
  cases h with
  | value hv =>
    cases hr
    exact hv
  | failure => cases hr
  | twice h => exact h v hr

theorem bind (h : Twinned start r r') {f : α → Except Stop β}
    (hf : ∀ v, Twinned (isOn v) (f v) (f (turnedOn v))) : Twinned start (r >>= f) (r' >>= f) := by
  cases h with
  | @value v hv =>
    have hfv := hf v
    rw [hv] at hfv
    exact hfv
  | failure => exact .failure
  | twice hr =>
    refine .twice fun w hw => ?_
    cases r with
    | error stop => cases hw
    | ok v =>
      have hfv := hf v
      rw [hr v rfl] at hfv
      exact hfv.isOn_of_ok hw

theorem foldlM {γ : Type} {step : α → γ → Except Stop α}
    (hstep : ∀ v a, Twinned (isOn v) (step v a) (step (turnedOn v) a)) (as : List γ) (v : α) :
    Twinned (isOn v) (as.foldlM step v) (as.foldlM step (turnedOn v)) := by
  induction as generalizing v with
  | nil => exact .value rfl
  | cons a rest ih => exact (hstep v a).bind ih

end Twinned

namespace Found

theorem set_twinned (f : Found) (setting : Setting) (value : String) :
    Twinned (isOn f) (f.set setting value) ((turnedOn f).set setting value) := by
  -- the place that is filled does not depend on the switch
  have hfill {τ : Type} (place given : Option τ) (put : Option τ → Found)
      (hput : ∀ v, isOn (put v) = isOn f) :
      Twinned (isOn f) (do return put (← fill place given))
        (do return turnedOn (put (← fill place given))) := by
    cases fill place given with
    | error stop => exact .failure
    | ok v => exact .value (hput v)
  cases setting with
  | maker => exact .value rfl
  | project => exact hfill f.project _ (fun v => { f with project := v }) fun _ => rfl
  | baker => exact hfill f.chosen _ (fun v => { f with chosen := v }) fun _ => rfl
  | seed => exact hfill f.seed _ (fun v => { f with seed := v }) fun _ => rfl
  | doughStock => exact hfill f.doughStock _ (fun v => { f with doughStock := v }) fun _ => rfl

theorem turnOn_twinned (f : Found) (switch : Switch) :
    Twinned (isOn f) (f.turnOn switch) ((turnedOn f).turnOn switch) := by
  cases switch with
  | debug =>
    cases hdebug : f.debug with
    | true =>
      simp only [turnOn, turnedOn, hdebug, if_true]
      exact .failure
    | false =>
      simp only [turnOn, turnedOn, hdebug, Bool.false_eq_true, if_false]
      exact .value rfl
  | mock =>
    refine .twice fun v hv => ?_
    simp only [turnOn] at hv
    split at hv
    · cases hv
    · cases hv
      rfl
  | help => exact .failure
  | version => exact .failure

theorem settle_twinned (f : Found) (pending : Option Open) :
    Twinned (isOn f) (f.settle pending) ((turnedOn f).settle pending) := by
  match pending with
  | none => exact .value rfl
  | some (.setting setting (some value)) => exact f.set_twinned setting value
  | some (.setting _ none) => exact .failure
  | some (.order text) =>
    simp only [settle]
    cases Order.ofText text with
    | ok order => exact .value rfl
    | error e => exact .failure

end Found

namespace Scan

variable (s : Scan)

theorem settled_twinned : Twinned (isOn s) s.settled (turnedOn s).settled :=
  (s.found.settle_twinned s.pending).bind fun _ => .value rfl

theorem turnOn_twinned (switch : Switch) :
    Twinned (isOn s) (s.turnOn switch) ((turnedOn s).turnOn switch) :=
  s.settled_twinned.bind fun t => (t.found.turnOn_twinned switch).bind fun _ => .value rfl

theorem set_twinned (setting : Setting) (value : Option String) :
    Twinned (isOn s) (s.set setting value) ((turnedOn s).set setting value) := by
  refine s.settled_twinned.bind fun t => ?_
  cases value with
  | none => exact .value rfl
  | some value => exact (t.found.set_twinned setting value).bind fun _ => .value rfl

theorem takeOrder_twinned (text : String) :
    Twinned (isOn s) (s.takeOrder text) ((turnedOn s).takeOrder text) := by
  have hordered : (turnedOn s).ordered = s.ordered := rfl
  simp only [takeOrder, hordered]
  split
  · exact .failure
  · exact s.settled_twinned.bind fun _ => .value rfl

theorem takeLong_twinned (name : String) (value : Option String) :
    Twinned (isOn s) (s.takeLong name value) ((turnedOn s).takeLong name value) := by
  simp only [takeLong]
  split
  · exact s.turnOn_twinned _
  · exact s.set_twinned _ _
  · exact .failure
  · exact .failure

theorem takeShort_twinned (cs : List Char) :
    Twinned (isOn s) (s.takeShort cs) ((turnedOn s).takeShort cs) := by
  induction cs generalizing s with
  | nil => exact .value rfl
  | cons c rest ih =>
    simp only [takeShort]
    split
    · exact (s.turnOn_twinned _).bind ih
    · exact s.set_twinned _ _
    · exact .failure

theorem takePlain_twinned (text : String) :
    Twinned (isOn s) (s.takePlain text) ((turnedOn s).takePlain text) := by
  have hpending : (turnedOn s).pending = s.pending := rfl
  simp only [takePlain, hpending]
  split
  · exact .value rfl
  · exact s.takeOrder_twinned text

theorem take_twinned (argument : String) :
    Twinned (isOn s) (s.take argument) ((turnedOn s).take argument) := by
  have hplain : (turnedOn s).plain = s.plain := rfl
  simp only [take, hplain]
  split
  · exact s.takeOrder_twinned argument
  · split
    · exact .value rfl
    · exact s.takeLong_twinned _ _
    · exact s.takeShort_twinned _
    · exact s.takePlain_twinned argument

theorem finish_twinned : Twinned (isOn s) s.finish (turnedOn s).finish := by
  refine s.settled_twinned.bind fun t => ?_
  have horder : (turnedOn t).found.order = t.found.order := rfl
  simp only [horder]
  cases t.found.order with
  | none => exact .failure
  | some order => exact .value rfl

/-- The options that come of the arguments that are left. -/
def read (arguments : List String) : Except Stop Options := arguments.foldlM take s >>= finish

theorem read_cons (argument : String) (rest : List String) :
    s.read (argument :: rest) = s.take argument >>= fun t => t.read rest := by
  rw [read, List.foldlM_cons, bind_assoc]
  rfl

theorem read_twinned (arguments : List String) :
    Twinned (isOn s) (s.read arguments) ((turnedOn s).read arguments) :=
  (Twinned.foldlM take_twinned arguments s).bind finish_twinned

variable {s}

theorem settled_eq_ok {t : Scan} (h : s.settled = .ok t) :
    ∃ f, s.found.settle s.pending = .ok f ∧ t = { s with found := f, pending := none } := by
  simp only [settled, bind, Except.bind] at h
  cases hsettle : s.found.settle s.pending with
  | error stop => simp [hsettle] at h
  | ok f =>
    simp only [hsettle] at h
    cases h
    exact ⟨f, rfl, rfl⟩

/-- All that is done with an argument settles what was open, but to note that the rest are plain. -/
theorem take_of_settled {t : Scan} (h : s.settled = .ok t) (argument : String) :
    s.take argument = t.take argument ∨
      (s.take argument = .ok { s with plain := true } ∧
        t.take argument = .ok { t with plain := true }) := by
  obtain ⟨f, hsettle, rfl⟩ := settled_eq_ok h
  let t : Scan := { s with found := f, pending := none }
  have hturnOn (switch : Switch) : s.turnOn switch = t.turnOn switch := by
    simp only [turnOn, h]
    rfl
  have hset (setting : Setting) (value : Option String) : s.set setting value = t.set setting value := by
    simp only [set, h]
    rfl
  have horder (text : String) : s.takeOrder text = t.takeOrder text := by
    simp only [takeOrder, h]
    rfl
  -- what could be settled is not waiting for a value, so a plain argument is the order in both
  have hplain (text : String) : s.takePlain text = t.takePlain text := by
    have hwaits (setting : Setting) : s.pending ≠ some (.setting setting none) := by
      intro hpending
      rw [hpending] at hsettle
      cases hsettle
    rw [takePlain]
    split
    · next hpending => exact absurd hpending (hwaits _)
    · exact horder text
  simp only [take]
  split
  · exact .inl (horder argument)
  · split
    · exact .inr ⟨rfl, rfl⟩
    · refine .inl ?_
      simp only [takeLong, hturnOn, hset]
      rfl
    · refine .inl ?_
      simp only [takeShort, hturnOn, hset]
      rfl
    · exact .inl (hplain argument)

theorem read_of_settled {t : Scan} (h : s.settled = .ok t) (arguments : List String) :
    s.read arguments = t.read arguments := by
  induction arguments generalizing s t with
  | nil =>
    obtain ⟨f, -, rfl⟩ := settled_eq_ok h
    simp only [read, List.foldlM_nil, pure_bind, finish, h]
    rfl
  | cons argument rest ih =>
    rw [read_cons, read_cons]
    obtain heq | ⟨hs, ht⟩ := take_of_settled h argument
    · rw [heq]
    · rw [hs, ht]
      obtain ⟨f, hsettle, rfl⟩ := settled_eq_ok h
      refine ih ?_
      simp only [settled, hsettle]
      rfl

/-- The switch settles what was open and is turned on, unless it stands where an order is expected. -/
theorem take_mock {t : Scan} (h : s.take "--mock" = .ok t) :
    (t.plain = true ∧ t.ordered = true ∧ t.pending = some (.order "--mock")) ∨
      ∃ u, s.settled = .ok u ∧ isOn u = false ∧ t = turnedOn u := by
  by_cases hplain : s.plain = true
  · rw [take, if_pos hplain, takeOrder] at h
    split at h
    · cases h
    · cases hsettled : s.settled with
      | error stop => simp [hsettled, bind, Except.bind] at h
      | ok u =>
        obtain ⟨f, -, rfl⟩ := settled_eq_ok hsettled
        rw [hsettled] at h
        cases h
        exact .inl ⟨hplain, rfl, rfl⟩
  · have htake : s.take "--mock" = s.turnOn .mock := by
      rw [take, if_neg hplain]
      rfl
    rw [htake, turnOn] at h
    cases hsettled : s.settled with
    | error stop => simp [hsettled, bind, Except.bind] at h
    | ok u =>
      refine .inr ⟨u, rfl, ?_⟩
      simp only [hsettled, bind, Except.bind, Found.turnOn] at h
      cases hmock : u.found.mock with
      | true => simp [hmock] at h
      | false =>
        simp only [hmock, Bool.false_eq_true, if_false] at h
        cases h
        exact ⟨hmock, rfl⟩

theorem read_ne_ok_of_order {t : Scan} (hplain : t.plain = true) (hordered : t.ordered = true)
    (hpending : t.pending = some (.order "--mock")) (arguments : List String) (o : Options) :
    t.read arguments ≠ .ok o := by
  cases arguments with
  | nil =>
    have hsettle : t.found.settle t.pending = .error .misuse := by
      rw [hpending]
      rfl
    simp [read, finish, settled, hsettle, bind, Except.bind, pure, Except.pure]
  | cons argument rest =>
    have htake : t.take argument = .error .misuse := by
      rw [take, if_pos hplain, takeOrder, if_pos hordered]
    rw [read_cons, htake]
    exact nofun

theorem read_of_read_mock {arguments : List String} {o' : Options}
    (h : s.read ("--mock" :: arguments) = .ok o') :
    ∃ o, s.read arguments = .ok o ∧ o.mock = false ∧ o' = turnedOn o := by
  rw [read_cons] at h
  cases htake : s.take "--mock" with
  | error stop =>
    rw [htake] at h
    cases h
  | ok t =>
    have ht : t.read arguments = .ok o' := by
      rw [htake] at h
      exact h
    obtain ⟨hplain, hordered, hpending⟩ | ⟨u, hsettled, hoff, rfl⟩ := take_mock htake
    · exact absurd ht (read_ne_ok_of_order hplain hordered hpending arguments o')
    · have htwins := u.read_twinned arguments
      rw [hoff, ← read_of_settled hsettled, ht] at htwins
      generalize s.read arguments = r at htwins
      cases htwins with
      | value ho => exact ⟨_, rfl, ho, rfl⟩

theorem read_turnedOn {arguments : List String} {o : Options} (hread : s.read arguments = .ok o)
    (hoff : o.mock = false) : (turnedOn s).read arguments = .ok (turnedOn o) := by
  have htwins := s.read_twinned arguments
  rw [hread] at htwins
  generalize (turnedOn s).read arguments = r at htwins
  cases htwins with
  | value => rfl
  | twice ho =>
    have hon : o.mock = true := ho o rfl
    exact absurd (hoff.symm.trans hon) nofun

end Scan

namespace Options

/-- The options of the arguments with the switch put in at some place where they are accepted with it. -/
def OfSwitched (arguments : List String) (o' : Options) : Prop :=
  ∃ before after, before ++ after = arguments ∧ ofArguments (before ++ "--mock" :: after) = .ok o'

theorem ofArguments_append (before after : List String) :
    ofArguments (before ++ after) = before.foldlM Scan.take Scan.initial >>= fun s => s.read after := by
  rw [ofArguments, List.foldlM_append, bind_assoc]
  rfl

/-- Arguments are accepted with the switch if they are accepted without, but not if it is among them
already; and the options differ in the mode alone. -/
theorem ofSwitched_iff {arguments : List String} {o' : Options} : OfSwitched arguments o' ↔
    ∃ o, ofArguments arguments = .ok o ∧ o.mock = false ∧ o' = { o with mock := true } := by
  constructor
  · rintro ⟨before, after, rfl, h⟩
    rw [ofArguments_append] at h ⊢
    cases hbefore : before.foldlM Scan.take Scan.initial with
    | error stop =>
      rw [hbefore] at h
      cases h
    | ok s =>
      rw [hbefore] at h
      exact Scan.read_of_read_mock h
  · rintro ⟨o, ho, hoff, rfl⟩
    exact ⟨[], arguments, rfl, Scan.read_turnedOn ho hoff⟩

end Options

end Brigade.CommandLine
