import Brigade.Proofs.Entry

/-! How deep children may nest. In a chain of programs of one command, each of which runs the next as its
child, the innermost program runs if the chain is no longer than the nesting bound, at the depth that is
the length of the chain; if it is longer, the step at the bound fails and nothing below it happens. A run
in which the bound refuses no child does not notice the bound. -/

namespace Brigade

namespace ExecutionError

/-- The error as steps report it that ran one another as children, the outermost of them first. -/
def within : List StepFrame → ExecutionError → ExecutionError
  | [], error => error
  | frame :: frames, error => ⟨frame, (error.within frames).asChild⟩

end ExecutionError

variable {L : Type} [Hierarchy L] {σ α β : Type}

/-- A program of one command in a chain: its language, the selector of its interpreter, and what its
command is described as. -/
structure Link (L : Type) where
  language : L
  selector : Option String
  command : CommandInfo

/-- The frames of the commands of a chain that starts at `depth`. -/
def Link.frames (depth : Nat) (links : List (Link L)) : List StepFrame :=
  links.mapIdx fun k link => ⟨depth + k, 0, link.command⟩

omit [Hierarchy L] in
@[simp] theorem Link.frames_cons (depth : Nat) (link : Link L) (links : List (Link L)) :
    Link.frames depth (link :: links) = ⟨depth, 0, link.command⟩ :: Link.frames (depth + 1) links := by
  simp only [frames, List.mapIdx_cons, Nat.add_zero, Nat.add_assoc, Nat.add_comm 1]

omit [Hierarchy L] in
theorem Link.depth_frames (depth : Nat) (links : List (Link L)) :
    (Link.frames depth links).map StepFrame.depth = List.range' depth links.length := by
  induction links generalizing depth with
  | nil => rfl
  | cons link links ih => rw [frames_cons, List.map_cons, ih, List.length_cons, List.range'_succ]

/-- The program is a chain of programs of one command around an innermost program: each command runs the
next program as its child and answers with a function of its value, `f` being these functions together. -/
inductive Nests (l₀ : L) (selector₀ : Option String) (inner : Program (algebra l₀) α) :
    List (Link L) → (l : L) → Option String → {β : Type} → Program (algebra l) β → (α → β) → Prop
  | inner : Nests l₀ selector₀ inner [] l₀ selector₀ inner id
  | outer {links : List (Link L)} {l l' : L} {selector : Option String} {β : Type}
    {p : Program (algebra l) β} {f : α → β} (h : Nests l₀ selector₀ inner links l selector p f)
    (selector' : Option String) {c : (algebra l').Command} {g : β → (algebra l').Answer c}
    (hplan : ∀ frame, Hierarchy.plan l' c frame = .child l selector p fun v => .answer (g v)) :
    Nests l₀ selector₀ inner (⟨l', selector', (algebra l').describe c⟩ :: links) l' selector' (.lift c)
      (g ∘ f)

def Link.nest : Link Language := ⟨.relay, none, ⟨⟨"relay"⟩, "Nest", ""⟩⟩

theorem RelayScript.nests (r : RelayScript) (n : Nat) :
    Nests Language.relay none (r.program []) (List.replicate n .nest)
      Language.relay none ((nested n r).program []) id := by
  induction n with
  | zero => exact .inner
  | succ n ih =>
    have hplan (frame : StepFrame) :
        Hierarchy.plan Language.relay (⟨[], .nest none (nested n r)⟩ : RelayCommand) frame =
          .child .relay none ((nested n r).program []) fun v => .answer (id v) := rfl
    exact .outer ih none hplan

namespace Engine

variable [DecidableEq L]

def withMaxDepth (e : Engine σ) (bound : UInt64) : Engine σ :=
  { e with settings := { e.settings with maxDepth := bound } }

variable {e : Engine σ} {registry : Registry L σ}

theorem level_lift_child {l l' : L} {selector selector' : Option String} {p : Program (algebra l) β}
    {c : (algebra l').Command} {g : β → (algebra l').Answer c} {i : Interpreter σ (algebra l')}
    (hplan : ∀ frame, Hierarchy.plan l' c frame = .child l selector p fun v => .answer (g v))
    (hresolve : registry.resolve l' selector' = .ok i) {s : Progress σ}
    (hcancelled : e.cancelled s.state = false) (room depth : Nat) :
    let frame : StepFrame := ⟨depth, 0, (algebra l').describe c⟩
    e.level registry room depth l' selector' (.lift c) s =
      match e.children registry room depth l selector p (s.record (.dispatched frame)) with
      | (.ok v, t) => (.ok (g v, 1), t)
      | (.error cause, t) => (.error ⟨frame, cause⟩, t) := by
  intro frame
  have hpermit : e.permit registry l' selector' 0 s.state = .ok i :=
    permit_of_resolve hcancelled e.settings.exhausted_zero hresolve
  rw [level_eq_levelFrom, levelFrom_eq_run, Program.lift, Program.run_step, step_of_permit hpermit]
  simp only [hplan, Plan.run]
  rcases e.children registry room depth l selector p _ with ⟨cause | v, t⟩
  · rfl
  · exact Program.runBound_nil _ (g v) 1 t

section

variable {l₀ : L} {selector₀ : Option String} {inner : Program (algebra l₀) α} {links : List (Link L)}
  {l : L} {selector : Option String} {p : Program (algebra l) β} {f : α → β}

/-- A chain that fits runs the innermost program as far below as the chain is long. -/
theorem level_nested (h : Nests l₀ selector₀ inner links l selector p f)
    (hserved : ∀ link ∈ links, ∃ i, registry.resolve link.language link.selector = .ok i)
    (s : Progress σ) (hcancelled : e.cancelled s.state = false) (room depth : Nat)
    (hroom : links.length ≤ room) :
    let frames := Link.frames depth links
    let r := e.level registry room depth l selector p s
    let innermost := e.level registry (room - links.length) (depth + links.length) l₀ selector₀ inner
      { s with newest := (frames.map .dispatched).reverse ++ s.newest }
    (r.1.map Prod.fst, r.2) =
      ((innermost.1.map fun result => f result.1).mapError (.within frames), innermost.2) := by
  induction h generalizing s room depth with
  | inner =>
    intro frames r innermost
    have hsame : innermost = r := rfl
    rw [hsame]
    rcases r with ⟨error | ⟨v, steps⟩, t⟩ <;> rfl
  | @outer links l l' selector β p f h selector' c g hplan ih =>
    intro frames r innermost
    obtain ⟨room, rfl⟩ : ∃ n, room = n + 1 := Nat.exists_eq_succ_of_ne_zero (by
      rintro rfl
      exact Nat.not_succ_le_zero _ hroom)
    obtain ⟨i, hresolve⟩ := hserved _ List.mem_cons_self
    let frame : StepFrame := ⟨depth, 0, (algebra l').describe c⟩
    have hlevel := level_lift_child hplan hresolve hcancelled (room + 1) depth
    have hbelow := ih (fun link hlink => hserved link (.tail _ hlink)) (s.record (.dispatched frame))
      hcancelled room (depth + 1) (Nat.le_of_succ_le_succ hroom)
    have hdepth : depth + 1 + links.length = depth + (links.length + 1) := by omega
    have hframes : frames = frame :: Link.frames (depth + 1) links := Link.frames_cons _ _ _
    have hinnermost : innermost = e.level registry (room - links.length) (depth + 1 + links.length) l₀
        selector₀ inner { s.record (.dispatched frame) with newest :=
          ((Link.frames (depth + 1) links).map .dispatched).reverse ++
            (s.record (.dispatched frame)).newest } := by
      simp only [innermost, hframes, hdepth, List.length_cons, Nat.add_sub_add_right, List.map_cons,
        List.reverse_cons, List.append_assoc, List.cons_append, List.nil_append, Progress.record]
    simp only [← hinnermost] at hbelow
    simp only [r, hlevel, hframes, children, LevelRunner.children]
    clear_value innermost
    rcases hrun : e.level registry room (depth + 1) l selector p (s.record (.dispatched frame)) with
      ⟨error | ⟨v, steps⟩, t⟩ <;> rw [hrun] at hbelow
    · rcases innermost with ⟨error' | ⟨w, count⟩, u⟩ <;> cases hbelow
      rfl
    · rcases innermost with ⟨error' | ⟨w, count⟩, u⟩ <;> cases hbelow
      rfl

/-- A chain that does not fit fails at the step for whose child there is no room, and does nothing else. -/
theorem level_nested_tooDeep (h : Nests l₀ selector₀ inner links l selector p f)
    (hserved : ∀ link ∈ links, ∃ i, registry.resolve link.language link.selector = .ok i)
    (s : Progress σ) (hcancelled : e.cancelled s.state = false) (room depth : Nat)
    (hroom : room < links.length) :
    let frames := (Link.frames depth links).take (room + 1)
    ∃ error, e.level registry room depth l selector p s =
        (.error error, { s with newest := (frames.map .dispatched).reverse ++ s.newest }) ∧
      error.path = frames ∧ error.root = .tooDeep e.settings.maxDepth.toNat ∧
      error.innermost.depth = depth + room := by
  induction h generalizing s room depth with
  | inner => exact absurd hroom (Nat.not_lt_zero room)
  | @outer links l l' selector β p f h selector' c g hplan ih =>
    intro frames
    obtain ⟨i, hresolve⟩ := hserved _ List.mem_cons_self
    have hlevel := level_lift_child hplan hresolve hcancelled room depth
    let frame : StepFrame := ⟨depth, 0, (algebra l').describe c⟩
    cases room with
    | zero =>
      refine ⟨⟨frame, .tooDeep e.settings.maxDepth.toNat⟩, ?_, ?_, rfl, rfl⟩
      · rw [hlevel]
        simp [frames, frame, children, refuse, Progress.record]
      · simp [frames, frame, ExecutionError.path, FailureCause.frames]
    | succ room =>
      obtain ⟨error, hbelow, hpath, hroot, hinnermost⟩ :=
        ih (fun link hlink => hserved link (.tail _ hlink)) (s.record (.dispatched frame)) hcancelled
          room (depth + 1) (Nat.lt_of_succ_lt_succ hroom)
      refine ⟨⟨frame, error.asChild⟩, ?_, ?_, hroot, ?_⟩
      · simp only [hlevel, children, LevelRunner.children]
        rw [hbelow]
        simp [frames, frame, Progress.record]
      · have hstep : ExecutionError.path ⟨frame, error.asChild⟩ = frame :: error.path := rfl
        rw [hstep, hpath]
        simp [frames, frame]
      · have hstep : ExecutionError.innermost ⟨frame, error.asChild⟩ = error.innermost := rfl
        rw [hstep, hinnermost]
        omega

variable (s : σ)

theorem execute_nested (h : Nests l₀ selector₀ inner links l selector p f)
    (hserved : ∀ link ∈ links, ∃ i, registry.resolve link.language link.selector = .ok i)
    (hcancelled : e.cancelled s = false) (hfits : links.length ≤ e.settings.maxDepth.toNat) :
    let frames := Link.frames 0 links
    let innermost := (e.level registry (e.settings.maxDepth.toNat - links.length) links.length l₀
      selector₀ inner).outcome s
    let o := (e.execute registry l selector p).outcome s
    o.result = (innermost.result.map fun result => f result.1).mapError (.within frames) ∧
      o.state = innermost.state ∧
      ∃ last, o.events = frames.map .dispatched ++ innermost.events ++ [last] ∧
        ∀ frame, last ≠ .dispatched frame := by
  intro frames innermost o
  let below := e.level registry (e.settings.maxDepth.toNat - links.length) links.length l₀ selector₀ inner
    ⟨s, (frames.map Event.dispatched).reverse ++ []⟩
  have hafter : Outcome.of below = innermost.after (frames.map .dispatched) := by
    simp only [below]
    rw [(e.level_confined registry _ links.length l₀ selector₀ inner).outcome_of]
    simp [Progress.events, innermost]
  have hbelow : below.1 = innermost.result := congrArg Outcome.result hafter
  have hlevel := level_nested h hserved ⟨s, []⟩ hcancelled e.settings.maxDepth.toNat 0 hfits
  rw [Nat.zero_add] at hlevel
  obtain ⟨hresult, hstate⟩ := Prod.mk.inj hlevel
  obtain ⟨last, hevents, hlast⟩ := e.execute_events registry l selector p s
  refine ⟨?_, ?_, last, ?_, hlast⟩
  · simp only [o, execute_outcome, Outcome.result_reported, ← level_eq_levelFrom]
    rw [← hbelow]
    exact hresult
  · simp only [o, execute_outcome, Outcome.state_reported, ← level_eq_levelFrom]
    exact (congrArg Progress.state hstate).trans (congrArg Outcome.state hafter)
  · have hall := (congrArg Progress.events hstate).trans (congrArg Outcome.events hafter)
    exact hevents.trans (congrArg (· ++ [last]) hall)

theorem execute_nested_tooDeep (h : Nests l₀ selector₀ inner links l selector p f)
    (hserved : ∀ link ∈ links, ∃ i, registry.resolve link.language link.selector = .ok i)
    (hcancelled : e.cancelled s = false) (hdeep : e.settings.maxDepth.toNat < links.length) :
    let frames := (Link.frames 0 links).take (e.settings.maxDepth.toNat + 1)
    ∃ error, (e.execute registry l selector p).outcome s =
        ⟨.error error, s, frames.map .dispatched ++ [.failed error]⟩ ∧
      error.path = frames ∧ error.root = .tooDeep e.settings.maxDepth.toNat ∧
      error.innermost.depth = e.settings.maxDepth.toNat := by
  intro frames
  obtain ⟨error, hlevel, hpath, hroot, hinnermost⟩ :=
    level_nested_tooDeep h hserved ⟨s, []⟩ hcancelled e.settings.maxDepth.toNat 0 hdeep
  refine ⟨error, ?_, hpath, hroot, hinnermost.trans (Nat.zero_add _)⟩
  rw [execute_outcome, ← level_eq_levelFrom, Run.outcome, hlevel]
  simp [Outcome.of, Outcome.reported, Progress.events, frames]

end

/-- A chain that fits behaves as its innermost program at the depth that is the length of the chain; the
failure of that program comes inside one frame for each link. A chain that does not fit fails at the step
at the bound, with the dispatches down to it and nothing else done. A run in which the bound refuses no
child is the same under any larger bound. -/
theorem execute_nesting (e : Engine σ) (registry : Registry L σ) :
    let bound := e.settings.maxDepth.toNat
    (∀ {l₀ : L} {selector₀ : Option String} {inner : Program (algebra l₀) α} {links : List (Link L)}
      {l : L} {selector : Option String} {p : Program (algebra l) β} {f : α → β} (s : σ),
      Nests l₀ selector₀ inner links l selector p f →
      (∀ link ∈ links, ∃ i, registry.resolve link.language link.selector = .ok i) →
      e.cancelled s = false →
      let frames := Link.frames 0 links
      let o := (e.execute registry l selector p).outcome s
      frames.map StepFrame.depth = List.range links.length ∧
      (links.length ≤ bound →
        let innermost :=
          (e.level registry (bound - links.length) links.length l₀ selector₀ inner).outcome s
        o.result = (innermost.result.map fun result => f result.1).mapError (.within frames) ∧
          o.state = innermost.state ∧
          ∃ last, o.events = frames.map .dispatched ++ innermost.events ++ [last] ∧
            ∀ frame, last ≠ .dispatched frame) ∧
      (bound < links.length → ∃ error,
        o = ⟨.error error, s, (frames.take (bound + 1)).map .dispatched ++ [.failed error]⟩ ∧
          error.path = frames.take (bound + 1) ∧ error.root = .tooDeep bound ∧
          error.innermost.depth = bound)) ∧
    ∀ (more : UInt64) (l : L) (selector : Option String) (p : Program (algebra l) β) (s : Progress σ),
      e.settings.maxDepth ≤ more →
      (∀ depth level child, e.Enters registry bound 0 ⟨l, selector, p, s⟩ 0 depth level →
        ¬ e.Descends registry 0 depth level child) →
      (e.withMaxDepth more).execute registry l selector p s = e.execute registry l selector p s := by
  intro bound
  constructor
  · intro l₀ selector₀ inner links l selector p f s h hserved hcancelled frames o
    have hdepths : frames.map StepFrame.depth = List.range links.length := by
      rw [Link.depth_frames, List.range_eq_range']
    exact ⟨hdepths, execute_nested s h hserved hcancelled,
      execute_nested_tooDeep s h hserved hcancelled⟩
  · intro more l selector p s hmore hfits
    have hpolicies : (e.withMaxDepth more).policies = e.policies := rfl
    have hdepth : (e.withMaxDepth more).settings.maxDepth.toNat =
        (more.toNat - bound) + e.settings.maxDepth.toNat :=
      (Nat.sub_add_cancel (UInt64.le_iff_toNat_le.1 hmore)).symm
    apply execute_congr_of_enters hpolicies hdepth
    · exact fun _ _ _ _ _ _ => rfl
    · intro depth level child hentry hchild
      exact absurd hchild (hfits depth level child hentry)

def sevenWithin (n : Nat) : Program (algebra Language.relay) Int64 :=
  RelayScript.program (.nested n (.pure (.number 7))) []

theorem execute_nesting_sevenWithin :
    let e : Engine ScriptedProbe := plain.withMaxDepth 1
    let run (n : Nat) := (e.execute probeOnly .relay none (sevenWithin n)).outcome .initial
    (run 1).result = .ok 7 ∧
      (∃ error, (run 2).result = .error error ∧ error.path.map StepFrame.depth = [0, 1] ∧
        error.root = .tooDeep 1) ∧
      (e.withMaxDepth 5).execute probeOnly .relay none (sevenWithin 1) ⟨.initial, []⟩ =
        e.execute probeOnly .relay none (sevenWithin 1) ⟨.initial, []⟩ := by
  intro e run
  have hchain (n : Nat) : Nests Language.relay none (sevenWithin 0) (List.replicate n .nest)
      Language.relay none (sevenWithin n) id := RelayScript.nests (.pure (.number 7)) n
  have hserved (n : Nat) : ∀ link ∈ List.replicate n Link.nest,
      ∃ i, probeOnly.resolve link.language link.selector = .ok i := by
    intro link hlink
    obtain rfl := List.eq_of_mem_replicate hlink
    exact ⟨_, rfl⟩
  have hseven : ((e.level probeOnly 0 1 .relay none (sevenWithin 0)).outcome .initial).result =
      .ok (7, 0) := by
    rw [Run.outcome, level_eq_levelFrom, levelFrom_eq_run]
    rfl
  obtain ⟨hnested, hraised⟩ := execute_nesting (α := Int64) (β := Int64) e probeOnly
  obtain ⟨-, hfits, -⟩ := hnested .initial (hchain 1) (hserved 1) rfl
  obtain ⟨-, -, hdeep⟩ := hnested .initial (hchain 2) (hserved 2) rfl
  obtain ⟨hresult, -, -⟩ := hfits (by decide)
  obtain ⟨error, hrun, hpath, hroot, -⟩ := hdeep (by decide)
  refine ⟨hresult.trans ?_, ⟨error, congrArg Outcome.result hrun, ?_, hroot⟩, ?_⟩
  · exact congrArg (fun r => Except.mapError _ (Except.map (fun r => r.1) r)) hseven
  · rw [hpath]
    rfl
  · refine hraised 5 .relay none (sevenWithin 1) ⟨.initial, []⟩ (by decide) ?_
    intro depth level child hentry hchild
    cases hentry with
    | child h hinner =>
      obtain ⟨visit, i, hvisit, -, hruns⟩ := h
      obtain rfl := Program.eq_of_visits_lift hvisit
      obtain rfl := Plan.eq_of_runs_child (l := Language.relay) hruns
      cases hinner
      obtain ⟨visit, -, hnone, -⟩ := hchild
      exact hnone

end Engine

end Brigade
