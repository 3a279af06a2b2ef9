import Brigade.Proofs.Accounting
import Brigade.Proofs.Splits

/-! The dispatches of a run are a depth-first traversal of its steps and their children. Which dispatch
may come next is told by those before it: the first child of the last step, the next step of a level
that is still open, or the start of another child beside one that has ended. No dispatch is deeper than
the nesting bound. -/

namespace Brigade

/-- A dispatch at a depth and with an index may come next after the events. -/
inductive Follows (before : List Event) : Nat → Nat → Prop
  | first (h : before = []) : Follows before 0 0
  /-- A child of the last step begins. -/
  | descend {last : StepFrame} (h : before.getLast? = some (.dispatched last)) :
    Follows before (last.depth + 1) 0
  /-- A level goes on after its last step. -/
  | advance {last earlier : StepFrame} {depth : Nat} (h : before.getLast? = some (.dispatched last))
    (hdepth : depth ≤ last.depth) (hearlier : (framesAt depth before).getLast? = some earlier) :
    Follows before depth (earlier.index + 1)
  /-- Another child of the same step begins. -/
  | sibling {last : StepFrame} {depth : Nat} (h : before.getLast? = some (.dispatched last))
    (hpos : 1 ≤ depth) (hdepth : depth ≤ last.depth) : Follows before depth 0

/-- The events are dispatches, each of which may come next and is at the limit or above it. -/
inductive DepthFirst (limit : Nat) : List Event → Prop
  | nil : DepthFirst limit []
  | concat {before : List Event} {frame : StepFrame} (h : DepthFirst limit before)
    (hnext : Follows before frame.depth frame.index) (hdepth : frame.depth ≤ limit) :
    DepthFirst limit (before ++ [.dispatched frame])

namespace DepthFirst

variable {limit : Nat} {events before after : List Event} {frame : StepFrame}

theorem follows (h : DepthFirst limit events) {event : Event}
    (hsplit : events = before ++ event :: after) :
    ∃ frame, event = .dispatched frame ∧ Follows before frame.depth frame.index := by
  induction h generalizing after with
  | nil => simp at hsplit
  | concat h hnext hdepth ih =>
    rcases concat_eq_split_iff.1 hsplit with ⟨rest, heq, -⟩ | ⟨rfl, rfl, -⟩
    · exact ih heq
    · exact ⟨_, rfl, hnext⟩

theorem depth_le (h : DepthFirst limit events) (hmem : .dispatched frame ∈ events) :
    frame.depth ≤ limit := by
  induction h with
  | nil => simp at hmem
  | concat h hnext hdepth ih =>
    rcases List.mem_append.1 hmem with hmem | hmem
    · exact ih hmem
    · cases List.mem_singleton.1 hmem
      exact hdepth

end DepthFirst

/-- The step with number `index` at `depth` is being carried out: it is the last of its level, and
nothing came after it but steps of its children. -/
structure Within (depth index : Nat) (events : List Event) : Prop where
  last : ∃ last, events.getLast? = some (.dispatched last) ∧ depth ≤ last.depth
  current : ∃ current, (framesAt depth events).getLast? = some current ∧ current.index = index

namespace Within

variable {depth index : Nat} {events : List Event}

theorem of_concat (events : List Event) (frame : StepFrame) :
    Within frame.depth frame.index (events ++ [.dispatched frame]) where
  last := ⟨frame, List.getLast?_concat, Nat.le_refl _⟩
  current := ⟨frame, by simp [framesAt, Event.frameAt?], rfl⟩

theorem child (h : Within depth index events) : Follows events (depth + 1) 0 := by
  obtain ⟨last, hlast, hdepth⟩ := h.last
  by_cases heq : last.depth = depth
  · rw [← heq]
    exact .descend hlast
  · exact .sibling hlast (by omega) (by omega)

theorem next (h : Within depth index events) : Follows events depth (index + 1) := by
  obtain ⟨last, hlast, hdepth⟩ := h.last
  obtain ⟨current, hcurrent, rfl⟩ := h.current
  exact .advance hlast hdepth hcurrent

theorem append (h : Within depth index events) {new : List Event}
    (hnew : ∀ event ∈ new, event.reaches (depth + 1) = true) : Within depth index (events ++ new) := by
  have hnone : framesAt depth new = [] :=
    List.filterMap_eq_nil_iff.2 fun event hmem => Event.frameAt?_eq_none (hnew event hmem)
  refine ⟨?_, by simpa [hnone] using h.current⟩
  rcases List.eq_nil_or_concat new with rfl | ⟨rest, event, rfl⟩
  · simpa using h.last
  · have hreaches : event.reaches (depth + 1) = true := hnew event (by simp)
    obtain ⟨frame, rfl⟩ := Event.exists_of_reaches hreaches
    have hdeep : depth + 1 ≤ frame.depth := by simpa [Event.reaches] using hreaches
    refine ⟨frame, ?_, by omega⟩
    rw [List.concat_eq_append, ← List.append_assoc]
    exact List.getLast?_concat

end Within

variable {L : Type} [Hierarchy L] {σ β : Type}

theorem Run.Confined.within {ε α : Type} {depth index : Nat} {r : Run σ ε α}
    (hr : Run.Confined (depth + 1) r) {s : Progress σ} (h : Within depth index s.events) :
    Within depth index (r s).2.events := by
  have hevents : (r s).2.events = s.events ++ (r.outcome s.state).events :=
    congrArg Outcome.events (hr.outcome_of s)
  rw [hevents]
  exact h.append fun event hmem => hr.reaches hmem

/-- The events so far go depth first, and the step with number `index` at `depth` may come next. -/
def Awaits (limit depth index : Nat) (s : Progress σ) : Prop :=
  DepthFirst limit s.events ∧ Follows s.events depth index

/-- The events so far go depth first, and the step is being carried out. -/
def Underway (limit depth index : Nat) (s : Progress σ) : Prop :=
  DepthFirst limit s.events ∧ Within depth index s.events

theorem Awaits.record {limit : Nat} {frame : StepFrame} {s : Progress σ}
    (h : Awaits limit frame.depth frame.index s) (hdepth : frame.depth ≤ limit) :
    Underway limit frame.depth frame.index (s.record (.dispatched frame)) := by
  rw [Underway, Progress.events_record]
  exact ⟨.concat h.1 h.2 hdepth, .of_concat s.events frame⟩

/-- Every child that may begin one level below `depth` goes on with a traversal. -/
def ChildRunner.Traverses (limit depth : Nat) (children : ChildRunner L σ) : Prop :=
  ∀ (l : L) (selector : Option String) {β : Type} (p : Program (algebra l) β) (s : Progress σ),
    Awaits limit (depth + 1) 0 s → DepthFirst limit (children l selector p s).2.events

theorem Plan.run_underway {limit depth index : Nat} {children : ChildRunner L σ}
    (hconfined : children.Confined (depth + 1)) (hchildren : children.Traverses limit depth) {l : L}
    (i : Interpreter σ (algebra l)) (policyFor : String → FailurePolicy)
    (plan : Plan (algebra (L := L)) l β) {s : Progress σ} (hs : Underway limit depth index s) :
    Underway limit depth index (plan.run i children policyFor s).2 := by
  have hcomposes : Composes fun s (_ : History L σ) t =>
      Underway limit depth index s → Underway limit depth index t :=
    ⟨fun _ => id, fun h h' hs => h' (h hs)⟩
  have hpasses : ChildHistory.Passes (fun _ _ _ _ _ => []) children fun s (_ : History L σ) t =>
      Underway limit depth index s → Underway limit depth index t := by
    rintro l' selector' γ p t ⟨ht, hwithin⟩
    exact ⟨hchildren l' selector' p t ⟨ht, hwithin.child⟩, (hconfined l' selector' p).within hwithin⟩
  exact hcomposes.plan hpasses none (fun _ _ => id) policyFor plan s hs

namespace Engine

variable [DecidableEq L]

/-- A step of a level at `depth` that may come next leaves a traversal, after which the next one may
come. -/
theorem step_traverses (e : Engine σ) (registry : Registry L σ) {children : ChildRunner L σ}
    {limit depth : Nat} (hdepth : depth ≤ limit) (hconfined : children.Confined (depth + 1))
    (hchildren : children.Traverses limit depth) (l : L) (selector : Option String) :
    Program.Keeps (Awaits limit depth) (fun _ s => DepthFirst limit s.events)
      (e.step registry children depth l selector) := by
  intro index c s hs
  let frame : StepFrame := ⟨depth, index, (algebra l).describe c⟩
  have hdispatched : Underway limit depth index (s.record (.dispatched frame)) := hs.record hdepth
  have hplan : ∀ i : Interpreter σ (algebra l), Underway limit depth index
      ((Hierarchy.plan l c frame).run i children e.policyFor (s.record (.dispatched frame))).2 :=
    fun i => Plan.run_underway hconfined hchildren i e.policyFor _ hdispatched
  rcases hstep : e.step registry children depth l selector index c s with ⟨error | v, t⟩
  · obtain ⟨hframe, ⟨-, rfl⟩ | ⟨i, -, hrun⟩⟩ := step_eq_error hstep
    · exact hs.1
    · have hunderway := hplan i
      rw [hframe] at hrun
      rw [hrun] at hunderway
      exact hunderway.1
  · obtain ⟨i, -, hrun⟩ := step_eq_ok hstep
    have hunderway := hplan i
    rw [hrun] at hunderway
    exact ⟨hunderway.1, hunderway.2.next⟩

theorem level_traverses_of_children (e : Engine σ) (registry : Registry L σ) {limit room depth : Nat}
    (hdepth : depth ≤ limit)
    (hchildren : (e.children registry room depth).Traverses limit depth) (l : L)
    (selector : Option String) (p : Program (algebra l) β) {s : Progress σ}
    (hs : Awaits limit depth 0 s) :
    DepthFirst limit (e.level registry room depth l selector p s).2.events := by
  have hkeeps := e.step_traverses registry hdepth (e.children_confined registry room depth) hchildren
    l selector
  have hrun := Program.run_keeps hkeeps p 0 s hs
  rw [← levelFrom_eq_run, ← level_eq_levelFrom] at hrun
  rcases hlevel : e.level registry room depth l selector p s with ⟨error | ⟨v, steps⟩, t⟩ <;>
    rw [hlevel] at hrun
  · exact hrun
  · exact hrun.1

theorem children_traverse (e : Engine σ) (registry : Registry L σ) {limit room depth : Nat}
    (hroom : depth + room ≤ limit) : (e.children registry room depth).Traverses limit depth := by
  induction room generalizing depth with
  | zero => exact fun _ _ _ _ _ hs => hs.1
  | succ room ih =>
    intro l selector β p s hs
    have hbelow : depth + 1 + room ≤ limit := by omega
    rw [children, children_snd]
    exact e.level_traverses_of_children registry (by omega) (ih hbelow) l selector p hs

/-- A run goes depth first: every dispatch is one that may come next, and none is deeper than the
nesting bound. -/
theorem execute_depthFirst (e : Engine σ) (registry : Registry L σ) (l : L)
    (selector : Option String) (p : Program (algebra l) β) (s : σ) :
    let o := (e.execute registry l selector p).outcome s
    ∃ dispatches last, o.events = dispatches ++ [last] ∧ (∀ frame, last ≠ .dispatched frame) ∧
      (∀ before event after, dispatches = before ++ event :: after →
        ∃ frame, event = .dispatched frame ∧ Follows before frame.depth frame.index) ∧
      ∀ frame, .dispatched frame ∈ dispatches → frame.depth ≤ e.settings.maxDepth.toNat := by
  intro o
  have htrace : DepthFirst e.settings.maxDepth.toNat
      ((e.level registry e.settings.maxDepth.toNat 0 l selector p).outcome s).events :=
    e.level_traverses_of_children registry (Nat.zero_le _) (e.children_traverse registry (by omega))
      l selector p ⟨.nil, .first rfl⟩
  obtain ⟨last, hevents, hlast⟩ := e.execute_events registry l selector p s
  refine ⟨_, last, hevents, hlast, fun before event after hsplit => ?_, fun _ => htrace.depth_le⟩
  exact htrace.follows hsplit

def probeOnly : Registry Language ScriptedProbe :=
  ⟨[⟨.relay, none, fun _ s => (.error .aborted, s)⟩, ⟨.probe, none, ScriptedProbe.interpreter⟩]⟩

def pairThenPlace : Program (algebra Language.relay) Int64 :=
  RelayScript.program (.andThen (.leaf (.pair (.leaf (.number 1)) (.leaf (.number 2)))) (.leaf .place))
    []

theorem execute_depthFirst_pairThenPlace :
    let frame : Nat → Nat → CommandInfo → Event := fun depth index c => .dispatched ⟨depth, index, c⟩
    let joined := [frame 0 0 ⟨⟨"relay"⟩, "Pair", ""⟩, frame 1 0 ⟨⟨"probe"⟩, "Emit", "1"⟩]
    let second := frame 1 0 ⟨⟨"probe"⟩, "Emit", "2"⟩
    let place := frame 0 1 ⟨⟨"relay"⟩, "Where", ""⟩
    ((plain.execute probeOnly .relay none pairThenPlace).outcome .initial).events =
        (joined ++ [second, place]) ++ [.completed 2] ∧
      Follows joined 1 0 ∧ Follows (joined ++ [second]) 0 1 := by
  intro frame joined second place
  have hrun : ((plain.execute probeOnly .relay none pairThenPlace).outcome .initial).events =
      (joined ++ [second, place]) ++ [.completed 2] := by
    rw [execute_outcome, plain_maxDepth, levelFrom_eq_run, children_succ]
    rfl
  obtain ⟨dispatches, last, hevents, -, hfollows, -⟩ :=
    execute_depthFirst plain probeOnly .relay none pairThenPlace .initial
  rw [hrun] at hevents
  obtain ⟨rfl, -⟩ := List.append_inj' hevents rfl
  obtain ⟨_, hsecond, hjoined⟩ := hfollows joined second [place] rfl
  obtain ⟨_, hplace, hboth⟩ := hfollows (joined ++ [second]) place [] rfl
  rw [← Event.dispatched.inj hsecond] at hjoined
  rw [← Event.dispatched.inj hplace] at hboth
  exact ⟨hrun, hjoined, hboth⟩

end Engine

end Brigade
