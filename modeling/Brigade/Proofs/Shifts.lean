import Brigade.Proofs.Cancellation

/-! Shifts: runs one after the other against one registry. Each run has an engine of its own and starts in
the state that the run before left. In a shift only calls change the state, each as the interpreter that is
bound for it does, whatever engine makes the call; so what no call breaks holds at every moment. -/

namespace Brigade

variable {L : Type} [Hierarchy L] {σ : Type}

/-- A program to run, the engine that runs it, and the selector of its outermost level. -/
structure Job (L : Type) [Hierarchy L] (σ : Type) : Type 1 where
  engine : Engine σ
  language : L
  selector : Option String
  {Value : Type}
  program : Program (algebra language) Value

abbrev Shift (L : Type) [Hierarchy L] (σ : Type) : Type 1 := List (Job L σ)

/-- A dispatch: the frame that the observers are told of, and where its level looks for an interpreter. -/
structure Dispatch (L : Type) where
  language : L
  selector : Option String
  frame : StepFrame

namespace Act

def dispatch? : Act L σ → Option (Dispatch L)
  | .dispatched l selector frame _ => some ⟨l, selector, frame⟩
  | .reached _ _ _ _ | .called _ _ _ _ _ => none

def isCall : Act L σ → Bool
  | .called _ _ _ _ _ => true
  | .reached _ _ _ _ | .dispatched _ _ _ _ => false

theorem event?_eq (act : Act L σ) :
    act.event? = act.dispatch?.map fun d => Event.dispatched d.frame := by
  cases act <;> rfl

end Act

theorem filterMap_event? (acts : History L σ) : acts.filterMap Act.event? =
    (acts.filterMap Act.dispatch?).map fun d => Event.dispatched d.frame := by
  rw [List.map_filterMap, funext Act.event?_eq]

/-- The state that acts leave, if they start in `s`. -/
def stateAfter (s : σ) (acts : History L σ) : σ := acts.foldl (fun _ act => act.after) s

variable [DecidableEq L]

/-- The acts lead from one state to another, by calls of the interpreters that are bound. -/
inductive Registry.Moves (registry : Registry L σ) : σ → History L σ → σ → Prop
  | nil (s : σ) : Moves registry s [] s
  | reached (l : L) (selector : Option String) (frame : StepFrame) {s t : σ} {rest : History L σ}
    (h : Moves registry s rest t) : Moves registry s (.reached l selector frame s :: rest) t
  | dispatched (l : L) (selector : Option String) (frame : StepFrame) {s t : σ} {rest : History L σ}
    (h : Moves registry s rest t) : Moves registry s (.dispatched l selector frame s :: rest) t
  | called (l : L) (selector : Option String) (method : (algebra l).Method) {s t : σ}
    {rest : History L σ} (i : Interpreter σ (algebra l)) (hresolve : registry.resolve l selector = .ok i)
    (h : Moves registry (i method s).2 rest t) :
    Moves registry s (.called l selector method s (i method s).2 :: rest) t

theorem Engine.Leads.moves {e : Engine σ} {registry : Registry L σ} {s t : Progress σ}
    {acts : History L σ} (h : e.Leads registry s acts t) : registry.Moves s.state acts t.state := by
  induction h with
  | nil s => exact .nil _
  | reached l selector frame _ ih => exact .reached l selector frame ih
  | dispatched l selector frame i _ _ ih => exact .dispatched l selector frame ih
  | called l selector method i hresolve _ ih => exact .called l selector method i hresolve ih

namespace Registry.Moves

variable {registry : Registry L σ} {s t u : σ} {acts before rest : History L σ}

theorem append (h : registry.Moves s acts t) (h' : registry.Moves t rest u) :
    registry.Moves s (acts ++ rest) u := by
  induction h with
  | nil s => exact h'
  | reached l selector frame _ ih => exact .reached l selector frame (ih h')
  | dispatched l selector frame _ ih => exact .dispatched l selector frame (ih h')
  | called l selector method i hresolve _ ih => exact .called l selector method i hresolve (ih h')

theorem of_append (h : registry.Moves s (before ++ rest) u) :
    registry.Moves s before (stateAfter s before) ∧ registry.Moves (stateAfter s before) rest u := by
  induction before generalizing s with
  | nil => exact ⟨.nil s, h⟩
  | cons act before ih =>
    cases h with
    | reached l selector frame h => exact ⟨.reached l selector frame (ih h).1, (ih h).2⟩
    | dispatched l selector frame h => exact ⟨.dispatched l selector frame (ih h).1, (ih h).2⟩
    | called l selector method i hresolve h =>
      exact ⟨.called l selector method i hresolve (ih h).1, (ih h).2⟩

theorem state_eq (h : registry.Moves s acts t) : stateAfter s acts = t := by
  induction h with
  | nil s => rfl
  | reached l selector frame _ ih => exact ih
  | dispatched l selector frame _ ih => exact ih
  | called l selector method i hresolve _ ih => exact ih

theorem dispatch {l : L} {selector : Option String} {frame : StepFrame} {state : σ}
    (h : registry.Moves s (before ++ .dispatched l selector frame state :: rest) u) :
    state = stateAfter s before ∧ registry.Moves state rest u := by
  generalize hlater : Act.dispatched l selector frame state :: rest = later at h
  cases h.of_append.2 with
  | nil => cases hlater
  | reached => cases hlater
  | called => cases hlater
  | dispatched l selector frame hrest =>
    cases hlater
    exact ⟨rfl, hrest⟩

theorem call {l : L} {selector : Option String} {method : (algebra l).Method} {s₁ s₂ : σ}
    (h : registry.Moves s (before ++ .called l selector method s₁ s₂ :: rest) u) :
    s₁ = stateAfter s before ∧
      ∃ i, registry.resolve l selector = .ok i ∧ s₂ = (i method s₁).2 := by
  generalize hlater : Act.called l selector method s₁ s₂ :: rest = later at h
  cases h.of_append.2 with
  | nil => cases hlater
  | reached => cases hlater
  | dispatched => cases hlater
  | called l selector method i hresolve =>
    cases hlater
    exact ⟨rfl, i, hresolve, rfl⟩

/-- What holds at the start, and no act breaks, holds at the end. It may count the acts. -/
theorem keeps {I : History L σ → σ → Prop} (h : registry.Moves s acts t)
    (hstill : ∀ before act s, act.isCall = false → I before s → I (before ++ [act]) s)
    (hcall : ∀ before l selector method i s, registry.resolve l selector = .ok i → I before s →
      I (before ++ [.called l selector method s (i method s).2]) (i method s).2)
    (hs : I [] s) : I acts t := by
  -- the acts that are done grow at their end while the induction takes them from the front
  suffices hdone : ∀ done, I done s → I (done ++ acts) t from hdone [] hs
  clear hs
  induction h with
  | nil s =>
    intro done hs
    rwa [List.append_nil]
  | reached l selector frame _ ih =>
    intro done hs
    rw [List.append_cons]
    exact ih _ (hstill _ _ _ rfl hs)
  | dispatched l selector frame _ ih =>
    intro done hs
    rw [List.append_cons]
    exact ih _ (hstill _ _ _ rfl hs)
  | called l selector method i hresolve _ ih =>
    intro done hs
    rw [List.append_cons]
    exact ih _ (hcall _ l selector method i _ hresolve hs)

end Registry.Moves

namespace Job

def outcome (job : Job L σ) (registry : Registry L σ) (s : σ) : Outcome σ ExecutionError job.Value :=
  (job.engine.execute registry job.language job.selector job.program).outcome s

def history (job : Job L σ) (registry : Registry L σ) (s : σ) : History L σ :=
  job.engine.history registry job.engine.settings.maxDepth.toNat 0 job.language job.selector job.program
    ⟨s, []⟩

theorem history_moves (job : Job L σ) (registry : Registry L σ) (s : σ) :
    registry.Moves s (job.history registry s) (job.outcome registry s).state := by
  obtain ⟨t, last, hleads, hstate, -, -⟩ :=
    job.engine.history_leads_execute registry job.language job.selector job.program s
  exact hstate ▸ hleads.moves

theorem events_eq (job : Job L σ) (registry : Registry L σ) (s : σ) :
    ∃ last, (∀ frame, last ≠ .dispatched frame) ∧ (job.outcome registry s).events =
      (job.history registry s).filterMap Act.event? ++ [last] := by
  obtain ⟨t, last, -, -, hevents, hlast⟩ :=
    job.engine.history_leads_execute registry job.language job.selector job.program s
  exact ⟨last, hlast, hevents⟩

theorem filter_events (job : Job L σ) (registry : Registry L σ) (s : σ) :
    (job.outcome registry s).events.filter (Event.reaches 0) =
      (job.history registry s).filterMap Act.event? := by
  obtain ⟨last, hlast, hevents⟩ := job.events_eq registry s
  have hseen : ((job.history registry s).filterMap Act.event?).filter (Event.reaches 0) =
      (job.history registry s).filterMap Act.event? := by
    refine List.filter_eq_self.2 fun event hmem => ?_
    rw [filterMap_event?] at hmem
    obtain ⟨d, -, rfl⟩ := List.mem_map.1 hmem
    simp [Event.reaches]
  have hended : [last].filter (Event.reaches 0) = [] := by
    cases last with
    | dispatched frame => exact absurd rfl (hlast frame)
    | completed steps => rfl
    | failed error => rfl
  rw [hevents, List.filter_append, hseen, hended, List.append_nil]

end Job

namespace Shift

def state (registry : Registry L σ) : Shift L σ → σ → σ
  | [], s => s
  | job :: jobs, s => state registry jobs (job.outcome registry s).state

def history (registry : Registry L σ) : Shift L σ → σ → History L σ
  | [], _ => []
  | job :: jobs, s => job.history registry s ++ history registry jobs (job.outcome registry s).state

def events (registry : Registry L σ) : Shift L σ → σ → List Event
  | [], _ => []
  | job :: jobs, s =>
    (job.outcome registry s).events ++ events registry jobs (job.outcome registry s).state

theorem history_moves (registry : Registry L σ) (jobs : Shift L σ) (s : σ) :
    registry.Moves s (history registry jobs s) (state registry jobs s) := by
  induction jobs generalizing s with
  | nil => exact .nil s
  | cons job jobs ih => exact (job.history_moves registry s).append (ih _)

theorem filter_events (registry : Registry L σ) (jobs : Shift L σ) (s : σ) :
    (events registry jobs s).filter (Event.reaches 0) =
      (history registry jobs s).filterMap Act.event? := by
  induction jobs generalizing s with
  | nil => rfl
  | cons job jobs ih =>
    rw [events, history, List.filter_append, List.filterMap_append, job.filter_events, ih]

end Shift

end Brigade
