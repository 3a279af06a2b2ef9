import Brigade.Proofs.Outcome

/-! Two runs of the same program abreast, under two registries. At each step both give the same answer,
or both fail alike; the states differ, but stay related. There is a rule for each way in which programs,
plans and levels are put together. -/

namespace Brigade

variable {σ ε δ α β γ : Type}

/-- Two computations give one value, or fail for one reason, and leave related states. -/
inductive Abreast (V : α → Prop) (F : ε → Prop) (M : σ → σ → Prop) :
    Except ε α × σ → Except ε α × σ → Prop
  | value {v : α} {s t : σ} (hv : V v) (hs : M s t) : Abreast V F M (.ok v, s) (.ok v, t)
  | failure {error : ε} {s t : σ} (he : F error) (hs : M s t) :
    Abreast V F M (.error error, s) (.error error, t)

namespace Abreast

variable {V : α → Prop} {F : ε → Prop} {M : σ → σ → Prop} {r r' : Except ε α × σ}

theorem snd (h : Abreast V F M r r') : M r.2 r'.2 := by
  cases h <;> assumption

theorem mono (h : Abreast V F M r r') {V' : α → Prop} {N : σ → σ → Prop} (hV : ∀ v, V v → V' v)
    (hM : ∀ s t, M s t → N s t) : Abreast V' F N r r' := by
  cases h with
  | value hv hs => exact .value (hV _ hv) (hM _ _ hs)
  | failure he hs => exact .failure he (hM _ _ hs)

end Abreast

namespace Program

variable {A : Algebra} {F : ε → Prop} {M N : σ → σ → Prop} {perform perform' : Performer A σ ε}

theorem abreast_bind {V : α → Prop} {W : β → Prop} {p : Program A α} {f : α → Program A β}
    {index : Nat} {s t : σ}
    (hp : Abreast (fun r => V r.1) F M (run perform p index s) (run perform' p index t))
    (hf : ∀ v index s t, V v → M s t →
      Abreast (fun r => W r.1) F N (run perform (f v) index s) (run perform' (f v) index t))
    (hM : ∀ s t, M s t → N s t) :
    Abreast (fun r => W r.1) F N (run perform (p.bind f) index s) (run perform' (p.bind f) index t) := by
  rw [run_bind, run_bind]
  generalize run perform p index s = r at hp
  generalize run perform' p index t = r' at hp
  cases hp with
  | value hv hs => exact hf _ _ _ _ hv hs
  | failure he hs => exact .failure he (hM _ _ hs)

theorem abreast_lift {c : A.Command} {V : A.Answer c → Prop} {index : Nat} {s t : σ}
    (h : Abreast V F M (perform index c s) (perform' index c t)) :
    Abreast (fun r => V r.1) F M (run perform (lift c) index s) (run perform' (lift c) index t) := by
  rw [lift, run_step, run_step]
  generalize perform index c s = r at h
  generalize perform' index c t = r' at h
  cases h with
  | value hv hs =>
    simp only [runBound_nil]
    exact .value hv hs
  | failure he hs => exact .failure he hs

theorem abreast_map {V : α → Prop} {W : β → Prop} {p : Program A α} {f : α → β} {index : Nat} {s t : σ}
    (hp : Abreast (fun r => V r.1) F M (run perform p index s) (run perform' p index t))
    (hf : ∀ v, V v → W (f v)) :
    Abreast (fun r => W r.1) F M (run perform (p.map f) index s) (run perform' (p.map f) index t) := by
  refine abreast_bind hp (fun v index s t hv hs => ?_) fun _ _ h => h
  rw [run_done, run_done]
  exact .value (hf v hv) hs

end Program

namespace Plan

variable {L : Type} [Hierarchy L] {l : L} {i i' : Interpreter σ (algebra l)}
  {children children' : ChildRunner L σ} {policyFor : String → FailurePolicy}
  {F : FailureCause → Prop} {M N : Progress σ → Progress σ → Prop} {s t : Progress σ}

theorem abreast_child {l' : L} {selector : Option String} {p : Program (algebra l') β}
    {next : β → Plan (algebra (L := L)) l α} {V : β → Prop} {W : α → Prop}
    (hchild : Abreast V F M (children l' selector p s) (children' l' selector p t))
    (hnext : ∀ v s t, V v → M s t → Abreast W F M ((next v).run i children policyFor s)
      ((next v).run i' children' policyFor t)) :
    Abreast W F M ((Plan.child l' selector p next).run i children policyFor s)
      ((Plan.child l' selector p next).run i' children' policyFor t) := by
  simp only [Plan.run]
  generalize children l' selector p s = r at hchild
  generalize children' l' selector p t = r' at hchild
  cases hchild with
  | value hv hs => exact hnext _ _ _ hv hs
  | failure he hs => exact .failure he hs

/-- The right children start abreast whether the left ones give a value or fail. -/
theorem abreast_join {l₁ l₂ : L} {p₁ : Program (algebra l₁) β} {p₂ : Program (algebra l₂) γ}
    {next : β → γ → Plan (algebra (L := L)) l α} {V : β → Prop} {W : γ → Prop} {X : α → Prop}
    (hleft : Abreast V F M (children l₁ none p₁ s) (children' l₁ none p₁ t))
    (hright : ∀ s t, M s t → Abreast W F N (children l₂ none p₂ s) (children' l₂ none p₂ t))
    (hnext : ∀ v w s t, V v → W w → N s t → Abreast X F N ((next v w).run i children policyFor s)
      ((next v w).run i' children' policyFor t)) :
    Abreast X F N ((Plan.join l₁ p₁ l₂ p₂ next).run i children policyFor s)
      ((Plan.join l₁ p₁ l₂ p₂ next).run i' children' policyFor t) := by
  simp only [Plan.run]
  -- the right children run in both cases, so they are abreast before the left result is looked at
  have hr := hright _ _ hleft.snd
  generalize children l₁ none p₁ s = left at hleft hr
  generalize children' l₁ none p₁ t = left' at hleft hr
  obtain ⟨left, s⟩ := left
  obtain ⟨left', t⟩ := left'
  dsimp only at hr ⊢
  generalize children l₂ none p₂ s = right at hr
  generalize children' l₂ none p₂ t = right' at hr
  cases hleft with
  | value hv _ =>
    cases hr with
    | value hw ht => exact hnext _ _ _ _ hv hw ht
    | failure he ht => exact .failure he ht
  | failure he _ =>
    cases hr with
    | value _ ht => exact .failure he ht
    | failure _ ht => exact .failure he ht

end Plan

namespace Engine

variable {L : Type} [Hierarchy L] [DecidableEq L] {e : Engine σ} {registry registry' : Registry L σ}
  {M : Progress σ → Progress σ → Prop}

theorem step_abreast {children children' : ChildRunner L σ} {depth : Nat} {l : L}
    {selector : Option String} {index : Nat} {c : (algebra l).Command} {s t : Progress σ}
    {V : (algebra l).Answer c → Prop} {F : ExecutionError → Prop} {frame : StepFrame}
    (hframe : frame = ⟨depth, index, (algebra l).describe c⟩)
    (h : (∃ cause, e.permit registry l selector index s.state = .error cause ∧
        e.permit registry' l selector index t.state = .error cause ∧ F ⟨frame, cause⟩ ∧ M s t) ∨
      ∃ i i', e.permit registry l selector index s.state = .ok i ∧
        e.permit registry' l selector index t.state = .ok i' ∧
        Abreast V (fun cause => F ⟨frame, cause⟩) M
          ((Hierarchy.plan l c frame).run i children e.policyFor (s.record (.dispatched frame)))
          ((Hierarchy.plan l c frame).run i' children' e.policyFor (t.record (.dispatched frame)))) :
    Abreast V F M (e.step registry children depth l selector index c s)
      (e.step registry' children' depth l selector index c t) := by
  subst hframe
  rw [step_eq, step_eq]
  obtain ⟨cause, hs, ht, hF, hM⟩ | ⟨i, i', hs, ht, hplan⟩ := h
  · simp only [hs, ht]
    exact .failure hF hM
  · simp only [hs, ht]
    generalize Plan.run i children _ _ _ = r at hplan
    generalize Plan.run i' children' _ _ _ = r' at hplan
    cases hplan with
    | value hv hs => exact .value hv hs
    | failure he hs => exact .failure he hs

theorem children_abreast {room depth : Nat} {l : L} {selector : Option String}
    {p : Program (algebra l) β} {s t : Progress σ} {V : β → Prop} {F : FailureCause → Prop}
    (h : Abreast (fun r => V r.1) (fun error => F error.asChild) M
      (p.run (e.step registry (e.children registry room (depth + 1)) (depth + 1) l selector) 0 s)
      (p.run (e.step registry' (e.children registry' room (depth + 1)) (depth + 1) l selector) 0 t)) :
    Abreast V F M (e.children registry (room + 1) depth l selector p s)
      (e.children registry' (room + 1) depth l selector p t) := by
  simp only [children_succ, LevelRunner.children]
  generalize p.run (e.step registry _ (depth + 1) l selector) 0 s = r at h
  generalize p.run (e.step registry' _ (depth + 1) l selector) 0 t = r' at h
  cases h with
  | value hv hs => exact .value hv hs
  | failure he hs => exact .failure he hs

/-- What two executions from one start that are abreast tell their observers is the same. -/
theorem execute_abreast {l : L} {selector : Option String} {p : Program (algebra l) β} {s t : σ}
    {V : β → Prop} {F : ExecutionError → Prop} (hM : ∀ s t, M s t → s.newest = t.newest)
    (h : Abreast (fun r => V r.1) F M
      (p.run (e.step registry (e.children registry e.settings.maxDepth.toNat 0) 0 l selector) 0 ⟨s, []⟩)
      (p.run (e.step registry' (e.children registry' e.settings.maxDepth.toNat 0) 0 l selector) 0
        ⟨t, []⟩)) :
    let o := (e.execute registry l selector p).outcome s
    let o' := (e.execute registry' l selector p).outcome t
    o.result = o'.result ∧ o.events = o'.events ∧
      ((∃ v, o.result = .ok v ∧ V v) ∨ ∃ error, o.result = .error error ∧ F error) := by
  intro o o'
  simp only [o, o', execute_outcome, Run.outcome, levelFrom_eq_run]
  generalize p.run (e.step registry _ 0 l selector) 0 ⟨s, []⟩ = r at h
  generalize p.run (e.step registry' _ 0 l selector) 0 ⟨t, []⟩ = r' at h
  cases h with
  | value hv hs =>
    have hevents := hM _ _ hs
    exact ⟨rfl, by simp [Outcome.reported, Outcome.of, Progress.events, hevents], .inl ⟨_, rfl, hv⟩⟩
  | failure he hs =>
    have hevents := hM _ _ hs
    exact ⟨rfl, by simp [Outcome.reported, Outcome.of, Progress.events, hevents], .inr ⟨_, rfl, he⟩⟩

end Engine

end Brigade
