import Brigade.Proofs.Trampoline

/-! How runs of programs are compared and what they keep. A program runs alike under two performers
that carry out its commands alike, and a run keeps what each command keeps. -/

namespace Brigade

variable {A : Algebra}

mutual

/-- Every command that the program can issue, on whatever answers, satisfies `P`. -/
def Program.Only (P : A.Command → Prop) {α : Type} : Program A α → Prop
  | .done _ => True
  | .step c bound => P c ∧ bound.Only P

def Bound.Only (P : A.Command → Prop) {α β : Type} : Bound A α β → Prop
  | .nil => True
  | .snoc bound f => bound.Only P ∧ ∀ v, (f v).Only P

end

mutual

theorem Program.only_of_forall {P : A.Command → Prop} (h : ∀ c, P c) {α : Type} :
    ∀ p : Program A α, p.Only P
  | .done _ => by simp only [Program.Only]
  | .step c bound => by
    simp only [Program.Only]
    exact ⟨h c, Bound.only_of_forall h bound⟩

theorem Bound.only_of_forall {P : A.Command → Prop} (h : ∀ c, P c) {α β : Type} :
    ∀ bound : Bound A α β, bound.Only P
  | .nil => by simp only [Bound.Only]
  | .snoc bound f => by
    simp only [Bound.Only]
    exact ⟨Bound.only_of_forall h bound, fun v => Program.only_of_forall h (f v)⟩

end

namespace Program

variable {σ τ ε δ : Type} {α β : Type}

def carry (g : σ → τ) (h : ε → δ) (k : Nat) :
    Except ε (α × Nat) × σ → Except δ (α × Nat) × τ
  | (.ok (v, index), s) => (.ok (v, index + k), g s)
  | (.error e, s) => (.error (h e), g s)

@[simp] theorem carry_ok (g : σ → τ) (h : ε → δ) (k : Nat) (v : α) (index : Nat) (s : σ) :
    carry g h k (.ok (v, index), s) = (.ok (v, index + k), g s) := rfl

@[simp] theorem carry_error (g : σ → τ) (h : ε → δ) (k : Nat) (e : ε) (s : σ) :
    carry (α := α) g h k (.error e, s) = (.error (h e), g s) := rfl

theorem carry_id (g : σ → τ) (r : Except ε (α × Nat) × σ) : carry g id 0 r = (r.1, g r.2) := by
  rcases r with ⟨e | ⟨v, index⟩, s⟩ <;> rfl

theorem proceed_carry (g : σ → τ) (h : ε → δ) (k : Nat) (r : Except ε (α × Nat) × σ)
    {next : α → Nat → σ → Except ε (β × Nat) × σ} {next' : α → Nat → τ → Except δ (β × Nat) × τ}
    (hnext : ∀ v index s, next' v (index + k) (g s) = carry g h k (next v index s)) :
    proceed (carry g h k r) next' = carry g h k (proceed r next) := by
  rcases r with ⟨e | ⟨v, index⟩, s⟩
  · simp
  · simpa using hnext v index s

/-- `perform'` carries out the commands that satisfy `P` as `perform` does, with the state seen
through `g`, the failures through `h`, and `k` commands more before. -/
def Carries (P : A.Command → Prop) (g : σ → τ) (h : ε → δ) (k : Nat)
    (perform : Performer A σ ε) (perform' : Performer A τ δ) : Prop :=
  ∀ c, P c → ∀ index s, perform' (index + k) c (g s) =
    match perform index c s with
    | (.ok v, s) => (.ok v, g s)
    | (.error e, s) => (.error (h e), g s)

section

variable {P : A.Command → Prop} {g : σ → τ} {h : ε → δ} {k : Nat}
  {perform : Performer A σ ε} {perform' : Performer A τ δ}

mutual

/-- What carries every command carries the run. -/
theorem run_carry (H : Carries P g h k perform perform') {α : Type} : ∀ (p : Program A α),
    p.Only P → ∀ index s, run perform' p (index + k) (g s) = carry g h k (run perform p index s)
  | .done v, _, index, s => by simp
  | .step c bound, hp, index, s => by
    simp only [Only] at hp
    rw [run_step, run_step, H c hp.1]
    rcases perform index c s with ⟨e | v, t⟩
    · rfl
    · have hb := runBound_carry H bound hp.2 v (index + 1) t
      rw [Nat.add_right_comm] at hb
      exact hb

theorem runBound_carry (H : Carries P g h k perform perform') {α β : Type} :
    ∀ (bound : Bound A α β), bound.Only P → ∀ v index s,
      runBound perform' bound v (index + k) (g s) = carry g h k (runBound perform bound v index s)
  | .nil, _, v, index, s => by simp
  | .snoc bound f, hb, v, index, s => by
    simp only [Bound.Only] at hb
    rw [runBound_snoc, runBound_snoc, runBound_carry H bound hb.1 v index s]
    exact proceed_carry g h k _ fun w index s => run_carry H (f w) (hb.2 w) index s

end

end

/-- What holds of a result: `I` of the count and the state if there is a value, `E` of the failure
and the state otherwise. -/
def Holds (I : Nat → σ → Prop) (E : ε → σ → Prop) : Except ε (α × Nat) × σ → Prop
  | (.ok (_, index), s) => I index s
  | (.error e, s) => E e s

/-- Every command keeps `I`, counting one more, or fails with `E`. -/
def Keeps (I : Nat → σ → Prop) (E : ε → σ → Prop) (perform : Performer A σ ε) : Prop :=
  ∀ index c s, I index s → match perform index c s with
    | (.ok _, s) => I (index + 1) s
    | (.error e, s) => E e s

section

variable {I : Nat → σ → Prop} {E : ε → σ → Prop} {perform : Performer A σ ε}

mutual

theorem run_keeps (H : Keeps I E perform) {α : Type} : ∀ (p : Program A α) index s,
    I index s → Holds I E (run perform p index s)
  | .done v, index, s, hs => by rwa [run_done]
  | .step c bound, index, s, hs => by
    have hc := H index c s hs
    rw [run_step]
    generalize perform index c s = r at hc ⊢
    rcases r with ⟨e | v, t⟩
    · exact hc
    · exact runBound_keeps H bound v (index + 1) t hc

theorem runBound_keeps (H : Keeps I E perform) {α β : Type} : ∀ (bound : Bound A α β) v index s,
    I index s → Holds I E (runBound perform bound v index s)
  | .nil, v, index, s, hs => by rwa [runBound_nil]
  | .snoc bound f, v, index, s, hs => by
    have hb := runBound_keeps H bound v index s hs
    rw [runBound_snoc]
    generalize runBound perform bound v index s = r at hb ⊢
    rcases r with ⟨e | ⟨w, index⟩, t⟩
    · exact hb
    · exact run_keeps H (f w) index t hb

end

section

variable {J : σ → Prop}

theorem keeps_of_invariant (H : ∀ index c s, J s → J (perform index c s).2) :
    Keeps (fun _ => J) (fun _ => J) perform := by
  intro index c s hs
  have hc := H index c s hs
  rcases hrun : perform index c s with ⟨e | v, t⟩
  all_goals
    rw [hrun] at hc
    exact hc

theorem Holds.invariant {r : Except ε (α × Nat) × σ} (h : Holds (fun _ => J) (fun _ => J) r) :
    J r.2 := by
  rcases r with ⟨e | ⟨v, count⟩, t⟩ <;> exact h

theorem run_invariant (H : ∀ index c s, J s → J (perform index c s).2) (p : Program A α)
    (index : Nat) {s : σ} (hs : J s) : J (run perform p index s).2 :=
  (run_keeps (keeps_of_invariant H) p index s hs).invariant

theorem runBound_invariant (H : ∀ index c s, J s → J (perform index c s).2) (bound : Bound A α β)
    (v : α) (index : Nat) {s : σ} (hs : J s) : J (runBound perform bound v index s).2 :=
  (runBound_keeps (keeps_of_invariant H) bound v index s hs).invariant

end

end

end Program

end Brigade
