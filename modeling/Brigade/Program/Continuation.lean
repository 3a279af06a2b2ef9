import Brigade.Program.Drive

/-! What happens with the answer of a command. A continuation is a function that can be extended at its
end. The functions bound after a command of a program are such an extension: by plain recursion they are
applied inside one another. This is what a program means; `Program.drive` is how it is run. -/

namespace Brigade

structure Continuation (α β : Type) where
  resume : α → β

namespace Continuation

variable {α β γ : Type}

protected def id : Continuation α α := ⟨fun v => v⟩

def andThen (k : Continuation α β) (g : β → γ) : Continuation α γ := ⟨fun v => g (k.resume v)⟩

@[simp] theorem resume_id (v : α) : (Continuation.id : Continuation α α).resume v = v := rfl

@[simp] theorem resume_andThen (k : Continuation α β) (g : β → γ) (v : α) :
    (k.andThen g).resume v = g (k.resume v) := rfl

def diagnostic (source target : String) : String := s!"Continuation<{source} -> {target}>"

end Continuation

namespace Program

variable {A : Algebra} {σ ε : Type}

mutual

/-- Runs a program by performing its command and applying the functions bound after it, each to the
value of the run of what the one before gave. -/
def run {β : Type} (perform : Performer A σ ε) : Program A β → Nat → σ → Except ε (β × Nat) × σ
  | .done v, index, s => (.ok (v, index), s)
  | .step c bound, index, s =>
    match perform index c s with
    | (.ok v, s) => runBound perform bound v (index + 1) s
    | (.error e, s) => (.error e, s)

def runBound {α β : Type} (perform : Performer A σ ε) :
    Bound A α β → α → Nat → σ → Except ε (β × Nat) × σ
  | .nil, v, index, s => (.ok (v, index), s)
  | .snoc bound f, v, index, s =>
    match runBound perform bound v index s with
    | (.ok (w, index), s) => run perform (f w) index s
    | (.error e, s) => (.error e, s)

end

end Program

end Brigade
