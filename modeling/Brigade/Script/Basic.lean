import Brigade.Program.Basic

/-! Scripts: programs over numbers as data. A script is built from values, from leaves of a language
of its own, and from the ways to combine programs. Names are counted from the innermost binding. -/

namespace Brigade

/-- The numbers that are bound, the innermost first. -/
abbrev Bindings := List Int64

inductive Expr
  | number (n : Int64)
  | var (k : Nat)
  | add (a b : Expr)
  | sub (a b : Expr)
  | mul (a b : Expr)
  deriving DecidableEq

namespace Expr

/-- The value of an expression, modulo 2 ^ 64. A variable that is not bound is 0. -/
def eval (env : Bindings) : Expr → Int64
  | .number n => n
  | .var k => env.getD k 0
  | .add a b => a.eval env + b.eval env
  | .sub a b => a.eval env - b.eval env
  | .mul a b => a.eval env * b.eval env

def function (env : Bindings) (e : Expr) : Int64 → Int64 := fun x => e.eval (x :: env)

end Expr

/-- A script with leaves of type `ℓ`. -/
inductive Script (ℓ : Type)
  | pure (e : Expr)
  | leaf (l : ℓ)
  | bind (p q : Script ℓ)
  | map (p : Script ℓ) (e : Expr)
  | andThen (p q : Script ℓ)
  /-- Binds `q` to `p`, then `q` to the whole, `n` times. -/
  | chain (n : Nat) (p q : Script ℓ)
  /-- Binds to `p` a chain of `n` times `q` that is bound from its end. -/
  | chainRight (n : Nat) (p q : Script ℓ)
  | maps (n : Nat) (p : Script ℓ) (e : Expr)

namespace Script

variable {ℓ : Type} {A : Algebra}

def program (leafProgram : Bindings → ℓ → Program A Int64) :
    Script ℓ → Bindings → Program A Int64
  | .pure e, env => .done (e.eval env)
  | .leaf l, env => leafProgram env l
  | .bind p q, env =>
    (p.program leafProgram env).bind fun x => q.program leafProgram (x :: env)
  | .map p e, env => (p.program leafProgram env).map (e.function env)
  | .andThen p q, env => (p.program leafProgram env).andThen (q.program leafProgram env)
  | .chain n p q, env =>
    (p.program leafProgram env).bindTimes (fun x => q.program leafProgram (x :: env)) n
  | .chainRight n p q, env =>
    (p.program leafProgram env).bind (Program.iterate (fun x => q.program leafProgram (x :: env)) n)
  | .maps n p e, env =>
    (p.program leafProgram env).bindTimes (fun x => .done (e.function env x)) n

end Script

end Brigade
