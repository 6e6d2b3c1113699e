/-
Cooperative programs.

A program runs without interruption until it awaits something.  Between two
awaits it may read and change the shared world, and nobody else runs.  What it
awaits is a value of `Q`, which names the promise, and the promise either
settles with an answer or rejects with an error, so that one await has one
continuation and a program is a well-founded tree.
-/
import Mathlib.Logic.Function.Basic

namespace Async

inductive Prog (W Q : Type) (A : Q → Type) (ε α : Type) where
  | ret (a : α)
  | throw (e : ε)
  | sync (f : W → W) (k : W → Prog W Q A ε α)
  | await (q : Q) (k : Except ε (A q) → Prog W Q A ε α)

variable {W Q : Type} {A : Q → Type} {ε α β : Type}

namespace Prog

def bind : Prog W Q A ε α → (α → Prog W Q A ε β) → Prog W Q A ε β
  | .ret a, g => g a
  | .throw e, _ => .throw e
  | .sync f k, g => .sync f fun w => (k w).bind g
  | .await q k, g => .await q fun r => (k r).bind g

/-- Run `p`, and `h` on the error it ends with.  An error raised after an await
is caught as well. -/
def catchWith : Prog W Q A ε α → (ε → Prog W Q A ε α) → Prog W Q A ε α
  | .ret a, _ => .ret a
  | .throw e, h => h e
  | .sync f k, h => .sync f fun w => (k w).catchWith h
  | .await q k, h => .await q fun r => (k r).catchWith h

/-- Run `p`, then `q`, and end as `p` has ended. -/
def finallyDo (p : Prog W Q A ε α) (q : Prog W Q A ε Unit) : Prog W Q A ε α :=
  ((p.bind fun a => .ret (Except.ok a)).catchWith fun e => .ret (Except.error e)).bind fun r =>
    q.bind fun _ => match r with
      | .ok a => .ret a
      | .error e => .throw e

instance : Monad (Prog W Q A ε) where
  pure := .ret
  bind := .bind

instance : MonadExceptOf ε (Prog W Q A ε) where
  throw := .throw
  tryCatch := .catchWith

/-- Look at the world. -/
def read : Prog W Q A ε W := .sync id .ret

/-- Change the world. -/
def modify (f : W → W) : Prog W Q A ε Unit := .sync f fun _ => .ret ()

/-- Await the promise `q`.  A rejection is raised where it is awaited. -/
def call (q : Q) : Prog W Q A ε (A q) :=
  .await q fun
    | .ok b => .ret b
    | .error e => .throw e

@[simp] theorem pure_def (a : α) : (pure a : Prog W Q A ε α) = .ret a := rfl

@[simp] theorem bind_def (p : Prog W Q A ε α) (g : α → Prog W Q A ε β) : p >>= g = p.bind g := rfl

@[simp] theorem tryCatch_def (p : Prog W Q A ε α) (h : ε → Prog W Q A ε α) :
    tryCatch p h = p.catchWith h := rfl

@[simp] theorem ret_bind (a : α) (g : α → Prog W Q A ε β) : (ret a).bind g = g a := rfl

@[simp] theorem sync_bind (f : W → W) (k : W → Prog W Q A ε α) (g : α → Prog W Q A ε β) :
    (sync f k).bind g = .sync f fun w => (k w).bind g := rfl

theorem bind_assoc {γ : Type} (p : Prog W Q A ε α) (g : α → Prog W Q A ε β)
    (h : β → Prog W Q A ε γ) : (p.bind g).bind h = p.bind fun a => (g a).bind h := by
  induction p with
  | ret a => rfl
  | throw e => rfl
  | sync f k ih => exact congrArg (sync f) (funext ih)
  | await q k ih => exact congrArg (await q) (funext ih)

end Prog

/-- A program that has run as far as it can: it has ended, or it waits. -/
inductive Suspended (W Q : Type) (A : Q → Type) (ε α : Type) where
  | done (r : Except ε α)
  | waits (q : Q) (k : Except ε (A q) → Prog W Q A ε α)

/-- Run a program up to its next await, or to its end. -/
def Prog.advance : Prog W Q A ε α → W → Suspended W Q A ε α × W
  | .ret a, w => (.done (.ok a), w)
  | .throw e, w => (.done (.error e), w)
  | .sync f k, w => (k w).advance (f w)
  | .await q k, w => (.waits q k, w)

/-- What an observer sees of a suspended program. -/
inductive Status (Q ε α : Type) where
  | done (r : Except ε α)
  | waits (q : Q)

def Suspended.status : Suspended W Q A ε α → Status Q ε α
  | .done r => .done r
  | .waits q _ => .waits q

end Async
