/-
Programs whose promises settle as a function says.

Where there is no world, the function decides how a program ends and which
promises it awaits on the way.
-/
import RpiNestApi.Async.Prog

namespace Async

namespace Prog

variable {Q : Type} {A : Q → Type} {ε α β : Type} (answer : (q : Q) → Except ε (A q))

def eval : Prog Unit Q A ε α → Except ε α
  | .ret a => .ok a
  | .throw e => .error e
  | .sync _ k => (k ()).eval
  | .await q k => (k (answer q)).eval

/-- The promises that the program awaits, in their order. -/
def calls : Prog Unit Q A ε α → List Q
  | .ret _ => []
  | .throw _ => []
  | .sync _ k => (k ()).calls
  | .await q k => q :: (k (answer q)).calls

@[simp] theorem eval_ret (a : α) : (ret a : Prog Unit Q A ε α).eval answer = .ok a := rfl

@[simp] theorem eval_call (q : Q) : (call q : Prog Unit Q A ε (A q)).eval answer = answer q := by
  rw [call, eval]
  cases answer q <;> rfl

@[simp] theorem eval_bind (p : Prog Unit Q A ε β) (g : β → Prog Unit Q A ε α) :
    (p.bind g).eval answer = (p.eval answer).bind fun b => (g b).eval answer := by
  induction p with
  | ret b => rfl
  | throw e => rfl
  | sync f k ih => exact ih ()
  | await q k ih => exact ih (answer q)

@[simp] theorem calls_call (q : Q) : (call q : Prog Unit Q A ε (A q)).calls answer = [q] := by
  rw [call, calls]
  cases answer q <;> rfl

@[simp] theorem calls_bind (p : Prog Unit Q A ε β) (g : β → Prog Unit Q A ε α) :
    (p.bind g).calls answer = p.calls answer ++ match p.eval answer with
      | .ok b => (g b).calls answer
      | .error _ => [] := by
  induction p with
  | ret b => rfl
  | throw e => rfl
  | sync f k ih => exact ih ()
  | await q k ih => exact congrArg (q :: ·) (ih (answer q))

theorem mem_calls_bind {answer : (q : Q) → Except ε (A q)} {p : Prog Unit Q A ε β}
    {g : β → Prog Unit Q A ε α} {q : Q} : q ∈ (p.bind g).calls answer ↔
      q ∈ p.calls answer ∨ ∃ b, p.eval answer = .ok b ∧ q ∈ (g b).calls answer := by
  rw [calls_bind, List.mem_append]
  cases p.eval answer <;> simp

end Prog

end Async
