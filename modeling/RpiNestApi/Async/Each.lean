/-
What is known at each await of a program.

A transition table does not see how a promise settled.  `Prog.Each P` says that at
every await the program can come to, `P` holds of the promise and of how the
program goes on from each of its answers.
-/
import RpiNestApi.Async.Pool

namespace Async

variable {W Q : Type} {A : Q → Type} {ε α β C K E : Type}

section Each

variable (P : (q : Q) → (Except ε (A q) → Prog W Q A ε α) → Prop)

def Prog.Each : Prog W Q A ε α → Prop
  | .ret _ => True
  | .throw _ => True
  | .sync _ k => ∀ w, (k w).Each
  | .await q k => P q k ∧ ∀ r, (k r).Each

def Suspended.Each : Suspended W Q A ε α → Prop
  | .done _ => True
  | .waits q k => (Prog.await q k).Each P

/-- Every task of the state is suspended in such a program. -/
def State.Each (s : State W Q A ε α C) : Prop := ∀ i t, s.tasks i = some t → t.rest.Each P

/-- Every task is suspended in a program of which this is known for its call. -/
def State.EachFor (P : C → (q : Q) → (Except ε (A q) → Prog W Q A ε α) → Prop)
    (s : State W Q A ε α C) : Prop :=
  ∀ i t, s.tasks i = some t → t.rest.Each (P t.call)

variable {P}

/-- A promise whose rejection is raised. -/
theorem Prog.each_call_bind {q : Q} {g : A q → Prog W Q A ε α} :
    ((call q).bind g).Each P ↔
      P q (fun r => match r with
        | .ok b => g b
        | .error e => .throw e) ∧ ∀ b, (g b).Each P := by
  have hk : (call q).bind g = await q fun r => match r with
      | .ok b => g b
      | .error e => .throw e := by
    refine congrArg (await q) (funext fun r => ?_)
    cases r <;> rfl
  rw [hk, Each]
  refine and_congr_right fun _ => ⟨fun h b => h (.ok b), fun h r => ?_⟩
  cases r with
  | ok b => exact h b
  | error e => trivial

/-- A promise whose rejection is handled. -/
theorem Prog.each_call_catch_bind {q : Q} {h : ε → Prog W Q A ε (A q)}
    {g : A q → Prog W Q A ε α} :
    (((call q).catchWith h).bind g).Each P ↔
      P q (fun r => match r with
        | .ok b => g b
        | .error e => (h e).bind g) ∧ (∀ b, (g b).Each P) ∧ ∀ e, ((h e).bind g).Each P := by
  have hk : ((call q).catchWith h).bind g = await q fun r => match r with
      | .ok b => g b
      | .error e => (h e).bind g := by
    refine congrArg (await q) (funext fun r => ?_)
    cases r <;> rfl
  rw [hk, Each]
  refine and_congr_right fun _ =>
    ⟨fun h => ⟨fun b => h (.ok b), fun e => h (.error e)⟩, fun h r => ?_⟩
  cases r with
  | ok b => exact h.1 b
  | error e => exact h.2 e

theorem Prog.Each.advance {p : Prog W Q A ε α} (h : p.Each P) (w : W) :
    (p.advance w).1.Each P := by
  induction p generalizing w with
  | ret a => trivial
  | throw e => trivial
  | sync f k ih => exact ih w (h w) (f w)
  | await q k _ => exact h

end Each

/-! ## Runs -/

section Run

variable {P : C → (q : Q) → (Except ε (A q) → Prog W Q A ε α) → Prop}
variable {sys : System W Q A ε α C K E} {ok : Config W Q ε α C → Act C K E → Prop}
variable {s s' : State W Q A ε α C}

theorem State.EachFor.init (w : W) : (State.init w : State W Q A ε α C).EachFor P := by
  intro i t h
  cases h

theorem State.EachFor.settle (hs : s.EachFor P) {i : Nat} {c : C} {past : List Q}
    {r : Suspended W Q A ε α × W} (hr : r.1.Each (P c)) : (s.settle i c past r).EachFor P :=
  State.forall_settle hs hr

theorem State.EachFor.step (hbody : ∀ c, (sys.body c).Each (P c)) {a : Act C K E}
    (hs : s.EachFor P) (hstep : sys.step s a = some s') : s'.EachFor P := by
  cases a with
  | start i c =>
      obtain ⟨_, w, _, rfl⟩ := System.step_start hstep
      exact hs.settle ((hbody c).advance w)
  | resume i k =>
      obtain ⟨c, past, q, f, hi, r, _, rfl⟩ := System.step_resume hstep
      exact hs.settle (((hs i _ hi).2 r.1).advance r.2)
  | env e =>
      obtain ⟨w, _, rfl⟩ := System.step_env hstep
      exact hs

theorem System.Run.eachFor (hbody : ∀ c, (sys.body c).Each (P c)) {as : List (Act C K E)}
    (hrun : sys.Run ok s as s') (hs : s.EachFor P) : s'.EachFor P := by
  induction hrun with
  | nil => exact hs
  | cons _ hstep _ ih => exact ih (hs.step hbody hstep)

/-- The step that answers a promise, with what is known of how the program goes on. -/
theorem State.EachFor.resume (hs : s.EachFor P) {i : Nat} {k : K}
    (hstep : sys.step s (.resume i k) = some s') {t : Thread Q ε α C} {q : Q}
    (hi : s.config.threads i = some t) (hq : t.status = .waits q) :
    ∃ f r, P t.call q f ∧ sys.answer q k s.world = some r ∧
      s'.config.threads i = some
        { call := t.call, past := q :: t.past, status := ((f r.1).advance r.2).1.status } := by
  obtain ⟨c, past, q', f, hi', r, hr, rfl⟩ := System.step_resume hstep
  obtain rfl : t = { call := c, past, status := .waits q' } := by
    simpa [State.config, hi', Task.thread, Suspended.status] using hi.symm
  cases hq
  refine ⟨f, r, (hs i _ hi').1, hr, ?_⟩
  rw [State.settle_config]
  exact Function.update_self ..

end Run

/-! ## What is known of all calls alike -/

section Run

variable {P : (q : Q) → (Except ε (A q) → Prog W Q A ε α) → Prop}
variable {sys : System W Q A ε α C K E} {ok : Config W Q ε α C → Act C K E → Prop}
variable {s s' : State W Q A ε α C}

theorem State.each_iff : s.Each P ↔ s.EachFor fun _ => P := Iff.rfl

theorem State.Each.init (w : W) : (State.init w : State W Q A ε α C).Each P :=
  State.each_iff.mpr (.init w)

theorem State.Each.step (hbody : ∀ c, (sys.body c).Each P) {a : Act C K E} (hs : s.Each P)
    (hstep : sys.step s a = some s') : s'.Each P :=
  State.each_iff.mpr ((State.each_iff.mp hs).step hbody hstep)

theorem System.Run.each (hbody : ∀ c, (sys.body c).Each P) {as : List (Act C K E)}
    (hrun : sys.Run ok s as s') (hs : s.Each P) : s'.Each P :=
  State.each_iff.mpr (hrun.eachFor hbody (State.each_iff.mp hs))

theorem State.Each.resume (hs : s.Each P) {i : Nat} {k : K}
    (hstep : sys.step s (.resume i k) = some s') {t : Thread Q ε α C} {q : Q}
    (hi : s.config.threads i = some t) (hq : t.status = .waits q) :
    ∃ f r, P q f ∧ sys.answer q k s.world = some r ∧
      s'.config.threads i = some
        { call := t.call, past := q :: t.past, status := ((f r.1).advance r.2).1.status } :=
  (State.each_iff.mp hs).resume hstep hi hq

end Run

end Async
