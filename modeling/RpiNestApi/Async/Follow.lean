/-
Programs that follow a transition table.

A table `T` says what one step of a call may do: `T c o w w' st` allows the call
`c`, resumed from the await `o` in the world `w`, to leave the world `w'` and
the status `st`.  `o = none` is the call's first step.  A program that follows
its table is checked once, by recursion over its awaits, and from then on the
pool is a transition system over worlds and statuses with no program in it.
Invariants and histories are proved there.
-/
import RpiNestApi.Async.Pool

namespace Async

variable {W Q : Type} {A : Q → Type} {ε α β ρ C K E : Type}

/-- `p` was resumed from `o` in the world `w₀` and has changed it to `w`.  This
step and every later one is in `T`, and `post` holds where `p` returns: of the
value, the await it was last resumed from, and the worlds since. -/
def Prog.Within (answer : (q : Q) → K → W → Option (Except ε (A q) × W))
    (T : Option Q → W → W → Status Q ε ρ → Prop) :
    Prog W Q A ε α → (α → Option Q → W → W → Prop) → Option Q → W → W → Prop
  | .ret a, post, o, w₀, w => post a o w₀ w
  | .throw e, _, o, w₀, w => T o w₀ w (.done (.error e))
  | .sync f k, post, o, w₀, w => (k w).Within answer T post o w₀ (f w)
  | .await q k, post, o, w₀, w =>
    T o w₀ w (.waits q) ∧
      ∀ c w' r, answer q c w' = some r → (k r.1).Within answer T post (some q) w' r.2

/-- Every step of `p` is in `T`, the one it ends with included. -/
def Prog.Follows (answer : (q : Q) → K → W → Option (Except ε (A q) × W))
    (T : Option Q → W → W → Status Q ε α → Prop) (p : Prog W Q A ε α) (o : Option Q)
    (w₀ w : W) : Prop :=
  p.Within answer T (fun a o w₀ w => T o w₀ w (.done (.ok a))) o w₀ w

def Suspended.Follows (answer : (q : Q) → K → W → Option (Except ε (A q) × W))
    (T : Option Q → W → W → Status Q ε α → Prop) : Suspended W Q A ε α → Prop
  | .done _ => True
  | .waits q k => ∀ c w' r, answer q c w' = some r → (k r.1).Follows answer T (some q) w' r.2

section Within

variable {answer : (q : Q) → K → W → Option (Except ε (A q) × W)}
variable {T : Option Q → W → W → Status Q ε ρ → Prop}
variable {post : α → Option Q → W → W → Prop} {o : Option Q} {w₀ w : W}

@[simp] theorem Prog.within_ret {a : α} :
    (.ret a : Prog W Q A ε α).Within answer T post o w₀ w ↔ post a o w₀ w := Iff.rfl

@[simp] theorem Prog.within_sync {f : W → W} {k : W → Prog W Q A ε α} :
    (Prog.sync f k).Within answer T post o w₀ w ↔ (k w).Within answer T post o w₀ (f w) :=
  Iff.rfl

@[simp] theorem Prog.within_bind {p : Prog W Q A ε β} {g : β → Prog W Q A ε α} :
    (p.bind g).Within answer T post o w₀ w ↔
      p.Within answer T (fun b o w₀ w => (g b).Within answer T post o w₀ w) o w₀ w := by
  induction p generalizing o w₀ w with
  | ret b => exact Iff.rfl
  | throw e => exact Iff.rfl
  | sync f k ih => exact ih w
  | await q k ih =>
      simp only [Prog.bind, Prog.Within]
      exact and_congr_right fun _ => forall₄_congr fun c w' r _ => ih r.1

theorem Prog.Within.mono {post' : α → Option Q → W → W → Prop} {p : Prog W Q A ε α}
    (h : p.Within answer T post o w₀ w)
    (hpost : ∀ a o w₀ w, post a o w₀ w → post' a o w₀ w) : p.Within answer T post' o w₀ w := by
  induction p generalizing o w₀ w with
  | ret a => exact hpost a o w₀ w h
  | throw e => exact h
  | sync f k ih => exact ih w h
  | await q k ih => exact ⟨h.1, fun c w' r hr => ih r.1 (h.2 c w' r hr)⟩

theorem Prog.within_ite {c : Prop} [Decidable c] {p p' : Prog W Q A ε α} :
    (if c then p else p').Within answer T post o w₀ w ↔
      (c → p.Within answer T post o w₀ w) ∧ (¬ c → p'.Within answer T post o w₀ w) := by
  by_cases hc : c <;> simp [hc]

/-- An error that is caught goes on with the handler. -/
theorem Prog.within_catchWith {p : Prog W Q A ε α} {h : ε → Prog W Q A ε α} :
    (p.catchWith h).Within answer T post o w₀ w ↔
      p.Within answer (fun o w₀ w st => match st with
        | .done (.error e) => (h e).Within answer T post o w₀ w
        | st => T o w₀ w st) post o w₀ w := by
  induction p generalizing o w₀ w with
  | ret a => exact Iff.rfl
  | throw e => exact Iff.rfl
  | sync f k ih => exact ih w
  | await q k ih =>
      simp only [Prog.catchWith, Prog.Within]
      exact and_congr_right fun _ => forall₄_congr fun c w' r _ => ih r.1

/-- Awaiting a promise: where it settles the value is returned, where it rejects
the error ends the call. -/
theorem Prog.within_call {q : Q} {post : A q → Option Q → W → W → Prop} :
    (Prog.call q : Prog W Q A ε (A q)).Within answer T post o w₀ w ↔
      T o w₀ w (.waits q) ∧ ∀ c w' r, answer q c w' = some r →
        match r.1 with
        | .ok b => post b (some q) w' r.2
        | .error e => T (some q) w' r.2 (.done (.error e)) := by
  simp only [Prog.call, Prog.Within]
  refine and_congr_right fun _ => forall₄_congr fun c w' r _ => ?_
  cases r.1 <;> exact Iff.rfl

end Within

theorem Prog.Follows.advance {answer : (q : Q) → K → W → Option (Except ε (A q) × W)}
    {T : Option Q → W → W → Status Q ε α → Prop} {p : Prog W Q A ε α}
    {o : Option Q} {w₀ w : W} (h : p.Follows answer T o w₀ w) :
    T o w₀ (p.advance w).2 (p.advance w).1.status ∧ (p.advance w).1.Follows answer T := by
  induction p generalizing w with
  | ret a => exact ⟨h, trivial⟩
  | throw e => exact ⟨h, trivial⟩
  | sync f k ih => exact ih w h
  | await q k _ => exact h

/-- One step of the pool as the table sees it. -/
inductive Move (T : C → Option Q → W → W → Status Q ε α → Prop) (env : E → W → Option W) :
    Config W Q ε α C → Act C K E → Config W Q ε α C → Prop
  | start {g : Config W Q ε α C} {i : Nat} {c : C} {w : W} {st : Status Q ε α}
      (hi : g.threads i = none) (hT : T c none g.world w st) :
      Move T env g (.start i c)
        { world := w,
          threads := Function.update g.threads i (some { call := c, past := [], status := st }) }
  | resume {g : Config W Q ε α C} {i : Nat} {k : K} {c : C} {past : List Q} {q : Q} {w : W}
      {st : Status Q ε α}
      (hi : g.threads i = some { call := c, past, status := .waits q })
      (hT : T c (some q) g.world w st) :
      Move T env g (.resume i k)
        { world := w,
          threads := Function.update g.threads i
            (some { call := c, past := q :: past, status := st }) }
  | env {g : Config W Q ε α C} {e : E} {w : W} (he : env e g.world = some w) :
      Move T env g (.env e) { world := w, threads := g.threads }

/-- The runs of the table, with the condition `ok` on each step. -/
inductive Trace (T : C → Option Q → W → W → Status Q ε α → Prop) (env : E → W → Option W)
    (ok : Config W Q ε α C → Act C K E → Prop) :
    Config W Q ε α C → List (Act C K E) → Config W Q ε α C → Prop
  | nil (g : Config W Q ε α C) : Trace T env ok g [] g
  | cons {g h u : Config W Q ε α C} {a : Act C K E} {as : List (Act C K E)} (hok : ok g a)
      (hmove : Move T env g a h) (htrace : Trace T env ok h as u) : Trace T env ok g (a :: as) u

/-- The first step of every accepted call, and every later one, is in `T`. -/
def System.Obeys (sys : System W Q A ε α C K E)
    (T : C → Option Q → W → W → Status Q ε α → Prop) : Prop :=
  ∀ c w w₁, sys.accept c w = some w₁ → (sys.body c).Follows sys.answer (T c) none w w₁

/-- Every task of the state goes on within `T`. -/
def State.Obeys (sys : System W Q A ε α C K E)
    (T : C → Option Q → W → W → Status Q ε α → Prop) (s : State W Q A ε α C) : Prop :=
  ∀ i t, s.tasks i = some t → t.rest.Follows sys.answer (T t.call)

variable {sys : System W Q A ε α C K E}
variable {T : C → Option Q → W → W → Status Q ε α → Prop}
variable {ok : Config W Q ε α C → Act C K E → Prop}

theorem State.Obeys.init (w : W) : (State.init w : State W Q A ε α C).Obeys sys T := by
  intro i t h
  cases h

theorem State.Obeys.settle {s : State W Q A ε α C} (hs : s.Obeys sys T) {i : Nat} {c : C}
    {past : List Q} {r : Suspended W Q A ε α × W} (hr : r.1.Follows sys.answer (T c)) :
    (s.settle i c past r).Obeys sys T :=
  State.forall_settle hs hr

theorem System.Obeys.move (hsys : sys.Obeys T) {s t : State W Q A ε α C} {a : Act C K E}
    (hs : s.Obeys sys T) (h : sys.step s a = some t) :
    Move T sys.env s.config a t.config ∧ t.Obeys sys T := by
  cases a with
  | start i c =>
      obtain ⟨hi, w, hw, rfl⟩ := System.step_start h
      have hadv := (hsys c s.world w hw).advance
      rw [State.settle_config]
      exact ⟨.start (by simp [State.config, hi]) hadv.1, hs.settle hadv.2⟩
  | resume i k =>
      obtain ⟨c, past, q, f, hi, r, hr, rfl⟩ := System.step_resume h
      have hadv := (hs i _ hi k s.world r hr).advance
      rw [State.settle_config]
      exact ⟨.resume (by simp [State.config, hi, Task.thread, Suspended.status]) hadv.1,
        hs.settle hadv.2⟩
  | env e =>
      obtain ⟨w, hw, rfl⟩ := System.step_env h
      exact ⟨.env hw, hs⟩

/-- A run of programs that follow `T` is a trace of `T`. -/
theorem System.Run.trace (hsys : sys.Obeys T) {s t : State W Q A ε α C}
    {as : List (Act C K E)} (h : sys.Run ok s as t) (hs : s.Obeys sys T) :
    Trace T sys.env ok s.config as t.config ∧ t.Obeys sys T := by
  induction h with
  | nil s => exact ⟨.nil _, hs⟩
  | cons hok hstep _ ih =>
      obtain ⟨hmove, ht⟩ := hsys.move hs hstep
      obtain ⟨htrace, hu⟩ := ih ht
      exact ⟨.cons hok hmove htrace, hu⟩

/-! ## Invariants -/

theorem Trace.invariant (I : Config W Q ε α C → Prop) {env : E → W → Option W}
    (hstep : ∀ g a h, ok g a → Move T env g a h → I g → I h)
    {g h : Config W Q ε α C} {as : List (Act C K E)}
    (htrace : Trace T env ok g as h) (hg : I g) : I h := by
  induction htrace with
  | nil => exact hg
  | cons hok hmove _ ih => exact ih (hstep _ _ _ hok hmove hg)

/-- What holds at the start and is kept by every step of the table holds at the
end of every run of the programs. -/
theorem System.Run.invariant (I : Config W Q ε α C → Prop) (hsys : sys.Obeys T)
    (hstep : ∀ g a h, ok g a → Move T sys.env g a h → I g → I h)
    {s t : State W Q A ε α C} {as : List (Act C K E)} (hrun : sys.Run ok s as t)
    (hs : s.Obeys sys T) (hI : I s.config) : I t.config :=
  (hrun.trace hsys hs).1.invariant I hstep hI

end Async
