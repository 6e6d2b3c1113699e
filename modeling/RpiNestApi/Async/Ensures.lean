/-
What a call ends with where its promises settle as they should.

`Prog.Ensures allowed` looks at the ends that a program comes to when every promise
settles in a way that is allowed.  It does not look at the world.
-/
import RpiNestApi.Async.Pool

namespace Async

variable {W Q : Type} {A : Q → Type} {ε α β C K E : Type}

section Ensures

variable (allowed : (q : Q) → Except ε (A q) → Prop)

/-- `post` holds of every end, and of the promises awaited until then, latest
first.  Before `p` these are `past`. -/
def Prog.Ensures : Prog W Q A ε α → (List Q → Except ε α → Prop) → List Q → Prop
  | .ret a, post, past => post past (.ok a)
  | .throw e, post, past => post past (.error e)
  | .sync _ k, post, past => ∀ w, (k w).Ensures post past
  | .await q k, post, past => ∀ r, allowed q r → (k r).Ensures post (q :: past)

def Suspended.Ensures : Suspended W Q A ε α → (List Q → Except ε α → Prop) → List Q → Prop
  | .done r, post, past => post past r
  | .waits q k, post, past => (Prog.await q k).Ensures allowed post past

/-- Every task of the state ends as `post` says of its call. -/
def State.Ensures (post : C → List Q → Except ε α → Prop) (s : State W Q A ε α C) : Prop :=
  ∀ i t, s.tasks i = some t → t.rest.Ensures allowed (post t.call) t.past

variable {allowed} {post post' : List Q → Except ε α → Prop} {past : List Q}

theorem Prog.ensures_bind {p : Prog W Q A ε β} {g : β → Prog W Q A ε α} :
    (p.bind g).Ensures allowed post past ↔
      p.Ensures allowed (fun past r => match r with
        | .ok b => (g b).Ensures allowed post past
        | .error e => post past (.error e)) past := by
  induction p generalizing past with
  | ret b => exact Iff.rfl
  | throw e => exact Iff.rfl
  | sync f k ih => exact forall_congr' fun w => ih w
  | await q k ih => exact forall₂_congr fun r _ => ih r

theorem Prog.ensures_catchWith {p : Prog W Q A ε α} {h : ε → Prog W Q A ε α} :
    (p.catchWith h).Ensures allowed post past ↔
      p.Ensures allowed (fun past r => match r with
        | .ok a => post past (.ok a)
        | .error e => (h e).Ensures allowed post past) past := by
  induction p generalizing past with
  | ret a => exact Iff.rfl
  | throw e => exact Iff.rfl
  | sync f k ih => exact forall_congr' fun w => ih w
  | await q k ih => exact forall₂_congr fun r _ => ih r

theorem Prog.ensures_call {q : Q} {post : List Q → Except ε (A q) → Prop} :
    (Prog.call q : Prog W Q A ε (A q)).Ensures allowed post past ↔
      ∀ r, allowed q r → post (q :: past) r :=
  forall₂_congr fun r _ => by cases r <;> exact Iff.rfl

theorem Prog.ensures_ite {c : Prop} [Decidable c] {p p' : Prog W Q A ε α} :
    (if c then p else p').Ensures allowed post past ↔
      (c → p.Ensures allowed post past) ∧ (¬ c → p'.Ensures allowed post past) := by
  by_cases hc : c <;> simp [hc]

theorem Prog.Ensures.mono {p : Prog W Q A ε α} (h : p.Ensures allowed post past)
    (hpost : ∀ past r, post past r → post' past r) : p.Ensures allowed post' past := by
  induction p generalizing past with
  | ret a => exact hpost _ _ h
  | throw e => exact hpost _ _ h
  | sync f k ih => exact fun w => ih w (h w)
  | await q k ih => exact fun r hr => ih r (h r hr)

theorem Prog.Ensures.advance {p : Prog W Q A ε α} (h : p.Ensures allowed post past) (w : W) :
    (p.advance w).1.Ensures allowed post past := by
  induction p generalizing w with
  | ret a => exact h
  | throw e => exact h
  | sync f k ih => exact ih w (h w) (f w)
  | await q k _ => exact h

end Ensures

section Run

variable {allowed : (q : Q) → Except ε (A q) → Prop} {post : C → List Q → Except ε α → Prop}
variable {sys : System W Q A ε α C K E} {ok : Config W Q ε α C → Act C K E → Prop}
variable {s s' : State W Q A ε α C}

theorem State.Ensures.init (w : W) : (State.init w : State W Q A ε α C).Ensures allowed post := by
  intro i t h
  cases h

theorem State.Ensures.settle (hs : s.Ensures allowed post) {i : Nat} {c : C} {past : List Q}
    {r : Suspended W Q A ε α × W} (hr : r.1.Ensures allowed (post c) past) :
    (s.settle i c past r).Ensures allowed post :=
  State.forall_settle hs hr

/-- The conditions on a run allow every answer that its steps give. -/
def System.Allows (sys : System W Q A ε α C K E) (ok : Config W Q ε α C → Act C K E → Prop)
    (allowed : (q : Q) → Except ε (A q) → Prop) : Prop :=
  ∀ g i k t q r, ok g (.resume i k) → g.threads i = some t → t.status = .waits q →
    sys.answer q k g.world = some r → allowed q r.1

theorem State.Ensures.step (hbody : ∀ c, (sys.body c).Ensures allowed (post c) [])
    (hallows : sys.Allows ok allowed) {a : Act C K E} (hs : s.Ensures allowed post)
    (hok : ok s.config a) (hstep : sys.step s a = some s') : s'.Ensures allowed post := by
  cases a with
  | start i c =>
      obtain ⟨_, w, _, rfl⟩ := System.step_start hstep
      exact hs.settle ((hbody c).advance w)
  | resume i k =>
      obtain ⟨c, past, q, f, hi, r, hr, rfl⟩ := System.step_resume hstep
      have hthread : s.config.threads i = some { call := c, past, status := .waits q } := by
        simp [State.config, hi, Task.thread, Suspended.status]
      exact hs.settle ((hs i _ hi r.1 (hallows _ i k _ q r hok hthread rfl hr)).advance r.2)
  | env e =>
      obtain ⟨w, _, rfl⟩ := System.step_env hstep
      exact hs

theorem System.Run.ensures (hbody : ∀ c, (sys.body c).Ensures allowed (post c) [])
    (hallows : sys.Allows ok allowed) {as : List (Act C K E)} (hrun : sys.Run ok s as s')
    (hs : s.Ensures allowed post) : s'.Ensures allowed post := by
  induction hrun with
  | nil => exact hs
  | cons hok hstep _ ih => exact ih (hs.step hbody hallows hok hstep)

/-- What a thread has ended with. -/
theorem State.Ensures.done (hs : s.Ensures allowed post) {i : Nat} {t : Thread Q ε α C}
    {r : Except ε α} (hi : s.config.threads i = some t) (ht : t.status = .done r) :
    post t.call t.past r := by
  obtain ⟨⟨c, past, rest⟩, hi', rfl⟩ := Option.map_eq_some_iff.mp hi
  cases rest with
  | waits q k => cases ht
  | done r' =>
      cases ht
      exact hs i _ hi'

end Run

end Async
