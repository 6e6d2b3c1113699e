/-
Calls that run one after the other.

`Prog.Ends` is total correctness of a program that runs alone: whatever the
environment does while it waits, it can always go on, and where it ends `post`
holds.  `System.Sequence` are the runs of the pool in which each call has ended
before the next one starts.
-/
import Mathlib.Data.List.Induction
import Mathlib.Logic.Relation
import RpiNestApi.Async.Pool

namespace Async

variable {W Q : Type} {A : Q → Type} {ε α β C K E : Type}

section Ends

variable (answer : (q : Q) → K → W → Option (Except ε (A q) × W)) (idle : W → W → Prop)
  (allowed : K → Prop)

/-- Run alone from `w`, with moves of the environment along `idle` where it
waits and answers under `allowed` choices, the program comes to an end, and
`post` holds of every end it comes to. -/
def Prog.Ends : Prog W Q A ε α → (Except ε α → W → Prop) → W → Prop
  | .ret a, post, w => post (.ok a) w
  | .throw e, post, w => post (.error e) w
  | .sync f k, post, w => (k w).Ends post (f w)
  | .await q k, post, w => ∀ w₀, idle w w₀ →
    (∃ w₁ c r, idle w₀ w₁ ∧ allowed c ∧ answer q c w₁ = some r) ∧
      ∀ c r, allowed c → answer q c w₀ = some r → (k r.1).Ends post r.2

def Suspended.Ends : Suspended W Q A ε α → (Except ε α → W → Prop) → W → Prop
  | .done r, post, w => post r w
  | .waits q k, post, w => (Prog.await q k).Ends answer idle allowed post w

variable {answer idle allowed} {post post' : Except ε α → W → Prop} {w : W}

@[simp] theorem Prog.ends_ret {a : α} :
    (.ret a : Prog W Q A ε α).Ends answer idle allowed post w ↔ post (.ok a) w := Iff.rfl

@[simp] theorem Prog.ends_sync {f : W → W} {k : W → Prog W Q A ε α} :
    (Prog.sync f k).Ends answer idle allowed post w ↔
      (k w).Ends answer idle allowed post (f w) := Iff.rfl

@[simp] theorem Prog.ends_bind {p : Prog W Q A ε β} {g : β → Prog W Q A ε α} :
    (p.bind g).Ends answer idle allowed post w ↔
      p.Ends answer idle allowed (fun r w => match r with
        | .ok b => (g b).Ends answer idle allowed post w
        | .error e => post (.error e) w) w := by
  induction p generalizing w with
  | ret b => exact Iff.rfl
  | throw e => exact Iff.rfl
  | sync f k ih => exact ih w
  | await q k ih =>
      simp only [Prog.bind, Prog.Ends]
      exact forall₂_congr fun w₀ _ => and_congr_right fun _ =>
        forall₄_congr fun c r _ _ => ih r.1

theorem Prog.Ends.mono {p : Prog W Q A ε α} (h : p.Ends answer idle allowed post w)
    (hpost : ∀ r w, post r w → post' r w) : p.Ends answer idle allowed post' w := by
  induction p generalizing w with
  | ret a => exact hpost _ _ h
  | throw e => exact hpost _ _ h
  | sync f k ih => exact ih w h
  | await q k ih =>
      intro w₀ hw₀
      obtain ⟨hgo, hall⟩ := h w₀ hw₀
      exact ⟨hgo, fun c r hc hr => ih r.1 (hall c r hc hr)⟩

theorem Prog.ends_call {q : Q} {post : Except ε (A q) → W → Prop} :
    (Prog.call q : Prog W Q A ε (A q)).Ends answer idle allowed post w ↔
      ∀ w₀, idle w w₀ →
        (∃ w₁ c r, idle w₀ w₁ ∧ allowed c ∧ answer q c w₁ = some r) ∧
          ∀ c r, allowed c → answer q c w₀ = some r → post r.1 r.2 := by
  simp only [Prog.call, Prog.Ends]
  refine forall₂_congr fun w₀ _ => and_congr_right fun _ => forall₄_congr fun c r _ _ => ?_
  cases r.1 <;> exact Iff.rfl

/-- A promise that can settle, where the environment does nothing meanwhile. -/
theorem Prog.ends_call_eq {q : Q} {post : Except ε (A q) → W → Prop}
    (hgo : ∃ c r, allowed c ∧ answer q c w = some r)
    (h : ∀ c r, allowed c → answer q c w = some r → post r.1 r.2) :
    (Prog.call q : Prog W Q A ε (A q)).Ends answer Eq allowed post w := by
  rw [Prog.ends_call]
  rintro w₀ rfl
  obtain ⟨c, r, hc, hr⟩ := hgo
  exact ⟨⟨w, c, r, rfl, hc, hr⟩, h⟩

@[simp] theorem Prog.ends_catchWith {p : Prog W Q A ε α} {h : ε → Prog W Q A ε α} :
    (p.catchWith h).Ends answer idle allowed post w ↔
      p.Ends answer idle allowed (fun r w => match r with
        | .ok a => post (.ok a) w
        | .error e => (h e).Ends answer idle allowed post w) w := by
  induction p generalizing w with
  | ret a => exact Iff.rfl
  | throw e => exact Iff.rfl
  | sync f k ih => exact ih w
  | await q k ih =>
      simp only [Prog.catchWith, Prog.Ends]
      exact forall₂_congr fun w₀ _ => and_congr_right fun _ =>
        forall₄_congr fun c r _ _ => ih r.1

theorem Prog.ends_ite {c : Prop} [Decidable c] {p p' : Prog W Q A ε α} :
    (if c then p else p').Ends answer idle allowed post w ↔
      (c → p.Ends answer idle allowed post w) ∧ (¬ c → p'.Ends answer idle allowed post w) := by
  by_cases hc : c <;> simp [hc]

theorem Prog.Ends.advance {p : Prog W Q A ε α} (h : p.Ends answer idle allowed post w) :
    (p.advance w).1.Ends answer idle allowed post (p.advance w).2 := by
  induction p generalizing w with
  | ret a => exact h
  | throw e => exact h
  | sync f k ih => exact ih w h
  | await q k _ => exact h

/-- Run a program alone to its end, where nothing happens while it waits. -/
def Prog.run (settle : (q : Q) → W → Except ε (A q) × W) : Prog W Q A ε α → W → Except ε α × W
  | .ret a, w => (.ok a, w)
  | .throw e, w => (.error e, w)
  | .sync f k, w => (k w).run settle (f w)
  | .await q k, w => (k (settle q w).1).run settle (settle q w).2

/-- One of the ends that a program comes to is that of a run in which nothing else
happens. -/
theorem Prog.Ends.run {p : Prog W Q A ε α} {settle : (q : Q) → W → Except ε (A q) × W}
    (h : p.Ends answer idle allowed post w) (hidle : ∀ w, idle w w)
    (hsettle : ∀ q w, ∃ c, allowed c ∧ answer q c w = some (settle q w)) :
    post (p.run settle w).1 (p.run settle w).2 := by
  induction p generalizing w with
  | ret a => exact h
  | throw e => exact h
  | sync f k ih => exact ih w h
  | await q k ih =>
      obtain ⟨c, hc, hanswer⟩ := hsettle q w
      exact ih _ ((h w (hidle w)).2 c _ hc hanswer)

end Ends

/-! ## Sequences of calls -/

namespace System

variable (sys : System W Q A ε α C K E) (allowed : K → Prop)

def Idle : W → W → Prop := Relation.ReflTransGen fun w w' => ∃ e, sys.env e w = some w'

/-- Steps that start nothing and answer under `allowed` choices. -/
def Resolves (allowed : K → Prop) (_ : Config W Q ε α C) : Act C K E → Prop
  | .start _ _ => False
  | .resume _ k => allowed k
  | .env _ => True

/-- The call `c` is started in `s`, and ends with `r` before any other starts. -/
def Completes (s : State W Q A ε α C) (i : Nat) (c : C) (r : Except ε α)
    (s' : State W Q A ε α C) : Prop :=
  ∃ s₁ bs past, sys.step s (.start i c) = some s₁ ∧ sys.Run (Resolves allowed) s₁ bs s' ∧
    s'.config.threads i = some { call := c, past, status := .done r }

/-- Sequential runs from `w`, with the calls they completed. -/
inductive Sequence (w : W) : List (C × Except ε α) → State W Q A ε α C → Prop
  | nil : Sequence w [] (.init w)
  | env {log s s' e} (h : Sequence w log s) (hstep : sys.step s (.env e) = some s') :
      Sequence w log s'
  | call {log s s' i c r} (h : Sequence w log s) (hcall : sys.Completes allowed s i c r s') :
      Sequence w (log ++ [(c, r)]) s'

variable {sys allowed}

/-- No call but that of the thread `i` is in progress. -/
def Alone (i : Nat) (s : State W Q A ε α C) : Prop :=
  ∀ j t, j ≠ i → s.tasks j = some t → ∃ r, t.rest = .done r

theorem Alone.settle {s : State W Q A ε α C} {i : Nat} (hs : Alone i s) {c : C} {past : List Q}
    {r : Suspended W Q A ε α × W} : Alone i (s.settle i c past r) := by
  intro j t hj ht
  rcases State.of_settle ht with ⟨hji, _⟩ | ⟨_, hold⟩
  · exact absurd hji hj
  · exact hs j t hj hold

/-- A call that runs alone keeps its total correctness. -/
theorem Run.ends {post : Except ε α → W → Prop}
    (hpost : ∀ r w w', sys.Idle w w' → post r w → post r w') {s s' : State W Q A ε α C}
    {bs : List (Act C K E)} (hrun : sys.Run (Resolves allowed) s bs s') {i : Nat}
    {t : Task W Q A ε α C} (hi : s.tasks i = some t)
    (ht : t.rest.Ends sys.answer sys.Idle allowed post s.world) (hs : Alone i s) :
    ∃ t', s'.tasks i = some t' ∧ t'.call = t.call ∧
      t'.rest.Ends sys.answer sys.Idle allowed post s'.world ∧ Alone i s' := by
  induction hrun generalizing t with
  | nil s => exact ⟨t, hi, rfl, ht, hs⟩
  | @cons s s₁ s' a bs hok hstep _ ih =>
      cases a with
      | start j c => exact hok.elim
      | resume j k =>
          obtain ⟨c, past, q, f, hj, r, hr, rfl⟩ := step_resume hstep
          by_cases hij : j = i
          · subst hij
            rw [hi] at hj
            cases hj
            have hgo := (ht s.world .refl).2 k r hok hr
            have hi' : (s.settle j c (q :: past) ((f r.1).advance r.2)).tasks j =
                some { call := c, past := q :: past, rest := ((f r.1).advance r.2).1 } :=
              Function.update_self ..
            have hend := ih hi' hgo.advance hs.settle
            exact hend
          · obtain ⟨r', hr'⟩ := hs j _ hij hj
            cases hr'
      | env e =>
          obtain ⟨w, hw, rfl⟩ := step_env hstep
          have hidle : sys.Idle s.world w := .single ⟨e, hw⟩
          refine ih hi ?_ hs
          cases hrest : t.rest with
          | done r =>
              rw [hrest] at ht
              exact hpost r _ _ hidle ht
          | waits q k =>
              rw [hrest] at ht
              exact fun w₀ hw₀ => ht w₀ (hidle.trans hw₀)

theorem quiet_iff {s : State W Q A ε α C} :
    s.config.Quiet ↔ ∀ i t, s.tasks i = some t → ∃ r, t.rest = .done r := by
  constructor
  · intro h i t hi
    obtain ⟨r, hr⟩ := h i t.thread (by simp [State.config, hi])
    cases hrest : t.rest with
    | done r => exact ⟨r, rfl⟩
    | waits q k => simp [Task.thread, hrest, Suspended.status] at hr
  · intro h i th hi
    obtain ⟨t, ht, rfl⟩ := Option.map_eq_some_iff.mp hi
    obtain ⟨r, hr⟩ := h i t ht
    exact ⟨r, by simp [Task.thread, hr, Suspended.status]⟩

/-- A call that completes ends as its total correctness says. -/
theorem Completes.ends {post : Except ε α → W → Prop}
    (hpost : ∀ r w w', sys.Idle w w' → post r w → post r w') {s s' : State W Q A ε α C} {i : Nat}
    {c : C} {r : Except ε α} (h : sys.Completes allowed s i c r s') (hquiet : s.config.Quiet)
    (hbody : ∀ w, sys.accept c s.world = some w →
      (sys.body c).Ends sys.answer sys.Idle allowed post w) :
    post r s'.world ∧ s'.config.Quiet := by
  obtain ⟨s₁, bs, past, hstart, hrun, hdone⟩ := h
  obtain ⟨hi, w, hw, rfl⟩ := step_start hstart
  have halone : Alone i s := fun j t _ hj => quiet_iff.mp hquiet j t hj
  have hi' : (s.settle i c [] ((sys.body c).advance w)).tasks i =
      some { call := c, past := [], rest := ((sys.body c).advance w).1 } := Function.update_self ..
  obtain ⟨t, ht, _, hends, halone'⟩ := hrun.ends hpost hi' (hbody w hw).advance halone.settle
  have hthread : t.thread = { call := c, past, status := .done r } := by
    simpa [State.config, ht] using hdone
  obtain ⟨call, past', rest⟩ := t
  cases rest with
  | waits q k => simp [Task.thread, Suspended.status] at hthread
  | done r' =>
      simp only [Task.thread, Suspended.status, Thread.mk.injEq, Status.done.injEq] at hthread
      obtain ⟨rfl, rfl, rfl⟩ := hthread
      refine ⟨hends, quiet_iff.mpr fun j t hj => ?_⟩
      by_cases hij : j = i
      · subst hij
        rw [ht] at hj
        cases hj
        exact ⟨r', rfl⟩
      · exact halone' j t hij hj

theorem Completes.mono {allowed allowed' : K → Prop} (hallowed : ∀ k, allowed k → allowed' k)
    {s s' : State W Q A ε α C} {i : Nat} {c : C} {r : Except ε α}
    (h : sys.Completes allowed s i c r s') : sys.Completes allowed' s i c r s' := by
  obtain ⟨s₁, bs, past, hstart, hrun, hdone⟩ := h
  refine ⟨s₁, bs, past, hstart, hrun.mono fun g a ha => ?_, hdone⟩
  cases a with
  | start j c => exact ha
  | resume j k => exact hallowed k ha
  | env e => trivial

/-- What holds at first, is kept by the environment, and is what each call ends
with when it runs alone from it, holds of every sequence of calls. -/
theorem Sequence.invariant {w₀ : W} (I : List (C × Except ε α) → W → Prop) (hnil : I [] w₀)
    (hidle : ∀ log w w', sys.Idle w w' → I log w → I log w')
    (hcall : ∀ log c w w', I log w → sys.accept c w = some w' →
      (sys.body c).Ends sys.answer sys.Idle allowed (fun r => I (log ++ [(c, r)])) w')
    {log : List (C × Except ε α)} {s : State W Q A ε α C} (h : sys.Sequence allowed w₀ log s) :
    I log s.world ∧ s.config.Quiet := by
  induction h with
  | nil => exact ⟨hnil, fun i t hi => by cases hi⟩
  | env _ hstep ih =>
      obtain ⟨w, hw, rfl⟩ := step_env hstep
      exact ⟨hidle _ _ _ (.single ⟨_, hw⟩) ih.1, ih.2⟩
  | @call log s s' i c r _ hdone ih =>
      let post : Except ε α → W → Prop := fun r => I (log ++ [(c, r)])
      have hbody : ∀ w, sys.accept c s.world = some w →
          (sys.body c).Ends sys.answer sys.Idle allowed post w :=
        fun w hw => hcall log c s.world w ih.1 hw
      have hpost : ∀ r w w', sys.Idle w w' → post r w → post r w' := fun r => hidle _
      exact hdone.ends hpost ih.2 hbody

/-! ## Existence -/

theorem exists_run_idle {s : State W Q A ε α C} {w : W} (h : sys.Idle s.world w) :
    ∃ bs, sys.Run (Resolves allowed) s bs { s with world := w } := by
  induction h with
  | refl => exact ⟨[], .nil s⟩
  | tail _ hstep ih =>
      obtain ⟨bs, hrun⟩ := ih
      obtain ⟨e, he⟩ := hstep
      refine ⟨_, hrun.snoc (a := .env e) trivial ?_⟩
      simp [step, he]

/-- What ends when it runs alone can be run to its end. -/
theorem exists_run_done {post : Except ε α → W → Prop} {p : Prog W Q A ε α} {w : W}
    (h : p.Ends sys.answer sys.Idle allowed post w) (s : State W Q A ε α C) (i : Nat) (c : C)
    (past : List Q) :
    ∃ bs s' past' r, sys.Run (Resolves allowed) (s.settle i c past (p.advance w)) bs s' ∧
      s'.config.threads i = some { call := c, past := past', status := .done r } := by
  induction p generalizing s w past with
  | ret a => exact ⟨[], _, past, .ok a, .nil _, by simp [State.settle_config, Prog.advance,
      Suspended.status]⟩
  | throw e => exact ⟨[], _, past, .error e, .nil _, by simp [State.settle_config, Prog.advance,
      Suspended.status]⟩
  | sync f k ih => exact ih w h s past
  | await q k ih =>
      obtain ⟨⟨w₁, c', x, hidle, hc', hx⟩, _⟩ := h w .refl
      have hnext := (h w₁ hidle).2 c' x hc' hx
      let s₁ := s.settle i c past ((Prog.await q k).advance w)
      obtain ⟨bs, hwait⟩ : ∃ bs, sys.Run (Resolves allowed) s₁ bs { s₁ with world := w₁ } :=
        exists_run_idle hidle
      have hstep : sys.step { s₁ with world := w₁ } (.resume i c') =
          some (State.settle { s₁ with world := w₁ } i c (q :: past) ((k x.1).advance x.2)) := by
        simp [s₁, step, State.settle, Prog.advance, hx]
      obtain ⟨bs', s', past', r, hrun, hdone⟩ := ih x.1 hnext { s₁ with world := w₁ } (q :: past)
      exact ⟨_, s', past', r, hwait.append (.cons (by exact hc') hstep hrun), hdone⟩

/-- A call that ends when it runs alone can be started and completed. -/
theorem exists_completes {post : Except ε α → W → Prop} {s : State W Q A ε α C} {i : Nat} {c : C}
    (hi : s.tasks i = none) {w : W} (hw : sys.accept c s.world = some w)
    (hbody : (sys.body c).Ends sys.answer sys.Idle allowed post w) :
    ∃ r s', sys.Completes allowed s i c r s' := by
  obtain ⟨bs, s', past, r, hrun, hdone⟩ := exists_run_done hbody s i c []
  exact ⟨r, s', _, bs, past, by simp [step, hi, hw], hrun, hdone⟩

theorem Run.start_notMem {s s' : State W Q A ε α C} {bs : List (Act C K E)}
    (h : sys.Run (Resolves allowed) s bs s') (i : Nat) (c : C) : .start i c ∉ bs := by
  induction h with
  | nil => exact List.not_mem_nil
  | cons hok _ _ ih =>
      intro hmem
      rcases List.mem_cons.mp hmem with rfl | hmem
      · exact hok
      · exact ih hmem

/-- A call that completes starts no other. -/
theorem Completes.tasks_eq_none {s s' : State W Q A ε α C} {i j : Nat} {c : C} {r : Except ε α}
    (h : sys.Completes allowed s i c r s') (hj : s.tasks j = none) (hij : j ≠ i) :
    s'.tasks j = none := by
  obtain ⟨s₁, bs, past, hstart, hrun, _⟩ := h
  have hnone : s₁.tasks j = none := by
    obtain ⟨_, w, _, rfl⟩ := step_start hstart
    exact (Function.update_of_ne hij ..).trans hj
  by_contra hsome
  obtain ⟨t, ht⟩ := Option.ne_none_iff_exists'.mp hsome
  rcases hrun.started ht with ⟨t₀, ht₀, _⟩ | hmem
  · cases hnone.symm.trans ht₀
  · exact hrun.start_notMem j t.call hmem

/-- Calls that keep an invariant when they run alone can be run one after the
other. -/
theorem exists_sequence {w₀ : W} (I : List (C × Except ε α) → W → Prop) (hnil : I [] w₀)
    (hidle : ∀ log w w', sys.Idle w w' → I log w → I log w')
    (haccept : ∀ c w, sys.accept c w = some w)
    (hcall : ∀ log c w, I log w →
      (sys.body c).Ends sys.answer sys.Idle allowed (fun r => I (log ++ [(c, r)])) w)
    (cs : List C) :
    ∃ log s, sys.Sequence allowed w₀ log s ∧ log.map Prod.fst = cs := by
  suffices h : ∃ log s, sys.Sequence allowed w₀ log s ∧ log.map Prod.fst = cs ∧
      ∀ i ≥ cs.length, s.tasks i = none by
    obtain ⟨log, s, hseq, hlog, _⟩ := h
    exact ⟨log, s, hseq, hlog⟩
  induction cs using List.reverseRecOn with
  | nil => exact ⟨[], _, .nil, rfl, fun i _ => rfl⟩
  | append_singleton cs c ih =>
      obtain ⟨log, s, hseq, hlog, hfree⟩ := ih
      have hinv := (hseq.invariant I hnil hidle fun log c w w' hI hw => by
        rw [haccept, Option.some.injEq] at hw
        exact hw ▸ hcall log c w hI).1
      obtain ⟨r, s', hdone⟩ :=
        exists_completes (hfree _ (Nat.le_refl _)) (haccept c s.world) (hcall log c _ hinv)
      refine ⟨_, s', .call hseq hdone, by rw [List.map_append, hlog]; rfl, fun i hi => ?_⟩
      rw [List.length_append, List.length_singleton] at hi
      exact hdone.tasks_eq_none (hfree i (by omega)) (by omega)

end System

end Async
