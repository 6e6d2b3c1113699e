/-
Pools that simulate one another.

Both pools run the same calls.  What is suspended in one is related to what is suspended in
the other, and so are the two worlds.  Where each step of a call keeps these relations,
whatever else has happened between it and the step before, every run of the one pool is a
run of the other.
-/
import RpiNestApi.Async.Pool

namespace Async

variable {W Q : Type} {A : Q → Type} {ε α C K E : Type}
variable {W' Q' : Type} {A' : Q' → Type} {ε' α' : Type}

/-- The calls with `allowed` are simulated, along `V` on worlds and `R` on what is
suspended. -/
structure Simulates (sys : System W Q A ε α C K E) (sys' : System W' Q' A' ε' α' C K E)
    (allowed : C → Prop) (V : W → W' → Prop)
    (R : C → Suspended W Q A ε α → Suspended W' Q' A' ε' α' → Prop) : Prop where
  start : ∀ c w w₁ w', allowed c → V w w' → sys.accept c w = some w₁ →
    ∃ w₁', sys'.accept c w' = some w₁' ∧
      V ((sys.body c).advance w₁).2 ((sys'.body c).advance w₁').2 ∧
        R c ((sys.body c).advance w₁).1 ((sys'.body c).advance w₁').1
  resume : ∀ c q f p k w w' r, R c (.waits q f) p → V w w' → sys.answer q k w = some r →
    ∃ q' f' r', p = .waits q' f' ∧ sys'.answer q' k w' = some r' ∧
      V ((f r.1).advance r.2).2 ((f' r'.1).advance r'.2).2 ∧
        R c ((f r.1).advance r.2).1 ((f' r'.1).advance r'.2).1
  env : ∀ e w w₁ w', V w w' → sys.env e w = some w₁ → ∃ w₁', sys'.env e w' = some w₁' ∧ V w₁ w₁'

/-- Two calls that are in progress are the same, and at related places. -/
inductive TaskRelated (R : C → Suspended W Q A ε α → Suspended W' Q' A' ε' α' → Prop) :
    Option (Task W Q A ε α C) → Option (Task W' Q' A' ε' α' C) → Prop
  | none : TaskRelated R none none
  | some {c : C} {past : List Q} {past' : List Q'} {p : Suspended W Q A ε α}
      {p' : Suspended W' Q' A' ε' α'} (h : R c p p') :
      TaskRelated R (some { call := c, past, rest := p })
        (some { call := c, past := past', rest := p' })

structure Related (V : W → W' → Prop)
    (R : C → Suspended W Q A ε α → Suspended W' Q' A' ε' α' → Prop)
    (s : State W Q A ε α C) (s' : State W' Q' A' ε' α' C) : Prop where
  world : V s.world s'.world
  tasks : ∀ i, TaskRelated R (s.tasks i) (s'.tasks i)

variable {sys : System W Q A ε α C K E} {sys' : System W' Q' A' ε' α' C K E}
variable {allowed : C → Prop} {V : W → W' → Prop}
variable {R : C → Suspended W Q A ε α → Suspended W' Q' A' ε' α' → Prop}
variable {ok : Config W Q ε α C → Act C K E → Prop}
variable {s t : State W Q A ε α C} {s' : State W' Q' A' ε' α' C}

theorem Related.init {w : W} {w' : W'} (h : V w w') :
    Related V R (.init w : State W Q A ε α C) (.init w' : State W' Q' A' ε' α' C) where
  world := h
  tasks _ := .none

theorem Related.settle (hs : Related V R s s') {i : Nat} {c : C} {past : List Q}
    {past' : List Q'} {r : Suspended W Q A ε α × W} {r' : Suspended W' Q' A' ε' α' × W'}
    (hworld : V r.2 r'.2) (hrest : R c r.1 r'.1) :
    Related V R (s.settle i c past r) (s'.settle i c past' r') where
  world := hworld
  tasks j := by
    by_cases hj : j = i
    · subst hj
      simp only [State.settle, Function.update_self]
      exact .some hrest
    · simp only [State.settle, Function.update_of_ne hj]
      exact hs.tasks j

/-- One step. -/
theorem Simulates.step (h : Simulates sys sys' allowed V R) {a : Act C K E}
    (ha : ∀ i c, a = .start i c → allowed c) (hs : Related V R s s')
    (hstep : sys.step s a = some t) : ∃ t', sys'.step s' a = some t' ∧ Related V R t t' := by
  cases a with
  | start i c =>
      obtain ⟨hi, w, hw, rfl⟩ := System.step_start hstep
      obtain ⟨w', hw', hworld, hrest⟩ := h.start c _ _ _ (ha i c rfl) hs.world hw
      have hi' : s'.tasks i = none := by
        have hrelated := hs.tasks i
        rw [hi] at hrelated
        generalize s'.tasks i = o at hrelated
        cases hrelated
        rfl
      refine ⟨s'.settle i c [] ((sys'.body c).advance w'), ?_, hs.settle hworld hrest⟩
      simp only [System.step, hi', hw', Option.map_some]
  | resume i k =>
      obtain ⟨c, past, q, f, hi, r, hr, rfl⟩ := System.step_resume hstep
      obtain ⟨past', p', hi', hrelated⟩ : ∃ past' p',
          s'.tasks i = some { call := c, past := past', rest := p' } ∧ R c (.waits q f) p' := by
        have hrelated := hs.tasks i
        rw [hi] at hrelated
        generalize s'.tasks i = o at hrelated
        cases hrelated with
        | some hrelated => exact ⟨_, _, rfl, hrelated⟩
      obtain ⟨q', f', r', rfl, hr', hworld, hrest⟩ :=
        h.resume c q f p' k _ _ r hrelated hs.world hr
      refine ⟨s'.settle i c (q' :: past') ((f' r'.1).advance r'.2), ?_, hs.settle hworld hrest⟩
      simp only [System.step, hi', hr', Option.map_some]
  | env e =>
      obtain ⟨w, hw, rfl⟩ := System.step_env hstep
      obtain ⟨w', hw', hworld⟩ := h.env e _ _ _ hs.world hw
      refine ⟨{ s' with world := w' }, ?_, hworld, hs.tasks⟩
      simp only [System.step, hw', Option.map_some]

/-- Every run is one of the other pool, step by step. -/
theorem Simulates.run (h : Simulates sys sys' allowed V R)
    (hok : ∀ g i c, ok g (.start i c) → allowed c) {as : List (Act C K E)}
    (hrun : sys.Run ok s as t) (hs : Related V R s s') :
    ∃ t', sys'.Run always s' as t' ∧ Related V R t t' := by
  induction hrun generalizing s' with
  | nil => exact ⟨s', .nil s', hs⟩
  | @cons s u t a as ha hstep _ ih =>
      obtain ⟨u', hstep', hu⟩ := h.step (fun i c he => hok _ i c (he ▸ ha)) hs hstep
      obtain ⟨t', hrun', ht⟩ := ih hu
      exact ⟨t', .cons trivial hstep' hrun', ht⟩

end Async
