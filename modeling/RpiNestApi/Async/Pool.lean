/-
A pool of programs over one world.

Any number of calls are in progress at once.  A step starts a call, resumes one
suspended call whose promise has an answer, or is a move of the environment.
Each step runs one program from an await to its next, so every placement of the
awaits of one call between those of another is a run of the pool.
-/
import RpiNestApi.Async.Prog

namespace Async

variable {W Q : Type} {A : Q → Type} {ε α C K E : Type}

/-- One call in the pool.  `past` lists the promises it has awaited, latest
first. -/
structure Task (W Q : Type) (A : Q → Type) (ε α C : Type) where
  call : C
  past : List Q
  rest : Suspended W Q A ε α

/-- A task without its continuation. -/
structure Thread (Q ε α C : Type) where
  call : C
  past : List Q
  status : Status Q ε α

def Task.thread (t : Task W Q A ε α C) : Thread Q ε α C :=
  { call := t.call, past := t.past, status := t.rest.status }

/-- `q` is a promise the thread has awaited or awaits now. -/
def Thread.Awaited (t : Thread Q ε α C) (q : Q) : Prop := t.status = .waits q ∨ q ∈ t.past

structure State (W Q : Type) (A : Q → Type) (ε α C : Type) where
  world : W
  tasks : Nat → Option (Task W Q A ε α C)

/-- A state without the continuations. -/
structure Config (W Q ε α C : Type) where
  world : W
  threads : Nat → Option (Thread Q ε α C)

/-- No call is in progress. -/
def Config.Quiet (g : Config W Q ε α C) : Prop :=
  ∀ i t, g.threads i = some t → ∃ r, t.status = .done r

namespace State

def init (w : W) : State W Q A ε α C := { world := w, tasks := fun _ => none }

def config (s : State W Q A ε α C) : Config W Q ε α C :=
  { world := s.world, threads := fun i => (s.tasks i).map Task.thread }

/-- Store what became of the call `i` after it ran. -/
def settle (s : State W Q A ε α C) (i : Nat) (c : C) (past : List Q)
    (r : Suspended W Q A ε α × W) : State W Q A ε α C :=
  { world := r.2, tasks := Function.update s.tasks i (some { call := c, past, rest := r.1 }) }

end State

inductive Act (C K E : Type) where
  | start (i : Nat) (c : C)
  | resume (i : Nat) (k : K)
  | env (e : E)

/-- The thread a step starts. -/
def Act.started : Act C K E → Option Nat
  | .start i _ => some i
  | _ => none

/-- What the pool runs: the program of each call, when a call is accepted, how a
promise answers under a choice `K` of its environment, and the environment's own
moves. -/
structure System (W Q : Type) (A : Q → Type) (ε α C K E : Type) where
  body : C → Prog W Q A ε α
  accept : C → W → Option W
  answer : (q : Q) → K → W → Option (Except ε (A q) × W)
  env : E → W → Option W

namespace System

variable (sys : System W Q A ε α C K E)

def step (s : State W Q A ε α C) : Act C K E → Option (State W Q A ε α C)
  | .start i c =>
    match s.tasks i with
    | some _ => none
    | none => (sys.accept c s.world).map fun w => s.settle i c [] ((sys.body c).advance w)
  | .resume i k =>
    match s.tasks i with
    | some { call := c, past, rest := .waits q f } =>
      (sys.answer q k s.world).map fun r => s.settle i c (q :: past) ((f r.1).advance r.2)
    | _ => none
  | .env e => (sys.env e s.world).map fun w => { s with world := w }

def exec (s : State W Q A ε α C) : List (Act C K E) → Option (State W Q A ε α C)
  | [] => some s
  | a :: as => (sys.step s a).bind fun t => exec t as

/-- The runs whose every step satisfies `ok` in the state it is taken in. -/
inductive Run (ok : Config W Q ε α C → Act C K E → Prop) :
    State W Q A ε α C → List (Act C K E) → State W Q A ε α C → Prop
  | nil (s : State W Q A ε α C) : Run ok s [] s
  | cons {s t u : State W Q A ε α C} {a : Act C K E} {as : List (Act C K E)}
      (hok : ok s.config a) (hstep : sys.step s a = some t) (hrun : Run ok t as u) :
      Run ok s (a :: as) u

end System

/-- No condition on the steps of a run. -/
def always (_ : Config W Q ε α C) (_ : Act C K E) : Prop := True

namespace System

variable {sys : System W Q A ε α C K E}
variable {ok ok' : Config W Q ε α C → Act C K E → Prop}

/-- The state the steps `as` lead to, where a step that is not possible is left
out. -/
def outcome (sys : System W Q A ε α C K E) (s : State W Q A ε α C) (as : List (Act C K E)) :
    State W Q A ε α C :=
  as.foldl (fun s a => (sys.step s a).getD s) s

/-- Steps that are all possible are a run if each satisfies `ok`. -/
theorem run_outcome_of {as : List (Act C K E)} {s : State W Q A ε α C}
    (h : (sys.exec s as).isSome = true)
    (hok : ∀ (n : Nat) (hn : n < as.length), ok (sys.outcome s (as.take n)).config as[n]) :
    sys.Run ok s as (sys.outcome s as) := by
  induction as generalizing s with
  | nil => exact .nil s
  | cons a as ih =>
      obtain ⟨t, ht⟩ := Option.isSome_iff_exists.mp h
      obtain ⟨u, hu, ht⟩ := Option.bind_eq_some_iff.mp ht
      have hout : ∀ bs, sys.outcome s (a :: bs) = sys.outcome u bs := by
        intro bs
        simp only [outcome, List.foldl_cons, hu, Option.getD_some]
      rw [hout]
      refine .cons (hok 0 (Nat.succ_pos _)) hu (ih (ht ▸ rfl) fun n hn => ?_)
      have hn' := hok (n + 1) (Nat.succ_lt_succ hn)
      rwa [List.take_succ_cons, hout] at hn'

theorem run_outcome {as : List (Act C K E)} {s : State W Q A ε α C}
    (h : (sys.exec s as).isSome = true) : sys.Run always s as (sys.outcome s as) :=
  run_outcome_of h fun _ _ => trivial

theorem Run.eq_outcome {as : List (Act C K E)} {s t : State W Q A ε α C}
    (h : sys.Run ok s as t) : t = sys.outcome s as := by
  induction h with
  | nil => rfl
  | cons _ hstep _ ih =>
      rw [ih, outcome, outcome, List.foldl_cons, hstep]
      rfl

theorem Run.mono {s t : State W Q A ε α C} {as : List (Act C K E)}
    (h : sys.Run ok s as t) (hok : ∀ g a, ok g a → ok' g a) : sys.Run ok' s as t := by
  induction h with
  | nil => exact .nil _
  | cons ha hstep _ ih => exact .cons (hok _ _ ha) hstep ih

theorem Run.append {s t u : State W Q A ε α C} {as bs : List (Act C K E)}
    (h : sys.Run ok s as t) (h' : sys.Run ok t bs u) : sys.Run ok s (as ++ bs) u := by
  induction h with
  | nil => exact h'
  | cons ha hstep _ ih => exact .cons ha hstep (ih h')

theorem Run.snoc {s t u : State W Q A ε α C} {as : List (Act C K E)} {a : Act C K E}
    (h : sys.Run ok s as t) (ha : ok t.config a) (hstep : sys.step t a = some u) :
    sys.Run ok s (as ++ [a]) u :=
  h.append (.cons ha hstep (.nil u))

theorem Run.split {s u : State W Q A ε α C} {as bs : List (Act C K E)}
    (h : sys.Run ok s (as ++ bs) u) : ∃ t, sys.Run ok s as t ∧ sys.Run ok t bs u := by
  induction as generalizing s with
  | nil => exact ⟨s, .nil s, h⟩
  | cons a as ih =>
      cases h with
      | cons ha hstep hrun =>
          obtain ⟨t, h₁, h₂⟩ := ih hrun
          exact ⟨t, .cons ha hstep h₁, h₂⟩

/-- A run is split where one of its beginnings ends, whatever that one keeps to. -/
theorem Run.split_at {s t u : State W Q A ε α C} {as bs : List (Act C K E)}
    (h : sys.Run ok s (as ++ bs) u) (h' : sys.Run ok' s as t) :
    sys.Run ok s as t ∧ sys.Run ok t bs u := by
  obtain ⟨t', has, hbs⟩ := h.split
  obtain rfl : t' = t := has.eq_outcome.trans h'.eq_outcome.symm
  exact ⟨has, hbs⟩

/-- A run each of whose steps turns out to satisfy `ok'`. -/
theorem Run.strengthen {s u : State W Q A ε α C} {as : List (Act C K E)} (h : sys.Run ok s as u)
    (hok : ∀ before a after s₁ s₂, as = before ++ a :: after → sys.Run ok s before s₁ →
      sys.step s₁ a = some s₂ → ok' s₁.config a) : sys.Run ok' s as u := by
  induction h with
  | nil => exact .nil _
  | @cons s t u a as ha hstep _ ih =>
      refine .cons (hok [] a as s t rfl (.nil s) hstep) hstep (ih ?_)
      rintro before b after s₁ s₂ rfl hbefore
      exact hok (a :: before) b after s₁ s₂ rfl (.cons ha hstep hbefore)

/-! ## Threads -/

theorem step_start {s t : State W Q A ε α C} {i : Nat} {c : C}
    (h : sys.step s (.start i c) = some t) :
    s.tasks i = none ∧ ∃ w, sys.accept c s.world = some w ∧
      t = s.settle i c [] ((sys.body c).advance w) := by
  simp only [step] at h
  split at h
  · cases h
  · rename_i hi
    obtain ⟨w, hw, rfl⟩ := Option.map_eq_some_iff.mp h
    exact ⟨hi, w, hw, rfl⟩

theorem step_resume {s t : State W Q A ε α C} {i : Nat} {k : K}
    (h : sys.step s (.resume i k) = some t) :
    ∃ c past q f, s.tasks i = some { call := c, past, rest := .waits q f } ∧
      ∃ r, sys.answer q k s.world = some r ∧
        t = s.settle i c (q :: past) ((f r.1).advance r.2) := by
  simp only [step] at h
  split at h
  · rename_i c past q f hi
    obtain ⟨r, hr, rfl⟩ := Option.map_eq_some_iff.mp h
    exact ⟨c, past, q, f, hi, r, hr, rfl⟩
  · cases h

theorem step_env {s t : State W Q A ε α C} {e : E}
    (h : sys.step s (.env e) = some t) :
    ∃ w, sys.env e s.world = some w ∧ t = { s with world := w } := by
  obtain ⟨w, hw, rfl⟩ := Option.map_eq_some_iff.mp h
  exact ⟨w, hw, rfl⟩

end System

theorem State.of_settle {s : State W Q A ε α C} {i j : Nat} {c : C} {past : List Q}
    {r : Suspended W Q A ε α × W} {t : Task W Q A ε α C}
    (h : (s.settle i c past r).tasks j = some t) :
    j = i ∧ t = { call := c, past, rest := r.1 } ∨ j ≠ i ∧ s.tasks j = some t := by
  by_cases hj : j = i
  · subst hj
    simp only [State.settle, Function.update_self, Option.some.injEq] at h
    exact .inl ⟨rfl, h.symm⟩
  · simp only [State.settle, Function.update_of_ne hj] at h
    exact .inr ⟨hj, h⟩

/-- What holds of all tasks, and of the one that is put in. -/
theorem State.forall_settle {s : State W Q A ε α C} {P : Task W Q A ε α C → Prop}
    (hs : ∀ j t, s.tasks j = some t → P t) {i : Nat} {c : C} {past : List Q}
    {r : Suspended W Q A ε α × W} (hr : P { call := c, past, rest := r.1 }) :
    ∀ j t, (s.settle i c past r).tasks j = some t → P t := by
  intro j t h
  rcases State.of_settle h with ⟨_, rfl⟩ | ⟨_, hold⟩
  · exact hr
  · exact hs j t hold

theorem System.step_call {sys : System W Q A ε α C K E} {s s' : State W Q A ε α C}
    {a : Act C K E} (h : sys.step s a = some s') {i : Nat} {t : Task W Q A ε α C}
    (hi : s'.tasks i = some t) :
    (∃ t₀, s.tasks i = some t₀ ∧ t₀.call = t.call) ∨ a = .start i t.call := by
  cases a with
  | start j c =>
      obtain ⟨_, w, _, rfl⟩ := step_start h
      rcases State.of_settle hi with ⟨rfl, rfl⟩ | ⟨_, hold⟩
      · exact .inr rfl
      · exact .inl ⟨t, hold, rfl⟩
  | resume j k =>
      obtain ⟨c, past, q, f, hj, r, _, rfl⟩ := step_resume h
      rcases State.of_settle hi with ⟨rfl, rfl⟩ | ⟨_, hold⟩
      · exact .inl ⟨_, hj, rfl⟩
      · exact .inl ⟨t, hold, rfl⟩
  | env e =>
      obtain ⟨w, _, rfl⟩ := step_env h
      exact .inl ⟨t, hi, rfl⟩

/-- Every thread of a run was there before, or was started by it. -/
theorem System.Run.started {sys : System W Q A ε α C K E}
    {ok : Config W Q ε α C → Act C K E → Prop} {s s' : State W Q A ε α C}
    {as : List (Act C K E)} (h : sys.Run ok s as s') {i : Nat} {t : Task W Q A ε α C}
    (hi : s'.tasks i = some t) :
    (∃ t₀, s.tasks i = some t₀ ∧ t₀.call = t.call) ∨ .start i t.call ∈ as := by
  induction h with
  | nil => exact .inl ⟨t, hi, rfl⟩
  | cons _ hstep _ ih =>
      rcases ih hi with ⟨t₁, hi₁, hcall₁⟩ | hmem
      · rcases System.step_call hstep hi₁ with ⟨t₀, hi₀, hcall₀⟩ | rfl
        · exact .inl ⟨t₀, hi₀, hcall₀.trans hcall₁⟩
        · exact .inr (hcall₁ ▸ List.mem_cons_self)
      · exact .inr (List.mem_cons_of_mem _ hmem)

theorem System.Run.started_init {sys : System W Q A ε α C K E}
    {ok : Config W Q ε α C → Act C K E → Prop} {w : W} {s : State W Q A ε α C}
    {as : List (Act C K E)} (h : sys.Run ok (.init w) as s) {i : Nat} {t : Thread Q ε α C}
    (hi : s.config.threads i = some t) : .start i t.call ∈ as := by
  obtain ⟨t', hi', rfl⟩ := Option.map_eq_some_iff.mp hi
  rcases h.started hi' with ⟨t₀, hi₀, _⟩ | hmem
  · cases hi₀
  · exact hmem

/-- A property of the threads a run starts holds of all its threads. -/
theorem System.Run.forall_threads {sys : System W Q A ε α C K E}
    {ok : Config W Q ε α C → Act C K E → Prop} {w : W} {s : State W Q A ε α C}
    {as : List (Act C K E)} (h : sys.Run ok (.init w) as s) {P : Nat → Thread Q ε α C → Prop}
    (hP : ∀ i ∈ as.filterMap Act.started, ∀ t, s.config.threads i = some t → P i t)
    (i : Nat) (t : Thread Q ε α C) (hi : s.config.threads i = some t) : P i t :=
  hP i (List.mem_filterMap.mpr ⟨_, h.started_init hi, rfl⟩) t hi

@[simp] theorem State.config_world (s : State W Q A ε α C) : s.config.world = s.world := rfl

theorem State.settle_config (s : State W Q A ε α C) (i : Nat) (c : C) (past : List Q)
    (r : Suspended W Q A ε α × W) :
    (s.settle i c past r).config =
      { world := r.2,
        threads := Function.update s.config.threads i
          (some { call := c, past, status := r.1.status }) } := by
  simp only [State.config, State.settle, Config.mk.injEq, true_and]
  funext j
  by_cases hj : j = i
  · subst hj
    simp [Task.thread]
  · simp [Function.update_of_ne hj]

end Async
