/-
Calls that keep apart.

A call concerns some keys of the world, and none starts that concerns a key of a call in
progress.  Then a call relies on what is under its keys, though others go on while it waits.
If it does, alone with its keys, what it is to do to an abstract state, a run of the pool is a
run of the abstract state that takes the calls one by one, in the order of their answers.
-/
import RpiNestApi.Async.Alone
import RpiNestApi.Async.History

namespace Async

variable {W Q : Type} {A : Q → Type} {ε α C K E κ τ : Type} {V : κ → Type}

theorem Suspended.Ends.mono {answer : (q : Q) → K → W → Option (Except ε (A q) × W)}
    {idle : W → W → Prop} {allowed : K → Prop} {post post' : Except ε α → W → Prop}
    {p : Suspended W Q A ε α} {w : W} (h : p.Ends answer idle allowed post w)
    (hpost : ∀ r w, post r w → post' r w) : p.Ends answer idle allowed post' w := by
  cases p with
  | done r => exact hpost r w h
  | waits q f => exact Prog.Ends.mono h hpost

/-! ## Answers -/

/-- The call has not ended. -/
def Task.Busy (t : Task W Q A ε α C) : Prop := ∃ q, t.thread.status = .waits q

def Act.thread : Act C K E → Option Nat
  | .start i _ => some i
  | .resume i _ => some i
  | .env _ => none

/-- The call that the thread `i` has ended, and how. -/
def Config.answer (g : Config W Q ε α C) (i : Nat) : Option (Nat × C × Except ε α) :=
  match g.threads i with
  | some { call, past := _, status := .done r } => some (i, call, r)
  | _ => none

/-- The call that a step has answered, which leads to `g`. -/
def Config.answered (g : Config W Q ε α C) (a : Act C K E) : Option (Nat × C × Except ε α) :=
  a.thread.bind g.answer

/-- The calls that the steps `as` answer, in the order of their answers. -/
def System.answers (sys : System W Q A ε α C K E) :
    State W Q A ε α C → List (Act C K E) → List (Nat × C × Except ε α)
  | _, [] => []
  | s, a :: as =>
    match sys.step s a with
    | none => []
    | some t => (t.config.answered a).toList ++ sys.answers t as

theorem Config.answer_eq_some {g : Config W Q ε α C} {i : Nat} {x : Nat × C × Except ε α} :
    g.answer i = some x ↔
      ∃ c past r, g.threads i = some { call := c, past, status := .done r } ∧ x = (i, c, r) := by
  rw [Config.answer]
  split
  · rename_i c past r hi
    constructor
    · intro h
      exact ⟨c, past, r, hi, (Option.some.inj h).symm⟩
    · rintro ⟨c', past', r', hi', rfl⟩
      cases hi.symm.trans hi'
      rfl
  · rename_i hnot
    refine iff_of_false nofun ?_
    rintro ⟨c, past, r, hi, _⟩
    exact hnot c past r hi

section Answers

variable {sys : System W Q A ε α C K E} {ok : Config W Q ε α C → Act C K E → Prop}
variable {s t : State W Q A ε α C} {a : Act C K E} {as : List (Act C K E)}

theorem State.config_settle_of_ne {i j : Nat} (h : j ≠ i) (c : C) (past : List Q)
    (r : Suspended W Q A ε α × W) :
    (s.settle i c past r).config.threads j = s.config.threads j := by
  rw [State.settle_config]
  exact Function.update_of_ne h _ _

/-- Only the thread that runs is answered. -/
theorem System.step_answer_of_ne (h : sys.step s a = some t) {i : Nat} (hi : a.thread ≠ some i) :
    t.config.answer i = s.config.answer i := by
  have hthreads : t.config.threads i = s.config.threads i := by
    cases a with
    | start j c =>
        obtain ⟨_, w, _, rfl⟩ := step_start h
        exact State.config_settle_of_ne (fun he => hi (congrArg some he.symm)) ..
    | resume j k =>
        obtain ⟨c, past, q, f, _, r, _, rfl⟩ := step_resume h
        exact State.config_settle_of_ne (fun he => hi (congrArg some he.symm)) ..
    | env e =>
        obtain ⟨w, _, rfl⟩ := step_env h
        rfl
  rw [Config.answer, hthreads, Config.answer]

/-- A thread that is answered does not run again. -/
theorem System.step_unanswered (h : sys.step s a = some t) {i : Nat} (hi : a.thread = some i) :
    s.config.answer i = none := by
  cases a with
  | start j c =>
      cases hi
      obtain ⟨hj, _⟩ := step_start h
      simp [Config.answer, State.config, hj]
  | resume j k =>
      cases hi
      obtain ⟨c, past, q, f, hj, _⟩ := step_resume h
      simp [Config.answer, State.config, hj, Task.thread, Suspended.status]
  | env e => cases hi

theorem System.step_answer (h : sys.step s a = some t) {i : Nat} {x : Nat × C × Except ε α}
    (hx : s.config.answer i = some x) : t.config.answer i = some x := by
  by_cases hi : a.thread = some i
  · rw [step_unanswered h hi] at hx
    cases hx
  · rw [step_answer_of_ne h hi, hx]

theorem System.Run.answer (h : sys.Run ok s as t) {i : Nat} {x : Nat × C × Except ε α}
    (hx : s.config.answer i = some x) : t.config.answer i = some x := by
  induction h with
  | nil => exact hx
  | cons _ hstep _ ih => exact ih (System.step_answer hstep hx)

theorem Config.answered_eq_some {g : Config W Q ε α C} {x : Nat × C × Except ε α} :
    g.answered a = some x ↔ a.thread = some x.1 ∧ g.answer x.1 = some x := by
  rw [answered, Option.bind_eq_some_iff]
  constructor
  · rintro ⟨i, hi, hx⟩
    obtain ⟨c, past, r, _, rfl⟩ := answer_eq_some.mp hx
    exact ⟨hi, hx⟩
  · rintro ⟨hi, hx⟩
    exact ⟨x.1, hi, hx⟩

/-- The answers of a run are those of the threads that it has ended. -/
theorem System.Run.mem_answers (h : sys.Run ok s as t) {x : Nat × C × Except ε α} :
    x ∈ sys.answers s as ↔ t.config.answer x.1 = some x ∧ s.config.answer x.1 = none := by
  induction h with
  | nil s =>
      refine iff_of_false List.not_mem_nil fun ⟨hsome, hnone⟩ => ?_
      rw [hnone] at hsome
      cases hsome
  | @cons s u t a as _ hstep hrun ih =>
      rw [System.answers, hstep]
      simp only [List.mem_append, Option.mem_toList, ih, Config.answered_eq_some]
      by_cases hx : a.thread = some x.1
      · have hnone := System.step_unanswered hstep hx
        constructor
        · rintro (⟨_, hu⟩ | ⟨ht, _⟩)
          · exact ⟨hrun.answer hu, hnone⟩
          · exact ⟨ht, hnone⟩
        · rintro ⟨ht, _⟩
          cases hu : u.config.answer x.1 with
          | none => exact .inr ⟨ht, rfl⟩
          | some y =>
              obtain rfl := Option.some.inj ((hrun.answer hu).symm.trans ht)
              exact .inl ⟨hx, rfl⟩
      · rw [System.step_answer_of_ne hstep hx]
        exact ⟨fun h => h.resolve_left fun hu => hx hu.1, .inr⟩

/-- Each of them is answered once. -/
theorem System.Run.nodup_answers (h : sys.Run ok s as t) :
    ((sys.answers s as).map Prod.fst).Nodup := by
  induction h with
  | nil => exact List.nodup_nil
  | @cons s u t a as _ hstep hrun ih =>
      rw [System.answers, hstep]
      simp only
      cases hx : u.config.answered a with
      | none => exact ih
      | some x =>
          refine List.nodup_cons.mpr ⟨fun hmem => ?_, ih⟩
          obtain ⟨y, hy, he⟩ := List.mem_map.mp hmem
          obtain ⟨_, hnone⟩ := hrun.mem_answers.mp hy
          rw [he, (Config.answered_eq_some.mp hx).2] at hnone
          cases hnone

end Answers

section Moves

variable {T : C → Option Q → W → W → Status Q ε α → Prop} {env : E → W → Option W}
variable {g h : Config W Q ε α C} {a : Act C K E} {i : Nat} {c : C} {o : Option Q}

theorem Config.Runs.answered (hruns : g.Runs i c o a) {past : List Q} {r : Except ε α}
    (hi : h.threads i = some { call := c, past, status := .done r }) :
    h.answered a = some (i, c, r) := by
  have hthread : a.thread = some i := by
    cases hruns with
    | start => rfl
    | resume => rfl
  exact Config.answered_eq_some.mpr ⟨hthread, Config.answer_eq_some.mpr ⟨c, past, r, hi, rfl⟩⟩

/-- The step that answers a call ends it. -/
theorem Move.answered (hmove : Move T env g a h) {r : Except ε α}
    (hanswered : h.answered a = some (i, c, r)) :
    ∃ o past, g.Runs i c o a ∧ T c o g.world h.world (.done r) ∧
      h.threads i = some { call := c, past, status := .done r } := by
  obtain ⟨hthread, hanswer⟩ := Config.answered_eq_some.mp hanswered
  obtain ⟨_, past, _, hi, he⟩ := Config.answer_eq_some.mp hanswer
  cases he
  rcases hmove.runs with ⟨j, c', o, past', st, hruns, hT, hj⟩ | ⟨e, rfl, _⟩
  · obtain rfl : j = i := by
      cases hruns with
      | start => exact Option.some.inj hthread
      | resume => exact Option.some.inj hthread
    cases hi.symm.trans hj
    exact ⟨o, past, hruns, hT, hi⟩
  · cases hthread

variable {sys : System W Q A ε α C K E} {ok : Config W Q ε α C → Act C K E → Prop}
variable {s t : State W Q A ε α C} {as : List (Act C K E)}

/-- What every step keeps of the answers so far holds of the answers of a run. -/
theorem System.Run.invariant_answers
    (I : List (Nat × C × Except ε α) → Config W Q ε α C → Prop) (hsys : sys.Obeys T)
    (hstep : ∀ log g a h, ok g a → Move T sys.env g a h → I log g →
      I (log ++ (h.answered a).toList) h)
    (hrun : sys.Run ok s as t) (hs : s.Obeys sys T) (hI : I [] s.config) :
    I (sys.answers s as) t.config := by
  suffices hlog : ∀ log, I log s.config → I (log ++ sys.answers s as) t.config from hlog [] hI
  clear hI
  induction hrun with
  | nil =>
      intro log hI
      rw [System.answers, List.append_nil]
      exact hI
  | cons hok hact _ ih =>
      intro log hI
      obtain ⟨hmove, hu⟩ := hsys.move hs hact
      rw [System.answers, hact]
      simp only
      rw [← List.append_assoc]
      exact ih hu _ (hstep _ _ _ _ hok hmove hI)

end Moves

/-! ## An abstract state -/

/-- What the calls are for.  The keys are those of the world and of the abstract state, `stored`
says how the world holds what the abstract state has under a key, `rely` what others may do to
the world that does not concern a key, and `does` what a call of a thread does. -/
structure Keyed (W ε α C κ τ : Type) (V : κ → Type) where
  concerns : C → κ → Prop
  view : (k : κ) → τ → V k
  stored : (k : κ) → V k → W → Prop
  rely : κ → W → W → Prop
  does : Nat → τ → C → Except ε α → τ → Prop

namespace Keyed

variable (d : Keyed W ε α C κ τ V)

/-- Others have left alone what the call concerns. -/
def Relies (c : C) (w w' : W) : Prop := ∀ k, d.concerns c k → d.rely k w w'

/-- The call ends with `r` as it does from `t`. -/
def Ended (i : Nat) (t : τ) (c : C) (r : Except ε α) (w : W) : Prop :=
  ∃ t', d.does i t c r t' ∧ ∀ k, d.concerns c k → d.stored k (d.view k t') w

/-- A call in progress concerns the key. -/
def InUse (g : Config W Q ε α C) (k : κ) : Prop :=
  ∃ i t q, g.threads i = some t ∧ t.status = .waits q ∧ d.concerns t.call k

/-- No call starts that concerns a key in use, and the promises of a thread settle as allowed. -/
def Apart (allowed : Nat → K → Prop) (g : Config W Q ε α C) : Act C K E → Prop
  | .start _ c => ∀ k, d.concerns c k → ¬ d.InUse g k
  | .resume i k => allowed i k
  | .env _ => True

/-- The calls do one after the other what they do, from `t` to `t'`. -/
inductive Log : τ → List (Nat × C × Except ε α) → τ → Prop
  | nil (t : τ) : Log t [] t
  | cons {t u t' : τ} {i : Nat} {c : C} {r : Except ε α} {log : List (Nat × C × Except ε α)}
      (hdoes : d.does i t c r u) (hlog : Log u log t') : Log t ((i, c, r) :: log) t'

variable {d} in
theorem Log.append {t u t' : τ} {log log' : List (Nat × C × Except ε α)} (h : d.Log t log u)
    (h' : d.Log u log' t') : d.Log t (log ++ log') t' := by
  induction h with
  | nil => exact h'
  | cons hdoes _ ih => exact .cons hdoes (ih h')

/-- Each call does alone what it is to do, and nothing to what it does not concern. -/
structure Correct (sys : System W Q A ε α C K E)
    (T : C → Option Q → W → W → Status Q ε α → Prop) (allowed : Nat → K → Prop) : Prop where
  refl : ∀ k w, d.rely k w w
  trans : ∀ k w w' w'', d.rely k w w' → d.rely k w' w'' → d.rely k w w''
  step : ∀ c o w w' st k, T c o w w' st → ¬ d.concerns c k → d.rely k w w'
  env : ∀ e w w' k, sys.env e w = some w' → d.rely k w w'
  stored : ∀ k v w w', d.stored k v w → d.rely k w w' → d.stored k v w'
  frame : ∀ i t c r t' k, d.does i t c r t' → ¬ d.concerns c k → d.view k t' = d.view k t
  congr : ∀ i t u c r t', d.does i t c r t' → (∀ k, d.concerns c k → d.view k u = d.view k t) →
    ∃ u', d.does i u c r u' ∧ ∀ k, d.concerns c k → d.view k u' = d.view k t'
  ends : ∀ i t c w w', (∀ k, d.concerns c k → d.stored k (d.view k t) w) →
    sys.accept c w = some w' →
      (sys.body c).Ends sys.answer (d.Relies c) (allowed i) (d.Ended i t c) w'

/-- The world holds the abstract state, but for the keys in use; those the calls in progress
will leave as they do from it. -/
structure Holds (sys : System W Q A ε α C K E) (allowed : Nat → K → Prop) (t : τ)
    (s : State W Q A ε α C) : Prop where
  idle : ∀ k, ¬ d.InUse s.config k → d.stored k (d.view k t) s.world
  busy : ∀ i task, s.tasks i = some task → task.Busy →
    task.rest.Ends sys.answer (d.Relies task.call) (allowed i) (d.Ended i t task.call) s.world
  apart : ∀ i j task task' k, i ≠ j → s.tasks i = some task → s.tasks j = some task' →
    task.Busy → task'.Busy → d.concerns task.call k → ¬ d.concerns task'.call k

section Holds

variable {d : Keyed W ε α C κ τ V} {sys : System W Q A ε α C K E} {allowed : Nat → K → Prop}
variable {T : C → Option Q → W → W → Status Q ε α → Prop}
variable {s s' : State W Q A ε α C} {a : Act C K E} {as : List (Act C K E)} {t : τ}

theorem inUse_iff {k : κ} :
    d.InUse s.config k ↔ ∃ i task, s.tasks i = some task ∧ task.Busy ∧ d.concerns task.call k := by
  constructor
  · rintro ⟨i, th, q, hi, hq, hk⟩
    obtain ⟨task, hi', rfl⟩ := Option.map_eq_some_iff.mp hi
    exact ⟨i, task, hi', ⟨q, hq⟩, hk⟩
  · rintro ⟨i, task, hi, ⟨q, hq⟩, hk⟩
    exact ⟨i, task.thread, q, congrArg (Option.map Task.thread) hi, hq, hk⟩

/-- What a call in progress will do is not touched by what it relies on. -/
theorem Correct.relies (hd : d.Correct sys T allowed) {i : Nat} {task : Task W Q A ε α C}
    (hbusy : task.Busy) {post : Except ε α → W → Prop} {w w' : W}
    (h : task.rest.Ends sys.answer (d.Relies task.call) (allowed i) post w)
    (hrely : d.Relies task.call w w') :
    task.rest.Ends sys.answer (d.Relies task.call) (allowed i) post w' := by
  obtain ⟨c, past, rest⟩ := task
  obtain ⟨q', hq⟩ := hbusy
  cases rest with
  | done r => cases hq
  | waits q f => exact fun w₀ hw₀ => h w₀ fun k hk => hd.trans k w w' w₀ (hrely k hk) (hw₀ k hk)

/-- Nor by the end of a call that concerns other keys. -/
theorem Correct.ended (hd : d.Correct sys T allowed) {i j : Nat} {c c' : C} {r r' : Except ε α}
    {w : W} {t' : τ} (hdoes : d.does i t c r t') (hapart : ∀ k, d.concerns c k → ¬ d.concerns c' k)
    (h : d.Ended j t c' r' w) : d.Ended j t' c' r' w := by
  obtain ⟨u, hu, hstored⟩ := h
  obtain ⟨u', hu', hview⟩ := hd.congr j t t' c' r' u hu fun k hk =>
    hd.frame i t c r t' k hdoes fun hk' => hapart k hk' hk
  exact ⟨u', hu', fun k hk => hview k hk ▸ hstored k hk⟩

theorem Holds.init {w : W} (h : ∀ k, d.stored k (d.view k t) w) :
    d.Holds sys allowed t (.init w) where
  idle k _ := h k
  busy i task hi := by cases hi
  apart i j task task' k _ hi := by cases hi

theorem Holds.env (hd : d.Correct sys T allowed) (hs : d.Holds sys allowed t s) {e : E} {w : W}
    (he : sys.env e s.world = some w) : d.Holds sys allowed t { s with world := w } where
  idle k hk := hd.stored k _ _ _ (hs.idle k hk) (hd.env e _ _ k he)
  busy i task hi hbusy := hd.relies hbusy (hs.busy i task hi hbusy) fun k _ => hd.env e _ _ k he
  apart := hs.apart

/-- A call has run to where it waits again, or to its end. -/
theorem Holds.settle (hd : d.Correct sys T allowed) (hs : d.Holds sys allowed t s) {i : Nat}
    {c : C} {past : List Q} {r : Suspended W Q A ε α × W}
    (hold : ∀ task, s.tasks i = some task → task.call = c)
    (hapart : ∀ j task k, j ≠ i → s.tasks j = some task → task.Busy →
      d.concerns c k → ¬ d.concerns task.call k)
    (hends : r.1.Ends sys.answer (d.Relies c) (allowed i) (d.Ended i t c) r.2)
    (hrely : ∀ k, ¬ d.concerns c k → d.rely k s.world r.2) :
    ∃ t', d.Log t ((s.settle i c past r).config.answer i).toList t' ∧
      d.Holds sys allowed t' (s.settle i c past r) := by
  have hself : (s.settle i c past r).tasks i = some { call := c, past, rest := r.1 } :=
    Function.update_self ..
  have hother : ∀ j task, j ≠ i → s.tasks j = some task → task.Busy →
      task.rest.Ends sys.answer (d.Relies task.call) (allowed j) (d.Ended j t task.call) r.2 :=
    fun j task hji hj hbusy => hd.relies hbusy (hs.busy j task hj hbusy) fun k hk =>
      hrely k fun hk' => hapart j task k hji hj hbusy hk' hk
  have hidle : ∀ k, ¬ d.concerns c k → ¬ d.InUse (s.settle i c past r).config k →
      d.stored k (d.view k t) r.2 := by
    refine fun k hk hnot => hd.stored k _ _ _ (hs.idle k fun huse => ?_) (hrely k hk)
    obtain ⟨j, task, hj, hbusy, hk'⟩ := inUse_iff.mp huse
    by_cases hji : j = i
    · subst hji
      exact hk (hold task hj ▸ hk')
    · exact hnot (inUse_iff.mpr ⟨j, task, (Function.update_of_ne hji _ _).trans hj, hbusy, hk'⟩)
  have hapart' : ∀ j l task task' k, j ≠ l → (s.settle i c past r).tasks j = some task →
      (s.settle i c past r).tasks l = some task' → task.Busy → task'.Busy →
      d.concerns task.call k → ¬ d.concerns task'.call k := by
    intro j l task task' k hjl hj hl hbusy hbusy' hk hk'
    rcases State.of_settle hj with ⟨hji, htask⟩ | ⟨hji, hj⟩
    · rcases State.of_settle hl with ⟨hli, _⟩ | ⟨hli, hl⟩
      · exact hjl (hji.trans hli.symm)
      · rw [htask] at hk
        exact hapart l task' k hli hl hbusy' hk hk'
    · rcases State.of_settle hl with ⟨_, htask'⟩ | ⟨_, hl⟩
      · rw [htask'] at hk'
        exact hapart j task k hji hj hbusy hk' hk
      · exact hs.apart j l task task' k hjl hj hl hbusy hbusy' hk hk'
  obtain ⟨rest, w⟩ := r
  cases rest with
  | done r =>
      obtain ⟨t', hdoes, hstored⟩ := hends
      have hanswer : (s.settle i c past (.done r, w)).config.answer i = some (i, c, r) :=
        Config.answer_eq_some.mpr ⟨c, past, r, congrArg (Option.map Task.thread) hself, rfl⟩
      refine ⟨t', hanswer ▸ .cons hdoes (.nil t'),
        { idle := fun k hnot => ?_, busy := fun j task hj hbusy => ?_, apart := hapart' }⟩
      · by_cases hk : d.concerns c k
        · exact hstored k hk
        · rw [hd.frame i t c r t' k hdoes hk]
          exact hidle k hk hnot
      · rcases State.of_settle hj with ⟨_, rfl⟩ | ⟨hji, hj⟩
        · obtain ⟨q, hq⟩ := hbusy
          cases hq
        · exact (hother j task hji hj hbusy).mono fun r' w' h =>
            hd.ended hdoes (fun k => hapart j task k hji hj hbusy) h
  | waits q f =>
      have hbusy : (⟨c, past, .waits q f⟩ : Task W Q A ε α C).Busy := ⟨q, rfl⟩
      have hanswer : (s.settle i c past (.waits q f, w)).config.answer i = none := by
        simp [Config.answer, State.settle_config, Suspended.status]
      refine ⟨t, hanswer ▸ .nil t,
        { idle := fun k hnot => hidle k (fun hk => ?_) hnot, busy := fun j task hj htask => ?_,
          apart := hapart' }⟩
      · exact hnot (inUse_iff.mpr ⟨i, _, hself, hbusy, hk⟩)
      · rcases State.of_settle hj with ⟨rfl, rfl⟩ | ⟨hji, hj⟩
        · exact hends
        · exact hother j task hji hj htask

theorem Holds.step (hd : d.Correct sys T allowed) (hsys : sys.Obeys T)
    (hs : d.Holds sys allowed t s) (hobeys : s.Obeys sys T) (hok : d.Apart allowed s.config a)
    (hstep : sys.step s a = some s') :
    ∃ t', d.Log t (s'.config.answered a).toList t' ∧ d.Holds sys allowed t' s' := by
  cases a with
  | start i c =>
      obtain ⟨hi, w, hw, rfl⟩ := System.step_start hstep
      refine hs.settle hd (fun task htask => ?_) (fun j task k _ hj hbusy hk hk' => ?_) ?_ ?_
      · rw [hi] at htask
        cases htask
      · exact hok k hk (inUse_iff.mpr ⟨j, task, hj, hbusy, hk'⟩)
      · exact (hd.ends i t c s.world w (fun k hk => hs.idle k (hok k hk)) hw).advance
      · exact fun k hk => hd.step c none _ _ _ k (hsys c s.world w hw).advance.1 hk
  | resume i choice =>
      obtain ⟨c, past, q, f, hi, r, hr, rfl⟩ := System.step_resume hstep
      have hbusy : (⟨c, past, .waits q f⟩ : Task W Q A ε α C).Busy := ⟨q, rfl⟩
      have hends := hs.busy i _ hi hbusy
      refine hs.settle hd (fun task htask => ?_) (fun j task k hji hj htask hk hk' => ?_) ?_ ?_
      · cases hi.symm.trans htask
        rfl
      · exact hs.apart i j _ task k (Ne.symm hji) hi hj hbusy htask hk hk'
      · exact ((hends s.world fun k _ => hd.refl k s.world).2 choice r hok hr).advance
      · have hmove := (hobeys i _ hi choice s.world r hr).advance.1
        exact fun k hk => hd.step c (some q) _ _ _ k hmove hk
  | env e =>
      obtain ⟨w, hw, rfl⟩ := System.step_env hstep
      exact ⟨t, .nil t, hs.env hd hw⟩

/-- A run in which calls keep apart is one of the abstract state. -/
theorem Holds.run (hd : d.Correct sys T allowed) (hsys : sys.Obeys T)
    (hrun : sys.Run (d.Apart allowed) s as s') (hs : d.Holds sys allowed t s)
    (hobeys : s.Obeys sys T) :
    ∃ t', d.Log t (sys.answers s as) t' ∧ d.Holds sys allowed t' s' := by
  induction hrun generalizing t with
  | nil => exact ⟨t, .nil t, hs⟩
  | cons hok hstep _ ih =>
      obtain ⟨u, hlog, hu⟩ := hs.step hd hsys hobeys hok hstep
      obtain ⟨t', hlog', ht'⟩ := ih hu (hsys.move hobeys hstep).2
      rw [System.answers, hstep]
      exact ⟨t', hlog.append hlog', ht'⟩

end Holds

end Keyed

end Async
