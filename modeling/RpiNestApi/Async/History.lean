import RpiNestApi.Async.Follow

/-
What the threads of a state tell about the run that led to it.

A thread keeps its call and every promise it has awaited, so a fact about an
earlier step is a fact about the threads of the present state.  The rules here
carry two kinds of such facts through a run: what every thread satisfies, and
that everything of some kind has a thread it came from.
-/

namespace Async

variable {W Q : Type} {A : Q → Type} {ε α C K E ι : Type}

/-- `t'` is `t` some steps later. -/
structure Thread.Extends (t t' : Thread Q ε α C) : Prop where
  call : t'.call = t.call
  awaited : ∀ q, t.Awaited q → t'.Awaited q
  done : ∀ r, t.status = .done r → t' = t

theorem Thread.Extends.refl (t : Thread Q ε α C) : t.Extends t :=
  { call := rfl, awaited := fun _ h => h, done := fun _ _ => rfl }

theorem Thread.Extends.trans {t t' t'' : Thread Q ε α C} (h : t.Extends t')
    (h' : t'.Extends t'') : t.Extends t'' where
  call := h'.call.trans h.call
  awaited := fun q hq => h'.awaited q (h.awaited q hq)
  done := fun r hr => by
    obtain rfl := h.done r hr
    exact h'.done r hr

@[simp] theorem Thread.awaited_done {c : C} {past : List Q} {r : Except ε α} {q : Q} :
    ({ call := c, past, status := .done r } : Thread Q ε α C).Awaited q ↔ q ∈ past := by
  simp [Thread.Awaited]

@[simp] theorem Thread.awaited_waits {c : C} {past : List Q} {p q : Q} :
    ({ call := c, past, status := .waits p } : Thread Q ε α C).Awaited q ↔
      q = p ∨ q ∈ past := by
  simp [Thread.Awaited, eq_comm]

section

variable {T : C → Option Q → W → W → Status Q ε α → Prop} {env : E → W → Option W}
variable {ok : Config W Q ε α C → Act C K E → Prop}
variable {g h : Config W Q ε α C} {a : Act C K E} {as : List (Act C K E)}

theorem Move.thread (hmove : Move T env g a h) {i : Nat} {t : Thread Q ε α C}
    (hi : g.threads i = some t) : ∃ t', h.threads i = some t' ∧ t.Extends t' := by
  cases hmove with
  | @start j c w st hj hT =>
      have hij : i ≠ j := by
        rintro rfl
        rw [hj] at hi
        cases hi
      exact ⟨t, by simp [Function.update_of_ne hij, hi], .refl t⟩
  | @resume j k c past q w st hj hT =>
      by_cases hij : i = j
      · subst hij
        rw [hj] at hi
        cases hi
        refine ⟨_, Function.update_self .., rfl, fun q' hq' => ?_, fun r hr => by cases hr⟩
        rw [Thread.awaited_waits, ← List.mem_cons] at hq'
        exact .inr hq'
      · exact ⟨t, by simp [Function.update_of_ne hij, hi], .refl t⟩
  | env he => exact ⟨t, hi, .refl t⟩

theorem Trace.thread (htrace : Trace T env ok g as h) {i : Nat} {t : Thread Q ε α C}
    (hi : g.threads i = some t) : ∃ t', h.threads i = some t' ∧ t.Extends t' := by
  induction htrace generalizing t with
  | nil => exact ⟨t, hi, .refl t⟩
  | cons _ hmove _ ih =>
      obtain ⟨t₁, h₁, he₁⟩ := hmove.thread hi
      obtain ⟨t₂, h₂, he₂⟩ := ih h₁
      exact ⟨t₂, h₂, he₁.trans he₂⟩

/-- A thread is as it was, or the step started it, or the step resumed it. -/
theorem Move.thread_cases (hmove : Move T env g a h) {i : Nat} {t : Thread Q ε α C}
    (hi : h.threads i = some t) :
    g.threads i = some t ∨
      (a = .start i t.call ∧ g.threads i = none ∧ t.past = [] ∧
        T t.call none g.world h.world t.status) ∨
      ∃ k past q, a = .resume i k ∧
        g.threads i = some { call := t.call, past, status := .waits q } ∧
        t.past = q :: past ∧ T t.call (some q) g.world h.world t.status := by
  cases hmove with
  | @start j c w st hj hT =>
      by_cases hij : i = j
      · subst hij
        simp only [Function.update_self, Option.some.injEq] at hi
        subst hi
        exact .inr (.inl ⟨rfl, hj, rfl, hT⟩)
      · simp only [Function.update_of_ne hij] at hi
        exact .inl hi
  | @resume j k c past q w st hj hT =>
      by_cases hij : i = j
      · subst hij
        simp only [Function.update_self, Option.some.injEq] at hi
        subst hi
        exact .inr (.inr ⟨k, past, q, rfl, hj, rfl, hT⟩)
      · simp only [Function.update_of_ne hij] at hi
        exact .inl hi
  | env he => exact .inl hi

/-! ## What every thread satisfies -/

/-- A property of a thread and the world is kept by a step if the thread that
runs keeps it and no other thread loses it. -/
theorem Move.threads {P : W → Thread Q ε α C → Prop} (hmove : Move T env g a h)
    (hkeep : ∀ t, P g.world t → P h.world t)
    (hstart : ∀ c w st, T c none g.world w st → P w { call := c, past := [], status := st })
    (hresume : ∀ c past q w st, P g.world { call := c, past, status := .waits q } →
      T c (some q) g.world w st → P w { call := c, past := q :: past, status := st })
    (hg : ∀ i t, g.threads i = some t → P g.world t) (i : Nat) (t : Thread Q ε α C)
    (hi : h.threads i = some t) : P h.world t := by
  obtain ⟨c, past, st⟩ := t
  rcases hmove.thread_cases hi with hold | ⟨_, _, rfl, hT⟩ | ⟨_, past₀, q, _, hj, rfl, hT⟩
  · exact hkeep _ (hg i _ hold)
  · exact hstart c h.world st hT
  · exact hresume c past₀ q h.world st (hg i _ hj) hT

/-- Every step moves the world along `R`. -/
structure Moves (T : C → Option Q → W → W → Status Q ε α → Prop) (env : E → W → Option W)
    (R : W → W → Prop) : Prop where
  step : ∀ {c o w w' st}, T c o w w' st → R w w'
  env : ∀ {e w w'}, env e w = some w' → R w w'

theorem Moves.move {R : W → W → Prop} (hR : Moves T env R) (hmove : Move T env g a h) :
    R g.world h.world := by
  cases hmove with
  | start _ hT => exact hR.step hT
  | resume _ hT => exact hR.step hT
  | env he => exact hR.env he

theorem Moves.trace {R : W → W → Prop} (hR : Moves T env R) (hrefl : ∀ w, R w w)
    (htrans : ∀ {w w' w''}, R w w' → R w' w'' → R w w'') (htrace : Trace T env ok g as h) :
    R g.world h.world := by
  induction htrace with
  | nil g => exact hrefl g.world
  | cons _ hmove _ ih => exact htrans (hR.move hmove) ih

theorem Moves.threads {R : W → W → Prop} (P : W → Thread Q ε α C → Prop)
    (hR : Moves T env R) (hkeep : ∀ w w' t, R w w' → P w t → P w' t)
    (hstart : ∀ c w w' st, T c none w w' st → P w' { call := c, past := [], status := st })
    (hresume : ∀ c past q w w' st, P w { call := c, past, status := .waits q } →
      T c (some q) w w' st → P w' { call := c, past := q :: past, status := st })
    (htrace : Trace T env ok g as h) (hg : ∀ i t, g.threads i = some t → P g.world t) :
    ∀ i t, h.threads i = some t → P h.world t :=
  htrace.invariant (fun g => ∀ i t, g.threads i = some t → P g.world t)
    (fun _ _ _ _ hmove => hmove.threads (fun t => hkeep _ _ t (hR.move hmove))
      (fun c => hstart c _) fun c past q => hresume c past q _) hg

/-! ## Where something came from -/

/-- The thread that made `x` true in the world is still there. -/
theorem Move.origin (F : W → ι → Prop) (P : ι → Thread Q ε α C → Prop)
    (hmove : Move T env g a h)
    (hP : ∀ x t t', t.Extends t' → P x t → P x t')
    (henv : ∀ e w x, env e g.world = some w → F w x → F g.world x)
    (hstart : ∀ c w st x, T c none g.world w st → F w x →
      F g.world x ∨ P x { call := c, past := [], status := st })
    (hresume : ∀ c past q w st x, T c (some q) g.world w st → F w x →
      F g.world x ∨ P x { call := c, past := q :: past, status := st })
    (hg : ∀ x, F g.world x → ∃ i t, g.threads i = some t ∧ P x t) (x : ι)
    (hx : F h.world x) : ∃ i t, h.threads i = some t ∧ P x t := by
  have hold : F g.world x → ∃ i t, h.threads i = some t ∧ P x t := by
    intro hx
    obtain ⟨i, t, hi, ht⟩ := hg x hx
    obtain ⟨t', hi', hext⟩ := hmove.thread hi
    exact ⟨i, t', hi', hP x t t' hext ht⟩
  cases hmove with
  | @start j c w st hj hT =>
      exact (hstart c w st x hT hx).elim hold fun ht => ⟨j, _, Function.update_self .., ht⟩
  | @resume j k c past q w st hj hT =>
      exact (hresume c past q w st x hT hx).elim hold fun ht =>
        ⟨j, _, Function.update_self .., ht⟩
  | @env e w he => exact hold (henv e w x he hx)

/-! ## When a promise was awaited -/

end

/-- The step `a` runs the call `c` of the thread `i` from `o`. -/
inductive Config.Runs (g : Config W Q ε α C) (i : Nat) (c : C) : Option Q → Act C K E → Prop
  | start (hi : g.threads i = none) : g.Runs i c none (.start i c)
  | resume {past : List Q} {q : Q} {k : K}
      (hi : g.threads i = some { call := c, past, status := .waits q }) :
      g.Runs i c (some q) (.resume i k)

theorem Config.Runs.index {g : Config W Q ε α C} {a : Act C K E} {i j : Nat} {c c' : C}
    {o o' : Option Q} (h : g.Runs i c o a) (h' : g.Runs j c' o' a) : i = j := by
  cases h <;> cases h' <;> rfl

section

variable {T : C → Option Q → W → W → Status Q ε α → Prop} {env : E → W → Option W}
variable {g h : Config W Q ε α C} {a : Act C K E}

/-- A thread is as it was, or the step ran it. -/
theorem Move.ran (hmove : Move T env g a h) {i : Nat} {t : Thread Q ε α C}
    (hi : h.threads i = some t) :
    g.threads i = some t ∨
      ∃ o, g.Runs i t.call o a ∧ T t.call o g.world h.world t.status := by
  rcases hmove.thread_cases hi with hold | ⟨rfl, hj, _, hT⟩ | ⟨_, _, q, rfl, hj, _, hT⟩
  · exact .inl hold
  · exact .inr ⟨none, .start hj, hT⟩
  · exact .inr ⟨some q, .resume hj, hT⟩

/-- A step runs one thread, or is a move of the environment. -/
theorem Move.runs (hmove : Move T env g a h) :
    (∃ i c o past st, g.Runs i c o a ∧ T c o g.world h.world st ∧
      h.threads i = some { call := c, past, status := st }) ∨
    ∃ e, a = .env e ∧ env e g.world = some h.world := by
  cases hmove with
  | start hi hT => exact .inl ⟨_, _, _, _, _, .start hi, hT, Function.update_self ..⟩
  | resume hi hT => exact .inl ⟨_, _, _, _, _, .resume hi, hT, Function.update_self ..⟩
  | env he => exact .inr ⟨_, rfl, he⟩

/-- The step `a` takes the thread `i` to the await `q`. -/
def Config.Reaches (T : C → Option Q → W → W → Status Q ε α → Prop) (g : Config W Q ε α C)
    (i : Nat) (c : C) (q : Q) (a : Act C K E) (w : W) : Prop :=
  ∃ o, g.Runs i c o a ∧ T c o g.world w (.waits q)

/-- A promise a thread has awaited was awaited before, or is awaited by this
step. -/
theorem Move.awaited (hmove : Move T env g a h) {i : Nat} {t : Thread Q ε α C} {q : Q}
    (hi : h.threads i = some t) (hq : t.Awaited q) :
    (∃ t₀, g.threads i = some t₀ ∧ t₀.Extends t ∧ t₀.Awaited q) ∨
      t.status = .waits q ∧ g.Reaches T i t.call q a h.world := by
  by_cases hold : ∃ t₀, g.threads i = some t₀ ∧ t₀.Awaited q
  · obtain ⟨t₀, hi₀, hq₀⟩ := hold
    obtain ⟨t', hi', hext⟩ := hmove.thread hi₀
    rw [hi] at hi'
    cases hi'
    exact .inl ⟨t₀, hi₀, hext, hq₀⟩
  · right
    have hnew : ∀ t₀, g.threads i = some t₀ → ¬ t₀.Awaited q := fun t₀ hi₀ hq₀ =>
      hold ⟨t₀, hi₀, hq₀⟩
    have hstatus : t.status = .waits q := by
      refine hq.resolve_right fun hpast => ?_
      rcases hmove.thread_cases hi with hsame | ⟨_, _, hnil, _⟩ | ⟨_, past, p, _, hj, hcons, _⟩
      · exact hnew t hsame hq
      · rw [hnil] at hpast
        cases hpast
      · rw [hcons, List.mem_cons] at hpast
        exact hnew _ hj (Thread.awaited_waits.mpr hpast)
    rcases hmove.ran hi with hi₀ | ⟨o, hruns, hT⟩
    · exact absurd hq (hnew t hi₀)
    · exact ⟨hstatus, o, hruns, hstatus ▸ hT⟩

end

section

variable {T : C → Option Q → W → W → Status Q ε α → Prop} {env : E → W → Option W}
variable {g h : Config W Q ε α C} {a : Act C K E} {e : E} {i j : Nat} {c : C} {o : Option Q}
variable {t t' : Thread Q ε α C}

/-- Only the thread that runs is changed. -/
theorem Move.old_or (hmove : Move T env g a h) (hruns : g.Runs i c o a)
    (hi : h.threads i = some t) (hj : h.threads j = some t') :
    g.threads j = some t' ∨ j = i ∧ t' = t := by
  rcases hmove.ran hj with hold | ⟨o', hruns', _⟩
  · exact .inl hold
  · obtain rfl := hruns'.index hruns
    exact .inr ⟨rfl, Option.some.inj (hj.symm.trans hi)⟩

/-- Only the thread that runs comes to await a promise. -/
theorem Move.awaited_or (hmove : Move T env g a h) (hruns : g.Runs i c o a)
    (hi : h.threads i = some t) (hj : h.threads j = some t') {q : Q} (hq : t'.Awaited q) :
    (∃ t₀, g.threads j = some t₀ ∧ t₀.Extends t' ∧ t₀.Awaited q) ∨
      j = i ∧ t' = t ∧ t.status = .waits q := by
  rcases hmove.awaited hj hq with hold | ⟨hstatus, o', hruns', _⟩
  · exact .inl hold
  · obtain rfl := hruns'.index hruns
    obtain rfl := Option.some.inj (hj.symm.trans hi)
    exact .inr ⟨rfl, rfl, hstatus⟩

theorem Move.env_threads (hmove : Move T env g (.env e : Act C K E) h) :
    h.threads = g.threads := by
  cases hmove
  rfl

end

/-- A run passes through the step in which a call began to await `q`. -/
theorem System.Run.reached {sys : System W Q A ε α C K E}
    {T : C → Option Q → W → W → Status Q ε α → Prop}
    {ok : Config W Q ε α C → Act C K E → Prop} (hsys : sys.Obeys T) {s u : State W Q A ε α C}
    {as : List (Act C K E)} (hrun : sys.Run ok s as u) (hs : s.Obeys sys T) {i : Nat}
    {t : Thread Q ε α C} {q : Q} (hi : u.config.threads i = some t) (hq : t.Awaited q)
    (hnew : ∀ t, s.config.threads i = some t → ¬ t.Awaited q) :
    ∃ before a after s₁ s₂, as = before ++ a :: after ∧ sys.Run ok s before s₁ ∧
      ok s₁.config a ∧ sys.step s₁ a = some s₂ ∧ sys.Run ok s₂ after u ∧
      (∃ t₂, s₂.config.threads i = some t₂ ∧ t₂.status = .waits q ∧ t₂.Extends t) ∧
      s₁.config.Reaches T i t.call q a s₂.world := by
  induction hrun with
  | nil s => exact absurd hq (hnew t hi)
  | @cons s s' u a as hok hstep hrest ih =>
      obtain ⟨hmove, hs'⟩ := hsys.move hs hstep
      by_cases hq' : ∃ t', s'.config.threads i = some t' ∧ t'.Awaited q
      · obtain ⟨t', hi', hq'⟩ := hq'
        obtain ⟨t'', hi'', hext⟩ := (hrest.trace hsys hs').1.thread hi'
        rw [hi] at hi''
        cases hi''
        rcases hmove.awaited hi' hq' with ⟨t₀, hi₀, _, hq₀⟩ | ⟨hstatus, hreach⟩
        · exact absurd hq₀ (hnew t₀ hi₀)
        · exact ⟨[], a, as, s, s', rfl, .nil s, hok, hstep, hrest,
            ⟨t', hi', hstatus, hext⟩, hext.call ▸ hreach⟩
      · obtain ⟨before, b, after, s₁, s₂, rfl, hbefore, h⟩ :=
          ih hs' hi fun t' hi' hq'' => hq' ⟨t', hi', hq''⟩
        exact ⟨a :: before, b, after, s₁, s₂, rfl, .cons hok hstep hbefore, h⟩

/-- A run passes through the step that made a thread what it is. -/
theorem System.Run.became {sys : System W Q A ε α C K E}
    {T : C → Option Q → W → W → Status Q ε α → Prop}
    {ok : Config W Q ε α C → Act C K E → Prop} (hsys : sys.Obeys T) {s u : State W Q A ε α C}
    {as : List (Act C K E)} (hrun : sys.Run ok s as u) (hs : s.Obeys sys T) {i : Nat}
    {t : Thread Q ε α C} (hi : u.config.threads i = some t) (hnew : s.config.threads i ≠ some t) :
    ∃ before a after s₁ s₂ o, as = before ++ a :: after ∧ sys.Run ok s before s₁ ∧
      sys.step s₁ a = some s₂ ∧ sys.Run ok s₂ after u ∧ s₁.config.Runs i t.call o a ∧
      T t.call o s₁.world s₂.world t.status := by
  induction hrun with
  | nil s => exact absurd hi hnew
  | @cons s s' u a as hok hstep hrest ih =>
      obtain ⟨hmove, hs'⟩ := hsys.move hs hstep
      by_cases hi' : s'.config.threads i = some t
      · rcases hmove.ran hi' with hold | ⟨o, hruns, hT⟩
        · exact absurd hold hnew
        · exact ⟨[], a, as, s, s', o, rfl, .nil s, hstep, hrest, hruns, hT⟩
      · obtain ⟨before, b, after, s₁, s₂, o, rfl, hbefore, h⟩ := ih hs' hi hi'
        exact ⟨a :: before, b, after, s₁, s₂, o, rfl, .cons hok hstep hbefore, h⟩

end Async
