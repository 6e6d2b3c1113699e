import Mathlib.Data.Set.Subsingleton
import Mathlib.Tactic.IntervalCases
import RpiNestApi.Async.History
import RpiNestApi.SosReport.Steps

/-
Use of the report directory by one request at a time.

A request checks that the unit does not run, and nothing else keeps another one
out until its report is packed and deleted.  Where no request passes the check
while another one is past it, and a poll does not miss a run that is queued or
begins, the directory is used by one request at a time.
-/

namespace RpiNestApi.SosReport

open Async

/-! ## The requests in progress -/

/-- Where a request can be: at an await, or at a pipeline that has begun to read. -/
inductive Place where
  | task (i : Nat)
  | pipeline (n : Nat)

/-- The request at this place is at the stage. -/
def Stands (g : Service.Config) (request : Nat) (stage : Stage) : Place → Prop
  | .task i => ∃ t q, g.threads i = some t ∧ t.call.request = request ∧ t.status = .waits q ∧
      q.stage = stage
  | .pipeline n => g.world.pipelines[n]? = some request ∧ stage = .pack

def At (g : Service.Config) (request : Nat) (stage : Stage) : Prop :=
  ∃ p, Stands g request stage p

/-- The request is between its `StartUnit` and the end of its packing. -/
def Between (g : Service.Config) (request : Nat) : Prop :=
  At g request .poll ∨ At g request .pack

/-- While the pipeline of one request reads the directory, no other's run of the
unit goes on and no other deletes it, and one request at most is between its
`StartUnit` and the end of its packing. -/
structure Exclusive (g : Service.Config) : Prop where
  run : ∀ request request', At g request .pack → g.world.unit.RunsFor (some request') →
    request' = request
  delete : ∀ request request', At g request .pack → At g request' .delete → request' = request
  one : ∀ request request', Between g request → Between g request' → request' = request

/-- Where the step answers the check of a request while another one is between its
`StartUnit` and the end of its packing, the request is rejected. -/
def Refuses (g : Service.Config) (a : Service.Act) (h : Service.Config) : Prop :=
  ∀ i t request, a = .resume i .resolve → g.threads i = some t →
    t.status = .waits (.getAll .check) → Between g request → request ≠ t.call.request →
    ∃ t', h.threads i = some t' ∧
      t'.status = .done (.error (.conflict "Report service already running"))

/-- Every state the steps pass through is exclusive, and every step refuses the
others. -/
def ExclusiveUse (w : World) (as : List Service.Act) : Prop :=
  ∀ before after s, as = before ++ after → system.Run always (.init w) before s →
    Exclusive s.config ∧ ∀ a after' s', after = a :: after' → system.step s a = some s' →
      Refuses s.config a s'.config

/-- Where a check is answered and the unit does not seem to run, no request is past
its check, and where a poll is answered and a run is queued or going on, the unit
seems to run. -/
structure Guarded (g : Service.Config) (a : Service.Act) : Prop where
  check : ∀ i t, a = .resume i .resolve → g.threads i = some t →
    t.status = .waits (.getAll .check) → g.world.properties.isRunning = false →
    ∀ request stage, At g request stage → stage = .check
  poll : ∀ i t, a = .resume i .resolve → g.threads i = some t →
    t.status = .waits (.getAll .poll) → g.world.unit.busy = true →
    g.world.properties.isRunning = true

/-! ## One request past its check -/

/-- The places of the requests that are past their check. -/
def Past (g : Service.Config) : Set Place :=
  {p | ∃ request stage, Stands g request stage p ∧ stage ≠ .check}

/-- One request at most is past its check, and where it packs its report, no
request's run of the unit is queued or going on. -/
structure Alone (g : Service.Config) : Prop where
  past : (Past g).Subsingleton
  idle : ∀ request, At g request .pack → ∀ request', ¬ g.world.unit.BusyFor (some request')

section Config

variable {g h : Service.Config} {request request' : Nat} {stage stage' : Stage} {p p' : Place}

theorem Stands.unique (hp : Stands g request stage p) (hp' : Stands g request' stage' p) :
    request' = request ∧ stage' = stage := by
  cases p with
  | task i =>
      obtain ⟨t, q, hi, rfl, hq, rfl⟩ := hp
      obtain ⟨t', q', hi', rfl, hq', rfl⟩ := hp'
      obtain rfl := Option.some.inj (hi.symm.trans hi')
      cases hq.symm.trans hq'
      exact ⟨rfl, rfl⟩
  | pipeline n =>
      obtain ⟨hn, rfl⟩ := hp
      obtain ⟨hn', rfl⟩ := hp'
      exact ⟨Option.some.inj (hn'.symm.trans hn), rfl⟩

theorem Stands.past (hp : Stands g request stage p) (hstage : stage ≠ .check) : p ∈ Past g :=
  ⟨request, stage, hp, hstage⟩

theorem Alone.unique (hg : Alone g) (hr : At g request stage) (hr' : At g request' stage')
    (hstage : stage ≠ .check) (hstage' : stage' ≠ .check) :
    request' = request ∧ stage' = stage := by
  obtain ⟨p, hp⟩ := hr
  obtain ⟨p', hp'⟩ := hr'
  obtain rfl := hg.past (hp.past hstage) (hp'.past hstage')
  exact hp.unique hp'

theorem Alone.exclusive (hg : Alone g) : Exclusive g where
  run request request' hr hruns := absurd (.inr hruns) (hg.idle request hr request')
  delete request request' hr hr' := (hg.unique hr hr' (by simp) (by simp)).1
  one request request' hr hr' := by
    rcases hr with hr | hr <;> rcases hr' with hr' | hr' <;>
      exact (hg.unique hr hr' (by simp) (by simp)).1

end Config

section Move

variable {g h : Service.Config} {a : Service.Act} {i : Nat} {c : Call} {o : Option Await}
variable {t : Service.Thread} {request : Nat} {stage : Stage} {p : Place}

/-- A request is where it was, or where the step has run, or at a new pipeline. -/
theorem Stands.back (hmove : Move Step env g a h) (hruns : g.Runs i c o a)
    (hi : h.threads i = some t) (hp : Stands h request stage p) :
    p = .task i ∨ Stands g request stage p ∨
      ∃ n, p = .pipeline n ∧ h.world.pipelines[n]? = some request ∧ stage = .pack := by
  cases p with
  | task j =>
      obtain ⟨t', q, hj, hrequest, hq, hstage⟩ := hp
      rcases hmove.old_or hruns hi hj with hold | ⟨rfl, _⟩
      · exact .inr (.inl ⟨t', q, hold, hrequest, hq, hstage⟩)
      · exact .inl rfl
  | pipeline n => exact .inr (.inr ⟨n, rfl, hp⟩)

theorem Stands.back_of_eq (hmove : Move Step env g a h) (hruns : g.Runs i c o a)
    (hi : h.threads i = some t) (hpipelines : h.world.pipelines = g.world.pipelines)
    (hp : Stands h request stage p) : p = .task i ∨ Stands g request stage p := by
  rcases hp.back hmove hruns hi with htask | hold | ⟨n, rfl, hn, hstage⟩
  · exact .inl htask
  · exact .inr hold
  · exact .inr ⟨hpipelines ▸ hn, hstage⟩

/-- The task that runs is not past its check afterwards. -/
theorem Alone.keep (hg : Alone g) (hmove : Move Step env g a h) (hruns : g.Runs i c o a)
    (hi : h.threads i = some t) (hpipelines : h.world.pipelines = g.world.pipelines)
    (hunit : h.world.unit = g.world.unit)
    (hstatus : ∀ q, t.status = .waits q → q.stage = .check) : Alone h := by
  have hback : ∀ {request stage p}, Stands h request stage p → stage ≠ .check →
      Stands g request stage p := by
    intro request stage p hp hstage
    refine (hp.back_of_eq hmove hruns hi hpipelines).resolve_left ?_
    rintro rfl
    obtain ⟨t', q, hi', _, hq, rfl⟩ := hp
    obtain rfl := Option.some.inj (hi.symm.trans hi')
    exact hstage (hstatus q hq)
  refine ⟨hg.past.anti ?_, fun request ⟨p, hp⟩ => ?_⟩
  · rintro p ⟨request, stage, hp, hstage⟩
    exact (hback hp hstage).past hstage
  · rw [hunit]
    exact hg.idle request ⟨p, hback hp (by simp)⟩

/-- No other request is past its check, and the task that runs does not pack. -/
theorem Alone.only (hpast : ∀ p ∈ Past g, p = .task i) (hmove : Move Step env g a h)
    (hruns : g.Runs i c o a) (hi : h.threads i = some t)
    (hpipelines : h.world.pipelines = g.world.pipelines)
    (hstatus : ∀ q, t.status = .waits q → q.stage ≠ .pack) : Alone h := by
  have htask : ∀ {request stage p}, Stands h request stage p → stage ≠ .check → p = .task i := by
    intro request stage p hp hstage
    rcases hp.back_of_eq hmove hruns hi hpipelines with htask | hold
    · exact htask
    · exact hpast p (hold.past hstage)
  refine ⟨Set.subsingleton_of_forall_eq (.task i) ?_, fun request ⟨p, hp⟩ => ?_⟩
  · rintro p ⟨_, _, hp, hstage⟩
    exact htask hp hstage
  · obtain rfl := htask hp (by simp)
    obtain ⟨t', q, hi', _, hq, hpack⟩ := hp
    obtain rfl := Option.some.inj (hi.symm.trans hi')
    exact absurd hpack (hstatus q hq)

/-- The request that polls leaves its pipeline. -/
theorem Alone.finish (hg : Alone g) (hmove : Move Step env g a h) (hruns : g.Runs i c o a)
    (hi : h.threads i = some t) (htask : .task i ∈ Past g)
    (hpipelines : h.world.pipelines = g.world.pipelines ++ [request])
    (hstatus : ∀ q, t.status ≠ .waits q)
    (hidle : ∀ request', ¬ h.world.unit.BusyFor (some request')) : Alone h := by
  have hnone : g.world.pipelines = [] := by
    refine List.eq_nil_iff_forall_not_mem.mpr fun request' hmem => ?_
    obtain ⟨n, hn⟩ := List.getElem?_of_mem hmem
    have hp : Stands g request' .pack (.pipeline n) := ⟨hn, rfl⟩
    cases hg.past (hp.past (by simp)) htask
  have honly : ∀ p ∈ Past h, p = .pipeline 0 := by
    rintro p ⟨request', stage, hp, hstage⟩
    rcases hp.back hmove hruns hi with rfl | hold | ⟨n, rfl, hn, _⟩
    · obtain ⟨t', q, hi', _, hq, _⟩ := hp
      obtain rfl := Option.some.inj (hi.symm.trans hi')
      exact absurd hq (hstatus q)
    · obtain rfl := hg.past (hold.past hstage) htask
      obtain ⟨t', q, hi', _, hq, _⟩ := hp
      obtain rfl := Option.some.inj (hi.symm.trans hi')
      exact absurd hq (hstatus q)
    · rw [hpipelines, hnone] at hn
      cases n with
      | zero => rfl
      | succ n => cases hn
  exact ⟨Set.subsingleton_of_forall_eq _ honly, fun _ _ => hidle⟩

/-- The pipeline that has begun to read handles its first event. -/
theorem Alone.begin (hg : Alone g) (hmove : Move Step env g a h) (hruns : g.Runs i c o a)
    (hi : h.threads i = some t) (hrequest : request ∈ g.world.pipelines)
    (hpipelines : h.world.pipelines = g.world.pipelines.erase request)
    (hunit : h.world.unit = g.world.unit) : Alone h := by
  obtain ⟨n, hn⟩ := List.getElem?_of_mem hrequest
  have hpipeline : Stands g request .pack (.pipeline n) := ⟨hn, rfl⟩
  have hall : ∀ p ∈ Past g, p = .pipeline n := fun p hp =>
    hg.past hp (hpipeline.past (by simp))
  have hnone : h.world.pipelines = [] := by
    rw [hpipelines]
    cases hcases : g.world.pipelines with
    | nil => rfl
    | cons first rest =>
        cases rest with
        | nil =>
            rw [hcases, List.mem_singleton] at hrequest
            rw [hrequest, List.erase_cons_head]
        | cons second rest =>
            have h₀ : Stands g first .pack (.pipeline 0) := ⟨by rw [hcases]; rfl, rfl⟩
            have h₁ : Stands g second .pack (.pipeline 1) := ⟨by rw [hcases]; rfl, rfl⟩
            cases hg.past (h₀.past (by simp)) (h₁.past (by simp))
  have honly : ∀ p ∈ Past h, p = .task i := by
    rintro p ⟨request', stage, hp, hstage⟩
    rcases hp.back hmove hruns hi with rfl | hold | ⟨n, rfl, hn, _⟩
    · rfl
    · obtain rfl := hall p (hold.past hstage)
      obtain ⟨hn', _⟩ := hp
      rw [hnone] at hn'
      cases hn'
    · rw [hnone] at hn
      cases hn
  refine ⟨Set.subsingleton_of_forall_eq _ honly, fun _ _ => ?_⟩
  rw [hunit]
  exact hg.idle request ⟨_, hpipeline⟩

/-- A move of the environment begins no run for a request. -/
theorem Alone.env_move (hg : Alone g) {e : Env} (hmove : Move Step env g (.env e : Service.Act) h)
    (he : env e g.world = some h.world) : Alone h := by
  have hworld := env_world he
  have hback : ∀ {request stage p}, Stands h request stage p → Stands g request stage p := by
    intro request stage p hp
    cases p with
    | task j => rwa [Stands, hmove.env_threads] at hp
    | pipeline n => rwa [Stands, hworld.pipelines] at hp
  refine ⟨hg.past.anti ?_, fun request ⟨p, hp⟩ request' hbusy => ?_⟩
  · rintro p ⟨request, stage, hp, hstage⟩
    exact (hback hp).past hstage
  · exact hg.idle request ⟨p, hback hp⟩ request' (hworld.busyFor request' hbusy)

theorem Alone.move (hg : Alone g) (hmove : Move Step env g a h)
    (hpass : ∀ i t, g.Runs i t.call (some (.getAll .check)) a → h.threads i = some t →
      t.status = .waits (.getMethodInterface .start) → g.world.properties.isRunning = false →
      Past g = ∅)
    (hfinished : ∀ i t, g.Runs i t.call (some (.getAll .poll)) a → h.threads i = some t →
      t.status = .done (.ok ()) → g.world.properties.isRunning = false →
      g.world.unit.busy = false) : Alone h := by
  rcases hmove.runs with ⟨i, c, o, past, st, hruns, hT, hi⟩ | ⟨e, rfl, he⟩
  · have hpast : ∀ q, o = some q → q.stage ≠ .check → Place.task i ∈ Past g := by
      rintro q rfl hstage
      cases hruns with
      | resume hi₀ => exact ⟨_, _, ⟨_, q, hi₀, rfl, rfl, rfl⟩, hstage⟩
    have honly : ∀ q, o = some q → q.stage ≠ .check → ∀ p ∈ Past g, p = .task i :=
      fun q ho hstage p hp => hg.past hp (hpast q ho hstage)
    obtain ⟨w, threads⟩ := g
    obtain ⟨w', threads'⟩ := h
    cases hT with
    | reject e => exact hg.keep hmove hruns hi rfl rfl fun q hq => by cases hq
    | mkdir => exact hg.keep hmove hruns hi rfl rfl fun q hq => by cases hq; rfl
    | check _ hq' => exact hg.keep hmove hruns hi rfl rfl fun q hq => by cases hq; exact hq'.stage
    | pass hrunning =>
        have hnone := hpass i _ hruns hi rfl hrunning
        refine Alone.only (fun p hp => ?_) hmove hruns hi rfl fun q hq => by cases hq; simp
        rw [hnone] at hp
        exact hp.elim
    | start =>
        exact Alone.only (honly _ rfl (by simp)) hmove hruns hi rfl
          fun q hq => by cases hq; simp
    | started hq' =>
        exact Alone.only (honly _ rfl (by simp)) hmove hruns hi rfl
          fun q hq => by cases hq; rw [hq'.stage]; simp
    | poll hq hq' =>
        exact Alone.only (honly _ rfl (by rw [hq.stage]; simp)) hmove hruns hi rfl
          fun q hq => by cases hq; rw [hq'.stage]; simp
    | finished hrunning =>
        have hidle := hfinished i _ hruns hi rfl hrunning
        refine hg.finish hmove hruns hi (hpast _ rfl (by simp)) rfl (by simp) ?_
        intro request hbusy
        exact absurd hbusy.busy (by simp [hidle])
    | pipeline h => exact hg.begin hmove hruns hi h rfl rfl
    | packed =>
        exact Alone.only (honly _ rfl (by simp)) hmove hruns hi rfl
          fun q hq => by cases hq; simp
    | deleted hw =>
        rcases hw with rfl | rfl <;>
          exact hg.keep hmove hruns hi rfl rfl fun q hq => by cases hq
  · exact hg.env_move hmove he

end Move

/-! ## Runs -/

section Run

variable {s s' : Service.State} {a : Service.Act} {i : Nat} {k : Choice} {stage : Stage}
variable {t t' : Service.Thread}

/-- A request that goes on after a state query was answered. -/
theorem answered (heach : s.Each Queries) (hstep : system.step s (.resume i k) = some s')
    (hi : s.config.threads i = some t) (hq : t.status = .waits (.getAll stage))
    (hi' : s'.config.threads i = some t') (hne : ∀ e, t'.status ≠ .done (.error e)) :
    k = .resolve := by
  obtain ⟨f, r, ⟨herror, ⟨e, hnone⟩, _⟩, hr, hnew⟩ := heach.resume hstep hi hq
  obtain rfl := Option.some.inj (hi'.symm.trans hnew)
  cases k with
  | resolve => rfl
  | undefined =>
      cases hr
      refine absurd ?_ (hne e)
      simp only [hnone]
      rfl
  | reject e =>
      cases hr
      refine absurd ?_ (hne e)
      simp only [herror]
      rfl

/-- A check is answered while the unit runs. -/
theorem conflict (heach : s.Each Queries) (hstep : system.step s (.resume i .resolve) = some s')
    (hi : s.config.threads i = some t) (hq : t.status = .waits (.getAll .check))
    (hrunning : s.world.properties.isRunning = true) : ∃ t', s'.config.threads i = some t' ∧
      t'.status = .done (.error (.conflict "Report service already running")) := by
  obtain ⟨f, r, ⟨_, _, hconflict⟩, hr, hnew⟩ := heach.resume hstep hi hq
  cases hr
  refine ⟨_, hnew, ?_⟩
  simp only [hconflict rfl _ hrunning]
  rfl

theorem Alone.step (hs : s.Obeys system Step) (heach : s.Each Queries) (hg : Alone s.config)
    (hok : Guarded s.config a) (hstep : system.step s a = some s') : Alone s'.config := by
  refine hg.move (system_obeys.move hs hstep).1 ?_ ?_
  · intro i t hruns hi hstatus hrunning
    cases hruns with
    | resume hi₀ =>
        obtain rfl := answered heach hstep hi₀ rfl hi (by simp [hstatus])
        refine Set.eq_empty_iff_forall_notMem.mpr ?_
        rintro p ⟨request, stage, hp, hstage⟩
        exact hstage (hok.check i _ rfl hi₀ rfl hrunning request stage ⟨p, hp⟩)
  · intro i t hruns hi hstatus hrunning
    cases hruns with
    | resume hi₀ =>
        obtain rfl := answered heach hstep hi₀ rfl hi (by simp [hstatus])
        cases hbusy : s.config.world.unit.busy with
        | false => rfl
        | true => exact absurd (hok.poll i _ rfl hi₀ rfl hbusy) (by simpa using hrunning)

theorem Alone.init (w : World) (hw : w.pipelines = []) :
    Alone (State.init w : Service.State).config := by
  have hnone : ∀ request stage p,
      ¬ Stands (State.init w : Service.State).config request stage p := by
    rintro request stage (i | n) hp
    · obtain ⟨t, q, hi, _⟩ := hp
      cases hi
    · obtain ⟨hn, _⟩ := hp
      rw [State.config_world, State.init, hw] at hn
      cases hn
  refine ⟨Set.subsingleton_of_forall_eq (.task 0) ?_, fun request ⟨p, hp⟩ =>
    absurd hp (hnone _ _ p)⟩
  rintro p ⟨request, stage, hp, _⟩
  exact absurd hp (hnone _ _ p)

theorem run_alone {as : List Service.Act} (hrun : system.Run Guarded s as s')
    (hs : s.Obeys system Step) (heach : s.Each Queries) (hg : Alone s.config) :
    Alone s'.config := by
  induction hrun with
  | nil => exact hg
  | cons hok hstep _ ih =>
      exact ih (system_obeys.move hs hstep).2 (heach.step body_each hstep)
        (hg.step hs heach hok hstep)

/-- A check is answered while another request is between its `StartUnit` and the end
of its packing. -/
theorem Guarded.refuses (hok : Guarded s.config a) (heach : s.Each Queries)
    (hstep : system.step s a = some s') : Refuses s.config a s'.config := by
  rintro i t request rfl hi hq hbetween _
  refine conflict heach hstep hi hq ?_
  cases hrunning : s.world.properties.isRunning with
  | true => rfl
  | false =>
      have hnone := hok.check i t rfl hi hq hrunning request
      rcases hbetween with hpoll | hpack
      · cases hnone _ hpoll
      · cases hnone _ hpack

/-- The directory is used by one request at a time in every run in which no request
passes its check while another is past it, and no poll misses a run. -/
theorem exclusive_use {w : World} (hw : w.pipelines = []) {as : List Service.Act}
    (hrun : system.Run Guarded (.init w) as s) : ExclusiveUse w as := by
  intro before after s₁ has hbefore
  subst has
  obtain ⟨hbefore', hafter⟩ := hrun.split_at hbefore
  refine ⟨(run_alone hbefore' (.init w) (.init w) (.init w hw)).exclusive, ?_⟩
  rintro a after' s' rfl hstep
  cases hafter with
  | cons hok _ _ => exact hok.refuses (hbefore'.each body_each (.init w)) hstep

end Run

/-! ## Two requests -/

/-- The unit is idle, and there is no report. -/
def idleWorld : World :=
  .init { activeState := .inactive, subState := "dead", job := none, startedBy := none } false

/-- The awaits of a request, from its start until its `StartUnit` is answered. -/
def startReport (i request : Nat) : List Service.Act :=
  .start i (.generateSosReport request 1) :: List.replicate 7 (.resume i .resolve)

/-- One round of the loop. -/
def pollReport (i : Nat) : List Service.Act := List.replicate 5 (.resume i .resolve)

/-- While the unit runs for the first request, a second one comes in. -/
def twoReports : List Service.Act :=
  startReport 0 0 ++ [.env (.begin .active "running"), .env .write] ++
    (startReport 1 1).take 6 ++ [.env (.goOn .inactive "dead")] ++ pollReport 0 ++
    [.start 2 (.pipeline 0), .resume 2 .resolve, .resume 2 .resolve]

section Guarded

variable {g : Service.Config} {a : Service.Act} {i : Nat} {k : Choice} {t : Service.Thread}

theorem Guarded.of_start {c : Call} : Guarded g (.start i c) where
  check _ _ he := by cases he
  poll _ _ he := by cases he

theorem Guarded.of_env {e : Env} : Guarded g (.env e) where
  check _ _ he := by cases he
  poll _ _ he := by cases he

theorem Guarded.of_running (hrunning : g.world.properties.isRunning = true) : Guarded g a where
  check _ _ _ _ _ h := by simp [hrunning] at h
  poll _ _ _ _ _ _ := hrunning

theorem Guarded.of_resume (hi : g.threads i = some t)
    (hcheck : t.status = .waits (.getAll .check) → ∀ j t', g.threads j = some t' → j = i)
    (hpipelines : g.world.pipelines = [])
    (hpoll : t.status = .waits (.getAll .poll) → g.world.unit.busy = false) :
    Guarded g (.resume i k) where
  check j t' he hj hq _ := by
    cases he
    obtain rfl := Option.some.inj (hi.symm.trans hj)
    rintro request stage ⟨j | n, hp⟩
    · obtain ⟨t', q, hj', _, hq', rfl⟩ := hp
      obtain rfl := hcheck hq j t' hj'
      obtain rfl := Option.some.inj (hi.symm.trans hj')
      cases hq.symm.trans hq'
      rfl
    · obtain ⟨hn, _⟩ := hp
      rw [hpipelines] at hn
      cases hn
  poll j t' he hj hq hbusy := by
    cases he
    obtain rfl := Option.some.inj (hi.symm.trans hj)
    rw [hpoll hq] at hbusy
    cases hbusy

end Guarded

theorem twoReports_guarded : system.Run Guarded (.init idleWorld) twoReports
    (system.outcome (.init idleWorld) twoReports) := by
  refine System.run_outcome_of rfl fun n hn => ?_
  have hn25 : n < 25 := hn
  have hfirst : ∀ j t, (system.outcome (.init idleWorld) (twoReports.take 5)).config.threads j =
      some t → j = 0 := by
    refine (System.run_outcome rfl).forall_threads ?_
    show ∀ j ∈ [0], _
    simp
  interval_cases n
  all_goals first
    | exact .of_start
    | exact .of_env
    | exact .of_running rfl
    | refine .of_resume rfl ?_ rfl ?_ <;> intro h <;>
        first
        | cases h; done
        | exact hfirst
        | rfl

theorem exclusive_use_two : ∃ s, system.Run Guarded (.init idleWorld) twoReports s ∧
    ExclusiveUse idleWorld twoReports :=
  ⟨_, twoReports_guarded, exclusive_use rfl twoReports_guarded⟩

/-- A second request comes in while the report of the first one is packed. -/
def overlappingReports : List Service.Act :=
  startReport 0 0 ++
    [.env (.begin .active "running"), .env .write, .env (.goOn .inactive "dead")] ++
    pollReport 0 ++ [.start 2 (.pipeline 0)] ++ startReport 1 1 ++
    [.env (.begin .active "running")]

theorem reports_overlap : ∃ s, system.Run always (.init idleWorld) overlappingReports s ∧
    ¬ ExclusiveUse idleWorld overlappingReports := by
  have hrun : system.Run always (.init idleWorld) overlappingReports
      (system.outcome (.init idleWorld) overlappingReports) := System.run_outcome rfl
  refine ⟨_, hrun, fun h => ?_⟩
  obtain ⟨hexclusive, _⟩ := h _ [] _ (List.append_nil _).symm hrun
  have hpack : At (system.outcome (.init idleWorld) overlappingReports).config 0 .pack :=
    ⟨.task 2, _, _, rfl, rfl, rfl, rfl⟩
  have hruns : (system.outcome (.init idleWorld)
      overlappingReports).config.world.unit.RunsFor (some 1) := ⟨rfl, rfl⟩
  exact absurd (hexclusive.run 0 1 hpack hruns) (by decide)

end RpiNestApi.SosReport
