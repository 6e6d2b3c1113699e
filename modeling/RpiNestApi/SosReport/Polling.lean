import RpiNestApi.SosReport.Exclusive

/-
Packing a report once its run has ended.

The loop of a request asks for the state of the unit and goes on while the unit
runs.  What it takes for a unit that does not run may also be one whose start job
is still queued, or one that is starting.
-/

namespace RpiNestApi.SosReport

open Async

/-- The pipeline of the request has been made. -/
def Packs (g : Service.Config) (request : Nat) : Prop :=
  request ∈ g.world.pipelines ∨ ∃ i t, g.threads i = some t ∧ t.call = .pipeline request

/-- In every state the steps pass through, no run that a request has asked for is
queued or going on where its report is packed. -/
def PacksAfterRun (w : World) (as : List Service.Act) : Prop :=
  ∀ before after s, as = before ++ after → system.Run always (.init w) before s →
    ∀ request, Packs s.config request → ¬ s.world.unit.BusyFor (some request)

/-- A poll that is answered while the run of its request is queued or going on finds
the unit running. -/
def PollsSeen (g : Service.Config) (a : Service.Act) : Prop :=
  ∀ i t request polls, a = .resume i .resolve → g.threads i = some t →
    t.call = .generateSosReport request polls → t.status = .waits (.getAll .poll) →
    g.world.unit.BusyFor (some request) → g.world.properties.isRunning = true

/-! ## Pipelines -/

section Step

variable {c : Call} {o : Option Await} {w w' : World} {st : Status Await Exception Unit}
variable {request polls : Nat}

theorem Step.start_report (hT : Step (.generateSosReport request polls) none w w' st) :
    request = w.requests ∧ w'.requests = w.requests + 1 := by
  cases hT with
  | mkdir h => exact ⟨h, rfl⟩

theorem Step.start_pipeline (hT : Step (.pipeline request) none w w' st) :
    request ∈ w.pipelines := by
  cases hT with
  | pipeline h => exact h

/-- Only the last poll of a request makes its pipeline. -/
theorem Step.mem_pipelines (hT : Step c o w w' st) (h : request ∈ w'.pipelines) :
    request ∈ w.pipelines ∨
      ∃ polls, c = .generateSosReport request polls ∧ o = some (.getAll .poll) ∧
        w.properties.isRunning = false ∧ st = .done (.ok ()) ∧ w'.unit = w.unit := by
  cases hT with
  | finished hrunning =>
      rcases List.mem_append.mp h with hold | hnew
      · exact .inl hold
      · rw [List.mem_singleton] at hnew
        subst hnew
        exact .inr ⟨_, rfl, rfl, hrunning, rfl, rfl⟩
  | pipeline => exact .inl (List.mem_of_mem_erase h)
  | deleted hw =>
      rcases hw with rfl | rfl <;> exact .inl h
  | _ => exact .inl h

/-- A request that is answered has left its pipeline. -/
theorem Step.answered (hT : Step (.generateSosReport request polls) o w w' (.done (.ok ()))) :
    request ∈ w'.pipelines ∧ w'.unit = w.unit := by
  cases hT with
  | finished => exact ⟨List.mem_append_right _ (List.mem_singleton_self _), rfl⟩

/-- Only its pipeline takes a request from the list. -/
theorem Step.pipelines_mem (hT : Step c o w w' st) (h : request ∈ w.pipelines) :
    request ∈ w'.pipelines ∨ c = .pipeline request := by
  cases hT with
  | finished => exact .inl (List.mem_append_left _ h)
  | @pipeline request' _ _ =>
      by_cases hrequest : request = request'
      · exact .inr (by rw [hrequest])
      · exact .inl ((List.mem_erase_of_ne hrequest).mpr h)
  | deleted hw =>
      rcases hw with rfl | rfl <;> exact .inl h
  | _ => exact .inl h

/-- Only a `StartUnit` begins a run for a request. -/
theorem Step.busyFor (hT : Step c o w w' st) (h : w'.unit.BusyFor (some request)) :
    w.unit.BusyFor (some request) ∨
      ∃ polls, c = .generateSosReport request polls ∧ o = some (.startUnit request) := by
  cases hT with
  | started =>
      rcases h.of_start with hold | hnew
      · exact .inl hold
      · cases hnew
        exact .inr ⟨_, rfl, rfl⟩
  | deleted hw =>
      rcases hw with rfl | rfl <;> exact .inl h
  | _ => exact .inl h

theorem Step.requests (hT : Step c o w w' st) : w.requests ≤ w'.requests := by
  cases hT with
  | mkdir => exact Nat.le_succ _
  | deleted hw => rcases hw with rfl | rfl <;> exact le_rfl
  | _ => exact le_rfl

end Step

section Move

variable {g h : Service.Config} {a : Service.Act} {request : Nat}

theorem Packs.keep (hmove : Move Step env g a h) (hp : Packs g request) : Packs h request := by
  rcases hp with hmem | ⟨i, t, hi, hcall⟩
  · rcases hmove.runs with ⟨i, c, o, past, st, hruns, hT, hi⟩ | ⟨e, rfl, he⟩
    · rcases hT.pipelines_mem hmem with hmem' | rfl
      · exact .inl hmem'
      · exact .inr ⟨i, _, hi, rfl⟩
    · exact .inl ((env_world he).pipelines ▸ hmem)
  · obtain ⟨t', hi', hext⟩ := hmove.thread hi
    exact .inr ⟨i, t', hi', hext.call.trans hcall⟩

/-- A pipeline was there, or the step has made it. -/
theorem Packs.back (hmove : Move Step env g a h) (hp : Packs h request) :
    Packs g request ∨
      ∃ i polls past, g.Runs i (.generateSosReport request polls) (some (.getAll .poll)) a ∧
        h.threads i = some
          { call := .generateSosReport request polls, past, status := .done (.ok ()) } ∧
        g.world.properties.isRunning = false ∧ h.world.unit = g.world.unit := by
  rcases hp with hmem | ⟨i, ⟨c, past, st⟩, hi, rfl⟩
  · rcases hmove.runs with ⟨i, c, o, past, st, hruns, hT, hi⟩ | ⟨e, rfl, he⟩
    · rcases hT.mem_pipelines hmem with hold | ⟨polls, rfl, rfl, hrunning, rfl, hunit⟩
      · exact .inl (.inl hold)
      · exact .inr ⟨i, polls, past, hruns, hi, hrunning, hunit⟩
    · exact .inl (.inl ((env_world he).pipelines ▸ hmem))
  · rcases hmove.ran hi with hold | ⟨o, hruns, hT⟩
    · exact .inl (.inr ⟨i, _, hold, rfl⟩)
    · cases hruns with
      | start => exact .inl (.inl hT.start_pipeline)
      | resume hi₀ => exact .inl (.inr ⟨i, _, hi₀, rfl⟩)

end Move

/-! ## One thread for each request -/

/-- The threads that generate reports are numbered, and one whose pipeline has been
made has ended. -/
structure Numbered (g : Service.Config) : Prop where
  fresh : ∀ i t request polls, g.threads i = some t →
    t.call = .generateSosReport request polls → request < g.world.requests
  one : ∀ i j t t' request polls polls', g.threads i = some t → g.threads j = some t' →
    t.call = .generateSosReport request polls → t'.call = .generateSosReport request polls' →
    i = j
  ended : ∀ request, Packs g request → ∃ i t polls, g.threads i = some t ∧
    t.call = .generateSosReport request polls ∧ t.status = .done (.ok ())

section Numbered

variable {g h : Service.Config} {a : Service.Act} {i : Nat} {t : Service.Thread}
variable {request polls : Nat}

theorem Numbered.move (hg : Numbered g) (hmove : Move Step env g a h) : Numbered h := by
  have hrequests : g.world.requests ≤ h.world.requests := by
    rcases hmove.runs with ⟨_, _, _, _, _, _, hT, _⟩ | ⟨e, _, he⟩
    · exact hT.requests
    · exact (env_world he).requests.ge
  have hback : ∀ i t request polls, h.threads i = some t →
      t.call = .generateSosReport request polls →
      (∃ t₀, g.threads i = some t₀ ∧ t₀.call = t.call) ∨
        request = g.world.requests ∧ h.world.requests = g.world.requests + 1 ∧
          ∃ c, a = .start i c := by
    intro i t request polls hi hcall
    rcases hmove.thread_cases hi with hold | ⟨rfl, _, _, hT⟩ | ⟨_, _, _, _, hold, _, _⟩
    · exact .inl ⟨t, hold, rfl⟩
    · rw [hcall] at hT
      obtain ⟨hrequest, hsucc⟩ := hT.start_report
      exact .inr ⟨hrequest, hsucc, _, rfl⟩
    · exact .inl ⟨_, hold, rfl⟩
  refine ⟨fun i t request polls hi hcall => ?_, ?_, fun request hp => ?_⟩
  · rcases hback i t request polls hi hcall with ⟨t₀, hi₀, hcall₀⟩ | ⟨hnew, hsucc, _⟩
    · exact (hg.fresh i t₀ request polls hi₀ (hcall₀.trans hcall)).trans_le hrequests
    · omega
  · intro i j t t' request polls polls' hi hj hcall hcall'
    rcases hback i t request polls hi hcall with ⟨t₀, hi₀, hcall₀⟩ | ⟨hnew, _, c, ha⟩ <;>
      rcases hback j t' request polls' hj hcall' with ⟨t₁, hj₁, hcall₁⟩ | ⟨hnew', _, c', ha'⟩
    · exact hg.one i j t₀ t₁ request polls polls' hi₀ hj₁ (hcall₀.trans hcall)
        (hcall₁.trans hcall')
    · exact absurd (hg.fresh i t₀ request polls hi₀ (hcall₀.trans hcall)) hnew'.not_lt
    · exact absurd (hg.fresh j t₁ request polls' hj₁ (hcall₁.trans hcall')) hnew.not_lt
    · rw [ha] at ha'
      cases ha'
      rfl
  · rcases hp.back hmove with hold | ⟨i, polls, past, _, hi, _, _⟩
    · obtain ⟨i, t, polls, hi, hcall, hdone⟩ := hg.ended request hold
      obtain ⟨t', hi', hext⟩ := hmove.thread hi
      obtain rfl := hext.done _ hdone
      exact ⟨i, _, polls, hi', hcall, hdone⟩
    · exact ⟨i, _, polls, hi, rfl, rfl⟩

/-- A request that waits has no pipeline yet. -/
theorem Numbered.not_packs (hg : Numbered g) (hi : g.threads i = some t)
    (hcall : t.call = .generateSosReport request polls) {q : Await}
    (hq : t.status = .waits q) : ¬ Packs g request := by
  intro hp
  obtain ⟨j, t', polls', hj, hcall', hdone⟩ := hg.ended request hp
  obtain rfl := hg.one i j t t' request polls polls' hi hj hcall hcall'
  obtain rfl := Option.some.inj (hi.symm.trans hj)
  cases hq.symm.trans hdone

end Numbered

/-! ## Runs that have ended -/

/-- No run that a request has asked for is left where its report is packed. -/
def Rests (g : Service.Config) : Prop :=
  ∀ request, Packs g request → ¬ g.world.unit.BusyFor (some request)

/-- A poll that finds the unit at rest is the last one. -/
def LastPoll : Call → (q : Await) → (Except Exception q.Answer → Service Unit) → Prop
  | .generateSosReport request _, .getAll .poll, k =>
    ∀ props : UnitProperties, props.isRunning = false → k (.ok (some props)) =
      Prog.modify fun w => { w with pipelines := w.pipelines ++ [request] }
  | _, _, _ => True

theorem body_lastPoll (c : Call) : (body c).Each (LastPoll c) := by
  cases c with
  | generateSosReport request polls =>
      refine createReportStream_each (fun q f hq => ?_) (fun g _ => trivial)
        fun g hg props hrunning => ?_
      · cases q with
        | getAll stage => exact absurd rfl (hq stage)
        | _ => trivial
      · rw [afterQuery, hrunning, hg]
  | pipeline request => exact packReport_each (fun _ => trivial) fun _ => trivial

section Run

variable {s s' : Service.State} {a : Service.Act} {as : List Service.Act}

/-- Where every poll sees its run, a step leaves no run behind. -/
theorem Rests.step (hs : s.Obeys system Step) (heach : s.Each Queries) (hnum : Numbered s.config)
    (hg : Rests s.config) (hok : PollsSeen s.config a) (hstep : system.step s a = some s') :
    Rests s'.config := by
  intro request hp hbusy
  have hmove := (system_obeys.move hs hstep).1
  have hbusy' : s.world.unit.BusyFor (some request) ∨
      ∃ i polls,
        s.config.Runs i (.generateSosReport request polls) (some (.startUnit request)) a := by
    rcases hmove.runs with ⟨i, c, o, past, st, hruns, hT, _⟩ | ⟨e, _, he⟩
    · rcases hT.busyFor hbusy with hold | ⟨polls, rfl, rfl⟩
      · exact .inl hold
      · exact .inr ⟨i, polls, hruns⟩
    · exact .inl ((env_world he).busyFor request hbusy)
  rcases hp.back hmove with hold | ⟨i, polls, past, hruns, hi, hrunning, hunit⟩
  · rcases hbusy' with hbusy' | ⟨i, polls, hruns⟩
    · exact hg request hold hbusy'
    · cases hruns with
      | resume hi => exact hnum.not_packs hi rfl rfl hold
  · cases hruns with
    | resume hi₀ =>
        obtain rfl := answered heach hstep hi₀ rfl hi (by simp)
        rw [hunit] at hbusy
        have hseen := hok i _ request polls rfl hi₀ rfl rfl hbusy
        rw [hrunning] at hseen
        cases hseen

theorem run_rests (hrun : system.Run PollsSeen s as s') (hs : s.Obeys system Step)
    (heach : s.Each Queries) (hnum : Numbered s.config) (hg : Rests s.config) :
    Rests s'.config := by
  induction hrun with
  | nil => exact hg
  | cons hok hstep _ ih =>
      have hmove := system_obeys.move hs hstep
      exact ih hmove.2 (heach.step body_each hstep) (hnum.move hmove.1)
        (hg.step hs heach hnum hok hstep)

/-- A poll that misses the run of its request makes the pipeline. -/
theorem PollsSeen.of_rests (hs : s.Obeys system Step) (heach : s.EachFor LastPoll)
    (hstep : system.step s a = some s') (hg : Rests s'.config) : PollsSeen s.config a := by
  rintro i ⟨_, past, _⟩ request polls rfl hi rfl rfl hbusy
  by_contra hrunning
  obtain ⟨f, r, hlast, hr, hnew⟩ := heach.resume hstep hi rfl
  cases hr
  rw [hlast _ (by simpa using hrunning)] at hnew
  rcases (system_obeys.move hs hstep).1.ran hnew with hold | ⟨o, _, hT⟩
  · cases hi.symm.trans hold
  · obtain ⟨hmem, hunit⟩ := hT.answered
    exact hg request (.inl hmem) (hunit ▸ hbusy)

end Run

theorem Numbered.init (w : World) (hw : w.pipelines = []) :
    Numbered (State.init w : Service.State).config where
  fresh _ _ _ _ hi := by cases hi
  one _ _ _ _ _ _ _ hi := by cases hi
  ended request hp := by
    rcases hp with hmem | ⟨i, t, hi, _⟩
    · rw [State.config_world, State.init, hw] at hmem
      cases hmem
    · cases hi

theorem Rests.init (w : World) (hw : w.pipelines = []) :
    Rests (State.init w : Service.State).config := by
  intro request hp
  obtain ⟨i, t, polls, hi, _⟩ := (Numbered.init w hw).ended request hp
  cases hi

/-- Packing starts only after the run of its request has ended in the runs in which every
poll sees the run of its request, and in no others. -/
theorem packs_after_run {w : World} (hw : w.pipelines = []) {as : List Service.Act}
    {s : Service.State} (hrun : system.Run always (.init w) as s) :
    PacksAfterRun w as ↔ system.Run PollsSeen (.init w) as s := by
  constructor
  · intro h
    refine hrun.strengthen fun before a after s₁ s₂ has hbefore hstep => ?_
    refine .of_rests (hbefore.trace system_obeys (.init w)).2
      (hbefore.eachFor body_lastPoll (.init w)) hstep ?_
    exact h (before ++ [a]) after s₂ (by simp [has]) (hbefore.snoc trivial hstep)
  · rintro hseen before after s₁ rfl hbefore
    exact run_rests (hseen.split_at hbefore).1 (.init w) (.init w) (.init w hw) (.init w hw)

/-- A run that is guarded misses no run of the unit. -/
theorem Guarded.pollsSeen {g : Service.Config} {a : Service.Act} (h : Guarded g a) :
    PollsSeen g a :=
  fun i t _ _ ha hi _ hq hbusy => h.poll i t ha hi hq hbusy.busy

theorem packs_after_run_two : ∃ s, system.Run always (.init idleWorld) twoReports s ∧
    PacksAfterRun idleWorld twoReports := by
  have hrun : system.Run always (.init idleWorld) twoReports _ :=
    twoReports_guarded.mono fun _ _ _ => trivial
  exact ⟨_, hrun, (packs_after_run rfl hrun).mpr
    (twoReports_guarded.mono fun _ _ h => h.pollsSeen)⟩

/-! ## A late start -/

/-- The first poll of a request comes before its run has begun. -/
def lateStart : List Service.Act := startReport 0 0 ++ pollReport 0

theorem packs_before_run : ∃ s, system.Run always (.init idleWorld) lateStart s ∧
    ¬ PacksAfterRun idleWorld lateStart := by
  have hrun : system.Run always (.init idleWorld) lateStart
      (system.outcome (.init idleWorld) lateStart) := System.run_outcome rfl
  refine ⟨_, hrun, fun h => ?_⟩
  have hpacks : Packs (system.outcome (.init idleWorld) lateStart).config 0 :=
    .inl List.mem_cons_self
  exact h _ [] _ (List.append_nil _).symm hrun 0 hpacks (.inl rfl)

end RpiNestApi.SosReport
