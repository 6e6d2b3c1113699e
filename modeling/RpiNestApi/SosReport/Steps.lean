import RpiNestApi.Async.Each
import RpiNestApi.Async.Follow
import RpiNestApi.SosReport.Services

/-
What one step of each request may do.

`Step c o w w' st` is the transition table of the call `c`: resumed from the await
`o`, or started when `o = none`, it takes the world `w` to `w'` and stands at
`st`.  What the table does not see, how a state query was answered, is known from
`Queries`.
-/

namespace RpiNestApi.SosReport

open Async

/-- The awaits of a state query, and the timer of the loop. -/
def Await.Asks (stage : Stage) : Await → Prop
  | .getMethodInterface s => s = stage
  | .loadUnit s => s = stage
  | .getPropertiesInterface s => s = stage
  | .getAll s => s = stage
  | .timeout => stage = .poll
  | .unknown => stage = .poll
  | _ => False

theorem Await.Asks.stage {stage : Stage} {q : Await} (h : q.Asks stage) : q.stage = stage := by
  cases q with
  | timeout => exact h.symm
  | unknown => exact h.symm
  | mkdir => exact h.elim
  | startUnit request => exact h.elim
  | pipeline => exact h.elim
  | rm => exact h.elim
  | _ => exact h

inductive Step : Call → Option Await → World → World → Status Await Exception Unit → Prop
  | reject {request polls q w} (e : Exception) :
      Step (.generateSosReport request polls) (some q) w w (.done (.error e))
  | mkdir {request polls w} (h : request = w.requests) :
      Step (.generateSosReport request polls) none w { w with requests := w.requests + 1 }
        (.waits .mkdir)
  | check {request polls q q' w} (hq : q.stage = .check) (hq' : q'.Asks .check) :
      Step (.generateSosReport request polls) (some q) w w (.waits q')
  | pass {request polls w} (h : w.properties.isRunning = false) :
      Step (.generateSosReport request polls) (some (.getAll .check)) w w
        (.waits (.getMethodInterface .start))
  | start {request polls w} :
      Step (.generateSosReport request polls) (some (.getMethodInterface .start)) w w
        (.waits (.startUnit request))
  | started {request polls q' w} (hq' : q'.Asks .poll) :
      Step (.generateSosReport request polls) (some (.startUnit request)) w
        { w with unit := w.unit.start (some request) } (.waits q')
  | poll {request polls q q' w} (hq : q.Asks .poll) (hq' : q'.Asks .poll) :
      Step (.generateSosReport request polls) (some q) w w (.waits q')
  | finished {request polls w} (h : w.properties.isRunning = false) :
      Step (.generateSosReport request polls) (some (.getAll .poll)) w
        { w with pipelines := w.pipelines ++ [request] } (.done (.ok ()))
  | pipeline {request w} (h : request ∈ w.pipelines) :
      Step (.pipeline request) none w { w with pipelines := w.pipelines.erase request }
        (.waits .pipeline)
  | packed {request w} : Step (.pipeline request) (some .pipeline) w w (.waits .rm)
  | deleted {request w w' r} (h : w' = w ∨ w' = { w with directory := false }) :
      Step (.pipeline request) (some .rm) w w' (.done r)

/-- The environment makes no request and no pipeline, and begins no run for a
request. -/
structure EnvMoves (w w' : World) : Prop where
  requests : w'.requests = w.requests
  pipelines : w'.pipelines = w.pipelines
  busyFor : ∀ request, w'.unit.BusyFor (some request) → w.unit.BusyFor (some request)

theorem env_world {e : Env} {w w' : World} (he : env e w = some w') : EnvMoves w w' := by
  cases e with
  | start =>
      cases he
      exact ⟨rfl, rfl, fun request hbusy => hbusy.of_start.resolve_right (by simp)⟩
  | begin activeState subState =>
      obtain ⟨unit, hunit, rfl⟩ := Option.map_eq_some_iff.mp he
      exact ⟨rfl, rfl, fun request hbusy => hbusy.of_beginRun hunit⟩
  | goOn activeState subState =>
      obtain ⟨unit, hunit, rfl⟩ := Option.map_eq_some_iff.mp he
      exact ⟨rfl, rfl, fun request hbusy => hbusy.of_goOn hunit⟩
  | write =>
      simp only [env] at he
      split at he
      · cases he
        exact ⟨rfl, rfl, fun _ hbusy => hbusy⟩
      · cases he

section Within

variable {T : Option Await → World → World → Status Await Exception Unit → Prop}
variable {o : Option Await} {w w₀ : World}

theorem forall_choice {P : Choice → Prop} :
    (∀ k, P k) ↔ P .resolve ∧ P .undefined ∧ ∀ e, P (.reject e) :=
  ⟨fun h => ⟨h _, h _, fun _ => h _⟩, fun h k => k.casesOn h.1 h.2.1 h.2.2⟩

/-- A rejection leaves the world alone. -/
theorem answer_reject {q : Await} {e : Exception} {r : Except Exception q.Answer × World}
    (h : answer q (.reject e) w = some r) : r = (.error e, w) := by
  cases q <;> cases h <;> rfl

/-- Only a state query settles without a value. -/
theorem answer_undefined {q : Await} {r : Except Exception q.Answer × World}
    (h : answer q .undefined w = some r) : ∃ stage, q = .getAll stage := by
  cases q with
  | getAll stage => exact ⟨stage, rfl⟩
  | _ => cases h

theorem answer_resolve {q : Await} {r : Except Exception q.Answer × World}
    (h : answer q .resolve w = some r) : ∃ a, r.1 = .ok a := by
  cases q <;> cases h <;> exact ⟨_, rfl⟩

/-- An await that is no state query's last. -/
theorem await_within {q : Await} {post : q.Answer → Option Await → World → World → Prop}
    (hq : ∀ stage, q ≠ .getAll stage) (hwaits : T o w₀ w (.waits q))
    (hpost : ∀ w a w', answer q .resolve w = some (.ok a, w') → post a (some q) w w')
    (hreject : ∀ w e, T (some q) w w (.done (.error e))) :
    (await q).Within answer T post o w₀ w := by
  rw [await, Prog.within_call, forall_choice]
  refine ⟨hwaits, fun w' r hr => ?_, fun w' r hr => ?_, fun e w' r hr => ?_⟩
  · obtain ⟨a, ha⟩ := answer_resolve hr
    obtain ⟨r, w''⟩ := r
    obtain rfl : r = .ok a := ha
    exact hpost _ _ _ hr
  · obtain ⟨stage, rfl⟩ := answer_undefined hr
    exact absurd rfl (hq stage)
  · obtain rfl := answer_reject hr
    exact hreject w' e

/-- A state query, at a stage where the table has its awaits. -/
theorem query_within {stage : Stage} {post : Bool → Option Await → World → World → Prop}
    (hwaits : T o w₀ w (.waits (.getMethodInterface stage)))
    (hasks : ∀ q q' w, q.Asks stage → q'.Asks stage → T (some q) w w (.waits q'))
    (hreject : ∀ q w e, q.Asks stage → T (some q) w w (.done (.error e)))
    (hpost : ∀ w, post w.properties.isRunning (some (.getAll stage)) w w) :
    (SosReportService.isReportServiceRunning stage).Within answer T post o w₀ w := by
  simp only [SosReportService.isReportServiceRunning, Systemd1Service.getUnitProperties,
    Systemd1Service.loadUnit, Systemd1Service.getManager, Prog.bind_def, Prog.within_bind]
  refine await_within (by simp) hwaits (fun w _ w' hr => ?_) fun w e => hreject _ w e rfl
  cases hr
  refine await_within (by simp) (hasks _ _ _ rfl rfl) (fun w _ w' hr => ?_)
    fun w e => hreject _ w e rfl
  cases hr
  refine await_within (by simp) (hasks _ _ _ rfl rfl) (fun w _ w' hr => ?_)
    fun w e => hreject _ w e rfl
  cases hr
  rw [await, Prog.within_call, forall_choice]
  refine ⟨hasks _ _ _ rfl rfl, fun w r hr => ?_, fun w r hr => ?_, fun e w r hr => ?_⟩
  · cases hr
    exact hpost w
  · cases hr
    exact hreject _ w _ rfl
  · cases hr
    exact hreject _ w _ rfl

end Within

section Obeys

variable {request polls : Nat} {o : Option Await} {w w₀ : World}

/-- The loop, from its first timer on. -/
theorem waitForReportService_within (rounds : Nat)
    (hwaits : ∀ q : Await, q.Asks .poll →
      Step (.generateSosReport request polls) o w₀ w (.waits q)) :
    (SosReportService.waitForReportService rounds).Within answer
      (Step (.generateSosReport request polls))
      (fun _ o w₀ w => w₀ = w ∧ o = some (.getAll .poll) ∧ w.properties.isRunning = false)
      o w₀ w := by
  have hasks : ∀ q q' w, q.Asks .poll → q'.Asks .poll →
      Step (.generateSosReport request polls) (some q) w w (.waits q') :=
    fun q q' w hq hq' => .poll hq hq'
  induction rounds generalizing o w₀ w with
  | zero =>
      exact await_within (by simp) (hwaits .unknown rfl) (fun w a w' hr => by cases hr)
        fun w e => .reject e
  | succ rounds ih =>
      simp only [SosReportService.waitForReportService, Prog.bind_def, Prog.within_bind]
      refine await_within (by simp) (hwaits .timeout rfl) (fun w a w' hr => ?_)
        fun w e => .reject e
      cases hr
      refine query_within (hasks _ _ _ rfl rfl) hasks (fun q w e _ => .reject e) fun w => ?_
      refine Prog.within_ite.mpr ⟨fun _ => ih fun q hq => hasks _ _ _ rfl hq, fun h => ?_⟩
      exact ⟨rfl, rfl, by simpa using h⟩

/-- What a request does once the state query has told whether the unit runs. -/
theorem queried_within {running : Bool} (h : w.properties.isRunning = running) :
    (if running then throw (.conflict "Report service already running")
      else do
        Systemd1Service.startUnit request
        SosReportService.waitForReportService polls
        Prog.modify fun w => { w with pipelines := w.pipelines ++ [request] } :
        Service Unit).Within answer (Step (.generateSosReport request polls))
      (fun a o w₀ w => Step (.generateSosReport request polls) o w₀ w (.done (.ok a)))
      (some (.getAll .check)) w w := by
  refine Prog.within_ite.mpr ⟨fun _ => .reject _, fun hrunning => ?_⟩
  simp only [Systemd1Service.startUnit, Systemd1Service.getManager, Prog.modify, Prog.bind_def,
    Prog.within_bind]
  refine await_within (by simp) (.pass (by simpa [hrunning] using h)) (fun w a w' hr => ?_)
    fun w e => .reject e
  cases hr
  refine await_within (by simp) .start (fun w a w' hr => ?_) fun w e => .reject e
  cases hr
  refine (waitForReportService_within polls fun q hq => .started hq).mono ?_
  rintro a o w₀ w ⟨rfl, rfl, hrunning⟩
  exact .finished hrunning

theorem createReportStream_follows (h : request = w.requests) :
    (body (.generateSosReport request polls)).Follows answer
      (Step (.generateSosReport request polls)) none w { w with requests := w.requests + 1 } := by
  simp only [Prog.Follows, body, SosReportService.createReportStream,
    SosReportService.ensureUploadDirectoryExists, Prog.bind_def, Prog.pure_def, Prog.tryCatch_def,
    Prog.within_bind, Prog.within_catchWith]
  have hasks : ∀ q q' w, q.Asks .check → q'.Asks .check →
      Step (.generateSosReport request polls) (some q) w w (.waits q') :=
    fun q q' w hq hq' => .check hq.stage hq'
  refine await_within (by simp) (.mkdir h) (fun w a w' hr => ?_) fun w e => ?_
  · cases hr
    exact query_within (.check rfl rfl) hasks (fun q w e _ => .reject e) fun w =>
      queried_within rfl
  · exact query_within (.check rfl rfl) hasks (fun q w e _ => .reject e) fun w =>
      queried_within rfl

theorem deleteReportDirectory_within (hwaits : Step (.pipeline request) o w₀ w (.waits .rm))
    {r : Except Exception Unit} :
    (SosReportService.deleteReportDirectory).Within answer (Step (.pipeline request))
      (fun _ o w₀ w => Step (.pipeline request) o w₀ w (.done r)) o w₀ w := by
  simp only [SosReportService.deleteReportDirectory, Prog.pure_def, Prog.tryCatch_def,
    Prog.within_catchWith]
  refine await_within (by simp) hwaits (fun w a w' hr => ?_) fun w e => .deleted (.inl rfl)
  cases hr
  exact .deleted (.inr rfl)

theorem packReport_follows (h : request ∈ w.pipelines) :
    (body (.pipeline request)).Follows answer (Step (.pipeline request)) none w
      { w with pipelines := w.pipelines.erase request } := by
  simp only [Prog.Follows, body, SosReportService.packReport, Prog.finallyDo, Prog.within_bind,
    Prog.within_catchWith]
  refine await_within (by simp) (.pipeline h) (fun w a w' hr => ?_) fun w e => ?_
  · cases hr
    exact deleteReportDirectory_within .packed
  · exact deleteReportDirectory_within .packed

/-- The programs take no step that is not in the table. -/
theorem system_obeys : system.Obeys Step := by
  intro c w w₁ hw
  cases c with
  | generateSosReport request polls =>
      simp only [system, accept] at hw
      split at hw
      · rename_i h
        cases hw
        exact createReportStream_follows h
      · cases hw
  | pipeline request =>
      simp only [system, accept] at hw
      split at hw
      · rename_i h
        cases hw
        exact packReport_follows h
      · cases hw

end Obeys

/-! ## State queries -/

/-- A state query that fails ends the request, and so does the first one where the
unit runs. -/
def Queries : (q : Await) → (Except Exception q.Answer → Service Unit) → Prop
  | .getAll stage, k =>
    (∀ e, k (.error e) = .throw e) ∧ (∃ e, k (.ok none) = .throw e) ∧
      (stage = .check → ∀ props : UnitProperties, props.isRunning = true →
        k (.ok (some props)) = .throw (.conflict "Report service already running"))
  | _, _ => True

/-- How a state query goes on from its answer. -/
def afterQuery (g : Bool → Service Unit) :
    Except Exception (Option UnitProperties) → Service Unit
  | .ok (some props) => g props.isRunning
  | .ok none => .throw (.error ("Could not get " ++ SYSTEMD_SERVICE_NAME ++ " unit properties"))
  | .error e => .throw e

section Each

variable {P : (q : Await) → (Except Exception q.Answer → Service Unit) → Prop}

theorem isReportServiceRunning_each {stage : Stage} {g : Bool → Service Unit}
    (hother : ∀ q f, (∀ stage, q ≠ .getAll stage) → P q f)
    (hquery : P (.getAll stage) (afterQuery g)) (hg : ∀ running, (g running).Each P) :
    ((SosReportService.isReportServiceRunning stage).bind g).Each P := by
  simp only [SosReportService.isReportServiceRunning, Systemd1Service.getUnitProperties,
    Systemd1Service.loadUnit, Systemd1Service.getManager, await, Prog.bind_def, Prog.bind_assoc,
    Prog.each_call_bind]
  refine ⟨hother _ _ (by simp), fun _ => ⟨hother _ _ (by simp), fun _ =>
    ⟨hother _ _ (by simp), fun _ => ⟨?_, fun props => ?_⟩⟩⟩⟩
  · convert hquery using 1
    funext r
    rcases r with e | _ | props <;> rfl
  · cases props with
    | none => trivial
    | some props => exact hg props.isRunning

theorem waitForReportService_each {g : Unit → Service Unit}
    (hother : ∀ q f, (∀ stage, q ≠ .getAll stage) → P q f)
    (hpoll : ∀ g', g' false = g () → P (.getAll .poll) (afterQuery g')) (hg : (g ()).Each P)
    (rounds : Nat) : ((SosReportService.waitForReportService rounds).bind g).Each P := by
  induction rounds with
  | zero => exact Prog.each_call_bind.mpr ⟨hother _ _ (by simp), fun _ => hg⟩
  | succ rounds ih =>
      simp only [SosReportService.waitForReportService, await, Prog.bind_def, Prog.bind_assoc,
        Prog.each_call_bind]
      refine ⟨hother _ _ (by simp), fun _ =>
        isReportServiceRunning_each hother (hpoll _ rfl) fun running => ?_⟩
      cases running with
      | true => exact ih
      | false => exact hg

/-- The check rejects where the unit runs, and the loop ends where it does not. -/
theorem createReportStream_each {request polls : Nat}
    (hother : ∀ q f, (∀ stage, q ≠ .getAll stage) → P q f)
    (hcheck : ∀ g, g true = .throw (.conflict "Report service already running") →
      P (.getAll .check) (afterQuery g))
    (hpoll : ∀ g,
      g false = Prog.modify (fun w => { w with pipelines := w.pipelines ++ [request] }) →
        P (.getAll .poll) (afterQuery g)) :
    (body (.generateSosReport request polls)).Each P := by
  have hrest : ((SosReportService.isReportServiceRunning .check).bind fun running =>
      if running then .throw (.conflict "Report service already running")
      else (Systemd1Service.startUnit request).bind fun _ =>
        (SosReportService.waitForReportService polls).bind fun _ =>
          Prog.modify fun w => { w with pipelines := w.pipelines ++ [request] }).Each P := by
    refine isReportServiceRunning_each hother (hcheck _ rfl) fun running => ?_
    cases running with
    | true => trivial
    | false =>
        simp only [Systemd1Service.startUnit, Systemd1Service.getManager, await, Prog.bind_def,
          Prog.bind_assoc, Prog.each_call_bind, Bool.false_eq_true, if_false]
        refine ⟨hother _ _ (by simp), fun _ => ⟨hother _ _ (by simp), fun _ => ?_⟩⟩
        exact waitForReportService_each (g := fun _ => Prog.modify _) hother hpoll
          (fun w => trivial) polls
  exact Prog.each_call_catch_bind.mpr ⟨hother _ _ (by simp), fun _ => hrest, fun _ => hrest⟩

/-- A pipeline packs, and deletes whatever became of it. -/
theorem packReport_each {request : Nat} (hpipeline : ∀ f, P .pipeline f)
    (hrm : ∀ r : Except Exception Unit, P .rm fun _ => match r with
      | .ok a => .ret a
      | .error e => .throw e) : (body (.pipeline request)).Each P := by
  have hdelete : ∀ r : Except Exception Unit,
      (SosReportService.deleteReportDirectory.bind fun _ => match r with
        | .ok a => .ret a
        | .error e => .throw e).Each P := by
    intro r
    refine Prog.each_call_catch_bind.mpr ⟨?_, fun _ => ?_, fun _ => ?_⟩
    · convert hrm r using 1
      funext r'
      cases r' <;> rfl
    · cases r <;> trivial
    · cases r <;> trivial
  refine ⟨hpipeline _, fun r => ?_⟩
  cases r with
  | ok a => exact hdelete (.ok a)
  | error e => exact hdelete (.error e)

end Each

theorem queries_of_other (q : Await) (f : Except Exception q.Answer → Service Unit)
    (hq : ∀ stage, q ≠ .getAll stage) : Queries q f := by
  cases q with
  | getAll stage => exact absurd rfl (hq stage)
  | _ => trivial

theorem body_each (c : Call) : (body c).Each Queries := by
  cases c with
  | generateSosReport request polls =>
      refine createReportStream_each queries_of_other (fun g hg => ?_) fun g _ => ?_
      · refine ⟨fun e => rfl, ⟨_, rfl⟩, fun _ props hrunning => ?_⟩
        rw [afterQuery, hrunning, hg]
      · exact ⟨fun e => rfl, ⟨_, rfl⟩, fun hstage => by cases hstage⟩
  | pipeline request => exact packReport_each (fun _ => trivial) fun _ => trivial

end RpiNestApi.SosReport
