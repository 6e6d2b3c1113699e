import RpiNestApi.Async.Ensures
import RpiNestApi.SosReport.Polling

/-
What a request leaves behind.

The report is deleted in the `finally` of the pipeline's promise, which is made
only after the loop, and which nobody awaits.
-/

namespace RpiNestApi.SosReport

open Async

/-- The `StartUnit` of the request has succeeded: it has come to its loop. -/
def Started (t : Service.Thread) : Prop := ∃ q : Await, q.Asks .poll ∧ t.Awaited q

/-- A request that was started and has ended has made its pipeline, and no pipeline's
promise, which nobody awaits, is rejected. -/
structure Cleaned (g : Service.Config) : Prop where
  packed : ∀ i t request polls r, g.threads i = some t →
    t.call = .generateSosReport request polls → Started t → t.status = .done r → Packs g request
  handled : ∀ i t request e, g.threads i = some t → t.call = .pipeline request →
    t.status ≠ .done (.error e)

/-- A pipeline that comes to its end in this step leaves no report. -/
def Deletes (g h : Service.Config) : Prop :=
  ∀ i t t' request q r, g.threads i = some t → h.threads i = some t' →
    t.call = .pipeline request → t.status = .waits q → t'.status = .done r →
    h.world.directory = false

/-- Every request that was started is cleaned up after, in every state that the steps
pass through. -/
def CleansUp (w : World) (as : List Service.Act) : Prop :=
  ∀ before after s, as = before ++ after → system.Run always (.init w) before s →
    Cleaned s.config ∧ ∀ a after' s', after = a :: after' → system.step s a = some s' →
      Deletes s.config s'.config

/-- What is awaited after the `StartUnit` settles, with a value. -/
def Succeeds (g : Service.Config) (a : Service.Act) : Prop :=
  ∀ i k t q, a = .resume i k → g.threads i = some t → t.status = .waits q →
    q.stage = .poll ∨ q.stage = .pack ∨ q.stage = .delete → k = .resolve

/-! ## How the calls end -/

/-- The answers that `Succeeds` leaves. -/
def Await.Settles (q : Await) (r : Except Exception q.Answer) : Prop :=
  q.stage = .poll ∨ q.stage = .pack ∨ q.stage = .delete → ∃ w w', answer q .resolve w = some (r, w')

/-- A request that was started returns its stream, and a pipeline is not rejected. -/
def Returns : Call → List Await → Except Exception Unit → Prop
  | .generateSosReport _ _, past, r => (∃ q ∈ past, q.Asks .poll) → r = .ok ()
  | .pipeline _, _, r => r = .ok ()

theorem succeeds_allows : system.Allows Succeeds Await.Settles := by
  intro g i k t q r hok hi hq hr hstage
  obtain rfl := hok i k t q rfl hi hq hstage
  exact ⟨_, _, hr⟩

section Ensures

variable {past : List Await}

/-- None of these promises is one of the loop. -/
def Early (past : List Await) : Prop := ∀ q ∈ past, ¬ q.Asks .poll

/-- A promise that is awaited before the loop. -/
theorem await_early {q : Await} {post : List Await → Except Exception q.Answer → Prop}
    (hpast : Early past) (hq : ¬ q.Asks .poll)
    (h : ∀ past r, Early past → post past r) :
    (await q).Ensures Await.Settles post past := by
  refine Prog.ensures_call.mpr fun r _ => h _ r fun q' hq' => ?_
  rcases List.mem_cons.mp hq' with rfl | hold
  · exact hq
  · exact hpast q' hold

/-- A promise that is awaited before the loop, and what comes after it. -/
theorem await_early_bind {α : Type} {q : Await} {f : q.Answer → Service α}
    {post : List Await → Except Exception α → Prop} (hpast : Early past) (hq : ¬ q.Asks .poll)
    (herror : ∀ past e, Early past → post past (.error e))
    (hnext : ∀ past a, Early past → (f a).Ensures Await.Settles post past) :
    ((await q).bind f).Ensures Await.Settles post past := by
  refine Prog.ensures_bind.mpr (await_early hpast hq fun past r hpast => ?_)
  cases r with
  | error e => exact herror past e hpast
  | ok a => exact hnext past a hpast

/-- A promise that is awaited after the `StartUnit`. -/
theorem await_late {q : Await} {post : List Await → Except Exception q.Answer → Prop}
    (hq : q.stage = .poll ∨ q.stage = .pack ∨ q.stage = .delete)
    (hok : ∀ w a w', answer q .resolve w = some (.ok a, w') → post (q :: past) (.ok a)) :
    (await q).Ensures Await.Settles post past := by
  refine Prog.ensures_call.mpr fun r hr => ?_
  obtain ⟨w, w', hr⟩ := hr hq
  obtain ⟨a, rfl⟩ : ∃ a, r = .ok a := answer_resolve hr
  exact hok w a w' hr

theorem waitForReportService_ensures (rounds : Nat) :
    (SosReportService.waitForReportService rounds).Ensures Await.Settles
      (fun _ r => r = .ok ()) past := by
  induction rounds generalizing past with
  | zero => exact await_late (.inl rfl) fun _ _ _ _ => rfl
  | succ rounds ih =>
      simp only [SosReportService.waitForReportService, SosReportService.isReportServiceRunning,
        Systemd1Service.getUnitProperties, Systemd1Service.loadUnit, Systemd1Service.getManager,
        Prog.bind_def, Prog.ensures_bind]
      refine await_late (.inl rfl) fun _ _ _ _ => await_late (.inl rfl) fun _ _ _ _ =>
        await_late (.inl rfl) fun _ _ _ _ => await_late (.inl rfl) fun _ _ _ _ =>
        await_late (.inl rfl) fun w a w' hr => ?_
      cases hr
      exact Prog.ensures_ite.mpr ⟨fun _ => ih, fun _ => rfl⟩

theorem check_ensures {post : List Await → Except Exception Bool → Prop} (hpast : Early past)
    (h : ∀ past r, Early past → post past r) :
    (SosReportService.isReportServiceRunning .check).Ensures Await.Settles post past := by
  have herror : ∀ past e, Early past → post past (.error e) := fun past e => h past _
  simp only [SosReportService.isReportServiceRunning, Systemd1Service.getUnitProperties,
    Systemd1Service.loadUnit, Systemd1Service.getManager, Prog.bind_def, Prog.bind_assoc]
  refine await_early_bind hpast (by simp [Await.Asks]) herror fun past _ hpast => ?_
  refine await_early_bind hpast (by simp [Await.Asks]) herror fun past _ hpast => ?_
  refine await_early_bind hpast (by simp [Await.Asks]) herror fun past _ hpast => ?_
  refine await_early_bind hpast (by simp [Await.Asks]) herror fun past props hpast => ?_
  cases props with
  | none => exact h past _ hpast
  | some props => exact h past _ hpast

/-- A request that ends before its loop. -/
theorem Early.returns {request polls : Nat} {r : Except Exception Unit} (hpast : Early past) :
    Returns (.generateSosReport request polls) past r := by
  rintro ⟨q, hq, hasks⟩
  exact absurd hasks (hpast q hq)

/-- What a request does once the check has been answered. -/
theorem checked_ensures {request polls : Nat} (hpast : Early past) (running : Bool) :
    (if running then throw (.conflict "Report service already running")
      else do
        Systemd1Service.startUnit request
        SosReportService.waitForReportService polls
        Prog.modify fun w => { w with pipelines := w.pipelines ++ [request] } :
        Service Unit).Ensures Await.Settles (Returns (.generateSosReport request polls)) past := by
  have herror : ∀ past e, Early past →
      Returns (.generateSosReport request polls) past (.error e) := fun _ _ hpast => hpast.returns
  refine Prog.ensures_ite.mpr ⟨fun _ => hpast.returns, fun _ => ?_⟩
  simp only [Systemd1Service.startUnit, Systemd1Service.getManager, Prog.bind_def,
    Prog.bind_assoc]
  refine await_early_bind hpast (by simp [Await.Asks]) herror fun past _ hpast => ?_
  refine await_early_bind hpast (by simp [Await.Asks]) herror fun past _ hpast => ?_
  refine Prog.ensures_bind.mpr ((waitForReportService_ensures polls).mono ?_)
  rintro past _ rfl _ _
  rfl

theorem createReportStream_ensures (request polls : Nat) :
    (SosReportService.createReportStream request polls).Ensures Await.Settles
      (Returns (.generateSosReport request polls)) [] := by
  have hearly : Early [] := fun q hq => by cases hq
  simp only [SosReportService.createReportStream, SosReportService.ensureUploadDirectoryExists,
    Prog.bind_def, Prog.pure_def, Prog.tryCatch_def, Prog.ensures_bind, Prog.ensures_catchWith]
  refine await_early hearly (by simp [Await.Asks]) fun past r hpast => ?_
  -- Where no directory can be made the request goes on as well.
  rcases r with e | _
  all_goals
    refine check_ensures hpast fun past r hpast => ?_
    rcases r with e | running
    · exact hpast.returns
    · exact checked_ensures hpast running

theorem packReport_ensures : SosReportService.packReport.Ensures Await.Settles
    (fun _ r => r = .ok ()) [] := by
  simp only [SosReportService.packReport, SosReportService.deleteReportDirectory, Prog.finallyDo,
    Prog.pure_def, Prog.tryCatch_def, Prog.ensures_bind, Prog.ensures_catchWith]
  refine await_late (.inr (.inl rfl)) fun _ _ _ _ => ?_
  exact await_late (.inr (.inr rfl)) fun _ _ _ _ => rfl

end Ensures

theorem body_ensures (c : Call) : (body c).Ensures Await.Settles (Returns c) [] := by
  cases c with
  | generateSosReport request polls => exact createReportStream_ensures request polls
  | pipeline request => exact packReport_ensures

/-! ## Runs -/

/-- A deletion is the last thing a pipeline does. -/
def DeletesLast : Call → (q : Await) → (Except Exception q.Answer → Service Unit) → Prop
  | .pipeline _, .rm, k => ∀ r w, ((k r).advance w).2 = w
  | _, _, _ => True

theorem body_deletesLast (c : Call) : (body c).Each (DeletesLast c) := by
  cases c with
  | generateSosReport request polls =>
      exact createReportStream_each (fun _ _ _ => trivial) (fun _ _ => trivial) fun _ _ => trivial
  | pipeline request =>
      refine packReport_each (fun _ => trivial) fun r _ w => ?_
      cases r <;> rfl

/-- A request that was answered has made its pipeline. -/
def Answered (g : Service.Config) : Prop :=
  ∀ i t request polls, g.threads i = some t → t.call = .generateSosReport request polls →
    t.status = .done (.ok ()) → Packs g request

section Run

variable {g h : Service.Config} {s s' : Service.State} {a : Service.Act} {as : List Service.Act}

theorem Answered.move (hg : Answered g) (hmove : Move Step env g a h) : Answered h := by
  rintro i ⟨_, past, _⟩ request polls hi rfl rfl
  rcases hmove.ran hi with hold | ⟨o, _, hT⟩
  · exact (hg i _ request polls hold rfl rfl).keep hmove
  · exact .inl hT.answered.1

/-- A step that ends a pipeline answers its deletion. -/
theorem Step.ends_pipeline {request : Nat} {o : Option Await} {w w' : World}
    {r : Except Exception Unit} (hT : Step (.pipeline request) o w w' (.done r)) :
    o = some .rm := by
  cases hT with
  | deleted => rfl

theorem deletes_step (hs : s.Obeys system Step) (heach : s.EachFor DeletesLast)
    (hok : Succeeds s.config a) (hstep : system.step s a = some s') :
    Deletes s.config s'.config := by
  rintro i ⟨_, past, _⟩ ⟨c', past', _⟩ request q r hi hi' rfl rfl rfl
  rcases (system_obeys.move hs hstep).1.ran hi' with hold | ⟨o, hruns, hT⟩
  · cases hi.symm.trans hold
  · cases hruns with
    | start hi₀ => cases hi.symm.trans hi₀
    | @resume past₀ q₀ k hi₀ =>
        cases hi.symm.trans hi₀
        cases hT.ends_pipeline
        obtain rfl := hok i k _ .rm rfl hi rfl (.inr (.inr rfl))
        obtain ⟨c, past, q, f, htask, r, hr, rfl⟩ := System.step_resume hstep
        have hthread : s.config.threads i = some { call := c, past, status := .waits q } := by
          simp [State.config, htask, Task.thread, Suspended.status]
        cases hi.symm.trans hthread
        cases hr
        show (((f _).advance _).2).directory = false
        rw [(heach i _ htask).1]

theorem Answered.cleaned (hg : Answered s.config) (hensures : s.Ensures Await.Settles Returns) :
    Cleaned s.config where
  packed := by
    rintro i ⟨_, past, _⟩ request polls r hi rfl ⟨q, hasks, hq⟩ rfl
    obtain rfl := hensures.done hi rfl ⟨q, Thread.awaited_done.mp hq, hasks⟩
    exact hg i _ request polls hi rfl rfl
  handled := by
    rintro i ⟨_, past, _⟩ request e hi rfl rfl
    cases hensures.done hi rfl

theorem run_answered (hrun : system.Run Succeeds s as s') (hs : s.Obeys system Step)
    (hg : Answered s.config) : Answered s'.config :=
  hrun.invariant Answered system_obeys (fun _ _ _ _ hmove hg => hg.move hmove) hs hg

/-- A request is cleaned up after in every run in which all that it awaits after its
`StartUnit` succeeds. -/
theorem cleans_up {w : World} (hrun : system.Run Succeeds (.init w) as s) : CleansUp w as := by
  intro before after s₁ has hbefore
  subst has
  obtain ⟨hbefore', hafter⟩ := hrun.split_at hbefore
  have hanswered : Answered s₁.config :=
    run_answered hbefore' (.init w) fun i t _ _ hi => by cases hi
  refine ⟨hanswered.cleaned (hbefore'.ensures body_ensures succeeds_allows (.init w)), ?_⟩
  rintro a after' s' rfl hstep
  cases hafter with
  | cons hok _ _ =>
      exact deletes_step (hbefore'.trace system_obeys (.init w)).2
        (hbefore'.eachFor body_deletesLast (.init w)) hok hstep

end Run

/-- Where every answer is a value, whatever is awaited succeeds. -/
theorem run_succeeds {s s' : Service.State} {as : List Service.Act}
    (hrun : system.Run always s as s') (has : ∀ i k, .resume i k ∈ as → k = .resolve) :
    system.Run Succeeds s as s' := by
  refine hrun.strengthen ?_
  rintro before a after s₁ s₂ rfl _ _ i k t q rfl _ _ _
  exact has i k (by simp)

theorem cleans_up_two : ∃ s, system.Run Succeeds (.init idleWorld) twoReports s ∧
    CleansUp idleWorld twoReports := by
  have hrun : system.Run Succeeds (.init idleWorld) twoReports
      (system.outcome (.init idleWorld) twoReports) := by
    refine run_succeeds (twoReports_guarded.mono fun _ _ _ => trivial) fun i k hmem => ?_
    simp [twoReports, startReport, pollReport] at hmem
    tauto
  exact ⟨_, hrun, cleans_up hrun⟩

/-! ## A failed poll, and a failed pipeline -/

/-- The first poll of a request fails, while its run has written a report. -/
def failedPoll : List Service.Act :=
  startReport 0 0 ++
    [.env (.begin .active "running"), .env .write, .resume 0 .resolve,
      .resume 0 (.reject (.error "No reply"))]

/-- The client goes away while its report is packed. -/
def abortedReport : List Service.Act :=
  startReport 0 0 ++
    [.env (.begin .active "running"), .env .write, .env (.goOn .inactive "dead")] ++
    pollReport 0 ++
    [.start 1 (.pipeline 0), .resume 1 (.reject (.error "Premature close")), .resume 1 .resolve]

theorem cleanup_missed :
    (∃ s, system.Run always (.init idleWorld) failedPoll s ∧ ¬ CleansUp idleWorld failedPoll) ∧
      ∃ s, system.Run always (.init idleWorld) abortedReport s ∧
        ¬ CleansUp idleWorld abortedReport := by
  have hpoll : system.Run always (.init idleWorld) failedPoll
      (system.outcome (.init idleWorld) failedPoll) := System.run_outcome rfl
  have haborted : system.Run always (.init idleWorld) abortedReport
      (system.outcome (.init idleWorld) abortedReport) := System.run_outcome rfl
  refine ⟨⟨_, hpoll, fun h => ?_⟩, ⟨_, haborted, fun h => ?_⟩⟩
  · have hcleaned := (h _ [] _ (List.append_nil _).symm hpoll).1
    rcases hcleaned.packed 0 _ 0 1 _ rfl rfl ⟨.timeout, rfl, .inr (.tail _ (.head _))⟩ rfl with
      hmem | ⟨i, t, hi, hcall⟩
    · cases hmem
    · have hstart := hpoll.started_init hi
      simp [hcall, failedPoll, startReport] at hstart
  · have hcleaned := (h _ [] _ (List.append_nil _).symm haborted).1
    exact hcleaned.handled 1 _ 0 _ rfl rfl rfl

end RpiNestApi.SosReport
