import Mathlib.Tactic.IntervalCases
import RpiNestApi.Network.Checkpoints

/-
The error path of an update.

An update that runs alone changes nothing before it has made its checkpoint.  The
checkpoint is what undoes the rest: an update that fails after it leaves the
checkpoint to expire, and the settings to be restored by it.
-/

namespace RpiNestApi.Network

open Async Checkpointed

variable {η : Host} {w : World}

/-- The run is of the call `i` alone, and no checkpoint expires in it. -/
def OnlyRuns (i : Nat) (_ : Service.Config) : Service.Act → Prop
  | .start j _ => j = i
  | .resume j _ => j = i
  | .env _ => False

/-- The call updates the device, and makes these settings of its profile in `w`. -/
def Call.Edits (η : Host) (w : World) (device : ObjectPath) (settings : VariantParentObject)
    (c : Call) : Prop :=
  ∃ updateSettings, c.Updates η device updateSettings ∧
    updateSettings.apply (η.getSettings (w.networkManager.saved (η.profile device))) =
      .ok settings

/-- The checkpoint `id` of the device is live and keeps what was saved in `w`.
Where it expires, all of `w` is back. -/
structure RollsBack (η : Host) (w w' : World) (device : ObjectPath) (id : String) : Prop where
  live : { id := checkpointPath id, key := device,
           snapshot := w.networkManager.saved (η.profile device) } ∈ w'.networkManager.live
  expires : ∃ w'', η.env (.expire (checkpointPath id)) w' = some w'' ∧
    w''.networkManager = w.networkManager

/-- What a rejected update has left behind, by the promise it was rejected at.  The
device is that of its interface, the settings are those of its body. -/
inductive Rejected (η : Host) (w : World) (t : Service.Thread) (w' : World) : Prop
  | unchanged (hnone : ∀ connection settings id, ¬ t.Awaited (.update connection settings id))
      (h : w'.networkManager = w.networkManager)
  | updateFailed {device settings id} (hedits : t.call.Edits η w device settings)
      (hlast : t.past.head? = some (.update (η.profile device) settings id))
      (hsaved : w'.networkManager.saved = w.networkManager.saved)
      (h : RollsBack η w w' device id)
  | getAppliedConnectionFailed {device settings id}
      (hedits : t.call.Edits η w device settings)
      (hlast : t.past.head? = some (.getAppliedConnection device settings id))
      (hsaved : w'.networkManager.saved =
        Function.update w.networkManager.saved (η.profile device) settings)
      (h : RollsBack η w w' device id)

/-! ## How far an update has got -/

/-- The thread waits for `q`, or was rejected there. -/
def StopsAt (t : Service.Thread) (q : Await) : Prop :=
  t.status = .waits q ∨ ∃ e, t.status = .done (.error e) ∧ t.past.head? = some q

/-- `networkManager` is that of `w` with the checkpoint `id`. -/
def Created (η : Host) (w : World) (device : ObjectPath) (id : String)
    (networkManager : Store ObjectPath ObjectPath ObjectPath VariantParentObject) : Prop :=
  w.networkManager.create η.profile (checkpointPath id) device = some networkManager

inductive Stage (η : Host) (w : World) (w' : World) (t : Service.Thread) : Prop
  | early (hstatus : ∀ q, t.status = .waits q → q.Early)
      (hedits : ∀ device settings, t.status = .waits (.checkpointCreate device settings) →
        t.call.Edits η w device settings)
      (hnone : ∀ connection settings id, ¬ t.Awaited (.update connection settings id))
      (h : w'.networkManager = w.networkManager)
  | held {device settings id} (hedits : t.call.Edits η w device settings)
      (hstop : StopsAt t (.update (η.profile device) settings id))
      (h : Created η w device id w'.networkManager)
  | saved {device settings id networkManager} (hedits : t.call.Edits η w device settings)
      (hstop : StopsAt t (.getAppliedConnection device settings id))
      (h : Created η w device id networkManager)
      (hsave : w'.networkManager = networkManager.save (η.profile device) settings)
  | finished {r} (hstatus : t.status = .done (.ok r))

theorem StopsAt.eq {c : Call} {past : List Await} {p q : Await}
    (h : StopsAt ({ call := c, past, status := .waits p } : Service.Thread) q) : p = q := by
  rcases h with h | ⟨_, h, _⟩
  · exact Status.waits.inj h
  · cases h

theorem Stage.of_early {w' : World} {c : Call} {past : List Await}
    {st : Status Await Exception Response} (hstatus : ∀ q, st = .waits q → q.Early)
    (hedits : ∀ device settings, st = .waits (.checkpointCreate device settings) →
      c.Edits η w device settings)
    (hpast : ∀ connection settings id, Await.update connection settings id ∉ past)
    (h : w'.networkManager = w.networkManager) :
    Stage η w w' { call := c, past, status := st } := by
  refine .early hstatus hedits (fun connection settings id hq => ?_) h
  rcases hq with hq | hq
  · have hearly := hstatus _ hq
    simp [Await.Early, Await.Reads] at hearly
  · exact hpast connection settings id hq

theorem Stage.of_ended {w' : World} {c : Call} {past : List Await} {r : Except Exception Response}
    (hpast : ∀ connection settings id, Await.update connection settings id ∉ past)
    (h : w'.networkManager = w.networkManager) :
    Stage η w w' { call := c, past, status := .done r } :=
  .of_early (by simp) (by simp) hpast h

theorem Stage.of_reads {w' : World} {c : Call} {past : List Await} {q : Await} (hq : q.Reads)
    (hpast : ∀ connection settings id, Await.update connection settings id ∉ past)
    (h : w'.networkManager = w.networkManager) :
    Stage η w w' { call := c, past, status := .waits q } := by
  refine .of_early (fun p hp => ?_) (fun device settings hp => ?_) hpast h
  · cases hp
    exact .inl hq
  · cases hp
    exact hq.elim

theorem Step.stage_start {interfaceName : String} {config : UpdateNetworkConfigDto} {w' : World}
    {st : Status Await Exception Response}
    (h : Step η (.update interfaceName config) none w w' st) :
    Stage η w w' { call := .update interfaceName config, past := [], status := st } := by
  cases h with
  | reject => exact .of_ended (fun _ _ _ => List.not_mem_nil) rfl
  | read _ hread => exact .of_reads hread (fun _ _ _ => List.not_mem_nil) rfl

theorem Step.stage_resume {interfaceName : String} {config : UpdateNetworkConfigDto}
    {past : List Await} {q : Await} {w₁ w₂ : World} {st : Status Await Exception Response}
    (hs : Stage η w w₁ { call := .update interfaceName config, past, status := .waits q })
    (h : Step η (.update interfaceName config) (some q) w₁ w₂ st) :
    Stage η w w₂ { call := .update interfaceName config, past := q :: past, status := st } := by
  cases hs with
  | early hstatus hedits hnone hw =>
      have hearly : q.Early := hstatus q rfl
      have hpast : ∀ connection settings id,
          Await.update connection settings id ∉ q :: past := fun _ _ _ hq =>
        hnone _ _ _ (Thread.awaited_waits.mpr (List.mem_cons.mp hq))
      cases h with
      | reject => exact .of_ended hpast hw
      | read _ hread => exact .of_reads hread hpast hw
      | change hconfig hdevice hsettings =>
          refine .of_early (fun q hq => ?_) (fun device settings hq => ?_) hpast hw
          · cases hq
            exact .inr ⟨_, _, rfl⟩
          · cases hq
            exact ⟨_, ⟨_, _, rfl, hdevice, hconfig⟩, hw ▸ hsettings⟩
      | create h =>
          obtain ⟨networkManager, _, hcreate, rfl⟩ := createCheckpoint_eq_some h
          exact .held (hedits _ _ rfl) (.inl rfl) (by rwa [Created, ← hw])
      | save => simp [Await.Early, Await.Reads] at hearly
      | schedule => exact .finished rfl
  | held hedits hstop hw =>
      have hq := hstop.eq
      cases h with
      | reject e => exact .held hedits (.inr ⟨e, rfl, congrArg some hq⟩) hw
      | read ho => exact ((hq ▸ ho q rfl : Await.Reads (.update _ _ _))).elim
      | save =>
          simp only [Await.update.injEq] at hq
          obtain ⟨hprofile, rfl, rfl⟩ := hq
          obtain rfl := η.profile_injective hprofile
          exact .saved hedits (.inl rfl) hw rfl
      | _ => cases hq
  | saved hedits hstop hw hsave =>
      have hq := hstop.eq
      cases h with
      | reject e => exact .saved hedits (.inr ⟨e, rfl, congrArg some hq⟩) hw hsave
      | read ho => exact ((hq ▸ ho q rfl : Await.Reads (.getAppliedConnection _ _ _))).elim
      | schedule => exact .finished rfl
      | _ => cases hq
  | finished hstatus => cases hstatus

/-- An update that runs alone is at some stage. -/
theorem run_stage {as : List Service.Act} {s : Service.State} {i : Nat}
    (hrun : η.system.Run (OnlyRuns i) (.init w) as s) {t : Service.Thread}
    (hi : s.config.threads i = some t) {interfaceName : String} {config : UpdateNetworkConfigDto}
    (hcall : t.call = .update interfaceName config) : Stage η w s.world t := by
  let I : Service.Config → Prop := fun g =>
    (g.threads i = none → g.world = w) ∧
      ∀ t interfaceName config, g.threads i = some t → t.call = .update interfaceName config →
        Stage η w g.world t
  have hI : I s.config := by
    refine hrun.invariant I (system_obeys η) (fun g a h hok hmove hg => ?_) (.init w)
      ⟨fun _ => rfl, fun t _ _ hi => by cases hi⟩
    cases hmove with
    | start hj hT =>
        obtain rfl := hok
        obtain rfl := hg.1 hj
        refine ⟨fun hnone => by simp at hnone, fun t _ _ hi hcall => ?_⟩
        simp only [Function.update_self, Option.some.injEq] at hi
        subst hi
        subst hcall
        exact hT.stage_start
    | resume hj hT =>
        obtain rfl := hok
        refine ⟨fun hnone => by simp at hnone, fun t _ _ hi hcall => ?_⟩
        simp only [Function.update_self, Option.some.injEq] at hi
        subst hi
        subst hcall
        exact hT.stage_resume (hg.2 _ _ _ hj rfl)
    | env => exact hok.elim
  exact hI.2 t interfaceName config hi hcall

/-! ## Rejected updates -/

theorem Created.rollsBack {device : ObjectPath} {id : String} {w' : World}
    {networkManager : Store ObjectPath ObjectPath ObjectPath VariantParentObject}
    (h : Created η w device id networkManager)
    (hw : w'.networkManager = networkManager ∨
      ∃ settings, w'.networkManager = networkManager.save (η.profile device) settings) :
    RollsBack η w w' device id where
  live := by
    obtain ⟨_, _, hlive⟩ := Store.create_eq_some h
    rcases hw with hw | ⟨settings, hw⟩ <;> rw [hw]
    · rw [hlive]
      exact List.mem_cons_self
    · show _ ∈ networkManager.live
      rw [hlive]
      exact List.mem_cons_self
  expires := by
    have hexpire : w'.networkManager.expire η.profile (checkpointPath id) =
        some w.networkManager := by
      rcases hw with hw | ⟨settings, hw⟩ <;> rw [hw]
      · exact Store.expire_create h
      · exact Store.expire_save_create h settings
    exact ⟨{ w' with networkManager := w.networkManager }, by rw [Host.env, hexpire]; rfl, rfl⟩

/-- A rejected update has changed nothing, or has left a checkpoint that undoes
what it has changed. -/
theorem rejected_update {as : List Service.Act} {s : Service.State} {i : Nat}
    (hrun : η.system.Run (OnlyRuns i) (.init w) as s) {t : Service.Thread}
    (hi : s.config.threads i = some t) {interfaceName : String} {config : UpdateNetworkConfigDto}
    (hcall : t.call = .update interfaceName config) {e : Exception}
    (hrejected : t.status = .done (.error e)) : Rejected η w t s.world := by
  have hlast : ∀ {q}, StopsAt t q → t.past.head? = some q := by
    rintro q (h | ⟨_, _, h⟩)
    · cases hrejected.symm.trans h
    · exact h
  cases run_stage hrun hi hcall with
  | early _ _ hnone h => exact .unchanged hnone h
  | held hedits hstop h =>
      obtain ⟨_, hsaved, _⟩ := Store.create_eq_some h
      exact .updateFailed hedits (hlast hstop) hsaved (h.rollsBack (.inl rfl))
  | saved hedits hstop h hsave =>
      obtain ⟨_, hsaved, _⟩ := Store.create_eq_some h
      refine .getAppliedConnectionFailed hedits (hlast hstop) ?_ (h.rollsBack (.inr ⟨_, hsave⟩))
      rw [hsave, Store.saved_save, hsaved]
  | finished hstatus => cases hrejected.symm.trans hstatus

/-- An update of "eth0" that is rejected at `Update`. -/
def failedUpdate : List Service.Act :=
  .start 0 updateEth0 :: List.replicate 10 (.resume 0 .resolve) ++
    [.resume 0 (.reject (.error "Update failed"))]

theorem run_failedUpdate : Host.sample.system.Run (OnlyRuns 0) (.init sampleWorld) failedUpdate
    (sampleOutcome failedUpdate) := by
  refine System.run_outcome_of rfl fun n hn => ?_
  have hn12 : n < 12 := hn
  interval_cases n <;> rfl

theorem rejected_update_eth0 : ∃ t,
    (sampleOutcome failedUpdate).config.threads 0 = some t ∧
      (∃ e, t.status = .done (.error e)) ∧
      Rejected Host.sample sampleWorld t (sampleOutcome failedUpdate).world :=
  ⟨_, rfl, ⟨_, rfl⟩, rejected_update run_failedUpdate rfl rfl rfl⟩

/-- The checkpoint of a rejected update is live. -/
theorem rejected_update_live :
    ¬ ∀ (as : List Service.Act) (s : Service.State) (t : Service.Thread) (e : Exception),
      Host.sample.system.Run (OnlyRuns 0) (.init sampleWorld) as s →
      s.config.threads 0 = some t → t.status = .done (.error e) →
      s.world.networkManager.saved = sampleWorld.networkManager.saved ∧
        ∀ c ∈ s.world.networkManager.live, c ∈ sampleWorld.networkManager.live := by
  intro h
  obtain ⟨_, hlive⟩ := h _ _ _ _ run_failedUpdate rfl rfl
  cases hlive _ List.mem_cons_self

end RpiNestApi.Network
