import RpiNestApi.Async.Follow
import RpiNestApi.Network.Services

/-
What one step of each request may do.

`Step η c o w w' st` is the transition table of the call `c`: resumed from the
await `o`, or started when `o = none`, it takes the world `w` to `w'` and stands
at `st`.  A request that fails changes nothing in the step it fails in.
-/

namespace RpiNestApi.Network

open Async

/-- The awaits of an update before it changes anything. -/
def Await.Reads : Await → Prop
  | .proxyObject _ _ => True
  | .getDeviceByIpIface _ => True
  | .deviceProperties _ => True
  | .activeConnectionProperties _ => True
  | .getSettings _ => True
  | _ => False

/-- The callback an update leaves behind. -/
def World.schedule (w : World) (device : ObjectPath) (settings : VariantParentObject)
    (id : String) : World :=
  { w with
    immediates := w.immediates ++
      [{ checkpointId := id, devicePath := device, currentSettings := settings,
         currentVersion := w.version device }] }

/-- The effect of a `Reapply`. -/
def World.reapply (w : World) (immediate : Immediate) : World :=
  { w with
    version := Function.update w.version immediate.devicePath
      (w.version immediate.devicePath + 1)
    reapplied := w.reapplied ++ [immediate] }

inductive Step (η : Host) :
    Call → Option Await → World → World → Status Await Exception Response → Prop
  | reject {c o w} (e : Exception) (hc : c ≠ .immediate) : Step η c o w w (.done (.error e))
  | read {interfaceName config o w q} (ho : ∀ q, o = some q → q.Reads) (hq : q.Reads) :
      Step η (.update interfaceName config) o w w (.waits q)
  | change {interfaceName config updateSettings device settings w}
      (hconfig : config.toInternal = .ok updateSettings)
      (hdevice : η.deviceByIpIface interfaceName = some device)
      (hsettings : updateSettings.apply
        (η.getSettings (w.networkManager.saved (η.profile device))) = .ok settings) :
      Step η (.update interfaceName config) (some (.getSettings (η.profile device))) w w
        (.waits (.checkpointCreate device settings))
  | create {interfaceName config device settings id w w'}
      (h : η.createCheckpoint device w = some (checkpointPath id, w')) :
      Step η (.update interfaceName config) (some (.checkpointCreate device settings)) w w'
        (.waits (.update (η.profile device) settings id))
  | save {interfaceName config device settings id w} :
      Step η (.update interfaceName config) (some (.update (η.profile device) settings id)) w
        { w with networkManager := w.networkManager.save (η.profile device) settings }
        (.waits (.getAppliedConnection device settings id))
  | schedule {interfaceName config device settings id w} :
      Step η (.update interfaceName config) (some (.getAppliedConnection device settings id)) w
        (w.schedule device settings id)
        (.done (.ok (.confirm (NetworkService.confirmationUrl η.config id))))
  | commit {id path interface w} :
      Step η (.commit id) none w w (.waits (.proxyObject path interface))
  | commitDestroy {id path interface w} :
      Step η (.commit id) (some (.proxyObject path interface)) w w
        (.waits (.checkpointDestroy (checkpointPath id)))
  | destroyed {id w networkManager}
      (h : w.networkManager.destroy (checkpointPath id) = some networkManager) :
      Step η (.commit id) (some (.checkpointDestroy (checkpointPath id))) w
        { w with networkManager } (.done (.ok .void))
  | immediate {immediate immediates w} (h : w.immediates = immediate :: immediates) :
      Step η .immediate none w { w with immediates } (.waits (.reapply immediate))
  | reapplied {immediate w} :
      Step η .immediate (some (.reapply immediate)) w (w.reapply immediate) (.done (.ok .void))
  | logged {immediate w} :
      Step η .immediate (some (.reapply immediate)) w
        { w with logged := w.logged ++ [immediate] } (.done (.ok .void))

/-! ## What a step does to NetworkManager -/

section Effect

variable {η : Host} {c : Call} {o : Option Await} {w w' : World}
variable {st : Status Await Exception Response}

theorem createCheckpoint_eq_some {device path : ObjectPath}
    (h : η.createCheckpoint device w = some (path, w')) :
    ∃ networkManager, path = checkpointPath (η.checkpoint (w.checkpoints + 1)) ∧
      w.networkManager.create η.profile path device = some networkManager ∧
      w' = { w with networkManager, checkpoints := w.checkpoints + 1 } := by
  obtain ⟨networkManager, hcreate, he⟩ := Option.map_eq_some_iff.mp h
  cases he
  exact ⟨networkManager, rfl, hcreate, rfl⟩

/-- A step leaves NetworkManager alone, or it is the resumption from the one call
that changes it. -/
inductive Effect (η : Host) (c : Call) (o : Option Await) (w w' : World) :
    Status Await Exception Response → Prop
  | none {st : Status Await Exception Response} (h : w'.networkManager = w.networkManager)
      (hst : ∀ connection settings id, st ≠ .waits (.update connection settings id)) :
      Effect η c o w w' st
  | create {device settings id}
      (h : w.networkManager.create η.profile (checkpointPath id) device =
        some w'.networkManager) :
      Effect η c o w w' (.waits (.update (η.profile device) settings id))
  | save {interfaceName config device settings id} (hc : c = .update interfaceName config)
      (ho : o = some (.update (η.profile device) settings id))
      (h : w'.networkManager = w.networkManager.save (η.profile device) settings) :
      Effect η c o w w' (.waits (.getAppliedConnection device settings id))
  | destroy {id} (hc : c = .commit id)
      (h : w.networkManager.destroy (checkpointPath id) = some w'.networkManager) :
      Effect η c o w w' (.done (.ok .void))

theorem Step.effect (h : Step η c o w w' st) : Effect η c o w w' st := by
  cases h with
  | read ho hq =>
      refine .none rfl fun connection settings id he => ?_
      cases he
      exact hq
  | create h =>
      obtain ⟨networkManager, _, hcreate, rfl⟩ := createCheckpoint_eq_some h
      exact .create hcreate
  | save => exact .save rfl rfl rfl
  | destroyed h => exact .destroy rfl h
  | _ => exact .none rfl (by simp)

/-- A callback that is waiting is run, and one that runs ends with its `Reapply`
done or with an error logged. -/
structure Callbacks (c : Call) (o : Option Await) (w w' : World)
    (st : Status Await Exception Response) : Prop where
  waiting : ∀ immediate ∈ w.immediates,
    immediate ∈ w'.immediates ∨ c = .immediate ∧ st = .waits (.reapply immediate)
  running : c = .immediate → ∀ immediate, o = some (.reapply immediate) →
    immediate ∈ w'.reapplied ∨ immediate ∈ w'.logged
  reapplied : ∀ immediate ∈ w.reapplied, immediate ∈ w'.reapplied
  logged : ∀ immediate ∈ w.logged, immediate ∈ w'.logged

/-- A step that is no callback's and runs none. -/
theorem Callbacks.of_ne (hc : c ≠ .immediate)
    (hwaiting : ∀ immediate ∈ w.immediates, immediate ∈ w'.immediates)
    (hreapplied : w'.reapplied = w.reapplied) (hlogged : w'.logged = w.logged) :
    Callbacks c o w w' st where
  waiting immediate h := .inl (hwaiting immediate h)
  running h := absurd h hc
  reapplied _ h := hreapplied ▸ h
  logged _ h := hlogged ▸ h

theorem Step.callbacks (h : Step η c o w w' st) : Callbacks c o w w' st := by
  cases h with
  | reject e hc => exact .of_ne hc (fun _ h => h) rfl rfl
  | create h =>
      obtain ⟨networkManager, _, _, rfl⟩ := createCheckpoint_eq_some h
      exact .of_ne (by simp) (fun _ h => h) rfl rfl
  | schedule => exact .of_ne (by simp) (fun _ h => List.mem_append_left _ h) rfl rfl
  | @immediate immediate immediates _ h =>
      refine ⟨fun im him => ?_, fun _ im he => (by cases he), fun _ h => h, fun _ h => h⟩
      rw [h] at him
      rcases List.mem_cons.mp him with rfl | him
      · exact .inr ⟨rfl, rfl⟩
      · exact .inl him
  | reapplied =>
      refine ⟨fun _ h => .inl h, fun _ im he => ?_, fun _ h => List.mem_append_left _ h,
        fun _ h => h⟩
      cases he
      exact .inl (List.mem_append_right _ (List.mem_singleton.mpr rfl))
  | logged =>
      refine ⟨fun _ h => .inl h, fun _ im he => ?_, fun _ h => h,
        fun _ h => List.mem_append_left _ h⟩
      cases he
      exact .inr (List.mem_append_right _ (List.mem_singleton.mpr rfl))
  | _ => exact .of_ne (by simp) (fun _ h => h) rfl rfl

/-- A request is answered with an id in the step that schedules its callback. -/
theorem Step.confirmed {url : String}
    (h : Step η c o w w' (.done (.ok (.confirm url)))) :
    ∃ device settings id, o = some (.getAppliedConnection device settings id) ∧
      w' = w.schedule device settings id ∧ url = NetworkService.confirmationUrl η.config id := by
  cases h with
  | schedule => exact ⟨_, _, _, rfl, rfl, rfl⟩

/-- A commit succeeds in the step that destroys the checkpoint. -/
theorem Step.committed {id : String} (h : Step η (.commit id) o w w' (.done (.ok .void))) :
    o = some (.checkpointDestroy (checkpointPath id)) ∧
      w.networkManager.find (checkpointPath id) ≠ none := by
  cases h with
  | destroyed h =>
      refine ⟨rfl, fun hnone => ?_⟩
      rw [Checkpointed.Store.destroy, hnone] at h
      cases h

end Effect

section Within

variable {η : Host} {T : Option Await → World → World → Status Await Exception Response → Prop}
variable {o : Option Await} {w : World}

theorem forall_choice {P : Choice → Prop} :
    (∀ c, P c) ↔ P .resolve ∧ ∀ e, P (.reject e) :=
  ⟨fun h => ⟨h _, fun _ => h _⟩, fun h c => c.casesOn h.1 h.2⟩

/-- Every promise can be rejected, and then nothing has changed. -/
theorem answer_reject {q : Await} {e : Exception} :
    η.answer q (.reject e) w = some (.error e, w) := by
  cases q <;> rfl

/-- A promise that is not rejected resolves. -/
theorem answer_resolve {q : Await} {r : Except Exception q.Answer × World}
    (h : η.answer q .resolve w = some r) : ∃ a, r.1 = .ok a := by
  cases q with
  | checkpointCreate device settings =>
      obtain ⟨_, _, rfl⟩ := Option.map_eq_some_iff.mp h
      exact ⟨_, rfl⟩
  | checkpointDestroy path =>
      obtain ⟨_, _, rfl⟩ := Option.map_eq_some_iff.mp h
      exact ⟨_, rfl⟩
  | _ =>
      cases h
      exact ⟨_, rfl⟩

theorem await_within {q : Await} {post : q.Answer → Option Await → World → World → Prop}
    {w₀ : World} (hwaits : T o w₀ w (.waits q))
    (hpost : ∀ w a w', η.answer q .resolve w = some (.ok a, w') → post a (some q) w w')
    (hreject : ∀ w e, T (some q) w w (.done (.error e))) :
    (await q).Within η.answer T post o w₀ w := by
  rw [await, Prog.within_call, forall_choice]
  refine ⟨hwaits, fun w' r hr => ?_, fun e w' r hr => ?_⟩
  · obtain ⟨a, ha⟩ := answer_resolve hr
    obtain ⟨r, w''⟩ := r
    obtain rfl : r = .ok a := ha
    exact hpost _ _ _ hr
  · rw [answer_reject] at hr
    cases hr
    exact hreject _ _

end Within

section Obeys

variable {η : Host} {interfaceName : String} {config : UpdateNetworkConfigDto}
variable {o : Option Await} {w : World}

theorem answer_reads {q : Await} (hq : q.Reads) {a : q.Answer} {w' : World}
    (h : η.answer q .resolve w = some (.ok a, w')) : w' = w := by
  cases q with
  | proxyObject path interface => cases h; rfl
  | getDeviceByIpIface interfaceName => cases h; rfl
  | deviceProperties device => cases h; rfl
  | activeConnectionProperties activeConnection => cases h; rfl
  | getSettings connection => cases h; rfl
  | _ => exact hq.elim

/-- A read of an update. -/
theorem read_within {q : Await} {post : q.Answer → Option Await → World → World → Prop}
    (hq : q.Reads) (ho : ∀ q, o = some q → q.Reads)
    (hpost : ∀ w a, η.answer q .resolve w = some (.ok a, w) → post a (some q) w w) :
    (await q).Within η.answer (Step η (.update interfaceName config)) post o w w := by
  refine await_within (.read ho hq) (fun w a w' hr => ?_) fun w e => .reject e (by simp)
  obtain rfl := answer_reads hq hr
  exact hpost _ a hr

theorem reads_some {q : Await} (hq : q.Reads) : ∀ q', some q = some q' → q'.Reads := by
  intro q' h
  cases h
  exact hq

/-- Saving the settings under a checkpoint.  Both calls are in the `try`. -/
theorem saveAndApplyLater_within {device : ObjectPath} {settings : VariantParentObject}
    {id : String} {w₀ : World}
    (hcreate : Step η (.update interfaceName config) o w₀ w
      (.waits (.update (η.profile device) settings id))) :
    ((NetworkSettingsService.saveAndApplyLater device (η.profile device) settings id).catchWith
      fun _ => .throw
        (.internalServerError "Error while updating connection settings")).Within η.answer
      (Step η (.update interfaceName config))
      (fun id o w₀ w => Step η (.update interfaceName config) o w₀ w
        (.done (.ok (.confirm (NetworkService.confirmationUrl η.config id))))) o w₀ w := by
  have hreject : ∀ o w e, Step η (.update interfaceName config) o w w (.done (.error e)) :=
    fun o w e => .reject e (by simp)
  simp only [Prog.within_catchWith, NetworkSettingsService.saveAndApplyLater, Prog.modify,
    Prog.bind_def, Prog.pure_def, Prog.within_bind]
  refine await_within hcreate (fun w a w' hr => ?_) fun w e => hreject _ w _
  cases hr
  refine await_within .save (fun w version w' hr => ?_) fun w e => hreject _ w _
  cases hr
  exact .schedule

theorem updateConnection_within {updateSettings : UpdatableSettings}
    (hconfig : config.toInternal = .ok updateSettings) :
    (NetworkSettingsService.updateActiveConnectionOfDevice interfaceName updateSettings).Within
      η.answer (Step η (.update interfaceName config))
      (fun id o w₀ w => Step η (.update interfaceName config) o w₀ w
        (.done (.ok (.confirm (NetworkService.confirmationUrl η.config id))))) none w w := by
  have hreject : ∀ o w e, Step η (.update interfaceName config) o w w (.done (.error e)) :=
    fun o w e => .reject e (by simp)
  simp only [NetworkSettingsService.updateActiveConnectionOfDevice,
    NetworkSettingsService.networkManagerMethods, NetworkSettingsService.getInterface,
    NetworkSettingsService.getDeviceProperties,
    NetworkSettingsService.getActiveConnectionProperties, Prog.bind_def, Prog.within_bind]
  refine read_within trivial (by simp) fun w _ _ => ?_
  refine read_within trivial (reads_some trivial) fun w device hr => ?_
  cases hr
  cases hdevice : η.deviceByIpIface interfaceName with
  | none => exact hreject _ _ _
  | some device =>
      refine Prog.within_ite.mpr ⟨fun _ => hreject _ _ _, fun _ => ?_⟩
      simp only [Prog.within_bind]
      refine read_within trivial (reads_some trivial) fun w _ _ => ?_
      refine read_within trivial (reads_some trivial) fun w activeConnection hr => ?_
      cases hr
      refine read_within trivial (reads_some trivial) fun w _ _ => ?_
      refine read_within trivial (reads_some trivial) fun w connection hr => ?_
      cases hr
      refine read_within trivial (reads_some trivial) fun w _ _ => ?_
      refine read_within trivial (reads_some trivial) fun w _ _ => ?_
      refine read_within trivial (reads_some trivial) fun w settings hr => ?_
      cases hr
      cases hsettings : updateSettings.apply (η.getSettings
          (w.networkManager.saved (η.connection (η.activeConnection device)))) with
      | error e => exact hreject _ _ _
      | ok settings =>
          simp only [Prog.within_bind]
          refine await_within (.change hconfig hdevice hsettings) (fun w path w' hr => ?_)
            fun w e => hreject _ w _
          obtain ⟨⟨path, w'⟩, hcreate, hr⟩ := Option.map_eq_some_iff.mp hr
          cases hr
          obtain ⟨_, rfl, _, _⟩ := createCheckpoint_eq_some hcreate
          simp only [checkpointId_checkpointPath (η.slash_notMem _)]
          exact saveAndApplyLater_within (.create hcreate)

theorem update_follows : (η.body (.update interfaceName config)).Follows η.answer
    (Step η (.update interfaceName config)) none w w := by
  simp only [Prog.Follows, Host.body, NetworkService.update, Prog.bind_def, Prog.pure_def,
    Prog.within_bind]
  cases hconfig : config.toInternal with
  | error e => exact .reject e (by simp)
  | ok updateSettings =>
      simp only [Prog.within_bind]
      exact updateConnection_within hconfig

theorem commit_follows (id : String) : (η.body (.commit id)).Follows η.answer
    (Step η (.commit id)) none w w := by
  simp only [Prog.Follows, Host.body, NetworkService.commit, NetworkSettingsService.commitChanges,
    NetworkSettingsService.networkManagerMethods, NetworkSettingsService.getInterface,
    Prog.bind_def, Prog.pure_def, Prog.tryCatch_def, Prog.within_bind, Prog.within_catchWith]
  refine await_within .commit (fun w a w' hr => ?_) fun w e => .reject _ (by simp)
  cases hr
  refine await_within .commitDestroy (fun w a w' hr => ?_) fun w e => .reject _ (by simp)
  obtain ⟨networkManager, hdestroy, hr⟩ := Option.map_eq_some_iff.mp hr
  cases hr
  exact .destroyed hdestroy

theorem immediate_follows {immediate : Immediate} {immediates : List Immediate}
    (h : w.immediates = immediate :: immediates) :
    (η.body .immediate).Follows η.answer (Step η .immediate) none w w := by
  simp only [Prog.Follows, Host.body, runImmediate, Prog.read, Prog.bind_def, Prog.pure_def,
    Prog.sync_bind, Prog.ret_bind, Prog.within_sync, Prog.within_bind, id, h]
  simp only [Prog.modify, NetworkSettingsService.applyNewSettings, Prog.tryCatch_def,
    Prog.within_sync, Prog.within_ret, Prog.within_catchWith]
  refine await_within (.immediate h) (fun w a w' hr => ?_) fun w e => .logged
  cases hr
  exact .reapplied

/-- The programs of the services take no step that is not in the table. -/
theorem system_obeys (η : Host) : η.system.Obeys (Step η) := by
  intro c w w₁ hw
  cases c with
  | update interfaceName config =>
      cases hw
      exact update_follows
  | commit id =>
      cases hw
      exact commit_follows id
  | immediate =>
      simp only [Host.system, Host.accept] at hw
      cases h : w.immediates with
      | nil => simp [h] at hw
      | cons immediate immediates =>
          simp only [h, Option.some.injEq] at hw
          subst hw
          exact immediate_follows h

end Obeys

end RpiNestApi.Network
