import RpiNestApi.Network.Reapply

/-
Whose checkpoint is whose.

Each checkpoint is made by one update, which alone holds its id until it is
answered.  Where only ids that were returned are committed, the id of a live
checkpoint was not committed, and one that was committed is never live again.
-/

namespace RpiNestApi.Network

open Async

variable {η : Host}

/-- The call makes these changes to the device. -/
def Call.Updates (η : Host) (device : ObjectPath) (updateSettings : UpdatableSettings)
    (c : Call) : Prop :=
  ∃ interfaceName config, c = .update interfaceName config ∧
    η.deviceByIpIface interfaceName = some device ∧ config.toInternal = .ok updateSettings

theorem Call.Updates.unique {c : Call} {device device' : ObjectPath}
    {updateSettings updateSettings' : UpdatableSettings} (h : c.Updates η device updateSettings)
    (h' : c.Updates η device' updateSettings') :
    device = device' ∧ updateSettings = updateSettings' := by
  obtain ⟨interfaceName, config, rfl, hdevice, hconfig⟩ := h
  obtain ⟨_, _, he, hdevice', hconfig'⟩ := h'
  cases he
  rw [hdevice] at hdevice'
  rw [hconfig] at hconfig'
  cases hdevice'
  cases hconfig'
  exact ⟨rfl, rfl⟩

/-- Only ids that a request was answered with are committed. -/
def CommitsReturned (η : Host) (g : Service.Config) : Service.Act → Prop
  | .start _ (.commit id) => ∃ i t, g.threads i = some t ∧ Returned η id t
  | _ => True

/-! ## What an update has been through -/

theorem Step.changes {c : Call} {o : Option Await} {w w' : World} {device : ObjectPath}
    {settings : VariantParentObject}
    (h : Step η c o w w' (.waits (.checkpointCreate device settings))) :
    ∃ updateSettings, c.Updates η device updateSettings := by
  cases h with
  | read _ hq => exact hq.elim
  | change hconfig hdevice _ => exact ⟨_, _, _, rfl, hdevice, hconfig⟩

theorem Step.creates {c : Call} {o : Option Await} {w w' : World} {connection : ObjectPath}
    {settings : VariantParentObject} {id : String}
    (h : Step η c o w w' (.waits (.update connection settings id))) :
    ∃ device, connection = η.profile device ∧ o = some (.checkpointCreate device settings) ∧
      id = η.checkpoint (w.checkpoints + 1) ∧ w'.checkpoints = w.checkpoints + 1 ∧
      w.networkManager.create η.profile (checkpointPath id) device = some w'.networkManager := by
  cases h with
  | read _ hq => exact hq.elim
  | create h =>
      obtain ⟨networkManager, hid, hcreate, rfl⟩ := createCheckpoint_eq_some h
      exact ⟨_, rfl, rfl, checkpointPath_injective hid, rfl, hcreate⟩

theorem Step.saves {c : Call} {o : Option Await} {w w' : World} {device : ObjectPath}
    {settings : VariantParentObject} {id : String}
    (h : Step η c o w w' (.waits (.getAppliedConnection device settings id))) :
    o = some (.update (η.profile device) settings id) ∧
      w'.networkManager = w.networkManager.save (η.profile device) settings := by
  cases h with
  | read _ hq => exact hq.elim
  | save => exact ⟨rfl, rfl⟩

/-- The awaits of an update before it holds a checkpoint. -/
def Await.Early (q : Await) : Prop :=
  q.Reads ∨ ∃ device settings, q = .checkpointCreate device settings

/-- An update reads until it awaits its checkpoint. -/
theorem Step.reads {c : Call} {o : Option Await} {w w' : World} {q : Await}
    (h : Step η c o w w' (.waits q)) (hq : q.Early) : ∀ p, o = some p → p.Reads := by
  cases h with
  | read ho _ => exact ho
  | commit =>
      rintro _ ⟨⟩
  | change => exact reads_some trivial
  | _ => simp [Await.Early, Await.Reads] at hq

theorem Step.destroys {o : Option Await} {w w' : World} {id : String}
    (h : Step η (.commit id) o w w' (.done (.ok .void))) :
    w.networkManager.destroy (checkpointPath id) = some w'.networkManager := by
  cases h with
  | destroyed h => exact h

theorem Step.void {o : Option Await} {w w' : World} {id : String} {r : Response}
    (h : Step η (.commit id) o w w' (.done (.ok r))) : r = .void := by
  cases h with
  | destroyed => rfl

theorem Step.checkpoints {c : Call} {o : Option Await} {w w' : World}
    {st : Status Await Exception Response} (h : Step η c o w w' st) :
    w.checkpoints ≤ w'.checkpoints := by
  cases h with
  | create h =>
      obtain ⟨networkManager, _, _, rfl⟩ := createCheckpoint_eq_some h
      exact Nat.le_succ _
  | _ => exact Nat.le_refl _

/-- What an update has awaited by the time it awaits a later promise. -/
structure InOrder (η : Host) (t : Service.Thread) : Prop where
  create : ∀ device settings, t.Awaited (.checkpointCreate device settings) →
    ∃ updateSettings, t.call.Updates η device updateSettings
  update : ∀ connection settings id, t.Awaited (.update connection settings id) →
    ∃ device, connection = η.profile device ∧ t.Awaited (.checkpointCreate device settings)
  early : ∀ q, t.status = .waits q → q.Early →
    ∀ connection settings id, ¬ t.Awaited (.update connection settings id)
  once : ∀ connection connection' settings settings' id id',
    t.Awaited (.update connection settings id) → t.Awaited (.update connection' settings' id') →
    id = id'
  applied : ∀ device settings id, t.Awaited (.getAppliedConnection device settings id) →
    t.Awaited (.update (η.profile device) settings id)
  returned : ∀ id, Returned η id t → ∃ device settings,
    t.Awaited (.getAppliedConnection device settings id)

theorem Step.inOrder_start {c : Call} {w w' : World} {st : Status Await Exception Response}
    (h : Step η c none w w' st) : InOrder η { call := c, past := [], status := st } where
  create device settings hq := by
    obtain rfl := hq.resolve_right List.not_mem_nil
    exact h.changes
  update connection settings id hq := by
    obtain rfl := hq.resolve_right List.not_mem_nil
    obtain ⟨_, _, he, _⟩ := h.creates
    cases he
  early q hq _ connection settings id hq' := by
    obtain rfl := hq'.resolve_right List.not_mem_nil
    obtain ⟨_, _, he, _⟩ := h.creates
    cases he
  once connection connection' settings settings' id id' hq hq' := by
    obtain rfl := hq.resolve_right List.not_mem_nil
    obtain ⟨_, _, he, _⟩ := h.creates
    cases he
  applied device settings id hq := by
    obtain rfl := hq.resolve_right List.not_mem_nil
    cases h.saves.1
  returned id hid := by
    obtain rfl : st = _ := hid
    obtain ⟨_, _, _, he, _⟩ := h.confirmed
    cases he

theorem Step.inOrder_resume {c : Call} {past : List Await} {q : Await} {w w' : World}
    {st : Status Await Exception Response}
    (ht : InOrder η { call := c, past, status := .waits q }) (h : Step η c (some q) w w' st) :
    InOrder η { call := c, past := q :: past, status := st } := by
  have hold : ∀ p, p ∈ q :: past →
      Thread.Awaited ({ call := c, past, status := .waits q } : Service.Thread) p :=
    fun p hp => Thread.awaited_waits.mpr (List.mem_cons.mp hp)
  have hnew : ∀ p, Thread.Awaited ({ call := c, past, status := .waits q } : Service.Thread) p →
      Thread.Awaited ({ call := c, past := q :: past, status := st } : Service.Thread) p :=
    fun p hp => .inr (List.mem_cons.mpr (Thread.awaited_waits.mp hp))
  have hmade : ∀ connection settings id, st = .waits (.update connection settings id) →
      ∀ connection settings id, Await.update connection settings id ∉ q :: past := by
    rintro _ _ _ rfl _ _ _ hq
    obtain ⟨device, _, he, _⟩ := h.creates
    cases he
    exact ht.early _ rfl (.inr ⟨_, _, rfl⟩) _ _ _ (hold _ hq)
  refine ⟨fun device settings hq => ?_, fun connection settings id hq => ?_,
    fun p hp hearly connection settings id hq => ?_,
    fun connection connection' settings settings' id id' hq hq' => ?_,
    fun device settings id hq => ?_, fun id hid => ?_⟩
  · rcases hq with rfl | hq
    · exact h.changes
    · exact ht.create device settings (hold _ hq)
  · rcases hq with rfl | hq
    · obtain ⟨device, hconnection, he, _⟩ := h.creates
      cases he
      exact ⟨device, hconnection, .inr List.mem_cons_self⟩
    · obtain ⟨device, hconnection, hcreate⟩ := ht.update connection settings id (hold _ hq)
      exact ⟨device, hconnection, hnew _ hcreate⟩
  · obtain rfl : st = _ := hp
    rcases hq with he | hq
    · cases he
      simp [Await.Early, Await.Reads] at hearly
    · exact ht.early q rfl (.inl (h.reads hearly q rfl)) connection settings id (hold _ hq)
  · rcases hq with he | hq <;> rcases hq' with he' | hq'
    · cases he.symm.trans he'
      rfl
    · exact absurd hq' (hmade _ _ _ he _ _ _)
    · exact absurd hq (hmade _ _ _ he' _ _ _)
    · exact ht.once _ _ _ _ id id' (hold _ hq) (hold _ hq')
  · rcases hq with rfl | hq
    · cases h.saves.1
      exact .inr List.mem_cons_self
    · exact hnew _ (ht.applied device settings id (hold _ hq))
  · obtain rfl : st = _ := hid
    obtain ⟨device, settings, _, he, _, hurl⟩ := h.confirmed
    obtain rfl := NetworkService.confirmationUrl_injective η.config hurl
    cases he
    exact ⟨device, settings, .inr List.mem_cons_self⟩

/-! ## Checkpoints and their updates -/

/-- The thread is to save the settings of the device under the checkpoint `id`,
or has done so. -/
structure Holds (η : Host) (g : Service.Config) (i : Nat) (t : Service.Thread)
    (device : ObjectPath) (settings : VariantParentObject) (id : String) : Prop where
  thread : g.threads i = some t
  awaited : t.Awaited (.update (η.profile device) settings id)

/-- Checkpoints are numbered, and each belongs to the one update that holds its
id. -/
structure Numbered (η : Host) (g : Service.Config) : Prop where
  order : ∀ i t, g.threads i = some t → InOrder η t
  number : ∀ {i t device settings id}, Holds η g i t device settings id →
    ∃ n ≤ g.world.checkpoints, id = η.checkpoint n
  unique : ∀ {i j t t' device device' settings settings' id}, Holds η g i t device settings id →
    Holds η g j t' device' settings' id → i = j ∧ device = device' ∧ settings = settings'
  live : ∀ c ∈ g.world.networkManager.live, ∃ i t settings id, c.id = checkpointPath id ∧
    Holds η g i t c.key settings id
  commits : ∀ i t id, g.threads i = some t → t.call = .commit id →
    ∃ j t', g.threads j = some t' ∧ Returned η id t'
  dead : ∀ id, Committed g id → ∀ c ∈ g.world.networkManager.live, c.id ≠ checkpointPath id

section Move

variable {g h : Service.Config} {a : Service.Act}

theorem Holds.move (hmove : Move (Step η) η.env g a h) {i : Nat} {t : Service.Thread}
    {device : ObjectPath} {settings : VariantParentObject} {id : String}
    (hg : Holds η g i t device settings id) :
    ∃ t', t.Extends t' ∧ Holds η h i t' device settings id := by
  obtain ⟨t', hi', hext⟩ := hmove.thread hg.thread
  exact ⟨t', hext, hi', hext.awaited _ hg.awaited⟩

theorem Returned.move (hmove : Move (Step η) η.env g a h) {i : Nat} {t : Service.Thread}
    {id : String} (hi : g.threads i = some t) (ht : Returned η id t) : h.threads i = some t := by
  obtain ⟨t', hi', hext⟩ := hmove.thread hi
  obtain rfl := hext.done _ ht
  exact hi'

theorem checkpoints_move (hmove : Move (Step η) η.env g a h) :
    g.world.checkpoints ≤ h.world.checkpoints := by
  cases hmove with
  | start _ hT => exact hT.checkpoints
  | resume _ hT => exact hT.checkpoints
  | @env e w he =>
      cases e with
      | expire path =>
          obtain ⟨_, _, rfl⟩ := Option.map_eq_some_iff.mp he
          exact Nat.le_refl _

/-- The step makes the checkpoint that the thread `i` holds. -/
structure Makes (η : Host) (g h : Service.Config) (a : Service.Act) (i : Nat)
    (t : Service.Thread) (device : ObjectPath) (settings : VariantParentObject) (id : String) :
    Prop where
  runs : g.Runs i t.call (some (.checkpointCreate device settings)) a
  thread : h.threads i = some t
  status : t.status = .waits (.update (η.profile device) settings id)
  fresh : id = η.checkpoint (g.world.checkpoints + 1)
  checkpoints : h.world.checkpoints = g.world.checkpoints + 1
  create : g.world.networkManager.create η.profile (checkpointPath id) device =
    some h.world.networkManager

theorem Makes.holds {i : Nat} {t : Service.Thread} {device : ObjectPath}
    {settings : VariantParentObject} {id : String} (hm : Makes η g h a i t device settings id) :
    Holds η h i t device settings id :=
  { thread := hm.thread, awaited := .inl hm.status }

/-- Who holds a checkpoint held it before, or has just made it. -/
theorem Holds.cases (hmove : Move (Step η) η.env g a h) {i : Nat} {t : Service.Thread}
    {device : ObjectPath} {settings : VariantParentObject} {id : String}
    (hh : Holds η h i t device settings id) :
    (∃ t₀, t₀.Extends t ∧ Holds η g i t₀ device settings id) ∨
      Makes η g h a i t device settings id := by
  rcases hmove.awaited hh.thread hh.awaited with ⟨t₀, hi₀, hext, hq⟩ | ⟨hstatus, o, hruns, hT⟩
  · exact .inl ⟨t₀, hext, hi₀, hq⟩
  · obtain ⟨device', hprofile, rfl, hid, hcheckpoints, hcreate⟩ := hT.creates
    obtain rfl := η.profile_injective hprofile
    exact .inr
      { runs := hruns, thread := hh.thread, status := hstatus, fresh := hid,
        checkpoints := hcheckpoints, create := hcreate }

/-- A new id is the id of no checkpoint so far. -/
theorem Numbered.fresh (hg : Numbered η g) {i j : Nat} {t t' : Service.Thread}
    {device device' : ObjectPath} {settings settings' : VariantParentObject} {id : String}
    (hold : Holds η g i t device settings id) :
    ¬ Makes η g h a j t' device' settings' id := by
  intro hnew
  obtain ⟨n, hn, hid⟩ := hg.number hold
  have := η.fresh (hid.symm.trans hnew.fresh)
  omega

/-- A live checkpoint was live, or has just been made. -/
theorem live_cases (hmove : Move (Step η) η.env g a h)
    {c : Checkpointed.Checkpoint ObjectPath ObjectPath VariantParentObject}
    (hc : c ∈ h.world.networkManager.live) :
    c ∈ g.world.networkManager.live ∨
      ∃ i t settings id, c.id = checkpointPath id ∧ Makes η g h a i t c.key settings id := by
  rcases hmove.runs with ⟨i, call, o, past, st, hruns, hT, hi⟩ | ⟨e, rfl, he⟩
  · cases hT.effect with
    | none hsame _ => exact .inl (hsame ▸ hc)
    | create _ =>
        obtain ⟨device, hprofile, rfl, hid, hcheckpoints, hcreate⟩ := hT.creates
        obtain rfl := η.profile_injective hprofile
        obtain ⟨_, _, hlive⟩ := Checkpointed.Store.create_eq_some hcreate
        rw [hlive] at hc
        rcases List.mem_cons.mp hc with rfl | hc
        · exact .inr ⟨i, _, _, _, rfl, hruns, hi, rfl, hid, hcheckpoints, hcreate⟩
        · exact .inl hc
    | save _ _ hsave =>
        rw [hsave] at hc
        exact .inl hc
    | destroy _ hdestroy =>
        obtain ⟨_, _, _, hrelease⟩ := Checkpointed.Store.destroy_eq_some hdestroy
        rw [hrelease] at hc
        exact .inl (Checkpointed.Store.mem_release.mp hc).1
  · cases e with
    | expire path =>
        obtain ⟨_, hexpire, hw⟩ := Option.map_eq_some_iff.mp he
        obtain ⟨_, _, _, hrelease⟩ := Checkpointed.Store.expire_eq_some hexpire
        rw [← hw, hrelease] at hc
        exact .inl (Checkpointed.Store.mem_release.mp hc).1

/-- An id was committed before, or its checkpoint is destroyed by the step. -/
theorem Committed.cases (hmove : Move (Step η) η.env g a h) {id : String}
    (hh : Committed h id) :
    Committed g id ∨
      g.world.networkManager.destroy (checkpointPath id) = some h.world.networkManager := by
  obtain ⟨i, t, hi, hcall, hdone⟩ := hh
  rcases hmove.ran hi with hi₀ | ⟨o, _, hT⟩
  · exact .inl ⟨i, t, hi₀, hcall, hdone⟩
  · rw [hcall, hdone] at hT
    exact .inr hT.destroys

/-- The update whose id was committed. -/
theorem Numbered.committed (hg : Numbered η g) {id : String} (hid : Committed g id) :
    ∃ i t device settings, Returned η id t ∧
      t.Awaited (.getAppliedConnection device settings id) ∧
      Holds η g i t device settings id := by
  obtain ⟨j, t', hj, hcall, _⟩ := hid
  obtain ⟨i, t, hi, hreturned⟩ := hg.commits j t' id hj hcall
  have horder := hg.order i t hi
  obtain ⟨device, settings, hq⟩ := horder.returned id hreturned
  exact ⟨i, t, device, settings, hreturned, hq, hi, horder.applied device settings id hq⟩

/-- The checkpoint with an id is a checkpoint of the device that was updated. -/
theorem Numbered.key (hg : Numbered η g) {i : Nat} {t : Service.Thread} {device : ObjectPath}
    {settings : VariantParentObject} {id : String} (hold : Holds η g i t device settings id)
    {c : Checkpointed.Checkpoint ObjectPath ObjectPath VariantParentObject}
    (hc : c ∈ g.world.networkManager.live) (hid : c.id = checkpointPath id) : c.key = device := by
  obtain ⟨j, t', settings', id', hid', hheld⟩ := hg.live c hc
  obtain rfl := checkpointPath_injective (hid.symm.trans hid')
  exact (hg.unique hheld hold).2.1

theorem Numbered.move (hg : Numbered η g) (hok : CommitsReturned η g a)
    (hmove : Move (Step η) η.env g a h) : Numbered η h := by
  have hcommits : ∀ i t id, h.threads i = some t → t.call = .commit id →
      ∃ j t', g.threads j = some t' ∧ Returned η id t' := by
    intro i t id hi hcall
    rcases hmove.ran hi with hi₀ | ⟨o, hruns, _⟩
    · exact hg.commits i t id hi₀ hcall
    · rw [hcall] at hruns
      cases hruns with
      | start => exact hok
      | resume hi₀ => exact hg.commits i _ id hi₀ rfl
  refine
    { order := hmove.threads (P := fun _ t => InOrder η t) (fun _ ht => ht)
        (fun c w st hT => hT.inOrder_start) (fun c past q w st ht hT => hT.inOrder_resume ht)
        hg.order
      number := fun hh => ?_, unique := fun hh hh' => ?_, live := fun c hc => ?_
      commits := fun i t id hi hcall => ?_, dead := fun id hid c hc he => ?_ }
  · rcases hh.cases hmove with ⟨_, _, hold⟩ | hnew
    · obtain ⟨n, hn, hid⟩ := hg.number hold
      exact ⟨n, hn.trans (checkpoints_move hmove), hid⟩
    · exact ⟨_, Nat.le_of_eq hnew.checkpoints.symm, hnew.fresh⟩
  · rcases hh.cases hmove with ⟨_, _, hold⟩ | hnew <;>
      rcases hh'.cases hmove with ⟨_, _, hold'⟩ | hnew'
    · exact hg.unique hold hold'
    · exact absurd hnew' (hg.fresh hold)
    · exact absurd hnew (hg.fresh hold')
    · obtain rfl := hnew.runs.index hnew'.runs
      obtain rfl := Option.some.inj (hnew.thread.symm.trans hnew'.thread)
      have hstatus := hnew.status.symm.trans hnew'.status
      simp only [Status.waits.injEq, Await.update.injEq] at hstatus
      exact ⟨rfl, η.profile_injective hstatus.1, hstatus.2.1⟩
  · rcases live_cases hmove hc with hc | ⟨i, t, settings, id, hid, hnew⟩
    · obtain ⟨i, t, settings, id, hid, hold⟩ := hg.live c hc
      obtain ⟨t', _, hold'⟩ := hold.move hmove
      exact ⟨i, t', settings, id, hid, hold'⟩
    · exact ⟨i, t, settings, id, hid, hnew.holds⟩
  · obtain ⟨j, t', hj, hreturned⟩ := hcommits i t id hi hcall
    exact ⟨j, t', hreturned.move hmove hj, hreturned⟩
  · rcases hid.cases hmove with hid | hdestroy
    · rcases live_cases hmove hc with hc | ⟨i, t, settings, id', hid', hnew⟩
      · exact hg.dead id hid c hc he
      · obtain rfl := checkpointPath_injective (he.symm.trans hid')
        obtain ⟨_, _, _, _, _, _, hold⟩ := hg.committed hid
        exact hg.fresh hold hnew
    · obtain ⟨c', hc', hid', hrelease⟩ := Checkpointed.Store.destroy_eq_some hdestroy
      rw [hrelease] at hc
      obtain ⟨hc, hkey⟩ := Checkpointed.Store.mem_release.mp hc
      obtain ⟨_, _, _, id'', hid'', hold⟩ := hg.live c' hc'
      obtain rfl := checkpointPath_injective (hid'.symm.trans hid'')
      exact hkey (hg.key hold hc he)

end Move

theorem Numbered.init {saved : ObjectPath → VariantParentObject} :
    Numbered η (State.init (World.init saved) : Service.State).config where
  order i t hi := by cases hi
  number hh := by cases hh.thread
  unique hh := by cases hh.thread
  live c hc := by cases hc
  commits i t id hi := by cases hi
  dead id hid := by
    obtain ⟨i, t, hi, _⟩ := hid
    cases hi

end RpiNestApi.Network
