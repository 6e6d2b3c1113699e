import RpiNestApi.Network.LostChange

/-
What goes on at one device leaves the others alone.

The requests for all devices share the numbers of the checkpoints and the queue of the
callbacks, and a commit names a checkpoint but no device.  Where nothing is going on at a
device, only its own checkpoint can still come to an end.
-/

namespace RpiNestApi.Network

open Async Checkpointed

variable {η : Host} {device : ObjectPath}

/-- The call is an update of the device. -/
def Call.Names (η : Host) (device : ObjectPath) (c : Call) : Prop :=
  ∃ interfaceName config, c = .update interfaceName config ∧
    η.deviceByIpIface interfaceName = some device

/-- Every update of the device was answered, and its callback has run. -/
structure Idle (η : Host) (device : ObjectPath) (g : Service.Config) : Prop where
  updates : ∀ i t, g.threads i = some t → t.call.Names η device → ∃ r, t.status = .done r
  waiting : ∀ immediate ∈ g.world.immediates, immediate.devicePath ≠ device
  running : ∀ i t immediate, g.threads i = some t → t.status = .waits (.reapply immediate) →
    immediate.devicePath ≠ device

/-- No update of the device is started. -/
def StartsElsewhere (η : Host) (device : ObjectPath) (_ : Service.Config) (a : Service.Act) :
    Prop :=
  ∀ i c, a = .start i c → ¬ c.Names η device

/-- A checkpoint was committed and its settings stand, or it has expired and they are undone. -/
inductive Ended (η : Host) (g : Service.Config) (as : List Service.Act) (h : Service.Config)
    (c : Checkpoint ObjectPath ObjectPath VariantParentObject) : Prop
  | committed {id : String} (hid : c.id = checkpointPath id) (hcommits : Commits g h id)
      (hsaved : h.world.networkManager.saved (η.profile c.key) =
        g.world.networkManager.saved (η.profile c.key)) : Ended η g as h c
  | expired (hexpired : .env (.expire c.id) ∈ as)
      (hsaved : h.world.networkManager.saved (η.profile c.key) = c.snapshot) : Ended η g as h c

/-- What the steps `as` may have done to the device. -/
structure LeftAlone (η : Host) (device : ObjectPath) (g : Service.Config) (as : List Service.Act)
    (h : Service.Config) : Prop where
  version : h.world.version device = g.world.version device
  settings : Untouched η device g.world h.world ∨
    ∃ c ∈ g.world.networkManager.live, c.key = device ∧ h.world.networkManager.Bare device ∧
      Ended η g as h c

/-! ## One step -/

theorem InOrder.names_create {t : Service.Thread} (ht : InOrder η t)
    {settings : VariantParentObject} (hq : t.Awaited (.checkpointCreate device settings)) :
    t.call.Names η device := by
  obtain ⟨_, interfaceName, config, hcall, hdevice, _⟩ := ht.create device settings hq
  exact ⟨interfaceName, config, hcall, hdevice⟩

theorem InOrder.names_update {t : Service.Thread} (ht : InOrder η t)
    {settings : VariantParentObject} {id : String}
    (hq : t.Awaited (.update (η.profile device) settings id)) : t.call.Names η device := by
  obtain ⟨device', hprofile, hcreate⟩ := ht.update _ settings id hq
  obtain rfl := η.profile_injective hprofile
  exact ht.names_create hcreate

/-- A callback that runs was waiting. -/
theorem Step.reapplies {c : Call} {o : Option Await} {w w' : World} {immediate : Immediate}
    (h : Step η c o w w' (.waits (.reapply immediate))) : immediate ∈ w.immediates := by
  cases h with
  | read _ hq => exact hq.elim
  | immediate h => exact h ▸ List.mem_cons_self

/-- What a step of another call does to the device. -/
structure Elsewhere (η : Host) (device : ObjectPath) (c : Call) (w w' : World)
    (st : Status Await Exception Response) : Prop where
  version : w'.version device = w.version device
  waiting : ∀ immediate ∈ w'.immediates,
    immediate ∈ w.immediates ∨ immediate.devicePath ≠ device
  settings : Untouched η device w w' ∨ ∃ id, c = .commit id ∧ st = .done (.ok .void) ∧
    ∃ checkpoint ∈ w.networkManager.live, checkpoint.id = checkpointPath id ∧
      checkpoint.key = device ∧ w'.networkManager = w.networkManager.release device

section Step

variable {c : Call} {w w' : World} {st : Status Await Exception Response}

theorem Elsewhere.of_eq (hversion : w'.version = w.version)
    (hwaiting : ∀ immediate ∈ w'.immediates, immediate ∈ w.immediates)
    (hnetworkManager : w'.networkManager = w.networkManager) : Elsewhere η device c w w' st where
  version := by rw [hversion]
  waiting immediate h := .inl (hwaiting immediate h)
  settings := .inl (.of_eq hnetworkManager)

theorem Elsewhere.refl : Elsewhere η device c w w st := .of_eq rfl (fun _ h => h) rfl

/-- A call acts on the device that it has awaited. -/
theorem Step.elsewhere {o : Option Await} (h : Step η c o w w' st) (hc : ¬ c.Names η device)
    (horder : ∀ q, o = some q →
      ∃ past, InOrder η ({ call := c, past, status := .waits q } : Service.Thread))
    (hrunning : ∀ immediate, o = some (.reapply immediate) → immediate.devicePath ≠ device) :
    Elsewhere η device c w w' st := by
  cases h with
  | reject => exact .refl
  | read => exact .refl
  | change => exact .refl
  | commit => exact .refl
  | commitDestroy => exact .refl
  | @create _ _ device' settings id _ _ h =>
      obtain ⟨past, ht⟩ := horder _ rfl
      have hne : device' ≠ device := fun he => hc (he ▸ ht.names_create (.inl rfl))
      obtain ⟨networkManager, _, hcreate, rfl⟩ := createCheckpoint_eq_some h
      exact ⟨rfl, fun _ h => .inl h, .inl (.create hne hcreate)⟩
  | @save _ _ device' settings id =>
      obtain ⟨past, ht⟩ := horder _ rfl
      have hne : device' ≠ device := fun he => hc (he ▸ ht.names_update (.inl rfl))
      exact ⟨rfl, fun _ h => .inl h, .inl (.save hne rfl)⟩
  | @schedule _ _ device' settings id =>
      obtain ⟨past, ht⟩ := horder _ rfl
      have hne : device' ≠ device := fun he =>
        hc (he ▸ ht.names_update (ht.applied device' settings id (.inl rfl)))
      refine ⟨rfl, fun immediate himmediate => ?_, .inl (.of_eq rfl)⟩
      rcases List.mem_append.mp himmediate with hold | hnew
      · exact .inl hold
      · rw [List.mem_singleton.mp hnew]
        exact .inr hne
  | @destroyed id _ networkManager h =>
      obtain ⟨checkpoint, hlive, hid, hrelease⟩ := Store.destroy_eq_some h
      refine ⟨rfl, fun _ h => .inl h, ?_⟩
      by_cases hkey : checkpoint.key = device
      · exact .inr ⟨id, rfl, rfl, checkpoint, hlive, hid, hkey, hkey ▸ hrelease⟩
      · exact .inl (.release hkey hrelease)
  | immediate h => exact .of_eq rfl (fun _ hi => h ▸ List.mem_cons_of_mem _ hi) rfl
  | @reapplied immediate =>
      refine ⟨?_, fun _ h => .inl h, .inl (.of_eq rfl)⟩
      exact Function.update_of_ne (hrunning immediate rfl).symm ..
  | logged => exact .of_eq rfl (fun _ h => h) rfl

end Step

section Move

variable {g h : Service.Config} {a : Service.Act}

/-- A call that runs is not an update of the device. -/
theorem Idle.not_names (hidle : Idle η device g) (hok : StartsElsewhere η device g a) {i : Nat}
    {c : Call} {o : Option Await} (hruns : g.Runs i c o a) : ¬ c.Names η device := by
  cases hruns with
  | start hi => exact hok i c rfl
  | resume hi =>
      intro hc
      obtain ⟨r, hr⟩ := hidle.updates i _ hi hc
      cases hr

/-- A call of a run, where it stands. -/
theorem Idle.elsewhere (hidle : Idle η device g)
    (horder : ∀ i t, g.threads i = some t → InOrder η t) (hok : StartsElsewhere η device g a)
    {i : Nat} {c : Call} {o : Option Await} {st : Status Await Exception Response}
    (hruns : g.Runs i c o a) (hT : Step η c o g.world h.world st) :
    Elsewhere η device c g.world h.world st := by
  refine hT.elsewhere (hidle.not_names hok hruns) (fun q hq => ?_) fun immediate hq => ?_
  · subst hq
    cases hruns with
    | resume hi => exact ⟨_, horder i _ hi⟩
  · subst hq
    cases hruns with
    | resume hi => exact hidle.running i _ immediate hi rfl

theorem Idle.move (hidle : Idle η device g)
    (horder : ∀ i t, g.threads i = some t → InOrder η t) (hok : StartsElsewhere η device g a)
    (hmove : Move (Step η) η.env g a h) : Idle η device h where
  updates i t hi hcall := by
    rcases hmove.ran hi with hold | ⟨o, hruns, _⟩
    · exact hidle.updates i t hold hcall
    · exact absurd hcall (hidle.not_names hok hruns)
  waiting immediate himmediate := by
    rcases hmove.runs with ⟨i, c, o, past, st, hruns, hT, _⟩ | ⟨e, rfl, he⟩
    · rcases (hidle.elsewhere horder hok hruns hT).waiting immediate himmediate with hold | hne
      · exact hidle.waiting immediate hold
      · exact hne
    · cases e with
      | expire path =>
          obtain ⟨_, _, hw⟩ := Option.map_eq_some_iff.mp he
          rw [← hw] at himmediate
          exact hidle.waiting immediate himmediate
  running i t immediate hi hstatus := by
    rcases hmove.ran hi with hold | ⟨o, _, hT⟩
    · exact hidle.running i t immediate hold hstatus
    · rw [hstatus] at hT
      exact hidle.waiting immediate hT.reapplies

/-- A checkpoint of another device expires. -/
theorem expire_untouched {w w' : World}
    {c : Checkpoint ObjectPath ObjectPath VariantParentObject} (hne : c.key ≠ device)
    (h : w'.networkManager =
      (w.networkManager.save (η.profile c.key) c.snapshot).release c.key) :
    Untouched η device w w' := by
  let undone : World :=
    { w with networkManager := w.networkManager.save (η.profile c.key) c.snapshot }
  have hsave : Untouched η device w undone := .save hne rfl
  exact hsave.trans (.release hne h)

theorem bare_release {s : Store ObjectPath ObjectPath ObjectPath VariantParentObject} :
    (s.release device).Bare device :=
  Store.bare_iff.mpr fun _ hc => (Store.mem_release.mp hc).2

theorem inOrder_move (hmove : Move (Step η) η.env g a h)
    (horder : ∀ i t, g.threads i = some t → InOrder η t) :
    ∀ i t, h.threads i = some t → InOrder η t :=
  hmove.threads (P := fun _ t => InOrder η t) (fun _ ht => ht) (fun _ _ _ hT => hT.inOrder_start)
    (fun _ _ _ _ _ ht hT => hT.inOrder_resume ht) horder

/-- One step leaves the device alone. -/
theorem Idle.leftAlone (hidle : Idle η device g)
    (horder : ∀ i t, g.threads i = some t → InOrder η t) (hok : StartsElsewhere η device g a)
    (hmove : Move (Step η) η.env g a h) : LeftAlone η device g [a] h := by
  rcases hmove.runs with ⟨i, c, o, past, st, hruns, hT, hi⟩ | ⟨e, rfl, he⟩
  · have helse := hidle.elsewhere horder hok hruns hT
    refine ⟨helse.version, helse.settings.imp_right ?_⟩
    rintro ⟨id, rfl, rfl, checkpoint, hlive, hid, hkey, hrelease⟩
    refine ⟨checkpoint, hlive, hkey, hrelease ▸ bare_release, ?_⟩
    have hcommits : Commits g h id := by
      refine ⟨i, _, hi, rfl, rfl, fun hold => ?_⟩
      cases hruns with
      | start hnone => cases hnone.symm.trans hold
      | resume hwaits => cases hwaits.symm.trans hold
    refine .committed hid hcommits ?_
    rw [hrelease]
    rfl
  · cases e with
    | expire path =>
        obtain ⟨networkManager, hexpire, hw⟩ := Option.map_eq_some_iff.mp he
        obtain ⟨checkpoint, hlive, rfl, hrelease⟩ := Store.expire_eq_some hexpire
        have hnetworkManager : h.world.networkManager = networkManager := by rw [← hw]
        refine ⟨by rw [← hw], ?_⟩
        by_cases hkey : checkpoint.key = device
        · refine .inr ⟨checkpoint, hlive, hkey, ?_, .expired List.mem_cons_self ?_⟩
          · rw [hnetworkManager, hrelease, hkey]
            exact bare_release
          · rw [hnetworkManager, hrelease]
            exact Function.update_self ..
        · exact .inl (expire_untouched hkey (hnetworkManager.trans hrelease))

end Move

/-! ## Whole runs -/

section Run

variable {g h k : Service.Config} {as bs : List Service.Act}

theorem LeftAlone.refl : LeftAlone η device g [] g := ⟨rfl, .inl (.of_eq rfl)⟩

theorem Untouched.bare {w w' : World} (h : Untouched η device w w')
    (hbare : w.networkManager.Bare device) : w'.networkManager.Bare device :=
  Store.bare_iff.mpr fun c hc hkey => Store.bare_iff.mp hbare c ((h.live c hkey).mp hc) hkey

/-- Requests that were answered stay so. -/
def Lasting (g h : Service.Config) : Prop :=
  ∀ i t r, g.threads i = some t → t.status = .done r → h.threads i = some t

theorem Commits.append_right {id : String} (hhk : Lasting h k) (hid : Commits g h id) :
    Commits g k id := by
  obtain ⟨i, t, hi, hcall, hdone, hnew⟩ := hid
  exact ⟨i, t, hhk i t _ hi hdone, hcall, hdone, hnew⟩

theorem Commits.append_left {id : String} (hgh : Lasting g h) (hid : Commits h k id) :
    Commits g k id := by
  obtain ⟨i, t, hi, hcall, hdone, hnew⟩ := hid
  exact ⟨i, t, hi, hcall, hdone, fun hold => hnew (hgh i t _ hold hdone)⟩

/-- A checkpoint may end in either half of a run, but only once. -/
theorem LeftAlone.append (hgh : LeftAlone η device g as h) (hhk : LeftAlone η device h bs k)
    (hlasting : Lasting g h) (hlasting' : Lasting h k) :
    LeftAlone η device g (as ++ bs) k := by
  refine ⟨hhk.version.trans hgh.version, ?_⟩
  rcases hgh.settings with hu | ⟨c, hc, rfl, hbare, hended⟩
  · rcases hhk.settings with hu' | ⟨c, hc, rfl, hbare, hended⟩
    · exact .inl (hu.trans hu')
    · refine .inr ⟨c, (hu.live c rfl).mp hc, rfl, hbare, ?_⟩
      cases hended with
      | committed hid hcommits hsaved =>
          exact .committed hid (hcommits.append_left hlasting) (hsaved.trans hu.saved)
      | expired hmem hsaved => exact .expired (List.mem_append_right _ hmem) hsaved
  · rcases hhk.settings with hu | ⟨c', hc', hkey, _⟩
    · refine .inr ⟨c, hc, rfl, hu.bare hbare, ?_⟩
      cases hended with
      | committed hid hcommits hsaved =>
          exact .committed hid (hcommits.append_right hlasting') (hu.saved.trans hsaved)
      | expired hmem hsaved =>
          exact .expired (List.mem_append_left _ hmem) (hu.saved.trans hsaved)
    · exact absurd hkey (Store.bare_iff.mp hbare c' hc')

theorem trace_leftAlone (htrace : Trace (Step η) η.env (StartsElsewhere η device) g as h)
    (hidle : Idle η device g) (horder : ∀ i t, g.threads i = some t → InOrder η t) :
    LeftAlone η device g as h := by
  induction htrace with
  | nil => exact .refl
  | @cons g g' h a as hok hmove htrace ih =>
      have hfirst := hidle.leftAlone horder hok hmove
      have hrest := ih (hidle.move horder hok hmove) (inOrder_move hmove horder)
      refine hfirst.append hrest (fun i t r hi hdone => ?_) fun i t r hi hdone => ?_
      · obtain ⟨t', hi', hext⟩ := hmove.thread hi
        rwa [hext.done r hdone] at hi'
      · obtain ⟨t', hi', hext⟩ := htrace.thread hi
        rwa [hext.done r hdone] at hi'

variable {saved : ObjectPath → VariantParentObject} {s t : Service.State}
variable {ok : Service.Config → Service.Act → Prop}

/-- Whatever runs at other devices and whatever is committed or expires, the device is left
as it was, or its checkpoint has ended. -/
theorem device_left_alone (has : η.system.Run ok (.init (World.init saved)) as s)
    (hidle : Idle η device s.config) (hbs : η.system.Run (StartsElsewhere η device) s bs t) :
    LeftAlone η device s.config bs t.config := by
  have horder : ∀ i t, s.config.threads i = some t → InOrder η t :=
    has.invariant (fun g => ∀ i t, g.threads i = some t → InOrder η t) (system_obeys η)
      (fun _ _ _ _ hmove hg => inOrder_move hmove hg) (.init _) fun i t hi => by cases hi
  have hobeys := (has.trace (system_obeys η) (.init _)).2
  exact trace_leftAlone (hbs.trace (system_obeys η) hobeys).1 hidle horder

end Run

/-- A request for DHCP on "wlan0", and then the commit for "eth0" is answered. -/
def updatedWlan0 : List Service.Act :=
  .start 3
      (.update "wlan0"
        { ipv4 := .value
            { address := .undefined, networkPrefix := .undefined, gateway := .undefined,
              dns := .undefined, method := .string "auto" }
          ipv6 := .undefined }) ::
    (List.replicate 12 (.resume 3 .resolve) ++ [.resume 2 .resolve])

theorem updatedWlan0_elsewhere {g : Service.Config} :
    ∀ a ∈ updatedWlan0, StartsElsewhere Host.sample eth0 g a := by
  rintro a ha i c rfl ⟨interfaceName, config, rfl, hdevice⟩
  simp only [updatedWlan0, List.mem_cons, List.mem_append, List.mem_replicate, Act.start.injEq,
    Call.update.injEq, reduceCtorEq, and_false, or_false, List.not_mem_nil] at ha
  obtain ⟨_, rfl, _⟩ := ha
  exact absurd (Option.some.inj hdevice) (by decide)

set_option maxRecDepth 2000 in
theorem device_left_alone_eth0 : ∃ s t,
    Host.sample.system.Run always (.init sampleWorld) appliedEth0 s ∧
      Idle Host.sample eth0 s.config ∧
        Host.sample.system.Run (StartsElsewhere Host.sample eth0) s updatedWlan0 t ∧
          LeftAlone Host.sample eth0 s.config updatedWlan0 t.config := by
  have has : Host.sample.system.Run always (.init sampleWorld) appliedEth0
      (sampleOutcome appliedEth0) := System.run_outcome rfl
  have hbs : ∃ t, Host.sample.system.Run (StartsElsewhere Host.sample eth0)
      (sampleOutcome appliedEth0) updatedWlan0 t :=
    ⟨_, System.run_outcome_of rfl fun n hn => updatedWlan0_elsewhere _ (List.getElem_mem hn)⟩
  have h0 : ∃ past r, (sampleOutcome appliedEth0).config.threads 0 =
      some { call := updateEth0, past, status := .done r } := ⟨_, _, rfl⟩
  have h1 : ∃ past r, (sampleOutcome appliedEth0).config.threads 1 =
      some { call := .immediate, past, status := .done r } := ⟨_, _, rfl⟩
  have h2 : ∃ past, (sampleOutcome appliedEth0).config.threads 2 =
      some { call := .commit "1", past,
             status := .waits (.checkpointDestroy (checkpointPath "1")) } := ⟨_, rfl⟩
  have himmediates : (sampleOutcome appliedEth0).config.world.immediates = [] := rfl
  generalize sampleOutcome appliedEth0 = s at has hbs h0 h1 h2 himmediates
  obtain ⟨past₀, r₀, h0⟩ := h0
  obtain ⟨past₁, r₁, h1⟩ := h1
  obtain ⟨past₂, h2⟩ := h2
  obtain ⟨t, hbs⟩ := hbs
  have hidle : Idle Host.sample eth0 s.config := by
    have hnone : ∀ i t, s.config.threads i = some t →
        ∀ immediate, t.status ≠ .waits (.reapply immediate) := by
      refine has.forall_threads ?_
      show ∀ i ∈ [0, 1, 2], _
      simp [h0, h1, h2]
    refine ⟨has.forall_threads ?_, fun immediate himmediate => ?_,
      fun i t immediate hi hstatus => absurd hstatus (hnone i t hi immediate)⟩
    · show ∀ i ∈ [0, 1, 2], _
      simp [h0, h1, h2, Call.Names]
    · rw [himmediates] at himmediate
      cases himmediate
  exact ⟨s, t, has, hidle, hbs, device_left_alone has hidle hbs⟩

end RpiNestApi.Network
