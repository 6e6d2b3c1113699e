import Mathlib.Data.List.Permutation
import Mathlib.Tactic.IntervalCases
import RpiNestApi.Network.Changes
import RpiNestApi.Network.Checkpoints
import RpiNestApi.Store.Serial

/-
Changes to one device, one after another.

An update reads the settings before it makes the checkpoint that keeps other
updates out, and saves all of them.  Where it would read the same settings when
the checkpoint is made, the committed settings of the device are made one of
another, and no committed change is lost.
-/

namespace RpiNestApi.Network

open Async Checkpointed

variable {η : Host} {device : ObjectPath}

/-- Where an update of the device makes its checkpoint, what it is about to save
is its changes of the settings that are saved then. -/
def CreatesFresh (η : Host) (device : ObjectPath) (g : Service.Config) (a : Service.Act) : Prop :=
  ∀ i c settings updateSettings, g.Runs i c (some (.checkpointCreate device settings)) a →
    c.Updates η device updateSettings → g.world.networkManager.Bare device →
    updateSettings.apply (g.world.networkManager.saved (η.profile device)) = .ok settings

/-- Two updates of the device, one of either family, are the only ones.  Both were
answered with a checkpoint id, and both ids were committed. -/
structure BothCommitted (η : Host) (device : ObjectPath) (g : Service.Config)
    (ipv4 ipv6 : VariantParentObject) : Prop where
  updates : ∃ i j t t' updateSettings updateSettings' id id', i ≠ j ∧
    g.threads i = some t ∧ g.threads j = some t' ∧
    t.call.Updates η device updateSettings ∧ updateSettings.ipv6 = none ∧
    t'.call.Updates η device updateSettings' ∧ updateSettings'.ipv4 = none ∧
    Returned η id t ∧ t.Awaited (.getAppliedConnection device ipv4 id) ∧ Committed g id ∧
    Returned η id' t' ∧ t'.Awaited (.getAppliedConnection device ipv6 id') ∧ Committed g id' ∧
    ∀ k s updateSettings, g.threads k = some s → s.call.Updates η device updateSettings →
      k = i ∨ k = j

/-- The settings of the device have both blocks. -/
def NoLostChange (η : Host) (device : ObjectPath) (g : Service.Config) : Prop :=
  ∀ ipv4 ipv6, BothCommitted η device g ipv4 ipv6 →
    (g.world.networkManager.saved (η.profile device)).lookup "ipv4" = ipv4.lookup "ipv4" ∧
    (g.world.networkManager.saved (η.profile device)).lookup "ipv6" = ipv6.lookup "ipv6"

/-! ## The committed settings of a device -/

/-- The checkpoint `id` of the device is live. -/
def Alive (g : Service.Config) (device : ObjectPath) (id : String) : Prop :=
  ∃ c ∈ g.world.networkManager.live, c.id = checkpointPath id ∧ c.key = device

/-- An update of the device holds the id, and it was committed. -/
def CommittedFor (η : Host) (device : ObjectPath) (g : Service.Config) (id : String) : Prop :=
  Committed g id ∧ ∃ i t settings, Holds η g i t device settings id

/-- An update has saved its changes of `v` as `v'` under the checkpoint `id`. -/
def Made (η : Host) (device : ObjectPath) (g : Service.Config) (id : String)
    (v v' : VariantParentObject) : Prop :=
  ∃ i t updateSettings, g.threads i = some t ∧ t.call.Updates η device updateSettings ∧
    t.Awaited (.getAppliedConnection device v' id) ∧ updateSettings.apply v = .ok v'

/-- No checkpoint of the device has expired. -/
def Sound (η : Host) (device : ObjectPath) (g : Service.Config) : Prop :=
  ∀ i t settings id, Holds η g i t device settings id → Alive g device id ∨ Committed g id

/-- The committed settings of the device, `ids` the latest first, end in `v`.  What
is saved is made of `v`, or is `v`. -/
structure Serial (η : Host) (device : ObjectPath) (v₀ : VariantParentObject) (g : Service.Config)
    (ids : List String) (v : VariantParentObject) : Prop where
  log : Checkpointed.Log (Made η device g) v₀ ids v
  nodup : ids.Nodup
  mem : ∀ id, id ∈ ids ↔ CommittedFor η device g id
  stands : g.world.networkManager.Stands η.profile device v
  saving : ∀ i t settings id updateSettings, g.threads i = some t →
    t.status = .waits (.update (η.profile device) settings id) →
    t.call.Updates η device updateSettings → updateSettings.apply v = .ok settings
  saved : ∀ i t settings id updateSettings, g.threads i = some t →
    t.Awaited (.getAppliedConnection device settings id) →
    t.call.Updates η device updateSettings → Alive g device id →
    g.world.networkManager.saved (η.profile device) = settings ∧
      updateSettings.apply v = .ok settings

section Move

variable {g h : Service.Config} {a : Service.Act}
variable {v₀ v : VariantParentObject} {ids : List String}

theorem Made.move (hmove : Move (Step η) η.env g a h) {id : String}
    {v v' : VariantParentObject} (hg : Made η device g id v v') : Made η device h id v v' := by
  obtain ⟨i, t, updateSettings, hi, hcall, hq, happly⟩ := hg
  obtain ⟨t', hi', hext⟩ := hmove.thread hi
  exact ⟨i, t', updateSettings, hi', hext.call ▸ hcall, hext.awaited _ hq, happly⟩

theorem CommittedFor.move (hmove : Move (Step η) η.env g a h) {id : String}
    (hg : CommittedFor η device g id) : CommittedFor η device h id := by
  obtain ⟨hid, i, t, settings, hold⟩ := hg
  obtain ⟨t', _, hold'⟩ := hold.move hmove
  exact ⟨hid.move hmove, i, t', settings, hold'⟩

/-- An id of the device was committed before, or the step destroys its checkpoint. -/
theorem CommittedFor.cases (hg : Numbered η g) (hmove : Move (Step η) η.env g a h) {id : String}
    (hh : CommittedFor η device h id) :
    CommittedFor η device g id ∨ Alive g device id ∧
      h.world.networkManager = g.world.networkManager.release device := by
  obtain ⟨hid, i, t, settings, hheld⟩ := hh
  rcases hid.cases hmove with hid | hdestroy
  · obtain ⟨_, _, _, _, _, _, hold⟩ := hg.committed hid
    rcases hheld.cases hmove with ⟨t₀, _, hold₀⟩ | hnew
    · exact .inl ⟨hid, i, t₀, settings, hold₀⟩
    · exact absurd hnew (hg.fresh hold)
  · obtain ⟨c, hc, hid', hrelease⟩ := Store.destroy_eq_some hdestroy
    obtain ⟨_, _, _, id', hid'', hold⟩ := hg.live c hc
    obtain rfl := checkpointPath_injective (hid'.symm.trans hid'')
    rcases hheld.cases hmove with ⟨t₀, _, hold₀⟩ | hnew
    · obtain rfl := hg.key hold₀ hc hid'
      exact .inr ⟨⟨c, hc, hid', rfl⟩, hrelease⟩
    · exact absurd hnew (hg.fresh hold)

/-- A checkpoint that has expired does not come back. -/
theorem Sound.back (hg : Numbered η g) (hmove : Move (Step η) η.env g a h)
    (hh : Sound η device h) : Sound η device g := by
  intro i t settings id hold
  obtain ⟨t', _, hold'⟩ := hold.move hmove
  rcases hh i t' settings id hold' with ⟨c, hc, hid, hkey⟩ | hcommitted
  · rcases live_cases hmove hc with hc | ⟨j, t'', settings', id', hid', hnew⟩
    · exact .inl ⟨c, hc, hid, hkey⟩
    · obtain rfl := checkpointPath_injective (hid.symm.trans hid')
      exact absurd hnew (hg.fresh hold)
  · rcases CommittedFor.cases hg hmove ⟨hcommitted, i, t', settings, hold'⟩ with hold | ⟨halive, _⟩
    · exact .inr hold.1
    · exact .inl halive

/-- What is committed was returned, and its update no longer waits. -/
theorem Numbered.not_committed (hg : Numbered η g) {i : Nat} {t : Service.Thread}
    {settings : VariantParentObject} {id : String} (hi : g.threads i = some t)
    (hstatus : t.status = .waits (.update (η.profile device) settings id)) : ¬ Committed g id := by
  intro hid
  obtain ⟨j, t', _, _, hreturned, _, hold⟩ := hg.committed hid
  obtain ⟨rfl, _, _⟩ := hg.unique ⟨hi, .inl hstatus⟩ hold
  obtain rfl := Option.some.inj (hi.symm.trans hold.thread)
  cases hstatus.symm.trans hreturned

/-- Ids of two live checkpoints of a device are the same. -/
theorem Alive.unique {id id' : String} (hg : Alive g device id) (hg' : Alive g device id') :
    id = id' := by
  obtain ⟨c, hc, hid, hkey⟩ := hg
  obtain ⟨c', hc', hid', hkey'⟩ := hg'
  obtain rfl := Store.eq_of_key_eq hc hc' (hkey.trans hkey'.symm)
  exact checkpointPath_injective (hid.symm.trans hid')

theorem Alive.not_bare {id : String} (hg : Alive g device id) :
    ¬ g.world.networkManager.Bare device := by
  obtain ⟨c, hc, _, hkey⟩ := hg
  exact fun hbare => Store.bare_iff.mp hbare c hc hkey

/-- The settings and the checkpoint of the device are left alone. -/
structure Untouched (η : Host) (device : ObjectPath) (w w' : World) : Prop where
  saved : w'.networkManager.saved (η.profile device) = w.networkManager.saved (η.profile device)
  live : ∀ c, c.key = device → (c ∈ w'.networkManager.live ↔ c ∈ w.networkManager.live)

/-! An operation at another device leaves the device alone. -/

section Untouched

variable {w w' : World} {device' : ObjectPath}

theorem Untouched.of_eq (h : w'.networkManager = w.networkManager) : Untouched η device w w' :=
  ⟨by rw [h], fun c _ => by rw [h]⟩

theorem Untouched.create {path : ObjectPath} (hne : device' ≠ device)
    (h : w.networkManager.create η.profile path device' = some w'.networkManager) :
    Untouched η device w w' := by
  obtain ⟨_, hsaved, hlive⟩ := Store.create_eq_some h
  refine ⟨by rw [hsaved], fun c hkey => ?_⟩
  rw [hlive, List.mem_cons]
  exact or_iff_right fun he => hne (by rw [← hkey, he])

theorem Untouched.save {settings : VariantParentObject} (hne : device' ≠ device)
    (h : w'.networkManager = w.networkManager.save (η.profile device') settings) :
    Untouched η device w w' := by
  refine ⟨?_, fun c _ => by rw [h]; rfl⟩
  rw [h, Store.saved_save, Function.update_of_ne fun hprofile =>
    hne (η.profile_injective hprofile).symm]

theorem Untouched.release (hne : device' ≠ device)
    (h : w'.networkManager = w.networkManager.release device') : Untouched η device w w' := by
  refine ⟨by rw [h]; rfl, fun c hkey => ?_⟩
  rw [h, Store.mem_release]
  exact and_iff_left fun he => hne (he.symm.trans hkey)

theorem Untouched.trans {w'' : World} (h : Untouched η device w w')
    (h' : Untouched η device w' w'') : Untouched η device w w'' where
  saved := h'.saved.trans h.saved
  live c hkey := (h'.live c hkey).trans (h.live c hkey)

end Untouched

theorem Untouched.alive (hu : Untouched η device g.world h.world) {id : String} :
    Alive h device id ↔ Alive g device id := by
  constructor
  · rintro ⟨c, hc, hid, hkey⟩
    exact ⟨c, (hu.live c hkey).mp hc, hid, hkey⟩
  · rintro ⟨c, hc, hid, hkey⟩
    exact ⟨c, (hu.live c hkey).mpr hc, hid, hkey⟩

theorem Untouched.not_released (hu : Untouched η device g.world h.world) {id : String}
    (halive : Alive g device id) :
    h.world.networkManager ≠ g.world.networkManager.release device := by
  intro hrelease
  obtain ⟨c, hc, _, hkey⟩ := halive
  have hc' := (hu.live c hkey).mpr hc
  rw [hrelease] at hc'
  exact (Store.mem_release.mp hc').2 hkey

/-- A step that leaves the device alone, and of which no update of it starts to
save or has just saved. -/
theorem Serial.untouched (hs : Serial η device v₀ g ids v) (hg : Numbered η g)
    (hmove : Move (Step η) η.env g a h) (hu : Untouched η device g.world h.world)
    (hwaits : ∀ i t settings id, h.threads i = some t →
      t.status = .waits (.update (η.profile device) settings id) → g.threads i = some t)
    (hsaves : ∀ i t settings id, h.threads i = some t →
      t.Awaited (.getAppliedConnection device settings id) →
      ∃ t₀, g.threads i = some t₀ ∧ t₀.Extends t ∧
        t₀.Awaited (.getAppliedConnection device settings id)) :
    Serial η device v₀ h ids v where
  log := hs.log.mono fun _ _ _ hm => hm.move hmove
  nodup := hs.nodup
  mem id := by
    rw [hs.mem]
    refine ⟨fun hid => hid.move hmove, fun hid => ?_⟩
    exact (CommittedFor.cases hg hmove hid).resolve_right fun ⟨halive, hrelease⟩ =>
      hu.not_released halive hrelease
  stands := hs.stands.congr hu.saved hu.live
  saving i t settings id updateSettings hi hstatus hcall :=
    hs.saving i t settings id updateSettings (hwaits i t settings id hi hstatus) hstatus hcall
  saved i t settings id updateSettings hi hq hcall halive := by
    obtain ⟨t₀, hi₀, hext, hq₀⟩ := hsaves i t settings id hi hq
    rw [hu.saved]
    exact hs.saved i t₀ settings id updateSettings hi₀ hq₀ (hext.call ▸ hcall)
      (hu.alive.mp halive)

/-! ## Steps at the device -/

/-- A checkpoint is made. -/
theorem Serial.create (hs : Serial η device v₀ g ids v) (hg : Numbered η g)
    (hfresh : CreatesFresh η device g a) (hmove : Move (Step η) η.env g a h) {i : Nat}
    {t : Service.Thread} {settings : VariantParentObject} {id : String}
    (hm : Makes η g h a i t device settings id) : Serial η device v₀ h ids v := by
  obtain ⟨hbare, hsaved, hlive⟩ := Store.create_eq_some hm.create
  have hv : g.world.networkManager.saved (η.profile device) = v := hs.stands.bare hbare
  refine
    { log := hs.log.mono fun _ _ _ hmade => hmade.move hmove, nodup := hs.nodup,
      mem := fun id' => ?_, stands := hs.stands.create hm.create,
      saving := fun j t' settings' id' updateSettings hj hstatus hcall => ?_,
      saved := fun j t' settings' id' updateSettings hj hq hcall halive => ?_ }
  · rw [hs.mem]
    refine ⟨fun hid => hid.move hmove, fun hid => ?_⟩
    exact (CommittedFor.cases hg hmove hid).resolve_right fun ⟨halive, _⟩ =>
      halive.not_bare hbare
  · rcases hmove.old_or hm.runs hm.thread hj with hold | ⟨rfl, rfl⟩
    · exact hs.saving j t' settings' id' updateSettings hold hstatus hcall
    · have he := hm.status.symm.trans hstatus
      simp only [Status.waits.injEq, Await.update.injEq] at he
      obtain ⟨_, rfl, _⟩ := he
      exact hv ▸ hfresh j _ settings updateSettings hm.runs hcall hbare
  · rcases hmove.awaited_or hm.runs hm.thread hj hq with ⟨t₀, hj₀, hext, hq₀⟩ | ⟨_, _, hstatus⟩
    · have hold : Holds η g j t₀ device settings' id' :=
        ⟨hj₀, (hg.order j t₀ hj₀).applied device settings' id' hq₀⟩
      obtain ⟨c, hc, hid, hkey⟩ := halive
      have hc' : c ∈ g.world.networkManager.live := by
        rcases live_cases hmove hc with hc | ⟨_, _, _, id'', hid', hnew⟩
        · exact hc
        · obtain rfl := checkpointPath_injective (hid.symm.trans hid')
          exact absurd hnew (hg.fresh hold)
      exact absurd hkey (Store.bare_iff.mp hbare c hc')
    · cases hm.status.symm.trans hstatus

/-- The settings are saved under the checkpoint. -/
theorem Serial.save (hs : Serial η device v₀ g ids v) (hg : Numbered η g)
    (hsound : Sound η device g) (hmove : Move (Step η) η.env g a h) {i : Nat} {c : Call}
    {past : List Await} {settings : VariantParentObject} {id : String}
    (hruns : g.Runs i c (some (.update (η.profile device) settings id)) a)
    (hi : h.threads i =
      some { call := c, past, status := .waits (.getAppliedConnection device settings id) })
    (hsave : h.world.networkManager = g.world.networkManager.save (η.profile device) settings) :
    Serial η device v₀ h ids v := by
  obtain ⟨past₀, hi₀⟩ : ∃ past, g.threads i = some
      { call := c, past, status := .waits (.update (η.profile device) settings id) } := by
    cases hruns with
    | resume hi₀ => exact ⟨_, hi₀⟩
  have hold : Holds η g i _ device settings id := ⟨hi₀, .inl rfl⟩
  have halive : Alive g device id :=
    (hsound i _ settings id hold).resolve_right (hg.not_committed hi₀ rfl)
  have hlive : h.world.networkManager.live = g.world.networkManager.live := by rw [hsave]; rfl
  have hsaved : h.world.networkManager.saved (η.profile device) = settings := by
    rw [hsave, Store.saved_save, Function.update_self]
  refine
    { log := hs.log.mono fun _ _ _ hmade => hmade.move hmove, nodup := hs.nodup,
      mem := fun id' => ?_, stands := ?_,
      saving := fun j t' settings' id' updateSettings hj hstatus hcall => ?_,
      saved := fun j t' settings' id' updateSettings hj hq hcall halive' => ?_ }
  · rw [hs.mem]
    refine ⟨fun hid => hid.move hmove, fun hid => ?_⟩
    refine (CommittedFor.cases hg hmove hid).resolve_right fun ⟨⟨c, hc, _, hkey⟩, hrelease⟩ => ?_
    rw [← hlive, hrelease] at hc
    exact (Store.mem_release.mp hc).2 hkey
  · rw [hsave]
    exact hs.stands.save η.profile_injective fun hbare => absurd hbare halive.not_bare
  · rcases hmove.old_or hruns hi hj with hold' | ⟨_, rfl⟩
    · exact hs.saving j t' settings' id' updateSettings hold' hstatus hcall
    · cases hstatus
  · rw [hsaved]
    rcases hmove.awaited_or hruns hi hj hq with ⟨t₀, hj₀, hext, hq₀⟩ | ⟨_, rfl, hstatus⟩
    · have hold' : Holds η g j t₀ device settings' id' :=
        ⟨hj₀, (hg.order j t₀ hj₀).applied device settings' id' hq₀⟩
      have halive₀ : Alive g device id' := by
        obtain ⟨c, hc, hid, hkey⟩ := halive'
        exact ⟨c, hlive ▸ hc, hid, hkey⟩
      obtain rfl := halive.unique halive₀
      obtain ⟨_, _, rfl⟩ := hg.unique hold hold'
      exact ⟨rfl, (hs.saved j t₀ settings id updateSettings hj₀ hq₀ (hext.call ▸ hcall) halive).2⟩
    · cases hstatus
      exact ⟨rfl, hs.saving i _ settings id updateSettings hi₀ rfl hcall⟩

/-- The checkpoint is destroyed. -/
theorem Serial.commit (hs : Serial η device v₀ g ids v) (hg : Numbered η g)
    (hsound : Sound η device g) (hmove : Move (Step η) η.env g a h) {i : Nat} {id : String}
    {o : Option Await} {past : List Await} (hruns : g.Runs i (.commit id) o a)
    (hi : h.threads i = some { call := .commit id, past, status := .done (.ok .void) })
    (hreturned : ∃ j t, g.threads j = some t ∧ Returned η id t) (halive : Alive g device id)
    (hrelease : h.world.networkManager = g.world.networkManager.release device) :
    Serial η device v₀ h (id :: ids) (g.world.networkManager.saved (η.profile device)) := by
  obtain ⟨j, t, hj, hreturned⟩ := hreturned
  have horder := hg.order j t hj
  obtain ⟨device', settings, hq⟩ := horder.returned id hreturned
  have hold : Holds η g j t device' settings id := ⟨hj, horder.applied device' settings id hq⟩
  obtain rfl : device = device' := by
    obtain ⟨c, hc, hid, rfl⟩ := halive
    exact hg.key hold hc hid
  obtain ⟨_, hprofile, hcreate⟩ := horder.update _ settings id hold.awaited
  obtain rfl := η.profile_injective hprofile
  obtain ⟨updateSettings, hcall⟩ := horder.create device settings hcreate
  obtain ⟨hsaved, happly⟩ := hs.saved j t settings id updateSettings hj hq hcall halive
  have hcommitted : CommittedFor η device h id := by
    obtain ⟨t', _, hold'⟩ := hold.move hmove
    exact ⟨⟨i, _, hi, rfl, rfl⟩, j, t', settings, hold'⟩
  have hmade : Made η device g id v settings := ⟨j, t, updateSettings, hj, hcall, hq, happly⟩
  have hnot : ¬ Alive h device id := by
    rintro ⟨c, hc, _, hkey⟩
    rw [hrelease] at hc
    exact (Store.mem_release.mp hc).2 hkey
  rw [hsaved]
  refine
    { log := .cons (hs.log.mono fun _ _ _ hmade => hmade.move hmove) (hmade.move hmove),
      nodup := List.nodup_cons.mpr ⟨fun hid => ?_, hs.nodup⟩, mem := fun id' => ?_, stands := ?_,
      saving := fun k t' settings' id' updateSettings hk hstatus hcall => ?_,
      saved := fun k t' settings' id' updateSettings hk hq hcall halive' => ?_ }
  · obtain ⟨c, hc, hid', _⟩ := halive
    exact hg.dead id ((hs.mem id).mp hid).1 c hc hid'
  · rw [List.mem_cons, hs.mem]
    constructor
    · rintro (rfl | hid)
      · exact hcommitted
      · exact hid.move hmove
    · intro hid
      exact (CommittedFor.cases hg hmove hid).elim .inr fun ⟨halive', _⟩ =>
        .inl (halive'.unique halive)
  · rw [hrelease, ← hsaved]
    exact .release _ _
  · rcases hmove.old_or hruns hi hk with hk₀ | ⟨_, rfl⟩
    · have hnone := hg.not_committed hk₀ hstatus
      have halive' := (hsound k t' settings' id' ⟨hk₀, .inl hstatus⟩).resolve_right hnone
      obtain rfl := halive.unique halive'
      obtain ⟨rfl, _, _⟩ := hg.unique hold ⟨hk₀, .inl hstatus⟩
      obtain rfl := Option.some.inj (hj.symm.trans hk₀)
      cases hstatus.symm.trans hreturned
    · cases hstatus
  · obtain ⟨c, hc, _, hkey⟩ := halive'
    rw [hrelease] at hc
    exact absurd hkey (Store.mem_release.mp hc).2

/-- A step of a thread that is not about to save settings of the device, and has
not just saved them, is serial if it leaves the device alone. -/
theorem Serial.elsewhere (hs : Serial η device v₀ g ids v) (hg : Numbered η g)
    (hmove : Move (Step η) η.env g a h) {i : Nat} {c : Call} {o : Option Await}
    {past : List Await} {st : Status Await Exception Response} (hruns : g.Runs i c o a)
    (hi : h.threads i = some { call := c, past, status := st })
    (hupdate : ∀ settings id, st ≠ .waits (.update (η.profile device) settings id))
    (happlied : ∀ settings id, st ≠ .waits (.getAppliedConnection device settings id))
    (hu : Untouched η device g.world h.world) : Serial η device v₀ h ids v := by
  refine hs.untouched hg hmove hu (fun j t settings id hj hstatus => ?_)
    fun j t settings id hj hq => ?_
  · refine (hmove.old_or hruns hi hj).resolve_right ?_
    rintro ⟨_, rfl⟩
    exact hupdate settings id hstatus
  · refine (hmove.awaited_or hruns hi hj hq).resolve_right ?_
    rintro ⟨_, _, hstatus⟩
    exact happlied settings id hstatus

/-- The steps of the device are serial as long as none of its checkpoints has
expired. -/
theorem Serial.move (hs : Serial η device v₀ g ids v) (hg : Numbered η g)
    (hok : CommitsReturned η g a) (hfresh : CreatesFresh η device g a)
    (hmove : Move (Step η) η.env g a h) (hsound : Sound η device h) :
    ∃ ids v, Serial η device v₀ h ids v := by
  have hback := hsound.back hg hmove
  rcases hmove.runs with ⟨i, c, o, past, st, hruns, hT, hi⟩ | ⟨e, rfl, he⟩
  · by_cases happlied : ∃ settings id, st = .waits (.getAppliedConnection device settings id)
    · obtain ⟨settings, id, rfl⟩ := happlied
      obtain ⟨rfl, hsave⟩ := hT.saves
      exact ⟨ids, v, hs.save hg hback hmove hruns hi hsave⟩
    · have happlied : ∀ settings id, st ≠ .waits (.getAppliedConnection device settings id) :=
        fun settings id hst => happlied ⟨settings, id, hst⟩
      cases hT.effect with
      | none hsame hst =>
          exact ⟨ids, v, hs.elsewhere hg hmove hruns hi (fun _ _ => hst _ _ _) happlied
            (.of_eq hsame)⟩
      | @create device' settings id _ =>
          obtain ⟨_, hprofile, rfl, hid, hcheckpoints, hcreate⟩ := hT.creates
          obtain rfl := η.profile_injective hprofile
          by_cases hdevice : device' = device
          · subst hdevice
            exact ⟨ids, v, hs.create hg hfresh hmove
              ⟨hruns, hi, rfl, hid, hcheckpoints, hcreate⟩⟩
          · refine ⟨ids, v, hs.elsewhere hg hmove hruns hi (fun _ _ he => ?_) happlied
              (.create hdevice hcreate)⟩
            simp only [Status.waits.injEq, Await.update.injEq] at he
            exact hdevice (η.profile_injective he.1)
      | @save interfaceName config device' settings id hc ho hsave =>
          have hdevice : device' ≠ device := fun hdevice => happlied settings id (by rw [hdevice])
          exact ⟨ids, v, hs.elsewhere hg hmove hruns hi (fun _ _ he => by cases he) happlied
            (.save hdevice hsave)⟩
      | @destroy id hc hdestroy =>
          obtain ⟨c', hc', hid, hrelease⟩ := Store.destroy_eq_some hdestroy
          subst hc
          by_cases hdevice : c'.key = device
          · subst hdevice
            have hreturned : ∃ j t, g.threads j = some t ∧ Returned η id t := by
              cases hruns with
              | start => exact hok
              | resume hi₀ => exact hg.commits i _ id hi₀ rfl
            exact ⟨_, _, hs.commit hg hback hmove hruns hi hreturned ⟨c', hc', hid, rfl⟩ hrelease⟩
          · exact ⟨ids, v, hs.elsewhere hg hmove hruns hi (fun _ _ he => by cases he) happlied
              (.release hdevice hrelease)⟩
  · cases e with
    | expire path =>
        obtain ⟨networkManager, hexpire, hw⟩ := Option.map_eq_some_iff.mp he
        obtain ⟨c', hc', hid, hrelease⟩ := Store.expire_eq_some hexpire
        have hthreads := hmove.env_threads
        have hnetwork : h.world.networkManager = networkManager := by rw [← hw]
        have hdevice : c'.key ≠ device := by
          rintro rfl
          obtain ⟨i, t, settings, id, hid', hold⟩ := hg.live c' hc'
          rcases hsound i t settings id ⟨hthreads ▸ hold.thread, hold.awaited⟩ with
            ⟨c, hc, _, hkey⟩ | hcommitted
          · rw [hnetwork, hrelease] at hc
            exact (Store.mem_release.mp hc).2 hkey
          · rw [Committed, hthreads] at hcommitted
            exact hg.dead id hcommitted c' hc' hid'
        let undone : World :=
          { g.world with
            networkManager := g.world.networkManager.save (η.profile c'.key) c'.snapshot }
        have hsaved : Untouched η device g.world undone := .save hdevice rfl
        have hu : Untouched η device g.world h.world :=
          hsaved.trans (.release hdevice (hnetwork.trans hrelease))
        refine ⟨ids, v, hs.untouched hg hmove hu (fun i t _ _ hi _ => hthreads ▸ hi)
          fun i t _ _ hi hq => ⟨t, hthreads ▸ hi, .refl t, hq⟩⟩

end Move

/-! ## Runs -/

/-- Only returned ids are committed, and the updates of the device are fresh. -/
def InTurn (η : Host) (device : ObjectPath) (g : Service.Config) (a : Service.Act) : Prop :=
  CommitsReturned η g a ∧ CreatesFresh η device g a

variable {saved : ObjectPath → VariantParentObject} {as : List Service.Act} {s : Service.State}

theorem Serial.init : Serial η device (saved (η.profile device))
    (State.init (World.init saved) : Service.State).config [] (saved (η.profile device)) where
  log := .nil
  nodup := List.nodup_nil
  mem id := by
    refine iff_of_false List.not_mem_nil fun ⟨⟨i, t, hi, _⟩, _⟩ => ?_
    cases hi
  stands := .init saved device
  saving i t _ _ _ hi := by cases hi
  saved i t _ _ _ hi := by cases hi

theorem run_serial (hrun : η.system.Run (InTurn η device) (.init (World.init saved)) as s) :
    Numbered η s.config ∧ (Sound η device s.config →
      ∃ ids v, Serial η device (saved (η.profile device)) s.config ids v) := by
  refine hrun.invariant (fun g => Numbered η g ∧ (Sound η device g →
      ∃ ids v, Serial η device (saved (η.profile device)) g ids v)) (system_obeys η)
    (fun g a h hok hmove hg => ⟨hg.1.move hok.1 hmove, fun hsound => ?_⟩) (.init _)
    ⟨.init, fun _ => ⟨[], saved (η.profile device), .init⟩⟩
  obtain ⟨ids, v, hs⟩ := hg.2 (hsound.back hg.1 hmove)
  exact hs.move hg.1 hok.1 hok.2 hmove hsound

/-- What was made under an id is what its update has saved. -/
theorem Made.eq {g : Service.Config} (hg : Numbered η g) {i : Nat} {t : Service.Thread}
    {settings v v' : VariantParentObject} {id : String}
    (hold : Holds η g i t device settings id) {updateSettings : UpdatableSettings}
    (hcall : t.call.Updates η device updateSettings) (hm : Made η device g id v v') :
    v' = settings ∧ updateSettings.apply v = .ok settings := by
  obtain ⟨j, t', updateSettings', hj, hcall', hq, happly⟩ := hm
  obtain ⟨rfl, _, rfl⟩ := hg.unique ⟨hj, (hg.order j t' hj).applied device v' id hq⟩ hold
  obtain rfl := Option.some.inj (hj.symm.trans hold.thread)
  obtain ⟨_, rfl⟩ := hcall.unique hcall'
  exact ⟨rfl, happly⟩

/-- In every run of fresh updates of the device, no committed change of it is lost. -/
theorem no_lost_change (hrun : η.system.Run (InTurn η device) (.init (World.init saved)) as s) :
    NoLostChange η device s.config := by
  rintro ipv4 ipv6 ⟨i, j, t, t', updateSettings, updateSettings', id, id', hij, hi, hj, hcall,
    hnone, hcall', hnone', _, hq, hid, _, hq', hid', honly⟩
  obtain ⟨hg, hserial⟩ := run_serial hrun
  have hold : Holds η s.config i t device ipv4 id :=
    ⟨hi, (hg.order i t hi).applied device ipv4 id hq⟩
  have hold' : Holds η s.config j t' device ipv6 id' :=
    ⟨hj, (hg.order j t' hj).applied device ipv6 id' hq'⟩
  have hids : ∀ k t'' settings id'', Holds η s.config k t'' device settings id'' →
      id'' = id ∨ id'' = id' := by
    intro k t'' settings id'' hheld
    obtain ⟨_, hprofile, hcreate⟩ := (hg.order k t'' hheld.thread).update _ _ _ hheld.awaited
    obtain rfl := η.profile_injective hprofile
    obtain ⟨_, hcall''⟩ := (hg.order k t'' hheld.thread).create _ _ hcreate
    rcases honly k t'' _ hheld.thread hcall'' with rfl | rfl
    · obtain rfl := Option.some.inj (hheld.thread.symm.trans hi)
      exact .inl ((hg.order k t'' hi).once _ _ _ _ _ _ hheld.awaited hold.awaited)
    · obtain rfl := Option.some.inj (hheld.thread.symm.trans hj)
      exact .inr ((hg.order k t'' hj).once _ _ _ _ _ _ hheld.awaited hold'.awaited)
  have hcommitted : ∀ k t'' settings id'', Holds η s.config k t'' device settings id'' →
      Committed s.config id'' := by
    intro k t'' settings id'' hheld
    rcases hids k t'' settings id'' hheld with rfl | rfl
    · exact hid
    · exact hid'
  obtain ⟨ids, v, hs⟩ := hserial fun k t'' settings id'' hheld =>
    .inr (hcommitted k t'' settings id'' hheld)
  have hbare : s.world.networkManager.Bare device := by
    refine Store.bare_iff.mpr fun c hc hkey => ?_
    obtain ⟨k, t'', settings, id'', hid'', hheld⟩ := hg.live c hc
    exact hg.dead id'' (hcommitted k t'' settings id'' (hkey ▸ hheld)) c hc hid''
  have hv : s.world.networkManager.saved (η.profile device) = v := hs.stands.bare hbare
  have hne : id ≠ id' := by
    rintro rfl
    exact hij (hg.unique hold hold').1
  have hperm : ids.Perm [id, id'] := by
    refine (List.perm_ext_iff_of_nodup hs.nodup (by simp [hne])).mpr fun id'' => ?_
    rw [hs.mem, List.mem_pair]
    constructor
    · rintro ⟨_, k, t'', settings, hheld⟩
      exact hids k t'' settings id'' hheld
    · rintro (rfl | rfl)
      · exact ⟨hid, i, t, ipv4, hold⟩
      · exact ⟨hid', j, t', ipv6, hold'⟩
  rw [State.config_world, hv]
  rcases List.perm_pair.mp hperm with rfl | rfl
  · obtain ⟨u, hu, hlast⟩ := hs.log.pair
    obtain ⟨rfl, hfirst⟩ := hu.eq hg hold' hcall'
    obtain ⟨rfl, hsecond⟩ := hlast.eq hg hold hcall
    exact ⟨rfl, UpdatableSettings.lookup_apply_apply hfirst hsecond (f := .ipv6) hnone⟩
  · obtain ⟨u, hu, hlast⟩ := hs.log.pair
    obtain ⟨rfl, hfirst⟩ := hu.eq hg hold hcall
    obtain ⟨rfl, hsecond⟩ := hlast.eq hg hold' hcall'
    exact ⟨UpdatableSettings.lookup_apply_apply hfirst hsecond (f := .ipv4) hnone', rfl⟩

/-! Two requests for "eth0", for runs on given inputs. -/

theorem CreatesFresh.of_start {g : Service.Config} {i : Nat} {c : Call} :
    CreatesFresh η device g (.start i c) := by
  intro j c settings updateSettings hruns
  cases hruns

theorem CreatesFresh.of_resume {g : Service.Config} {i : Nat} {k : Choice} {t : Service.Thread}
    (hi : g.threads i = some t)
    (ht : ∀ settings, t.status ≠ .waits (.checkpointCreate device settings)) :
    CreatesFresh η device g (.resume i k) := by
  intro j c settings updateSettings hruns
  cases hruns with
  | resume hj =>
      rw [hi] at hj
      cases hj
      exact absurd rfl (ht settings)

theorem CreatesFresh.of_create {g : Service.Config} {i : Nat} {k : Choice} {t : Service.Thread}
    {settings : VariantParentObject} {updateSettings : UpdatableSettings}
    (hi : g.threads i = some t) (ht : t.status = .waits (.checkpointCreate device settings))
    (hcall : t.call.Updates η device updateSettings)
    (happly : updateSettings.apply (g.world.networkManager.saved (η.profile device)) =
      .ok settings) : CreatesFresh η device g (.resume i k) := by
  intro j c settings' updateSettings' hruns hcall' _
  cases hruns with
  | resume hj =>
      rw [hi] at hj
      cases hj
      cases ht
      obtain ⟨_, rfl⟩ := hcall.unique hcall'
      exact happly

def autoSettings : SimpleIpSettings :=
  { address := .undefined, networkPrefix := .undefined, gateway := .undefined, dns := .undefined,
    method := .string "auto" }

/-- A request for automatic IPv6 settings on "eth0". -/
def updateEth0Ipv6 : Call := .update "eth0" { ipv4 := .undefined, ipv6 := .value autoSettings }

def commitId (i : Nat) (id : String) : List Service.Act :=
  .start i (.commit id) :: List.replicate 2 (.resume i .resolve)

/-- One update is committed before the next one starts. -/
def changesInTurn : List Service.Act :=
  runUpdate 0 ++ commitId 1 "1" ++
    .start 2 updateEth0Ipv6 :: List.replicate 12 (.resume 2 .resolve) ++ commitId 3 "2"

set_option maxRecDepth 2000 in
theorem no_lost_change_eth0 : ∃ s,
    Host.sample.system.Run (InTurn Host.sample eth0) (.init sampleWorld) changesInTurn s ∧
      NoLostChange Host.sample eth0 s.config := by
  have hrun : Host.sample.system.Run (InTurn Host.sample eth0) (.init sampleWorld) changesInTurn
      (sampleOutcome changesInTurn) := by
    refine System.run_outcome_of (by decide +kernel) fun n hn => ?_
    have hn32 : n < 32 := hn
    interval_cases n
    case «13» => exact ⟨⟨0, _, rfl, rfl⟩, .of_start⟩
    case «29» => exact ⟨⟨2, _, rfl, rfl⟩, .of_start⟩
    case «10» => exact ⟨trivial, .of_create rfl rfl ⟨_, _, rfl, rfl, rfl⟩ rfl⟩
    case «26» => exact ⟨trivial, .of_create rfl rfl ⟨_, _, rfl, rfl, rfl⟩ rfl⟩
    all_goals first
      | exact ⟨trivial, .of_start⟩
      | exact ⟨trivial, .of_resume rfl fun _ h => by cases h⟩
  exact ⟨_, hrun, no_lost_change hrun⟩

/-- The other update is committed between the read and the checkpoint. -/
def changesAtOnce : List Service.Act :=
  .start 0 updateEth0 :: List.replicate 9 (.resume 0 .resolve) ++
    .start 1 updateEth0Ipv6 :: List.replicate 12 (.resume 1 .resolve) ++ commitId 2 "1" ++
    List.replicate 3 (.resume 0 .resolve) ++ commitId 3 "2"

theorem lost_change :
    ¬ ∀ (as : List Service.Act) (s : Service.State),
      Host.sample.system.Run (CommitsReturned Host.sample) (.init sampleWorld) as s →
      NoLostChange Host.sample eth0 s.config := by
  intro hall
  have hrun : Host.sample.system.Run (CommitsReturned Host.sample) (.init sampleWorld)
      changesAtOnce (sampleOutcome changesAtOnce) := by
    refine System.run_outcome_of (by decide +kernel) fun n hn => ?_
    have hn32 : n < 32 := hn
    interval_cases n
    case «23» => exact ⟨1, _, rfl, rfl⟩
    case «29» => exact ⟨0, _, rfl, rfl⟩
    all_goals trivial
  have hlost := hall _ _ hrun
  have h0 : ∃ past ipv4, (sampleOutcome changesAtOnce).config.threads 0 = some
      { call := updateEth0, past := .getAppliedConnection eth0 ipv4 "2" :: past,
        status := .done (.ok (.confirm
          (NetworkService.confirmationUrl Host.sample.config "2"))) } := ⟨_, _, rfl⟩
  have h1 : ∃ past ipv6, (sampleOutcome changesAtOnce).config.threads 1 = some
      { call := updateEth0Ipv6, past := .getAppliedConnection eth0 ipv6 "1" :: past,
        status := .done (.ok (.confirm
          (NetworkService.confirmationUrl Host.sample.config "1"))) } ∧
      (ipv6.lookup "ipv6").bind (·.lookup "method") =
        some (toVariant "s" (.string "auto")) := ⟨_, _, rfl, rfl⟩
  have h2 : ∃ past, (sampleOutcome changesAtOnce).config.threads 2 = some
      { call := .commit "1", past, status := .done (.ok .void) } := ⟨_, rfl⟩
  have h3 : ∃ past, (sampleOutcome changesAtOnce).config.threads 3 = some
      { call := .commit "2", past, status := .done (.ok .void) } := ⟨_, rfl⟩
  have hsaved : (((sampleOutcome changesAtOnce).world.networkManager.saved
      (Host.sample.profile eth0)).lookup "ipv6").bind (·.lookup "method") = none := rfl
  generalize sampleOutcome changesAtOnce = s at hrun hlost h0 h1 h2 h3 hsaved
  obtain ⟨past₀, ipv4, h0⟩ := h0
  obtain ⟨past₁, ipv6, h1, hblock⟩ := h1
  obtain ⟨past₂, h2⟩ := h2
  obtain ⟨past₃, h3⟩ := h3
  have honly : ∀ k t, s.config.threads k = some t → ∀ updateSettings,
      t.call.Updates Host.sample eth0 updateSettings → k = 0 ∨ k = 1 := by
    refine hrun.forall_threads ?_
    show ∀ i ∈ [0, 1, 2, 3], _
    simp [h0, h1, h2, h3, Call.Updates]
  obtain ⟨_, hlookup⟩ := hlost ipv4 ipv6
    ⟨0, 1, _, _, _, _, "2", "1", by decide, h0, h1, ⟨_, _, rfl, rfl, rfl⟩, rfl,
      ⟨_, _, rfl, rfl, rfl⟩, rfl, rfl, .inr List.mem_cons_self, ⟨3, _, h3, rfl, rfl⟩, rfl,
      .inr List.mem_cons_self, ⟨2, _, h2, rfl, rfl⟩, fun k t u hk => honly k t hk u⟩
  rw [State.config_world] at hlookup
  rw [hlookup, hblock] at hsaved
  cases hsaved

end RpiNestApi.Network
