import Mathlib.Tactic.IntervalCases
import RpiNestApi.Async.History
import RpiNestApi.Network.Steps

/-
Uncommitted changes are rolled back.

An update saves its settings under a checkpoint that would restore what was saved
before.  A commit lets the settings of one checkpoint stand.  Whatever the order
of the D-Bus calls and whichever of them fail, a device without a checkpoint has
the settings it had at first, or such as were committed.
-/

namespace RpiNestApi.Network

open Async

abbrev Service.Thread := Async.Thread Await Exception Response Call
abbrev Service.Config := Async.Config World Await Exception Response Call
abbrev Service.State := Async.State World Await Await.Answer Exception Response Call
abbrev Service.Act := Async.Act Call Choice Env

variable {η : Host} {saved : ObjectPath → VariantParentObject}

/-- The id of the checkpoint a request has made and not yet answered with. -/
def Await.holds : Await → Option String
  | .update _ _ id => some id
  | .getAppliedConnection _ _ id => some id
  | _ => none

/-- A checkpoint expires only after the request that made it was answered. -/
def ExpiresAnswered (g : Service.Config) : Service.Act → Prop
  | .env (.expire path) => ∀ i t q id, g.threads i = some t → t.status = .waits q →
      q.holds = some id → checkpointPath id ≠ path
  | _ => True

/-- Some update has saved the settings of the device under the checkpoint.  It
goes on to `GetAppliedConnection` exactly when `Update` has succeeded. -/
def Saved (g : Service.Config) (id : String) (device : ObjectPath)
    (settings : VariantParentObject) : Prop :=
  ∃ i t interfaceName config, g.threads i = some t ∧ t.call = .update interfaceName config ∧
    t.Awaited (.getAppliedConnection device settings id)

/-- The id was passed to a commit that succeeded. -/
def Committed (g : Service.Config) (id : String) : Prop :=
  ∃ i t, g.threads i = some t ∧ t.call = .commit id ∧ t.status = .done (.ok .void)

/-- The settings are the device's first, or were saved and committed. -/
def Confirmed (η : Host) (saved : ObjectPath → VariantParentObject) (g : Service.Config)
    (device : ObjectPath) (settings : VariantParentObject) : Prop :=
  settings = saved (η.profile device) ∨ ∃ id, Committed g id ∧ Saved g id device settings

/-! ## What was saved and committed stays so -/

section Mono

variable {g h : Service.Config} {a : Service.Act}

theorem Saved.move (hmove : Move (Step η) η.env g a h) {id : String} {device : ObjectPath}
    {settings : VariantParentObject} (hs : Saved g id device settings) :
    Saved h id device settings := by
  obtain ⟨i, t, interfaceName, config, hi, hcall, hq⟩ := hs
  obtain ⟨t', hi', hext⟩ := hmove.thread hi
  exact ⟨i, t', interfaceName, config, hi', hext.call.trans hcall, hext.awaited _ hq⟩

theorem Committed.move (hmove : Move (Step η) η.env g a h) {id : String}
    (hc : Committed g id) : Committed h id := by
  obtain ⟨i, t, hi, hcall, hdone⟩ := hc
  obtain ⟨t', hi', hext⟩ := hmove.thread hi
  obtain rfl := hext.done _ hdone
  exact ⟨i, t', hi', hcall, hdone⟩

theorem Confirmed.move (hmove : Move (Step η) η.env g a h) {device : ObjectPath}
    {settings : VariantParentObject} (hc : Confirmed η saved g device settings) :
    Confirmed η saved h device settings :=
  hc.imp id fun ⟨id, hid, hs⟩ => ⟨id, hid.move hmove, hs.move hmove⟩

end Mono

/-! ## Every device is covered -/

/-- `Saved` by the path of the checkpoint. -/
def SavedUnder (g : Service.Config) (path : ObjectPath) (device : ObjectPath)
    (settings : VariantParentObject) : Prop :=
  ∃ id, path = checkpointPath id ∧ Saved g id device settings

/-- Every device is covered, and an update about to save has its checkpoint live
or committed. -/
structure Guarded (η : Host) (saved : ObjectPath → VariantParentObject) (g : Service.Config) :
    Prop where
  covered : g.world.networkManager.Covered η.profile (Confirmed η saved g) (SavedUnder g)
  saving : ∀ i t connection settings id, g.threads i = some t →
    t.status = .waits (.update connection settings id) →
    (∃ c ∈ g.world.networkManager.live, c.id = checkpointPath id ∧ η.profile c.key = connection) ∨
      Committed g id

theorem Guarded.init : Guarded η saved (State.init (World.init saved) : Service.State).config where
  covered := .init fun _ => .inl rfl
  saving i t _ _ _ hi := by cases hi

section Move

variable {g h : Service.Config} {a : Service.Act}

/-- The cover of a device, with what is known after the step. -/
theorem Guarded.covered_move (hg : Guarded η saved g) (hmove : Move (Step η) η.env g a h) :
    g.world.networkManager.Covered η.profile (Confirmed η saved h) (SavedUnder h) :=
  hg.covered.mono (fun _ _ hc => hc.move hmove) fun _ _ _ ⟨id, hid, hs⟩ => ⟨id, hid, hs.move hmove⟩

theorem Guarded.covered_step (hg : Guarded η saved g) (hmove : Move (Step η) η.env g a h) :
    h.world.networkManager.Covered η.profile (Confirmed η saved h) (SavedUnder h) := by
  have hcovered := hg.covered_move hmove
  rcases hmove.runs with ⟨i, c, o, past, st, hruns, hT, hi⟩ | ⟨e, rfl, he⟩
  · cases hT.effect with
    | none hsame _ =>
        rw [hsame]
        exact hcovered
    | create hcreate => exact hcovered.create hcreate
    | @save interfaceName config device settings id hc ho hsave =>
        have hsaved : Saved h id device settings :=
          ⟨i, _, interfaceName, config, hi, hc, .inl rfl⟩
        rw [hsave]
        refine hcovered.save η.profile_injective ?_
        subst ho
        cases hruns with
        | resume hj =>
            rcases hg.saving i _ _ _ _ hj rfl with ⟨c', hc', hid, hkey⟩ | hcommitted
            · exact .inr ⟨c', hc', η.profile_injective hkey, id, hid, hsaved⟩
            · exact .inl (.inr ⟨id, hcommitted.move hmove, hsaved⟩)
    | @destroy id hc hdestroy =>
        have hcommitted : Committed h id := ⟨i, _, hi, hc, rfl⟩
        refine hcovered.destroy hdestroy fun device settings ⟨id', hid', hs⟩ => ?_
        obtain rfl := checkpointPath_injective hid'
        exact .inr ⟨id, hcommitted, hs⟩
  · cases e with
    | expire path =>
        obtain ⟨networkManager, hexpire, hw⟩ := Option.map_eq_some_iff.mp he
        rw [← hw]
        exact hcovered.expire η.profile_injective hexpire

/-- A live checkpoint stays live, or is committed, or expires. -/
theorem live_move (hmove : Move (Step η) η.env g a h)
    {c : Checkpointed.Checkpoint ObjectPath ObjectPath VariantParentObject}
    (hc : c ∈ g.world.networkManager.live) :
    c ∈ h.world.networkManager.live ∨ (∃ id, c.id = checkpointPath id ∧ Committed h id) ∨
      a = .env (.expire c.id) := by
  rcases hmove.runs with ⟨i, call, o, past, st, hruns, hT, hi⟩ | ⟨e, rfl, he⟩
  · cases hT.effect with
    | none hsame _ => exact .inl (hsame ▸ hc)
    | create hcreate =>
        obtain ⟨_, _, hlive⟩ := Checkpointed.Store.create_eq_some hcreate
        rw [hlive]
        exact .inl (List.mem_cons_of_mem _ hc)
    | save _ _ hsave =>
        rw [hsave]
        exact .inl hc
    | @destroy id hcall hdestroy =>
        obtain ⟨c', hc', hid, hrelease⟩ := Checkpointed.Store.destroy_eq_some hdestroy
        by_cases hkey : c.key = c'.key
        · obtain rfl := Checkpointed.Store.eq_of_key_eq hc hc' hkey
          exact .inr (.inl ⟨id, hid, i, _, hi, hcall, rfl⟩)
        · rw [hrelease]
          exact .inl (Checkpointed.Store.mem_release.mpr ⟨hc, hkey⟩)
  · cases e with
    | expire path =>
        obtain ⟨networkManager, hexpire, hw⟩ := Option.map_eq_some_iff.mp he
        obtain ⟨c', hc', hid, hrelease⟩ := Checkpointed.Store.expire_eq_some hexpire
        by_cases hkey : c.key = c'.key
        · obtain rfl := Checkpointed.Store.eq_of_key_eq hc hc' hkey
          exact .inr (.inr (by rw [hid]))
        · rw [← hw, hrelease]
          exact .inl (Checkpointed.Store.mem_release.mpr ⟨hc, hkey⟩)

theorem Guarded.move (hg : Guarded η saved g) (hok : ExpiresAnswered g a)
    (hmove : Move (Step η) η.env g a h) : Guarded η saved h where
  covered := hg.covered_step hmove
  saving i t connection settings id hi hstatus := by
    rcases hmove.ran hi with hi₀ | ⟨o, _, hT⟩
    · rcases hg.saving i t connection settings id hi₀ hstatus with ⟨c, hc, hid, hkey⟩ | hcommitted
      · rcases live_move hmove hc with hlive | ⟨id', hid', hcommitted⟩ | rfl
        · exact .inl ⟨c, hlive, hid, hkey⟩
        · obtain rfl := checkpointPath_injective (hid'.symm.trans hid)
          exact .inr hcommitted
        · exact absurd hid.symm (hok i t _ id hi₀ hstatus rfl)
      · exact .inr (hcommitted.move hmove)
    · rw [hstatus] at hT
      generalize hst : (Status.waits (Await.update connection settings id) :
        Status Await Exception Response) = st at hT
      cases hT.effect with
      | none _ hne => exact absurd hst.symm (hne connection settings id)
      | create hcreate =>
          cases hst
          obtain ⟨_, _, hlive⟩ := Checkpointed.Store.create_eq_some hcreate
          rw [hlive]
          exact .inl ⟨_, List.mem_cons_self, rfl, rfl⟩
      | save => cases hst
      | destroy => cases hst

end Move

/-- In every run of updates and commits, a device without a live checkpoint has
the settings it had at first, or settings that an update saved under a checkpoint
that was committed. -/
theorem uncommitted_rolled_back {as : List Service.Act} {s : Service.State}
    (hrun : η.system.Run ExpiresAnswered (.init (World.init saved)) as s) {device : ObjectPath}
    (hbare : s.world.networkManager.Bare device) :
    Confirmed η saved s.config device (s.world.networkManager.saved (η.profile device)) := by
  have hguarded : Guarded η saved s.config :=
    hrun.invariant (Guarded η saved) (system_obeys η)
      (fun _ _ _ hok hmove hg => hg.move hok hmove) (.init _) .init
  exact hguarded.covered.bare device hbare

/-- The state the steps `as` lead the sample host to. -/
def sampleOutcome (as : List Service.Act) : Service.State :=
  Host.sample.system.outcome (.init sampleWorld) as

/-- An update of "eth0" is answered, and its checkpoint expires. -/
theorem uncommitted_rolled_back_eth0 : ∃ s,
    Host.sample.system.Run ExpiresAnswered (.init sampleWorld)
        (runUpdate 0 ++ [.env (.expire (checkpointPath "1"))]) s ∧
      s.world.networkManager.Bare eth0 ∧
      Confirmed Host.sample (fun _ => emptySettings) s.config eth0
        (s.world.networkManager.saved (Host.sample.profile eth0)) := by
  have hrun : Host.sample.system.Run ExpiresAnswered (.init sampleWorld) (runUpdate 0)
      (sampleOutcome (runUpdate 0)) := by
    refine System.run_outcome_of rfl fun n hn => ?_
    have hn13 : n < 13 := hn
    interval_cases n <;> trivial
  have hstep : ∃ s, Host.sample.system.step (sampleOutcome (runUpdate 0))
      (.env (.expire (checkpointPath "1"))) = some s ∧ s.world.networkManager.live = [] :=
    ⟨_, rfl, rfl⟩
  have h0 : ∃ past r, (sampleOutcome (runUpdate 0)).config.threads 0 =
      some { call := updateEth0, past, status := .done r } := ⟨_, _, rfl⟩
  generalize sampleOutcome (runUpdate 0) = s₀ at hrun hstep h0
  obtain ⟨s, hstep, hlive⟩ := hstep
  obtain ⟨past, r, h0⟩ := h0
  have hdone : ∀ i t, s₀.config.threads i = some t → ∃ r, t.status = .done r := by
    refine hrun.forall_threads ?_
    show ∀ i ∈ [0], _
    simp [h0]
  have hexpire : ExpiresAnswered s₀.config (.env (.expire (checkpointPath "1"))) := by
    intro i t q id hi hstatus
    obtain ⟨r, hr⟩ := hdone i t hi
    cases hr.symm.trans hstatus
  have hbare : s.world.networkManager.Bare eth0 := by
    rw [Checkpointed.Store.bare_iff, hlive]
    simp
  have hrun' := hrun.snoc hexpire hstep
  exact ⟨s, hrun', hbare, uncommitted_rolled_back hrun' hbare⟩

end RpiNestApi.Network
