import RpiNestApi.Authentication.Creation

/-
Removal of accounts.

`UserRepository.update` reads the record, awaits the read, and puts the merged
record whether or not the account is still there.  Where an update never
resumes after the account has been removed, a removed account stays removed.
-/

namespace RpiNestApi

open Async

variable {π : Platform} {u : UserLogin}

/-- An update of `u` that has read a record resumes while `u` is not removed. -/
def UpdatesPresent (u : UserLogin) (g : Service.Config) (a : Service.Act) : Prop :=
  ∀ i c data user, g.Runs i c (some (.updating u data (some user))) a →
    g.world.users.latest u ≠ none

/-- Every update of `u` writes over a record of `u`. -/
def UpdatesOver (π : Platform) (u : UserLogin) (g : Service.Config) : Prop :=
  ∀ i t n data, g.threads i = some t → t.call.Updates π u data → t.Awaited (.written n) →
    g.world.users.version n u ≠ none

theorem updates_over {as : List Service.Act} {s : Service.State}
    (hrun : π.system.Run (UpdatesPresent u) Service.initial as s) : UpdatesOver π u s.config := by
  intro i t n data hi hc hn
  obtain ⟨s₁, a, _, _, _, _, hok, hruns, hversion, _⟩ := run_merged hrun hi hc hn
  rw [State.config_world, hversion]
  exact hok i _ _ _ hruns

/-- Once all requests have finished, an account that was removed, and that no
create wrote afterwards, is not in the store. -/
def StaysRemoved (π : Platform) (u : UserLogin) (g : Service.Config) : Prop :=
  g.Quiet → ∀ i t n, g.threads i = some t → t.call = .remove u →
    t.status = .done (.ok .void) → t.Awaited (.written n) →
    (∀ j t' m data, g.threads j = some t' → t'.call.Creates π u data →
      t'.Awaited (.written m) → m < n) →
    g.world.users.get u = none

theorem StaysRemoved.of_updatesOver {g : Service.Config} (hledger : Ledger π g)
    (hover : UpdatesOver π u g) : StaysRemoved π u g := by
  intro _ i t n hi hcall hdone hn hcreates
  obtain ⟨login, v, hwrote⟩ := (hledger.ticket i t hi).wrote hn
  obtain ⟨hlogin, rfl⟩ := hwrote.writer.of_remove hcall
  have hremoved : g.world.users.Wrote n u none := hlogin ▸ hwrote.wrote
  obtain ⟨_, hcommitted⟩ := (hledger.ticket i t hi).committed hdone hn
  -- from the removal on every write of `u` is another removal
  refine WriteBehind.Store.version_eq_none hremoved (fun b v hb hnone hw => ?_) hcommitted
  obtain ⟨j, t', hj, hwrote'⟩ := hledger.writer b u v hw
  cases hwrote'.writer with
  | created hc =>
      exact absurd (hcreates j t' b _ hj hc hwrote'.awaited) (Nat.not_lt.mpr (Nat.le_of_lt hb))
  | merged hc => exact absurd hnone (hover j t' b _ hj hc hwrote'.awaited)
  | removed => rfl

/-- In every run in which no update of `u` resumes after a removal of `u`, an
account that was removed stays removed. -/
theorem removed_stays_removed {as : List Service.Act} {s : Service.State}
    (hrun : π.system.Run (UpdatesPresent u) Service.initial as s) : StaysRemoved π u s.config :=
  .of_updatesOver (ledger hrun) (updates_over hrun)

/-- "bob" is created, updated and removed, and all three requests have succeeded: the run is
over, and its last state shows whether "bob" stays removed. -/
theorem quiet_of_removal {ok : Service.Config → Service.Act → Prop} {as : List Service.Act}
    {s : Service.State} (hrun : Platform.sample.system.Run ok Service.initial as s)
    (hstarted : as.filterMap Act.started = [0, 1, 2]) {description : String} {n : Nat} (hn : 0 < n)
    (h0 : s.config.threads 0 = some
      { call := createBob "first", past := [.written 0, .hashPassword "first"],
        status := .done (.ok .void) })
    (h1 : ∃ past, s.config.threads 1 = some
      { call := describeBob description, past, status := .done (.ok .void) })
    (h2 : s.config.threads 2 = some
      { call := .remove "bob", past := [.written n], status := .done (.ok .void) }) :
    s.config.Quiet ∧
      (StaysRemoved Platform.sample "bob" s.config → s.world.users.get "bob" = none) := by
  obtain ⟨past, h1⟩ := h1
  have hquiet : s.config.Quiet := by
    refine hrun.forall_threads ?_
    rw [hstarted]
    simp [h0, h1, h2]
  have hcreates : ∀ i t, s.config.threads i = some t → ∀ m data,
      t.call.Creates Platform.sample "bob" data → t.Awaited (.written m) → m < n := by
    refine hrun.forall_threads ?_
    rw [hstarted]
    simp [h0, h1, h2, Call.Creates, describeBob]
    rintro _ _ _ rfl
    exact hn
  exact ⟨hquiet, fun h => h hquiet 2 _ n h2 rfl rfl (.inr List.mem_cons_self)
    fun j t m data hj => hcreates j t hj m data⟩

/-- "bob" is removed while an update of it waits for its commit. -/
def removalAfterUpdate : List Service.Act :=
  [.start 0 (createBob "first"), .resume 0 (.resolve 0), .env .commit, .resume 0 (.resolve 0),
    .start 1 (describeBob "gone soon"), .resume 1 (.resolve 0), .start 2 (.remove "bob"),
    .env .commit, .env .commit, .resume 2 (.resolve 0), .resume 1 (.resolve 0)]

theorem removed_stays_removed_single :
    ∃ s, Platform.sample.system.Run (UpdatesPresent "bob") Service.initial removalAfterUpdate s ∧
      s.config.Quiet ∧ s.world.users.get "bob" = none := by
  have hrun : Platform.sample.system.Run (UpdatesPresent "bob") Service.initial removalAfterUpdate
      (Platform.sample.system.outcome Service.initial removalAfterUpdate) := by
    refine .cons ?_ rfl <| .cons ?_ rfl <| .cons ?_ rfl <| .cons ?_ rfl <| .cons ?_ rfl <|
      .cons ?_ rfl <| .cons ?_ rfl <| .cons ?_ rfl <| .cons ?_ rfl <| .cons ?_ rfl <|
      .cons ?_ rfl <| .nil _
    · exact fun _ _ _ _ hruns => nomatch hruns
    · rintro _ _ _ _ (_ | hi)
      cases hi
    · exact fun _ _ _ _ hruns => nomatch hruns
    · rintro _ _ _ _ (_ | hi)
      cases hi
    · exact fun _ _ _ _ hruns => nomatch hruns
    · exact fun _ _ _ _ _ h => nomatch h
    · exact fun _ _ _ _ hruns => nomatch hruns
    · exact fun _ _ _ _ hruns => nomatch hruns
    · exact fun _ _ _ _ hruns => nomatch hruns
    · rintro _ _ _ _ (_ | hi)
      cases hi
    · rintro _ _ _ _ (_ | hi)
      cases hi
  obtain ⟨hquiet, hgone⟩ := quiet_of_removal hrun rfl (by decide : 0 < 2) rfl ⟨_, rfl⟩ rfl
  exact ⟨_, hrun, hquiet, hgone (removed_stays_removed hrun)⟩

/-- An update has read "bob" when the removal is issued, and puts it back. -/
def removalDuringUpdate : List Service.Act :=
  [.start 0 (createBob "first"), .resume 0 (.resolve 0), .env .commit, .resume 0 (.resolve 0),
    .start 1 (describeBob "back again"), .start 2 (.remove "bob"), .resume 1 (.resolve 0),
    .env .commit, .env .commit, .resume 1 (.resolve 0), .resume 2 (.resolve 0)]

theorem removal_during_update :
    ∃ s, Platform.sample.system.Run always Service.initial removalDuringUpdate s ∧
      ¬ StaysRemoved Platform.sample "bob" s.config := by
  have hrun := Platform.sample.system.run_outcome
    (show (Platform.sample.system.exec Service.initial removalDuringUpdate).isSome = true from rfl)
  obtain ⟨_, hgone⟩ := quiet_of_removal hrun rfl (by decide : 0 < 1) rfl ⟨_, rfl⟩ rfl
  exact ⟨_, hrun, fun h => nomatch hgone h⟩

end RpiNestApi
