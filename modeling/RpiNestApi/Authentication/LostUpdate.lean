import RpiNestApi.Authentication.Writes

/-
Concurrent updates of one account.

`UserRepository.update` puts the whole record it has read, merged with the new
values.  Where the record it puts back is the latest one, two updates that touch
other fields both show in the final record.
-/

namespace RpiNestApi

open Async

variable {π : Platform} {u : UserLogin}

/-- The record has the values `data` sets. -/
structure IUserData.Carries (user : IUserData) (data : UpdateUserData) : Prop where
  passwordHash : ∀ h, data.passwordHash = some h → user.passwordHash = h
  description : data.description ≠ .undefined → user.description = data.description
  roles : data.roles ≠ .undefined → user.roles = data.roles

/-- The two set no field in common. -/
structure UpdateUserData.Disjoint (data data' : UpdateUserData) : Prop where
  passwordHash : data.passwordHash = none ∨ data'.passwordHash = none
  description : data.description = .undefined ∨ data'.description = .undefined
  roles : data.roles = .undefined ∨ data'.roles = .undefined

theorem UpdateUserData.Disjoint.symm {data data' : UpdateUserData} (h : data.Disjoint data') :
    data'.Disjoint data :=
  { passwordHash := h.passwordHash.symm, description := h.description.symm,
    roles := h.roles.symm }

theorem IUserData.carries_merge (user : IUserData) (data : UpdateUserData) (modified : Nat) :
    (user.merge data modified).Carries data where
  passwordHash h hh := by simp [merge, hh]
  description h := Field.override_of_ne h _
  roles h := Field.override_of_ne h _

theorem IUserData.Carries.merge {user : IUserData} {data data' : UpdateUserData}
    (h : user.Carries data) (hdisjoint : data.Disjoint data') (modified : Nat) :
    (user.merge data' modified).Carries data where
  passwordHash p hp := by
    have hnone := hdisjoint.passwordHash.resolve_left (by simp [hp])
    simp [IUserData.merge, hnone, h.passwordHash p hp]
  description hd := by
    have hnone := hdisjoint.description.resolve_left hd
    simp [IUserData.merge, hnone, h.description hd]
  roles hr := by
    have hnone := hdisjoint.roles.resolve_left hr
    simp [IUserData.merge, hnone, h.roles hr]

/-- What two runs of one call set differs in salts only. -/
theorem Call.Updates.disjoint {c : Call} {k : UserLogin} {data data₁ data' : UpdateUserData}
    (h : c.Updates π k data) (h₁ : c.Updates π k data₁) (hdisjoint : data.Disjoint data') :
    data₁.Disjoint data' := by
  cases c with
  | update updateUser =>
      rw [h₁.2.2, ← h.2.2]
      exact hdisjoint
  | updatePassword =>
      obtain ⟨_, _, rfl⟩ := h
      obtain ⟨_, _, rfl⟩ := h₁
      exact { passwordHash := .inr (hdisjoint.passwordHash.resolve_left nofun),
              description := .inl rfl, roles := .inl rfl }
  | resetAdminPassword =>
      obtain ⟨_, _, rfl⟩ := h
      obtain ⟨_, _, rfl⟩ := h₁
      exact { passwordHash := .inr (hdisjoint.passwordHash.resolve_left nofun),
              description := .inl rfl, roles := .inl rfl }
  | _ => exact h.elim

/-- An update of `u` resumes while the record it has read is the latest one. -/
def UpdatesFresh (u : UserLogin) (g : Service.Config) (a : Service.Act) : Prop :=
  ∀ i c data user, g.Runs i c (some (.updating u data (some user))) a →
    g.world.users.latest u = some user

/-- An update of `u` has merged its data into the record its write replaces. -/
theorem updates_fresh {as : List Service.Act} {s : Service.State}
    (hrun : π.system.Run (UpdatesFresh u) Service.initial as s) {i n : Nat} {t : Service.Thread}
    {data : UpdateUserData} (hi : s.config.threads i = some t) (hc : t.call.Updates π u data)
    (hn : t.Awaited (.written n)) :
    ∃ data user modified, t.call.Updates π u data ∧ s.world.users.version n u = some user ∧
      s.world.users.Wrote n u (some (user.merge data modified)) := by
  obtain ⟨s₁, a, data, user, modified, hc, hok, hruns, hversion, hwrote⟩ :=
    run_merged hrun hi hc hn
  exact ⟨data, user, modified, hc, hversion.trans (hok i _ _ _ hruns), hwrote⟩

/-- Two updates of `u` report success, touch other fields, and nothing else has
written `u` since the first of them did. -/
structure UpdatedBoth (π : Platform) (u : UserLogin) (g : Service.Config) (t t' : Service.Thread)
    (m n : Nat) : Prop where
  done : t.status = .done (.ok .void)
  done' : t'.status = .done (.ok .void)
  awaited : t.Awaited (.written m)
  awaited' : t'.Awaited (.written n)
  disjoint : ∃ data data', t.call.Updates π u data ∧ t'.call.Updates π u data' ∧
    data.Disjoint data'
  others : ∀ l v, g.world.users.Wrote l u v → min m n ≤ l → l = m ∨ l = n

/-- The record carries what the call `c` sets in `u`. -/
def CarriesCall (π : Platform) (u : UserLogin) (user : IUserData) (c : Call) : Prop :=
  ∃ data, c.Updates π u data ∧ user.Carries data

/-- The final record of two updates carries the new values of both. -/
def NoLostUpdate (π : Platform) (u : UserLogin) (g : Service.Config) : Prop :=
  ∀ i j t t' m n, i ≠ j → g.threads i = some t → g.threads j = some t' →
    UpdatedBoth π u g t t' m n →
    ∃ user, g.world.users.get u = some user ∧ g.world.users.latest u = some user ∧
      CarriesCall π u user t.call ∧ CarriesCall π u user t'.call

theorem UpdatedBoth.symm {g : Service.Config} {t t' : Service.Thread} {m n : Nat}
    (h : UpdatedBoth π u g t t' m n) : UpdatedBoth π u g t' t n m where
  done := h.done'
  done' := h.done
  awaited := h.awaited'
  awaited' := h.awaited
  disjoint := by
    obtain ⟨data, data', hc, hc', hdisjoint⟩ := h.disjoint
    exact ⟨data', data, hc', hc, hdisjoint.symm⟩
  others l v hw hl := (h.others l v hw (Nat.min_comm .. ▸ hl)).symm

/-- The update that writes last has merged into the record of the other. -/
theorem UpdatedBoth.carries {as : List Service.Act} {s : Service.State}
    (hrun : π.system.Run (UpdatesFresh u) Service.initial as s) {i j m n : Nat}
    {t t' : Service.Thread} (hi : s.config.threads i = some t)
    (hj : s.config.threads j = some t') (h : UpdatedBoth π u s.config t t' m n) (hmn : m < n) :
    ∃ user, s.world.users.get u = some user ∧ s.world.users.latest u = some user ∧
      CarriesCall π u user t.call ∧ CarriesCall π u user t'.call := by
  obtain ⟨data₀, data₀', hc₀, hc₀', hdisjoint₀⟩ := h.disjoint
  obtain ⟨data, user, modified, hc, _, hwm⟩ := updates_fresh hrun hi hc₀ h.awaited
  obtain ⟨data', user', modified', hc', hversion, hwn⟩ := updates_fresh hrun hj hc₀' h.awaited'
  have hdisjoint := (hc₀'.disjoint hc' (hc₀.disjoint hc hdisjoint₀).symm).symm
  have hbetween : s.world.users.version n u = s.world.users.version (m + 1) u := by
    refine s.world.users.version_eq_of_untouched hmn fun l hl hln v hw => ?_
    rcases h.others l v hw (by omega) with rfl | rfl <;> omega
  obtain rfl : user' = user.merge data modified := by
    rw [hversion, s.world.users.version_succ hwm, if_pos rfl] at hbetween
    exact Option.some.inj hbetween
  have hfinal : ∀ b, n < b → s.world.users.version b u =
      some ((user.merge data modified).merge data' modified') := by
    intro b hb
    rw [s.world.users.version_eq_of_untouched hb fun l hl _ v hw => ?_,
      s.world.users.version_succ hwn, if_pos rfl]
    rcases h.others l v hw (by omega) with rfl | rfl <;> omega
  obtain ⟨_, hcommitted⟩ := ((ledger hrun).ticket j t' hj).committed h.done' h.awaited'
  refine ⟨_, hfinal _ hcommitted, hfinal _ hwn.lt, ⟨data, hc, ?_⟩, data', hc', ?_⟩
  · exact (user.carries_merge data modified).merge hdisjoint modified'
  · exact (user.merge data modified).carries_merge data' modified'

/-- In every run in which an update of `u` only puts a merge of the latest
record, no update of `u` is lost. -/
theorem no_lost_update {as : List Service.Act} {s : Service.State}
    (hrun : π.system.Run (UpdatesFresh u) Service.initial as s) : NoLostUpdate π u s.config := by
  intro i j t t' m n hij hi hj h
  have hmn : m ≠ n := by
    rintro rfl
    exact hij ((ledger hrun).unique i j t t' m hi hj h.awaited h.awaited')
  rcases Nat.lt_or_gt_of_ne hmn with hlt | hlt
  · exact h.carries hrun hi hj hlt
  · obtain ⟨user, hget, hlatest, hcarries', hcarries⟩ := h.symm.carries hrun hj hi hlt
    exact ⟨user, hget, hlatest, hcarries, hcarries'⟩

/-- A description of "bob" is changed, and then its password. -/
def updatesInTurn : List Service.Act :=
  [.start 0 (createBob "first"), .resume 0 (.resolve 0), .env .commit,
    .start 1 (describeBob "new"), .resume 1 (.resolve 0), .env .commit, .resume 1 (.resolve 0),
    .start 2 (.updatePassword "bob" "first" "second"), .resume 2 (.resolve 0),
    .resume 2 (.resolve 0), .resume 2 (.resolve 0), .resume 2 (.resolve 0), .env .commit,
    .resume 2 (.resolve 0)]

theorem no_lost_update_in_turn :
    ∃ s, Platform.sample.system.Run (UpdatesFresh "bob") Service.initial updatesInTurn s ∧
      NoLostUpdate Platform.sample "bob" s.config := by
  have hrun : ∃ s,
      Platform.sample.system.Run (UpdatesFresh "bob") Service.initial updatesInTurn s := by
    refine ⟨_, .cons ?_ rfl <| .cons ?_ rfl <| .cons ?_ rfl <| .cons ?_ rfl <| .cons ?_ rfl <|
      .cons ?_ rfl <| .cons ?_ rfl <| .cons ?_ rfl <| .cons ?_ rfl <| .cons ?_ rfl <|
      .cons ?_ rfl <| .cons ?_ rfl <| .cons ?_ rfl <| .cons ?_ rfl <| .nil _⟩
    all_goals rintro _ _ _ _ (_ | hi)
    all_goals
      cases hi
      try rfl
  obtain ⟨s, hrun⟩ := hrun
  exact ⟨s, hrun, no_lost_update hrun⟩

/-- The password change reads "bob" before the description is written. -/
def updatesAtOnce : List Service.Act :=
  [.start 0 (createBob "first"), .resume 0 (.resolve 0), .env .commit, .resume 0 (.resolve 0),
    .start 1 (.updatePassword "bob" "first" "second"), .resume 1 (.resolve 0),
    .resume 1 (.resolve 0), .resume 1 (.resolve 0), .start 2 (describeBob "new"),
    .resume 2 (.resolve 0), .resume 1 (.resolve 0), .env .commit, .env .commit,
    .resume 1 (.resolve 0), .resume 2 (.resolve 0)]

theorem lost_update :
    ∃ s, Platform.sample.system.Run always Service.initial updatesAtOnce s ∧
      ¬ NoLostUpdate Platform.sample "bob" s.config := by
  have hrun := Platform.sample.system.run_outcome
    (show (Platform.sample.system.exec Service.initial updatesAtOnce).isSome = true from rfl)
  refine ⟨_, hrun, fun h => ?_⟩
  generalize hs : Platform.sample.system.outcome Service.initial updatesAtOnce = s at h
  have h1 : ∃ past, s.config.threads 1 = some
      { call := .updatePassword "bob" "first" "second", past := .written 2 :: past,
        status := .done (.ok .void) } := hs ▸ ⟨_, rfl⟩
  have h2 : ∃ past, s.config.threads 2 = some
      { call := describeBob "new", past := .written 1 :: past,
        status := .done (.ok .void) } := hs ▸ ⟨_, rfl⟩
  have hlength : s.world.users.writes.length = 3 := hs ▸ rfl
  have hget : ∃ user, s.world.users.get "bob" = some user ∧ user.description = .undefined :=
    hs ▸ ⟨_, rfl, rfl⟩
  obtain ⟨past, h1⟩ := h1
  obtain ⟨past', h2⟩ := h2
  obtain ⟨user, huser, hdescription⟩ := hget
  obtain ⟨user', huser', _, _, data, hc, hcarries⟩ := h 1 2 _ _ 2 1 (by decide) h1 h2
    { done := rfl, done' := rfl, awaited := .inr List.mem_cons_self,
      awaited' := .inr List.mem_cons_self,
      disjoint := ⟨_, _, ⟨rfl, 0, rfl⟩, ⟨rfl, by decide, rfl⟩,
        { passwordHash := .inr rfl, description := .inl rfl, roles := .inl rfl }⟩,
      others := fun l v hw hl => by
        have hlt := hw.lt
        simp only [State.config_world, hlength] at hlt
        omega }
  obtain rfl : user' = user := Option.some.inj (huser'.symm.trans huser)
  obtain ⟨_, _, rfl⟩ := hc
  have hnew := hcarries.description nofun
  rw [hdescription] at hnew
  cases hnew

end RpiNestApi
