import RpiNestApi.Http.Access

/-
Requests without the rights of an admin change no account.

Somebody sends any requests, at any moments, but bears no token that was issued
to an admin and knows no password of an admin's account.  The routes to the calls
that change accounts ask for the token of an admin, a login that would get one
fails, and the reset of the admin password, which is open to all, sets the
password of the device, which is not known either.
-/

namespace RpiNestApi

open Async

variable {π : Platform}

/-- The token of an admin. -/
def AccessTokenPayload.Privileged (payload : AccessTokenPayload) : Prop :=
  payload.sub = adminUserName ∨ payload.roles.HasRole .admin

/-- The handler whose requests make the call.  The other calls are made by the
command line. -/
def Call.handler : Call → Option Http.Handler
  | .create _ => some (.user .create)
  | .update _ => some (.user .update)
  | .remove _ => some (.user .remove)
  | .login _ _ => some (.authentication .login)
  | .updatePassword _ _ _ => some (.authentication .updatePassword)
  | .resetAdminPassword => some (.authentication .resetPassword)
  | .createAdmin => none
  | .resetSettings => none
  | .updateSettings _ => none

namespace Http

/-- A request that the guard lets through to the handler of the call `c`, from somebody who
has neither a token nor a password of one who was an admin in the world `w₀`. -/
structure Outside (π : Platform) (w₀ w : World) (c : Call) (request : Request) : Prop where
  admitted : ∃ handler, admittedTo π w request = some handler ∧ c.handler = some handler
  token : ∀ x ∈ w₀.issued, x.1.Privileged → ¬ request.Bears (π.jwtService.sign x.1 x.2)
  password : ∀ u p user, c = .login u p → w₀.users.get u = some user →
    (user.payload u).Privileged → π.bcrypt.compare p user.passwordHash = false
  defaultPassword : ∀ p, c = .login adminUserName p → p ≠ π.deviceDefaultPassword

/-- All calls are made by such requests. -/
def Outsider (π : Platform) (w₀ : World) (g : Service.Config) : Service.Act → Prop
  | .start _ c => ∃ request, Outside π w₀ g.world c request
  | _ => True

/-- `user` with the password of the device. -/
def reset (π : Platform) (user : IUserData) (salt modified : Nat) : IUserData :=
  user.merge { passwordHash := some (π.bcrypt.hash π.deviceDefaultPassword salt) } modified

theorem reset_reset (user : IUserData) (salt salt' modified modified' : Nat) :
    reset π (reset π user salt modified) salt' modified' = reset π user salt' modified' := rfl

/-- The account "admin" as `w₀` has it, or after its password was reset. -/
def AdminRecord (π : Platform) (w₀ : World) (user : IUserData) : Prop :=
  ∃ user₀, w₀.users.get adminUserName = some user₀ ∧
    (user = user₀ ∨ ∃ salt modified, user = reset π user₀ salt modified)

theorem AdminRecord.reset {w₀ : World} {user : IUserData} (h : AdminRecord π w₀ user)
    (salt modified : Nat) : AdminRecord π w₀ (reset π user salt modified) := by
  obtain ⟨user₀, hget, rfl | ⟨salt₀, modified₀, rfl⟩⟩ := h
  · exact ⟨user, hget, .inr ⟨salt, modified, rfl⟩⟩
  · exact ⟨user₀, hget, .inr ⟨salt, modified, reset_reset ..⟩⟩

/-! ## Steps -/

/-- The password does not get the token of an admin. -/
def Denied (π : Platform) (u : UserLogin) (p : String) (user : IUserData) : Prop :=
  π.bcrypt.compare p user.passwordHash = true → ¬ (user.payload u).Privileged

/-- How far a call has come that somebody without rights may make. -/
inductive Harmless (π : Platform) (w₀ : World) :
    Call → Status Await Exception Response → Prop
  | done {c r} : Harmless π w₀ c (.done r)
  | read {u p user} (h : ∀ user', user = some user' → Denied π u p user') :
      Harmless π w₀ (.login u p) (.waits (.user u user))
  | compare {u p user} (h : Denied π u p user) :
      Harmless π w₀ (.login u p) (.waits (.comparePasswords p user))
  | sign {u p payload} (h : ¬ payload.Privileged) :
      Harmless π w₀ (.login u p) (.waits (.signAsync payload))
  | settings {settings} :
      Harmless π w₀ .resetAdminPassword (.waits (.getSettings settings))
  | defaultPassword : Harmless π w₀ .resetAdminPassword (.waits .getDeviceDefaultPassword)
  | hash : Harmless π w₀ .resetAdminPassword (.waits (.hashPassword π.deviceDefaultPassword))
  | updating {salt user} (h : ∀ user', user = some user' → AdminRecord π w₀ user') :
      Harmless π w₀ .resetAdminPassword (.waits (.updating adminUserName
        { passwordHash := some (π.bcrypt.hash π.deviceDefaultPassword salt) } user))
  | written {n} : Harmless π w₀ .resetAdminPassword (.waits (.written n))

/-- What a step of such a call makes of the world `w`. -/
inductive Effect (π : Platform) (w₀ w : World) : World → Prop
  | none : Effect π w₀ w w
  | reset {user salt} (h : AdminRecord π w₀ user) :
      Effect π w₀ w (w.write adminUserName (some (Http.reset π user salt w.clock)))
  | token {x} (h : ¬ x.1.Privileged) : Effect π w₀ w { w with issued := w.issued ++ [x] }

/-- What `w` tells of the accounts of `w₀`. -/
structure Known (π : Platform) (w₀ w : World) : Prop where
  others : ∀ u, u ≠ adminUserName → w.users.get u = w₀.users.get u
  admin : ∀ user, w.users.get adminUserName = some user → AdminRecord π w₀ user

theorem Harmless.resume {w₀ w w' : World} {c : Call} {q : Await}
    {st : Status Await Exception Response} (hc : Harmless π w₀ c (.waits q))
    (hknown : Known π w₀ w) (h : Step π c (some q) w w' st) :
    Harmless π w₀ c st ∧ Effect π w₀ w w' := by
  cases hc with
  | read hread =>
      cases h with
      | reject e => exact ⟨.done, .none⟩
      | authCompare hc =>
          cases hc
          exact ⟨.compare (hread _ rfl), .none⟩
      | settingsPut hc => exact hc.elim
  | compare hdenied =>
      cases h with
      | reject e => exact ⟨.done, .none⟩
      | sign hcompare => exact ⟨.sign (hdenied hcompare), .none⟩
      | settingsPut hc => exact hc.elim
  | sign hpayload =>
      cases h with
      | reject e => exact ⟨.done, .none⟩
      | token => exact ⟨.done, .token hpayload⟩
      | settingsPut hc => exact hc.elim
  | settings =>
      cases h with
      | reject e => exact ⟨.done, .none⟩
      | resetDefault henabled => exact ⟨.defaultPassword, .none⟩
      | settingsPut hc => exact hc.elim
  | defaultPassword =>
      cases h with
      | reject e => exact ⟨.done, .none⟩
      | resetHash => exact ⟨.hash, .none⟩
      | settingsPut hc => exact hc.elim
  | hash =>
      cases h with
      | reject e => exact ⟨.done, .none⟩
      | create hc => exact hc.elim
      | resetUpdate salt => exact ⟨.updating hknown.admin, .none⟩
      | settingsPut hc => exact hc.elim
  | updating huser =>
      cases h with
      | reject e => exact ⟨.done, .none⟩
      | merge hc => exact ⟨.written, .reset (huser _ rfl)⟩
      | settingsPut hc => exact hc.elim
  | written =>
      cases h with
      | reject e => exact ⟨.done, .none⟩
      | written hn => exact ⟨.done, .none⟩
      | settingsPut hc => exact hc.elim

/-- A login that would get the token of an admin is denied. -/
theorem Outside.denied {w₀ w : World} {u : UserLogin} {p : String} {request : Request}
    (h : Outside π w₀ w (.login u p) request) (hknown : Known π w₀ w) {user : IUserData}
    (hget : w.users.get u = some user) : Denied π u p user := by
  intro hcompare hprivileged
  by_cases hu : u = adminUserName
  · subst hu
    obtain ⟨user₀, hget₀, rfl | ⟨salt, modified, rfl⟩⟩ := hknown.admin user hget
    · rw [h.password _ _ user rfl hget₀ hprivileged] at hcompare
      cases hcompare
    · exact h.defaultPassword p rfl ((π.bcrypt.compare_hash ..).mp hcompare)
  · rw [hknown.others u hu] at hget
    rw [h.password _ _ user rfl hget hprivileged] at hcompare
    cases hcompare

/-- The handlers of the calls that change accounts let in nobody but admins. -/
theorem Outside.anonymous {w₀ w : World} {c : Call} {request : Request}
    (h : Outside π w₀ w c request) (hissued : ∀ x ∈ w.issued, x.1.Privileged → x ∈ w₀.issued) :
    (∃ u p, c = .login u p) ∨ c = .resetAdminPassword := by
  obtain ⟨handler, hadmitted, hhandler⟩ := h.admitted
  have hadmin : handler ∉ anonymousHandlers → (∀ role, handler ∉ roleHandlers role) → False := by
    intro hanonymous hroles
    obtain ⟨token, payload, hbears, hverify, hadmits⟩ :=
      (admitted_cases hadmitted).resolve_left hanonymous
    obtain ⟨iat, hmem, rfl, _⟩ := Platform.verifyAsync_eq_some.mp hverify
    have hprivileged : payload.Privileged := by
      rcases hadmits with hsub | hrole | ⟨role, hrole, _⟩
      · exact .inl hsub
      · exact .inr hrole
      · exact absurd hrole (hroles role)
    exact h.token _ (hissued _ hmem hprivileged) hprivileged hbears
  cases c with
  | login u p => exact .inl ⟨u, p, rfl⟩
  | resetAdminPassword => exact .inr rfl
  | createAdmin => cases hhandler
  | resetSettings => cases hhandler
  | updateSettings data => cases hhandler
  | _ =>
      cases hhandler
      exact (hadmin (by decide) fun role => by cases role <;> decide).elim

theorem Outside.start {w₀ w w' : World} {c : Call} {request : Request}
    {st : Status Await Exception Response} (h : Outside π w₀ w c request)
    (hknown : Known π w₀ w) (hissued : ∀ x ∈ w.issued, x.1.Privileged → x ∈ w₀.issued)
    (hstep : Step π c none w w' st) : Harmless π w₀ c st ∧ Effect π w₀ w w' := by
  rcases h.anonymous hissued with ⟨u, p, rfl⟩ | rfl
  · cases hstep with
    | reject e => exact ⟨.done, .none⟩
    | authRead hc =>
        cases hc
        exact ⟨.read fun user hget => h.denied hknown hget, .none⟩
    | settingsPut hc => exact hc.elim
  · cases hstep with
    | reject e => exact ⟨.done, .none⟩
    | authRead hc => cases hc
    | resetRead hsettings => exact ⟨.settings, .none⟩
    | settingsPut hc => exact hc.elim

/-! ## Runs -/

theorem env_settings {e : Env} {w w' : World} (h : Platform.env e w = some w') :
    w'.settings = w.settings := by
  cases e with
  | commit =>
      obtain ⟨users, _, rfl⟩ := Option.map_eq_some_iff.mp h
      rfl
  | clock now =>
      cases h
      rfl

/-- What every state keeps of the world `w₀`, in which no call was in progress. -/
structure Kept (π : Platform) (w₀ : World) (g : Service.Config) : Prop where
  ledger : Ledger π g
  later : w₀.Extends g.world
  tokens : ∀ x ∈ g.world.issued, x.1.Privileged → x ∈ w₀.issued
  settings : g.world.settings = w₀.settings
  threads : ∀ i t, g.threads i = some t → Harmless π w₀ t.call t.status
  writes : ∀ n u v, w₀.users.applied ≤ n → g.world.users.Wrote n u v →
    u = adminUserName ∧ ∃ user salt modified, v = some (reset π user salt modified) ∧
      AdminRecord π w₀ user

theorem Kept.known {w₀ : World} {g : Service.Config} (hg : Kept π w₀ g) :
    Known π w₀ g.world where
  others u hu := by
    rw [WriteBehind.Store.get, g.world.users.version_eq_of_untouched hg.later.users.applied
      fun n hn _ v hw => hu (hg.writes n u v hn hw).1,
      hg.later.users.version w₀.users.applied_le]
    rfl
  admin user hget := by
    rcases g.world.users.version_cases adminUserName hg.later.users.applied with
      he | ⟨n, v, hn, _, hw, he, _⟩
    · refine ⟨user, ?_, .inl rfl⟩
      rw [← hget, WriteBehind.Store.get, WriteBehind.Store.get, he,
        hg.later.users.version w₀.users.applied_le]
    · obtain ⟨_, user', salt, modified, rfl, hrecord⟩ := hg.writes n _ v hn hw
      cases Option.some.inj (hget.symm.trans he)
      exact hrecord.reset salt modified

theorem Effect.settings {w₀ w w' : World} (h : Effect π w₀ w w') : w'.settings = w.settings := by
  cases h <;> rfl

theorem Effect.tokens {w₀ w w' : World} (h : Effect π w₀ w w')
    (hw : ∀ x ∈ w.issued, x.1.Privileged → x ∈ w₀.issued) :
    ∀ x ∈ w'.issued, x.1.Privileged → x ∈ w₀.issued := by
  cases h with
  | none => exact hw
  | reset => exact hw
  | token hpayload =>
      intro x hx hprivileged
      rcases List.mem_append.mp hx with hx | hx
      · exact hw x hx hprivileged
      · rw [List.mem_singleton.mp hx] at hprivileged
        exact absurd hprivileged hpayload

theorem Effect.writes {w₀ w w' : World} (h : Effect π w₀ w w') {n : Nat} {u : UserLogin}
    {v : Option IUserData} (hw : w'.users.Wrote n u v) :
    w.users.Wrote n u v ∨ u = adminUserName ∧ ∃ user salt modified,
      v = some (Http.reset π user salt modified) ∧ AdminRecord π w₀ user := by
  cases h with
  | none => exact .inl hw
  | token => exact .inl hw
  | reset hrecord =>
      rcases WriteBehind.Store.wrote_issue_iff.mp hw with hw | ⟨_, rfl, rfl⟩
      · exact .inl hw
      · exact .inr ⟨rfl, _, _, _, rfl, hrecord⟩

theorem Kept.move {w₀ : World} {g h : Service.Config} {a : Service.Act} (hg : Kept π w₀ g)
    (hok : Outsider π w₀ g a) (hmove : Move (Step π) Platform.env g a h) : Kept π w₀ h := by
  have hknown := hg.known
  have hextends := hg.later.trans ((extends_moves π).move hmove)
  have hran : ∀ i c past st, h.threads i = some { call := c, past, status := st } →
      Harmless π w₀ c st → Effect π w₀ g.world h.world →
      (∀ j t, h.threads j = some t → g.threads j = some t ∨ j = i) → Kept π w₀ h := by
    intro i c past st hi hc heffect hothers
    refine { ledger := hg.ledger.move hmove, later := hextends,
             tokens := heffect.tokens hg.tokens, settings := heffect.settings.trans hg.settings,
             threads := fun j t hj => ?_, writes := fun n u v hn hw => ?_ }
    · rcases hothers j t hj with hold | rfl
      · exact hg.threads j t hold
      · cases hi.symm.trans hj
        exact hc
    · rcases heffect.writes hw with hw | hreset
      · exact hg.writes n u v hn hw
      · exact hreset
  rcases hmove.runs with ⟨i, c, o, past, st, hruns, hstep, hi⟩ | ⟨e, rfl, he⟩
  · have hothers : ∀ j t, h.threads j = some t → g.threads j = some t ∨ j = i := fun j t hj =>
      (hmove.old_or hruns hi hj).imp id And.left
    cases hruns with
    | start hnone =>
        obtain ⟨request, houtside⟩ := hok
        obtain ⟨hc, heffect⟩ := houtside.start hknown hg.tokens hstep
        exact hran i c past st hi hc heffect hothers
    | resume hwaits =>
        obtain ⟨hc, heffect⟩ := (hg.threads i _ hwaits).resume hknown hstep
        exact hran i c past st hi hc heffect hothers
  · obtain ⟨hwrites, hissued, _⟩ := Platform.env_spec he
    exact { ledger := hg.ledger.move hmove, later := hextends,
            tokens := hissued ▸ hg.tokens,
            settings := (env_settings he).trans hg.settings,
            threads := hmove.env_threads ▸ hg.threads,
            writes := fun n u v hn hw =>
              hg.writes n u v hn ((WriteBehind.Store.wrote_congr hwrites).mp hw) }

/-- What has become in `w` of the accounts of `w₀`. -/
structure Contained (π : Platform) (w₀ w : World) : Prop where
  /-- No token of an admin was issued. -/
  tokens : ∀ x ∈ w.issued, x.1.Privileged → x ∈ w₀.issued
  /-- All other accounts are as they were. -/
  others : ∀ u, u ≠ adminUserName → w.users.get u = w₀.users.get u
  /-- The account "admin" is as it was, or has the password of the device and was modified when
  that was set. -/
  admin : w.users.get adminUserName = w₀.users.get adminUserName ∨
    ∃ user salt modified, w₀.users.get adminUserName = some user ∧
      w.users.get adminUserName = some (reset π user salt modified)
  settings : w.settings = w₀.settings

theorem Kept.contained {w₀ : World} {g : Service.Config} (hg : Kept π w₀ g) :
    Contained π w₀ g.world where
  tokens := hg.tokens
  others := hg.known.others
  settings := hg.settings
  admin := by
    rcases g.world.users.version_cases adminUserName hg.later.users.applied with
      he | ⟨n, v, hn, _, hw, he, _⟩
    · exact .inl (he.trans (hg.later.users.version w₀.users.applied_le _))
    · obtain ⟨_, user, salt, modified, rfl, user₀, hget, rfl | ⟨salt₀, modified₀, rfl⟩⟩ :=
        hg.writes n _ v hn hw
      · exact .inr ⟨user, salt, modified, hget, he⟩
      · exact .inr ⟨user₀, salt, modified, hget, he⟩

section Run

variable {as bs : List Service.Act} {s t : Service.State}

/-- Where no call is in progress every write is committed. -/
theorem applied_of_quiet (hrun : π.system.Run always Service.initial as s)
    (hquiet : s.config.Quiet) : s.world.users.applied = s.world.users.writes.length := by
  refine Nat.le_antisymm s.world.users.applied_le (Nat.not_lt.mp fun hlt => ?_)
  obtain ⟨u, v, hw⟩ := WriteBehind.Store.exists_wrote hlt
  obtain ⟨i, th, hi, hwrote⟩ := (ledger hrun).writer _ u v hw
  obtain ⟨r, hdone⟩ := hquiet i th hi
  exact absurd (((ledger hrun).ticket i th hi).committed hdone hwrote.awaited).2
    (Nat.lt_irrefl _)

theorem kept_start (hrun : π.system.Run always Service.initial as s)
    (hquiet : s.config.Quiet) : Kept π s.world s.config where
  ledger := ledger hrun
  later := .refl _
  tokens _ h _ := h
  settings := rfl
  threads i th hi := by
    obtain ⟨r, hdone⟩ := hquiet i th hi
    rw [hdone]
    exact .done
  writes n u v hn hw := by
    rw [applied_of_quiet hrun hquiet] at hn
    exact absurd hw.lt (Nat.not_lt.mpr hn)

/-- From every reachable state in which no call is in progress, whatever requests
are sent without a token and without a password of an admin, and however their
steps interleave: no token of an admin is issued, and no account is changed but
for the password of "admin", which may have been reset. -/
theorem outsiders_contained (hrun : π.system.Run always Service.initial as s)
    (hquiet : s.config.Quiet)
    (hrest : π.system.Run (Outsider π s.world) s bs t) : Contained π s.world t.world :=
  (hrest.invariant (Kept π s.world) (system_obeys π)
    (fun _ _ _ hok hmove hg => hg.move hok hmove) (run_obeys hrun)
    (kept_start hrun hquiet)).contained

end Run

/-- The account is created and the settings are initialized. -/
def adminInitialized : List Service.Act :=
  adminCreated ++ [.start 1 .resetSettings, .resume 1 (.resolve 0)]

/-- Somebody guesses the password of "admin", and resets it. -/
def guessAndReset : List Service.Act :=
  [.start 2 (.login "admin" "guess"), .resume 2 (.resolve 0), .start 3 .resetAdminPassword,
    .resume 3 (.resolve 0), .resume 2 (.resolve 0), .resume 3 (.resolve 0),
    .resume 3 (.resolve 7), .resume 3 (.resolve 0), .env .commit, .resume 3 (.resolve 0)]

def loginRequest : Request :=
  { method := .post, path := "/authentication/login", authorization := none }

def resetRequest : Request :=
  { method := .post, path := "/authentication/reset-admin-password/", authorization := none }

/-- The state in which the requests are sent. -/
def initialized : Service.State := Platform.sample.system.outcome Service.initial adminInitialized

theorem guess_outside {w : World} (hadmitted : admittedTo Platform.sample w loginRequest =
    some (.authentication .login)) :
    Outside Platform.sample initialized.world w (.login "admin" "guess") loginRequest where
  admitted := ⟨_, hadmitted, rfl⟩
  token x hx := by
    rw [show initialized.world.issued = [] from rfl] at hx
    cases hx
  password u p user hc hget _ := by
    cases hc
    cases hget
    decide
  defaultPassword p hc := by
    cases hc
    decide

theorem reset_outside {w : World} (hadmitted : admittedTo Platform.sample w resetRequest =
    some (.authentication .resetPassword)) :
    Outside Platform.sample initialized.world w .resetAdminPassword resetRequest where
  admitted := ⟨_, hadmitted, rfl⟩
  token x hx := by
    rw [show initialized.world.issued = [] from rfl] at hx
    cases hx
  password u p user hc := by cases hc
  defaultPassword p hc := by cases hc

theorem outsiders_contained_guess :
    ∃ t, Platform.sample.system.Run always Service.initial adminInitialized initialized ∧
      Platform.sample.system.Run (Outsider Platform.sample initialized.world) initialized
        guessAndReset t ∧
      Contained Platform.sample initialized.world t.world := by
  have hrun : Platform.sample.system.Run always Service.initial adminInitialized initialized :=
    System.run_outcome (by rfl)
  have h0 : ∃ past, initialized.config.threads 0 = some
      { call := .createAdmin, past, status := .done (.ok .void) } := ⟨_, rfl⟩
  have h1 : ∃ past, initialized.config.threads 1 = some
      { call := .resetSettings, past, status := .done (.ok .void) } := ⟨_, rfl⟩
  obtain ⟨past₀, h0⟩ := h0
  obtain ⟨past₁, h1⟩ := h1
  have hquiet : initialized.config.Quiet := by
    refine hrun.forall_threads ?_
    show ∀ i ∈ [0, 1], _
    simp [h0, h1]
  have hrest := Platform.sample.system.run_outcome_of
    (show (Platform.sample.system.exec initialized guessAndReset).isSome = true from rfl)
    (show ∀ n (hn : n < 10), Outsider Platform.sample initialized.world
      (Platform.sample.system.outcome initialized (guessAndReset.take n)).config
        guessAndReset[n] from fun n hn => ?_)
  · exact ⟨_, hrun, hrest, outsiders_contained hrun hquiet hrest⟩
  · interval_cases n
    case «0» => exact ⟨loginRequest, guess_outside rfl⟩
    case «2» => exact ⟨resetRequest, reset_outside rfl⟩
    all_goals trivial

end Http

end RpiNestApi
