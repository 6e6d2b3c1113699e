import Mathlib.Tactic.IntervalCases
import RpiNestApi.Authentication.Accounts
import RpiNestApi.Authentication.Sequential

/-
Sequential runs of the services refine the account table.

The stored record of an account holds its password hashed, under whatever salt.
Each call is proved to do to the records what `Table.call` does to the table, and
a sequence of calls does so by induction.
-/

namespace RpiNestApi

open Async

variable {π : Platform} {allowed : Choice → Prop} {w : World} {records : Records}

/-! ## The records represent the table -/

/-- The record holds the account, with its password hashed. -/
structure Account.Represents (π : Platform) (a : Account) (user : IUserData) : Prop where
  passwordHash : ∃ salt, user.passwordHash = π.bcrypt.hash a.password salt
  roles : user.roles = a.roles
  description : user.description = a.description

def Table.Represents (π : Platform) (t : Table) (records : Records) : Prop :=
  ∀ login, Option.Rel (Account.Represents π) (t.accounts login) (records login)

/-- What a call answers when it succeeds. -/
def Call.Answers (π : Platform) (records : Records) : Call → Response → Prop
  | .login userLogin _, v => ∃ user iat, records userLogin = some user ∧
      v = .token
        { token := π.jwtService.sign
            { sub := userLogin, roles := user.roles, modified := user.modified } iat }
  | _, v => v = .void

/-- How a call ends that runs alone on records that represent `t`.  It can be
rejected though the table does not reject it, but only where a promise is. -/
inductive Outcome (π : Platform) (allowed : Choice → Prop) (t : Table) (records : Records)
    (c : Call) : Except Exception Response → World → Prop
  | ok {t' records' v w} (hcall : t.call π c = some t') (hw : w.Shows records' t'.settings)
      (ht : t'.Represents π records') (hv : c.Answers π records v) :
      Outcome π allowed t records c (.ok v) w
  | error {e w} (hw : w.Shows records t.settings)
      (hcall : (∃ e, allowed (.reject e)) ∨ t.call π c = none) :
      Outcome π allowed t records c (.error e) w

theorem Outcome.idle {t : Table} {c : Call} {r : Except Exception Response} {w' : World}
    (h : Outcome π allowed t records c r w) (hidle : π.system.Idle w w') :
    Outcome π allowed t records c r w' := by
  cases h with
  | ok hcall hw ht hv => exact .ok hcall (hw.idle hidle) ht hv
  | error hw hcall => exact .error (hw.idle hidle) hcall

theorem Account.Represents.compare {a : Account} {user : IUserData} (h : a.Represents π user)
    (password : String) :
    π.bcrypt.compare password user.passwordHash = true ↔ a.password = password := by
  obtain ⟨salt, hhash⟩ := h.passwordHash
  rw [hhash, π.bcrypt.compare_hash, eq_comm]

namespace Table.Represents

variable {t : Table}

theorem empty (settings : Option AuthenticationSettings) :
    (Table.empty settings).Represents π fun _ => none :=
  fun _ => Option.Rel.none

/-- A login is on both sides, or on neither. -/
theorem cases (h : t.Represents π records) (login : UserLogin) :
    t.accounts login = none ∧ records login = none ∨
      ∃ a user, t.accounts login = some a ∧ records login = some user ∧ a.Represents π user := by
  have hrel := h login
  cases ha : t.accounts login with
  | none =>
      cases hr : records login with
      | none => exact .inl ⟨rfl, rfl⟩
      | some user => simp [ha, hr] at hrel
  | some a =>
      cases hr : records login with
      | none => simp [ha, hr] at hrel
      | some user =>
          rw [ha, hr, Option.rel_some_some] at hrel
          exact .inr ⟨a, user, rfl, rfl, hrel⟩

theorem update (h : t.Represents π records) (login : UserLogin) {o : Option Account}
    {o' : Option IUserData} (ho : Option.Rel (Account.Represents π) o o') :
    (t.set login o).Represents π (Function.update records login o') := by
  intro u
  by_cases hu : u = login
  · subst hu
    simpa [Table.set] using ho
  · simpa [Table.set, hu] using h u

/-- The password given is the account's exactly when the stored hash accepts it. -/
theorem authenticates_iff (h : t.Represents π records) {login : UserLogin} {password : String} :
    t.Authenticates login password ↔ ∃ user, records login = some user ∧
      π.bcrypt.compare password user.passwordHash = true := by
  rw [Table.Authenticates]
  rcases h.cases login with ⟨ha, hr⟩ | ⟨a, user, ha, hr, hrep⟩
  · simp [ha, hr]
  · simp [ha, hr, hrep.compare]

end Table.Represents

theorem Account.Represents.merge {a : Account} {user : IUserData} (h : a.Represents π user)
    (roles : Field (List AccessRole)) (description : Field String) (modified : Nat) :
    { a with
      roles := roles.override a.roles
      description := description.override a.description }.Represents π
        (user.merge { roles, description } modified) where
  passwordHash := h.passwordHash
  roles := congrArg roles.override h.roles
  description := congrArg description.override h.description

theorem Account.Represents.setPassword {a : Account} {user : IUserData} (h : a.Represents π user)
    (password : String) (salt modified : Nat) :
    { a with password }.Represents π
      (user.merge { passwordHash := some (π.bcrypt.hash password salt) } modified) where
  passwordHash := ⟨salt, rfl⟩
  roles := h.roles
  description := h.description

/-! ## The calls -/

section Calls

variable {t : Table} (hresolve : ∀ salt, allowed (.resolve salt))
variable (hw : w.Shows records t.settings) (ht : t.Represents π records)
include hresolve hw ht

/-- The last step of the calls that create an account. -/
theorem createAccount_ends {c : Call} {login : UserLogin} {a : Account} {data : CreateUserData}
    (hcall : t.call π c = t.create login a) (hv : c.Answers π records .void)
    (ha : ∀ created, a.Represents π (data.record login created)) :
    Service.Ends π allowed ((UserRepository.create login data).bind fun _ => .ret .void)
      (Outcome π allowed t records c) w := by
  rw [Service.Ends, Prog.ends_bind]
  rcases ht.cases login with ⟨hnone, hr⟩ | ⟨a₀, user, hsome, hr, _⟩
  · rw [Table.create, if_pos hnone] at hcall
    exact create_ends hresolve hw
      (fun _ created w' hw' => .ok hcall hw' (ht.update login (.some (ha created))) hv)
      fun h => absurd hr h
  · rw [Table.create, if_neg (by simp [hsome])] at hcall
    exact create_ends hresolve hw (fun h => by simp [hr] at h) fun _ e => .error hw (.inr hcall)

/-- The last steps of the calls that set a password. -/
theorem setPassword_ends {c : Call} {login : UserLogin} {password : String}
    (hcall : t.call π c = t.change login fun a => { a with password })
    (hv : c.Answers π records .void) :
    Service.Ends π allowed
      ((AuthenticationService.updateUserPassword login password).bind fun _ => .ret .void)
      (Outcome π allowed t records c) w := by
  rw [Service.Ends, Prog.ends_bind]
  rcases ht.cases login with ⟨hnone, hr⟩ | ⟨a, user, hsome, hr, hrep⟩
  · rw [Table.change, hnone, Option.map_none] at hcall
    exact updateUserPassword_ends hresolve hw (fun user h => by simp [hr] at h)
      fun e w' hw' _ => .error hw' (.inr hcall)
  · rw [Table.change, hsome, Option.map_some] at hcall
    refine updateUserPassword_ends hresolve hw (fun user' h salt modified w' hw' => ?_)
      fun e w' hw' h => .error hw' (h.imp_right fun h => by simp [hr] at h)
    cases hr.symm.trans h
    exact .ok hcall hw' (ht.update login (.some (hrep.setPassword password salt modified))) hv

theorem createCall_ends (user : UserDto) :
    Service.Ends π allowed (Call.create user).body
      (Outcome π allowed t records (.create user)) w := by
  simp only [Service.Ends, Call.body, UserService.create, Prog.bind_def, Prog.pure_def]
  by_cases hadmin : user.login = adminUserName
  · rw [if_pos hadmin]
    exact .error hw (.inr (if_pos hadmin))
  · rw [if_neg hadmin, Prog.bind_assoc, Prog.ends_bind]
    refine hashPassword_ends hresolve hw (fun salt w' hw' => ?_)
      fun e w' hw' hc => .error hw' (.inl ⟨e, hc⟩)
    exact createAccount_ends hresolve hw' ht (if_neg hadmin) rfl fun created =>
      { passwordHash := ⟨salt, rfl⟩, roles := rfl, description := rfl }

theorem createAdminCall_ends :
    Service.Ends π allowed Call.createAdmin.body (Outcome π allowed t records .createAdmin) w := by
  simp only [Service.Ends, Call.body, UserService.createAdmin, Prog.bind_def, Prog.pure_def,
    Prog.bind_assoc]
  rw [Prog.ends_bind]
  refine getDeviceDefaultPassword_ends hresolve hw (fun w' hw' => Prog.ends_bind.mpr ?_)
    fun e w' hw' hc => .error hw' (.inl ⟨e, hc⟩)
  refine hashPassword_ends hresolve hw' (fun salt w'' hw'' => ?_)
    fun e w'' hw'' hc => .error hw'' (.inl ⟨e, hc⟩)
  exact createAccount_ends hresolve hw'' ht rfl rfl fun created =>
    { passwordHash := ⟨salt, rfl⟩, roles := rfl, description := rfl }

theorem updateCall_ends (updateUser : UpdateUserDto) :
    Service.Ends π allowed (Call.update updateUser).body
      (Outcome π allowed t records (.update updateUser)) w := by
  simp only [Service.Ends, Call.body, UserService.update, Prog.bind_def, Prog.pure_def]
  cases hlogin : updateUser.login with
  | undefined => exact .error hw (.inr (by simp [Table.call, hlogin]))
  | null => exact .error hw (.inr (by simp [Table.call, hlogin]))
  | value login =>
      simp only
      by_cases hadmin : login = adminUserName
      · rw [if_pos hadmin]
        exact .error hw (.inr (by simp [Table.call, hlogin, hadmin]))
      · rw [if_neg hadmin, Prog.ends_bind]
        have hcall : t.call π (.update updateUser) = t.change login fun a =>
            { a with
              roles := updateUser.roles.override a.roles
              description := updateUser.description.override a.description } := by
          simp [Table.call, hlogin, hadmin]
        rcases ht.cases login with ⟨hnone, hr⟩ | ⟨a, user, hsome, hr, hrep⟩
        · rw [Table.change, hnone, Option.map_none] at hcall
          exact update_ends hresolve hw (fun user h => by simp [hr] at h)
            fun _ e w' hw' => .error hw' (.inr hcall)
        · rw [Table.change, hsome, Option.map_some] at hcall
          refine update_ends hresolve hw (fun user' h modified w' hw' => ?_)
            fun h => by simp [hr] at h
          cases hr.symm.trans h
          exact .ok hcall hw' (ht.update login (.some (hrep.merge _ _ modified))) rfl

theorem removeCall_ends (login : UserLogin) :
    Service.Ends π allowed (Call.remove login).body
      (Outcome π allowed t records (.remove login)) w := by
  simp only [Service.Ends, Call.body, UserService.remove, Prog.bind_def, Prog.pure_def]
  by_cases hadmin : login = adminUserName
  · rw [if_pos hadmin]
    exact .error hw (.inr (if_pos hadmin))
  · rw [if_neg hadmin, Prog.ends_bind]
    have hcall : t.call π (.remove login) =
        (t.accounts login).map fun _ => t.set login none := if_neg hadmin
    rcases ht.cases login with ⟨hnone, hr⟩ | ⟨a, user, hsome, hr, _⟩
    · rw [hnone, Option.map_none] at hcall
      exact remove_ends hresolve hw (fun h => absurd hr h) fun _ e => .error hw (.inr hcall)
    · rw [hsome, Option.map_some] at hcall
      exact remove_ends hresolve hw (fun _ w' hw' => .ok hcall hw' (ht.update login .none) rfl)
        fun h => by simp [hr] at h

/-- Authentication, and whatever the call does next for the account. -/
theorem authenticate_ends {c : Call} {login : UserLogin} {password : String}
    {k : IUserData → Service Response}
    (hcall : ¬ t.Authenticates login password → t.call π c = none)
    (hk : t.Authenticates login password → ∀ user, records login = some user →
      ∀ w, w.Shows records t.settings →
        Service.Ends π allowed (k user) (Outcome π allowed t records c) w) :
    Service.Ends π allowed
      ((AuthenticationService.getAuthenticatedUserOrThrow login password).bind k)
      (Outcome π allowed t records c) w := by
  rw [Service.Ends, Prog.ends_bind]
  refine getAuthenticatedUserOrThrow_ends hresolve hw (fun user hr hcorrect w' hw' => ?_)
    fun e w' hw' h => .error hw' (h.imp_right fun hwrong => hcall fun hauth => ?_)
  · exact hk (ht.authenticates_iff.mpr ⟨user, hr, hcorrect⟩) user hr w' hw'
  · obtain ⟨user, hr, hcorrect⟩ := ht.authenticates_iff.mp hauth
    rw [hwrong user hr] at hcorrect
    cases hcorrect

theorem loginCall_ends (login : UserLogin) (password : String) :
    Service.Ends π allowed (Call.login login password).body
      (Outcome π allowed t records (.login login password)) w := by
  simp only [Service.Ends, Call.body, AuthenticationService.login, Prog.bind_def, Prog.pure_def,
    Prog.bind_assoc]
  refine authenticate_ends hresolve hw ht (fun h => if_neg h) fun hauth user hr w' hw' => ?_
  rw [Service.Ends, Prog.ends_bind]
  refine await_ends hresolve hw' (fun w => ⟨_, rfl⟩) fun w'' c r hw'' hc hr' => ?_
  cases c with
  | resolve salt =>
      cases hr'
      exact .ok (if_pos hauth) ⟨hw''.applied, hw''.users, hw''.settings⟩ ht ⟨user, _, hr, rfl⟩
  | reject e =>
      cases hr'
      exact .error hw'' (.inl ⟨e, hc⟩)

theorem updatePasswordCall_ends (login : UserLogin) (currentPassword newPassword : String) :
    Service.Ends π allowed (Call.updatePassword login currentPassword newPassword).body
      (Outcome π allowed t records (.updatePassword login currentPassword newPassword)) w := by
  simp only [Service.Ends, Call.body, AuthenticationService.updatePassword, Prog.bind_def,
    Prog.pure_def, Prog.bind_assoc]
  refine authenticate_ends hresolve hw ht (fun h => if_neg h) fun hauth user _ w' hw' => ?_
  exact setPassword_ends hresolve hw' ht (if_pos hauth) rfl

theorem resetAdminPasswordCall_ends :
    Service.Ends π allowed Call.resetAdminPassword.body
      (Outcome π allowed t records .resetAdminPassword) w := by
  simp only [Service.Ends, Call.body, AuthenticationService.resetAdminPassword,
    SettingsRepository.get, Prog.read, Prog.bind_def, Prog.pure_def, Prog.sync_bind,
    Prog.ret_bind, Prog.ends_sync, id, hw.settings]
  cases hsettings : t.settings with
  | none =>
      have hforbidden : ¬ t.AllowsReset := by simp [Table.AllowsReset, hsettings]
      exact .error hw (.inr (if_neg hforbidden))
  | some settings =>
      simp only [Prog.ret_bind, Prog.bind_assoc]
      refine Prog.ends_bind.mpr
        (value_ends hresolve hw (fun _ _ => rfl) (fun _ _ => rfl) fun w' hw' => ?_)
      by_cases hdisabled : settings.isAdminPasswordResetEnabled = some false
      · have hforbidden : ¬ t.AllowsReset := by simp [Table.AllowsReset, hsettings, hdisabled]
        simp only [if_pos hdisabled]
        exact .error hw' (.inr (if_neg hforbidden))
      · have hallows : t.AllowsReset := ⟨settings, hsettings, hdisabled⟩
        simp only [if_neg hdisabled, Prog.bind_assoc]
        refine Prog.ends_bind.mpr (getDeviceDefaultPassword_ends hresolve hw'
          (fun w'' hw'' => ?_) fun e w'' hw'' hc => .error hw'' (.inl ⟨e, hc⟩))
        exact setPassword_ends hresolve hw'' ht (if_pos hallows) rfl

/-- Settings are stored at once. -/
theorem putSettings_ends {c : Call} {value : AuthenticationSettings}
    (hcall : t.call π c = some { t with settings := some value })
    (hv : c.Answers π records .void) :
    Service.Ends π allowed ((SettingsRepository.put value).bind fun _ => .ret .void)
      (Outcome π allowed t records c) w := by
  have hstored : { w with settings := some value : World }.Shows records (some value) :=
    { applied := hw.applied, users := hw.users, settings := rfl }
  refine Prog.ends_bind.mpr (Prog.ends_sync.mpr
    (value_ends hresolve hstored (fun _ _ => rfl) (fun _ _ => rfl) fun w' hw' => ?_))
  exact .ok hcall hw' ht hv

theorem resetSettingsCall_ends :
    Service.Ends π allowed Call.resetSettings.body
      (Outcome π allowed t records .resetSettings) w :=
  putSettings_ends hresolve hw ht rfl rfl

theorem updateSettingsCall_ends (data : Option (Option Bool)) :
    Service.Ends π allowed (Call.updateSettings data).body
      (Outcome π allowed t records (.updateSettings data)) w := by
  simp only [Service.Ends, Call.body, SettingsRepository.update, SettingsRepository.get, Prog.read,
    Prog.bind_def, Prog.pure_def, Prog.sync_bind, Prog.ret_bind, Prog.ends_sync, id, hw.settings]
  cases hsettings : t.settings with
  | none => exact .error hw (.inr (by simp [Table.call, hsettings]))
  | some settings =>
      simp only [Prog.ret_bind, Prog.bind_assoc]
      refine Prog.ends_bind.mpr
        (value_ends hresolve hw (fun _ _ => rfl) (fun _ _ => rfl) fun w' hw' => ?_)
      exact putSettings_ends hresolve hw' ht (by simp [Table.call, hsettings]) rfl

/-- Every call, run alone, does to the records what it does to the table. -/
theorem call_ends (c : Call) :
    Service.Ends π allowed c.body (Outcome π allowed t records c) w := by
  cases c with
  | create user => exact createCall_ends hresolve hw ht user
  | update updateUser => exact updateCall_ends hresolve hw ht updateUser
  | remove login => exact removeCall_ends hresolve hw ht login
  | createAdmin => exact createAdminCall_ends hresolve hw ht
  | login login password => exact loginCall_ends hresolve hw ht login password
  | updatePassword login cur new => exact updatePasswordCall_ends hresolve hw ht login cur new
  | resetAdminPassword => exact resetAdminPasswordCall_ends hresolve hw ht
  | resetSettings => exact resetSettingsCall_ends hresolve hw ht
  | updateSettings data => exact updateSettingsCall_ends hresolve hw ht data

end Calls

/-! ## Sequential runs -/

/-- No promise is rejected. -/
def Choice.Resolved : Choice → Prop
  | .resolve _ => True
  | .reject _ => False

def Choice.Any (_ : Choice) : Prop := True

theorem Choice.Resolved.not_reject : ¬ ∃ e, Choice.Resolved (.reject e) :=
  fun ⟨_, h⟩ => h

/-- The store holds the accounts and settings of the table, and nothing else is
on its way to it. -/
def Table.Stored (π : Platform) (t : Table) (w : World) : Prop :=
  ∃ records, t.Represents π records ∧ w.Shows records t.settings

theorem Outcome.ok_iff {t : Table} {c : Call} {r : Except Exception Response}
    (h : Outcome π allowed t records c r w) (hallowed : ¬ ∃ e, allowed (.reject e)) :
    (∃ v, r = .ok v) ↔ ∃ t', t.call π c = some t' := by
  cases h with
  | ok hcall hw ht hv => exact ⟨fun _ => ⟨_, hcall⟩, fun _ => ⟨_, rfl⟩⟩
  | error hw hcall =>
      have hnone := hcall.resolve_left hallowed
      simp [hnone]

/-- A sequential run does to the store what its log does to the table. -/
theorem sequence_stored (hresolve : ∀ salt, allowed (.resolve salt)) {w₀ : World}
    (h₀ : w₀.users = .empty) {log : Log} {s : Service.State}
    (h : π.system.Sequence allowed w₀ log s) :
    (∃ t, Table.Run π (.empty w₀.settings) log t ∧ t.Stored π s.world) ∧ s.config.Quiet := by
  refine h.invariant (fun log w => ∃ t, Table.Run π (.empty w₀.settings) log t ∧ t.Stored π w)
    ⟨.empty w₀.settings, .nil, fun _ => none, .empty _, ?_⟩ ?_ ?_
  · exact { applied := by rw [h₀]; rfl, users := by rw [h₀]; rfl, settings := rfl }
  · intro log w w' hidle ⟨t, hrun, records, ht, hw⟩
    exact ⟨t, hrun, records, ht, hw.idle hidle⟩
  · intro log c w w' ⟨t, hrun, records, ht, hw⟩ haccept
    cases haccept
    refine (call_ends hresolve hw ht c).mono fun r w' hout => ?_
    cases hout with
    | ok hcall hw' ht' _ => exact ⟨_, hrun.ok hcall, _, ht', hw'⟩
    | error hw' _ => exact ⟨t, hrun.error, records, ht, hw'⟩

/-- A call that has ended after a sequential run ended as the table says. -/
theorem completes_outcome {t : Table} {s s' : Service.State} (hquiet : s.config.Quiet)
    (hw : s.world.Shows records t.settings) (ht : t.Represents π records)
    (hresolve : ∀ salt, allowed (.resolve salt)) {i : Nat} {c : Call}
    {r : Except Exception Response} (h : π.system.Completes allowed s i c r s') :
    Outcome π allowed t records c r s'.world := by
  have hbody : ∀ w, π.system.accept c s.world = some w →
      Service.Ends π allowed c.body (Outcome π allowed t records c) w := by
    intro w haccept
    cases haccept
    exact call_ends hresolve hw ht c
  exact (h.ends (fun r w w' hidle hout => hout.idle hidle) hquiet hbody).1

/-- After the calls of `log` the services behave as the table `t`. -/
structure Behaves (π : Platform) (log : Log) (t : Table) (s : Service.State) : Prop where
  stored : t.Stored π s.world
  completes : ∀ i c, s.tasks i = none → ∃ r s', π.system.Completes Choice.Resolved s i c r s'
  succeeds_iff : ∀ i c r s', π.system.Completes Choice.Resolved s i c r s' →
    ((∃ v, r = .ok v) ↔ ∃ t', t.call π c = some t')
  success : ∀ i c v s', π.system.Completes Choice.Any s i c (.ok v) s' →
    ∃ t', t.call π c = some t' ∧ t'.Stored π s'.world
  rejection : ∀ i c e s', π.system.Completes Choice.Any s i c (.error e) s' →
    s'.world.users.get = s.world.users.get
  login_iff : ∀ i u p r s', π.system.Completes Choice.Resolved s i (.login u p) r s' →
    ((∃ v, r = .ok v) ↔ s.world.users.get u ≠ none ∧ log.lastPassword π u = some p)
  login_token : ∀ i u p v s', π.system.Completes Choice.Any s i (.login u p) (.ok v) s' →
    ∃ user iat, s.world.users.get u = some user ∧
      v = .token
        { token := π.jwtService.sign
            { sub := u, roles := user.roles, modified := user.modified } iat }
  updatePassword_iff : ∀ i j u cur new r r' s₁ s₂,
    π.system.Completes Choice.Resolved s i (.updatePassword u cur new) r s₁ →
    π.system.Completes Choice.Resolved s j (.login u cur) r' s₂ →
      ((∃ v, r = .ok v) ↔ ∃ v, r' = .ok v)
  resetAdminPassword_iff : ∀ i r s',
    π.system.Completes Choice.Resolved s i .resetAdminPassword r s' → ((∃ v, r = .ok v) ↔
      (∃ settings, s.world.settings = some settings ∧
        settings.isAdminPasswordResetEnabled ≠ some false) ∧
      s.world.users.get adminUserName ≠ none)

/-- The services refine the account table over every sequential run. -/
theorem account_table {w₀ : World} (h₀ : w₀.users = .empty) {log : Log} {s : Service.State}
    (h : π.system.Sequence Choice.Any w₀ log s) :
    ∃ t, Table.Run π (.empty w₀.settings) log t ∧ Behaves π log t s := by
  obtain ⟨⟨t, hrun, records, ht, hw⟩, hquiet⟩ := sequence_stored (fun _ => trivial) h₀ h
  have hany : ∀ {i c r s'}, π.system.Completes Choice.Any s i c r s' →
      Outcome π Choice.Any t records c r s'.world :=
    fun h => completes_outcome hquiet hw ht (fun _ => trivial) h
  have hsucceeds : ∀ {i c r s'}, π.system.Completes Choice.Resolved s i c r s' →
      ((∃ v, r = .ok v) ↔ ∃ t', t.call π c = some t') := fun h =>
    (completes_outcome hquiet hw ht (fun _ => trivial) h).ok_iff Choice.Resolved.not_reject
  have hget : ∀ u, s.world.users.get u = none ↔ t.accounts u = none := by
    intro u
    rw [hw.users]
    rcases ht.cases u with ⟨ha, hr⟩ | ⟨_, _, ha, hr, _⟩ <;> simp [ha, hr]
  refine ⟨t, hrun, ?_⟩
  exact {
    stored := ⟨records, ht, hw⟩
    completes := fun i c hi =>
      System.exists_completes hi rfl (call_ends (fun _ => trivial) hw ht c)
    succeeds_iff := fun i c r s' h => hsucceeds h
    success := fun i c v s' h => by
      cases hany h with
      | ok hcall hw' ht' _ => exact ⟨_, hcall, _, ht', hw'⟩
    rejection := fun i c e s' h => by
      cases hany h with
      | error hw' _ => rw [hw'.users, hw.users]
    login_iff := fun i u p r s' h => by
      rw [hsucceeds h, Table.login_iff, hrun.authenticates_iff, Ne, Ne, hget]
    login_token := fun i u p v s' h => by
      cases hany h with
      | ok _ _ _ hv =>
          obtain ⟨user, iat, hr, rfl⟩ := hv
          exact ⟨user, iat, hw.users ▸ hr, rfl⟩
    updatePassword_iff := fun i j u cur new r r' s₁ s₂ h h' => by
      rw [hsucceeds h, hsucceeds h', Table.updatePassword_iff, Table.login_iff]
    resetAdminPassword_iff := fun i r s' h => by
      rw [hsucceeds h, Table.resetAdminPassword_iff, Ne, Ne, hget, hw.settings]
      rfl }

/-- A call has ended where its steps are all possible and its thread is done. -/
theorem completes_outcome_of {s : Service.State} (i : Nat) (c : Call) (bs : List Service.Act)
    {past : List Await} {r : Except Exception Response}
    (hbs : ∀ a ∈ bs, a.started = none)
    (hexec : (π.system.exec s (.start i c :: bs)).isSome = true)
    (hdone : (π.system.outcome s (.start i c :: bs)).config.threads i =
      some { call := c, past, status := .done r }) :
    π.system.Completes Choice.Any s i c r (π.system.outcome s (.start i c :: bs)) := by
  obtain ⟨s', hs'⟩ := Option.isSome_iff_exists.mp hexec
  obtain ⟨s₁, hstep, hs'⟩ := Option.bind_eq_some_iff.mp hs'
  have hout : π.system.outcome s (.start i c :: bs) = π.system.outcome s₁ bs := by
    simp only [System.outcome, List.foldl_cons, hstep, Option.getD_some]
  rw [hout] at hdone ⊢
  refine ⟨s₁, bs, past, hstep, System.run_outcome_of (hs' ▸ rfl) fun n hn => ?_, hdone⟩
  have hact := hbs bs[n] (List.getElem_mem hn)
  generalize bs[n] = a at hact
  cases a with
  | start j c' => cases hact
  | resume j k => trivial
  | env e => trivial

/-- "bob" is created and changes his password. -/
def bobLog (e : Exception) (token : AccessTokenDto) : Log :=
  [(createBob "first", .ok .void), (.updatePassword "bob" "wrong" "second", .error e),
    (.updatePassword "bob" "first" "second", .ok .void),
    (.login "bob" "second", .ok (.token token))]

theorem account_table_bob : ∃ e token s t,
    Platform.sample.system.Sequence Choice.Any .empty (bobLog e token) s ∧
      Table.Run Platform.sample (.empty none) (bobLog e token) t ∧
      Behaves Platform.sample (bobLog e token) t s := by
  have hnil : Platform.sample.system.Sequence Choice.Any World.empty [] (.init .empty) := .nil
  have hcreate := hnil.call (completes_outcome_of 0 (createBob "first")
    [.resume 0 (.resolve 0), .env .commit, .resume 0 (.resolve 0)] (by decide) rfl rfl)
  have hwrong := hcreate.call (completes_outcome_of 1 (.updatePassword "bob" "wrong" "second")
    [.resume 1 (.resolve 0), .resume 1 (.resolve 0)] (by decide) rfl rfl)
  have hchange := hwrong.call (completes_outcome_of 2 (.updatePassword "bob" "first" "second")
    [.resume 2 (.resolve 0), .resume 2 (.resolve 0), .resume 2 (.resolve 0), .resume 2 (.resolve 0),
      .env .commit, .resume 2 (.resolve 0)] (by decide) rfl rfl)
  have hlogin := hchange.call (completes_outcome_of 3 (.login "bob" "second")
    [.resume 3 (.resolve 0), .resume 3 (.resolve 0), .resume 3 (.resolve 0)] (by decide) rfl rfl)
  obtain ⟨t, hlog, hbehaves⟩ := account_table rfl hlogin
  exact ⟨_, _, _, t, hlogin, hlog, hbehaves⟩

end RpiNestApi
