import RpiNestApi.Async.Follow
import RpiNestApi.Authentication.Services

/-
What one step of each service call may do.

`Step π c o w w' st` is the transition table of the call `c`: resumed from the
await `o`, or started when `o = none`, it takes the world `w` to `w'` and stands
at `st`.  `system_obeys` checks the programs of the services against it, and no
later proof unfolds a program of a service.  A rejection changes nothing, so the
table does not say when one happens, except that a commit is never rejected.
-/

namespace RpiNestApi

open Async

namespace Call

/-- The login and password a call authenticates with. -/
def authenticates : Call → Option (UserLogin × String)
  | .login userLogin password => some (userLogin, password)
  | .updatePassword userLogin currentPassword _ => some (userLogin, currentPassword)
  | _ => none

/-- The call merges `data` into the record of a login. -/
def Updates (π : Platform) : Call → UserLogin → UpdateUserData → Prop
  | .update updateUser, key, data =>
    updateUser.login = .value key ∧ key ≠ adminUserName ∧
      data = { roles := updateUser.roles, description := updateUser.description }
  | .updatePassword userLogin _ newPassword, key, data =>
    userLogin = key ∧ ∃ salt, data = { passwordHash := some (π.bcrypt.hash newPassword salt) }
  | .resetAdminPassword, key, data =>
    key = adminUserName ∧
      ∃ salt, data = { passwordHash := some (π.bcrypt.hash π.deviceDefaultPassword salt) }
  | _, _, _ => False

/-- The call creates a login with `data`. -/
def Creates (π : Platform) : Call → UserLogin → CreateUserData → Prop
  | .create user, key, data =>
    user.login = key ∧ key ≠ adminUserName ∧
      ∃ salt, data =
        { passwordHash := π.bcrypt.hash user.password salt, roles := .value user.roles,
          description := user.description }
  | .createAdmin, key, data =>
    key = adminUserName ∧
      ∃ salt, data = UserService.adminData (π.bcrypt.hash π.deviceDefaultPassword salt)
  | _, _, _ => False

/-- The call changes the users store. -/
def Writes : Call → Prop
  | .login _ _ => False
  | .resetSettings => False
  | .updateSettings _ => False
  | _ => True

/-- The call stores authentication settings where it is resumed from `o`. -/
def StoresSettings : Call → Option Await → Prop
  | .resetSettings, none => True
  | .updateSettings _, some (.getSettings _) => True
  | _, _ => False

end Call

inductive Step (π : Platform) :
    Call → Option Await → World → World → Status Await Exception Response → Prop
  | reject {c o w} (e : Exception) (ho : ∀ n, o ≠ some (.written n)) :
      Step π c o w w (.done (.error e))
  | createHash {user w} (hlogin : user.login ≠ adminUserName) :
      Step π (.create user) none w w (.waits (.hashPassword user.password))
  | adminDefault {w} : Step π .createAdmin none w w (.waits .getDeviceDefaultPassword)
  | adminHash {w} :
      Step π .createAdmin (some .getDeviceDefaultPassword) w w
        (.waits (.hashPassword π.deviceDefaultPassword))
  | create {c login data password w} (hc : c.Creates π login data)
      (hfree : w.users.get login = none) :
      Step π c (some (.hashPassword password)) w
        (w.write login (some (data.record login w.clock)))
        (.waits (.written w.users.writes.length))
  | updateRead {updateUser login w} (hlogin : updateUser.login = .value login)
      (hadmin : login ≠ adminUserName) :
      Step π (.update updateUser) none w w
        (.waits (.updating login
          { roles := updateUser.roles, description := updateUser.description }
          (w.users.get login)))
  | merge {c login data user w} (hc : c.Updates π login data) :
      Step π c (some (.updating login data (some user))) w
        (w.write login (some (user.merge data w.clock)))
        (.waits (.written w.users.writes.length))
  | remove {login w} (hadmin : login ≠ adminUserName) (hex : w.users.get login ≠ none) :
      Step π (.remove login) none w (w.write login none)
        (.waits (.written w.users.writes.length))
  | written {c n w} (hn : w.users.Committed n) :
      Step π c (some (.written n)) w w (.done (.ok .void))
  | authRead {c login password w} (hc : c.authenticates = some (login, password)) :
      Step π c none w w (.waits (.user login (w.users.get login)))
  | authCompare {c login password user w} (hc : c.authenticates = some (login, password)) :
      Step π c (some (.user login (some user))) w w (.waits (.comparePasswords password user))
  | sign {login password user w} (h : π.bcrypt.compare password user.passwordHash = true) :
      Step π (.login login password) (some (.comparePasswords password user)) w w
        (.waits (.signAsync { sub := login, roles := user.roles, modified := user.modified }))
  | token {login password payload w} :
      Step π (.login login password) (some (.signAsync payload)) w
        { w with issued := w.issued ++ [(payload, seconds w.clock)] }
        (.done (.ok (.token { token := π.jwtService.sign payload (seconds w.clock) })))
  | newHash {login password newPassword user w}
      (h : π.bcrypt.compare password user.passwordHash = true) :
      Step π (.updatePassword login password newPassword) (some (.comparePasswords password user))
        w w (.waits (.hashPassword newPassword))
  | newRead {login password newPassword w} (salt : Nat) :
      Step π (.updatePassword login password newPassword) (some (.hashPassword newPassword)) w w
        (.waits (.updating login { passwordHash := some (π.bcrypt.hash newPassword salt) }
          (w.users.get login)))
  | resetRead {settings w} (h : w.settings = some settings) :
      Step π .resetAdminPassword none w w (.waits (.getSettings settings))
  | resetDefault {settings w} (h : settings.isAdminPasswordResetEnabled ≠ some false) :
      Step π .resetAdminPassword (some (.getSettings settings)) w w
        (.waits .getDeviceDefaultPassword)
  | resetHash {w} :
      Step π .resetAdminPassword (some .getDeviceDefaultPassword) w w
        (.waits (.hashPassword π.deviceDefaultPassword))
  | resetUpdate {w} (salt : Nat) :
      Step π .resetAdminPassword (some (.hashPassword π.deviceDefaultPassword)) w w
        (.waits (.updating adminUserName
          { passwordHash := some (π.bcrypt.hash π.deviceDefaultPassword salt) }
          (w.users.get adminUserName)))
  | settingsRead {data settings w} (h : w.settings = some settings) :
      Step π (.updateSettings data) none w w (.waits (.getSettings settings))
  | settingsPut {c o settings w} (hc : c.StoresSettings o) :
      Step π c o w { w with settings := some settings } (.waits .settingsWritten)
  | settingsWritten {c w} (hc : ¬ c.Writes) :
      Step π c (some .settingsWritten) w w (.done (.ok .void))

/-! ## Rules for the methods

`T` is the table of any call that may be rejected from every await but a commit. -/

section Within

variable {π : Platform}
variable {T : Option Await → World → World → Status Await Exception Response → Prop}
variable {o : Option Await} {w : World}

theorem forall_choice {P : Choice → Prop} :
    (∀ c, P c) ↔ (∀ salt, P (.resolve salt)) ∧ ∀ e, P (.reject e) :=
  ⟨fun h => ⟨fun _ => h _, fun _ => h _⟩, fun h c => c.casesOn h.1 h.2⟩

theorem put_within {login : UserLogin} {v : Option IUserData}
    {post : Unit → Option Await → World → World → Prop}
    (hput : T o w (w.write login v) (.waits (.written w.users.writes.length)))
    (hpost : ∀ n w, w.users.Committed n → post () (some (.written n)) w w) :
    (UserRepository.put login v).Within π.answer T post o w w := by
  simp only [UserRepository.put, Prog.read, Prog.modify, await, Prog.bind_def, Prog.sync_bind,
    Prog.ret_bind, Prog.within_sync, Prog.within_call, forall_choice, Platform.answer]
  refine ⟨hput, fun _ w' r hr => ?_, fun e w' r hr => by cases hr⟩
  obtain ⟨hn, hr⟩ := Option.ite_none_right_eq_some.mp hr
  cases hr
  exact hpost _ _ hn

variable (hT : ∀ o w e, (∀ n, o ≠ some (.written n)) → T o w w (.done (.error e)))
include hT

theorem hashPassword_within {password : String}
    {post : String → Option Await → World → World → Prop}
    (hhash : T o w w (.waits (.hashPassword password)))
    (hpost : ∀ salt w, post (π.bcrypt.hash password salt) (some (.hashPassword password)) w w) :
    (CryptoService.hashPassword password).Within π.answer T post o w w := by
  simp only [CryptoService.hashPassword, await, Prog.within_call, forall_choice, Platform.answer]
  exact ⟨hhash, fun salt w' r hr => by cases hr; exact hpost salt w',
    fun e w' r hr => by cases hr; exact hT _ _ _ (by simp)⟩

theorem getDeviceDefaultPassword_within {post : String → Option Await → World → World → Prop}
    (hdefault : T o w w (.waits .getDeviceDefaultPassword))
    (hpost : ∀ w, post π.deviceDefaultPassword (some .getDeviceDefaultPassword) w w) :
    CryptoService.getDeviceDefaultPassword.Within π.answer T post o w w := by
  simp only [CryptoService.getDeviceDefaultPassword, await, Prog.within_call, forall_choice,
    Platform.answer]
  exact ⟨hdefault, fun salt w' r hr => by cases hr; exact hpost w',
    fun e w' r hr => by cases hr; exact hT _ _ _ (by simp)⟩

theorem create_within (ho : ∀ n, o ≠ some (.written n)) {login : UserLogin}
    {data : CreateUserData} {post : Unit → Option Await → World → World → Prop}
    (hput : w.users.get login = none →
      T o w (w.write login (some (data.record login w.clock)))
        (.waits (.written w.users.writes.length)))
    (hpost : ∀ n w, w.users.Committed n → post () (some (.written n)) w w) :
    (UserRepository.create login data).Within π.answer T post o w w := by
  simp only [UserRepository.create, Prog.read, Prog.bind_def, Prog.sync_bind, Prog.ret_bind,
    Prog.within_sync, Prog.within_ite, id]
  exact ⟨fun _ => hT _ _ _ ho, fun hfree => put_within
    (hput (by simpa [WriteBehind.Store.doesExist] using hfree)) hpost⟩

theorem update_within {login : UserLogin} {data : UpdateUserData}
    {post : Unit → Option Await → World → World → Prop}
    (hread : T o w w (.waits (.updating login data (w.users.get login))))
    (hput : ∀ user w, T (some (.updating login data (some user))) w
      (w.write login (some (user.merge data w.clock)))
      (.waits (.written w.users.writes.length)))
    (hpost : ∀ n w, w.users.Committed n → post () (some (.written n)) w w) :
    (UserRepository.update login data).Within π.answer T post o w w := by
  simp only [UserRepository.update, UserRepository.getByLogin, Prog.read, await, Prog.bind_def,
    Prog.pure_def, Prog.sync_bind, Prog.ret_bind, Prog.within_sync, Prog.within_bind,
    Prog.within_call, forall_choice, Platform.answer, id]
  refine ⟨hread, fun salt w' r hr => ?_, fun e w' r hr => by cases hr⟩
  cases hr
  generalize w.users.get login = user
  cases user with
  | none => exact hT _ _ _ (by simp)
  | some user => exact put_within (hput user w') hpost

theorem remove_within (ho : ∀ n, o ≠ some (.written n)) {login : UserLogin}
    {post : Unit → Option Await → World → World → Prop}
    (hput : w.users.get login ≠ none →
      T o w (w.write login none) (.waits (.written w.users.writes.length)))
    (hpost : ∀ n w, w.users.Committed n → post () (some (.written n)) w w) :
    (UserRepository.remove login).Within π.answer T post o w w := by
  simp only [UserRepository.remove, Prog.read, Prog.bind_def, Prog.sync_bind, Prog.ret_bind,
    Prog.within_sync, Prog.within_ite, id]
  exact ⟨fun _ => hT _ _ _ ho, fun hex => put_within
    (hput (by simpa [WriteBehind.Store.doesExist] using hex)) hpost⟩

theorem getAuthenticatedUserOrThrow_within {login : UserLogin} {password : String}
    {post : IUserData → Option Await → World → World → Prop}
    (hread : T o w w (.waits (.user login (w.users.get login))))
    (hcompare : ∀ user w, T (some (.user login (some user))) w w
      (.waits (.comparePasswords password user)))
    (hpost : ∀ user w, π.bcrypt.compare password user.passwordHash = true →
      post user (some (.comparePasswords password user)) w w) :
    (AuthenticationService.getAuthenticatedUserOrThrow login password).Within π.answer T post
      o w w := by
  simp only [AuthenticationService.getAuthenticatedUserOrThrow,
    AuthenticationService.getUserOrThrow, UserRepository.getByLogin,
    CryptoService.comparePasswords, Prog.read, await, Prog.bind_def, Prog.pure_def, Prog.sync_bind,
    Prog.ret_bind, Prog.within_sync, Prog.within_bind, Prog.within_call, forall_choice,
    Platform.answer, id]
  refine ⟨hread, fun salt w' r hr => ?_, fun e w' r hr => by cases hr⟩
  cases hr
  generalize w.users.get login = user
  cases user with
  | none => exact hT _ _ _ (by simp)
  | some user =>
      refine ⟨hcompare user w', fun salt w' r hr => ?_, fun e w' r hr => ?_⟩
      · cases hr
        exact Prog.within_ite.mpr ⟨fun _ => hT _ _ _ (by simp),
          fun hcorrect => hpost user w' (by simpa using hcorrect)⟩
      · cases hr
        exact hT _ _ _ (by simp)

theorem updateUserPassword_within {login : UserLogin} {newPassword : String}
    {post : Unit → Option Await → World → World → Prop}
    (hhash : T o w w (.waits (.hashPassword newPassword)))
    (hread : ∀ salt w, T (some (.hashPassword newPassword)) w w
      (.waits (.updating login { passwordHash := some (π.bcrypt.hash newPassword salt) }
        (w.users.get login))))
    (hput : ∀ salt user w,
      T (some (.updating login { passwordHash := some (π.bcrypt.hash newPassword salt) }
          (some user))) w
        (w.write login
          (some (user.merge { passwordHash := some (π.bcrypt.hash newPassword salt) } w.clock)))
        (.waits (.written w.users.writes.length)))
    (hpost : ∀ n w, w.users.Committed n → post () (some (.written n)) w w) :
    (AuthenticationService.updateUserPassword login newPassword).Within π.answer T post o w w := by
  rw [AuthenticationService.updateUserPassword, Prog.bind_def, Prog.within_bind]
  exact hashPassword_within hT hhash fun salt w =>
    update_within hT (hread salt w) (hput salt) hpost

end Within

/-! ## The calls follow the table -/

section Obeys

variable {π : Platform}

theorem create_follows (user : UserDto) (w : World) :
    (Call.create user).body.Follows π.answer (Step π (.create user)) none w w := by
  simp only [Prog.Follows, Call.body, UserService.create, Prog.bind_def, Prog.pure_def,
    Prog.within_bind, Prog.within_ite, Prog.within_ret]
  refine ⟨fun _ => .reject _ (by simp), fun hadmin => ?_⟩
  refine hashPassword_within (fun _ _ => .reject) (.createHash hadmin) fun salt w => ?_
  exact create_within (fun _ _ => .reject) (by simp)
    (fun hfree => .create ⟨rfl, hadmin, salt, rfl⟩ hfree) fun n w hn => .written hn

theorem update_follows (updateUser : UpdateUserDto) (w : World) :
    (Call.update updateUser).body.Follows π.answer (Step π (.update updateUser)) none w w := by
  simp only [Prog.Follows, Call.body, UserService.update, Prog.bind_def, Prog.pure_def,
    Prog.within_bind, Prog.within_ret]
  cases hlogin : updateUser.login with
  | undefined => exact .reject _ (by simp)
  | null => exact .reject _ (by simp)
  | value login =>
      refine Prog.within_ite.mpr ⟨fun _ => .reject _ (by simp), fun hadmin => ?_⟩
      exact update_within (fun _ _ => .reject) (.updateRead hlogin hadmin)
        (fun user w => .merge ⟨hlogin, hadmin, rfl⟩) fun n w hn => .written hn

theorem remove_follows (login : UserLogin) (w : World) :
    (Call.remove login).body.Follows π.answer (Step π (.remove login)) none w w := by
  simp only [Prog.Follows, Call.body, UserService.remove, Prog.bind_def, Prog.pure_def,
    Prog.within_bind, Prog.within_ite, Prog.within_ret]
  refine ⟨fun _ => .reject _ (by simp), fun hadmin => ?_⟩
  exact remove_within (fun _ _ => .reject) (by simp) (.remove hadmin) fun n w hn => .written hn

theorem createAdmin_follows (w : World) :
    Call.createAdmin.body.Follows π.answer (Step π .createAdmin) none w w := by
  simp only [Prog.Follows, Call.body, UserService.createAdmin, Prog.bind_def, Prog.pure_def,
    Prog.within_bind, Prog.within_ret]
  refine getDeviceDefaultPassword_within (fun _ _ => .reject) .adminDefault fun w => ?_
  refine hashPassword_within (fun _ _ => .reject) .adminHash fun salt w => ?_
  exact create_within (fun _ _ => .reject) (by simp) (fun hfree => .create ⟨rfl, salt, rfl⟩ hfree)
    fun n w hn => .written hn

theorem login_follows (login : UserLogin) (password : String) (w : World) :
    (Call.login login password).body.Follows π.answer (Step π (.login login password))
      none w w := by
  simp only [Prog.Follows, Call.body, AuthenticationService.login, Prog.bind_def, Prog.pure_def,
    Prog.within_bind, Prog.within_ret]
  refine getAuthenticatedUserOrThrow_within (fun _ _ => .reject) (.authRead rfl)
    (fun user w => .authCompare rfl) fun user w hcorrect => ?_
  simp only [await, Prog.within_call, forall_choice, Platform.answer]
  exact ⟨.sign hcorrect, fun salt w' r hr => by cases hr; exact .token,
    fun e w' r hr => by cases hr; exact .reject _ (by simp)⟩

theorem updatePassword_follows (userLogin : UserLogin) (currentPassword newPassword : String)
    (w : World) :
    (Call.updatePassword userLogin currentPassword newPassword).body.Follows π.answer
      (Step π (.updatePassword userLogin currentPassword newPassword)) none w w := by
  simp only [Prog.Follows, Call.body, AuthenticationService.updatePassword, Prog.bind_def,
    Prog.pure_def, Prog.within_bind, Prog.within_ret]
  refine getAuthenticatedUserOrThrow_within (fun _ _ => .reject) (.authRead rfl)
    (fun user w => .authCompare rfl) fun user w hcorrect => ?_
  exact updateUserPassword_within (fun _ _ => .reject) (.newHash hcorrect)
    (fun salt w => .newRead salt) (fun salt user w => .merge ⟨rfl, salt, rfl⟩)
    fun n w hn => .written hn

theorem resetAdminPassword_follows (w : World) :
    Call.resetAdminPassword.body.Follows π.answer (Step π .resetAdminPassword) none w w := by
  simp only [Prog.Follows, Call.body, AuthenticationService.resetAdminPassword,
    SettingsRepository.get, Prog.read, await, Prog.bind_def, Prog.pure_def, Prog.sync_bind,
    Prog.ret_bind, Prog.within_bind, Prog.within_sync, Prog.within_ret, id]
  cases hsettings : w.settings with
  | none => exact .reject _ (by simp)
  | some settings =>
      simp only [Prog.within_ret, Prog.within_bind, Prog.within_call, Prog.within_ite,
        forall_choice, Platform.answer]
      refine ⟨.resetRead hsettings, fun salt w' r hr => ?_, fun e w' r hr => by cases hr⟩
      cases hr
      refine ⟨fun _ => .reject _ (by simp), fun henabled => ?_⟩
      refine getDeviceDefaultPassword_within (fun _ _ => .reject) (.resetDefault henabled)
        fun w => ?_
      exact updateUserPassword_within (fun _ _ => .reject) .resetHash
        (fun salt w => .resetUpdate salt) (fun salt user w => .merge ⟨rfl, salt, rfl⟩)
        fun n w hn => .written hn

theorem settingsPut_follows {c : Call} {o : Option Await} (hc : c.StoresSettings o)
    (value : AuthenticationSettings) (w : World) :
    (SettingsRepository.put value).Within π.answer (Step π c)
      (fun _ o w₀ w => Step π c o w₀ w (.done (.ok .void))) o w w := by
  simp only [SettingsRepository.put, Prog.modify, await, Prog.bind_def, Prog.sync_bind,
    Prog.ret_bind, Prog.within_sync, Prog.within_call, forall_choice, Platform.answer]
  have hwrites : ¬ c.Writes := by
    cases c <;> first | exact hc.elim | exact id
  exact ⟨.settingsPut hc, fun salt w' r hr => by cases hr; exact .settingsWritten hwrites,
    fun e w' r hr => by cases hr⟩

theorem updateSettings_follows (data : Option (Option Bool)) (w : World) :
    (Call.updateSettings data).body.Follows π.answer (Step π (.updateSettings data))
      none w w := by
  simp only [Prog.Follows, Call.body, SettingsRepository.update, SettingsRepository.get,
    Prog.read, await, Prog.bind_def, Prog.pure_def, Prog.sync_bind, Prog.ret_bind, Prog.within_bind,
    Prog.within_sync, Prog.within_ret, id]
  cases hsettings : w.settings with
  | none => exact .reject _ (by simp)
  | some settings =>
      simp only [Prog.within_ret, Prog.within_call, forall_choice, Platform.answer]
      refine ⟨.settingsRead hsettings, fun salt w' r hr => ?_, fun e w' r hr => by cases hr⟩
      cases hr
      exact settingsPut_follows
        (show (Call.updateSettings data).StoresSettings (some (.getSettings settings)) from trivial)
        _ w'

/-- The programs of the services take no step that is not in the table. -/
theorem system_obeys (π : Platform) : π.system.Obeys (Step π) := by
  intro c w w₁ hw
  cases hw
  cases c with
  | create user => exact create_follows user w
  | update updateUser => exact update_follows updateUser w
  | remove login => exact remove_follows login w
  | createAdmin => exact createAdmin_follows w
  | login login password => exact login_follows login password w
  | updatePassword userLogin cur new => exact updatePassword_follows userLogin cur new w
  | resetAdminPassword => exact resetAdminPassword_follows w
  | resetSettings =>
      simp only [Platform.system, Prog.Follows, Call.body, SettingsRepository.resetDefaults,
        Prog.bind_def, Prog.pure_def, Prog.within_bind, Prog.within_ret]
      exact settingsPut_follows (show Call.resetSettings.StoresSettings none from trivial) _ w
  | updateSettings data => exact updateSettings_follows data w

end Obeys

end RpiNestApi
