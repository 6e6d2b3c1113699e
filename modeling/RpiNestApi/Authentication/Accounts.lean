import RpiNestApi.Authentication.Services

/-
The account table, which says what the user and authentication services are for.

An account is a password, roles and a description.  There are no promises, salts
or timestamps, and a call either changes the table at once or is rejected.
-/

namespace RpiNestApi

structure Account where
  password : String
  roles : Field (List AccessRole)
  description : Field String
  deriving DecidableEq, Repr

structure Table where
  accounts : UserLogin → Option Account
  settings : Option AuthenticationSettings

abbrev Log := List (Call × Except Exception Response)

variable {π : Platform}

namespace Table

def empty (settings : Option AuthenticationSettings) : Table :=
  { accounts := fun _ => none, settings }

def set (t : Table) (login : UserLogin) (o : Option Account) : Table :=
  { t with accounts := Function.update t.accounts login o }

def create (t : Table) (login : UserLogin) (a : Account) : Option Table :=
  if t.accounts login = none then some (t.set login (some a)) else none

def change (t : Table) (login : UserLogin) (f : Account → Account) : Option Table :=
  (t.accounts login).map fun a => t.set login (some (f a))

/-- The account is present and has the password. -/
def Authenticates (t : Table) (login : UserLogin) (password : String) : Prop :=
  (t.accounts login).map Account.password = some password

instance (t : Table) (login : UserLogin) (password : String) :
    Decidable (t.Authenticates login password) :=
  inferInstanceAs (Decidable (_ = _))

def AllowsReset (t : Table) : Prop :=
  ∃ settings ∈ t.settings, settings.isAdminPasswordResetEnabled ≠ some false

instance (t : Table) : Decidable t.AllowsReset :=
  match h : t.settings with
  | none => .isFalse fun ⟨_, hs, _⟩ => by simp [h] at hs
  | some settings => decidable_of_iff (settings.isAdminPasswordResetEnabled ≠ some false)
      (by simp [AllowsReset, h])

/-- The table after a call, or `none` where the call is rejected. -/
def call (π : Platform) (t : Table) : Call → Option Table
  | .create user =>
    if user.login = adminUserName then none
    else t.create user.login
      { password := user.password, roles := .value user.roles, description := user.description }
  | .update updateUser =>
    match updateUser.login with
    | .value login =>
      if login = adminUserName then none
      else t.change login fun a =>
        { a with
          roles := updateUser.roles.override a.roles
          description := updateUser.description.override a.description }
    | _ => none
  | .remove login =>
    if login = adminUserName then none else (t.accounts login).map fun _ => t.set login none
  | .createAdmin =>
    t.create adminUserName
      { password := π.deviceDefaultPassword, roles := .value [.admin],
        description := .value "The default admin user" }
  | .login login password => if t.Authenticates login password then some t else none
  | .updatePassword login currentPassword newPassword =>
    if t.Authenticates login currentPassword then
      t.change login fun a => { a with password := newPassword }
    else none
  | .resetAdminPassword =>
    if t.AllowsReset then
      t.change adminUserName fun a => { a with password := π.deviceDefaultPassword }
    else none
  | .resetSettings => some { t with settings := some SettingsRepository.defaultSettings }
  | .updateSettings data =>
    t.settings.map fun settings =>
      { t with
        settings := some
          { isAdminPasswordResetEnabled := data.getD settings.isAdminPasswordResetEnabled } }

/-- The table after the calls of `log`, started from `t₀`.  The outcome of a call
decides whether it took place. -/
inductive Run (π : Platform) (t₀ : Table) : Log → Table → Prop
  | nil : Run π t₀ [] t₀
  | ok {log t t' c v} (h : Run π t₀ log t) (hcall : t.call π c = some t') :
      Run π t₀ (log ++ [(c, .ok v)]) t'
  | error {log t c e} (h : Run π t₀ log t) : Run π t₀ (log ++ [(c, .error e)]) t

end Table

/-! ## The password last set -/

/-- The password a call sets for a login when it succeeds. -/
def Call.setsPassword (π : Platform) (login : UserLogin) : Call → Option String
  | .create user => if user.login = login then some user.password else none
  | .createAdmin => if adminUserName = login then some π.deviceDefaultPassword else none
  | .updatePassword userLogin _ newPassword =>
    if userLogin = login then some newPassword else none
  | .resetAdminPassword => if adminUserName = login then some π.deviceDefaultPassword else none
  | _ => none

/-- The password most recently set for a login by a call that succeeded. -/
def Log.lastPassword (π : Platform) (login : UserLogin) (log : Log) : Option String :=
  (log.filterMap fun e => match e.2 with
    | .ok _ => e.1.setsPassword π login
    | .error _ => none).getLast?

theorem Log.lastPassword_ok (log : Log) (login : UserLogin) (c : Call) (v : Response) :
    Log.lastPassword π login (log ++ [(c, .ok v)]) =
      (c.setsPassword π login).or (log.lastPassword π login) := by
  rw [Log.lastPassword, List.filterMap_append, List.getLast?_append, Log.lastPassword]
  cases h : c.setsPassword π login <;> simp [h]

theorem Log.lastPassword_error (log : Log) (login : UserLogin) (c : Call) (e : Exception) :
    Log.lastPassword π login (log ++ [(c, .error e)]) = log.lastPassword π login := by
  rw [Log.lastPassword, List.filterMap_append, List.getLast?_append, Log.lastPassword]
  simp

namespace Table

theorem create_eq_some {t t' : Table} {login : UserLogin} {a : Account}
    (h : t.create login a = some t') :
    t.accounts login = none ∧ t' = t.set login (some a) := by
  obtain ⟨hfree, h⟩ := Option.ite_none_right_eq_some.mp h
  exact ⟨hfree, (Option.some.inj h).symm⟩

theorem change_eq_some {t t' : Table} {login : UserLogin} {f : Account → Account}
    (h : t.change login f = some t') :
    ∃ a, t.accounts login = some a ∧ t' = t.set login (some (f a)) := by
  obtain ⟨a, ha, rfl⟩ := Option.map_eq_some_iff.mp h
  exact ⟨a, ha, rfl⟩

theorem accounts_set {t : Table} {key login : UserLogin} {o : Option Account} {a : Account}
    (h : (t.set key o).accounts login = some a) :
    key = login ∧ o = some a ∨ key ≠ login ∧ t.accounts login = some a := by
  by_cases hkey : key = login
  · subst hkey
    exact .inl ⟨rfl, by simpa [set] using h⟩
  · have hkey' : login ≠ key := fun he => hkey he.symm
    exact .inr ⟨hkey, by simpa [set, hkey'] using h⟩

section Password

variable {t t' : Table} {c : Call} {key login : UserLogin} {a a' : Account}

/-- The call sets the password of the login to that of `a`, or keeps it. -/
def SetsOrKeeps (π : Platform) (t : Table) (c : Call) (login : UserLogin) (a : Account) : Prop :=
  c.setsPassword π login = some a.password ∨
    c.setsPassword π login = none ∧ (t.accounts login).map Account.password = some a.password

theorem SetsOrKeeps.of_sets
    (hc : c.setsPassword π login = if key = login then some a'.password else none)
    (h : (t.set key (some a')).accounts login = some a) : SetsOrKeeps π t c login a := by
  rcases accounts_set h with ⟨hkey, he⟩ | ⟨hkey, ha⟩
  · cases he
    exact .inl (by rw [hc, if_pos hkey])
  · exact .inr ⟨by rw [hc, if_neg hkey], by rw [ha, Option.map_some]⟩

theorem SetsOrKeeps.of_keeps (hc : c.setsPassword π login = none)
    (h : (t.accounts login).map Account.password = some a.password) :
    SetsOrKeeps π t c login a :=
  .inr ⟨hc, h⟩

theorem call_password (h : t.call π c = some t') (ha : t'.accounts login = some a) :
    SetsOrKeeps π t c login a := by
  cases c with
  | create user =>
      obtain ⟨_, h⟩ := Option.ite_none_left_eq_some.mp h
      obtain ⟨_, rfl⟩ := create_eq_some h
      exact .of_sets rfl ha
  | update updateUser =>
      simp only [call] at h
      split at h
      · obtain ⟨_, h⟩ := Option.ite_none_left_eq_some.mp h
        obtain ⟨a₀, ha₀, rfl⟩ := change_eq_some h
        refine .of_keeps rfl ?_
        rcases accounts_set ha with ⟨rfl, he⟩ | ⟨_, ha⟩
        · cases he
          rw [ha₀, Option.map_some]
        · rw [ha, Option.map_some]
      · cases h
  | remove key =>
      obtain ⟨_, h⟩ := Option.ite_none_left_eq_some.mp h
      obtain ⟨_, _, rfl⟩ := Option.map_eq_some_iff.mp h
      refine .of_keeps rfl ?_
      rcases accounts_set ha with ⟨_, he⟩ | ⟨_, ha⟩
      · cases he
      · rw [ha, Option.map_some]
  | createAdmin =>
      obtain ⟨_, rfl⟩ := create_eq_some h
      exact .of_sets rfl ha
  | login key password =>
      obtain ⟨_, h⟩ := Option.ite_none_right_eq_some.mp h
      cases h
      exact .of_keeps rfl (by rw [ha, Option.map_some])
  | updatePassword key currentPassword newPassword =>
      obtain ⟨_, h⟩ := Option.ite_none_right_eq_some.mp h
      obtain ⟨a₀, _, rfl⟩ := change_eq_some h
      exact .of_sets rfl ha
  | resetAdminPassword =>
      obtain ⟨_, h⟩ := Option.ite_none_right_eq_some.mp h
      obtain ⟨a₀, _, rfl⟩ := change_eq_some h
      exact .of_sets rfl ha
  | resetSettings =>
      cases h
      exact .of_keeps rfl (by rw [ha, Option.map_some])
  | updateSettings data =>
      obtain ⟨_, _, rfl⟩ := Option.map_eq_some_iff.mp h
      exact .of_keeps rfl (by rw [ha, Option.map_some])

end Password

/-- An account has the password most recently set for its login. -/
theorem Run.lastPassword {settings : Option AuthenticationSettings} {log : Log} {t : Table}
    (h : Run π (.empty settings) log t) {login : UserLogin} {a : Account}
    (ha : t.accounts login = some a) : log.lastPassword π login = some a.password := by
  induction h generalizing a with
  | nil => cases ha
  | ok _ hcall ih =>
      rw [Log.lastPassword_ok]
      rcases call_password hcall ha with hsets | ⟨hsets, hkept⟩
      · rw [hsets, Option.some_or]
      · obtain ⟨a₀, ha₀, hpassword⟩ := Option.map_eq_some_iff.mp hkept
        rw [hsets, Option.none_or, ih ha₀, hpassword]
  | error _ ih => rw [Log.lastPassword_error, ih ha]

theorem Run.authenticates_iff {settings : Option AuthenticationSettings} {log : Log} {t : Table}
    (h : Run π (.empty settings) log t) {login : UserLogin} {password : String} :
    t.Authenticates login password ↔
      t.accounts login ≠ none ∧ log.lastPassword π login = some password := by
  rw [Authenticates]
  cases ha : t.accounts login with
  | none => simp
  | some a => simp [h.lastPassword ha]

/-! ## Which calls succeed -/

theorem exists_change_iff {t : Table} {login : UserLogin} {f : Account → Account} :
    (∃ t', t.change login f = some t') ↔ t.accounts login ≠ none := by
  rw [change]
  cases t.accounts login <;> simp

theorem login_iff {t : Table} {login : UserLogin} {password : String} :
    (∃ t', t.call π (.login login password) = some t') ↔ t.Authenticates login password := by
  simp [call]

theorem updatePassword_iff {t : Table} {login : UserLogin} {cur new : String} :
    (∃ t', t.call π (.updatePassword login cur new) = some t') ↔ t.Authenticates login cur := by
  rw [call]
  by_cases hauth : t.Authenticates login cur
  · have hpresent : t.accounts login ≠ none := by
      intro hnone
      simp [Authenticates, hnone] at hauth
    rw [if_pos hauth, exists_change_iff]
    exact iff_of_true hpresent hauth
  · simp [hauth]

theorem resetAdminPassword_iff {t : Table} :
    (∃ t', t.call π .resetAdminPassword = some t') ↔
      t.AllowsReset ∧ t.accounts adminUserName ≠ none := by
  rw [call]
  by_cases hallows : t.AllowsReset
  · rw [if_pos hallows, exists_change_iff]
    exact (and_iff_right hallows).symm
  · simp [hallows]

end Table

end RpiNestApi
