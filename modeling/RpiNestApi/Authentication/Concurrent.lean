import RpiNestApi.Authentication.AccountTable
import RpiNestApi.Authentication.Undisturbed

/-
Concurrent calls about different accounts are calls of the account table, one by one.

The promises of the services settle in any order and the store commits when it likes, but a
call that no other one disturbs in its account or in the settings cannot tell.
-/

namespace RpiNestApi

open Async

variable {π : Platform}

/-! ## The table by its parts -/

@[reducible] def Key.Part : Key → Type
  | .account _ => Option Account
  | .settings => Option AuthenticationSettings

namespace Table

def view (t : Table) : (k : Key) → k.Part
  | .account login => t.accounts login
  | .settings => t.settings

/-- The tables agree in what the call concerns. -/
def Agrees (c : Call) (t u : Table) : Prop := ∀ k ∈ c.keys, u.view k = t.view k

theorem Agrees.accounts {c : Call} {t u : Table} (h : t.Agrees c u) {login : UserLogin}
    (hkey : .account login ∈ c.keys) : u.accounts login = t.accounts login := h _ hkey

theorem Agrees.settings {c : Call} {t u : Table} (h : t.Agrees c u) (hkey : .settings ∈ c.keys) :
    u.settings = t.settings := h _ hkey

theorem Agrees.authenticates_iff {c : Call} {t u : Table} (h : t.Agrees c u) {login : UserLogin}
    (hkey : .account login ∈ c.keys) (password : String) :
    u.Authenticates login password ↔ t.Authenticates login password := by
  rw [Authenticates, h.accounts hkey, Authenticates]

theorem Agrees.allowsReset_iff {c : Call} {t u : Table} (h : t.Agrees c u)
    (hkey : .settings ∈ c.keys) : u.AllowsReset ↔ t.AllowsReset := by
  rw [AllowsReset, h.settings hkey, AllowsReset]

theorem view_set_of_ne (t : Table) {login : UserLogin} {k : Key} (hk : k ≠ .account login)
    (o : Option Account) : (t.set login o).view k = t.view k := by
  cases k with
  | account key => exact Function.update_of_ne (fun he => hk (congrArg Key.account he)) _ _
  | settings => rfl

theorem Agrees.set {c : Call} {t u : Table} (h : t.Agrees c u) (login : UserLogin)
    (o : Option Account) : (t.set login o).Agrees c (u.set login o) := by
  intro k hk
  by_cases hkey : k = .account login
  · subst hkey
    show Function.update u.accounts login o login = Function.update t.accounts login o login
    rw [Function.update_self, Function.update_self]
  · rw [view_set_of_ne u hkey, view_set_of_ne t hkey, h k hk]

/-- The call is rejected, or puts `g` under a login that it concerns. -/
structure PutsAccount (π : Platform) (c : Call) (login : UserLogin)
    (g : Table → Option (Option Account)) : Prop where
  concerns : .account login ∈ c.keys
  congr : ∀ t u, t.Agrees c u → g u = g t
  call : ∀ t : Table, t.call π c = (g t).map (t.set login)

structure PutsSettings (π : Platform) (c : Call)
    (g : Option AuthenticationSettings → Option AuthenticationSettings) : Prop where
  concerns : .settings ∈ c.keys
  call : ∀ t : Table,
    t.call π c = (g t.settings).map fun settings => { t with settings := some settings }

theorem PutsAccount.create {c : Call} {login : UserLogin} {a : Account}
    (hkey : .account login ∈ c.keys) (hcall : ∀ t : Table, t.call π c = t.create login a) :
    PutsAccount π c login fun t => if t.accounts login = none then some (some a) else none where
  concerns := hkey
  congr t u h := by rw [h.accounts hkey]
  call t := by
    rw [hcall, Table.create]
    split <;> rfl

theorem PutsAccount.change {c : Call} {login : UserLogin} {f : Account → Account}
    (hkey : .account login ∈ c.keys) (hcall : ∀ t : Table, t.call π c = t.change login f) :
    PutsAccount π c login fun t => (t.accounts login).map fun a => some (f a) where
  concerns := hkey
  congr t u h := by rw [h.accounts hkey]
  call t := by
    rw [hcall, Table.change, Option.map_map]
    rfl

/-- Every call is rejected, puts one account, or puts the settings. -/
theorem call_puts (π : Platform) (c : Call) : (∃ login g, PutsAccount π c login g) ∨
    (∃ g, PutsSettings π c g) ∨ ∀ t : Table, t.call π c = none := by
  cases c with
  | create user =>
      by_cases hadmin : user.login = adminUserName
      · exact .inr (.inr fun t => if_pos hadmin)
      · exact .inl ⟨_, _, .create (List.mem_singleton_self _) fun t => if_neg hadmin⟩
  | createAdmin => exact .inl ⟨_, _, .create (List.mem_singleton_self _) fun t => rfl⟩
  | update updateUser =>
      cases hlogin : updateUser.login with
      | undefined => exact .inr (.inr fun t => by simp [Table.call, hlogin])
      | null => exact .inr (.inr fun t => by simp [Table.call, hlogin])
      | value login =>
          by_cases hadmin : login = adminUserName
          · exact .inr (.inr fun t => by simp [Table.call, hlogin, hadmin])
          · have hkey : .account login ∈ (Call.update updateUser).keys := by
              simp [Call.keys, hlogin]
            have hcall : ∀ t : Table, t.call π (.update updateUser) = t.change login fun a =>
                { a with
                  roles := updateUser.roles.override a.roles
                  description := updateUser.description.override a.description } := by
              simp [Table.call, hlogin, hadmin]
            exact .inl ⟨login, _, .change hkey hcall⟩
  | remove login =>
      by_cases hadmin : login = adminUserName
      · exact .inr (.inr fun t => if_pos hadmin)
      · refine .inl ⟨login, fun t => (t.accounts login).map fun _ => none,
          List.mem_singleton_self _, fun t u h => ?_, fun t => ?_⟩
        · rw [h.accounts (List.mem_singleton_self _)]
        · rw [Table.call, if_neg hadmin, Option.map_map]
          rfl
  | login login password =>
      refine .inl ⟨login, fun t => if t.Authenticates login password then
        some (t.accounts login) else none, List.mem_singleton_self _, fun t u h => ?_, fun t => ?_⟩
      · have hkey : .account login ∈ [Key.account login] := List.mem_singleton_self _
        simp only [h.authenticates_iff hkey, h.accounts hkey]
      · have hsame : t.set login (t.accounts login) = t :=
          congrArg (Table.mk · t.settings) (Function.update_eq_self login t.accounts)
        rw [Table.call]
        split
        · rw [Option.map_some, hsame]
        · rfl
  | updatePassword login cur new =>
      refine .inl ⟨login, fun t => if t.Authenticates login cur then
        (t.accounts login).map fun a => some { a with password := new } else none,
        List.mem_singleton_self _, fun t u h => ?_, fun t => ?_⟩
      · have hkey : .account login ∈ [Key.account login] := List.mem_singleton_self _
        simp only [h.authenticates_iff hkey, h.accounts hkey]
      · rw [Table.call]
        split
        · rw [Table.change, Option.map_map]
          rfl
        · rfl
  | resetAdminPassword =>
      refine .inl ⟨adminUserName, fun t => if t.AllowsReset then
        (t.accounts adminUserName).map fun a => some { a with password := π.deviceDefaultPassword }
          else none, List.mem_cons_self, fun t u h => ?_, fun t => ?_⟩
      · simp only [h.allowsReset_iff (List.mem_cons_of_mem _ List.mem_cons_self),
          h.accounts List.mem_cons_self]
      · rw [Table.call]
        split
        · rw [Table.change, Option.map_map]
          rfl
        · rfl
  | resetSettings =>
      exact .inr (.inl ⟨fun _ => some SettingsRepository.defaultSettings,
        List.mem_singleton_self _, fun t => rfl⟩)
  | updateSettings data =>
      refine .inr (.inl ⟨fun settings => settings.map fun settings =>
        { isAdminPasswordResetEnabled := data.getD settings.isAdminPasswordResetEnabled },
        List.mem_singleton_self _, fun t => ?_⟩)
      rw [Table.call, Option.map_map]
      rfl

variable {t t' u : Table} {c : Call}

theorem call_frame (h : t.call π c = some t') {k : Key} (hk : k ∉ c.keys) :
    t'.view k = t.view k := by
  rcases call_puts π c with ⟨login, g, hputs⟩ | ⟨g, hputs⟩ | hnone
  · rw [hputs.call] at h
    obtain ⟨o, _, rfl⟩ := Option.map_eq_some_iff.mp h
    exact view_set_of_ne t (fun he => hk (by rw [he]; exact hputs.concerns)) o
  · rw [hputs.call] at h
    obtain ⟨settings, _, rfl⟩ := Option.map_eq_some_iff.mp h
    cases k with
    | account login => rfl
    | settings => exact absurd hputs.concerns hk
  · cases (hnone t).symm.trans h

theorem call_congr (hagrees : t.Agrees c u) (h : t.call π c = some t') :
    ∃ u', u.call π c = some u' ∧ t'.Agrees c u' := by
  rcases call_puts π c with ⟨login, g, hputs⟩ | ⟨g, hputs⟩ | hnone
  · rw [hputs.call] at h
    obtain ⟨o, ho, rfl⟩ := Option.map_eq_some_iff.mp h
    refine ⟨u.set login o, ?_, hagrees.set login o⟩
    rw [hputs.call, hputs.congr t u hagrees, ho, Option.map_some]
  · rw [hputs.call] at h
    obtain ⟨settings, hsettings, rfl⟩ := Option.map_eq_some_iff.mp h
    refine ⟨{ u with settings := some settings }, ?_, fun k hk => ?_⟩
    · rw [hputs.call, hagrees.settings hputs.concerns, hsettings, Option.map_some]
    · cases k with
      | account login => exact hagrees.accounts hk
      | settings => rfl
  · cases (hnone t).symm.trans h

theorem call_none_congr (hagrees : t.Agrees c u) (h : t.call π c = none) :
    u.call π c = none := by
  cases hu : u.call π c with
  | none => rfl
  | some u' =>
      obtain ⟨t', ht', _⟩ := call_congr (fun k hk => (hagrees k hk).symm) hu
      cases h.symm.trans ht'

end Table

/-! ## What the services are for -/

/-- What a call answers when it succeeds on the table. -/
def Call.Replies (π : Platform) (t : Table) : Call → Response → Prop
  | .login userLogin _, v => ∃ a modified iat, t.accounts userLogin = some a ∧
      v = .token { token := π.jwtService.sign { sub := userLogin, roles := a.roles, modified } iat }
  | _, v => v = .void

/-- What a call does to the table.  It is rejected only where the table rejects it or one of its
promises was. -/
inductive Table.Does (π : Platform) (rejected : Prop) (t : Table) (c : Call) :
    Except Exception Response → Table → Prop
  | ok {t' v} (hcall : t.call π c = some t') (hv : c.Replies π t v) :
      Does π rejected t c (.ok v) t'
  | error {e} (h : rejected ∨ t.call π c = none) : Does π rejected t c (.error e) t

/-- The part is stored, and nothing is on its way to it. -/
def Key.Stored (π : Platform) : (k : Key) → k.Part → World → Prop
  | .account login, a, w =>
    ¬ w.users.Pending login ∧ Option.Rel (Account.Represents π) a (w.users.get login)
  | .settings, value, w => w.settings = value

/-- The services keep the account table, where `rejected` are the calls with a promise that
was rejected. -/
def accountService (π : Platform) (rejected : Nat → Prop) :
    Keyed World Exception Response Call Key Table Key.Part where
  concerns c k := k ∈ c.keys
  view k t := t.view k
  stored := Key.Stored π
  rely := Key.Rely
  does i := Table.Does π (rejected i)

theorem Call.Replies.congr {t u : Table} {c : Call} {v : Response} (h : c.Replies π t v)
    (hagrees : t.Agrees c u) : c.Replies π u v := by
  cases c with
  | login login password =>
      obtain ⟨a, modified, iat, ha, hv⟩ := h
      exact ⟨a, modified, iat, (hagrees.accounts (List.mem_singleton_self _)).trans ha, hv⟩
  | _ => exact h

theorem Table.Does.congr {rejected : Prop} {t t' u : Table} {c : Call}
    {r : Except Exception Response} (h : t.Does π rejected c r t') (hagrees : t.Agrees c u) :
    ∃ u', u.Does π rejected c r u' ∧ t'.Agrees c u' := by
  cases h with
  | ok hcall hv =>
      obtain ⟨u', hu', h'⟩ := call_congr hagrees hcall
      exact ⟨u', .ok hu' (hv.congr hagrees), h'⟩
  | error h => exact ⟨u, .error (h.imp_right (call_none_congr hagrees)), hagrees⟩

theorem Table.Does.frame {rejected : Prop} {t t' : Table} {c : Call}
    {r : Except Exception Response} (h : t.Does π rejected c r t') {k : Key} (hk : k ∉ c.keys) :
    t'.view k = t.view k := by
  cases h with
  | ok hcall _ => exact call_frame hcall hk
  | error _ => rfl

/-! ## The calls -/

section Calls

variable {rejected : Nat → Prop} {i : Nat} {t t' : Table} {w : World} {c : Call}
variable {login : UserLogin} {o : Option IUserData} {r : Except Exception Response}

/-- The store holds the account of the call, and the settings if it concerns them. -/
structure Table.Seen (π : Platform) (t : Table) (w : World) (c : Call) (login : UserLogin)
    (o : Option IUserData) : Prop where
  holds : w.Holds c login o t.settings
  represents : Option.Rel (Account.Represents π) (t.accounts login) o

theorem Table.Seen.ended (h : t'.Seen π w c login o) (hdoes : t.Does π (rejected i) c r t')
    (hkeys : ∀ k ∈ c.keys, k = .account login ∨ k = .settings) :
    (accountService π rejected).Ended i t c r w := by
  refine ⟨t', hdoes, fun k hk => ?_⟩
  rcases hkeys k hk with rfl | rfl
  · exact ⟨h.holds.settled, h.holds.get ▸ h.represents⟩
  · exact h.holds.settings hk

theorem Table.Seen.cases (h : t.Seen π w c login o) :
    t.accounts login = none ∧ o = none ∨
      ∃ a user, t.accounts login = some a ∧ o = some user ∧ a.Represents π user := by
  have hrel := h.represents
  generalize t.accounts login = a at hrel
  cases hrel with
  | none => exact .inl ⟨rfl, rfl⟩
  | some hrep => exact .inr ⟨_, _, rfl, rfl, hrep⟩

theorem Table.Seen.authenticates_iff (h : t.Seen π w c login o) {password : String} :
    t.Authenticates login password ↔ ∃ user, o = some user ∧
      π.bcrypt.compare password user.passwordHash = true := by
  rw [Table.Authenticates]
  rcases h.cases with ⟨ha, rfl⟩ | ⟨a, user, ha, rfl, hrep⟩
  · simp [ha]
  · simp [ha, hrep.compare]

theorem Table.Seen.of_holds (h : t.Seen π w c login o) {w' : World}
    (hw : w'.Holds c login o t.settings) : t.Seen π w' c login o :=
  { holds := hw, represents := h.represents }

theorem Table.Seen.set {w' : World} {a : Option Account} {o' : Option IUserData}
    (hw : w'.Holds c login o' t.settings) (hrep : Option.Rel (Account.Represents π) a o') :
    (t.set login a).Seen π w' c login o' where
  holds := hw
  represents := by
    rw [show (t.set login a).accounts login = a from Function.update_self ..]
    exact hrep

variable (hkeys : ∀ k ∈ c.keys, k = .account login ∨ k = .settings)
variable (hkey : .account login ∈ c.keys) (h : t.Seen π w c login o)
include hkeys hkey h

/-- The last step of the calls that create an account. -/
theorem createAccount_apart {a : Account} {data : CreateUserData}
    (hcall : t.call π c = t.create login a) (hv : c.Replies π t .void)
    (ha : ∀ created, a.Represents π (data.record login created)) :
    c.Ends π (rejected i) ((UserRepository.create login data).bind fun _ => .ret .void)
      ((accountService π rejected).Ended i t c) w := by
  rw [Call.Ends, Prog.ends_bind]
  rcases h.cases with ⟨hnone, rfl⟩ | ⟨a₀, user, hsome, rfl, _⟩
  · rw [Table.create, if_pos hnone] at hcall
    exact create_apart hkey h.holds
      (fun _ created w' hw' => (Table.Seen.set hw' (.some (ha created))).ended (.ok hcall hv) hkeys)
      fun hex => absurd rfl hex
  · rw [Table.create, if_neg (by simp [hsome])] at hcall
    exact create_apart hkey h.holds (fun hnone => absurd hnone (Option.some_ne_none user))
      fun _ e => h.ended (.error (.inr hcall)) hkeys

/-- The last steps of the calls that set a password. -/
theorem setPassword_apart {password : String}
    (hcall : t.call π c = t.change login fun a => { a with password })
    (hv : c.Replies π t .void) :
    c.Ends π (rejected i)
      ((AuthenticationService.updateUserPassword login password).bind fun _ => .ret .void)
      ((accountService π rejected).Ended i t c) w := by
  rw [Call.Ends, Prog.ends_bind]
  rcases h.cases with ⟨hnone, rfl⟩ | ⟨a, user, hsome, rfl, hrep⟩
  · rw [Table.change, hnone, Option.map_none] at hcall
    exact updateUserPassword_apart hkey h.holds
      (fun user huser => absurd huser.symm (Option.some_ne_none user))
      fun e w' hw' _ => (h.of_holds hw').ended (.error (.inr hcall)) hkeys
  · rw [Table.change, hsome, Option.map_some] at hcall
    refine updateUserPassword_apart hkey h.holds (fun user' huser salt modified w' hw' => ?_)
      fun e w' hw' hreject => (h.of_holds hw').ended (.error (hreject.imp_right fun hnone =>
        absurd hnone (Option.some_ne_none user))) hkeys
    cases huser
    exact (Table.Seen.set hw' (.some (hrep.setPassword password salt modified))).ended
      (.ok hcall hv) hkeys

/-- Authentication, and whatever the call does next for the account. -/
theorem authenticate_apart {password : String} {k : IUserData → Service Response}
    (hcall : ¬ t.Authenticates login password → t.call π c = none)
    (hk : t.Authenticates login password → ∀ user, o = some user →
      ∀ w, t.Seen π w c login o →
        c.Ends π (rejected i) (k user) ((accountService π rejected).Ended i t c) w) :
    c.Ends π (rejected i)
      ((AuthenticationService.getAuthenticatedUserOrThrow login password).bind k)
      ((accountService π rejected).Ended i t c) w := by
  rw [Call.Ends, Prog.ends_bind]
  refine getAuthenticatedUserOrThrow_apart hkey h.holds (fun user huser hcorrect w' hw' => ?_)
    fun e w' hw' hreject => ?_
  · exact hk (h.authenticates_iff.mpr ⟨user, huser, hcorrect⟩) user huser w' (h.of_holds hw')
  · refine (h.of_holds hw').ended (.error (hreject.imp_right fun hwrong => hcall fun hauth => ?_))
      hkeys
    obtain ⟨user, huser, hcorrect⟩ := h.authenticates_iff.mp hauth
    rw [hwrong user huser] at hcorrect
    cases hcorrect

end Calls

theorem Call.keys_of_account {c : Call} {login : UserLogin} (hkey : .account login ∈ c.keys) :
    ∀ k ∈ c.keys, k = .account login ∨ k = .settings := by
  cases c with
  | update updateUser =>
      cases hlogin : updateUser.login with
      | value userLogin => simp_all [Call.keys]
      | _ => simp_all [Call.keys]
  | _ => simp_all [Call.keys]

section Calls

variable {rejected : Nat → Prop} {i : Nat} {t : Table} {w : World} {login : UserLogin}
variable {o : Option IUserData}

theorem createCall_apart {user : UserDto} (h : t.Seen π w (.create user) user.login o) :
    (Call.create user).Ends π (rejected i) (Call.create user).body
      ((accountService π rejected).Ended i t (.create user)) w := by
  have hkey : .account user.login ∈ (Call.create user).keys := List.mem_singleton_self _
  have hkeys := Call.keys_of_account hkey
  simp only [Call.Ends, Call.body, UserService.create, Prog.bind_def, Prog.pure_def]
  by_cases hadmin : user.login = adminUserName
  · rw [if_pos hadmin]
    exact h.ended (.error (.inr (if_pos hadmin))) hkeys
  · rw [if_neg hadmin, Prog.bind_assoc, Prog.ends_bind]
    refine promise_apart hkey h.holds (fun _ _ => rfl) (fun _ _ => rfl) (fun salt w' hw' => ?_)
      fun e w' hw' hreject => (h.of_holds hw').ended (.error (.inl hreject)) hkeys
    exact createAccount_apart hkeys hkey (h.of_holds hw') (if_neg hadmin) rfl fun created =>
      { passwordHash := ⟨salt, rfl⟩, roles := rfl, description := rfl }

theorem createAdminCall_apart (h : t.Seen π w .createAdmin adminUserName o) :
    Call.createAdmin.Ends π (rejected i) Call.createAdmin.body
      ((accountService π rejected).Ended i t .createAdmin) w := by
  have hkey : .account adminUserName ∈ Call.createAdmin.keys := List.mem_singleton_self _
  have hkeys := Call.keys_of_account hkey
  simp only [Call.Ends, Call.body, UserService.createAdmin, Prog.bind_def, Prog.pure_def,
    Prog.bind_assoc]
  rw [Prog.ends_bind]
  refine promise_apart hkey h.holds (fun _ _ => rfl) (fun _ _ => rfl) (fun _ w' hw' => ?_)
    fun e w' hw' hreject => (h.of_holds hw').ended (.error (.inl hreject)) hkeys
  refine Prog.ends_bind.mpr (promise_apart hkey hw' (fun _ _ => rfl) (fun _ _ => rfl)
    (fun salt w'' hw'' => ?_)
    fun e w'' hw'' hreject => (h.of_holds hw'').ended (.error (.inl hreject)) hkeys)
  exact createAccount_apart hkeys hkey (h.of_holds hw'') rfl rfl fun created =>
    { passwordHash := ⟨salt, rfl⟩, roles := rfl, description := rfl }

theorem updateCall_apart {updateUser : UpdateUserDto} (hlogin : updateUser.login = .value login)
    (h : t.Seen π w (.update updateUser) login o) :
    (Call.update updateUser).Ends π (rejected i) (Call.update updateUser).body
      ((accountService π rejected).Ended i t (.update updateUser)) w := by
  have hkey : .account login ∈ (Call.update updateUser).keys := by simp [Call.keys, hlogin]
  have hkeys := Call.keys_of_account hkey
  simp only [Call.Ends, Call.body, UserService.update, Prog.bind_def, Prog.pure_def, hlogin]
  by_cases hadmin : login = adminUserName
  · rw [if_pos hadmin]
    exact h.ended (.error (.inr (by simp [Table.call, hlogin, hadmin]))) hkeys
  · rw [if_neg hadmin, Prog.ends_bind]
    have hcall : t.call π (.update updateUser) = t.change login fun a =>
        { a with
          roles := updateUser.roles.override a.roles
          description := updateUser.description.override a.description } := by
      simp [Table.call, hlogin, hadmin]
    rcases h.cases with ⟨hnone, rfl⟩ | ⟨a, user, hsome, rfl, hrep⟩
    · rw [Table.change, hnone, Option.map_none] at hcall
      exact update_apart hkey h.holds
        (fun user huser => absurd huser.symm (Option.some_ne_none user))
        fun _ e w' hw' => (h.of_holds hw').ended (.error (.inr hcall)) hkeys
    · rw [Table.change, hsome, Option.map_some] at hcall
      refine update_apart hkey h.holds (fun user' huser modified w' hw' => ?_)
        fun hnone => absurd hnone (Option.some_ne_none user)
      cases huser
      exact (Table.Seen.set hw' (.some (hrep.merge _ _ modified))).ended (.ok hcall rfl) hkeys

theorem removeCall_apart (h : t.Seen π w (.remove login) login o) :
    (Call.remove login).Ends π (rejected i) (Call.remove login).body
      ((accountService π rejected).Ended i t (.remove login)) w := by
  have hkey : .account login ∈ (Call.remove login).keys := List.mem_singleton_self _
  have hkeys := Call.keys_of_account hkey
  simp only [Call.Ends, Call.body, UserService.remove, Prog.bind_def, Prog.pure_def]
  by_cases hadmin : login = adminUserName
  · rw [if_pos hadmin]
    exact h.ended (.error (.inr (if_pos hadmin))) hkeys
  · rw [if_neg hadmin, Prog.ends_bind]
    have hcall : t.call π (.remove login) =
        (t.accounts login).map fun _ => t.set login none := if_neg hadmin
    rcases h.cases with ⟨hnone, rfl⟩ | ⟨a, user, hsome, rfl, _⟩
    · rw [hnone, Option.map_none] at hcall
      exact remove_apart hkey h.holds (fun hex => absurd rfl hex)
        fun _ e => h.ended (.error (.inr hcall)) hkeys
    · rw [hsome, Option.map_some] at hcall
      exact remove_apart hkey h.holds
        (fun _ w' hw' => (Table.Seen.set hw' .none).ended (.ok hcall rfl) hkeys)
        fun hnone => absurd hnone (Option.some_ne_none user)

theorem loginCall_apart {password : String} (h : t.Seen π w (.login login password) login o) :
    (Call.login login password).Ends π (rejected i) (Call.login login password).body
      ((accountService π rejected).Ended i t (.login login password)) w := by
  have hkey : .account login ∈ (Call.login login password).keys := List.mem_singleton_self _
  have hkeys := Call.keys_of_account hkey
  simp only [Call.Ends, Call.body, AuthenticationService.login, Prog.bind_def, Prog.pure_def,
    Prog.bind_assoc]
  refine authenticate_apart hkeys hkey h (fun h => if_neg h) fun hauth user huser w' h' => ?_
  obtain ⟨a, hsome, hrep⟩ : ∃ a, t.accounts login = some a ∧ a.Represents π user := by
    rcases h.cases with ⟨_, rfl⟩ | ⟨a, user', hsome, rfl, hrep⟩
    · cases huser
    · cases huser
      exact ⟨a, hsome, hrep⟩
  rw [Call.Ends, Prog.ends_bind]
  refine await_apart hkey h'.holds (fun w => ⟨_, rfl⟩) fun w'' k r hw'' hk hr => ?_
  cases k with
  | resolve salt =>
      cases hr
      have hissued : t.Seen π { w'' with issued := w''.issued ++
          [({ sub := login, roles := user.roles, modified := user.modified }, seconds w''.clock)] }
            (.login login password) login o :=
        h.of_holds ⟨hw''.settled, hw''.get, hw''.settings⟩
      exact hissued.ended (.ok (if_pos hauth)
        ⟨a, user.modified, seconds w''.clock, hsome, by rw [hrep.roles]⟩) hkeys
  | reject e =>
      cases hr
      exact (h.of_holds hw'').ended (.error (.inl hk)) hkeys

theorem updatePasswordCall_apart {cur new : String}
    (h : t.Seen π w (.updatePassword login cur new) login o) :
    (Call.updatePassword login cur new).Ends π (rejected i)
      (Call.updatePassword login cur new).body
      ((accountService π rejected).Ended i t (.updatePassword login cur new)) w := by
  have hkey : .account login ∈ (Call.updatePassword login cur new).keys :=
    List.mem_singleton_self _
  have hkeys := Call.keys_of_account hkey
  simp only [Call.Ends, Call.body, AuthenticationService.updatePassword, Prog.bind_def,
    Prog.pure_def, Prog.bind_assoc]
  refine authenticate_apart hkeys hkey h (fun h => if_neg h) fun hauth user _ w' h' => ?_
  exact setPassword_apart hkeys hkey h' (if_pos hauth) rfl

/-- The settings are read once, when the call starts. -/
theorem resetAdminPasswordCall_apart (h : t.Seen π w .resetAdminPassword adminUserName o) :
    Call.resetAdminPassword.Ends π (rejected i) Call.resetAdminPassword.body
      ((accountService π rejected).Ended i t .resetAdminPassword) w := by
  have hkey : .account adminUserName ∈ Call.resetAdminPassword.keys := List.mem_cons_self
  have hkeys := Call.keys_of_account hkey
  have hread : w.settings = t.settings :=
    h.holds.settings (List.mem_cons_of_mem _ List.mem_cons_self)
  simp only [Call.Ends, Call.body, AuthenticationService.resetAdminPassword,
    SettingsRepository.get, Prog.read, Prog.bind_def, Prog.pure_def, Prog.sync_bind,
    Prog.ret_bind, Prog.ends_sync, id, hread]
  cases hsettings : t.settings with
  | none =>
      have hforbidden : ¬ t.AllowsReset := by simp [Table.AllowsReset, hsettings]
      exact h.ended (.error (.inr (if_neg hforbidden))) hkeys
  | some settings =>
      simp only [Prog.ret_bind, Prog.bind_assoc]
      refine Prog.ends_bind.mpr
        (value_apart hkey h.holds (fun _ _ => rfl) (fun _ _ => rfl) fun w' hw' => ?_)
      by_cases hdisabled : settings.isAdminPasswordResetEnabled = some false
      · have hforbidden : ¬ t.AllowsReset := by simp [Table.AllowsReset, hsettings, hdisabled]
        simp only [if_pos hdisabled]
        exact (h.of_holds hw').ended (.error (.inr (if_neg hforbidden))) hkeys
      · have hallows : t.AllowsReset := ⟨settings, hsettings, hdisabled⟩
        simp only [if_neg hdisabled, Prog.bind_assoc]
        refine Prog.ends_bind.mpr (promise_apart hkey hw' (fun _ _ => rfl) (fun _ _ => rfl)
          (fun _ w'' hw'' => ?_)
          fun e w'' hw'' hreject => (h.of_holds hw'').ended (.error (.inl hreject)) hkeys)
        exact setPassword_apart hkeys hkey (h.of_holds hw'') (if_pos hallows) rfl

/-- Settings are stored at once. -/
theorem putSettings_apart {c : Call} {value : AuthenticationSettings} (hkeys : c.keys = [.settings])
    (hcall : t.call π c = some { t with settings := some value }) (hv : c.Replies π t .void) :
    c.Ends π (rejected i) ((SettingsRepository.put value).bind fun _ => .ret .void)
      ((accountService π rejected).Ended i t c) w := by
  rw [Call.Ends, Prog.ends_bind]
  simp only [SettingsRepository.put, Prog.modify, await, Prog.bind_def, Prog.sync_bind,
    Prog.ret_bind, Prog.ends_sync, Prog.ends_call]
  intro w₀ hw₀
  refine ⟨⟨w₀, .resolve 0, (.ok (), w₀), fun k _ => .refl k w₀, trivial, rfl⟩, ?_⟩
  intro k r hk hr
  cases k with
  | reject e => cases hr
  | resolve salt =>
      cases hr
      refine ⟨_, .ok hcall hv, fun k hk => ?_⟩
      obtain rfl : k = .settings := by simpa [accountService, hkeys] using hk
      exact hw₀ .settings (hkeys ▸ List.mem_singleton_self _)

theorem updateSettingsCall_apart {data : Option (Option Bool)} (hread : w.settings = t.settings) :
    (Call.updateSettings data).Ends π (rejected i) (Call.updateSettings data).body
      ((accountService π rejected).Ended i t (.updateSettings data)) w := by
  simp only [Call.Ends, Call.body, SettingsRepository.update, SettingsRepository.get, Prog.read,
    Prog.bind_def, Prog.pure_def, Prog.sync_bind, Prog.ret_bind, Prog.ends_sync, id, hread]
  cases hsettings : t.settings with
  | none =>
      refine ⟨t, .error (.inr (by simp [Table.call, hsettings])), fun k hk => ?_⟩
      obtain rfl : k = .settings := by simpa [accountService, Call.keys] using hk
      exact hread
  | some settings =>
      simp only [Prog.ret_bind, Prog.bind_assoc]
      refine Prog.ends_bind.mpr (Prog.ends_call.mpr fun w₀ _ => ?_)
      refine ⟨⟨w₀, .resolve 0, (.ok (), w₀), fun k _ => .refl k w₀, trivial, rfl⟩, ?_⟩
      intro k r hk hr
      cases k with
      | reject e => cases hr
      | resolve salt =>
          cases hr
          exact putSettings_apart rfl (by simp [Table.call, hsettings]) rfl

end Calls

theorem Table.Stored.part {t : Table} {w : World} (h : t.Stored π w) (k : Key) :
    k.Stored π (t.view k) w := by
  obtain ⟨records, ht, hw⟩ := h
  cases k with
  | account login =>
      refine ⟨fun hpending => ?_, hw.users ▸ ht login⟩
      obtain ⟨n, o, hn, hwrote⟩ := WriteBehind.Store.pending_iff.mp hpending
      exact Nat.not_lt.mpr hn (hw.applied ▸ hwrote.lt)
  | settings => exact hw.settings

section Calls

variable {rejected : Nat → Prop} {i : Nat} {t : Table} {w : World} {c : Call}

theorem Table.seen (h : ∀ k ∈ c.keys, k.Stored π (t.view k) w) {login : UserLogin}
    (hkey : .account login ∈ c.keys) : t.Seen π w c login (w.users.get login) where
  holds := { settled := (h _ hkey).1, get := rfl, settings := h .settings }
  represents := (h _ hkey).2

/-- A call that starts on what the table says, and that others leave alone, does what the
table does. -/
theorem call_apart (h : ∀ k ∈ c.keys, k.Stored π (t.view k) w) :
    c.Ends π (rejected i) c.body ((accountService π rejected).Ended i t c) w := by
  cases c with
  | create user => exact createCall_apart (Table.seen h (List.mem_singleton_self _))
  | createAdmin => exact createAdminCall_apart (Table.seen h (List.mem_singleton_self _))
  | update updateUser =>
      cases hlogin : updateUser.login with
      | value login => exact updateCall_apart hlogin (Table.seen h (by simp [Call.keys, hlogin]))
      | _ =>
          -- rejected at once, and no account is concerned
          simp only [Call.Ends, Call.body, UserService.update, Prog.bind_def, hlogin]
          refine ⟨t, .error (.inr (by simp [Table.call, hlogin])), fun k hk => ?_⟩
          simp [accountService, Call.keys, hlogin] at hk
  | remove login => exact removeCall_apart (Table.seen h (List.mem_singleton_self _))
  | login login password => exact loginCall_apart (Table.seen h (List.mem_singleton_self _))
  | updatePassword login cur new =>
      exact updatePasswordCall_apart (Table.seen h (List.mem_singleton_self _))
  | resetAdminPassword => exact resetAdminPasswordCall_apart (Table.seen h List.mem_cons_self)
  | resetSettings => exact putSettings_apart rfl rfl rfl
  | updateSettings data => exact updateSettingsCall_apart (h .settings (List.mem_singleton_self _))

end Calls

/-! ## The services -/

theorem accountService_correct (π : Platform) (rejected : Nat → Prop) :
    (accountService π rejected).Correct π.system (Step π)
      (fun i => Choice.Allowed (rejected i)) where
  refl := Key.Rely.refl
  trans _ _ _ _ := Key.Rely.trans
  step _ _ _ _ _ _ h hk := h.rely hk
  env _ _ _ k h := .env h k
  stored k v w w' h hrely := by
    cases k with
    | account login =>
        obtain ⟨hsettled, hget⟩ := Key.Rely.settled hrely h.1
        exact ⟨hsettled, hget ▸ h.2⟩
    | settings => exact Eq.trans hrely h
  frame _ _ _ _ _ _ h hk := h.frame hk
  congr _ _ _ _ _ _ h hagrees := h.congr hagrees
  ends i t c w w' h haccept := by
    cases haccept
    exact call_apart h

/-- No call starts about an account, or the settings, of a call in progress. -/
def KeepsApart (g : Service.Config) : Service.Act → Prop
  | .start _ c => ∀ i t q, g.threads i = some t → t.status = .waits q →
      ∀ k ∈ c.keys, k ∉ t.call.keys
  | _ => True

/-- A promise of the thread was rejected. -/
def Rejects (as : List Service.Act) (i : Nat) : Prop := ∃ e, .resume i (.reject e) ∈ as

/-- The steps `as` that led to `s` are the calls on the table, one after the other. -/
structure OneByOne (π : Platform) (t₀ : Table) (w₀ : World) (as : List Service.Act)
    (s : Service.State) (t : Table) : Prop where
  log : (accountService π (Rejects as)).Log t₀ (π.system.answers (.init w₀) as) t
  answered : ∀ i c r, (i, c, r) ∈ π.system.answers (.init w₀) as ↔
    ∃ past, s.config.threads i = some { call := c, past, status := .done r }
  once : ((π.system.answers (.init w₀) as).map Prod.fst).Nodup
  stored : ∀ k : Key,
    (∀ i t q, s.config.threads i = some t → t.status = .waits q → k ∉ t.call.keys) →
      k.Stored π (t.view k) s.world

/-- Calls that keep apart are the calls of a table that takes them one by one, in the order of
their answers. -/
theorem accounts_one_by_one {t₀ : Table} {w₀ : World} (h₀ : t₀.Stored π w₀)
    {as : List Service.Act} {s : Service.State} (hrun : π.system.Run KeepsApart (.init w₀) as s) :
    ∃ t, OneByOne π t₀ w₀ as s t := by
  have hapart : π.system.Run ((accountService π (Rejects as)).Apart
      fun i => Choice.Allowed (Rejects as i)) (.init w₀) as s := by
    refine hrun.strengthen fun before a after s₁ s₂ has hbefore hstep => ?_
    cases a with
    | start i c =>
        subst has
        obtain ⟨_, hrest⟩ := hrun.split_at hbefore
        cases hrest with
        | cons hok _ _ =>
            rintro k hk ⟨j, t, q, hj, hq, hk'⟩
            exact hok j t q hj hq k hk hk'
    | resume i choice =>
        cases choice with
        | resolve salt => trivial
        | reject e => exact ⟨e, by simp [has]⟩
    | env e => trivial
  obtain ⟨t, hlog, ht⟩ := Keyed.Holds.run (accountService_correct π (Rejects as))
    (system_obeys π) hapart (.init h₀.part) (State.Obeys.init w₀)
  refine ⟨t, {
    log := hlog
    answered := fun i c r => ?_
    once := hrun.nodup_answers
    stored := fun k hk => ht.idle k fun ⟨i, th, q, hi, hq, hmem⟩ => hk i th q hi hq hmem }⟩
  rw [hrun.mem_answers, Config.answer_eq_some]
  constructor
  · rintro ⟨⟨c, past, r, hi, he⟩, _⟩
    cases he
    exact ⟨past, hi⟩
  · rintro ⟨past, hi⟩
    exact ⟨⟨c, past, r, hi, rfl⟩, rfl⟩

/-- The two accounts are created at once, and "bob" logs in while the settings are reset. -/
def accountsAtOnce : List Service.Act :=
  [.start 0 (createBob "first"), .start 1 .createAdmin, .resume 1 (.resolve 0),
    .resume 0 (.resolve 0), .resume 1 (.resolve 0), .env .commit, .env .commit,
    .resume 1 (.resolve 0), .resume 0 (.resolve 0), .start 2 (.login "bob" "first"),
    .resume 2 (.resolve 0), .start 3 .resetSettings, .resume 3 (.resolve 0),
    .resume 2 (.resolve 0), .resume 2 (.resolve 0)]

theorem accounts_one_by_one_at_once :
    ∃ s t, Platform.sample.system.Run KeepsApart (.init .empty) accountsAtOnce s ∧
      OneByOne Platform.sample (.empty none) .empty accountsAtOnce s t := by
  have hrun : ∃ s, Platform.sample.system.Run KeepsApart (.init .empty) accountsAtOnce s := by
    refine ⟨_, .cons ?_ rfl <| .cons ?_ rfl <| .cons ?_ rfl <| .cons ?_ rfl <| .cons ?_ rfl <|
      .cons ?_ rfl <| .cons ?_ rfl <| .cons ?_ rfl <| .cons ?_ rfl <| .cons ?_ rfl <|
      .cons ?_ rfl <| .cons ?_ rfl <| .cons ?_ rfl <| .cons ?_ rfl <| .cons ?_ rfl <| .nil _⟩
    all_goals first
      | trivial
      | rintro (_ | _ | _ | i) t q hi hq k hk hk' <;> cases hi <;> cases hq <;> revert k <;> decide
  obtain ⟨s, hrun⟩ := hrun
  have hstored : (Table.empty none).Stored Platform.sample .empty :=
    ⟨fun _ => none, .empty none, rfl, rfl, rfl⟩
  obtain ⟨t, ht⟩ := accounts_one_by_one hstored hrun
  exact ⟨s, t, hrun, ht⟩

end RpiNestApi
