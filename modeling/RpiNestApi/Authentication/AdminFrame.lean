import RpiNestApi.Authentication.Credentials

/-
The account "admin".

No service call can create, update or remove it but `createAdmin`, which leaves
it alone once it is there, and the two calls that set its password.  These write
back the record they have read with another `passwordHash`, so that everything
else in it stays as it is where every copy in flight is a copy of one creation.
-/

namespace RpiNestApi

open Async

variable {π : Platform}

/-- The fields of the account that never change. -/
structure IUserData.IsAdmin (user : IUserData) : Prop where
  login : user.login = adminUserName
  roles : user.roles = .value [.admin]
  description : user.description = .value "The default admin user"

theorem IUserData.isAdmin_record (passwordHash : String) (created : Nat) :
    ((UserService.adminData passwordHash).record adminUserName created).IsAdmin :=
  { login := rfl, roles := rfl, description := rfl }

/-- The calls that update the account set its password only. -/
theorem Call.Updates.admin {c : Call} {data : UpdateUserData}
    (h : c.Updates π adminUserName data) :
    (∃ currentPassword newPassword salt,
      c = .updatePassword adminUserName currentPassword newPassword ∧
        data = { passwordHash := some (π.bcrypt.hash newPassword salt) }) ∨
    ∃ salt, c = .resetAdminPassword ∧
      data = { passwordHash := some (π.bcrypt.hash π.deviceDefaultPassword salt) } := by
  cases c with
  | update updateUser => exact absurd rfl h.2.1
  | updatePassword userLogin p q =>
      obtain ⟨rfl, salt, rfl⟩ := h
      exact .inl ⟨p, q, salt, rfl, rfl⟩
  | resetAdminPassword =>
      obtain ⟨_, salt, rfl⟩ := h
      exact .inr ⟨salt, rfl, rfl⟩
  | _ => exact h.elim

/-- Only `createAdmin` creates the account. -/
theorem Call.Creates.admin {c : Call} {data : CreateUserData}
    (h : c.Creates π adminUserName data) :
    c = .createAdmin ∧ ∃ passwordHash, data = UserService.adminData passwordHash := by
  cases c with
  | create user => exact absurd rfl (h.1 ▸ h.2.1)
  | createAdmin => exact ⟨rfl, _, h.2.choose_spec⟩
  | _ => exact h.elim

theorem IUserData.IsAdmin.merge {user : IUserData} (h : user.IsAdmin) {c : Call}
    {data : UpdateUserData} (hc : c.Updates π adminUserName data) (modified : Nat) :
    (user.merge data modified).IsAdmin ∧ (user.merge data modified).created = user.created := by
  rcases hc.admin with ⟨_, _, _, _, rfl⟩ | ⟨_, _, rfl⟩
  · exact ⟨{ login := h.login, roles := h.roles, description := h.description }, rfl⟩
  · exact ⟨{ login := h.login, roles := h.roles, description := h.description }, rfl⟩

/-- A step that reads a record to merge into reads the stored one. -/
theorem Step.updating {c : Call} {o : Option Await} {w w' : World} {login : UserLogin}
    {data : UpdateUserData} {user : Option IUserData}
    (h : Step π c o w w' (.waits (.updating login data user))) :
    w' = w ∧ user = w.users.get login := by
  cases h with
  | updateRead => exact ⟨rfl, rfl⟩
  | newRead => exact ⟨rfl, rfl⟩
  | resetUpdate => exact ⟨rfl, rfl⟩

/-! ## Every record of the account -/

/-- Every write of the account, and every copy of it in flight, satisfies `P`,
from the write `first` on. -/
structure AdminRecords (P : IUserData → Prop) (first : Nat) (g : Service.Config) : Prop where
  writes : ∀ n v, first ≤ n → g.world.users.Wrote n adminUserName v → ∃ user, v = some user ∧ P user
  copies : ∀ i t data user, g.threads i = some t →
    t.status = .waits (.updating adminUserName data (some user)) → P user

/-- What every record satisfies at the start, and is kept by the calls that set
the password, every later record satisfies. -/
theorem AdminRecords.move {P : IUserData → Prop} {first : Nat} {g h : Service.Config}
    {a : Service.Act} (hg : AdminRecords P first g) (hledger : Ledger π g)
    (hget : ∀ user, g.world.users.get adminUserName = some user → P user)
    (hcreate : ∀ passwordHash created, g.world.users.get adminUserName = none →
      P ((UserService.adminData passwordHash).record adminUserName created))
    (hmerge : ∀ user (c : Call) data modified, P user → c.Updates π adminUserName data →
      P (user.merge data modified))
    (hmove : Move (Step π) Platform.env g a h) : AdminRecords P first h where
  writes n v hn hw := by
    rcases hledger.wrote_cases hmove hw with hw | ⟨_, i, t, o, hi, _, hruns, hissues⟩
    · exact hg.writes n v hn hw
    · generalize t.call = c at hruns hissues
      generalize hlogin : adminUserName = login at hissues
      cases hissues with
      | create hc hfree =>
          subst hlogin
          obtain ⟨_, passwordHash, rfl⟩ := hc.admin
          exact ⟨_, rfl, hcreate passwordHash _ hfree⟩
      | merge hc =>
          subst hlogin
          cases hruns with
          | resume hj => exact ⟨_, rfl, hmerge _ _ _ _ (hg.copies i _ _ _ hj rfl) hc⟩
      | remove hadmin => exact absurd hlogin.symm hadmin
  copies i t data user hi hstatus := by
    rcases hmove.ran hi with hi₀ | ⟨o, _, hT⟩
    · exact hg.copies i t data user hi₀ hstatus
    · rw [hstatus] at hT
      exact hget user hT.updating.2.symm

theorem AdminRecords.get {P : IUserData → Prop} {first : Nat} {g : Service.Config}
    (hg : AdminRecords P first g) {user : IUserData}
    (hfirst : first ≤ g.world.users.applied)
    (hbase : g.world.users.version first adminUserName = some user) :
    ∃ user', g.world.users.get adminUserName = some user' ∧
      (user' = user ∨ P user' ∧ ∃ n, first ≤ n ∧ g.world.users.Committed n ∧
        g.world.users.Wrote n adminUserName (some user')) := by
  rcases g.world.users.version_cases adminUserName hfirst with he | ⟨n, v, hn, hna, hw, he, _⟩
  · exact ⟨user, he.trans hbase, .inl rfl⟩
  · obtain ⟨user', rfl, hP⟩ := hg.writes n v hn hw
    exact ⟨user', he, .inr ⟨hP, n, hn, hna, hw⟩⟩

section Run

variable {ok : Service.Config → Service.Act → Prop} {as : List Service.Act} {s : Service.State}

theorem run_isAdmin (hrun : π.system.Run ok Service.initial as s) :
    AdminRecords IUserData.IsAdmin 0 s.config := by
  have hinv := hrun.invariant (fun g => Ledger π g ∧ AdminRecords IUserData.IsAdmin 0 g)
    (system_obeys π) (fun g a h _ hmove hg => ?_) (Service.initial_obeys π) ⟨.empty _ rfl, ?_⟩
  · exact hinv.2
  · refine ⟨hg.1.move hmove, hg.2.move hg.1 (fun user huser => ?_)
      (fun passwordHash created _ => IUserData.isAdmin_record passwordHash created)
      (fun user c data modified huser hc => (huser.merge hc modified).1) hmove⟩
    obtain ⟨n, _, hw, _⟩ := WriteBehind.Store.version_eq_some huser
    obtain ⟨user', hv, hadmin⟩ := hg.2.writes n _ (Nat.zero_le n) hw
    cases hv
    exact hadmin
  · exact { writes := fun n v _ hw => absurd hw.lt (Nat.not_lt_zero n),
            copies := fun i t data user hi => by cases hi }

/-- The first write of the account is that of a `createAdmin`. -/
theorem run_createAdmin (hrun : π.system.Run ok Service.initial as s) {user : IUserData}
    (huser : s.world.users.get adminUserName = some user) :
    ∃ i t n, s.config.threads i = some t ∧ t.call = .createAdmin ∧ t.Awaited (.written n) ∧
      s.world.users.Committed n := by
  have hfirst : ∀ n v, s.world.users.Wrote n adminUserName v → ∃ i t m, m ≤ n ∧
      s.config.threads i = some t ∧ t.call = .createAdmin ∧ t.Awaited (.written m) := by
    intro n
    induction n using Nat.strong_induction_on with
    | h n ih =>
        intro v hw
        obtain ⟨i, t, hi, hwrote⟩ := (ledger hrun).writer n adminUserName v hw
        have hwriter := hwrote.writer
        cases hwriter with
        | created hc => exact ⟨i, t, n, Nat.le_refl n, hi, hc.admin.1, hwrote.awaited⟩
        | removed _ hadmin => exact absurd rfl hadmin
        | @merged data _ hc =>
            -- the record it merged into was written before
            obtain ⟨_, s₁, a, o, login, v, hbefore, _, hruns, hissues, hlen, hext, _⟩ :=
              run_issued hrun hi hwrote.awaited
            generalize t.call = c at hc hruns hissues
            cases hissues with
            | create hc' => exact absurd hc hc'.not_updates
            | remove => exact hc.elim
            | merge hc' =>
                obtain rfl := hc'.unique hc
                cases hruns with
                | resume hi₁ =>
                    obtain ⟨_, _, _, s₂, s₃, _, hbefore₂, hok₂, hstep₂, hafter₂, _, _, _, hT⟩ :=
                      hbefore.reached (system_obeys π) (Service.initial_obeys π) hi₁ (.inl rfl)
                        (fun _ h => by cases h)
                    have hext₂ := run_extends (System.Run.cons hok₂ hstep₂ hafter₂)
                      (run_obeys hbefore₂)
                    obtain ⟨k, hk, hwk, _⟩ :=
                      WriteBehind.Store.version_eq_some hT.updating.2.symm
                    have hkn : k < n := by
                      have happlied : s₂.config.world.users.applied ≤
                          s₂.world.users.writes.length := s₂.world.users.applied_le
                      have hlength := hext₂.users.length_le
                      omega
                    obtain ⟨i', t', m, hm, hrest⟩ :=
                      ih k hkn _ (hext.users.wrote (hext₂.users.wrote hwk))
                    exact ⟨i', t', m, Nat.le_trans hm (Nat.le_of_lt hkn), hrest⟩
  obtain ⟨n, hn, hw, _⟩ := WriteBehind.Store.version_eq_some huser
  obtain ⟨i, t, m, hm, hi, hc, hawaited⟩ := hfirst n _ hw
  exact ⟨i, t, m, hi, hc, hawaited, Nat.lt_of_le_of_lt hm hn⟩

end Run

/-! ## Reset -/

/-- How far a reset of the password has come. -/
inductive Reset (t : Service.Thread) : Prop
  | asked {settings} (hpast : t.past = []) (hstatus : t.status = .waits (.getSettings settings))
  | allowed {settings} (hsaw : t.Awaited (.getSettings settings))
      (henabled : settings.isAdminPasswordResetEnabled ≠ some false)
  | failed {e} (hstatus : t.status = .done (.error e))

theorem Step.reset_start {w w' : World} {st : Status Await Exception Response}
    (h : Step π .resetAdminPassword none w w' st) :
    Reset { call := .resetAdminPassword, past := [], status := st } := by
  cases h with
  | reject e => exact .failed rfl
  | resetRead => exact .asked rfl rfl
  | authRead hc => cases hc
  | settingsPut hc => exact hc.elim

theorem Step.reset_resume {past : List Await} {q : Await} {w w' : World}
    {st : Status Await Exception Response} (h : Step π .resetAdminPassword (some q) w w' st)
    (ht : Reset { call := .resetAdminPassword, past, status := .waits q }) :
    Reset { call := .resetAdminPassword, past := q :: past, status := st } := by
  cases ht with
  | asked hpast hstatus =>
      cases hpast
      cases hstatus
      cases h with
      | reject e => exact .failed rfl
      | resetDefault henabled => exact .allowed (.inr List.mem_cons_self) henabled
      | settingsPut hc => exact hc.elim
  | allowed hsaw henabled =>
      refine .allowed (.inr ?_) henabled
      rcases hsaw with hsaw | hsaw
      · cases hsaw
        exact List.mem_cons_self
      · exact List.mem_cons_of_mem _ hsaw
  | failed hstatus => cases hstatus

theorem run_reset {ok : Service.Config → Service.Act → Prop} {as : List Service.Act}
    {s : Service.State} (hrun : π.system.Run ok Service.initial as s) {i : Nat}
    {t : Service.Thread} (hi : s.config.threads i = some t) (hc : t.call = .resetAdminPassword) :
    Reset t := by
  have hthreads := (extends_moves π).threads
    (fun _ (t : Service.Thread) => t.call = .resetAdminPassword → Reset t) (fun _ _ _ _ h => h)
    (fun c w w' st h hc => by cases hc; exact h.reset_start)
    (fun c past q w w' st ht h hc => by cases hc; exact h.reset_resume (ht rfl))
    (hrun.trace (system_obeys π) (Service.initial_obeys π)).1 (fun _ _ h => by cases h)
  exact hthreads i t hi hc

/-! ## The frame -/

/-- The account is created, and no `createAdmin` is in progress. -/
structure AdminCreated (g : Service.Config) (user : IUserData) : Prop where
  stored : g.world.users.get adminUserName = some user
  idle : ∀ i t, g.threads i = some t → t.call = .createAdmin → ∃ r, t.status = .done r

/-- Every write of the account still to be committed, and every copy of it that
is being updated, stems from the creation of the stored record. -/
structure OneCreation (g : Service.Config) (user : IUserData) : Prop where
  pending : ∀ n user', g.world.users.applied ≤ n →
    g.world.users.Wrote n adminUserName (some user') → user'.created = user.created
  copies : ∀ i t data user', g.threads i = some t →
    t.status = .waits (.updating adminUserName data (some user')) → user'.created = user.created

/-- How the thread `t` came to set the password of the account by its write `n`
of `user`. -/
inductive SetsPassword (π : Platform) (g : Service.Config) (n : Nat) (user : IUserData)
    (t : Service.Thread) : Prop
  | updatePassword {currentPassword newPassword m earlier salt}
      (hcall : t.call = .updatePassword adminUserName currentPassword newPassword)
      (hm : m ≤ n) (hearlier : g.world.users.version m adminUserName = some earlier)
      (hcompare : π.bcrypt.compare currentPassword earlier.passwordHash = true)
      (hhash : user.passwordHash = π.bcrypt.hash newPassword salt)
  | resetAdminPassword {settings salt} (hcall : t.call = .resetAdminPassword)
      (hsaw : t.Awaited (.getSettings settings))
      (henabled : settings.isAdminPasswordResetEnabled ≠ some false)
      (hhash : user.passwordHash = π.bcrypt.hash π.deviceDefaultPassword salt)

/-- What has become in `g` of the account that `g₀` stored as `user`. -/
structure AdminFrame (π : Platform) (g₀ : Service.Config) (user : IUserData)
    (g : Service.Config) : Prop where
  /-- It is there, with the same fields but for the password and the time it was
  modified, and as it was or as a later write left it. -/
  stored : ∃ user', g.world.users.get adminUserName = some user' ∧
    user'.login = user.login ∧ user'.roles = user.roles ∧ user.roles = .value [.admin] ∧
    user'.description = user.description ∧ user'.created = user.created ∧
    (user' = user ∨ ∃ n, g₀.world.users.applied ≤ n ∧ g.world.users.Committed n ∧
      g.world.users.Wrote n adminUserName (some user'))
  /-- Every later write sets its password. -/
  password : ∀ n v, g₀.world.users.applied ≤ n → g.world.users.Wrote n adminUserName v →
    ∃ user' i t, v = some user' ∧ g.threads i = some t ∧ t.Awaited (.written n) ∧
      SetsPassword π g n user' t

/-- What every step after `g₀` keeps. -/
structure AdminKept (π : Platform) (user : IUserData) (first : Nat) (g : Service.Config) :
    Prop where
  ledger : Ledger π g
  first_le : first ≤ g.world.users.applied
  base : g.world.users.version first adminUserName = some user
  isAdmin : user.IsAdmin
  records : AdminRecords (fun user' => user'.IsAdmin ∧ user'.created = user.created) first g
  creators : ∀ i t n, g.threads i = some t → t.call = .createAdmin → t.Awaited (.written n) →
    n < first

theorem AdminKept.get {user : IUserData} {first : Nat} {g : Service.Config}
    (hg : AdminKept π user first g) :
    ∃ user', g.world.users.get adminUserName = some user' ∧ user'.IsAdmin ∧
      user'.created = user.created ∧
      (user' = user ∨ ∃ n, first ≤ n ∧ g.world.users.Committed n ∧
        g.world.users.Wrote n adminUserName (some user')) := by
  obtain ⟨user', hget, rfl | ⟨⟨hadmin, hcreated⟩, hlater⟩⟩ := hg.records.get hg.first_le hg.base
  · exact ⟨user', hget, hg.isAdmin, rfl, .inl rfl⟩
  · exact ⟨user', hget, hadmin, hcreated, .inr hlater⟩

theorem AdminKept.move {user : IUserData} {first : Nat} {g h : Service.Config}
    {a : Service.Act} (hg : AdminKept π user first g)
    (hmove : Move (Step π) Platform.env g a h) : AdminKept π user first h := by
  have hext := (extends_moves π).move hmove
  obtain ⟨user', hget, hadmin, hcreated, _⟩ := hg.get
  refine ⟨hg.ledger.move hmove, Nat.le_trans hg.first_le hext.users.applied, ?_, hg.isAdmin,
    hg.records.move hg.ledger (fun user'' h => ?_) (fun _ _ h => ?_)
      (fun user'' c data m h hc => ?_) hmove, fun i t n hi hc hn => ?_⟩
  · rw [hext.users.version (Nat.le_trans hg.first_le g.world.users.applied_le)]
    exact hg.base
  · obtain rfl : user' = user'' := Option.some.inj (hget.symm.trans h)
    exact ⟨hadmin, hcreated⟩
  · cases hget.symm.trans h
  · obtain ⟨hadmin, hsame⟩ := h.1.merge hc m
    exact ⟨hadmin, hsame.trans h.2⟩
  · rcases hmove.awaited hi hn with ⟨t₀, hi₀, hext₀, hn₀⟩ | ⟨_, hreach⟩
    · exact hg.creators i t₀ n hi₀ (hext₀.call.symm.trans hc) hn₀
    · -- a `createAdmin` that looks for the account finds it
      obtain ⟨_, o, login, v, _, hissues, _⟩ := reaches_written hreach
      rw [hc] at hissues
      cases hissues with
      | create hc' hfree =>
          obtain ⟨rfl, _⟩ := hc'
          cases hget.symm.trans hfree
      | merge hc' => exact hc'.elim

theorem adminKept_start {as : List Service.Act} {s : Service.State} {user : IUserData}
    (hrun : π.system.Run always Service.initial as s) (hcreated : AdminCreated s.config user)
    (hone : OneCreation s.config user) :
    AdminKept π user s.world.users.applied s.config := by
  have hall := run_isAdmin hrun
  refine ⟨ledger hrun, Nat.le_refl _, hcreated.stored, ?_, ⟨fun n v hn hw => ?_,
    fun i t data user' hi hstatus => ?_⟩, fun i t n hi hc hn => ?_⟩
  · obtain ⟨n, _, hw, _⟩ := WriteBehind.Store.version_eq_some hcreated.stored
    obtain ⟨user', hv, hadmin⟩ := hall.writes n _ (Nat.zero_le n) hw
    cases hv
    exact hadmin
  · obtain ⟨user', rfl, hadmin⟩ := hall.writes n v (Nat.zero_le n) hw
    exact ⟨user', rfl, hadmin, hone.pending n user' hn hw⟩
  · exact ⟨hall.copies i t data user' hi hstatus, hone.copies i t data user' hi hstatus⟩
  · obtain ⟨r, hdone⟩ := hcreated.idle i t hi hc
    exact (((ledger hrun).ticket i t hi).committed hdone hn).2

/-- A password change that has written presented the password of an earlier
record. -/
theorem run_presented {ok : Service.Config → Service.Act → Prop} {as : List Service.Act}
    {s : Service.State} (hrun : π.system.Run ok Service.initial as s) {i n : Nat}
    {t : Service.Thread} {u : UserLogin} {p : String} (hi : s.config.threads i = some t)
    (hc : t.call.authenticates = some (u, p)) (hn : t.Awaited (.written n)) :
    ∃ m earlier, m ≤ n ∧ s.world.users.version m u = some earlier ∧
      π.bcrypt.compare p earlier.passwordHash = true := by
  have hticket := (ledger hrun).ticket i t hi
  cases run_credentials hrun hi hc with
  | asked hpast hstatus => exact absurd hn (hticket.unwritten hstatus (by simp) n)
  | found hpast hstatus => exact absurd hn (hticket.unwritten hstatus (by simp) n)
  | failed hstatus => cases hstatus.symm.trans (hticket.committed hstatus hn).1
  | passed hread hcompare hlater =>
      obtain ⟨before, after, s₁, s₂, _, hbefore, hok, hstep, hafter, hnone, hget, _⟩ :=
        run_read hrun hi hread
      have hrest := System.Run.cons hok hstep hafter
      have hlength := run_ticket_after hbefore hrest hnone hi hn
      have hext := run_extends hrest (run_obeys hbefore)
      refine ⟨s₁.world.users.applied, _, Nat.le_trans s₁.world.users.applied_le hlength, ?_,
        hcompare⟩
      rw [hext.users.version s₁.world.users.applied_le]
      exact hget

/-- From every state in which the account is created, no `createAdmin` is in
progress and every record in flight stems from that creation, every later run
keeps its frame. -/
theorem admin_frame {as₀ as : List Service.Act} {s₀ s : Service.State} {user : IUserData}
    (hrun₀ : π.system.Run always Service.initial as₀ s₀) (hcreated : AdminCreated s₀.config user)
    (hone : OneCreation s₀.config user) (hrun : π.system.Run always s₀ as s) :
    AdminFrame π s₀.config user s.config := by
  have hkept := hrun.invariant (AdminKept π user s₀.world.users.applied) (system_obeys π)
    (fun _ _ _ _ hmove hg => hg.move hmove) (run_obeys hrun₀)
    (adminKept_start hrun₀ hcreated hone)
  have hall := hrun₀.append hrun
  refine ⟨?_, fun n v hn hw => ?_⟩
  · obtain ⟨user', hget, hadmin, hsame, hlater⟩ := hkept.get
    exact ⟨user', hget, hadmin.login.trans hkept.isAdmin.login.symm,
      hadmin.roles.trans hkept.isAdmin.roles.symm, hkept.isAdmin.roles,
      hadmin.description.trans hkept.isAdmin.description.symm, hsame, hlater⟩
  · obtain ⟨i, t, hi, hwrote⟩ := hkept.ledger.writer n adminUserName v hw
    have hticket := hkept.ledger.ticket i t hi
    have hwriter := hwrote.writer
    cases hwriter with
    | created hc =>
        exact absurd (hkept.creators i t n hi hc.admin.1 hwrote.awaited) (Nat.not_lt.mpr hn)
    | removed _ hadmin => exact absurd rfl hadmin
    | merged hc hread modified =>
        refine ⟨_, i, t, rfl, hi, hwrote.awaited, ?_⟩
        rcases hc.admin with ⟨p, q, salt, hcall, rfl⟩ | ⟨salt, hcall, rfl⟩
        · have hauthenticates : t.call.authenticates = some (adminUserName, p) := by
            rw [hcall]
            rfl
          obtain ⟨m, earlier, hm, hearlier, hcompare⟩ :=
            run_presented hall hi hauthenticates hwrote.awaited
          exact .updatePassword hcall hm hearlier hcompare rfl
        · cases run_reset hall hi hcall with
          | asked hpast hstatus =>
              exact absurd hwrote.awaited (hticket.unwritten hstatus (by simp) n)
          | allowed hsaw henabled => exact .resetAdminPassword hcall hsaw henabled rfl
          | failed hstatus =>
              cases hstatus.symm.trans (hticket.committed hstatus hwrote.awaited).1

/-- The account is created. -/
def adminCreated : List Service.Act :=
  [.start 0 .createAdmin, .resume 0 (.resolve 0), .resume 0 (.resolve 0), .env .commit,
    .resume 0 (.resolve 0)]

/-- Its password is changed. -/
def adminPasswordChanged : List Service.Act :=
  [.start 1 (.updatePassword "admin" "test-default-password" "secret"), .resume 1 (.resolve 0),
    .resume 1 (.resolve 0), .resume 1 (.resolve 0), .resume 1 (.resolve 0), .env .commit,
    .resume 1 (.resolve 0)]

theorem admin_frame_changed :
    ∃ s₀ s user, Platform.sample.system.Run always Service.initial adminCreated s₀ ∧
      Platform.sample.system.Run always s₀ adminPasswordChanged s ∧
      AdminFrame Platform.sample s₀.config user s.config := by
  have hrun₀ := Platform.sample.system.run_outcome
    (show (Platform.sample.system.exec Service.initial adminCreated).isSome = true from rfl)
  have hrun := Platform.sample.system.run_outcome
    (show (Platform.sample.system.exec
      (Platform.sample.system.outcome Service.initial adminCreated)
        adminPasswordChanged).isSome = true from rfl)
  generalize hs : Platform.sample.system.outcome Service.initial adminCreated = s₀ at hrun₀ hrun
  have h0 : ∃ past, s₀.config.threads 0 = some
      { call := .createAdmin, past, status := .done (.ok .void) } := hs ▸ ⟨_, rfl⟩
  obtain ⟨past, h0⟩ := h0
  have hget : ∃ user, s₀.world.users.get adminUserName = some user := hs ▸ ⟨_, rfl⟩
  obtain ⟨user, hget⟩ := hget
  have hquiet : s₀.config.Quiet := by
    refine hrun₀.forall_threads ?_
    show ∀ i ∈ [0], _
    simp [h0]
  have happlied : s₀.world.users.applied = s₀.world.users.writes.length := hs ▸ rfl
  refine ⟨s₀, _, user, hrun₀, hrun, admin_frame hrun₀ ⟨hget, fun i t hi _ => hquiet i t hi⟩
    ⟨fun n user' hn hw => ?_, fun i t data user' hi hstatus => ?_⟩ hrun⟩
  · have hlt := hw.lt
    simp only [State.config_world] at hn hlt
    omega
  · obtain ⟨r, hdone⟩ := hquiet i t hi
    cases hstatus.symm.trans hdone

/-- The account is created twice at once, and a password change reads the record
of the first creation before that of the second is committed. -/
def adminCreatedTwice : List Service.Act :=
  [.start 0 .createAdmin, .start 1 .createAdmin, .resume 0 (.resolve 0), .resume 1 (.resolve 0),
    .resume 0 (.resolve 0), .env (.clock 1), .resume 1 (.resolve 0), .env .commit,
    .resume 0 (.resolve 0), .start 2 (.updatePassword "admin" "test-default-password" "secret"),
    .resume 2 (.resolve 0), .resume 2 (.resolve 0), .resume 2 (.resolve 0), .env .commit,
    .resume 1 (.resolve 0)]

theorem admin_created_twice :
    ∃ s₀ s user, Platform.sample.system.Run always Service.initial adminCreatedTwice s₀ ∧
      AdminCreated s₀.config user ∧
      Platform.sample.system.Run always s₀ [.resume 2 (.resolve 0), .env .commit] s ∧
      ¬ AdminFrame Platform.sample s₀.config user s.config := by
  have hrun₀ := Platform.sample.system.run_outcome
    (show (Platform.sample.system.exec Service.initial adminCreatedTwice).isSome = true from rfl)
  have hrun := Platform.sample.system.run_outcome
    (show (Platform.sample.system.exec
      (Platform.sample.system.outcome Service.initial adminCreatedTwice)
        [.resume 2 (.resolve 0), .env .commit]).isSome = true from rfl)
  have hcreated : ∃ user, (Platform.sample.system.outcome
      (Platform.sample.system.outcome Service.initial adminCreatedTwice)
        [.resume 2 (.resolve 0), .env .commit]).world.users.get adminUserName = some user ∧
      user.created = 0 := ⟨_, rfl, rfl⟩
  generalize Platform.sample.system.outcome
    (Platform.sample.system.outcome Service.initial adminCreatedTwice)
      [.resume 2 (.resolve 0), .env .commit] = s at hrun hcreated
  generalize hs : Platform.sample.system.outcome Service.initial adminCreatedTwice = s₀
    at hrun₀ hrun
  have h0 : ∃ past, s₀.config.threads 0 = some
      { call := .createAdmin, past, status := .done (.ok .void) } := hs ▸ ⟨_, rfl⟩
  have h1 : ∃ past, s₀.config.threads 1 = some
      { call := .createAdmin, past, status := .done (.ok .void) } := hs ▸ ⟨_, rfl⟩
  have h2 : ∃ past status, s₀.config.threads 2 = some
      { call := .updatePassword "admin" "test-default-password" "secret", past, status } :=
    hs ▸ ⟨_, _, rfl⟩
  have hget : ∃ user, s₀.world.users.get adminUserName = some user ∧ user.created = 1 :=
    hs ▸ ⟨_, rfl, rfl⟩
  obtain ⟨past₀, h0⟩ := h0
  obtain ⟨past₁, h1⟩ := h1
  obtain ⟨past₂, status₂, h2⟩ := h2
  obtain ⟨user, hget, hone⟩ := hget
  obtain ⟨user', hget', hzero⟩ := hcreated
  have hidle : ∀ i t, s₀.config.threads i = some t → t.call = .createAdmin →
      ∃ r, t.status = .done r := by
    refine hrun₀.forall_threads ?_
    show ∀ i ∈ [0, 1, 2], _
    simp [h0, h1, h2]
  refine ⟨s₀, s, user, hrun₀, ⟨hget, hidle⟩, hrun, fun h => ?_⟩
  obtain ⟨user'', hget'', _, _, _, _, hsame, _⟩ := h.stored
  obtain rfl : user'' = user' := Option.some.inj (hget''.symm.trans hget')
  rw [hone, hzero] at hsame
  cases hsame

end RpiNestApi
