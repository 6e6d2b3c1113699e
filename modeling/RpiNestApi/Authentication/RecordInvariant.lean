import Mathlib.Tactic.IntervalCases
import RpiNestApi.Authentication.Records

/-
The representation invariant of the users store.

A record is stored under its own login, is not modified before it was created,
and its password hash was made from a password that was supplied for its
account.  An update puts back the record it has read, with the fields its data
names and the time of the change.
-/

namespace RpiNestApi

open Async

variable {π : Platform}

namespace Call

/-- The password a call has hashed. -/
def hashes (π : Platform) : Call → Option String
  | .create user => some user.password
  | .createAdmin => some π.deviceDefaultPassword
  | .updatePassword _ _ newPassword => some newPassword
  | .resetAdminPassword => some π.deviceDefaultPassword
  | _ => none

/-- The call supplies the password for the account `key`. -/
def Supplies (π : Platform) (c : Call) (key : UserLogin) (password : String) : Prop :=
  c.hashes π = some password ∧
    ((∃ data, c.Creates π key data) ∨ ∃ data, c.Updates π key data)

theorem Creates.hash {c : Call} {key : UserLogin} {data : CreateUserData}
    (h : c.Creates π key data) :
    ∃ password salt, c.Supplies π key password ∧
      data.passwordHash = π.bcrypt.hash password salt := by
  have hc := h
  cases c with
  | create user =>
      obtain ⟨_, _, salt, rfl⟩ := h
      exact ⟨_, salt, ⟨rfl, .inl ⟨_, hc⟩⟩, rfl⟩
  | createAdmin =>
      obtain ⟨_, salt, rfl⟩ := h
      exact ⟨_, salt, ⟨rfl, .inl ⟨_, hc⟩⟩, rfl⟩
  | _ => exact h.elim

theorem Updates.hash {c : Call} {key : UserLogin} {data : UpdateUserData} {passwordHash : String}
    (h : c.Updates π key data) (hdata : data.passwordHash = some passwordHash) :
    ∃ password salt, c.Supplies π key password ∧ passwordHash = π.bcrypt.hash password salt := by
  have hc := h
  cases c with
  | update updateUser =>
      obtain ⟨_, _, rfl⟩ := h
      cases hdata
  | updatePassword userLogin currentPassword newPassword =>
      obtain ⟨_, salt, rfl⟩ := h
      cases hdata
      exact ⟨_, salt, ⟨rfl, .inr ⟨_, hc⟩⟩, rfl⟩
  | resetAdminPassword =>
      obtain ⟨_, salt, rfl⟩ := h
      cases hdata
      exact ⟨_, salt, ⟨rfl, .inr ⟨_, hc⟩⟩, rfl⟩
  | _ => exact h.elim

end Call

/-- `passwordHash` was made by a call that hashes a password it supplies for the
account `key`. -/
def Hashed (π : Platform) (g : Service.Config) (key : UserLogin) (passwordHash : String) : Prop :=
  ∃ i t password salt, g.threads i = some t ∧ t.call.Supplies π key password ∧
    t.Awaited (.hashPassword password) ∧ passwordHash = π.bcrypt.hash password salt

/-- The clock is never set back. -/
def ClockForward (g : Service.Config) : Service.Act → Prop
  | .env (.clock now) => g.world.clock ≤ now
  | _ => True

/-- `user'` is `user` with the fields that `data` names, modified. -/
structure IUserData.ChangesOnly (data : UpdateUserData) (user user' : IUserData) : Prop where
  login : user'.login = user.login
  created : user'.created = user.created
  passwordHash : user'.passwordHash = data.passwordHash.getD user.passwordHash
  description : user'.description = data.description.override user.description
  roles : user'.roles = data.roles.override user.roles

theorem IUserData.changesOnly_merge (user : IUserData) (data : UpdateUserData) (modified : Nat) :
    ChangesOnly data user (user.merge data modified) :=
  { login := rfl, created := rfl, passwordHash := rfl, description := rfl, roles := rfl }

/-- Every record the store holds, has held or will hold once its writes are
committed is well formed, and every update has kept what its data does not
name. -/
structure RecordsValid (π : Platform) (g : Service.Config) : Prop where
  stored : ∀ n key user, g.world.users.version n key = some user →
    user.login = key ∧ user.created ≤ user.modified ∧ Hashed π g key user.passwordHash
  updated : ∀ i t key data n, g.threads i = some t → t.call.Updates π key data →
    t.Awaited (.written n) →
    ∃ data user user', t.call.Updates π key data ∧ t.Awaited (.updating key data (some user)) ∧
      g.world.users.Wrote n key (some user') ∧ IUserData.ChangesOnly data user user'

/-! ## What a call has hashed -/

/-- A call that has asked for a hash, or got to merge one, has hashed its own
password. -/
structure HashesOwn (π : Platform) (t : Service.Thread) : Prop where
  own : ∀ password, t.Awaited (.hashPassword password) → t.call.hashes π = some password
  merged : ∀ key data user passwordHash, t.Awaited (.updating key data user) →
    data.passwordHash = some passwordHash → ∃ password, t.Awaited (.hashPassword password)

theorem Step.hashes {c : Call} {o : Option Await} {w w' : World} {password : String}
    (h : Step π c o w w' (.waits (.hashPassword password))) : c.hashes π = some password := by
  cases h <;> rfl

theorem Step.merges {c : Call} {o : Option Await} {w w' : World} {key : UserLogin}
    {data : UpdateUserData} {user : Option IUserData} {passwordHash : String}
    (h : Step π c o w w' (.waits (.updating key data user)))
    (hdata : data.passwordHash = some passwordHash) :
    ∃ password, o = some (.hashPassword password) := by
  cases h with
  | updateRead => cases hdata
  | newRead => exact ⟨_, rfl⟩
  | resetUpdate => exact ⟨_, rfl⟩

theorem Step.hashesOwn_start {c : Call} {w w' : World} {st : Status Await Exception Response}
    (h : Step π c none w w' st) : HashesOwn π { call := c, past := [], status := st } where
  own password hq := by
    obtain rfl := hq.resolve_right List.not_mem_nil
    exact h.hashes
  merged key data user passwordHash hq hdata := by
    obtain rfl := hq.resolve_right List.not_mem_nil
    obtain ⟨_, he⟩ := h.merges hdata
    cases he

theorem Step.hashesOwn_resume {c : Call} {past : List Await} {q : Await} {w w' : World}
    {st : Status Await Exception Response}
    (ht : HashesOwn π { call := c, past, status := .waits q }) (h : Step π c (some q) w w' st) :
    HashesOwn π { call := c, past := q :: past, status := st } where
  own password hq := by
    rcases hq with rfl | hq
    · exact h.hashes
    · exact ht.own password (Thread.awaited_waits.mpr (List.mem_cons.mp hq))
  merged key data user passwordHash hq hdata := by
    rcases hq with rfl | hq
    · obtain ⟨password, he⟩ := h.merges hdata
      cases he
      exact ⟨password, .inr List.mem_cons_self⟩
    · obtain ⟨password, hp⟩ :=
        ht.merged key data user passwordHash (Thread.awaited_waits.mpr (List.mem_cons.mp hq)) hdata
      exact ⟨password, .inr (List.mem_cons.mpr (Thread.awaited_waits.mp hp))⟩

/-! ## Every record is well formed -/

theorem Hashed.move {g h : Service.Config} {a : Service.Act} {key : UserLogin}
    {passwordHash : String} (hg : Hashed π g key passwordHash)
    (hmove : Move (Step π) Platform.env g a h) : Hashed π h key passwordHash := by
  obtain ⟨i, t, password, salt, hi, hsupplies, hq, rfl⟩ := hg
  obtain ⟨t', hi', hext⟩ := hmove.thread hi
  exact ⟨i, t', password, salt, hi', hext.call ▸ hsupplies, hext.awaited _ hq, rfl⟩

/-- A call that hashes its own password has made the hash it stores. -/
theorem HashesOwn.hashed {g : Service.Config} {i : Nat} {t : Service.Thread}
    (ht : HashesOwn π t) (hi : g.threads i = some t) {key : UserLogin} {passwordHash : String}
    (hhash : ∃ password salt, t.call.Supplies π key password ∧
      passwordHash = π.bcrypt.hash password salt)
    (hq : ∃ password, t.Awaited (.hashPassword password)) : Hashed π g key passwordHash := by
  obtain ⟨password, salt, hsupplies, rfl⟩ := hhash
  obtain ⟨password', hq⟩ := hq
  have he := ht.own password' hq
  rw [hsupplies.1] at he
  cases he
  exact ⟨i, t, password, salt, hi, hsupplies, hq, rfl⟩

/-- What holds of a record under `key`, as long as the clock goes forward. -/
structure RecordValid (π : Platform) (g : Service.Config) (key : UserLogin) (user : IUserData) :
    Prop where
  login : user.login = key
  modified : user.created ≤ user.modified
  created : user.created ≤ g.world.clock
  passwordHash : Hashed π g key user.passwordHash

theorem Step.clock {c : Call} {o : Option Await} {w w' : World}
    {st : Status Await Exception Response} (h : Step π c o w w' st) : w'.clock = w.clock := by
  cases h <;> rfl

theorem clock_move {g h : Service.Config} {a : Service.Act} (hok : ClockForward g a)
    (hmove : Move (Step π) Platform.env g a h) : g.world.clock ≤ h.world.clock := by
  cases hmove with
  | start _ hT => exact Nat.le_of_eq hT.clock.symm
  | resume _ hT => exact Nat.le_of_eq hT.clock.symm
  | @env e w he =>
      cases e with
      | commit =>
          obtain ⟨users, _, rfl⟩ := Option.map_eq_some_iff.mp he
          exact Nat.le_refl _
      | clock now =>
          cases he
          exact hok

/-- The invariant of a run: the ledger, what its calls have hashed, and its
records. -/
structure Recorded (π : Platform) (g : Service.Config) : Prop where
  ledger : Ledger π g
  threads : ∀ i t, g.threads i = some t → HashesOwn π t
  records : EveryRecord (RecordValid π g) g

theorem Recorded.move {g h : Service.Config} {a : Service.Act} (hg : Recorded π g)
    (hok : ClockForward g a) (hmove : Move (Step π) Platform.env g a h) : Recorded π h where
  ledger := hg.ledger.move hmove
  threads := hmove.threads (P := fun _ t => HashesOwn π t) (fun _ ht => ht)
    (fun c w st hT => hT.hashesOwn_start) (fun c past q w st ht hT => hT.hashesOwn_resume ht)
    hg.threads
  records := by
    have hclock := clock_move hok hmove
    have hhashed : ∀ {i c q key passwordHash}, g.Runs i c (some q) a →
        (∃ password salt, c.Supplies π key password ∧
          passwordHash = π.bcrypt.hash password salt) →
        (∀ t, t.call = c → g.threads i = some t → t.Awaited q →
          ∃ password, t.Awaited (.hashPassword password)) →
        Hashed π h key passwordHash := by
      intro i c q key passwordHash hruns hhash hq
      cases hruns with
      | resume hi =>
          exact ((hg.threads i _ hi).hashed hi hhash (hq _ rfl hi (.inl rfl))).move hmove
    refine hg.records.move hg.ledger (fun key user huser => ?_)
      (fun i c key data password hc hruns => ?_) (fun i c key data user hc huser hruns => ?_) hmove
    · exact { login := huser.login, modified := huser.modified,
              created := Nat.le_trans huser.created hclock,
              passwordHash := huser.passwordHash.move hmove }
    · refine { login := rfl, modified := Nat.le_refl _, created := hclock, passwordHash := ?_ }
      exact hhashed hruns hc.hash fun t _ _ hq => ⟨password, hq⟩
    · refine { login := huser.login, modified := huser.created,
               created := Nat.le_trans huser.created hclock, passwordHash := ?_ }
      cases hdata : data.passwordHash with
      | none =>
          simp only [IUserData.merge, hdata, Option.getD_none]
          exact huser.passwordHash.move hmove
      | some passwordHash =>
          simp only [IUserData.merge, hdata, Option.getD_some]
          exact hhashed hruns (hc.hash hdata) fun t _ hi hq =>
            (hg.threads i t hi).merged key data _ passwordHash hq hdata

/-- In every run in which the clock is not set back, every record is well formed
and every update has kept what its data does not name. -/
theorem records_valid {as : List Service.Act} {s : Service.State}
    (hrun : π.system.Run ClockForward Service.initial as s) : RecordsValid π s.config := by
  have hs : Recorded π s.config :=
    hrun.invariant (Recorded π) (system_obeys π) (fun _ _ _ hok hmove hg => hg.move hok hmove)
      (Service.initial_obeys π)
      { ledger := .empty _ rfl, records := .empty rfl, threads := fun i t hi => by cases hi }
  refine { stored := fun n key user hversion => ?_, updated := fun i t key data n hi hc hn => ?_ }
  · have hvalid := hs.records.version hversion
    exact ⟨hvalid.login, hvalid.modified, hvalid.passwordHash⟩
  · obtain ⟨login, v, hwrote⟩ := (hs.ledger.ticket i t hi).wrote hn
    obtain ⟨rfl, data', user, modified, hc', hread, rfl⟩ := hwrote.writer.of_updates hc
    exact ⟨data', user, _, hc', hread, hwrote.wrote, user.changesOnly_merge data' modified⟩

/-- The account "bob" is created, time passes, and its description is changed. -/
def describedLater : List Service.Act :=
  [.start 0 (createBob "first"), .resume 0 (.resolve 0), .env .commit, .resume 0 (.resolve 0),
    .env (.clock 5), .start 1 (describeBob "new"), .resume 1 (.resolve 0), .env .commit,
    .resume 1 (.resolve 0)]

theorem records_valid_bob :
    ∃ s, Platform.sample.system.Run ClockForward Service.initial describedLater s ∧
      RecordsValid Platform.sample s.config := by
  have hrun : Platform.sample.system.Run ClockForward Service.initial describedLater
      (Platform.sample.system.outcome Service.initial describedLater) := by
    refine System.run_outcome_of rfl fun n hn => ?_
    have hn9 : n < 9 := hn
    interval_cases n <;> first | trivial | exact Nat.zero_le _
  exact ⟨_, hrun, records_valid hrun⟩

end RpiNestApi
