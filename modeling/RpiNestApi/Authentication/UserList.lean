import RpiNestApi.Async.Reader
import RpiNestApi.Authentication.RecordInvariant
import Mathlib.Data.List.Dedup
import Mathlib.Data.List.ReduceOption

/-
The list of all users.

`getAllUsers` reads the keys of the users store and then the records under them.  Other
calls go on meanwhile, so that a record may be gone, or be another one, when it is read.
-/

namespace RpiNestApi

open Async

/-- A login, or the symbol under which the store keeps the structures of its records. -/
inductive UserKey where
  | login (userLogin : UserLogin)
  | symbol (description : String)
  deriving DecidableEq, Repr

/-- `typeof x === 'string'`. -/
def UserKey.string? : UserKey → Option UserLogin
  | .login userLogin => some userLogin
  | .symbol _ => none

/-- What `getKeys` returns: every key once, in an order of the store's own. -/
structure KeyOrder where
  getKeys : WriteBehind.Store UserLogin IUserData → List UserKey
  nodup : ∀ s, (getKeys s).Nodup
  mem_getKeys : ∀ s login, .login login ∈ getKeys s ↔ s.get login ≠ none

/-- A property that was deleted is `none`. -/
structure ListUserDto where
  login : UserLogin
  passwordHash : Option String
  description : Field String
  roles : Field (List AccessRole)
  created : Nat
  modified : Nat
  deriving DecidableEq, Repr

def ListUserDto.ofRecord (user : IUserData) : ListUserDto where
  login := user.login
  passwordHash := some user.passwordHash
  description := user.description
  roles := user.roles
  created := user.created
  modified := user.modified

/-- `delete x.passwordHash`. -/
def ListUserDto.deletePasswordHash (x : ListUserDto) : ListUserDto :=
  { x with passwordHash := none }

namespace UserRepository

/-- `getMany` may read the records at different times. -/
def getAll (order : KeyOrder) : Reader World Exception (List IUserData) := do
  let allUserKeys ← Reader.now fun w => (order.getKeys w.users).filterMap UserKey.string?
  let allUsers ← Reader.all (allUserKeys.map fun login => Reader.await fun w => w.users.get login)
  return allUsers.reduceOption

end UserRepository

namespace UserService

def getAllUsers (order : KeyOrder) : Reader World Exception (List ListUserDto) := do
  let allUsers ← UserRepository.getAll order
  return allUsers.map fun user => (ListUserDto.ofRecord user).deletePasswordHash

end UserService

/-! ## What a list has -/

/-- The world after each number of steps. -/
def worldsOf (π : Platform) (as : List Service.Act) (n : Nat) : World :=
  (π.system.outcome Service.initial (as.take n)).world

structure Listed (worlds : Nat → World) (start finish : Nat) (users : List ListUserDto) : Prop where
  /-- Every user of the list was stored so at some time. -/
  stored : ∀ x ∈ users, ∃ n, start ≤ n ∧ n ≤ finish ∧ ∃ user,
    (worlds n).users.get x.login = some user ∧
      x = { ListUserDto.ofRecord user with passwordHash := none }
  nodup : (users.map (·.login)).Nodup
  /-- Nobody who was there all the time is left out. -/
  complete : ∀ login, (∀ n, start ≤ n → n ≤ finish → (worlds n).users.get login ≠ none) →
    login ∈ users.map (·.login)

variable {π : Platform}

/-- Every record is stored under its own login. -/
structure Named (π : Platform) (g : Service.Config) : Prop where
  ledger : Ledger π g
  records : EveryRecord (fun login user => user.login = login) g

theorem Named.move {g h : Service.Config} {a : Service.Act} (hg : Named π g)
    (hmove : Move (Step π) Platform.env g a h) : Named π h where
  ledger := hg.ledger.move hmove
  records := hg.records.move hg.ledger (fun _ _ huser => huser) (fun _ _ _ _ _ _ _ => rfl)
    (fun _ _ _ _ _ _ huser _ => huser) hmove

theorem login_of_get {as : List Service.Act} {s : Service.State}
    (hrun : π.system.Run always Service.initial as s) {login : UserLogin} {user : IUserData}
    (h : s.world.users.get login = some user) : user.login = login := by
  have hs : Named π s.config :=
    hrun.invariant (Named π) (system_obeys π) (fun _ _ _ _ hmove hg => hg.move hmove)
      (Service.initial_obeys π) { ledger := .empty _ rfl, records := .empty rfl }
  exact hs.records.version h

/-- Every beginning of a run is one. -/
theorem run_take {as : List Service.Act} {t : Service.State}
    (hrun : π.system.Run always Service.initial as t) (n : Nat) :
    ∃ s, π.system.Run always Service.initial (as.take n) s ∧ s.world = worldsOf π as n := by
  rw [← List.take_append_drop n as] at hrun
  obtain ⟨s, hs, _⟩ := hrun.split
  exact ⟨s, hs, congrArg State.world hs.eq_outcome⟩

/-- Between the two times the store had this under the login. -/
def ReadUser (worlds : Nat → World) (start finish : Nat) (login : UserLogin)
    (result : Option IUserData) : Prop :=
  ∃ n, start ≤ n ∧ n ≤ finish ∧ result = (worlds n).users.get login

section Read

variable {worlds : Nat → World} {start finish : Nat} {logins : List UserLogin}
variable {results : List (Option IUserData)}

/-- The list has a record for each login that had one when it was read. -/
theorem logins_sublist
    (hlogin : ∀ n login user, (worlds n).users.get login = some user → user.login = login)
    (h : List.Forall₂ (ReadUser worlds start finish) logins results) :
    (results.reduceOption.map (·.login)).Sublist logins := by
  induction h with
  | nil => exact .slnil
  | @cons login result logins results hread _ ih =>
      obtain ⟨n, _, _, rfl⟩ := hread
      cases huser : (worlds n).users.get login with
      | none => exact .cons login ih
      | some user =>
          rw [List.reduceOption_cons_of_some, List.map_cons, hlogin n login user huser]
          exact .cons_cons login ih

theorem exists_read (h : List.Forall₂ (ReadUser worlds start finish) logins results)
    {user : IUserData} (huser : some user ∈ results) :
    ∃ login n, start ≤ n ∧ n ≤ finish ∧ (worlds n).users.get login = some user := by
  induction h with
  | nil => cases huser
  | @cons login result _ _ hread _ ih =>
      rcases List.mem_cons.mp huser with rfl | huser
      · obtain ⟨n, hn, hn', hget⟩ := hread
        exact ⟨login, n, hn, hn', hget.symm⟩
      · exact ih huser

theorem exists_result (h : List.Forall₂ (ReadUser worlds start finish) logins results)
    {login : UserLogin} (hmem : login ∈ logins) :
    ∃ result ∈ results, ReadUser worlds start finish login result := by
  induction h with
  | nil => cases hmem
  | @cons _ result _ _ hread _ ih =>
      rcases List.mem_cons.mp hmem with rfl | hmem
      · exact ⟨result, List.mem_cons_self, hread⟩
      · obtain ⟨result', hresult, hread'⟩ := ih hmem
        exact ⟨result', List.mem_cons_of_mem _ hresult, hread'⟩

/-- The logins of the keys are read side by side. -/
theorem returns_getAll (order : KeyOrder) :
    (UserRepository.getAll order).Returns worlds start fun finish allUsers =>
      ∃ results, List.Forall₂ (ReadUser worlds start finish)
        ((order.getKeys (worlds start).users).filterMap UserKey.string?) results ∧
          allUsers = results.reduceOption := by
  simp only [UserRepository.getAll, Reader.bind_def, Reader.pure_def]
  refine Reader.returns_bind (Reader.returns_now (Reader.returns_bind ?_))
  have hget : ∀ login : UserLogin,
      (Reader.await fun w : World => w.users.get login : Reader World Exception _).Returns worlds
        start fun finish result => ReadUser worlds start finish login result :=
    fun login => Reader.returns_await fun n finish hn hfinish => ⟨n, hn, hfinish, rfl⟩
  refine (Reader.returns_all fun login _ => hget login).mono fun finish results _ hread => ?_
  refine Reader.returns_ret ⟨results, hread.imp fun login result => ?_, rfl⟩
  rintro ⟨m, hm, n, hn, hn', hresult⟩
  exact ⟨n, hn, Nat.le_trans hn' hm, hresult⟩

end Read

theorem UserKey.string?_eq_some {key : UserKey} {login : UserLogin} :
    key.string? = some login ↔ key = .login login := by
  cases key <;> simp [UserKey.string?]

theorem mem_logins {keys : List UserKey} {login : UserLogin} :
    login ∈ keys.filterMap UserKey.string? ↔ .login login ∈ keys := by
  simp [UserKey.string?_eq_some]

theorem nodup_logins {keys : List UserKey} (h : keys.Nodup) :
    (keys.filterMap UserKey.string?).Nodup :=
  List.Nodup.filterMap (fun key key' login hkey hkey' => by
    rw [Option.mem_def, UserKey.string?_eq_some] at hkey hkey'
    rw [hkey, hkey']) h

/-- Every list of the users, whatever calls run meanwhile. -/
theorem users_listed {as : List Service.Act} {t : Service.State}
    (hrun : π.system.Run always Service.initial as t) (order : KeyOrder) (start : Nat) :
    (UserService.getAllUsers order).Returns (worldsOf π as) start
      (Listed (worldsOf π as) start) := by
  have hlogin : ∀ n login user, (worldsOf π as n).users.get login = some user →
      user.login = login := by
    intro n login user huser
    obtain ⟨s, hs, hworld⟩ := run_take hrun n
    exact login_of_get hs (hworld ▸ huser)
  refine Reader.returns_bind ((returns_getAll order).mono fun finish allUsers hfinish hread => ?_)
  obtain ⟨results, hread, rfl⟩ := hread
  have hnames : (results.reduceOption.map fun user =>
      (ListUserDto.ofRecord user).deletePasswordHash).map (·.login) =
        results.reduceOption.map (·.login) := by
    rw [List.map_map]
    rfl
  refine Reader.returns_ret { stored := ?_, nodup := ?_, complete := ?_ }
  · intro x hx
    obtain ⟨user, huser, rfl⟩ := List.mem_map.mp hx
    obtain ⟨login, n, hn, hn', hget⟩ := exists_read hread (List.reduceOption_mem_iff.mp huser)
    obtain rfl := hlogin n login user hget
    exact ⟨n, hn, hn', user, hget, rfl⟩
  · rw [hnames]
    exact (nodup_logins (order.nodup _)).sublist (logins_sublist hlogin hread)
  · intro login hstored
    have hkey := (order.mem_getKeys (worldsOf π as start).users login).mpr
      (hstored start (Nat.le_refl start) hfinish)
    obtain ⟨result, hresult, n, hn, hn', rfl⟩ := exists_result hread (mem_logins.mpr hkey)
    obtain ⟨user, huser⟩ := Option.ne_none_iff_exists'.mp (hstored n hn hn')
    rw [hnames, List.mem_map]
    exact ⟨user, List.reduceOption_mem_iff.mpr (huser ▸ hresult), hlogin n login user huser⟩

/-- The keys of the applied writes, latest first. -/
def writtenKeys : KeyOrder where
  getKeys s := (((s.writes.take s.applied).map Prod.fst).dedup.filter
    fun login => (s.get login).isSome).map .login
  nodup s := ((List.nodup_dedup _).filter _).map fun login login' h => UserKey.login.inj h
  mem_getKeys s login := by
    simp only [List.mem_map, List.mem_filter, List.mem_dedup, UserKey.login.injEq,
      exists_eq_right, Option.isSome_iff_ne_none, and_iff_right_iff_imp]
    intro h
    obtain ⟨user, huser⟩ := Option.ne_none_iff_exists'.mp h
    obtain ⟨m, hm, hwrote, _⟩ := WriteBehind.Store.version_eq_some huser
    have hwritten : (login, some user) ∈ s.writes.take s.applied :=
      List.mem_of_getElem? ((List.getElem?_take_of_lt hm).trans hwrote)
    exact ⟨(login, some user), hwritten, rfl⟩

/-- The users are listed while the account "bob" is created and described. -/
theorem users_listed_bob : ∃ t, Platform.sample.system.Run always Service.initial describedLater t ∧
    (UserService.getAllUsers writtenKeys).Returns (worldsOf Platform.sample describedLater) 4
      (Listed (worldsOf Platform.sample describedLater) 4) := by
  have hrun : Platform.sample.system.Run always Service.initial describedLater _ :=
    System.run_outcome rfl
  exact ⟨_, hrun, users_listed hrun writtenKeys 4⟩

end RpiNestApi
