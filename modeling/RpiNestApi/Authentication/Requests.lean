import Mathlib.Data.List.Nodup
import Mathlib.Tactic.IntervalCases
import RpiNestApi.Authentication.Records
import RpiNestApi.Validation

/-
The requests that manage users, and the roles they leave in the store.

A user is created by `PUT /authentication/user` or by the command `users add`,
and changed by `PATCH /authentication/user`.  The bodies are checked by the
decorators of their DTO, and the roles of the command by its parser.  Nothing
checks a record again when it is stored.
-/

namespace RpiNestApi

open Async ClassValidator

variable {π : Platform}

namespace AccessRole

def name : AccessRole → String
  | .admin => "admin"
  | .user => "user"
  | .readOnly => "read-only"

def accessRoles : List AccessRole := [.admin, .user, .readOnly]

/-- The role with the name `s`. -/
def parse (s : String) : Option AccessRole := accessRoles.find? fun role => role.name = s

theorem parse_eq_some {s : String} {role : AccessRole} (h : parse s = some role) :
    role.name = s := by
  simpa using List.find?_some h

theorem parse_name (role : AccessRole) : parse role.name = some role := by
  cases role <;> decide

theorem mem_accessRoles (role : AccessRole) : role ∈ accessRoles := by
  cases role <;> decide

theorem name_injective : Function.Injective name := by
  intro a b h
  have hparse := congrArg parse h
  rwa [parse_name, parse_name, Option.some.injEq] at hparse

end AccessRole

/-- What the roles of a user are meant to be. -/
structure Roles.Valid (roles : List AccessRole) : Prop where
  ne_nil : roles ≠ []
  nodup : roles.Nodup
  subset : ∀ role ∈ roles, role ∈ AccessRole.accessRoles

/-- The roles of a record are a list of that kind. -/
def Field.ValidRoles (roles : Field (List AccessRole)) : Prop :=
  ∃ list, roles = .value list ∧ Roles.Valid list

theorem Roles.valid_iff {roles : List AccessRole} {names : List String}
    (h : roles.map AccessRole.name = names) : Valid roles ↔ names ≠ [] ∧ names.Nodup := by
  subst h
  rw [List.nodup_map_iff AccessRole.name_injective, ne_eq, List.map_eq_nil_iff]
  exact ⟨fun h => ⟨h.ne_nil, h.nodup⟩, fun h =>
    { ne_nil := h.1, nodup := h.2, subset := fun role _ => role.mem_accessRoles }⟩

/-! ## Bodies -/

/-- A body with the properties of a `UserDto`.  One that is absent is
`undefined`. -/
structure UserBody where
  login : Value
  password : Value
  roles : Value
  description : Value

/-- The decorators of `UserDto.login`. -/
def loginValid (value : Value) : Bool :=
  notEquals adminUserName value && isNotEmpty value && isString value

/-- The decorators of `UserDto.roles`. -/
def rolesValid (value : Value) : Bool :=
  isArray value && arrayNotEmpty value && arrayUnique value &&
    each (isIn (AccessRole.accessRoles.map AccessRole.name)) value

def UserDto.accepts (body : UserBody) : Bool :=
  loginValid body.login && (isNotEmpty body.password && isDefined body.password) &&
    rolesValid body.roles && isOptional isString body.description

/-- `PartialType` makes every property optional, and a password is refused. -/
def UpdateUserDto.accepts (body : UserBody) : Bool :=
  isOptional loginValid body.login && !body.password.isDefined &&
    isOptional rolesValid body.roles && isOptional (isOptional isString) body.description

def DeleteUserDto.accepts (body : UserBody) : Bool :=
  loginValid body.login && !body.password.isDefined && !body.roles.isDefined &&
    !body.description.isDefined

namespace Value

def toString? : Value → Option String
  | .string s => some s
  | _ => none

def toRole : Value → Option AccessRole
  | .string s => AccessRole.parse s
  | _ => none

def toRoles : Value → Option (List AccessRole)
  | .array xs => xs.mapM toRole
  | _ => none

/-- An optional property of the type `f` reads. -/
def toField {α : Type} (f : Value → Option α) : Value → Option (Field α)
  | .undefined => some .undefined
  | .null => some .null
  | value => (f value).map .value

end Value

/-- The body as the type the service takes it for. -/
def UserBody.toUserDto (body : UserBody) : Option UserDto := do
  let login ← body.login.toString?
  let password ← body.password.toString?
  let roles ← body.roles.toRoles
  let description ← body.description.toField Value.toString?
  return { login, password, roles, description }

def UserBody.toUpdateUserDto (body : UserBody) : Option UpdateUserDto := do
  let login ← body.login.toField Value.toString?
  let roles ← body.roles.toField Value.toRoles
  let description ← body.description.toField Value.toString?
  return { login, roles, description }

/-! ## Entry points

Each makes the call of `UserService` it leads to, and none where the request ends
before that. -/

namespace UserController

/-- A password that is no string is rejected by `bcrypt`, before anything is
stored. -/
def create (body : UserBody) : Option Call :=
  if UserDto.accepts body then body.toUserDto.map .create else none

def update (body : UserBody) : Option Call :=
  if UpdateUserDto.accepts body then body.toUpdateUserDto.map .update else none

def remove (body : UserBody) : Option Call :=
  if DeleteUserDto.accepts body then body.login.toString?.map .remove else none

end UserController

/-- The options of `users add`.  `--roles` takes one value or more.  `-d` takes
none, so that `description` is then `true`, which a record has as a text here. -/
structure AddUserOptions where
  username : String
  password : String
  roles : List String
  description : Field String
  roles_ne_nil : roles ≠ []

namespace AddUserCommand

/-- Called with each value of `--roles`, and the roles collected so far. -/
def getRoles (allRoles : List AccessRole) (role : String) : Option (List AccessRole) :=
  (AccessRole.parse role).map fun role => allRoles ++ [role]

def run (options : AddUserOptions) : Option Call :=
  (options.roles.foldlM getRoles []).map fun roles =>
    .create
      { login := options.username, password := options.password, roles,
        description := options.description }

end AddUserCommand

inductive UserRequest where
  | create (body : UserBody)
  | update (body : UserBody)
  | remove (body : UserBody)
  | addUser (options : AddUserOptions)
  | removeUser (username : String)
  | createAdmin

def UserRequest.call : UserRequest → Option Call
  | .create body => UserController.create body
  | .update body => UserController.update body
  | .remove body => UserController.remove body
  | .addUser options => AddUserCommand.run options
  | .removeUser username => some (.remove username)
  | .createAdmin => some .createAdmin

/-- The request gives the roles of the account in full, if it gives any. -/
def UserRequest.GivesRoles : UserRequest → Prop
  | .update body => body.roles ≠ .null
  | .addUser options => options.roles.Nodup
  | _ => True

/-! ## The roles a request leads to -/

theorem Value.toRole_eq_some {v : Value} {role : AccessRole} (h : v.toRole = some role) :
    v = .string role.name := by
  cases v with
  | string s => rw [AccessRole.parse_eq_some h]
  | _ => cases h

theorem Value.mapM_toRole {xs : List Value} {roles : List AccessRole}
    (h : xs.mapM toRole = some roles) : xs = (roles.map AccessRole.name).map .string := by
  induction xs generalizing roles with
  | nil =>
      cases h
      rfl
  | cons x xs ih =>
      rw [List.mapM_cons] at h
      obtain ⟨role, hx, h⟩ := Option.bind_eq_some_iff.mp h
      obtain ⟨rest, hxs, h⟩ := Option.bind_eq_some_iff.mp h
      cases h
      rw [toRole_eq_some hx, ih hxs]
      rfl

theorem Value.toRoles_eq_some {v : Value} {roles : List AccessRole} (h : v.toRoles = some roles) :
    v = .array ((roles.map AccessRole.name).map .string) := by
  cases v with
  | array xs => rw [mapM_toRole h]
  | _ => cases h

/-- The decorators of `roles` are as strict as the invariant. -/
theorem rolesValid.valid {v : Value} {roles : List AccessRole} (h : rolesValid v = true)
    (hroles : v.toRoles = some roles) : Roles.Valid roles := by
  rw [Value.toRoles_eq_some hroles] at h
  simp only [rolesValid, arrayNotEmpty, arrayUnique, Bool.and_eq_true, unique_strings] at h
  obtain ⟨⟨⟨_, hne⟩, hnodup⟩, _⟩ := h
  exact (Roles.valid_iff rfl).mpr ⟨by simpa using hne, hnodup⟩

theorem Value.toField_eq_some {α : Type} {f : Value → Option α} {v : Value} {x : Field α}
    (h : v.toField f = some x) :
    v = .undefined ∧ x = .undefined ∨ v = .null ∧ x = .null ∨
      ∃ a, f v = some a ∧ x = .value a := by
  cases v with
  | undefined => exact .inl ⟨rfl, (Option.some.inj h).symm⟩
  | null => exact .inr (.inl ⟨rfl, (Option.some.inj h).symm⟩)
  | _ =>
      simp only [toField, Option.map_eq_some_iff] at h
      obtain ⟨a, ha, rfl⟩ := h
      exact .inr (.inr ⟨a, ha, rfl⟩)

/-- So are they where the property is optional, except for `null`. -/
theorem rolesValid.field {v : Value} {roles : Field (List AccessRole)}
    (h : isOptional rolesValid v = true) (hnull : v ≠ .null)
    (hroles : v.toField Value.toRoles = some roles) :
    roles = .undefined ∨ roles.ValidRoles := by
  rcases Value.toField_eq_some hroles with ⟨_, rfl⟩ | ⟨rfl, _⟩ | ⟨list, hlist, rfl⟩
  · exact .inl rfl
  · exact absurd rfl hnull
  · obtain rfl := Value.toRoles_eq_some hlist
    exact .inr ⟨list, rfl, rolesValid.valid h hlist⟩

theorem AddUserCommand.foldlM_getRoles {names : List String} {allRoles roles : List AccessRole}
    (h : names.foldlM getRoles allRoles = some roles) :
    roles.map AccessRole.name = allRoles.map AccessRole.name ++ names := by
  induction names generalizing allRoles with
  | nil =>
      cases h
      rw [List.append_nil]
  | cons s names ih =>
      rw [List.foldlM_cons] at h
      obtain ⟨_, hget, h⟩ := Option.bind_eq_some_iff.mp h
      obtain ⟨role, hrole, rfl⟩ := Option.map_eq_some_iff.mp hget
      rw [ih h, List.map_append, List.append_assoc, List.map_singleton,
        AccessRole.parse_eq_some hrole, List.singleton_append]

/-- A new account gets roles, and a changed one keeps its roles or gets new ones. -/
theorem UserRequest.call_cases {r : UserRequest} {c : Call} (hcall : r.call = some c)
    (hgives : r.GivesRoles) :
    (∀ login data, c.Creates π login data → data.roles.ValidRoles) ∧
      ∀ login data, c.Updates π login data → data.roles = .undefined ∨ data.roles.ValidRoles := by
  cases r with
  | create body =>
      obtain ⟨haccepts, hdto⟩ := Option.ite_none_right_eq_some.mp hcall
      obtain ⟨user, huser, rfl⟩ := Option.map_eq_some_iff.mp hdto
      simp only [UserBody.toUserDto, Option.bind_eq_bind, Option.bind_eq_some_iff] at huser
      obtain ⟨login, _, password, _, roles, hroles, description, _, huser⟩ := huser
      cases huser
      simp only [UserDto.accepts, Bool.and_eq_true] at haccepts
      refine ⟨?_, fun login data hc => hc.elim⟩
      rintro _ _ ⟨_, _, _, rfl⟩
      exact ⟨roles, rfl, rolesValid.valid haccepts.1.2 hroles⟩
  | update body =>
      obtain ⟨haccepts, hdto⟩ := Option.ite_none_right_eq_some.mp hcall
      obtain ⟨user, huser, rfl⟩ := Option.map_eq_some_iff.mp hdto
      simp only [UserBody.toUpdateUserDto, Option.bind_eq_bind, Option.bind_eq_some_iff] at huser
      obtain ⟨login, _, roles, hroles, description, _, huser⟩ := huser
      cases huser
      simp only [UpdateUserDto.accepts, Bool.and_eq_true] at haccepts
      refine ⟨fun login data hc => hc.elim, ?_⟩
      rintro _ _ ⟨_, _, rfl⟩
      exact rolesValid.field haccepts.1.2 hgives hroles
  | addUser options =>
      obtain ⟨roles, hroles, rfl⟩ := Option.map_eq_some_iff.mp hcall
      have hnames := AddUserCommand.foldlM_getRoles hroles
      refine ⟨?_, fun login data hc => hc.elim⟩
      rintro _ _ ⟨_, _, _, rfl⟩
      exact ⟨roles, rfl, (Roles.valid_iff hnames).mpr ⟨options.roles_ne_nil, hgives⟩⟩
  | createAdmin =>
      cases hcall
      refine ⟨?_, fun login data hc => hc.elim⟩
      rintro _ _ ⟨_, _, rfl⟩
      exact ⟨_, rfl, (Roles.valid_iff rfl).mpr (by decide)⟩
  | remove body =>
      obtain ⟨_, hdto⟩ := Option.ite_none_right_eq_some.mp hcall
      obtain ⟨login, _, rfl⟩ := Option.map_eq_some_iff.mp hdto
      exact ⟨fun login data hc => hc.elim, fun login data hc => hc.elim⟩
  | removeUser username =>
      cases hcall
      exact ⟨fun login data hc => hc.elim, fun login data hc => hc.elim⟩

/-! ## Runs -/

namespace Call

def ManagesUsers : Call → Prop
  | .create _ => True
  | .update _ => True
  | .remove _ => True
  | .createAdmin => True
  | _ => False

/-- A call that manages users is made by a request that satisfies `P`. -/
def Requested (P : UserRequest → Prop) (c : Call) : Prop :=
  c.ManagesUsers → ∃ r : UserRequest, r.call = some c ∧ P r

theorem Requested.creates {c : Call} (h : c.Requested UserRequest.GivesRoles) {login : UserLogin}
    {data : CreateUserData} (hc : c.Creates π login data) : data.roles.ValidRoles := by
  have hmanages : c.ManagesUsers := by
    cases c with
    | create user => trivial
    | createAdmin => trivial
    | _ => exact hc.elim
  obtain ⟨r, hr, hgives⟩ := h hmanages
  exact (UserRequest.call_cases hr hgives).1 login data hc

theorem Requested.updates {c : Call} (h : c.Requested UserRequest.GivesRoles) {login : UserLogin}
    {data : UpdateUserData} (hc : c.Updates π login data) :
    data.roles = .undefined ∨ data.roles.ValidRoles := by
  have hc' := hc
  cases c with
  | update updateUser =>
      obtain ⟨r, hr, hgives⟩ := h trivial
      exact (UserRequest.call_cases hr hgives).2 login data hc
  | updatePassword userLogin currentPassword newPassword =>
      obtain ⟨_, _, rfl⟩ := hc
      exact .inl rfl
  | resetAdminPassword =>
      obtain ⟨_, _, rfl⟩ := hc
      exact .inl rfl
  | _ => exact hc.elim

end Call

/-- The calls a run starts are made by requests that satisfy `P`. -/
def StartsRequested (P : UserRequest → Prop) (_ : Service.Config) : Service.Act → Prop
  | .start _ c => c.Requested P
  | _ => True

/-- The invariant of a run: the ledger, its calls and its records. -/
structure RolesKept (π : Platform) (g : Service.Config) : Prop where
  ledger : Ledger π g
  calls : ∀ i t, g.threads i = some t → t.call.Requested UserRequest.GivesRoles
  records : EveryRecord (fun _ user => user.roles.ValidRoles) g

theorem RolesKept.move {g h : Service.Config} {a : Service.Act} (hg : RolesKept π g)
    (hok : StartsRequested UserRequest.GivesRoles g a) (hmove : Move (Step π) Platform.env g a h) :
    RolesKept π h where
  ledger := hg.ledger.move hmove
  calls i t hi := by
    rcases hmove.ran hi with hi₀ | ⟨o, hruns, _⟩
    · exact hg.calls i t hi₀
    · cases hruns with
      | start => exact hok
      | resume hi₀ => exact (hg.calls i _ hi₀ :)
  records := by
    have hcall : ∀ {i c q}, g.Runs i c (some q) a → c.Requested UserRequest.GivesRoles := by
      intro i c q hruns
      cases hruns with
      | resume hi => exact hg.calls i _ hi
    refine hg.records.move hg.ledger (fun _ _ huser => huser)
      (fun i c login data password hc hruns => (hcall hruns).creates hc)
      (fun i c login data user hc huser hruns => ?_) hmove
    rcases (hcall hruns).updates hc with hnone | hvalid
    · simpa only [IUserData.merge, hnone, Field.override_undefined] using huser
    · obtain ⟨list, hlist, hvalid⟩ := hvalid
      exact ⟨list, by rw [IUserData.merge, hlist]; rfl, hvalid⟩

/-- In every run of such requests, every record the store holds or has held has
valid roles. -/
theorem roles_valid {as : List Service.Act} {s : Service.State}
    (hrun : π.system.Run (StartsRequested UserRequest.GivesRoles) Service.initial as s) {n : Nat}
    {login : UserLogin}
    {user : IUserData} (huser : s.world.users.version n login = some user) :
    user.roles.ValidRoles := by
  have hs : RolesKept π s.config :=
    hrun.invariant (RolesKept π) (system_obeys π) (fun _ _ _ hok hmove hg => hg.move hok hmove)
      (Service.initial_obeys π)
      { ledger := .empty _ rfl, records := .empty rfl, calls := fun i t hi => by cases hi }
  exact hs.records.version huser

/-- `PUT` with the account "bob". -/
def putBob : UserBody :=
  { login := .string "bob", password := .string "first", roles := .array [.string "user"],
    description := .undefined }

/-- `PATCH` with `{ "login": "bob", "roles": ["read-only", "user"] }`. -/
def patchBob : UserBody :=
  { login := .string "bob", password := .undefined,
    roles := .array [.string "read-only", .string "user"], description := .undefined }

/-- "bob" is created, and his roles are changed. -/
def patchedRoles : List Service.Act :=
  [.start 0 (createBob "first"), .resume 0 (.resolve 0), .env .commit,
    .start 1 (.update
      { login := .value "bob", roles := .value [.readOnly, .user], description := .undefined }),
    .resume 1 (.resolve 0), .env .commit]

theorem roles_valid_bob :
    ∃ s, Platform.sample.system.Run (StartsRequested UserRequest.GivesRoles) Service.initial
        patchedRoles s ∧
      (∃ user, s.world.users.version 2 "bob" = some user ∧
        user.roles = .value [.readOnly, .user]) ∧
      ∀ n user, s.world.users.version n "bob" = some user → user.roles.ValidRoles := by
  have hrun : Platform.sample.system.Run (StartsRequested UserRequest.GivesRoles) Service.initial
      patchedRoles (Platform.sample.system.outcome Service.initial patchedRoles) := by
    refine System.run_outcome_of rfl fun n hn => ?_
    have hn6 : n < 6 := hn
    interval_cases n
    · exact fun _ => ⟨.create putBob, by decide, trivial⟩
    all_goals first
      | trivial
      | exact fun _ => ⟨.update patchBob, by decide, fun h => by cases h⟩
  exact ⟨_, hrun, ⟨_, rfl, rfl⟩, fun n user => roles_valid hrun⟩

/-- `PATCH` with `{ "login": "bob", "roles": null }`. -/
def patchBobNull : UserBody :=
  { login := .string "bob", password := .undefined, roles := .null, description := .undefined }

def patchedNull : List Service.Act :=
  [.start 0 (createBob "first"), .resume 0 (.resolve 0), .env .commit,
    .start 1 (.update { login := .value "bob", roles := .null, description := .undefined }),
    .resume 1 (.resolve 0), .env .commit]

/-- `null` passes the decorators and is stored. -/
theorem roles_not_valid_null :
    ¬ ∀ (as : List Service.Act) (s : Service.State) (login : UserLogin) (user : IUserData),
      Platform.sample.system.Run (StartsRequested fun _ => True) Service.initial as s →
      s.world.users.get login = some user → user.roles.ValidRoles := by
  intro h
  have hrun : Platform.sample.system.Run (StartsRequested fun _ => True) Service.initial
      patchedNull (Platform.sample.system.outcome Service.initial patchedNull) := by
    refine System.run_outcome_of rfl fun n hn => ?_
    have hn6 : n < 6 := hn
    interval_cases n
    · exact fun _ => ⟨.create putBob, by decide, trivial⟩
    all_goals first
      | trivial
      | exact fun _ => ⟨.update patchBobNull, by decide, trivial⟩
  obtain ⟨roles, hroles, _⟩ := h _ _ "bob" _ hrun rfl
  cases hroles

end RpiNestApi
