import RpiNestApi.Datastore.World

/-
`UserRepository` and `SettingsRepository`.

Each method is the program of its source.  An `await` on a repository method
suspends the caller even where the method itself awaits nothing, so that the
read of `getByLogin` and the use its caller makes of it are two steps.

LMDB refuses a key of more than 1978 bytes.  Logins are assumed to be shorter, so that every
write that is issued can be committed.
-/

namespace RpiNestApi

open Async

/-- The record `{ ...user, ...data, modified }`. -/
def IUserData.merge (user : IUserData) (data : UpdateUserData) (modified : Nat) : IUserData :=
  { user with
    passwordHash := data.passwordHash.getD user.passwordHash
    description := data.description.override user.description
    roles := data.roles.override user.roles
    modified }

/-- The record `{ ...data, login, created, modified: created }`. -/
def CreateUserData.record (data : CreateUserData) (login : UserLogin) (created : Nat) :
    IUserData :=
  { login, passwordHash := data.passwordHash, description := data.description,
    roles := data.roles, created, modified := created }

namespace World

/-- Issue a write of `login`. -/
def write (w : World) (login : UserLogin) (o : Option IUserData) : World :=
  { w with users := w.users.issue login o }

@[simp] theorem users_write (w : World) (login : UserLogin) (o : Option IUserData) :
    (w.write login o).users = w.users.issue login o := rfl

end World

namespace UserRepository

def getByLogin (userLogin : UserLogin) : Service (Option IUserData) := do
  let w ← Prog.read
  return w.users.get userLogin

/-- Issue a write and await its commit. -/
def put (userLogin : UserLogin) (o : Option IUserData) : Service Unit := do
  let w ← Prog.read
  Prog.modify fun w => w.write userLogin o
  await (.written w.users.writes.length)

def create (userLogin : UserLogin) (data : CreateUserData) : Service Unit := do
  let w ← Prog.read
  if w.users.doesExist userLogin then
    throw (.error "User already exists")
  else
    put userLogin (some (data.record userLogin w.clock))

def update (userLogin : UserLogin) (data : UpdateUserData) : Service Unit := do
  let user ← getByLogin userLogin
  await (.updating userLogin data user)
  match user with
  | none => throw (.error "Could not update unknown user")
  | some user =>
    let w ← Prog.read
    put userLogin (some (user.merge data w.clock))

def remove (userLogin : UserLogin) : Service Unit := do
  let w ← Prog.read
  if w.users.doesExist userLogin = false then
    throw (.error "Could not remove unknown user")
  else
    put userLogin none

end UserRepository

/-! `SettingsRepository` bound to the key `authentication`. -/
namespace SettingsRepository

def defaultSettings : AuthenticationSettings := { isAdminPasswordResetEnabled := some true }

def get : Service AuthenticationSettings := do
  let w ← Prog.read
  match w.settings with
  | none => throw (.error "Settings \"authentication\" not initialized.")
  | some value => return value

def put (value : AuthenticationSettings) : Service Unit := do
  Prog.modify fun w => { w with settings := some value }
  await .settingsWritten

def resetDefaults : Service Unit := put defaultSettings

/-- `data` is `none` where it does not name `isAdminPasswordResetEnabled`. -/
def update (data : Option (Option Bool)) : Service Unit := do
  let currentValue ← get
  await (.getSettings currentValue)
  put { isAdminPasswordResetEnabled := data.getD currentValue.isAdminPasswordResetEnabled }

end SettingsRepository

end RpiNestApi
