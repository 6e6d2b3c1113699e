import RpiNestApi.Datastore.UserRepository

/-
`UserService`, `AuthenticationService` and the system they run in.
-/

namespace RpiNestApi

open Async

namespace CryptoService

def getDeviceDefaultPassword : Service String := await .getDeviceDefaultPassword

def hashPassword (plainTextPassword : String) : Service String :=
  await (.hashPassword plainTextPassword)

/-- Compare with the hash stored in `user`. -/
def comparePasswords (plainTextPassword : String) (user : IUserData) : Service Bool :=
  await (.comparePasswords plainTextPassword user)

end CryptoService

namespace UserService

def create (user : UserDto) : Service Unit := do
  if user.login = adminUserName then
    throw (.forbidden "Login \"admin\" is reserved and cannot be created")
  else
    let passwordHash ← CryptoService.hashPassword user.password
    UserRepository.create user.login
      { passwordHash, roles := .value user.roles, description := user.description }

/-- No record is ever stored under `null`, so the repository finds none. -/
def update (updateUser : UpdateUserDto) : Service Unit := do
  match updateUser.login with
  | .undefined => throw (.badRequest "Username not provided")
  | .null => throw (.error "Could not update unknown user")
  | .value login =>
    if login = adminUserName then
      throw (.forbidden "Login \"admin\" is reserved and cannot be created")
    else
      UserRepository.update login
        { roles := updateUser.roles, description := updateUser.description }

def remove (login : UserLogin) : Service Unit := do
  if login = adminUserName then
    throw (.forbidden "Login \"admin\" is reserved and cannot be removed")
  else
    UserRepository.remove login

def adminData (passwordHash : String) : CreateUserData :=
  { passwordHash, roles := .value [.admin], description := .value "The default admin user" }

def createAdmin : Service Unit := do
  let defaultPassword ← CryptoService.getDeviceDefaultPassword
  let passwordHash ← CryptoService.hashPassword defaultPassword
  UserRepository.create adminUserName (adminData passwordHash)

end UserService

namespace AuthenticationService

def getUserOrThrow (userLogin : UserLogin) : Service IUserData := do
  let user ← UserRepository.getByLogin userLogin
  await (.user userLogin user)
  match user with
  | none => throw .unauthorized
  | some user => return user

def getAuthenticatedUserOrThrow (userLogin : UserLogin) (password : String) :
    Service IUserData := do
  let user ← getUserOrThrow userLogin
  let isPasswordCorrect ← CryptoService.comparePasswords password user
  if isPasswordCorrect = false then
    throw .unauthorized
  else
    return user

def updateUserPassword (userLogin : UserLogin) (newPassword : String) : Service Unit := do
  let passwordHash ← CryptoService.hashPassword newPassword
  UserRepository.update userLogin { passwordHash := some passwordHash }

def login (login : UserLogin) (password : String) : Service AccessTokenDto := do
  let user ← getAuthenticatedUserOrThrow login password
  let token ← await (.signAsync { sub := login, roles := user.roles, modified := user.modified })
  return { token }

def updatePassword (userLogin : UserLogin) (currentPassword newPassword : String) :
    Service Unit := do
  let _ ← getAuthenticatedUserOrThrow userLogin currentPassword
  updateUserPassword userLogin newPassword

def resetAdminPassword : Service Unit := do
  let settings ← SettingsRepository.get
  await (.getSettings settings)
  if settings.isAdminPasswordResetEnabled = some false then
    throw (.forbidden "Password reset is forbidden")
  else
    let defaultPassword ← CryptoService.getDeviceDefaultPassword
    updateUserPassword adminUserName defaultPassword

end AuthenticationService

/-! ## The system -/

inductive Call where
  | create (user : UserDto)
  | update (updateUser : UpdateUserDto)
  | remove (userLogin : UserLogin)
  | createAdmin
  | login (userLogin : UserLogin) (password : String)
  | updatePassword (userLogin : UserLogin) (currentPassword newPassword : String)
  | resetAdminPassword
  | resetSettings
  | updateSettings (data : Option (Option Bool))
  deriving DecidableEq, Repr

inductive Response where
  | void
  | token (dto : AccessTokenDto)
  deriving DecidableEq, Repr

def Call.body : Call → Service Response
  | .create user => do UserService.create user; return .void
  | .update updateUser => do UserService.update updateUser; return .void
  | .remove userLogin => do UserService.remove userLogin; return .void
  | .createAdmin => do UserService.createAdmin; return .void
  | .login userLogin password => do
    let token ← AuthenticationService.login userLogin password
    return .token token
  | .updatePassword userLogin currentPassword newPassword => do
    AuthenticationService.updatePassword userLogin currentPassword newPassword
    return .void
  | .resetAdminPassword => do AuthenticationService.resetAdminPassword; return .void
  | .resetSettings => do SettingsRepository.resetDefaults; return .void
  | .updateSettings data => do SettingsRepository.update data; return .void

/-- How the environment answers a promise.  A call that leaves the process may
reject with any error. -/
inductive Choice where
  | resolve (salt : Nat)
  | reject (e : Exception)

/-- The environment's own moves: the store commits, and time passes. -/
inductive Env where
  | commit
  | clock (now : Nat)

/-- Milliseconds to the seconds a token counts in. -/
def seconds (now : Nat) : Nat := now / 1000

namespace Platform

variable (π : Platform)

def answer : (q : Await) → Choice → World → Option (Except Exception q.Answer × World)
  | .user _ _, .resolve _, w => some (.ok (), w)
  | .updating _ _ _, .resolve _, w => some (.ok (), w)
  | .written ticket, .resolve _, w =>
    if w.users.Committed ticket then some (.ok (), w) else none
  | .hashPassword password, .resolve salt, w => some (.ok (π.bcrypt.hash password salt), w)
  | .comparePasswords password user, .resolve _, w =>
    some (.ok (π.bcrypt.compare password user.passwordHash), w)
  | .getDeviceDefaultPassword, .resolve _, w => some (.ok π.deviceDefaultPassword, w)
  | .signAsync payload, .resolve _, w =>
    some (.ok (π.jwtService.sign payload (seconds w.clock)),
      { w with issued := w.issued ++ [(payload, seconds w.clock)] })
  | .getSettings _, .resolve _, w => some (.ok (), w)
  | .settingsWritten, .resolve _, w => some (.ok (), w)
  | .hashPassword _, .reject e, w => some (.error e, w)
  | .comparePasswords _ _, .reject e, w => some (.error e, w)
  | .getDeviceDefaultPassword, .reject e, w => some (.error e, w)
  | .signAsync _, .reject e, w => some (.error e, w)
  | _, .reject _, _ => none

def env : Env → World → Option World
  | .commit, w => w.users.commit.map fun users => { w with users }
  | .clock now, w => some { w with clock := now }

def system : System World Await Await.Answer Exception Response Call Choice Env :=
  { body := Call.body, accept := fun _ w => some w, answer := π.answer, env := Platform.env }

end Platform

abbrev Service.Thread := Async.Thread Await Exception Response Call
abbrev Service.Config := Async.Config World Await Exception Response Call
abbrev Service.State := Async.State World Await Await.Answer Exception Response Call
abbrev Service.Act := Async.Act Call Choice Env

def World.empty : World :=
  { users := .empty, settings := none, clock := 0, issued := [] }

/-! Requests about an account "bob", for runs on given inputs. -/

def createBob (password : String) : Call :=
  .create { login := "bob", password, roles := [.user], description := .undefined }

def describeBob (description : String) : Call :=
  .update { login := .value "bob", roles := .undefined, description := .value description }

end RpiNestApi
