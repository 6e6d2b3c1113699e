import RpiNestApi.Async.Pool
import RpiNestApi.Store.WriteBehind
import RpiNestApi.Authentication.Platform

/-
The shared world of the user and authentication services, and the promises they
await.

The users store is opened with `cache: false` and a commit delay, so it is a
write-behind store.  The settings store has its cache enabled and shows a write
at once.
-/

namespace RpiNestApi

open Async

abbrev UserLogin := String

structure IUserData where
  login : String
  passwordHash : String
  description : Field String
  roles : Field (List AccessRole)
  created : Nat
  modified : Nat
  deriving DecidableEq, Repr

structure CreateUserData where
  passwordHash : String
  description : Field String
  roles : Field (List AccessRole)
  deriving DecidableEq, Repr

/-- A partial `CreateUserData`.  An undefined property or `none` is not set. -/
structure UpdateUserData where
  passwordHash : Option String := none
  description : Field String := .undefined
  roles : Field (List AccessRole) := .undefined
  deriving DecidableEq, Repr

/-- `isAdminPasswordResetEnabled` is `none` when the stored object lacks it. -/
structure AuthenticationSettings where
  isAdminPasswordResetEnabled : Option Bool
  deriving DecidableEq, Repr

/-- `clock` is what `Date.now()` reads, in milliseconds.  `issued` lists the
payload and the issue time, in seconds, of every token signed so far. -/
structure World where
  users : WriteBehind.Store UserLogin IUserData
  settings : Option AuthenticationSettings
  clock : Nat
  issued : List (AccessTokenPayload × Nat)

/-- The promises the services await, named after the method that makes them.
`getByLogin` is awaited in two places: `user` is the read a password is checked
against, and `updating` the read an update is merged into. -/
inductive Await where
  | user (login : UserLogin) (user : Option IUserData)
  | updating (login : UserLogin) (data : UpdateUserData) (user : Option IUserData)
  | written (ticket : Nat)
  | hashPassword (plainTextPassword : String)
  | comparePasswords (plainTextPassword : String) (user : IUserData)
  | getDeviceDefaultPassword
  | signAsync (payload : AccessTokenPayload)
  | getSettings (settings : AuthenticationSettings)
  | settingsWritten
  deriving DecidableEq, Repr

@[reducible] def Await.Answer : Await → Type
  | .hashPassword _ => String
  | .comparePasswords _ _ => Bool
  | .getDeviceDefaultPassword => String
  | .signAsync _ => String
  | _ => Unit

abbrev Service (α : Type) := Prog World Await Await.Answer Exception α

def await (q : Await) : Service q.Answer := Prog.call q

end RpiNestApi
