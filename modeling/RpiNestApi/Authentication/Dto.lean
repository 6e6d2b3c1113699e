import RpiNestApi.Values

/-
Roles, bodies and tokens of the authentication module.
-/

namespace RpiNestApi

def adminUserName : String := "admin"

inductive AccessRole where
  | admin
  | user
  | readOnly
  deriving DecidableEq, Repr

structure UserDto where
  login : String
  password : String
  roles : List AccessRole
  description : Field String
  deriving DecidableEq, Repr

structure UpdateUserDto where
  login : Field String
  roles : Field (List AccessRole)
  description : Field String
  deriving DecidableEq, Repr

structure AccessTokenPayload where
  sub : String
  roles : Field (List AccessRole)
  modified : Nat
  deriving DecidableEq, Repr

structure AccessTokenDto where
  token : String
  deriving DecidableEq, Repr

/-- A role is in a stored list.  A list that is `null` has none. -/
def Field.HasRole : Field (List AccessRole) → AccessRole → Prop
  | .value roles, role => role ∈ roles
  | _, _ => False

instance (roles : Field (List AccessRole)) (role : AccessRole) : Decidable (roles.HasRole role) :=
  match roles with
  | .value rs => inferInstanceAs (Decidable (role ∈ rs))
  | .undefined => inferInstanceAs (Decidable False)
  | .null => inferInstanceAs (Decidable False)

end RpiNestApi
