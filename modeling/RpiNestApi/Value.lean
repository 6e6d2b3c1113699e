/-
JavaScript values, as far as bodies of requests and D-Bus settings have them.
-/
import Mathlib.Data.Rat.Defs

namespace RpiNestApi

/-- A JavaScript value.  A variant carries its D-Bus signature, and a buffer holds the bytes
of an array of bytes. -/
inductive Value where
  | undefined
  | null
  | boolean (b : Bool)
  | number (q : Rat)
  | string (s : String)
  | buffer (bytes : List UInt8)
  | array (xs : List Value)
  | object (fields : List (String × Value))
  | variant (signature : String) (value : Value)

namespace Value

/-- `value !== undefined`. -/
def isDefined : Value → Bool
  | .undefined => false
  | _ => true

/-- `value === s` for a string `s`. -/
def isString (s : String) : Value → Bool
  | .string t => t == s
  | _ => false

/-- `value === null || value === undefined || value.length === 0`. -/
def isEmpty : Value → Bool
  | .undefined => true
  | .null => true
  | .string s => s.isEmpty
  | .buffer bytes => bytes.isEmpty
  | .array xs => xs.isEmpty
  | .object fields => match fields.lookup "length" with
    | some (.number q) => q == 0
    | _ => false
  | _ => false

end Value

end RpiNestApi
