import RpiNestApi.Value

/-
The validators of `class-validator` that the bodies are decorated with.

A property that is absent from a body is `undefined`.  The `ValidationPipe` lets a
body through if every decorator of every property accepts its value.
-/

namespace RpiNestApi.ClassValidator

/-- `a === b`, where two objects or arrays of a body are never the same. -/
def strictEq : Value → Value → Bool
  | .undefined, .undefined => true
  | .null, .null => true
  | .boolean a, .boolean b => a == b
  | .number p, .number q => p == q
  | .string s, .string t => s == t
  | _, _ => false

/-- All other validators of a property are skipped where it is absent or `null`. -/
def isOptional (validate : Value → Bool) : Value → Bool
  | .undefined => true
  | .null => true
  | value => validate value

def isDefined : Value → Bool
  | .undefined => false
  | .null => false
  | _ => true

def isNotEmpty : Value → Bool
  | .undefined => false
  | .null => false
  | .string s => s ≠ ""
  | _ => true

def isString : Value → Bool
  | .string _ => true
  | _ => false

def notEquals (s : String) (value : Value) : Bool := !strictEq value (.string s)

def isIn (values : List String) (value : Value) : Bool :=
  values.any fun s => strictEq (.string s) value

def isArray : Value → Bool
  | .array _ => true
  | _ => false

def arrayNotEmpty : Value → Bool
  | .array xs => !xs.isEmpty
  | _ => false

def unique : List Value → Bool
  | [] => true
  | x :: xs => !xs.any (strictEq x) && unique xs

def arrayUnique : Value → Bool
  | .array xs => unique xs
  | _ => false

/-- The option `each` of a validator. -/
def each (validate : Value → Bool) : Value → Bool
  | .array xs => xs.all validate
  | value => validate value

def isNumber : Value → Bool
  | .number _ => true
  | _ => false

def max (bound : Rat) : Value → Bool
  | .number q => q ≤ bound
  | _ => false

def min (bound : Rat) : Value → Bool
  | .number q => bound ≤ q
  | _ => false

/-- `length` counts the characters of a string, as `validator` counts them. -/
def maxLength (length : String → Nat) (bound : Nat) : Value → Bool
  | .string s => length s ≤ bound
  | _ => false

/-- `isIP` decides for a version of the protocol. -/
def isIP (isIP : Nat → String → Bool) (version : Nat) : Value → Bool
  | .string s => isIP version s
  | _ => false

/-- Every property has a decorator. -/
def whitelisted (names : List String) (fields : List (String × Value)) : Bool :=
  fields.all fun p => names.contains p.1

mutual

/-- `validate` decides for one object.  The elements of an array are validated
like the value itself. -/
def validateNested (validate : List (String × Value) → Bool) : Value → Bool
  | .undefined => true
  | .null => true
  | .object fields => validate fields
  | .array xs => validateAll validate xs
  | _ => false

def validateAll (validate : List (String × Value) → Bool) : List Value → Bool
  | [] => true
  | x :: xs => validateNested validate x && validateAll validate xs

end

@[simp] theorem strictEq_string {s : String} {v : Value} :
    strictEq (.string s) v = true ↔ v = .string s := by
  cases v with
  | string t =>
      simp only [strictEq, beq_iff_eq, Value.string.injEq]
      exact eq_comm
  | _ => simp [strictEq]

theorem isIn_iff {values : List String} {v : Value} :
    isIn values v = true ↔ ∃ s ∈ values, v = .string s := by
  simp [isIn]

theorem isOptional_iff {validate : Value → Bool} {v : Value} :
    isOptional validate v = true ↔ v = .undefined ∨ v = .null ∨ validate v = true := by
  cases v <;> simp [isOptional]

/-- Distinct strings are what `unique` leaves of a list of strings. -/
theorem unique_strings {ss : List String} : unique (ss.map .string) = true ↔ ss.Nodup := by
  induction ss with
  | nil => simp [unique]
  | cons s ss ih =>
      simp only [List.map_cons, unique, Bool.and_eq_true, ih, List.nodup_cons, Bool.not_eq_true',
        List.any_map, List.any_eq_false, Function.comp_apply, strictEq_string,
        Value.string.injEq]
      exact and_congr_left fun _ => ⟨fun h hs => h s hs rfl, fun h t ht he => h (he ▸ ht)⟩

end RpiNestApi.ClassValidator
