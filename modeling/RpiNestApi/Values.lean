/-
Values the services exchange: optional properties of a body, the exceptions a
handler ends with, and splitting of strings.
-/
import Mathlib.Data.List.Basic

namespace RpiNestApi

/-- An optional property of an object: absent or `undefined`, `null`, or a
value. -/
inductive Field (α : Type) where
  | undefined
  | null
  | value (a : α)
  deriving DecidableEq, Repr

namespace Field

variable {α : Type}

/-- The property of `{ ...object, ...changes }`, where an undefined property of
`changes` is not one of its own properties. -/
def override : Field α → Field α → Field α
  | .undefined, old => old
  | new, _ => new

@[simp] theorem override_undefined (old : Field α) : override .undefined old = old := rfl

theorem override_of_ne {new : Field α} (h : new ≠ .undefined) (old : Field α) :
    new.override old = new := by
  cases new with
  | undefined => exact absurd rfl h
  | null => rfl
  | value a => rfl

end Field

/-- What a handler throws.  The HTTP exceptions carry their response's message. -/
inductive Exception where
  | badRequest (message : String)
  | unauthorized
  | forbidden (message : String)
  | conflict (message : String)
  | internalServerError (message : String)
  | error (message : String)
  deriving DecidableEq, Repr

theorem map_eq_ok {α β : Type} {r : Except Exception α} {f : α → β} {b : β} :
    r.map f = .ok b ↔ ∃ a, r = .ok a ∧ f a = b := by
  cases r <;> simp [Except.map]

theorem except_bind_eq_ok {α β : Type} {x : Except Exception α} {f : α → Except Exception β}
    {b : β} : x.bind f = .ok b ↔ ∃ a, x = .ok a ∧ f a = .ok b := by
  cases x with
  | error e => simp [Except.bind]
  | ok a => simp [Except.bind]

/-- `s.split(sep)` for a separator of one character.  There is always a first
part, which is empty when `s` is. -/
def split (sep : Char) (s : String) : List String := (s.toList.splitOn sep).map String.ofList

end RpiNestApi
