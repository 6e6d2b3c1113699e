/-
Values of JSON documents and their properties.

An object carries its keys and a function for what they hold, so that a property is read
and written without regard to the order of the keys.  An array is an object as well, and
its keys are its indices.
-/
import Mathlib.Data.Rat.Defs
import Mathlib.Logic.Function.Basic

/-- A value of a document, or `undefined`. -/
inductive Json where
  | undefined
  | null
  | boolean (b : Bool)
  | number (q : Rat)
  | string (s : String)
  | object (isArray : Bool) (keys : List String) (fields : String → Json)

namespace Json

/-- The object of a list of properties. -/
def obj (properties : List (String × Json)) : Json :=
  .object false (properties.map (·.1)) (fun key => (properties.lookup key).getD .undefined)

/-- The array of a list of values. -/
def arr (values : List Json) : Json :=
  let indices := (List.range values.length).map toString
  .object true indices (fun key => ((indices.zip values).lookup key).getD .undefined)

def isObject : Json → Bool
  | .object _ _ _ => true
  | _ => false

def isArray : Json → Bool
  | .object isArray _ _ => isArray
  | _ => false

/-- `value === undefined`. -/
def isUndefined : Json → Bool
  | .undefined => true
  | _ => false

/-- `value === undefined || value === null`. -/
def isNullish : Json → Bool
  | .undefined => true
  | .null => true
  | _ => false

/-- The condition of an `if` on the value holds. -/
def isTruthy : Json → Bool
  | .undefined => false
  | .null => false
  | .boolean b => b
  | .number q => q != 0
  | .string s => s != ""
  | .object _ _ _ => true

/-- `value === s` for a string `s`. -/
def isString (s : String) : Json → Bool
  | .string t => t == s
  | _ => false

/-- The value without its properties. -/
def blank : Json → Json
  | .object isArray _ _ => .object isArray [] (fun _ => .undefined)
  | v => v

/-- The names of the properties. -/
def keys : Json → List String
  | .object _ keys _ => keys
  | _ => []

def has (o : Json) (key : String) : Bool := o.keys.contains key

/-- The value of a property, which is `undefined` when there is none of that name. -/
def get (o : Json) (key : String) : Json :=
  match o with
  | .object _ keys fields => if keys.contains key then fields key else .undefined
  | _ => .undefined

/-- The object with a property replaced, or added. -/
def set (o : Json) (key : String) (v : Json) : Json :=
  match o with
  | .object isArray keys fields =>
    .object isArray (if keys.contains key then keys else keys ++ [key])
      (Function.update fields key v)
  | o => o

def delete (o : Json) (key : String) : Json :=
  match o with
  | .object isArray keys fields => .object isArray (keys.filter (· != key)) fields
  | o => o

/-- The condition holds of every property. -/
def all (p : Json → Bool) (o : Json) : Bool := o.keys.all fun key => p (o.get key)

/-! ## Reading after writing -/

theorem mem_keys {o : Json} {key : String} : key ∈ o.keys ↔ o.has key = true := by
  rw [has, List.contains_iff_mem]

theorem all_iff {p : Json → Bool} {o : Json} :
    o.all p = true ↔ ∀ key, o.has key = true → p (o.get key) = true := by
  rw [all, List.all_eq_true]
  exact forall_congr' fun key => by rw [mem_keys]

theorem isObject_of_has {o : Json} {key : String} (h : o.has key = true) : o.isObject = true := by
  cases o with
  | object isArray keys fields => rfl
  | _ => cases h

theorem get_of_has_eq_false {o : Json} {key : String} (h : o.has key = false) :
    o.get key = .undefined := by
  cases o with
  | object isArray keys fields => exact if_neg (by rw [show keys.contains key = false from h]; simp)
  | _ => rfl

theorem has_of_isNullish {o : Json} {key : String} (h : (o.get key).isNullish = false) :
    o.has key = true := by
  by_contra hhas
  rw [get_of_has_eq_false (eq_false_of_ne_true hhas)] at h
  cases h

theorem isObject_of_isArray {v : Json} (h : v.isArray = true) : v.isObject = true := by
  cases v with
  | object isArray keys fields => rfl
  | _ => cases h

theorem isTruthy_of_isObject {v : Json} (h : v.isObject = true) : v.isTruthy = true := by
  cases v with
  | object isArray keys fields => rfl
  | _ => cases h

theorem isNullish_of_isObject {v : Json} (h : v.isObject = true) : v.isNullish = false := by
  cases v with
  | object isArray keys fields => rfl
  | _ => cases h

@[simp] theorem blank_set (o : Json) (key : String) (v : Json) : (o.set key v).blank = o.blank := by
  cases o <;> rfl

@[simp] theorem blank_delete (o : Json) (key : String) : (o.delete key).blank = o.blank := by
  cases o <;> rfl

theorem isObject_eq_of_blank {v w : Json} (h : v.blank = w.blank) : v.isObject = w.isObject := by
  cases v <;> cases w <;> first | rfl | cases h

theorem isArray_eq_of_blank {v w : Json} (h : v.blank = w.blank) : v.isArray = w.isArray := by
  cases v <;> cases w <;> first | rfl | injection h

theorem isTruthy_eq_of_blank {v w : Json} (h : v.blank = w.blank) :
    v.isTruthy = w.isTruthy := by
  cases v <;> cases w <;> first | rfl | (cases h; rfl) | cases h

@[simp] theorem isObject_delete (o : Json) (key : String) :
    (o.delete key).isObject = o.isObject := isObject_eq_of_blank (blank_delete o key)

theorem mem_keys_set {o : Json} (h : o.isObject = true) {key key' : String} (v : Json) :
    key' ∈ (o.set key v).keys ↔ key' = key ∨ key' ∈ o.keys := by
  cases o with
  | object isArray keys fields =>
      by_cases hkey : keys.contains key = true
      · have hkeys : (set (.object isArray keys fields) key v).keys = keys := if_pos hkey
        rw [hkeys]
        refine ⟨Or.inr, fun hor => hor.elim (fun heq => ?_) id⟩
        exact heq ▸ List.contains_iff_mem.mp hkey
      · have hkeys : (set (.object isArray keys fields) key v).keys = keys ++ [key] := if_neg hkey
        rw [hkeys, List.mem_append, List.mem_singleton, or_comm]
        exact Iff.rfl
  | _ => cases h

theorem has_eq_of_keys {o o' : Json} (h : o'.keys = o.keys) (key : String) :
    o'.has key = o.has key := by
  rw [has, has, h]

theorem keys_set_of_has {o : Json} {key : String} (h : o.has key = true) (v : Json) :
    (o.set key v).keys = o.keys := by
  cases o with
  | object isArray keys fields => exact if_pos h
  | _ => rfl

theorem has_set_self {o : Json} (h : o.isObject = true) (key : String) (v : Json) :
    (o.set key v).has key = true := by
  rw [← mem_keys, mem_keys_set h]
  exact Or.inl rfl

theorem has_set_of_ne {o : Json} {key key' : String} (h : key' ≠ key) (v : Json) :
    (o.set key v).has key' = o.has key' := by
  cases ho : o.isObject with
  | true => rw [Bool.eq_iff_iff, ← mem_keys, ← mem_keys, mem_keys_set ho, or_iff_right h]
  | false => cases o <;> first | rfl | cases ho

theorem get_set_self {o : Json} (h : o.isObject = true) (key : String) (v : Json) :
    (o.set key v).get key = v := by
  have hkey := has_set_self h key v
  cases o with
  | object isArray keys fields =>
      exact (if_pos hkey).trans (Function.update_self key v fields)
  | _ => cases h

theorem get_set_of_ne {o : Json} {key key' : String} (h : key' ≠ key) (v : Json) :
    (o.set key v).get key' = o.get key' := by
  have hkey : (o.set key v).has key' = o.has key' := has_set_of_ne h v
  cases o with
  | object isArray keys fields =>
      simp only [has, Json.keys, set] at hkey
      simp only [set, get, hkey, Function.update_of_ne h]
  | _ => rfl

/-- Writing what is there already changes nothing. -/
theorem set_get {o : Json} {key : String} (h : o.has key = true) : o.set key (o.get key) = o := by
  cases o with
  | object isArray keys fields =>
      have hkey : keys.contains key = true := h
      rw [get, if_pos hkey, set, if_pos hkey, Function.update_eq_self]
  | _ => cases h

theorem has_delete_self (o : Json) (key : String) : (o.delete key).has key = false := by
  cases o with
  | object isArray keys fields => simp [has, Json.keys, delete]
  | _ => rfl

theorem has_delete_of_ne {o : Json} {key key' : String} (h : key' ≠ key) :
    (o.delete key).has key' = o.has key' := by
  cases o with
  | object isArray keys fields => simp [has, Json.keys, delete, List.mem_filter, h]
  | _ => rfl

theorem get_delete_of_ne {o : Json} {key key' : String} (h : key' ≠ key) :
    (o.delete key).get key' = o.get key' := by
  have hkey : (o.delete key).has key' = o.has key' := has_delete_of_ne h
  cases o with
  | object isArray keys fields =>
      simp only [has, Json.keys, delete] at hkey
      simp only [delete, get, hkey]
  | _ => rfl

/-! ## What is left alone -/

/-- The values are the same, apart from the named properties. -/
structure SameBut (names : List String) (v w : Json) : Prop where
  blank : w.blank = v.blank
  has : ∀ key, key ∉ names → w.has key = v.has key
  get : ∀ key, key ∉ names → w.get key = v.get key

namespace SameBut

variable {names : List String} {u v w : Json}

theorem refl (names : List String) (v : Json) : SameBut names v v :=
  ⟨rfl, fun _ _ => rfl, fun _ _ => rfl⟩

theorem trans (h : SameBut names u v) (h' : SameBut names v w) : SameBut names u w where
  blank := h'.blank.trans h.blank
  has := fun key hkey => (h'.has key hkey).trans (h.has key hkey)
  get := fun key hkey => (h'.get key hkey).trans (h.get key hkey)

theorem mono {names' : List String} (h : SameBut names v w) (hsub : names ⊆ names') :
    SameBut names' v w where
  blank := h.blank
  has := fun key hkey => h.has key (fun hmem => hkey (hsub hmem))
  get := fun key hkey => h.get key (fun hmem => hkey (hsub hmem))

theorem isObject (h : SameBut names v w) : w.isObject = v.isObject := isObject_eq_of_blank h.blank

theorem isArray (h : SameBut names v w) : w.isArray = v.isArray := isArray_eq_of_blank h.blank

theorem set (o : Json) {key : String} (hkey : key ∈ names) (v : Json) :
    SameBut names o (o.set key v) where
  blank := blank_set o key v
  has := fun _ h => has_set_of_ne (ne_of_mem_of_not_mem hkey h).symm v
  get := fun _ h => get_set_of_ne (ne_of_mem_of_not_mem hkey h).symm v

end SameBut

end Json
