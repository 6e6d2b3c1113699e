import Mathlib.Data.List.AList
import RpiNestApi.Async.Alone
import RpiNestApi.Value
import RpiNestApi.Values

/-
The settings store, for settings of any shape.

Each key holds an object of JavaScript, which has properties of its own, also such
that are `undefined`.  The store has its cache enabled and shows a write at once.
-/

namespace RpiNestApi.Settings

open Async

/-- An object by its own properties. -/
abbrev Obj := AList fun _ : String => Value

/-- `object[name]`. -/
def Obj.get (name : String) (object : Obj) : Value := (object.lookup name).getD .undefined

/-- `{ ...object, ...changes }`. -/
def Obj.spread (object changes : Obj) : Obj := changes ∪ object

theorem Obj.get_spread_of_mem {name : String} {changes : Obj} (h : name ∈ changes) (object : Obj) :
    get name (spread object changes) = get name changes := by
  rw [get, spread, AList.lookup_union_left h, get]

theorem Obj.get_spread_of_notMem {name : String} {changes : Obj} (h : name ∉ changes)
    (object : Obj) : get name (spread object changes) = get name object := by
  rw [get, spread, AList.lookup_union_right h, get]

/-- What is stored by the key. -/
abbrev World := String → Option Obj

/-- The promises of the repository. -/
inductive Await where
  | get (value : Obj)
  | isInitialized (isInitialized : Bool)
  | put (key : String)

@[reducible] def Await.Answer (_ : Await) : Type := Unit

abbrev Service (α : Type) := Prog World Await Await.Answer Exception α

namespace SettingsRepository

def get (key : String) : Service Obj := do
  let w ← Prog.read
  match w key with
  | none => throw (.error ("Settings \"" ++ key ++ "\" not initialized."))
  | some value =>
    Prog.call (.get value)
    return value

def isInitialized (key : String) : Service Bool := do
  let w ← Prog.read
  Prog.call (.isInitialized (w key).isSome)
  return (w key).isSome

def put (key : String) (value : Obj) : Service Unit := do
  Prog.modify fun w => Function.update w key (some value)
  Prog.call (.put key)

def update (key : String) (data : Obj) : Service Unit := do
  let currentValue ← get key
  put key (currentValue.spread data)

end SettingsRepository

/-- Where the store does not fail. -/
def answer (_ : Await) (_ : Unit) (w : World) : Option (Except Exception Unit × World) :=
  some (.ok (), w)

end RpiNestApi.Settings
