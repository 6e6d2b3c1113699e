import RpiNestApi.Value
import RpiNestApi.Values

/-
Reading variants.

What arrives over D-Bus is made of arrays, plain objects and variants.
`unwrapVariantDeep` looks for variants in it by their properties, so that a plain
object with a `value` and a `signature` passes for one too.
-/

namespace RpiNestApi

namespace Value

/-- The property of an object, and `undefined` where there is none of that name. -/
def field (name : String) (fields : List (String × Value)) : Value :=
  (fields.lookup name).getD .undefined

/-- `value[name]`.  No other values have a property with one of the names that are
read here. -/
def get (name : String) : Value → Except Exception Value
  | .undefined => .error (.error s!"Cannot read properties of undefined (reading '{name}')")
  | .null => .error (.error s!"Cannot read properties of null (reading '{name}')")
  | .object fields => .ok (field name fields)
  | .variant signature value =>
    .ok (if name = "value" then value
      else if name = "signature" then .string signature else .undefined)
  | _ => .ok .undefined

/-- `const { name } = object`, where the object is called `what` in the source. -/
def destructure (name what : String) : Value → Except Exception Value
  | .undefined =>
    .error (.error s!"Cannot destructure property '{name}' of '{what}' as it is undefined.")
  | .null => .error (.error s!"Cannot destructure property '{name}' of '{what}' as it is null.")
  | value => value.get name

/-- `value[0]`. -/
def first : Value → Except Exception Value
  | .undefined => .error (.error "Cannot read properties of undefined (reading '0')")
  | .null => .error (.error "Cannot read properties of null (reading '0')")
  | .array xs => .ok (xs.head?.getD .undefined)
  | .string s => .ok ((s.toList.head?.map fun c => .string (String.singleton c)).getD .undefined)
  | .buffer bytes => .ok ((bytes.head?.map fun b => .number b.toNat).getD .undefined)
  | .object fields => .ok (field "0" fields)
  | _ => .ok .undefined

end Value

/-- `obj.value !== undefined && obj.signature !== undefined` of a plain object. -/
def isVariantLike (fields : List (String × Value)) : Bool :=
  (Value.field "value" fields).isDefined && (Value.field "signature" fields).isDefined

mutual

def unwrapVariantDeep : Value → Except Exception Value
  | .undefined => .error (.error "Cannot read properties of undefined (reading 'value')")
  | .null => .error (.error "Cannot read properties of null (reading 'value')")
  | .variant signature .undefined => .ok (.variant signature .undefined)
  | .variant _ value => unwrapContents value
  | .array xs => (unwrapList xs).map .array
  | .object fields =>
    if isVariantLike fields then unwrapField "value" fields
    else (unwrapFields fields).map .object
  | value => .ok value

/-- `unwrapVariantDeep` after it has looked whether the value is a variant. -/
def unwrapContents : Value → Except Exception Value
  | .array xs => (unwrapList xs).map .array
  | .object fields => (unwrapFields fields).map .object
  | value => .ok value

def unwrapList : List Value → Except Exception (List Value)
  | [] => .ok []
  | x :: xs => do return (← unwrapVariantDeep x) :: (← unwrapList xs)

def unwrapFields : List (String × Value) → Except Exception (List (String × Value))
  | [] => .ok []
  | (name, x) :: fields => do return (name, ← unwrapVariantDeep x) :: (← unwrapFields fields)

/-- The contents of the first property with the name. -/
def unwrapField (name : String) : List (String × Value) → Except Exception Value
  | [] => .ok .undefined
  | (name', x) :: fields => if name = name' then unwrapContents x else unwrapField name fields

end

/-! ## Values of D-Bus -/

mutual

/-- D-Bus has neither `null` nor `undefined`. -/
def Value.isDBus : Value → Bool
  | .undefined => false
  | .null => false
  | .variant _ value => value.isDBus
  | .array xs => areDBus xs
  | .object fields => haveDBus fields
  | _ => true

def areDBus : List Value → Bool
  | [] => true
  | x :: xs => x.isDBus && areDBus xs

def haveDBus : List (String × Value) → Bool
  | [] => true
  | (_, x) :: fields => x.isDBus && haveDBus fields

end

theorem haveDBus_iff {fields : List (String × Value)} :
    haveDBus fields = true ↔ ∀ p ∈ fields, p.2.isDBus = true := by
  induction fields with
  | nil => simp [haveDBus]
  | cons p fields ih => simp [haveDBus, ih]

/-- The call has returned a value other than `null` and `undefined`. -/
def Unwrapped (r : Except Exception Value) : Prop :=
  ∃ v, r = .ok v ∧ v ≠ .null ∧ v ≠ .undefined

mutual

/-- What comes over D-Bus can be unwrapped. -/
theorem unwrapped_deep : ∀ v : Value, v.isDBus = true → Unwrapped (unwrapVariantDeep v)
  | .undefined, h => by simp [Value.isDBus] at h
  | .null, h => by simp [Value.isDBus] at h
  | .boolean b, _ => ⟨.boolean b, rfl, by simp, by simp⟩
  | .number q, _ => ⟨.number q, rfl, by simp, by simp⟩
  | .string s, _ => ⟨.string s, rfl, by simp, by simp⟩
  | .buffer bytes, _ => ⟨.buffer bytes, rfl, by simp, by simp⟩
  | .array xs, h => by
      obtain ⟨ys, hys⟩ := exists_unwrapList xs (by simpa only [Value.isDBus] using h)
      exact ⟨.array ys, by rw [unwrapVariantDeep, hys]; rfl, by simp, by simp⟩
  | .object fields, h => by
      rw [Value.isDBus] at h
      rw [unwrapVariantDeep]
      cases hlike : isVariantLike fields with
      | true =>
          simp only [isVariantLike, Bool.and_eq_true] at hlike
          exact unwrapped_field "value" fields h hlike.1
      | false =>
          obtain ⟨fields', hfields'⟩ := exists_unwrapFields fields h
          exact ⟨.object fields', by simp [hfields', Except.map], by simp, by simp⟩
  | .variant signature value, h => by
      rw [Value.isDBus] at h
      have hvalue : value ≠ .undefined := by
        rintro rfl
        simp [Value.isDBus] at h
      rw [unwrapVariantDeep]
      · exact unwrapped_contents value h
      · exact hvalue

theorem unwrapped_contents : ∀ v : Value, v.isDBus = true → Unwrapped (unwrapContents v)
  | .undefined, h => by simp [Value.isDBus] at h
  | .null, h => by simp [Value.isDBus] at h
  | .boolean b, _ => ⟨.boolean b, rfl, by simp, by simp⟩
  | .number q, _ => ⟨.number q, rfl, by simp, by simp⟩
  | .string s, _ => ⟨.string s, rfl, by simp, by simp⟩
  | .buffer bytes, _ => ⟨.buffer bytes, rfl, by simp, by simp⟩
  | .array xs, h => by
      obtain ⟨ys, hys⟩ := exists_unwrapList xs (by simpa only [Value.isDBus] using h)
      exact ⟨.array ys, by rw [unwrapContents, hys]; rfl, by simp, by simp⟩
  | .object fields, h => by
      obtain ⟨fields', hfields'⟩ :=
        exists_unwrapFields fields (by simpa only [Value.isDBus] using h)
      exact ⟨.object fields', by rw [unwrapContents, hfields']; rfl, by simp, by simp⟩
  | .variant signature value, _ => ⟨.variant signature value, rfl, by simp, by simp⟩

theorem exists_unwrapList : ∀ xs : List Value, areDBus xs = true → ∃ ys, unwrapList xs = .ok ys
  | [], _ => ⟨[], rfl⟩
  | x :: xs, h => by
      simp only [areDBus, Bool.and_eq_true] at h
      obtain ⟨y, hy, _⟩ := unwrapped_deep x h.1
      obtain ⟨ys, hys⟩ := exists_unwrapList xs h.2
      exact ⟨y :: ys, by rw [unwrapList, hy, hys]; rfl⟩

theorem exists_unwrapFields : ∀ fields : List (String × Value), haveDBus fields = true →
    ∃ fields', unwrapFields fields = .ok fields'
  | [], _ => ⟨[], rfl⟩
  | (name, x) :: fields, h => by
      simp only [haveDBus, Bool.and_eq_true] at h
      obtain ⟨y, hy, _⟩ := unwrapped_deep x h.1
      obtain ⟨fields', hfields'⟩ := exists_unwrapFields fields h.2
      exact ⟨(name, y) :: fields', by rw [unwrapFields, hy, hfields']; rfl⟩

theorem unwrapped_field : ∀ (name : String) (fields : List (String × Value)),
    haveDBus fields = true → (Value.field name fields).isDefined = true →
    Unwrapped (unwrapField name fields)
  | name, [], _, hdefined => by simp [Value.field, Value.isDefined] at hdefined
  | name, (name', x) :: fields, h, hdefined => by
      simp only [haveDBus, Bool.and_eq_true] at h
      rw [unwrapField]
      by_cases hname : name = name'
      · rw [if_pos hname]
        exact unwrapped_contents x h.1
      · rw [if_neg hname]
        refine unwrapped_field name fields h.2 ?_
        rwa [Value.field, List.lookup_cons, beq_false_of_ne hname] at hdefined

end

/-! ## Properties of an unwrapped object -/

/-- Unwrapping keeps the names of the properties and unwraps each of them. -/
theorem lookup_unwrapFields {fields fields' : List (String × Value)}
    (h : unwrapFields fields = .ok fields') (name : String) :
    fields.lookup name = none ∧ fields'.lookup name = none ∨
      ∃ x y, fields.lookup name = some x ∧ unwrapVariantDeep x = .ok y ∧
        fields'.lookup name = some y := by
  induction fields generalizing fields' with
  | nil =>
      cases h
      exact .inl ⟨rfl, rfl⟩
  | cons p fields ih =>
      obtain ⟨name', x⟩ := p
      rw [unwrapFields] at h
      cases hx : unwrapVariantDeep x with
      | error e =>
          rw [hx] at h
          cases h
      | ok y =>
          cases hfields : unwrapFields fields with
          | error e =>
              rw [hx, hfields] at h
              cases h
          | ok rest =>
              rw [hx, hfields] at h
              cases h
              by_cases hname : name = name'
              · subst hname
                exact .inr ⟨x, y, by simp, hx, by simp⟩
              · simp only [List.lookup_cons, beq_false_of_ne hname]
                exact ih hfields

end RpiNestApi
