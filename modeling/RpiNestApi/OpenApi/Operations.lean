/-
What the default responses do to the operations of a document.

`Responded d v w` is the pass over one operation, where `d` says which response a status
has by default: a response that is there stays, and one that is missing becomes a reference.
-/
import RpiNestApi.OpenApi.Service

namespace RpiNestApi
namespace OpenApi

open Json

/-- A response, or a reference to the default one where it is missing. -/
def withDefault (name : Option AdditionalComponentNames) (response : Json) : Json :=
  match name with
  | some name => if response.isNullish then getResponseRef name else response
  | none => response

/-- The responses of `d` are added where they are missing, and nothing else is changed. -/
structure Responded (d : String → Option AdditionalComponentNames) (v w : Json) : Prop where
  sameBut : SameBut ["responses"] v w
  keys : w.keys = v.keys
  blank : (w.get "responses").blank = (v.get "responses").blank
  get : ∀ code, (w.get "responses").get code = withDefault (d code) ((v.get "responses").get code)
  has : ∀ code, (w.get "responses").has code = ((v.get "responses").has code || (d code).isSome)

/-- The default of one status. -/
def only (code : String) (name : AdditionalComponentNames) (code' : String) :
    Option AdditionalComponentNames :=
  if code' = code then some name else none

/-- The responses an operation has by default. -/
def defaults (method : Methods) (operation : Json) (code : String) :
    Option AdditionalComponentNames :=
  if code = "401" ∧ (operation.get "security").isUndefined = false then some .notAuthorized
  else if code = "400" ∧ method ≠ .get then some .invalidData
  else if code = "500" then some .internalServerError
  else none

theorem withDefault_of_isNullish_eq_false {response : Json} (h : response.isNullish = false)
    (name : Option AdditionalComponentNames) : withDefault name response = response := by
  cases name with
  | none => rfl
  | some name => exact if_neg (by simp [h])

theorem isNullish_withDefault_some (name : AdditionalComponentNames) (response : Json) :
    (withDefault (some name) response).isNullish = false := by
  cases h : response.isNullish with
  | true => rw [show withDefault (some name) response = getResponseRef name from if_pos h]; rfl
  | false => rw [withDefault_of_isNullish_eq_false h, h]

theorem withDefault_withDefault (name name' : Option AdditionalComponentNames) (response : Json) :
    withDefault name' (withDefault name response) = withDefault (name <|> name') response := by
  cases name with
  | none => rfl
  | some name =>
      exact withDefault_of_isNullish_eq_false (isNullish_withDefault_some name response) name'

namespace Responded

variable {d d' : String → Option AdditionalComponentNames} {u v w : Json}

theorem refl (v : Json) : Responded (fun _ => none) v v :=
  ⟨SameBut.refl _ v, rfl, rfl, fun _ => rfl, fun _ => (Bool.or_false _).symm⟩

theorem trans (h : Responded d u v) (h' : Responded d' v w) :
    Responded (fun code => d code <|> d' code) u w where
  sameBut := h.sameBut.trans h'.sameBut
  keys := h'.keys.trans h.keys
  blank := h'.blank.trans h.blank
  get := fun code => by rw [h'.get, h.get, withDefault_withDefault]
  has := fun code => by
    rw [h'.has, h.has, Bool.or_assoc]
    cases d code <;> rfl

theorem congr (h : Responded d v w) (hd : ∀ code, d code = d' code) : Responded d' v w := by
  rwa [show d' = d from funext fun code => (hd code).symm]

theorem isObject (h : Responded d v w) (hv : (v.get "responses").isObject = true) :
    (w.get "responses").isObject = true := (isObject_eq_of_blank h.blank).trans hv

/-- A response that is there stays there. -/
theorem isNullish (h : Responded d v w) {code : String}
    (hcode : ((v.get "responses").get code).isNullish = false) :
    ((w.get "responses").get code).isNullish = false := by
  rw [h.get, withDefault_of_isNullish_eq_false hcode, hcode]

theorem security (h : Responded d v w) : w.get "security" = v.get "security" :=
  h.sameBut.get "security" (by decide)

end Responded

section Operation

variable {operation : Json} {code : String} {name : AdditionalComponentNames}

/-! ## One response -/

theorem addResponse_of_isNullish_eq_false (name : AdditionalComponentNames)
    (h : (operation.get "responses").isObject = true)
    (hcode : ((operation.get "responses").get code).isNullish = false) :
    addResponse code name operation = .ok operation := by
  simp [addResponse, h, hcode]

theorem addResponse_of_isNullish (h : (operation.get "responses").isObject = true)
    (hcode : ((operation.get "responses").get code).isNullish = true) :
    addResponse code name operation = .ok (operation.set "responses"
      ((operation.get "responses").set code (getResponseRef name))) := by
  simp [addResponse, h, hcode]

theorem get_set_responses (h : (operation.get "responses").isObject = true) (v : Json) :
    (operation.set "responses" v).get "responses" = v :=
  get_set_self (isObject_of_has (has_of_isNullish (isNullish_of_isObject h))) "responses" v

theorem responded_set (name : AdditionalComponentNames)
    (h : (operation.get "responses").isObject = true)
    (hcode : ((operation.get "responses").get code).isNullish = true) :
    Responded (only code name) operation (operation.set "responses"
      ((operation.get "responses").set code (getResponseRef name))) where
  sameBut := SameBut.set operation (by simp) _
  keys := keys_set_of_has (has_of_isNullish (isNullish_of_isObject h)) _
  blank := by rw [get_set_responses h, blank_set]
  get := by
    intro code'
    rw [get_set_responses h]
    by_cases hne : code' = code
    · rw [hne, get_set_self h, only, if_pos rfl]
      exact (if_pos hcode).symm
    · rw [get_set_of_ne hne, only, if_neg hne]
      rfl
  has := by
    intro code'
    rw [get_set_responses h]
    by_cases hne : code' = code
    · rw [hne, has_set_self h, only, if_pos rfl, Option.isSome_some, Bool.or_true]
    · rw [has_set_of_ne hne, only, if_neg hne, Option.isSome_none, Bool.or_false]

theorem responded_of_isNullish_eq_false
    (hcode : ((operation.get "responses").get code).isNullish = false) :
    Responded (only code name) operation operation where
  sameBut := SameBut.refl _ operation
  keys := rfl
  blank := rfl
  get := by
    intro code'
    by_cases heq : code' = code
    · rw [heq, withDefault_of_isNullish_eq_false hcode]
    · rw [only, if_neg heq]
      rfl
  has := by
    intro code'
    by_cases heq : code' = code
    · rw [heq, has_of_isNullish hcode, Bool.true_or]
    · rw [only, if_neg heq, Option.isSome_none, Bool.or_false]

theorem settles_addResponse (code : String) (name : AdditionalComponentNames)
    (h : (operation.get "responses").isObject = true) :
    Settles (addResponse code name) (Responded (only code name)) operation := by
  cases hcode : ((operation.get "responses").get code).isNullish with
  | false =>
      have hfix := addResponse_of_isNullish_eq_false name h hcode
      exact ⟨operation, hfix, responded_of_isNullish_eq_false hcode, hfix⟩
  | true =>
      have hset := responded_set name h hcode
      refine ⟨_, addResponse_of_isNullish h hcode, hset, ?_⟩
      refine addResponse_of_isNullish_eq_false name (hset.isObject h) ?_
      rw [hset.get, only, if_pos rfl]
      exact isNullish_withDefault_some name _

/-! ## The responses of an operation -/

/-- A response that some operations have by default. -/
theorem settles_ite_addResponse {c : Json → Bool} (code : String)
    (name : AdditionalComponentNames) (h : (operation.get "responses").isObject = true) :
    Settles (fun v => if c v then addResponse code name v else .ok v)
      (Responded (fun code' => if c operation then only code name code' else none)) operation := by
  refine Settles.ite (fun hc => ?_) (fun hc => ?_)
  · refine (settles_addResponse code name h).mono fun w hw => hw.congr fun code' => ?_
    exact (if_pos hc).symm
  · exact (Responded.refl operation).congr fun code' => (if_neg (by simp [hc])).symm

/-- Other responses do not matter to a response that is there. -/
theorem ite_addResponse_fixed {c : Json → Bool} {d : String → Option AdditionalComponentNames}
    {u v w : Json} (hu : (u.get "responses").isObject = true)
    (h : Responded (fun code' => if c u then only code name code' else none) u v)
    (h' : Responded d v w) (hc : c w = c u) :
    (if c w then addResponse code name w else .ok w) = .ok w := by
  split
  · rename_i hcw
    refine addResponse_of_isNullish_eq_false name (h'.isObject (h.isObject hu)) (h'.isNullish ?_)
    rw [h.get, if_pos (hc ▸ hcw), only, if_pos rfl]
    exact isNullish_withDefault_some name _
  · rfl

/-- The responses that do not depend on the security of the operation. -/
def unconditional (method : Methods) (code : String) : Option AdditionalComponentNames :=
  (if method != .get then only "400" .invalidData code else none) <|>
    only "500" .internalServerError code

theorem settles_unconditional (method : Methods)
    (h : (operation.get "responses").isObject = true) :
    Settles (fun v => addInvalidData method v >>= addResponse "500" .internalServerError)
      (Responded (unconditional method)) operation := by
  have h400 := settles_ite_addResponse (c := fun _ => method != .get) "400" .invalidData h
  have hboth := h400.bind
    (fun v hv => settles_addResponse "500" .internalServerError (hv.isObject h))
    fun v w hv _ hw => ite_addResponse_fixed (c := fun _ => method != .get) h hv hw rfl
  exact hboth.mono fun w ⟨v, hv, hw⟩ => hv.trans hw

theorem defaults_eq (method : Methods) (operation : Json) (code : String) :
    ((if !(operation.get "security").isUndefined then only "401" .notAuthorized code else none) <|>
      unconditional method code) = defaults method operation code := by
  rw [unconditional, defaults, only, only, only]
  by_cases h401 : code = "401"
  · subst h401
    cases (operation.get "security").isUndefined <;> simp
  · by_cases h400 : code = "400"
    · subst h400
      by_cases hget : method = .get <;> simp [hget]
    · simp [h401, h400]

theorem settles_addResponses (method : Methods)
    (h : (operation.get "responses").isObject = true) :
    Settles (addResponses method) (Responded (defaults method operation)) operation := by
  have h401 := settles_ite_addResponse (c := fun v => !(v.get "security").isUndefined) "401"
    .notAuthorized h
  have hall := h401.bind (fun v hv => settles_unconditional method (hv.isObject h))
    fun v w hv _ hw => by
      refine ite_addResponse_fixed (c := fun v => !(v.get "security").isUndefined) h hv hw ?_
      rw [hw.security, hv.security]
  exact hall.mono fun w ⟨v, hv, hw⟩ => (hv.trans hw).congr (defaults_eq method operation)

end Operation

/-! ## The paths of a document -/

/-- An operation that a path has is completed. -/
structure MethodResponded (method : Methods) (v w : Json) : Prop where
  responded : v.isTruthy = true → Responded (defaults method v) v w
  skipped : v.isTruthy = false → w = v

theorem settles_addMethodResponses {method : Methods} {operation : Json}
    (h : isOperation operation = true) :
    Settles (addMethodResponses method) (MethodResponded method) operation := by
  refine Settles.ite (fun htruthy => ?_) (fun hfalsy => ?_)
  · have hresponses := (isOperation_iff.mp h htruthy).2
    refine (settles_addResponses method hresponses).mono fun w hw => ⟨fun _ => hw, fun hfalsy => ?_⟩
    rw [htruthy] at hfalsy
    cases hfalsy
  · refine ⟨fun htruthy => ?_, fun _ => rfl⟩
    rw [hfalsy] at htruthy
    cases htruthy

/-- The item of a path with its operations completed. -/
def PathResponded : Json → Json → Prop := Each Methods.key MethodResponded allMethods

theorem settles_addPathResponses {item : Json} (h : isPathItem item = true) :
    Settles addPathResponses PathResponded item := by
  obtain ⟨hobject, hall⟩ := Bool.and_eq_true_iff.mp h
  have hloop := settles_forEach (f := addMethodResponses) Methods.key_injective (o := item)
    fun method hmem _ => settles_addMethodResponses (List.all_eq_true.mp hall method hmem)
  refine hloop.guard (isNullish_of_isObject hobject) fun w hw => ?_
  exact isNullish_of_isObject (hw.sameBut.isObject.trans hobject)

/-- The paths with the items of all of them completed. -/
def PathsResponded (v w : Json) : Prop :=
  Each (fun path => path) (fun _ => PathResponded) v.keys v w

/-- Every operation is completed, and nothing else is changed. -/
structure DocumentResponded (v w : Json) : Prop where
  sameBut : SameBut ["paths"] v w
  paths : PathsResponded (v.get "paths") (w.get "paths")

theorem PathResponded.undefined : PathResponded .undefined .undefined :=
  ⟨SameBut.refl _ _, rfl, fun method _ hhas => by cases hhas⟩

theorem MethodResponded.undefined (method : Methods) :
    MethodResponded method .undefined .undefined :=
  ⟨fun h => Bool.noConfusion h, fun _ => rfl⟩

theorem PathResponded.method {v w : Json} (h : PathResponded v w) (method : Methods) :
    MethodResponded method (v.get method.key) (w.get method.key) := by
  cases hhas : v.has method.key with
  | true => exact h.each method (mem_allMethods method) hhas
  | false =>
      rw [get_of_has_eq_false hhas, get_of_has_eq_false ((h.has method.key).trans hhas)]
      exact MethodResponded.undefined method

theorem PathsResponded.item {v w : Json} (h : PathsResponded v w) (path : String) :
    PathResponded (v.get path) (w.get path) := Each.get h PathResponded.undefined path

theorem settles_addOperationResponses {document : Json}
    (hpaths : (document.get "paths").isObject = true)
    (hall : (document.get "paths").all isPathItem = true) :
    Settles addOperationResponses DocumentResponded document := by
  have hhas := has_of_isNullish (isNullish_of_isObject hpaths)
  have hloop := settles_update (o := document) "paths" fun _ =>
    settles_forKeys fun path hpath => settles_addPathResponses (all_iff.mp hall path hpath)
  have hpass : Settles (update (forKeys addPathResponses) "paths") DocumentResponded document :=
    hloop.mono fun w hw => ⟨hw.sameBut, hw.each () (by simp) hhas⟩
  refine hpass.guard (isNullish_of_isObject hpaths) fun w hw => ?_
  exact isNullish_of_isObject (hw.paths.sameBut.isObject.trans hpaths)

end OpenApi
end RpiNestApi
