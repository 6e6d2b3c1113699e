/-
The document of the API after both passes.
-/
import RpiNestApi.OpenApi.Operations
import RpiNestApi.OpenApi.Schemas

namespace RpiNestApi
namespace OpenApi

open Json

/-- Every operation has exactly the responses it had and its default ones, which are
references to components, and nothing else is changed but `enum` of properties with `items`
and the schema `Error`. -/
structure Completed (v w : Json) : Prop where
  internalServerError : ∀ path method, (operation w path method).isTruthy = true →
    (response w path method "500").isNullish = false
  notAuthorized : ∀ path method, (operation w path method).isTruthy = true →
    ((operation w path method).get "security").isUndefined = false →
    (response w path method "401").isNullish = false
  invalidData : ∀ path method, (operation w path method).isTruthy = true → method ≠ .get →
    (response w path method "400").isNullish = false
  kept : ∀ path method code, (response v path method code).isNullish = false →
    response w path method code = response v path method code
  added : ∀ path method code, response w path method code ≠ response v path method code →
    ∃ name, response w path method code = getResponseRef name ∧
      ((w.get "components").get "responses").has name.key = true ∧
      resolve w (getResponseRef name) = ((w.get "components").get "responses").get name.key ∧
      (resolve w (getResponseRef name)).isObject = true
  /-- A response that is missing is the default one of its operation, if that has one. -/
  defaulted : ∀ path method code, response w path method code =
    if (operation v path method).isTruthy then
      withDefault (defaults method (operation v path method) code) (response v path method code)
    else response v path method code
  hasResponse : ∀ path method code, ((operation w path method).get "responses").has code =
    (((operation v path method).get "responses").has code ||
      (operation v path method).isTruthy &&
        (defaults method (operation v path method) code).isSome)
  property : ∀ schema name key, (property v schema name).has key = true →
    (property w schema name).has key = false →
    key = "enum" ∧ (property v schema name).has "items" = true
  document : SameBut ["paths", "components"] v w
  components : SameBut ["schemas", "responses"] (v.get "components") (w.get "components")
  paths : SameBut (v.get "paths").keys (v.get "paths") (w.get "paths")
  pathKeys : (w.get "paths").keys = (v.get "paths").keys
  items : ∀ path, SameBut (allMethods.map Methods.key) (pathItem v path) (pathItem w path)
  itemKeys : ∀ path, (pathItem w path).keys = (pathItem v path).keys
  operations : ∀ path method,
    SameBut ["responses"] (operation v path method) (operation w path method)
  operationKeys : ∀ path method, (operation w path method).keys = (operation v path method).keys
  responses : ∀ path method, SameBut ["400", "401", "500"]
    ((operation v path method).get "responses") ((operation w path method).get "responses")
  hasSchema : ∀ name, name ≠ "Error" → (schemas w).has name = (schemas v).has name
  schema : ∀ name, name ≠ "Error" → FixedSchema ((schemas v).get name) ((schemas w).get name)

/-! ## Operations -/

section Operation

variable {method : Methods} {v w : Json} {code : String}

theorem MethodResponded.isTruthy (h : MethodResponded method v w) :
    w.isTruthy = v.isTruthy := by
  cases hv : v.isTruthy with
  | true => rw [isTruthy_eq_of_blank (h.responded hv).sameBut.blank, hv]
  | false => rw [h.skipped hv, hv]

theorem MethodResponded.sameBut (h : MethodResponded method v w) :
    SameBut ["responses"] v w ∧ w.keys = v.keys := by
  cases hv : v.isTruthy with
  | true => exact ⟨(h.responded hv).sameBut, (h.responded hv).keys⟩
  | false =>
      rw [h.skipped hv]
      exact ⟨SameBut.refl _ v, rfl⟩

theorem defaults_internalServerError (method : Methods) (v : Json) :
    defaults method v "500" = some .internalServerError := by
  simp [defaults]

theorem defaults_notAuthorized (method : Methods)
    (h : (v.get "security").isUndefined = false) :
    defaults method v "401" = some .notAuthorized := by
  simp [defaults, h]

theorem defaults_invalidData (v : Json) (h : method ≠ .get) :
    defaults method v "400" = some .invalidData := by
  simp [defaults, h]

/-- A response that an operation has by default is there. -/
theorem MethodResponded.covered (h : MethodResponded method v w) (hw : w.isTruthy = true)
    {name : AdditionalComponentNames} (hname : defaults method w code = some name) :
    ((w.get "responses").get code).isNullish = false := by
  have hresponded := h.responded (h.isTruthy.symm.trans hw)
  have hsame : defaults method w code = defaults method v code := by
    rw [defaults, defaults, hresponded.security]
  rw [hresponded.get, ← hsame, hname]
  exact isNullish_withDefault_some name _

theorem MethodResponded.kept (h : MethodResponded method v w)
    (hcode : ((v.get "responses").get code).isNullish = false) :
    (w.get "responses").get code = (v.get "responses").get code := by
  cases hv : v.isTruthy with
  | true => rw [(h.responded hv).get, withDefault_of_isNullish_eq_false hcode]
  | false => rw [h.skipped hv]

theorem defaults_of_notMem (method : Methods) (v : Json) (hcode : code ∉ ["400", "401", "500"]) :
    defaults method v code = none := by
  simp only [List.mem_cons, List.not_mem_nil, or_false, not_or] at hcode
  simp [defaults, hcode]

theorem MethodResponded.responses (h : MethodResponded method v w) :
    SameBut ["400", "401", "500"] (v.get "responses") (w.get "responses") := by
  cases hv : v.isTruthy with
  | false =>
      rw [h.skipped hv]
      exact SameBut.refl _ _
  | true =>
      have hresponded := h.responded hv
      have hnone : ∀ code, code ∉ ["400", "401", "500"] → defaults method v code = none :=
        fun _ => defaults_of_notMem method v
      refine ⟨hresponded.blank, fun code hcode => ?_, fun code hcode => ?_⟩
      · rw [hresponded.has, hnone code hcode]
        exact Bool.or_false _
      · rw [hresponded.get, hnone code hcode]
        rfl

/-- The responses of an operation that is there, with its defaults. -/
theorem MethodResponded.defaulted (h : MethodResponded method v w) (code : String) :
    (w.get "responses").get code =
      if v.isTruthy then withDefault (defaults method v code) ((v.get "responses").get code)
      else (v.get "responses").get code := by
  split
  · rename_i hv
    exact (h.responded hv).get code
  · rename_i hv
    rw [h.skipped (Bool.eq_false_iff.mpr hv)]

theorem MethodResponded.hasResponse (h : MethodResponded method v w) (code : String) :
    (w.get "responses").has code =
      ((v.get "responses").has code || v.isTruthy && (defaults method v code).isSome) := by
  cases hv : v.isTruthy with
  | true => rw [(h.responded hv).has, Bool.true_and]
  | false => rw [h.skipped hv, Bool.false_and, Bool.or_false]

theorem MethodResponded.added (h : MethodResponded method v w)
    (hne : (w.get "responses").get code ≠ (v.get "responses").get code) :
    ∃ name, (w.get "responses").get code = getResponseRef name := by
  have hget := h.defaulted code
  split at hget
  · cases hdefault : defaults method v code with
    | none =>
        rw [hdefault] at hget
        exact absurd hget hne
    | some name =>
        refine ⟨name, ?_⟩
        cases hcode : ((v.get "responses").get code).isNullish with
        | true =>
            rw [hget, hdefault]
            exact if_pos hcode
        | false => exact absurd (h.kept hcode) hne
  · exact absurd hget hne

end Operation

/-! ## Both passes -/

section Passes

variable {toArray : Json → Json} {merge : Json → Json → Json} {u v w : Json}

theorem addOperationResponses_congr (hpaths : w.get "paths" = v.get "paths")
    (hobject : (v.get "paths").isObject = true) (h : addOperationResponses v = .ok v) :
    addOperationResponses w = .ok w := by
  have hnull := isNullish_of_isObject hobject
  have hnull' : (w.get "paths").isNullish = false := by rw [hpaths, hnull]
  rw [addOperationResponses, if_neg (by simp [hnull]), update_fixed_iff (has_of_isNullish hnull)]
    at h
  rw [addOperationResponses, if_neg (by simp [hnull']),
    update_fixed_iff (has_of_isNullish hnull'), hpaths]
  exact h

theorem mergeComponents_of_covers (hmerge : IsMerge toArray merge)
    (h : Covers additionalComponents (v.get "components")) :
    mergeComponents merge v = .ok v := by
  refine update_fixed fun _ => congrArg Except.ok ?_
  rw [if_pos (h.isObject rfl), hmerge.merge_of_covers rfl h]

/-- The passes over the operations and over the schemas. -/
def RespondedThenFixed (v w : Json) : Prop := ∃ u, DocumentResponded v u ∧ DocumentFixed u w

theorem settles_respondedThenFixed (hpaths : (v.get "paths").isObject = true)
    (hall : (v.get "paths").all isPathItem = true)
    (hcomponents : (v.get "components").isObject = true)
    (hschemas : isSchemas (schemas v) = true) :
    Settles (fun v => addOperationResponses v >>= fixBrokenEnumArrays)
      RespondedThenFixed v := by
  refine (settles_addOperationResponses hpaths hall).bind (fun u hu => ?_)
    fun u w hu hfix hw => ?_
  · have hsame := hu.sameBut.get "components" (by decide)
    refine settles_fixBrokenEnumArrays (hsame ▸ hcomponents) ?_
    rw [schemas, hsame]
    exact hschemas
  · refine addOperationResponses_congr (hw.sameBut.get "paths" (by decide)) ?_ hfix
    exact hu.paths.sameBut.isObject.trans hpaths

theorem settles_completeDocument (hmerge : IsMerge toArray merge) (h : isDocument v = true) :
    Settles (completeDocument merge)
      (fun v w => ∃ u, DocumentMerged v u ∧ RespondedThenFixed u w) v := by
  obtain ⟨hpaths, hall, hcomponents, hschemas⟩ := isDocument_iff.mp h
  have hpasses : completeDocument merge = fun v => mergeComponents merge v >>= fun v =>
      addOperationResponses v >>= fixBrokenEnumArrays :=
    funext fun v => bind_assoc (mergeComponents merge v) addOperationResponses fixBrokenEnumArrays
  rw [hpasses]
  have hmerged := settles_mergeComponents hmerge hcomponents hschemas
  refine hmerged.bind (fun u hu => ?_) fun u w hu _ hw => ?_
  · have hsame := hu.sameBut.get "paths" (by decide)
    exact settles_respondedThenFixed (hsame ▸ hpaths) (hsame ▸ hall) (hu.covers.isObject rfl)
      hu.isSchemas
  · obtain ⟨u', hu', hw⟩ := hw
    refine mergeComponents_of_covers hmerge (covers_fixed ?_ hw)
    rw [hu'.sameBut.get "components" (by decide)]
    exact hu.covers

/-- The paths after all passes. -/
theorem pathsResponded_of (hu : DocumentMerged v u) (hw : RespondedThenFixed u w) :
    PathsResponded (v.get "paths") (w.get "paths") := by
  obtain ⟨x, hx, hw⟩ := hw
  rw [← hu.sameBut.get "paths" (by decide), hw.sameBut.get "paths" (by decide)]
  exact hx.paths

/-- The references are to entries of the components. -/
theorem entry_of_covers (h : Covers additionalComponents (w.get "components"))
    (name : AdditionalComponentNames) :
    ((w.get "components").get "responses").has name.key = true ∧
      resolve w (getResponseRef name) = ((w.get "components").get "responses").get name.key ∧
      (resolve w (getResponseRef name)).isObject = true := by
  have hresponses : Covers responses ((w.get "components").get "responses") :=
    h.get (show additionalComponents.has "responses" = true from rfl)
  obtain ⟨hkey, hobject⟩ := isObject_responses name
  have hresolve := resolve_getResponseRef w name
  refine ⟨hresponses.has hkey, hresolve, ?_⟩
  rw [hresolve]
  exact (hresponses.get hkey).isObject hobject

theorem PathResponded.isPathItem (h : PathResponded v w) (hv : isPathItem v = true) :
    OpenApi.isPathItem w = true := by
  obtain ⟨hobject, hall⟩ := Bool.and_eq_true_iff.mp hv
  refine Bool.and_eq_true_iff.mpr ⟨h.sameBut.isObject.trans hobject, ?_⟩
  refine List.all_eq_true.mpr fun method hmem => ?_
  have hmethod := h.method method
  have hoperation := List.all_eq_true.mp hall method hmem
  rw [isOperation] at hoperation ⊢
  rw [hmethod.isTruthy, hmethod.sameBut.1.isObject, isObject_eq_of_blank hmethod.responses.blank]
  exact hoperation

/-- What a property loses with its `enum`. -/
theorem FixedProperty.lost {visited : Bool} {key : String} (h : FixedProperty visited v w)
    (hv : v.has key = true) (hw : w.has key = false) :
    key = "enum" ∧ v.has "items" = true := by
  rcases h.cases with rfl | ⟨hitems, rfl⟩
  · rw [hv] at hw
    cases hw
  · refine ⟨by_contra fun hne => ?_, hitems⟩
    rw [has_delete_of_ne hne, hv] at hw
    cases hw

theorem property_lost {visited : Bool} {schema name key : String} (hu : DocumentMerged v u)
    (hw : FixedProperty visited (property u schema name) (property w schema name))
    (hkey : (property v schema name).has key = true)
    (hlost : (property w schema name).has key = false) :
    key = "enum" ∧ (property v schema name).has "items" = true := by
  by_cases herror : schema = "Error"
  · subst herror
    have htyped := hu.property name (isObject_of_has hkey)
    obtain ⟨henum, hitems⟩ := hw.lost (htyped.has key hkey) hlost
    exact ⟨henum, (htyped.sameBut.has "items" (by decide)).symm.trans hitems⟩
  · have hsame : property u schema name = property v schema name := by
      rw [property, property, hu.schema schema herror]
    rw [hsame] at hw
    exact hw.lost hkey hlost

theorem completed_of (hu : DocumentMerged v u) (hw : RespondedThenFixed u w) :
    Completed v w := by
  have hpaths := pathsResponded_of hu hw
  have hitem := fun path => hpaths.item path
  have hmethod : ∀ path method,
      MethodResponded method (operation v path method) (operation w path method) :=
    fun path method => (hitem path).method method
  obtain ⟨x, hx, hw⟩ := hw
  have hcomponents : x.get "components" = u.get "components" := hx.sameBut.get _ (by decide)
  have hschemas : schemas x = schemas u := by rw [schemas, schemas, hcomponents]
  have hcovers : Covers additionalComponents (w.get "components") :=
    covers_fixed (hcomponents ▸ hu.covers) hw
  have hschema := hw.schema
  have hrest := hw.components
  rw [hschemas] at hschema
  rw [hcomponents] at hrest
  exact {
    internalServerError := fun path method htruthy =>
      (hmethod path method).covered htruthy (defaults_internalServerError method _)
    notAuthorized := fun path method htruthy hsecurity =>
      (hmethod path method).covered htruthy (defaults_notAuthorized method hsecurity)
    invalidData := fun path method htruthy hget =>
      (hmethod path method).covered htruthy (defaults_invalidData _ hget)
    kept := fun path method code => (hmethod path method).kept
    added := fun path method code hne => by
      obtain ⟨name, hname⟩ := (hmethod path method).added hne
      exact ⟨name, hname, entry_of_covers hcovers name⟩
    defaulted := fun path method => (hmethod path method).defaulted
    hasResponse := fun path method => (hmethod path method).hasResponse
    property := fun schema name key => property_lost hu ((hschema schema).property name)
    document := ((hu.sameBut.mono (by simp)).trans (hx.sameBut.mono (by simp))).trans
      (hw.sameBut.mono (by simp))
    components := hu.components.trans (hrest.mono (by simp))
    paths := by simpa using hpaths.sameBut
    pathKeys := hpaths.keys
    items := fun path => (hitem path).sameBut
    itemKeys := fun path => (hitem path).keys
    operations := fun path method => (hmethod path method).sameBut.1
    operationKeys := fun path method => (hmethod path method).sameBut.2
    responses := fun path method => (hmethod path method).responses
    hasSchema := fun name hne => by
      rw [has_eq_of_keys hw.schemaKeys, hschemas, hu.hasSchema name hne]
    schema := fun name hne => hu.schema name hne ▸ hschema name
  }

theorem isDocument_of (hv : isDocument v = true) (hu : DocumentMerged v u)
    (hw : RespondedThenFixed u w) : isDocument w = true := by
  obtain ⟨hobject, hall, -, -⟩ := isDocument_iff.mp hv
  have hpaths := pathsResponded_of hu hw
  obtain ⟨x, hx, hw⟩ := hw
  have hcomponents : x.get "components" = u.get "components" := hx.sameBut.get _ (by decide)
  have hschemas : schemas x = schemas u := by rw [schemas, schemas, hcomponents]
  refine isDocument_iff.mpr ⟨hpaths.sameBut.isObject.trans hobject,
    all_iff.mpr fun path hpath => ?_, ?_, hw.isSchemas (hschemas ▸ hu.isSchemas)⟩
  · exact (hpaths.item path).isPathItem (all_iff.mp hall path ((hpaths.has path).symm.trans hpath))
  · rw [hw.components.isObject, hcomponents]
    exact hu.covers.isObject rfl

/-- Both passes complete a document, and a second time they change nothing. -/
theorem document_completed (hmerge : IsMerge toArray merge) (hv : isDocument v = true) :
    ∃ w, completeDocument merge v = .ok w ∧ Completed v w ∧ isDocument w = true ∧
      completeDocument merge w = .ok w := by
  obtain ⟨w, hw, ⟨u, hu, huw⟩, hfix⟩ := settles_completeDocument hmerge hv
  exact ⟨w, hw, completed_of hu huw, isDocument_of hv hu huw, hfix⟩

end Passes

/-- A document with two operations, one of which has a response of its own, and a schema with
an array of an enum. -/
def accounts : Json :=
  obj [
    ("openapi", .string "3.0.0"),
    ("paths", obj [
      ("/api/auth/accounts", obj [
        ("get", obj [
          ("security", arr [obj [("bearer", arr [])]]),
          ("responses", obj [("200", obj [("description", .string "")])])]),
        ("post", obj [
          ("responses", obj [("400", obj [("description", .string "Exists already")])])])])]),
    ("components", obj [
      ("schemas", obj [
        ("Account", obj [
          ("type", .string "object"),
          ("properties", obj [
            ("roles", obj [
              ("type", .string "array"),
              ("items", obj [("type", .string "string")]),
              ("enum", arr [.string "admin", .string "user"])])])])])])]

theorem document_completed_accounts :
    ∃ w, completeDocument (fun d s => mergeFrom copyArray s d) accounts = .ok w ∧
      Completed accounts w ∧ isDocument w = true ∧
      completeDocument (fun d s => mergeFrom copyArray s d) w = .ok w :=
  document_completed (isMerge_mergeFrom isArray_copyArray) rfl

end OpenApi
end RpiNestApi
