/-
What the passes do to the components of a document.

The merge adds the components of the API and changes no schema but `Error`.  The second
pass takes `enum` from properties that have `items`.  What it takes is not in the components
of the API, so that these are still there afterwards.
-/
import RpiNestApi.OpenApi.Service

namespace RpiNestApi
namespace OpenApi

open Json

/-! ## Broken enum arrays -/

/-- The property has lost its `enum` if it has `items` and its schema is visited, and is
the same otherwise. -/
def FixedProperty (visited : Bool) (v w : Json) : Prop :=
  w = if visited && (v.has "items" && v.has "enum") then v.delete "enum" else v

/-- Properties of the schema are fixed, and nothing else is changed. -/
structure FixedSchema (v w : Json) : Prop where
  sameBut : SameBut ["properties"] v w
  keys : w.keys = v.keys
  blank : (w.get "properties").blank = (v.get "properties").blank
  propertyKeys : (w.get "properties").keys = (v.get "properties").keys
  property : ∀ name, FixedProperty (isObjectSchema v) ((v.get "properties").get name)
    ((w.get "properties").get name)

theorem FixedProperty.undefined (visited : Bool) :
    FixedProperty visited .undefined .undefined := by
  cases visited <;> rfl

/-- A schema that is not visited stays as it is. -/
theorem FixedSchema.of_skipped {v : Json} (h : isObjectSchema v = false) : FixedSchema v v :=
  ⟨SameBut.refl _ v, rfl, rfl, rfl, fun _ => by rw [FixedProperty, h]; rfl⟩

theorem FixedSchema.undefined : FixedSchema .undefined .undefined := .of_skipped rfl

/-- Schemas are fixed, and nothing else is changed. -/
structure DocumentFixed (v w : Json) : Prop where
  sameBut : SameBut ["components"] v w
  components : SameBut ["schemas"] (v.get "components") (w.get "components")
  componentKeys : (w.get "components").keys = (v.get "components").keys
  blank : (schemas w).blank = (schemas v).blank
  schemaKeys : (schemas w).keys = (schemas v).keys
  schema : ∀ name, FixedSchema ((schemas v).get name) ((schemas w).get name)

/-- A document without schemas stays as it is. -/
theorem DocumentFixed.of_skipped {v : Json} (h : (schemas v).isTruthy = false) :
    DocumentFixed v v := by
  refine ⟨SameBut.refl _ v, SameBut.refl _ _, rfl, rfl, rfl, fun name => ?_⟩
  cases hname : (schemas v).has name with
  | true =>
      rw [isTruthy_of_isObject (isObject_of_has hname)] at h
      cases h
  | false =>
      rw [get_of_has_eq_false hname]
      exact .undefined

theorem settles_fixProperty {property : Json} (h : property.isObject = true) :
    Settles fixProperty (FixedProperty true) property := by
  cases hboth : property.has "items" && property.has "enum" with
  | true =>
      refine ⟨property.delete "enum", by simp [fixProperty, h, hboth], (if_pos hboth).symm, ?_⟩
      simp [fixProperty, h, has_delete_self]
  | false =>
      have hfix : fixProperty property = .ok property := by simp [fixProperty, h, hboth]
      exact ⟨property, hfix, (if_neg (by simp [hboth])).symm, hfix⟩

theorem settles_fixProperties {schema : Json} (h : isSchema schema = true)
    (hvisited : isObjectSchema schema = true) :
    Settles (update (forKeys fixProperty) "properties") FixedSchema schema := by
  obtain ⟨hobject, hall⟩ := (isSchema_iff.mp h).2 (Bool.and_eq_true_iff.mp hvisited).2
  have hhas := has_of_isNullish (isNullish_of_isObject hobject)
  have hloop := settles_update (o := schema) "properties" fun _ =>
    settles_forKeys fun name hname => settles_fixProperty (hall name hname)
  refine hloop.mono fun w hw => ?_
  have hproperties := hw.each () (by simp) hhas
  refine ⟨hw.sameBut, hw.keys, hproperties.sameBut.blank, hproperties.keys, ?_⟩
  rw [hvisited]
  exact hproperties.get (.undefined true)

theorem settles_fixSchema {schema : Json} (h : isSchema schema = true) :
    Settles fixSchema FixedSchema schema := by
  have hobject := (isSchema_iff.mp h).1
  have hif : Settles (fun v => if isObjectSchema v then update (forKeys fixProperty) "properties" v
      else .ok v) FixedSchema schema :=
    Settles.ite (settles_fixProperties h) .of_skipped
  refine hif.guard (by simp [hobject]) fun w hw => ?_
  rw [hw.sameBut.isObject, hobject]
  rfl

theorem settles_fixBrokenEnumArrays {document : Json}
    (hcomponents : (document.get "components").isObject = true)
    (h : isSchemas (schemas document) = true) :
    Settles fixBrokenEnumArrays DocumentFixed document := by
  refine Settles.ite (c := fun v : Json => ((v.get "components").get "schemas").isTruthy)
    (fun htruthy => ?_) DocumentFixed.of_skipped
  obtain ⟨hobject, hall⟩ := isSchemas_iff.mp h htruthy
  have hhas := has_of_isNullish (isNullish_of_isObject hcomponents)
  have hhas' := has_of_isNullish (isNullish_of_isObject hobject)
  have hloop := settles_update (o := document) "components" fun _ =>
    settles_update "schemas" fun _ =>
      settles_forKeys fun name hname => settles_fixSchema (hall name hname)
  refine hloop.mono fun w hw => ?_
  have hw' := hw.each () (by simp) hhas
  have hschemas := hw'.each () (by simp) hhas'
  exact ⟨hw.sameBut, hw'.sameBut, hw'.keys, hschemas.sameBut.blank, hschemas.keys,
    hschemas.get .undefined⟩

/-- Where the property is another one it has lost its `enum`. -/
theorem FixedProperty.cases {visited : Bool} {v w : Json} (h : FixedProperty visited v w) :
    w = v ∨ (v.has "items" = true ∧ w = v.delete "enum") := by
  rw [FixedProperty] at h
  split at h
  · rename_i hboth
    simp only [Bool.and_eq_true] at hboth
    exact .inr ⟨hboth.2.1, h⟩
  · exact .inl h

theorem FixedProperty.blank {visited : Bool} {v w : Json} (h : FixedProperty visited v w) :
    w.blank = v.blank := by
  rcases h.cases with rfl | ⟨-, rfl⟩
  · rfl
  · exact blank_delete v "enum"

theorem FixedSchema.isSchema {v w : Json} (h : FixedSchema v w) (hv : isSchema v = true) :
    OpenApi.isSchema w = true := by
  obtain ⟨hobject, hproperties⟩ := isSchema_iff.mp hv
  refine isSchema_iff.mpr ⟨h.sameBut.isObject.trans hobject, fun htruthy => ?_⟩
  rw [isTruthy_eq_of_blank h.blank] at htruthy
  obtain ⟨hobject', hall⟩ := hproperties htruthy
  refine ⟨(isObject_eq_of_blank h.blank).trans hobject', fun name hname => ?_⟩
  rw [isObject_eq_of_blank (h.property name).blank]
  exact hall name ((has_eq_of_keys h.propertyKeys name).symm.trans hname)

theorem DocumentFixed.isSchemas {v w : Json} (h : DocumentFixed v w)
    (hv : isSchemas (schemas v) = true) : OpenApi.isSchemas (schemas w) = true := by
  refine isSchemas_iff.mpr fun htruthy => ?_
  rw [isTruthy_eq_of_blank h.blank] at htruthy
  obtain ⟨hobject, hall⟩ := isSchemas_iff.mp hv htruthy
  refine ⟨(isObject_eq_of_blank h.blank).trans hobject, fun name hname => ?_⟩
  exact (h.schema name).isSchema (hall name ((has_eq_of_keys h.schemaKeys name).symm.trans hname))

/-! ## The components of the API -/

/-- The property has a type, and nothing else is changed. -/
structure Typed (v w : Json) : Prop where
  sameBut : SameBut ["type"] v w
  has : ∀ key, v.has key = true → w.has key = true

theorem Typed.refl (v : Json) : Typed v v := ⟨SameBut.refl _ v, fun _ => id⟩

/-- The components of the API are there, and no schema but `Error` is changed. -/
structure DocumentMerged (v w : Json) : Prop where
  sameBut : SameBut ["components"] v w
  components : SameBut ["schemas", "responses"] (v.get "components") (w.get "components")
  covers : Covers additionalComponents (w.get "components")
  isSchemas : isSchemas (schemas w) = true
  hasSchema : ∀ name, name ≠ "Error" → (schemas w).has name = (schemas v).has name
  schema : ∀ name, name ≠ "Error" → (schemas w).get name = (schemas v).get name
  property : ∀ name, (property v "Error" name).isObject = true →
    Typed (property v "Error" name) (property w "Error" name)

/-- The properties of `Error` are objects with a type. -/
theorem error_property {name : String} (h : name ∈ (errorSchema.get "properties").keys) :
    ((errorSchema.get "properties").get name).isObject = true ∧
      ((errorSchema.get "properties").get name).isArray = false ∧
      ((errorSchema.get "properties").get name).keys = ["type"] := by
  have hmem : name = "message" ∨ name = "statusCode" := List.mem_pair.mp h
  rcases hmem with rfl | rfl <;> exact ⟨rfl, rfl, rfl⟩

section Merge

variable {toArray : Json → Json} {merge : Json → Json → Json}

theorem get_error_properties (hmerge : IsMerge toArray merge) (schema : Json) :
    (mergeInto toArray merge schema errorSchema).get "properties" =
      mergeInto toArray merge (schema.get "properties") (errorSchema.get "properties") :=
  hmerge.get_mergeInto rfl (by decide) rfl rfl schema

theorem isSchema_mergeInto (hmerge : IsMerge toArray merge) {schema : Json}
    (h : schema.isObject = true → isSchema schema = true) :
    isSchema (mergeInto toArray merge schema errorSchema) = true := by
  refine isSchema_iff.mpr ⟨hmerge.isObject_mergeInto rfl schema, fun _ => ?_⟩
  rw [get_error_properties hmerge]
  refine ⟨hmerge.isObject_mergeInto rfl _, fun name hname => ?_⟩
  by_cases hmem : name ∈ (errorSchema.get "properties").keys
  · rw [hmerge.get_mergeInto rfl (by decide) (mem_keys.mp hmem) (error_property hmem).1]
    exact hmerge.isObject_mergeInto (error_property hmem).1 _
  · rw [hmerge.has_mergeInto_of_notMem rfl rfl hmem] at hname
    rw [hmerge.get_mergeInto_of_notMem rfl rfl hmem]
    -- The property was there, so that there was a schema.
    have hobject := isObject_of_has hname
    have hschema := isObject_of_has (has_of_isNullish (isNullish_of_isObject hobject))
    exact ((isSchema_iff.mp (h hschema)).2 (isTruthy_of_isObject hobject)).2 name hname

theorem typed_mergeInto (hmerge : IsMerge toArray merge) (schema : Json) {name : String}
    (hobject : ((schema.get "properties").get name).isObject = true) :
    Typed ((schema.get "properties").get name)
      (((mergeInto toArray merge schema errorSchema).get "properties").get name) := by
  rw [get_error_properties hmerge]
  by_cases hmem : name ∈ (errorSchema.get "properties").keys
  · obtain ⟨hsource, harray, hkeys⟩ := error_property hmem
    rw [hmerge.get_mergeInto rfl (by decide) (mem_keys.mp hmem) hsource,
      IsMerge.mergeInto_of_isObject harray hobject]
    exact ⟨hkeys ▸ hmerge.merge_sameBut hobject hsource, fun _ => hmerge.has_merge hobject hsource⟩
  · rw [hmerge.get_mergeInto_of_notMem rfl rfl hmem]
    exact Typed.refl _

/-- The schemas of the merge. -/
theorem get_schemas_merge (hmerge : IsMerge toArray merge) {components : Json}
    (h : components.isObject = true) :
    (merge components additionalComponents).get "schemas" =
      mergeInto toArray merge (components.get "schemas") (obj [("Error", errorSchema)]) :=
  hmerge.get_merge h (by decide) rfl rfl

theorem get_error_merge (hmerge : IsMerge toArray merge) (schemas : Json) :
    (mergeInto toArray merge schemas (obj [("Error", errorSchema)])).get "Error" =
      mergeInto toArray merge (schemas.get "Error") errorSchema :=
  hmerge.get_mergeInto rfl (by decide) rfl rfl schemas

theorem notMem_keys_of_ne {name : String} (h : name ≠ "Error") :
    name ∉ (obj [("Error", errorSchema)]).keys :=
  fun hmem => h (List.mem_singleton.mp hmem)

theorem isSchemas_merge (hmerge : IsMerge toArray merge) {schemas : Json}
    (h : isSchemas schemas = true) :
    isSchemas (mergeInto toArray merge schemas (obj [("Error", errorSchema)])) = true := by
  refine isSchemas_iff.mpr fun _ => ⟨hmerge.isObject_mergeInto rfl schemas, fun name hname => ?_⟩
  have hall : ∀ key, schemas.has key = true → isSchema (schemas.get key) = true := fun key hkey =>
    (isSchemas_iff.mp h (isTruthy_of_isObject (isObject_of_has hkey))).2 key hkey
  by_cases herror : name = "Error"
  · rw [herror, get_error_merge hmerge]
    refine isSchema_mergeInto hmerge fun hobject => ?_
    exact hall "Error" (has_of_isNullish (isNullish_of_isObject hobject))
  · have hmem := notMem_keys_of_ne herror
    rw [hmerge.has_mergeInto_of_notMem rfl rfl hmem] at hname
    rw [hmerge.get_mergeInto_of_notMem rfl rfl hmem]
    exact hall name hname

/-- The components with those of the API, which are there from then on. -/
theorem settles_merge (hmerge : IsMerge toArray merge) {components : Json}
    (h : components.isObject = true) :
    Settles (fun v => (.ok (if v.isObject then merge v additionalComponents else v) :
      Except Thrown Json)) (fun v w => w = merge v additionalComponents) components := by
  have hcovers := hmerge.covers_merge (s := additionalComponents) rfl h (fun hs => by cases hs)
  refine ⟨merge components additionalComponents, congrArg Except.ok (if_pos h), rfl, ?_⟩
  refine congrArg Except.ok ((if_pos (hcovers.isObject rfl)).trans ?_)
  exact hmerge.merge_of_covers rfl hcovers

theorem settles_mergeComponents (hmerge : IsMerge toArray merge) {document : Json}
    (h : (document.get "components").isObject = true)
    (hschemas : isSchemas (schemas document) = true) :
    Settles (mergeComponents merge) DocumentMerged document := by
  have hhas := has_of_isNullish (isNullish_of_isObject h)
  refine (settles_update "components" fun _ => settles_merge hmerge h).mono fun w hw => ?_
  have hcomponents := hw.each () (by simp) hhas
  have hw' : schemas w = mergeInto toArray merge (schemas document)
      (obj [("Error", errorSchema)]) := by
    rw [schemas, hcomponents, get_schemas_merge hmerge h, schemas]
  refine ⟨hw.sameBut, ?_, ?_, ?_, fun name hne => ?_, fun name hne => ?_,
    fun name hobject => ?_⟩
  · rw [hcomponents]
    exact hmerge.merge_sameBut (s := additionalComponents) h rfl
  · rw [hcomponents]
    exact hmerge.covers_merge rfl h (fun hs => by cases hs)
  · rw [hw']
    exact isSchemas_merge hmerge hschemas
  · rw [hw', hmerge.has_mergeInto_of_notMem rfl rfl (notMem_keys_of_ne hne)]
  · rw [hw', hmerge.get_mergeInto_of_notMem rfl rfl (notMem_keys_of_ne hne)]
  · rw [property, property, hw', get_error_merge hmerge]
    exact typed_mergeInto hmerge _ hobject

end Merge

/-! ## The components after both passes -/

theorem covers_fixedProperty {visited : Bool} {s v w : Json} (hs : s.isObject = true)
    (henum : s.has "enum" = false) (h : Covers s v) (hw : FixedProperty visited v w) :
    Covers s w := by
  rcases hw.cases with rfl | ⟨-, rfl⟩
  · exact h
  · have hne : ∀ key, s.has key = true → key ≠ "enum" := by
      rintro key hkey rfl
      rw [henum] at hkey
      cases hkey
    refine h.congr hs (blank_delete v "enum") (fun key hkey => has_delete_of_ne (hne key hkey))
      fun key hkey hget => ?_
    rw [get_delete_of_ne (hne key hkey)]
    exact hget

theorem covers_fixedSchema {v w : Json} (h : Covers errorSchema v) (hw : FixedSchema v w) :
    Covers errorSchema w := by
  refine h.congr rfl hw.sameBut.blank (fun key _ => has_eq_of_keys hw.keys key)
    fun key _ hget => ?_
  by_cases hkey : key = "properties"
  · subst hkey
    refine Covers.congr hget rfl hw.blank (fun name _ => has_eq_of_keys hw.propertyKeys name)
      fun name hname hproperty => ?_
    obtain ⟨hobject, -, hkeys⟩ := error_property (mem_keys.mpr hname)
    refine covers_fixedProperty hobject ?_ hproperty (hw.property name)
    rw [has, hkeys]
    decide
  · rw [hw.sameBut.get key (fun hmem => hkey (List.mem_singleton.mp hmem))]
    exact hget

/-- The components of the API are still there. -/
theorem covers_fixed {v w : Json} (h : Covers additionalComponents (v.get "components"))
    (hw : DocumentFixed v w) : Covers additionalComponents (w.get "components") := by
  refine h.congr rfl hw.components.blank (fun key _ => has_eq_of_keys hw.componentKeys key)
    fun key _ hget => ?_
  by_cases hkey : key = "schemas"
  · subst hkey
    refine Covers.congr hget rfl hw.blank (fun name _ => has_eq_of_keys hw.schemaKeys name)
      fun name hname hschema => ?_
    have hname' : name = "Error" := List.mem_singleton.mp (mem_keys.mpr hname)
    subst hname'
    exact covers_fixedSchema hschema (hw.schema "Error")
  · rw [hw.components.get key (fun hmem => hkey (List.mem_singleton.mp hmem))]
    exact hget

end OpenApi
end RpiNestApi
