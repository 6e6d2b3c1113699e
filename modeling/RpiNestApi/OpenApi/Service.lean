/-
The two passes over the document of the API, before it is written and served.

The passes work on the document in place, so that each of them returns what it has made of
the document.  They throw where they read a property of `null` or `undefined`, and where they
write a property, or look for one, in what is not an object.  `isDocument` says what the
types of the document promise.
-/
import RpiNestApi.Json.Merge
import RpiNestApi.Json.Passes
import RpiNestApi.OpenApi.Constants

namespace RpiNestApi
namespace OpenApi

open Json

/-- What the passes throw. -/
inductive Thrown where
  | typeError
  deriving DecidableEq, Repr

/-! ## Broken enum arrays -/

def fixProperty (property : Json) : Except Thrown Json :=
  if !property.isObject then .error .typeError
  else if property.has "items" && property.has "enum" then .ok (property.delete "enum")
  else .ok property

/-- The condition under which the properties of a schema are visited. -/
def isObjectSchema (schema : Json) : Bool :=
  schema.has "type" && (schema.get "type").isString "object" && (schema.get "properties").isTruthy

def fixSchema (schema : Json) : Except Thrown Json :=
  if !schema.isObject then .error .typeError
  else if isObjectSchema schema then update (forKeys fixProperty) "properties" schema
  else .ok schema

def fixBrokenEnumArrays (document : Json) : Except Thrown Json :=
  if ((document.get "components").get "schemas").isTruthy then
    update (update (forKeys fixSchema) "schemas") "components" document
  else .ok document

/-! ## Default responses -/

/-- `operation.responses[code] ??= getResponseRef(name)`. -/
def addResponse (code : String) (name : AdditionalComponentNames) (operation : Json) :
    Except Thrown Json :=
  let responses := operation.get "responses"
  if !responses.isObject then .error .typeError
  else if (responses.get code).isNullish then
    .ok (operation.set "responses" (responses.set code (getResponseRef name)))
  else .ok operation

/-- If a security requirement is defined on the operation it returns a 401. -/
def addNotAuthorized (operation : Json) : Except Thrown Json :=
  if !(operation.get "security").isUndefined then addResponse "401" .notAuthorized operation
  else .ok operation

/-- All operations that expect a payload may return a 400. -/
def addInvalidData (method : Methods) (operation : Json) : Except Thrown Json :=
  if method != .get then addResponse "400" .invalidData operation else .ok operation

def addResponses (method : Methods) (operation : Json) : Except Thrown Json := do
  let operation ← addNotAuthorized operation
  let operation ← addInvalidData method operation
  addResponse "500" .internalServerError operation

/-- The operation of one method, if the path has it. -/
def addMethodResponses (method : Methods) (operation : Json) : Except Thrown Json :=
  if operation.isTruthy then addResponses method operation else .ok operation

def addPathResponses (item : Json) : Except Thrown Json :=
  if item.isNullish then .error .typeError
  else forEach Methods.key addMethodResponses allMethods item

/-- `merge(openAPIObject.components, additionalComponents)`, which has no effect on the
document unless its components are an object. -/
def mergeComponents (merge : Json → Json → Json) (document : Json) : Except Thrown Json :=
  update (fun components =>
    .ok (if components.isObject then merge components additionalComponents else components))
    "components" document

def addOperationResponses (document : Json) : Except Thrown Json :=
  if (document.get "paths").isNullish then .error .typeError
  else update (forKeys addPathResponses) "paths" document

def addDefaultResponses (merge : Json → Json → Json) (document : Json) : Except Thrown Json := do
  let document ← mergeComponents merge document
  addOperationResponses document

/-- The passes in the order of `initOpenApi`. -/
def completeDocument (merge : Json → Json → Json) (document : Json) : Except Thrown Json := do
  let document ← addDefaultResponses merge document
  fixBrokenEnumArrays document

/-! ## Documents -/

/-- An operation has responses. -/
def isOperation (operation : Json) : Bool :=
  !operation.isTruthy || (operation.isObject && (operation.get "responses").isObject)

theorem isOperation_iff {operation : Json} : isOperation operation = true ↔
    (operation.isTruthy = true →
      operation.isObject = true ∧ (operation.get "responses").isObject = true) := by
  rw [isOperation, Bool.or_eq_true, Bool.and_eq_true, Bool.not_eq_true', ← Bool.not_eq_true,
    ← imp_iff_not_or]

def isPathItem (item : Json) : Bool :=
  item.isObject && allMethods.all fun method => isOperation (item.get method.key)

/-- The properties of a schema, if it has any, are schemas. -/
def isSchema (schema : Json) : Bool :=
  schema.isObject &&
    (!(schema.get "properties").isTruthy ||
      ((schema.get "properties").isObject && (schema.get "properties").all isObject))

theorem isSchema_iff {schema : Json} : isSchema schema = true ↔ schema.isObject = true ∧
    ((schema.get "properties").isTruthy = true → (schema.get "properties").isObject = true ∧
      ∀ name, (schema.get "properties").has name = true →
        ((schema.get "properties").get name).isObject = true) := by
  rw [isSchema, Bool.and_eq_true, Bool.or_eq_true, Bool.and_eq_true, all_iff,
    Bool.not_eq_true', ← Bool.not_eq_true, ← imp_iff_not_or]

def isSchemas (schemas : Json) : Bool :=
  !schemas.isTruthy || (schemas.isObject && schemas.all isSchema)

theorem isSchemas_iff {schemas : Json} : isSchemas schemas = true ↔
    (schemas.isTruthy = true → schemas.isObject = true ∧
      ∀ name, schemas.has name = true → isSchema (schemas.get name) = true) := by
  rw [isSchemas, Bool.or_eq_true, Bool.and_eq_true, all_iff, Bool.not_eq_true',
    ← Bool.not_eq_true, ← imp_iff_not_or]

/-- A document with paths and a components object, of the types of OpenAPI. -/
def isDocument (document : Json) : Bool :=
  (document.get "paths").isObject && (document.get "paths").all isPathItem &&
    (document.get "components").isObject && isSchemas ((document.get "components").get "schemas")

/-- The item of a path. -/
def pathItem (document : Json) (path : String) : Json := (document.get "paths").get path

def operation (document : Json) (path : String) (method : Methods) : Json :=
  (pathItem document path).get method.key

def response (document : Json) (path : String) (method : Methods) (code : String) : Json :=
  ((operation document path method).get "responses").get code

def schemas (document : Json) : Json := (document.get "components").get "schemas"

def property (document : Json) (schema name : String) : Json :=
  (((schemas document).get schema).get "properties").get name

theorem isDocument_iff {document : Json} : isDocument document = true ↔
    (document.get "paths").isObject = true ∧ (document.get "paths").all isPathItem = true ∧
      (document.get "components").isObject = true ∧ isSchemas (schemas document) = true := by
  rw [isDocument, Bool.and_eq_true, Bool.and_eq_true, Bool.and_eq_true, and_assoc, and_assoc]
  rfl

end OpenApi
end RpiNestApi
