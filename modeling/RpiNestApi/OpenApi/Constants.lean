/-
The components every document of the API has, and the references to them.
-/
import RpiNestApi.Json.Values
import RpiNestApi.Values

namespace RpiNestApi
namespace OpenApi

open Json

/-- The methods a path item has operations for. -/
inductive Methods where
  | get
  | put
  | post
  | delete
  | options
  | head
  | patch
  | trace
  deriving DecidableEq, Repr

/-- The key of the method's operation. -/
def Methods.key : Methods → String
  | .get => "get"
  | .put => "put"
  | .post => "post"
  | .delete => "delete"
  | .options => "options"
  | .head => "head"
  | .patch => "patch"
  | .trace => "trace"

def allMethods : List Methods := [.get, .put, .post, .delete, .options, .head, .patch, .trace]

theorem Methods.key_injective : Function.Injective Methods.key := by
  intro m m' h
  cases m <;> cases m' <;> first | rfl | simp [Methods.key] at h

theorem mem_allMethods (method : Methods) : method ∈ allMethods := by
  cases method <;> decide

def errorSchema : Json :=
  obj [
    ("type", .string "object"),
    ("properties", obj [
      ("message", obj [("type", .string "string")]),
      ("statusCode", obj [("type", .string "number")])]),
    ("required", arr [.string "message", .string "statusCode"])]

/-- A message that is undefined is the description. -/
def createErrorResponse (description : String) (statusCode : Nat) (message error : Json) : Json :=
  obj [
    ("description", .string description),
    ("content", obj [
      ("application/json", obj [
        ("schema", obj [("$ref", .string "#/components/schemas/Error")]),
        ("example", obj [
          ("statusCode", .number statusCode),
          ("message", if message.isUndefined then .string description else message),
          ("error", error)])])])]

/-- The keys of the additional responses. -/
inductive AdditionalComponentNames where
  | internalServerError
  | notAuthorized
  | invalidData
  deriving DecidableEq, Repr

def AdditionalComponentNames.key : AdditionalComponentNames → String
  | .internalServerError => "InternalServerError"
  | .notAuthorized => "NotAuthorized"
  | .invalidData => "InvalidData"

def getResponseRef (name : AdditionalComponentNames) : Json :=
  obj [("$ref", .string ("#/components/responses/" ++ name.key))]

def responses : Json :=
  obj [
    ("InternalServerError",
      createErrorResponse "Internal Server Error" 500 .undefined .undefined),
    ("NotAuthorized", createErrorResponse "Unauthorized" 401 .undefined .undefined),
    ("InvalidData", createErrorResponse "Bad Request" 400 (arr []) (.string "Bad Request"))]

def additionalComponents : Json :=
  obj [("schemas", obj [("Error", errorSchema)]), ("responses", responses)]

/-- What a reference to a part of the document refers to. -/
def resolve (doc reference : Json) : Json :=
  match reference.get "$ref" with
  | .string s => ((split '/' s).drop 1).foldl Json.get doc
  | _ => .undefined

theorem resolve_getResponseRef (doc : Json) (name : AdditionalComponentNames) :
    resolve doc (getResponseRef name) = ((doc.get "components").get "responses").get name.key := by
  cases name <;> rfl

theorem isObject_responses (name : AdditionalComponentNames) :
    responses.has name.key = true ∧ (responses.get name.key).isObject = true := by
  cases name <;> exact ⟨rfl, rfl⟩

end OpenApi
end RpiNestApi
