import RpiNestApi.Authentication.Services
import Mathlib.Data.List.Dedup
import Mathlib.Data.List.ReduceOption

/-
`AuthenticationGuard`.

The guard awaits one promise, the verification of the token, and looks at
nothing but the request, the metadata of its route and that token.  It is a
function of the world in which the token is verified.
-/

namespace RpiNestApi

/-- The metadata that `Public` and `AuthorizedRoles` set. -/
structure RouteMetadata where
  isPublic : Option Bool
  accessRoles : Option (List AccessRole)
  deriving DecidableEq, Repr

/-- A request with the metadata of its handler and its controller. -/
structure ExecutionContext where
  authorization : Option String
  handler : RouteMetadata
  controller : RouteMetadata
  deriving DecidableEq, Repr

namespace Reflector

/-- The first metadata that is set. -/
def getAllAndOverride {α : Type} (metadata : List (Option α)) : Option α := metadata.findSome? id

/-- All metadata that is set, concatenated. -/
def getAllAndMerge {α : Type} (metadata : List (Option (List α))) : List α :=
  metadata.reduceOption.flatten

end Reflector

/-- The values of `xs` that are in `ys`, each once.  What is not a list has no
values. -/
def intersection (xs : List AccessRole) : Field (List AccessRole) → List AccessRole
  | .value ys => (xs.filter (· ∈ ys)).dedup
  | _ => []

/-- The payload of a token that was signed here and has not expired. -/
def Platform.verifyAsync (π : Platform) (w : World) (token : String) :
    Option AccessTokenPayload :=
  (w.issued.find? fun x =>
    π.jwtService.sign x.1 x.2 = token ∧ seconds w.clock < x.2 + π.jwtService.expiresIn).map
      Prod.fst

namespace AuthenticationGuard

def isRoutePublic (context : ExecutionContext) : Bool :=
  (Reflector.getAllAndOverride [context.handler.isPublic, context.controller.isPublic]).getD false

def isUserAuthorized (context : ExecutionContext) (accessTokenPayload : AccessTokenPayload) :
    Bool :=
  if accessTokenPayload.sub = adminUserName then true
  else if accessTokenPayload.roles.HasRole .admin then true
  else
    let authorizedRoles :=
      Reflector.getAllAndMerge [context.handler.accessRoles, context.controller.accessRoles]
    let matchingRoles := intersection authorizedRoles accessTokenPayload.roles
    matchingRoles.length != 0

def extractTokenFromHeader (context : ExecutionContext) : Option String :=
  match (context.authorization.map (split ' ')).getD [] with
  | type :: token :: _ => if type = "Bearer" then some token else none
  | _ => none

def canActivate (π : Platform) (w : World) (context : ExecutionContext) :
    Except Exception Bool :=
  if isRoutePublic context then .ok true
  else
    match extractTokenFromHeader context with
    | none => .error .unauthorized
    | some token =>
      match π.verifyAsync w token with
      | none => .error .unauthorized
      | some accessTokenPayload => .ok (isUserAuthorized context accessTokenPayload)

end AuthenticationGuard

/-- The roles that the handler or the controller lets in. -/
def ExecutionContext.Authorizes (context : ExecutionContext) (role : AccessRole) : Prop :=
  ∃ roles, (context.handler.accessRoles = some roles ∨
    context.controller.accessRoles = some roles) ∧ role ∈ roles

/-- The user `sub` with `roles` may pass. -/
def ExecutionContext.Admits (context : ExecutionContext) (sub : UserLogin)
    (roles : Field (List AccessRole)) : Prop :=
  sub = adminUserName ∨ roles.HasRole .admin ∨
    ∃ role, context.Authorizes role ∧ roles.HasRole role

/-- The first two words of the header are `Bearer` and `token`. -/
def ExecutionContext.Bears (context : ExecutionContext) (token : String) : Prop :=
  ∃ header words, context.authorization = some header ∧
    split ' ' header = "Bearer" :: token :: words

theorem mem_getAllAndMerge {context : ExecutionContext} {role : AccessRole} :
    role ∈ Reflector.getAllAndMerge [context.handler.accessRoles, context.controller.accessRoles] ↔
      context.Authorizes role := by
  simp only [Reflector.getAllAndMerge, ExecutionContext.Authorizes]
  cases context.handler.accessRoles <;> cases context.controller.accessRoles <;>
    simp [List.reduceOption]

theorem mem_intersection {xs : List AccessRole} {roles : Field (List AccessRole)}
    {role : AccessRole} : role ∈ intersection xs roles ↔ role ∈ xs ∧ roles.HasRole role := by
  cases roles <;> simp [intersection, Field.HasRole]

theorem isUserAuthorized_iff {context : ExecutionContext} {payload : AccessTokenPayload} :
    AuthenticationGuard.isUserAuthorized context payload = true ↔
      context.Admits payload.sub payload.roles := by
  have hmatching : (intersection
      (Reflector.getAllAndMerge [context.handler.accessRoles, context.controller.accessRoles])
      payload.roles).length ≠ 0 ↔
      ∃ role, context.Authorizes role ∧ payload.roles.HasRole role := by
    rw [Ne, List.length_eq_zero_iff, List.eq_nil_iff_forall_not_mem, not_forall]
    simp only [not_not, mem_intersection, mem_getAllAndMerge]
  simp only [AuthenticationGuard.isUserAuthorized, ExecutionContext.Admits]
  split
  · rename_i h
    simp [h]
  · rename_i h
    split
    · rename_i h'
      simp [h']
    · rename_i h'
      simp only [bne_iff_ne, hmatching, h, h', false_or]

theorem extractTokenFromHeader_eq_some {context : ExecutionContext} {token : String} :
    AuthenticationGuard.extractTokenFromHeader context = some token ↔ context.Bears token := by
  simp only [AuthenticationGuard.extractTokenFromHeader, ExecutionContext.Bears]
  cases context.authorization with
  | none => simp
  | some header =>
      simp only [Option.map_some, Option.getD_some, Option.some.injEq, exists_eq_left',
        exists_and_left]
      split
      · rename_i type word words h
        simp only [h, Option.ite_none_right_eq_some, Option.some.injEq, List.cons.injEq]
        constructor
        · rintro ⟨rfl, rfl⟩
          exact ⟨words, rfl, rfl, rfl⟩
        · rintro ⟨_, rfl, rfl, _⟩
          exact ⟨rfl, rfl⟩
      · rename_i h
        simp only [reduceCtorEq, false_iff, not_exists]
        intro words hwords
        exact h _ _ _ hwords

/-- The lifetime of the token is not over. -/
def Platform.Unexpired (π : Platform) (w : World) (token : String) : Prop :=
  ∃ payload iat, π.jwtService.sign payload iat = token ∧
    seconds w.clock < iat + π.jwtService.expiresIn

theorem Platform.verifyAsync_eq_some {π : Platform} {w : World} {token : String}
    {payload : AccessTokenPayload} :
    π.verifyAsync w token = some payload ↔
      ∃ iat, (payload, iat) ∈ w.issued ∧ π.jwtService.sign payload iat = token ∧
        seconds w.clock < iat + π.jwtService.expiresIn := by
  constructor
  · intro h
    obtain ⟨x, hx, rfl⟩ := Option.map_eq_some_iff.mp h
    have hfound := List.find?_some hx
    simp only [decide_eq_true_eq] at hfound
    exact ⟨x.2, List.mem_of_find?_eq_some hx, hfound⟩
  · rintro ⟨iat, hmem, hsign, hlt⟩
    have hsome : (w.issued.find? fun x =>
        π.jwtService.sign x.1 x.2 = token ∧
          seconds w.clock < x.2 + π.jwtService.expiresIn).isSome = true :=
      List.find?_isSome.mpr ⟨(payload, iat), hmem, by simp [hsign, hlt]⟩
    obtain ⟨x, hx⟩ := Option.isSome_iff_exists.mp hsome
    have hfound := List.find?_some hx
    simp only [decide_eq_true_eq] at hfound
    have hpayload := (π.jwtService.sign_inj (hfound.1.trans hsign.symm)).1
    rw [Platform.verifyAsync, hx, Option.map_some, hpayload]

/-- A non-public route is passed with a token that verifies and admits. -/
theorem canActivate_iff {π : Platform} {w : World} {context : ExecutionContext}
    (hpublic : AuthenticationGuard.isRoutePublic context = false) :
    AuthenticationGuard.canActivate π w context = .ok true ↔
      ∃ token payload, context.Bears token ∧ π.verifyAsync w token = some payload ∧
        context.Admits payload.sub payload.roles := by
  simp only [AuthenticationGuard.canActivate, hpublic, Bool.false_eq_true, if_false]
  split
  · rename_i hnone
    simp only [reduceCtorEq, false_iff, not_exists]
    rintro token payload ⟨hbears, _⟩
    rw [extractTokenFromHeader_eq_some.mpr hbears] at hnone
    cases hnone
  · rename_i token hsome
    have hbears := extractTokenFromHeader_eq_some.mp hsome
    have huniq : ∀ token', context.Bears token' → token' = token := fun token' h =>
      Option.some.inj ((extractTokenFromHeader_eq_some.mpr h).symm.trans hsome)
    split
    · rename_i hnone
      simp only [reduceCtorEq, false_iff, not_exists]
      rintro token' payload ⟨hbears', hverify, _⟩
      rw [huniq token' hbears', hnone] at hverify
      cases hverify
    · rename_i payload hverify
      simp only [Except.ok.injEq, isUserAuthorized_iff]
      constructor
      · exact fun h => ⟨token, payload, hbears, hverify, h⟩
      · rintro ⟨token', payload', hbears', hverify', hadmits⟩
        rw [huniq token' hbears', hverify] at hverify'
        cases hverify'
        exact hadmits

end RpiNestApi
