import RpiNestApi.Http.Routes
import RpiNestApi.Authentication.Tokens

/-
Which handler a request reaches, and who reaches it.

A request is admitted where the router finds a route for it and the guard lets it
pass with the metadata of that route.  Before the handler runs the pipe may still refuse
what the request sends.
-/

namespace RpiNestApi

namespace Http

open Async

def Route.context (route : Route) (request : Request) : ExecutionContext :=
  { authorization := request.authorization, handler := route.metadata,
    controller := route.controllerMetadata }

/-- The handler that the guard lets a request through to in the world `w`. -/
def admittedTo (π : Platform) (w : World) (request : Request) : Option Handler :=
  match dispatch routes request with
  | .error _ => none
  | .ok route =>
    match AuthenticationGuard.canActivate π w (route.context request) with
    | .ok true => some route.handler
    | _ => none

/-! ## The access matrix -/

/-- The handlers that ask for no token. -/
def anonymousHandlers : List Handler :=
  [.openApi .root, .authentication .login, .authentication .resetPassword,
    .authorizationTest .getPublic]

/-- The handlers that let in a role besides the admins. -/
def roleHandlers : AccessRole → List Handler
  | .admin => []
  | .user =>
    [.device .getMetaData, .device .setMetaData, .device .getInstalledPackages,
      .network .getNetworkInterfaces, .network .getActiveConnection, .dateTime .getDateTimeInfo,
      .dateTime .getAvailableTimezones, .authorizationTest .getUser,
      .authorizationTest .getReadOnlyAndUser, .authorizationTest2 .getAdmin,
      .authorizationTest2 .getReadOnly]
  | .readOnly =>
    [.device .getMetaData, .deviceStatus .getCurrentStatus, .deviceStatus .getMetrics,
      .authorizationTest .getReadOnly, .authorizationTest .getReadOnlyAndUser,
      .authorizationTest2 .getReadOnly]

theorem routes_anonymous : ∀ route ∈ routes,
    (Reflector.getAllAndOverride [route.metadata.isPublic,
      route.controllerMetadata.isPublic]).getD false = true ↔
        route.handler ∈ anonymousHandlers := by
  decide +kernel

theorem routes_roles (role : AccessRole) : ∀ route ∈ routes,
    role ∈ Reflector.getAllAndMerge [route.metadata.accessRoles,
      route.controllerMetadata.accessRoles] ↔ route.handler ∈ roleHandlers role := by
  cases role <;> decide +kernel

/-- A user may reach a handler. -/
def Handler.Admits (handler : Handler) (sub : UserLogin) (roles : Field (List AccessRole)) :
    Prop :=
  sub = adminUserName ∨ roles.HasRole .admin ∨
    ∃ role, handler ∈ roleHandlers role ∧ roles.HasRole role

section Route

variable {route : Route}

theorem isRoutePublic_iff (h : route ∈ routes) (request : Request) :
    AuthenticationGuard.isRoutePublic (route.context request) = true ↔
      route.handler ∈ anonymousHandlers :=
  routes_anonymous route h

theorem authorizes_iff (h : route ∈ routes) (request : Request) {role : AccessRole} :
    (route.context request).Authorizes role ↔ route.handler ∈ roleHandlers role := by
  rw [← mem_getAllAndMerge]
  exact routes_roles role route h

theorem admits_iff (h : route ∈ routes) (request : Request) {sub : UserLogin}
    {roles : Field (List AccessRole)} :
    (route.context request).Admits sub roles ↔ route.handler.Admits sub roles := by
  simp only [ExecutionContext.Admits, Handler.Admits, authorizes_iff h]

end Route

/-- The request is for the route of `handler`. -/
def Request.For (request : Request) (handler : Handler) : Prop :=
  ∃ route, dispatch routes request = .ok route ∧ route.handler = handler

/-- The header of the request bears `token`. -/
def Request.Bears (request : Request) (token : String) : Prop :=
  ∃ header words, request.authorization = some header ∧
    split ' ' header = "Bearer" :: token :: words

theorem mem_routes_of_dispatch {request : Request} {route : Route}
    (h : dispatch routes request = .ok route) : route ∈ routes := by
  rw [dispatch] at h
  split at h
  · cases h
  · exact mem_of_next h

variable {π : Platform}

theorem admittedTo_eq_some {w : World} {request : Request} {handler : Handler} :
    admittedTo π w request = some handler ↔ ∃ route, dispatch routes request = .ok route ∧
      route.handler = handler ∧
      AuthenticationGuard.canActivate π w (route.context request) = .ok true := by
  rw [admittedTo]
  cases hdispatch : dispatch routes request with
  | error e => simp
  | ok route =>
      simp only [Except.ok.injEq, exists_eq_left']
      split
      · rename_i h
        simp [h]
      · rename_i h
        constructor
        · rintro ⟨⟩
        · rintro ⟨_, h'⟩
          exact (h h').elim

/-- Who is let through in the world `w`. -/
theorem admitted_cases {w : World} {request : Request} {handler : Handler}
    (h : admittedTo π w request = some handler) :
    handler ∈ anonymousHandlers ∨ ∃ token payload, request.Bears token ∧
      π.verifyAsync w token = some payload ∧ handler.Admits payload.sub payload.roles := by
  obtain ⟨route, hroute, rfl, hguard⟩ := admittedTo_eq_some.mp h
  have hmem := mem_routes_of_dispatch hroute
  cases hpublic : AuthenticationGuard.isRoutePublic (route.context request) with
  | true => exact .inl ((isRoutePublic_iff hmem request).mp hpublic)
  | false =>
      obtain ⟨token, payload, hbears, hverify, hadmits⟩ := (canActivate_iff hpublic).mp hguard
      exact .inr ⟨token, payload, hbears, hverify, (admits_iff hmem request).mp hadmits⟩

/-- In every reachable state the guard lets through to a handler exactly the requests for
its route that need no token, or bear an unexpired one from a login of the run whose record
admits to the handler. -/
theorem admitted_iff {as : List Service.Act} {s : Service.State}
    (hrun : π.system.Run always Service.initial as s) (request : Request) (handler : Handler) :
    admittedTo π s.world request = some handler ↔ request.For handler ∧
      (handler ∈ anonymousHandlers ∨ ∃ token, request.Bears token ∧
        π.Unexpired s.world token ∧ ∃ l : Login π as s, l.token = token ∧
          handler.Admits l.userLogin l.user.roles) := by
  rw [admittedTo_eq_some]
  constructor
  · rintro ⟨route, hroute, rfl, hguard⟩
    have hmem := mem_routes_of_dispatch hroute
    refine ⟨⟨route, hroute, rfl⟩, ?_⟩
    cases hpublic : AuthenticationGuard.isRoutePublic (route.context request) with
    | true => exact .inl ((isRoutePublic_iff hmem request).mp hpublic)
    | false =>
        obtain ⟨token, hbears, hunexpired, l, hl, hadmits⟩ := (accepts_iff hrun hpublic).mp hguard
        exact .inr ⟨token, hbears, hunexpired, l, hl, (admits_iff hmem request).mp hadmits⟩
  · rintro ⟨⟨route, hroute, rfl⟩, haccess⟩
    have hmem := mem_routes_of_dispatch hroute
    refine ⟨route, hroute, rfl, ?_⟩
    cases hpublic : AuthenticationGuard.isRoutePublic (route.context request) with
    | true => rw [AuthenticationGuard.canActivate, if_pos hpublic]
    | false =>
        rcases haccess with hanonymous | ⟨token, hbears, hunexpired, l, hl, hadmits⟩
        · rw [(isRoutePublic_iff hmem request).mpr hanonymous] at hpublic
          cases hpublic
        · exact (accepts_iff hrun hpublic).mpr ⟨token, hbears, hunexpired, l, hl,
            (admits_iff hmem request).mpr hadmits⟩

/-- A request of "bob", who has the role "user". -/
def bobRequest : Request :=
  { method := .get, path := "/device/packages", authorization := some ("Bearer " ++ bobToken) }

theorem admitted_bob :
    ∃ s, Platform.sample.system.Run always Service.initial bobLogin s ∧
      admittedTo Platform.sample s.world bobRequest = some (.device .getInstalledPackages) ∧
      bobRequest.For (.device .getInstalledPackages) := by
  have hrun : Platform.sample.system.Run always Service.initial bobLogin _ :=
    System.run_outcome (by rfl)
  have haccess := (admitted_iff hrun bobRequest (.device .getInstalledPackages)).mp rfl
  exact ⟨_, hrun, rfl, haccess.1⟩

end Http

end RpiNestApi
