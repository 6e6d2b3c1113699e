import RpiNestApi.Authentication.Guard
import RpiNestApi.Unicode.Percent
import Mathlib.Data.List.Find

/-
The routes of the controllers, with the metadata their decorators set.

The router takes the first route, in the order of registration, whose method and
path fit a request.  Where it cannot decode a name in the path it takes none.  No two
routes fit one request, and a route that fits a path fits all that cannot be decoded in
it, so that the order, which follows from the imports of the modules, never decides which
metadata the guard goes by.
-/

namespace RpiNestApi

namespace Http

inductive Method where
  | get
  | head
  | post
  | put
  | patch
  | delete
  deriving DecidableEq, Repr

/-- A part of a route's path: a text, or `:name`. -/
inductive Segment where
  | literal (text : String)
  | param (name : String)
  deriving DecidableEq, Repr

inductive AuthenticationController where
  | login
  | updatePassword
  | resetPassword
  deriving DecidableEq, Repr

inductive UserController where
  | getAll
  | update
  | create
  | remove
  deriving DecidableEq, Repr

inductive AuthorizationTestController where
  | getPublic
  | getAdmin
  | getUser
  | getReadOnly
  | getReadOnlyAndUser
  deriving DecidableEq, Repr

inductive AuthorizationTestController2 where
  | getAdmin
  | getReadOnly
  deriving DecidableEq, Repr

inductive OpenApiController where
  | root
  deriving DecidableEq, Repr

inductive DeviceController where
  | getMetaData
  | setMetaData
  | getInstalledPackages
  deriving DecidableEq, Repr

inductive DeviceConfigController where
  | getAllConfigurations
  | getConfiguration
  | setConfiguration
  deriving DecidableEq, Repr

inductive NetworkController where
  | getNetworkInterfaces
  | getActiveConnection
  | updateNetworkInterface
  | commitChanges
  deriving DecidableEq, Repr

inductive DateTimeController where
  | getDateTimeInfo
  | getAvailableTimezones
  | updateDateTime
  | updateNtpSettings
  deriving DecidableEq, Repr

inductive DeviceStatusController where
  | getCurrentStatus
  | getMetrics
  deriving DecidableEq, Repr

inductive DeviceAdminController where
  | reboot
  | generateSosReport
  deriving DecidableEq, Repr

inductive SyslogController where
  | getSyslog
  deriving DecidableEq, Repr

inductive Handler where
  | authentication (handler : AuthenticationController)
  | user (handler : UserController)
  | authorizationTest (handler : AuthorizationTestController)
  | authorizationTest2 (handler : AuthorizationTestController2)
  | openApi (handler : OpenApiController)
  | device (handler : DeviceController)
  | deviceConfig (handler : DeviceConfigController)
  | network (handler : NetworkController)
  | dateTime (handler : DateTimeController)
  | deviceStatus (handler : DeviceStatusController)
  | deviceAdmin (handler : DeviceAdminController)
  | syslog (handler : SyslogController)
  deriving DecidableEq, Repr

structure Route where
  method : Method
  path : List Segment
  handler : Handler
  metadata : RouteMetadata
  controllerMetadata : RouteMetadata
  deriving DecidableEq, Repr

/-- A class with `@Controller(path)`. -/
structure Controller where
  path : List Segment
  metadata : RouteMetadata

def Controller.route (c : Controller) (method : Method) (path : List Segment)
    (metadata : RouteMetadata) (handler : Handler) : Route :=
  { method, path := c.path ++ path, handler, metadata, controllerMetadata := c.metadata }

/-! ## The table -/

/-- Neither `@Public()` nor `@AuthorizedRoles()`. -/
def undecorated : RouteMetadata := { isPublic := none, accessRoles := none }

/-- `@Public()`. -/
def publicAccess : RouteMetadata := { isPublic := some true, accessRoles := none }

/-- `@AuthorizedRoles(...roles)`. -/
def authorizedRoles (roles : List AccessRole) : RouteMetadata :=
  { isPublic := none, accessRoles := some roles }

def authenticationController : List Route :=
  let c : Controller := { path := [.literal "authentication"], metadata := undecorated }
  [ c.route .post [.literal "login"] publicAccess (.authentication .login),
    c.route .post [.literal "update-password"] undecorated (.authentication .updatePassword),
    c.route .post [.literal "reset-admin-password"] publicAccess
      (.authentication .resetPassword) ]

def userController : List Route :=
  let c : Controller :=
    { path := [.literal "authentication", .literal "user"], metadata := undecorated }
  [ c.route .get [] undecorated (.user .getAll),
    c.route .patch [] undecorated (.user .update),
    c.route .put [] undecorated (.user .create),
    c.route .delete [] undecorated (.user .remove) ]

def authorizationTestController : List Route :=
  let c : Controller := { path := [.literal "authorization-test"], metadata := undecorated }
  [ c.route .get [.literal "public"] publicAccess (.authorizationTest .getPublic),
    c.route .get [.literal "admin"] undecorated (.authorizationTest .getAdmin),
    c.route .get [.literal "user"] (authorizedRoles [.user]) (.authorizationTest .getUser),
    c.route .get [.literal "read-only"] (authorizedRoles [.readOnly])
      (.authorizationTest .getReadOnly),
    c.route .get [.literal "read-only-and-user"] (authorizedRoles [.readOnly, .user])
      (.authorizationTest .getReadOnlyAndUser) ]

def authorizationTestController2 : List Route :=
  let c : Controller :=
    { path := [.literal "authorization-test-user"], metadata := authorizedRoles [.user] }
  [ c.route .get [.literal "admin"] undecorated (.authorizationTest2 .getAdmin),
    c.route .get [.literal "read-only"] (authorizedRoles [.readOnly])
      (.authorizationTest2 .getReadOnly) ]

def openApiController : List Route :=
  let c : Controller := { path := [], metadata := publicAccess }
  [ c.route .get [] publicAccess (.openApi .root) ]

def deviceController : List Route :=
  let c : Controller := { path := [.literal "device"], metadata := authorizedRoles [.user] }
  [ c.route .get [.literal "metadata"] (authorizedRoles [.readOnly]) (.device .getMetaData),
    c.route .post [.literal "metadata"] undecorated (.device .setMetaData),
    c.route .get [.literal "packages"] undecorated (.device .getInstalledPackages) ]

def deviceConfigController : List Route :=
  let c : Controller :=
    { path := [.literal "device", .literal "config"], metadata := undecorated }
  [ c.route .get [] undecorated (.deviceConfig .getAllConfigurations),
    c.route .get [.param "id"] undecorated (.deviceConfig .getConfiguration),
    c.route .patch [.param "id"] undecorated (.deviceConfig .setConfiguration) ]

def networkController : List Route :=
  let c : Controller :=
    { path := [.literal "device", .literal "network"], metadata := undecorated }
  [ c.route .get [.literal "interfaces"] (authorizedRoles [.user])
      (.network .getNetworkInterfaces),
    c.route .get [.literal "interface", .param "interfaceName"] (authorizedRoles [.user])
      (.network .getActiveConnection),
    c.route .patch [.literal "interface", .param "interfaceName"] undecorated
      (.network .updateNetworkInterface),
    c.route .post [.literal "commit", .param "checkpointId"] undecorated
      (.network .commitChanges) ]

def dateTimeController : List Route :=
  let c : Controller :=
    { path := [.literal "device", .literal "date-time"], metadata := undecorated }
  [ c.route .get [] (authorizedRoles [.user]) (.dateTime .getDateTimeInfo),
    c.route .get [.literal "timezones"] (authorizedRoles [.user])
      (.dateTime .getAvailableTimezones),
    c.route .patch [] undecorated (.dateTime .updateDateTime),
    c.route .patch [.literal "ntp"] undecorated (.dateTime .updateNtpSettings) ]

def deviceStatusController : List Route :=
  let c : Controller := { path := [.literal "device"], metadata := authorizedRoles [.readOnly] }
  [ c.route .get [.literal "status"] undecorated (.deviceStatus .getCurrentStatus),
    c.route .get [.literal "metrics"] undecorated (.deviceStatus .getMetrics) ]

def deviceAdminController : List Route :=
  let c : Controller :=
    { path := [.literal "device", .literal "admin"], metadata := undecorated }
  [ c.route .post [.literal "reboot"] undecorated (.deviceAdmin .reboot),
    c.route .post [.literal "generate-sos-report"] undecorated
      (.deviceAdmin .generateSosReport) ]

def syslogController : List Route :=
  let c : Controller :=
    { path := [.literal "device", .literal "syslog"], metadata := undecorated }
  [ c.route .get [.param "name"] undecorated (.syslog .getSyslog) ]

def routes : List Route :=
  openApiController ++ deviceController ++ deviceConfigController ++ networkController ++
    dateTimeController ++ deviceStatusController ++ deviceAdminController ++ syslogController ++
    authenticationController ++ userController ++ authorizationTestController ++
    authorizationTestController2

/-! ## Routing -/

structure Request where
  method : Method
  path : String
  authorization : Option String
  deriving DecidableEq, Repr

/-- The parts of a path.  A slash at its end is not significant. -/
def pathParts (path : String) : Option (List String) :=
  match split '/' path with
  | "" :: parts => some (if parts.getLast? = some "" then parts.dropLast else parts)
  | _ => none

/-- Texts are compared without regard to the case of their letters. -/
def Segment.fits : Segment → String → Bool
  | .literal text, part => part.toList.map Char.toLower == text.toList
  | .param _, part => part != ""

def fitsPath : List Segment → List String → Bool
  | [], [] => true
  | segment :: segments, part :: parts => segment.fits part && fitsPath segments parts
  | _, _ => false

/-- A HEAD request is taken to the handler of GET. -/
def Method.handles : Method → Method → Bool
  | .get, .head => true
  | method, method' => method == method'

def Route.fits (route : Route) (method : Method) (parts : List String) : Bool :=
  route.method.handles method && fitsPath route.path parts

/-- The texts that stand in the places of names. -/
def pathParams : List Segment → List String → Option (List (String × String))
  | .literal _ :: segments, _ :: parts => pathParams segments parts
  | .param name :: segments, part :: parts => do
    let text ← Percent.decodeURIComponent part.toList
    let params ← pathParams segments parts
    return (name, String.ofList text) :: params
  | _, _ => some []

/-- What the router answers by itself. -/
inductive RouterError where
  | notFound
  | badRequest
  deriving DecidableEq, Repr

/-- The route that is taken of those that are left.  Names are decoded as soon as a path fits,
before the method is looked at, and once that has `failed` no route is taken. -/
def next (method : Method) (parts : List String) (failed : Bool) :
    List Route → Except RouterError Route
  | [] => .error (if failed then .badRequest else .notFound)
  | route :: table =>
    if fitsPath route.path parts then
      if (pathParams route.path parts).isNone then next method parts true table
      else if failed || !route.method.handles method then next method parts failed table
      else .ok route
    else next method parts failed table

def dispatch (table : List Route) (request : Request) : Except RouterError Route :=
  match pathParts request.path with
  | none => .error .notFound
  | some parts => next request.method parts false table

theorem mem_of_next {method : Method} {parts : List String} {failed : Bool} {table : List Route}
    {route : Route} (h : next method parts failed table = .ok route) : route ∈ table := by
  induction table generalizing failed with
  | nil => cases h
  | cons route' table ih =>
      rw [next] at h
      split at h
      · split at h
        · exact List.mem_cons_of_mem _ (ih h)
        · split at h
          · exact List.mem_cons_of_mem _ (ih h)
          · cases h
            exact List.mem_cons_self
      · exact List.mem_cons_of_mem _ (ih h)

/-! ## The order of the routes -/

/-- A text of the table is no text with escapes. -/
def Segment.plain : Segment → Bool
  | .literal text => !text.toList.contains '%'
  | .param _ => true

theorem routes_plain : ∀ route ∈ routes, route.path.all Segment.plain = true := by
  decide +kernel

def decodes (part : String) : Bool := (Percent.decodeURIComponent part.toList).isSome

theorem Segment.decodes_of_fits {text part : String}
    (hplain : (Segment.literal text).plain = true)
    (h : (Segment.literal text).fits part = true) : decodes part = true := by
  simp only [Segment.plain, Bool.not_eq_true', List.contains_eq_mem, decide_eq_false_iff_not]
    at hplain
  simp only [Segment.fits, beq_iff_eq] at h
  have hpercent : '%' ∉ part.toList := fun hmem => hplain (h ▸ List.mem_map_of_mem hmem)
  rw [decodes, Percent.decodeURIComponent_of_notMem hpercent]
  rfl

/-- All of a path is decoded, or none of its names are. -/
theorem isSome_pathParams {segments : List Segment} {parts : List String}
    (hplain : segments.all Segment.plain = true) (h : fitsPath segments parts = true) :
    (pathParams segments parts).isSome = parts.all decodes := by
  induction parts generalizing segments with
  | nil =>
      cases segments with
      | nil => rfl
      | cons segment segments => cases h
  | cons part parts ih =>
      cases segments with
      | nil => cases h
      | cons segment segments =>
          simp only [fitsPath, Bool.and_eq_true] at h
          simp only [List.all_cons, Bool.and_eq_true] at hplain
          have hrest := ih hplain.2 h.2
          cases segment with
          | literal text =>
              rw [List.all_cons, Segment.decodes_of_fits hplain.1 h.1, Bool.true_and, ← hrest]
              rfl
          | param name =>
              rw [List.all_cons, ← hrest, decodes]
              simp only [pathParams, Option.bind_eq_bind]
              cases Percent.decodeURIComponent part.toList with
              | none => rfl
              | some text => cases pathParams segments parts <;> rfl

theorem next_failed (method : Method) (parts : List String) (table : List Route) :
    next method parts true table = .error .badRequest := by
  induction table with
  | nil => rfl
  | cons route table ih =>
      rw [next]
      split
      · split
        · exact ih
        · exact ih
      · exact ih

/-- A path that can be decoded is routed by the first route that fits.  The others are bad
requests where a route would have fitted. -/
theorem next_eq {table : List Route}
    (hplain : ∀ route ∈ table, route.path.all Segment.plain = true) (method : Method)
    (parts : List String) : next method parts false table =
      if parts.all decodes then
        (table.find? fun route => route.fits method parts).elim (.error .notFound) .ok
      else if table.any fun route => fitsPath route.path parts then .error .badRequest
      else .error .notFound := by
  induction table with
  | nil =>
      split
      · rfl
      · rfl
  | cons route table ih =>
      have hrest := ih fun route' h => hplain route' (List.mem_cons_of_mem _ h)
      rw [next]
      cases hpath : fitsPath route.path parts with
      | false =>
          have hfits : route.fits method parts = false := by rw [Route.fits, hpath, Bool.and_false]
          rw [if_neg Bool.false_ne_true, hrest, List.find?_cons_of_neg (by simp [hfits]),
            List.any_cons, hpath, Bool.false_or]
      | true =>
          have hparams := isSome_pathParams (hplain route List.mem_cons_self) hpath
          cases hdecodes : parts.all decodes with
          | false =>
              rw [hdecodes, Option.isSome_eq_false_iff] at hparams
              rw [if_pos rfl, if_pos hparams, next_failed, if_neg Bool.false_ne_true,
                List.any_cons, hpath, Bool.true_or, if_pos rfl]
          | true =>
              rw [hdecodes, ← Option.isNone_eq_false_iff] at hparams
              rw [if_pos rfl, hparams, if_neg Bool.false_ne_true, if_pos rfl, Bool.false_or]
              have hfits : route.fits method parts = route.method.handles method := by
                rw [Route.fits, hpath, Bool.and_true]
              cases hmethod : route.method.handles method with
              | true =>
                  have hfind : (route :: table).find? (fun route => route.fits method parts) =
                      some route := List.find?_cons_of_pos (hfits.trans hmethod)
                  rw [hfind]
                  rfl
              | false =>
                  rw [List.find?_cons_of_neg (by simp [hfits, hmethod]), Bool.not_false,
                    if_pos rfl, hrest, hdecodes, if_pos rfl]

/-- Some text fits both. -/
def Segment.meets : Segment → Segment → Bool
  | .literal text, .literal text' => text == text'
  | _, _ => true

def meetPaths : List Segment → List Segment → Bool
  | [], [] => true
  | segment :: segments, segment' :: segments' =>
    segment.meets segment' && meetPaths segments segments'
  | _, _ => false

/-- Some method is handled by both. -/
def Method.meets : Method → Method → Bool
  | .get, .head => true
  | .head, .get => true
  | method, method' => method == method'

def Route.meets (route route' : Route) : Bool :=
  route.method.meets route'.method && meetPaths route.path route'.path

theorem Method.meets_of_handles {method method' name : Method} (h : method.handles name = true)
    (h' : method'.handles name = true) : method.meets method' = true := by
  cases name <;> cases method <;> first | cases h; done | cases method' <;> first | rfl | cases h'

theorem Segment.meets_of_fits {segment segment' : Segment} {part : String}
    (h : segment.fits part = true) (h' : segment'.fits part = true) :
    segment.meets segment' = true := by
  cases segment with
  | param name => rfl
  | literal text =>
      cases segment' with
      | param name => rfl
      | literal text' =>
          simp only [Segment.fits, beq_iff_eq] at h h'
          simp only [Segment.meets, beq_iff_eq]
          exact String.toList_inj.mp (h.symm.trans h')

theorem meetPaths_of_fits {segments segments' : List Segment} {parts : List String}
    (h : fitsPath segments parts = true) (h' : fitsPath segments' parts = true) :
    meetPaths segments segments' = true := by
  induction parts generalizing segments segments' with
  | nil =>
      cases segments with
      | cons segment segments => cases h
      | nil =>
          cases segments' with
          | nil => rfl
          | cons segment' segments' => cases h'
  | cons part parts ih =>
      cases segments with
      | nil => cases h
      | cons segment segments =>
          cases segments' with
          | nil => cases h'
          | cons segment' segments' =>
              simp only [fitsPath, Bool.and_eq_true] at h h'
              simp only [meetPaths, Bool.and_eq_true]
              exact ⟨Segment.meets_of_fits h.1 h'.1, ih h.2 h'.2⟩

theorem Route.meets_of_fits {route route' : Route} {method : Method} {parts : List String}
    (h : route.fits method parts = true) (h' : route'.fits method parts = true) :
    route.meets route' = true := by
  simp only [Route.fits, Bool.and_eq_true] at h h'
  simp only [Route.meets, Bool.and_eq_true]
  exact ⟨Method.meets_of_handles h.1 h'.1, meetPaths_of_fits h.2 h'.2⟩

/-- No two routes of the table meet. -/
theorem routes_apart : ∀ route ∈ routes, ∀ route' ∈ routes, route.meets route' = true →
    route = route' := by
  decide +kernel

theorem routes_unique {route route' : Route} (h : route ∈ routes) (h' : route' ∈ routes)
    {method : Method} {parts : List String} (hfits : route.fits method parts = true)
    (hfits' : route'.fits method parts = true) : route = route' :=
  routes_apart route h route' h' (Route.meets_of_fits hfits hfits')

/-- The order in which the controllers register their routes does not tell which
handler a request reaches, nor which error it is answered with. -/
theorem dispatch_of_perm {table : List Route} (hperm : table.Perm routes) (request : Request) :
    dispatch table request = dispatch routes request := by
  simp only [dispatch]
  cases pathParts request.path with
  | none => rfl
  | some parts =>
      have hplain : ∀ route ∈ table, route.path.all Segment.plain = true := fun route h =>
        routes_plain route (hperm.subset h)
      have hfind : (table.find? fun route => route.fits request.method parts) =
          routes.find? fun route => route.fits request.method parts := by
        refine (List.find?_eq_find?_of_perm hperm.symm ?_).symm
        rintro route ⟨h, hfits⟩ route' ⟨h', hfits'⟩
        exact routes_unique h h' hfits hfits'
      simp only [next_eq hplain, next_eq routes_plain, hfind, hperm.any_eq]

/-- A malformed escape, whatever the method. -/
example : dispatch routes { method := .put, path := "/device/config/%", authorization := none } =
    .error .badRequest := by decide +kernel

def configRequest : Request :=
  { method := .get, path := "/Device/Config/", authorization := none }

theorem dispatch_reversed :
    dispatch routes.reverse configRequest = dispatch routes configRequest :=
  dispatch_of_perm (List.reverse_perm routes) configRequest

end Http

end RpiNestApi
