import RpiNestApi.Network.World

/-
`NetworkSettingsService`, `NetworkService` and the system they run in.
-/

namespace RpiNestApi.Network

open Async

namespace NetworkSettingsService

/-- `getMethodInterface` and `getPropertiesInterface` of a proxy. -/
def getInterface (path : ObjectPath) (interface : String) : Service Unit :=
  await (.proxyObject path interface)

def networkManagerMethods : Service Unit :=
  getInterface "/org/freedesktop/NetworkManager" "org.freedesktop.NetworkManager"

def getDeviceProperties (devicePath : ObjectPath) : Service ObjectPath := do
  getInterface devicePath "org.freedesktop.DBus.Properties"
  await (.deviceProperties devicePath)

def getActiveConnectionProperties (activeConnection : ObjectPath) : Service ObjectPath := do
  getInterface activeConnection "org.freedesktop.DBus.Properties"
  await (.activeConnectionProperties activeConnection)

def commitChanges (checkpointId : String) : Service Unit := do
  networkManagerMethods
  await (.checkpointDestroy (checkpointPath checkpointId))

/-- Save the settings, and leave it to a callback to apply them after the
response was sent. -/
def saveAndApplyLater (devicePath connection : ObjectPath) (currentSettings : VariantParentObject)
    (checkpointId : String) : Service String := do
  await (.update connection currentSettings checkpointId)
  let currentVersion ← await (.getAppliedConnection devicePath currentSettings checkpointId)
  Prog.modify fun w =>
    { w with
      immediates :=
        w.immediates ++ [{ checkpointId, devicePath, currentSettings, currentVersion }] }
  return checkpointId

def updateActiveConnectionOfDevice (deviceName : String) (updateSettings : UpdatableSettings) :
    Service String := do
  networkManagerMethods
  let device ← await (.getDeviceByIpIface deviceName)
  match device with
  | none => throw (.error ("No device found with name '" ++ deviceName ++ "'"))
  | some devicePath =>
    if devicePath = "/" then
      throw (.error ("No device found with name '" ++ deviceName ++ "'"))
    else
      let activeConnection ← getDeviceProperties devicePath
      let connection ← getActiveConnectionProperties activeConnection
      getInterface devicePath "org.freedesktop.NetworkManager.Device"
      getInterface connection "org.freedesktop.NetworkManager.Settings.Connection"
      let currentSettings ← await (.getSettings connection)
      match updateSettings.apply currentSettings with
      | .error e => throw e
      | .ok currentSettings =>
        let checkpointPath ← await (.checkpointCreate devicePath currentSettings)
        match checkpointId checkpointPath with
        | none => throw (.error "Error while creating checkpoint for connection settings")
        | some checkpointId =>
          try
            saveAndApplyLater devicePath connection currentSettings checkpointId
          catch _ =>
            throw (.internalServerError "Error while updating connection settings")

/-- The callback given to `setImmediate`.  A failure is only logged. -/
def applyNewSettings (immediate : Immediate) : Service Unit := do
  try
    await (.reapply immediate)
  catch _ =>
    Prog.modify fun w => { w with logged := w.logged ++ [immediate] }

end NetworkSettingsService

namespace NetworkService

def confirmationUrl (config : ApiConfig) (checkpointId : String) : String :=
  config.protocol ++ "://" ++ config.hostname ++ ":" ++ config.port ++
    "/device/network/commit/" ++ checkpointId

def update (apiConfig : ApiConfig) (interfaceName : String) (config : UpdateNetworkConfigDto) :
    Service String := do
  match config.toInternal with
  | .error e => throw e
  | .ok updateSettings =>
    let checkpointId ←
      NetworkSettingsService.updateActiveConnectionOfDevice interfaceName updateSettings
    return confirmationUrl apiConfig checkpointId

def commit (checkpointId : String) : Service Unit := do
  try
    NetworkSettingsService.commitChanges checkpointId
  catch _ =>
    throw (.badRequest "Invalid checkpoint")

end NetworkService

/-! ## The system -/

/-- `immediate` is the event loop running the next callback. -/
inductive Call where
  | update (interfaceName : String) (config : UpdateNetworkConfigDto)
  | commit (checkpointId : String)
  | immediate

inductive Response where
  | void
  | confirm (confirmationUrl : String)
  deriving DecidableEq, Repr

inductive Choice where
  | resolve
  | reject (e : Exception)

/-- A live checkpoint expires. -/
inductive Env where
  | expire (checkpointPath : ObjectPath)

/-- Take the next callback and run it. -/
def runImmediate : Service Unit := do
  let w ← Prog.read
  match w.immediates with
  | [] => return ()
  | immediate :: immediates =>
    Prog.modify fun w => { w with immediates }
    NetworkSettingsService.applyNewSettings immediate

namespace Host

variable (η : Host)

def body : Call → Service Response
  | .update interfaceName config => do
    let confirmationUrl ← NetworkService.update η.config interfaceName config
    return .confirm confirmationUrl
  | .commit checkpointId => do
    NetworkService.commit checkpointId
    return .void
  | .immediate => do
    runImmediate
    return .void

def accept : Call → World → Option World
  | .immediate, w => match w.immediates with
    | [] => none
    | _ :: _ => some w
  | _, w => some w

/-- A checkpoint has the path of the next number. -/
def createCheckpoint (device : ObjectPath) (w : World) : Option (ObjectPath × World) :=
  let path := checkpointPath (η.checkpoint (w.checkpoints + 1))
  (w.networkManager.create η.profile path device).map fun networkManager =>
    (path, { w with networkManager, checkpoints := w.checkpoints + 1 })

def answer : (q : Await) → Choice → World → Option (Except Exception q.Answer × World)
  | .proxyObject _ _, .resolve, w => some (.ok (), w)
  | .getDeviceByIpIface interfaceName, .resolve, w =>
    some (.ok (η.deviceByIpIface interfaceName), w)
  | .deviceProperties device, .resolve, w => some (.ok (η.activeConnection device), w)
  | .activeConnectionProperties activeConnection, .resolve, w =>
    some (.ok (η.connection activeConnection), w)
  | .getSettings connection, .resolve, w =>
    some (.ok (η.getSettings (w.networkManager.saved connection)), w)
  | .checkpointCreate device _, .resolve, w =>
    (η.createCheckpoint device w).map fun r => (.ok r.1, r.2)
  | .update connection settings _, .resolve, w =>
    some (.ok (), { w with networkManager := w.networkManager.save connection settings })
  | .getAppliedConnection device _ _, .resolve, w => some (.ok (w.version device), w)
  | .reapply immediate, .resolve, w =>
    some (.ok (),
      { w with
        version := Function.update w.version immediate.devicePath
          (w.version immediate.devicePath + 1)
        reapplied := w.reapplied ++ [immediate] })
  | .checkpointDestroy path, .resolve, w =>
    (w.networkManager.destroy path).map fun networkManager => (.ok (), { w with networkManager })
  | _, .reject e, w => some (.error e, w)

def env : Env → World → Option World
  | .expire path, w =>
    (w.networkManager.expire η.profile path).map fun networkManager => { w with networkManager }

def system : System World Await Await.Answer Exception Response Call Choice Env :=
  { body := η.body, accept := Host.accept, answer := η.answer, env := η.env }

end Host

/-- No request was made yet, and the connections have the settings `saved`. -/
def World.init (saved : ObjectPath → VariantParentObject) : World :=
  { networkManager := .init saved, checkpoints := 0, version := fun _ => 0, immediates := [],
    reapplied := [], logged := [] }

/-! A host and a request, for runs on given inputs. -/

theorem toString_injective {m n : Nat} (h : toString m = toString n) : m = n := by
  have hdigits := congrArg String.toList h
  rw [Nat.toString_eq_repr, Nat.toString_eq_repr, Nat.toList_repr, Nat.toList_repr] at hdigits
  have hvalue := congrArg (fun cs => Nat.ofDigitChars 10 cs 0) hdigits
  rwa [Nat.ofDigitChars_toDigits (by decide) (by decide),
    Nat.ofDigitChars_toDigits (by decide) (by decide)] at hvalue

theorem pathElement_toString (n : Nat) : PathElement (toString n) where
  ne_empty h := by
    have hdigits := congrArg String.toList h
    rw [Nat.toString_eq_repr, Nat.toList_repr] at hdigits
    exact Nat.toDigits_ne_nil hdigits
  chars c hc := by
    rw [Nat.toString_eq_repr, Nat.toList_repr] at hc
    have hdigit := Nat.isDigit_of_mem_toDigits (by decide) (by decide) hc
    exact .inl (by rw [Char.isAlphanum, hdigit, Bool.or_true])

/-- Checkpoints are numbered. -/
def Host.sample : Host where
  deviceByIpIface interfaceName :=
    some ("/org/freedesktop/NetworkManager/Devices/" ++ interfaceName)
  activeConnection device := "/org/freedesktop/NetworkManager/ActiveConnection" ++ device
  connection activeConnection := "/org/freedesktop/NetworkManager/Settings" ++ activeConnection
  getSettings := id
  own _ _ h := (String.append_right_inj _).mp ((String.append_right_inj _).mp h)
  checkpoint n := toString n
  fresh _ _ h := toString_injective h
  element := pathElement_toString
  config := { protocol := "http", hostname := "raspberrypi", port := "3000" }

/-- Settings with an empty section for each family. -/
def emptySettings : VariantParentObject := AList.insert "ipv4" ∅ (AList.insert "ipv6" ∅ ∅)

def eth0 : ObjectPath := "/org/freedesktop/NetworkManager/Devices/eth0"

/-- Every connection has the empty settings. -/
def sampleWorld : World := .init fun _ => emptySettings

/-- A request for DHCP on "eth0". -/
def updateEth0 : Call :=
  .update "eth0"
    { ipv4 := .value
        { address := .undefined, networkPrefix := .undefined, gateway := .undefined,
          dns := .undefined, method := .string "auto" }
      ipv6 := .undefined }

/-- The twelve awaits of an update that is not rejected. -/
def runUpdate (i : Nat) : List (Act Call Choice Env) :=
  .start i updateEth0 :: List.replicate 12 (.resume i .resolve)

end RpiNestApi.Network
