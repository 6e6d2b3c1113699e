import RpiNestApi.Async.Answers
import RpiNestApi.Strings
import RpiNestApi.Values

/-
The services that run `raspi-config`.

`ChildProcessService` hands a command and its arguments to a shell and resolves
with what the process has printed.  `RpiConfigCommandService` makes the commands
of `raspi-config` and reads their output, and `DeviceConfigService` answers the
requests with it.
-/

namespace RpiNestApi.ShellCommand

open Async

/-- A child process that is spawned with the option `shell`. -/
structure Spawn where
  command : String
  args : List String
  shell : Bool
  deriving DecidableEq, Repr

/-- What the shell is given: the command and its arguments, joined with spaces. -/
def Spawn.line (p : Spawn) : String := " ".intercalate (p.command :: p.args)

/-- A service awaits processes, each of which prints a text or fails. -/
abbrev Service (α : Type) := Prog Unit Spawn (fun _ => String) Exception α

namespace ChildProcessService

def spawn (command : String) (args : List String) (shell : Bool) : Service String :=
  Prog.call { command, args, shell }

def spawnAuthorized (command : String) (args : List String) (shell : Bool) : Service String :=
  spawn ("/usr/bin/pkexec --disable-internal-agent " ++ command) args shell

end ChildProcessService

def rpiConfigExecutable : String := "/usr/bin/raspi-config"

inductive RpiConfigCommand where
  | enable
  | disable
  | status
  | availstat
  deriving DecidableEq, Repr

def RpiConfigCommand.name : RpiConfigCommand → String
  | .enable => "enable"
  | .disable => "disable"
  | .status => "status"
  | .availstat => "availstat"

structure RpiConfigurationState where
  isEnabled : Bool
  isAvailable : Bool
  value : Option String
  deriving DecidableEq, Repr

def parseStatus (result : String) : Except Exception RpiConfigurationState :=
  if result = "1" then .ok { isAvailable := true, isEnabled := true, value := none }
  else if result = "0" then .ok { isAvailable := true, isEnabled := false, value := none }
  else if result = "2" then .ok { isAvailable := false, isEnabled := false, value := none }
  else .error (.error ("raspi-config availstat returned unexpected value " ++ result))

namespace RpiConfigCommandService

/-- The list in the usage text.  Without one there are no features. -/
def supportedFeatures (result : String) : List String :=
  match secondPart "Supported features: ".toList result.toList with
  | none => []
  | some list =>
    (((list.filter (· != '\n')).splitOn ' ').filter fun x => !x.isEmpty).map String.ofList

/-- Without arguments the usage is printed. -/
def getSupportedConfigurations : Service (List String) := do
  let result ← ChildProcessService.spawnAuthorized rpiConfigExecutable [] true
  return supportedFeatures result

/-- An empty value is not passed on. -/
def executeCommand (command : RpiConfigCommand) (id : String) (value : Option String) :
    Service String := do
  if id = "" then throw (.badRequest "Invalid configuration")
  else
    let args := [command.name, id] ++ (value.toList.filter (· != ""))
    let result ← ChildProcessService.spawnAuthorized rpiConfigExecutable args true
    if "Usage:".toList.isPrefixOf result.toList then
      throw (.badRequest "Invalid command! raspi-config returned usage help message")
    else return String.ofList (trim result.toList)

def enableConfiguration (id : String) (value : Option String) : Service Unit := do
  let _ ← executeCommand .enable id value
  return ()

def disableConfiguration (id : String) : Service Unit := do
  let _ ← executeCommand .disable id none
  return ()

def getConfigurationStates (ids : List String) : Service (List RpiConfigurationState) := do
  let resultString ← executeCommand .availstat (" ".intercalate ids) none
  match (split ' ' resultString).mapM parseStatus with
  | .error e => throw e
  | .ok states => return states

/-- The result of `status`, which may begin with the value that is set. -/
def readStatus (resultString : String) : Except Exception RpiConfigurationState :=
  match split ' ' resultString with
  | [value, status] => (parseStatus status).map fun state => { state with value := some value }
  | result => parseStatus (result.head?.getD "")

def getConfigurationStatus (id : String) : Service RpiConfigurationState := do
  let resultString ← executeCommand .status id none
  match readStatus resultString with
  | .error e => throw e
  | .ok state => return state

end RpiConfigCommandService

/-- The flags are missing where there is no state to take them from. -/
structure DeviceConfigDto where
  id : String
  isEnabled : Option Bool
  isAvailable : Option Bool
  value : Option String
  deriving DecidableEq, Repr

/-- `{ id, ...state }`. -/
def DeviceConfigDto.ofState (id : String) (state : Option RpiConfigurationState) :
    DeviceConfigDto where
  id := id
  isEnabled := state.map (·.isEnabled)
  isAvailable := state.map (·.isAvailable)
  value := state.bind (·.value)

structure UpdateDeviceConfigDto where
  isEnabled : Bool
  value : Field String

namespace DeviceConfigService

def getAllSupportedConfigurations : Service (List DeviceConfigDto) := do
  let allSupportedConfigs ← RpiConfigCommandService.getSupportedConfigurations
  let results ← RpiConfigCommandService.getConfigurationStates allSupportedConfigs
  return allSupportedConfigs.mapIdx fun index id => .ofState id results[index]?

def getConfiguration (id : String) : Service DeviceConfigDto := do
  let result ← RpiConfigCommandService.getConfigurationStatus id
  return .ofState id (some result)

def setConfiguration (id : String) (deviceConfigDto : UpdateDeviceConfigDto) : Service Unit :=
  if deviceConfigDto.isEnabled then
    RpiConfigCommandService.enableConfiguration id <| match deviceConfigDto.value with
      | .value value => some value
      | _ => none
  else RpiConfigCommandService.disableConfiguration id

end DeviceConfigService

end RpiNestApi.ShellCommand
