import RpiNestApi.Async.Pool
import RpiNestApi.Network.Settings
import RpiNestApi.Store.Checkpointed

/-
NetworkManager as the network service sees it, and the promises it awaits.

NetworkManager keeps the saved settings of each connection, and checkpoints of
devices.  Every D-Bus call may fail, and one that fails has no effect.
-/

namespace RpiNestApi.Network

open Async

/-- D-Bus object paths. -/
abbrev ObjectPath := String

structure ApiConfig where
  protocol : String
  hostname : String
  port : String

/-- An element of an object path, between two slashes. -/
structure PathElement (text : String) : Prop where
  ne_empty : text ≠ ""
  chars : ∀ c ∈ text.toList, c.isAlphanum = true ∨ c = '_'

/-- The device the API runs on: its network devices and their connections, the checkpoints that
NetworkManager makes for it, and the configuration.  `getSettings` is what `GetSettings` returns
of saved settings, and `checkpoint n` the last element of the path of the checkpoint number `n`. -/
structure Host where
  deviceByIpIface : String → Option ObjectPath
  activeConnection : ObjectPath → ObjectPath
  connection : ObjectPath → ObjectPath
  getSettings : VariantParentObject → VariantParentObject
  /-- Each device has a connection profile of its own. -/
  own : Function.Injective fun device => connection (activeConnection device)
  checkpoint : Nat → String
  /-- No checkpoint has a path that was used before. -/
  fresh : Function.Injective checkpoint
  element : ∀ n, PathElement (checkpoint n)
  config : ApiConfig

/-- The settings of a device's active connection. -/
def Host.profile (η : Host) (device : ObjectPath) : ObjectPath :=
  η.connection (η.activeConnection device)

theorem Host.profile_injective (η : Host) : Function.Injective η.profile := η.own

/-- What a `setImmediate` callback of an update has in scope. -/
structure Immediate where
  checkpointId : String
  devicePath : ObjectPath
  currentSettings : VariantParentObject
  currentVersion : Nat

/-- `checkpoints` is the number of checkpoints made so far and `version` that of
the connection applied to a device.  `immediates` are the callbacks the event
loop has yet to run, `reapplied` those whose `Reapply` has succeeded, and
`logged` those that have logged an error instead. -/
structure World where
  networkManager : Checkpointed.Store ObjectPath ObjectPath ObjectPath VariantParentObject
  checkpoints : Nat
  version : ObjectPath → Nat
  immediates : List Immediate
  reapplied : List Immediate
  logged : List Immediate

/-- The promises the services await, named after the method that makes them.
From `checkpointCreate` on they name the settings to be saved and the id of the
checkpoint as well, which the request holds by then. -/
inductive Await where
  | proxyObject (path : ObjectPath) (interface : String)
  | getDeviceByIpIface (interfaceName : String)
  | deviceProperties (device : ObjectPath)
  | activeConnectionProperties (activeConnection : ObjectPath)
  | getSettings (connection : ObjectPath)
  | checkpointCreate (device : ObjectPath) (settings : VariantParentObject)
  | update (connection : ObjectPath) (settings : VariantParentObject) (checkpointId : String)
  | getAppliedConnection (device : ObjectPath) (settings : VariantParentObject)
      (checkpointId : String)
  | reapply (immediate : Immediate)
  | checkpointDestroy (checkpointPath : ObjectPath)

@[reducible] def Await.Answer : Await → Type
  | .getDeviceByIpIface _ => Option ObjectPath
  | .deviceProperties _ => ObjectPath
  | .activeConnectionProperties _ => ObjectPath
  | .getSettings _ => VariantParentObject
  | .checkpointCreate _ _ => ObjectPath
  | .getAppliedConnection _ _ _ => Nat
  | _ => Unit

abbrev Service (α : Type) := Prog World Await Await.Answer Exception α

def await (q : Await) : Service q.Answer := Prog.call q

/-! ## Checkpoint paths -/

def checkpointPath (checkpointId : String) : ObjectPath :=
  "/org/freedesktop/NetworkManager/Checkpoint/" ++ checkpointId

/-- `checkpointPath.split('/').at(-1)`. -/
def checkpointId (path : ObjectPath) : Option String := (split '/' path).getLast?

theorem checkpointPath_injective : Function.Injective checkpointPath :=
  fun _ _ h => (String.append_right_inj _).mp h

/-- An id without a slash is read back from its path. -/
theorem checkpointId_checkpointPath {id : String} (h : '/' ∉ id.toList) :
    checkpointId (checkpointPath id) = some id := by
  have hslash : "/org/freedesktop/NetworkManager/Checkpoint/" =
      "/org/freedesktop/NetworkManager/Checkpoint" ++ "/" := by simp
  have hpath : (checkpointPath id).toList =
      "/org/freedesktop/NetworkManager/Checkpoint".toList ++ '/' :: id.toList := by
    calc (checkpointPath id).toList
        = ("/org/freedesktop/NetworkManager/Checkpoint" ++ "/" ++ id).toList :=
          congrArg (fun p => (p ++ id).toList) hslash
      _ = _ := by simp
  rw [checkpointId, split, hpath, List.splitOn_append_cons_self, List.splitOn_eq_singleton h,
    List.map_append, List.getLast?_append, List.map_singleton, List.getLast?_singleton,
    Option.some_or, String.ofList_toList]

theorem PathElement.notMem {text : String} (h : PathElement text) {c : Char}
    (hc : c.isAlphanum = false) (hne : c ≠ '_') : c ∉ text.toList := by
  intro hmem
  rcases h.chars c hmem with halphanum | hunderscore
  · rw [hc] at halphanum
    cases halphanum
  · exact hne hunderscore

theorem Host.slash_notMem (η : Host) (n : Nat) : '/' ∉ (η.checkpoint n).toList :=
  (η.element n).notMem (by decide) (by decide)

end RpiNestApi.Network
