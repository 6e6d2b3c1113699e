import RpiNestApi.Async.Reader
import RpiNestApi.Dbus.Utils

/-
The list of network devices.

`NetworkDeviceService` reads all devices side by side, and each of them in steps: its own
properties first, then those of the objects they refer to.  The bus may change between any
two of these steps.
-/

namespace RpiNestApi.NetworkDevices

open Async

/-- What NetworkManager answers at one time: the interfaces of an object, the paths of all
devices, and the properties of an object for an interface. -/
structure Bus where
  introspect : String → Except Exception (List String)
  getAllDevices : Except Exception (List String)
  getAll : String → String → Except Exception Value

abbrev Service (α : Type) := Reader Bus Exception α

/-! ## Objects -/

/-- `{ ...fields, [name]: value }`.  A property keeps its place. -/
def setField (name : String) (value : Value) : List (String × Value) → List (String × Value)
  | [] => [(name, value)]
  | (name', x) :: fields =>
    if name' = name then (name', value) :: fields else (name', x) :: setField name value fields

/-- `{ ...fields, ...changes }`. -/
def spread (fields changes : List (String × Value)) : List (String × Value) :=
  changes.foldl (fun fields p => setField p.1 p.2 fields) fields

/-- The properties that a value has of its own. -/
def ownFields : Value → List (String × Value)
  | .object fields => fields
  | .variant signature value => [("signature", .string signature), ("value", value)]
  | .array xs => xs.mapIdx fun i x => (toString i, x)
  | .string s => s.toList.mapIdx fun i c => (toString i, .string (String.singleton c))
  | .buffer bytes => bytes.mapIdx fun i b => (toString i, .number b.toNat)
  | _ => []

/-- The elements that `value.map` goes through. -/
def elements : Value → Except Exception (List Value)
  | .undefined => .error (.error "Cannot read properties of undefined (reading 'map')")
  | .null => .error (.error "Cannot read properties of null (reading 'map')")
  | .array xs => .ok xs
  | .buffer bytes => .ok (bytes.map fun b => .number b.toNat)
  | _ => .error (.error "deviceProperties.AvailableConnections.map is not a function")

theorem field_cons (name name' : String) (x : Value) (fields : List (String × Value)) :
    Value.field name ((name', x) :: fields) =
      if name' = name then x else Value.field name fields := by
  rw [Value.field, List.lookup_cons]
  by_cases hname : name' = name
  · rw [if_pos hname, hname, beq_self_eq_true]
    rfl
  · rw [if_neg hname, beq_false_of_ne (Ne.symm hname)]
    rfl

@[simp] theorem field_setField (name name' : String) (value : Value)
    (fields : List (String × Value)) : Value.field name (setField name' value fields) =
      if name' = name then value else Value.field name fields := by
  induction fields with
  | nil => rw [setField, field_cons]
  | cons p fields ih =>
      obtain ⟨name'', x⟩ := p
      rw [setField]
      by_cases hsame : name'' = name'
      · subst hsame
        rw [if_pos rfl, field_cons, field_cons]
        split <;> rfl
      · rw [if_neg hsame, field_cons, field_cons, ih]
        by_cases hname : name'' = name
        · have hother : name' ≠ name := fun h => hsame (hname.trans h.symm)
          rw [if_pos hname, if_neg hother, if_pos hname]
        · rw [if_neg hname, if_neg hname]

/-- What is not spread over keeps its value. -/
theorem field_spread {name : String} {fields changes : List (String × Value)}
    (h : name ∉ changes.map Prod.fst) :
    Value.field name (spread fields changes) = Value.field name fields := by
  induction changes generalizing fields with
  | nil => rfl
  | cons p changes ih =>
      rw [List.map_cons, List.mem_cons, not_or] at h
      show Value.field name (spread (setField p.1 p.2 fields) changes) = Value.field name fields
      rw [ih h.2, field_setField, if_neg (Ne.symm h.1)]

/-! ## The proxy -/

namespace DBusProxy

def basePath : String := "/org/freedesktop/NetworkManager"

/-- `path ?? this.basePath`.  Only strings are paths. -/
def objectPath : Value → Except Exception String
  | .undefined => .ok basePath
  | .null => .ok basePath
  | .string path => .ok path
  | _ => .error (.error "Invalid object path")

/-- The object has the interface at one time. -/
def introspected (interfaceName : String) (path : Value) (bus : Bus) : Except Exception Unit := do
  let interfaces ← bus.introspect (← objectPath path)
  if interfaceName ∈ interfaces then return ()
  else throw (.error ("interface not found in proxy object: " ++ interfaceName))

/-- The object is asked for its interfaces each time. -/
def getInterface (interfaceName : String) (path : Value) : Service Unit :=
  Reader.read (introspected interfaceName path)

def getMethodInterface (interfaceName : String) (path : Value) : Service Unit :=
  getInterface interfaceName path

def getPropertiesInterface (path : Value) : Service Unit :=
  getInterface "org.freedesktop.DBus.Properties" path

/-- The properties at one time. -/
def unwrapped (interfaceName : String) (path : Value) (bus : Bus) : Except Exception Value := do
  unwrapVariantDeep (← bus.getAll (← objectPath path) interfaceName)

def getAllUnwrapped (interfaceName : String) (path : Value) : Service Value :=
  Reader.read (unwrapped interfaceName path)

end DBusProxy

/-! ## The service -/

inductive DeviceType where
  | ethernet
  | wifi
  deriving DecidableEq, Repr

def DeviceType.number : DeviceType → Value
  | .ethernet => .number 1
  | .wifi => .number 2

/-- The interface that devices of the type have besides. -/
def DeviceType.interface : DeviceType → String
  | .ethernet => "Device.Wired"
  | .wifi => "Device.Wireless"

/-- `switch (baseDevice.DeviceType)`. -/
def DeviceType.ofValue : Value → Option DeviceType
  | .number q => if q = 1 then some .ethernet else if q = 2 then some .wifi else none
  | _ => none

namespace NetworkDeviceService

def interfaceName (type : String) : String := "org.freedesktop.NetworkManager." ++ type

def getAllDevicePaths : Service (List String) := do
  DBusProxy.getMethodInterface "org.freedesktop.NetworkManager" .undefined
  Reader.read (·.getAllDevices)

/-- There is no object at the path `/`. -/
def getProperties (type : String) (path : Value) : Service Value :=
  if path.isString "/" then return .null
  else do
    DBusProxy.getPropertiesInterface path
    DBusProxy.getAllUnwrapped (interfaceName type) path

/-- The properties that are paths of objects, each with the type of the object. -/
def children : List (String × String) :=
  [("ActiveConnection", "Connection.Active"), ("Ip4Config", "IP4Config"),
    ("Dhcp4Config", "DHCP4Config"), ("Ip6Config", "IP6Config"), ("Dhcp6Config", "DHCP6Config")]

/-- The objects are read one after another. -/
def resolveChildren (deviceProperties : Value) :
    List (String × String) → Service (List (String × Value))
  | [] => return []
  | (name, type) :: children => do
    let path ← Reader.lift (deviceProperties.get name)
    let child ← getProperties type path
    return (name, child) :: (← resolveChildren deviceProperties children)

/-- The connections are read side by side. -/
def resolveConnections (deviceProperties : Value) : Service (List Value) := do
  let paths ← Reader.lift (deviceProperties.get "AvailableConnections")
  let paths ← Reader.lift (elements paths)
  Reader.all (paths.map (getProperties "Settings.Connection"))

def baseDevice (deviceProperties : Value) (resolved : List (String × Value))
    (availableConnections : List Value) : List (String × Value) :=
  spread (ownFields deviceProperties)
    (resolved ++ [("AvailableConnections", .array availableConnections)])

def resolveDeviceProperties (deviceProperties : Value) (devicePath : String) : Service Value := do
  let resolved ← resolveChildren deviceProperties children
  let availableConnections ← resolveConnections deviceProperties
  let baseDevice := baseDevice deviceProperties resolved availableConnections
  match DeviceType.ofValue (Value.field "DeviceType" baseDevice) with
  | some type => do
    let own ← getProperties type.interface (.string devicePath)
    return .object (spread baseDevice (ownFields own))
  | none => return .object baseDevice

variable (isMatch : Value → Value → Bool)

/-- Without filters every device matches. -/
def doesDeviceMatchFilter (deviceFilters : List Value) (deviceProperties : Value) : Bool :=
  deviceFilters.isEmpty || deviceFilters.any (isMatch deviceProperties)

def getDevice (deviceFilters : List Value) (devicePath : String) : Service (Option Value) := do
  let deviceProperties ← getProperties "Device" (.string devicePath)
  if doesDeviceMatchFilter isMatch deviceFilters deviceProperties then do
    return some (← resolveDeviceProperties deviceProperties devicePath)
  else return none

def getAllDevices (deviceFilters : List Value) : Service (List Value) := do
  let allDevicePaths ← getAllDevicePaths
  let allDevices ← Reader.all (allDevicePaths.map (getDevice isMatch deviceFilters))
  return allDevices.reduceOption

end NetworkDeviceService

/-- `{ DeviceType: type }`. -/
def DeviceType.filter (type : DeviceType) : Value := .object [("DeviceType", type.number)]

def NetworkService.getNetworkInterfaces (isMatch : Value → Value → Bool) : Service (List Value) :=
  NetworkDeviceService.getAllDevices isMatch [DeviceType.ethernet.filter, DeviceType.wifi.filter]

/-! ## What was read, and when -/

section Seen

open NetworkDeviceService

/-- Between the two times NetworkManager had these properties for the path. -/
def Held (bus : Nat → Bus) (start finish : Nat) (type : String) (path properties : Value) : Prop :=
  if path.isString "/" then properties = .null
  else ∃ t, start ≤ t ∧ t ≤ finish ∧
    DBusProxy.unwrapped (interfaceName type) path (bus t) = .ok properties

/-- The object that a property refers to. -/
def ChildHeld (bus : Nat → Bus) (start finish : Nat) (deviceProperties : Value)
    (child : String × String) (resolved : String × Value) : Prop :=
  resolved.1 = child.1 ∧ ∃ path, deviceProperties.get child.1 = .ok path ∧
    Held bus start finish child.2 path resolved.2

def ConnectionsHeld (bus : Nat → Bus) (start finish : Nat) (deviceProperties : Value)
    (availableConnections : List Value) : Prop :=
  ∃ value paths, deviceProperties.get "AvailableConnections" = .ok value ∧
    elements value = .ok paths ∧
      List.Forall₂ (Held bus start finish "Settings.Connection") paths availableConnections

/-- The device is made of its properties and of what they referred to between the two
times. -/
def ResolvedFrom (bus : Nat → Bus) (start finish : Nat) (devicePath : String)
    (deviceProperties device : Value) : Prop :=
  ∃ resolved availableConnections,
    List.Forall₂ (ChildHeld bus start finish deviceProperties) children resolved ∧
    ConnectionsHeld bus start finish deviceProperties availableConnections ∧
    let base := baseDevice deviceProperties resolved availableConnections
    match DeviceType.ofValue (Value.field "DeviceType" base) with
    | some type => ∃ own, Held bus start finish type.interface (.string devicePath) own ∧
        device = .object (spread base (ownFields own))
    | none => device = .object base

variable {bus : Nat → Bus} {start finish : Nat}

theorem Held.mono {type : String} {path properties : Value} {start' finish' : Nat}
    (h : Held bus start finish type path properties) (hstart : start' ≤ start)
    (hfinish : finish ≤ finish') : Held bus start' finish' type path properties := by
  rw [Held] at h ⊢
  split
  · rename_i hroot
    rwa [if_pos hroot] at h
  · rename_i hroot
    rw [if_neg hroot] at h
    obtain ⟨t, ht, ht', hproperties⟩ := h
    exact ⟨t, hstart.trans ht, ht'.trans hfinish, hproperties⟩

theorem returns_getProperties (type : String) (path : Value) :
    (getProperties type path).Returns bus start fun finish properties =>
      Held bus start finish type path properties := by
  rw [getProperties]
  split
  · rename_i hroot
    refine Reader.returns_ret ?_
    rw [Held, if_pos hroot]
  · rename_i hroot
    refine Reader.returns_bind ((Reader.returns_start_le _).mono fun m _ hm _ => ?_)
    refine Reader.returns_read fun t finish properties ht hfinish hproperties => ?_
    rw [Held, if_neg hroot]
    exact ⟨t, hm.trans ht, hfinish, hproperties⟩

theorem ChildHeld.mono {deviceProperties : Value} {child : String × String}
    {resolved : String × Value} {start' finish' : Nat}
    (h : ChildHeld bus start finish deviceProperties child resolved) (hstart : start' ≤ start)
    (hfinish : finish ≤ finish') :
    ChildHeld bus start' finish' deviceProperties child resolved := by
  obtain ⟨hname, path, hpath, hheld⟩ := h
  exact ⟨hname, path, hpath, hheld.mono hstart hfinish⟩

theorem returns_resolveChildren (deviceProperties : Value) (children : List (String × String)) :
    (resolveChildren deviceProperties children).Returns bus start fun finish resolved =>
      List.Forall₂ (ChildHeld bus start finish deviceProperties) children resolved := by
  induction children generalizing start with
  | nil => exact Reader.returns_ret .nil
  | cons child children ih =>
      obtain ⟨name, type⟩ := child
      refine Reader.returns_bind (Reader.returns_lift fun path hpath => ?_)
      refine Reader.returns_bind
        ((returns_getProperties type path).mono fun m value hm hvalue => ?_)
      refine Reader.returns_bind (ih.mono fun finish resolved hfinish hresolved => ?_)
      refine Reader.returns_ret (.cons ?_ ?_)
      · exact ⟨rfl, path, hpath, hvalue.mono (Nat.le_refl start) hfinish⟩
      · exact hresolved.imp fun _ _ h => h.mono hm (Nat.le_refl finish)

theorem returns_resolveConnections (deviceProperties : Value) :
    (resolveConnections deviceProperties).Returns bus start fun finish availableConnections =>
      ConnectionsHeld bus start finish deviceProperties availableConnections := by
  refine Reader.returns_bind (Reader.returns_lift fun value hvalue => ?_)
  refine Reader.returns_bind (Reader.returns_lift fun paths hpaths => ?_)
  refine (Reader.returns_all fun path _ => returns_getProperties _ path).mono
    fun finish availableConnections _ hheld => ⟨value, paths, hvalue, hpaths, ?_⟩
  refine hheld.imp fun path properties => ?_
  rintro ⟨t, ht, h⟩
  exact h.mono (Nat.le_refl start) ht

theorem names_of_childHeld {deviceProperties : Value} {children : List (String × String)}
    {resolved : List (String × Value)}
    (h : List.Forall₂ (ChildHeld bus start finish deviceProperties) children resolved) :
    resolved.map Prod.fst = children.map Prod.fst := by
  induction h with
  | nil => rfl
  | cons hchild _ ih => rw [List.map_cons, List.map_cons, ih, hchild.1]

theorem ConnectionsHeld.mono {deviceProperties : Value} {availableConnections : List Value}
    {start' finish' : Nat}
    (h : ConnectionsHeld bus start finish deviceProperties availableConnections)
    (hstart : start' ≤ start) (hfinish : finish ≤ finish') :
    ConnectionsHeld bus start' finish' deviceProperties availableConnections := by
  obtain ⟨value, paths, hvalue, hpaths, hheld⟩ := h
  exact ⟨value, paths, hvalue, hpaths, hheld.imp fun _ _ h => h.mono hstart hfinish⟩

theorem returns_resolveDeviceProperties (deviceProperties : Value) (devicePath : String) :
    (resolveDeviceProperties deviceProperties devicePath).Returns bus start fun finish device =>
      ResolvedFrom bus start finish devicePath deviceProperties device := by
  refine Reader.returns_bind
    ((returns_resolveChildren deviceProperties children).mono fun m resolved hm hresolved => ?_)
  refine Reader.returns_bind
    ((returns_resolveConnections deviceProperties).mono fun m' connections hm' hconnections => ?_)
  have hresolved' : ∀ finish, m' ≤ finish →
      List.Forall₂ (ChildHeld bus start finish deviceProperties) children resolved :=
    fun finish hfinish => hresolved.imp fun _ _ h => h.mono (Nat.le_refl start) (hm'.trans hfinish)
  have hconnections' : ∀ finish, m' ≤ finish →
      ConnectionsHeld bus start finish deviceProperties connections :=
    fun finish hfinish => hconnections.mono hm hfinish
  dsimp only
  cases htype : DeviceType.ofValue
      (Value.field "DeviceType" (baseDevice deviceProperties resolved connections)) with
  | none =>
      refine Reader.returns_ret ⟨resolved, connections, hresolved' m' (Nat.le_refl m'),
        hconnections' m' (Nat.le_refl m'), ?_⟩
      simp only [htype]
  | some type =>
      refine Reader.returns_bind ((returns_getProperties _ _).mono fun m'' own hm'' hown => ?_)
      refine Reader.returns_ret ⟨resolved, connections, hresolved' m'' hm'',
        hconnections' m'' hm'', ?_⟩
      simp only [htype]
      exact ⟨own, hown.mono (hm.trans hm') (Nat.le_refl m''), rfl⟩

/-- The device was looked at, and what came of it. -/
def Looked (isMatch : Value → Value → Bool) (bus : Nat → Bus) (start finish : Nat)
    (deviceFilters : List Value) (devicePath : String) (result : Option Value) : Prop :=
  ∃ m deviceProperties, start ≤ m ∧ m ≤ finish ∧
    Held bus start m "Device" (.string devicePath) deviceProperties ∧
    match result with
    | some device => doesDeviceMatchFilter isMatch deviceFilters deviceProperties = true ∧
        ResolvedFrom bus m finish devicePath deviceProperties device
    | none => doesDeviceMatchFilter isMatch deviceFilters deviceProperties = false

theorem returns_getDevice (isMatch : Value → Value → Bool) (deviceFilters : List Value)
    (devicePath : String) :
    (getDevice isMatch deviceFilters devicePath).Returns bus start fun finish result =>
      Looked isMatch bus start finish deviceFilters devicePath result := by
  refine Reader.returns_bind ((returns_getProperties _ _).mono fun m properties hm hheld => ?_)
  split
  · rename_i hmatch
    refine Reader.returns_bind
      ((returns_resolveDeviceProperties _ _).mono fun finish device hfinish hdevice => ?_)
    exact Reader.returns_ret ⟨m, properties, hm, hfinish, hheld, hmatch, hdevice⟩
  · rename_i hmatch
    exact Reader.returns_ret
      ⟨m, properties, hm, Nat.le_refl m, hheld, Bool.not_eq_true _ ▸ hmatch⟩

end Seen

/-! ## The interfaces -/

/-- What a device of the answer is made of, and a time by which its own properties had been
read. -/
structure Interface where
  looked : Nat
  type : DeviceType
  deviceProperties : Value
  resolved : List (String × Value)
  availableConnections : List Value
  own : Value

def Interface.device (i : Interface) : Value :=
  .object (spread
    (NetworkDeviceService.baseDevice i.deviceProperties i.resolved i.availableConnections)
    (ownFields i.own))

/-- All parts were there at some time, and the device was an interface before the objects it
refers to were read. -/
structure Interface.Read (i : Interface) (bus : Nat → Bus) (start finish : Nat)
    (devicePath : String) : Prop where
  start_le : start ≤ i.looked
  le_finish : i.looked ≤ finish
  properties : Held bus start i.looked "Device" (.string devicePath) i.deviceProperties
  type : i.deviceProperties.get "DeviceType" = .ok i.type.number
  resolved : List.Forall₂ (ChildHeld bus i.looked finish i.deviceProperties)
    NetworkDeviceService.children i.resolved
  availableConnections :
    ConnectionsHeld bus i.looked finish i.deviceProperties i.availableConnections
  own : Held bus i.looked finish i.type.interface (.string devicePath) i.own

/-- At some time the device was no interface. -/
def Omitted (bus : Nat → Bus) (start finish : Nat) (devicePath : String) : Prop :=
  ∃ deviceProperties, Held bus start finish "Device" (.string devicePath) deviceProperties ∧
    ∀ type : DeviceType, deviceProperties.get "DeviceType" ≠ .ok type.number

/-- What was found at one of the paths. -/
def PathRead (bus : Nat → Bus) (start finish : Nat) (devicePath : String) :
    Option Interface → Prop
  | some i => i.Read bus start finish devicePath
  | none => Omitted bus start finish devicePath

/-- The devices that NetworkManager had at one time, in its order, but for those that were
no interfaces. -/
def InterfacesRead (bus : Nat → Bus) (start finish : Nat) (devices : List Value) : Prop :=
  ∃ t paths, start ≤ t ∧ t ≤ finish ∧ (bus t).getAllDevices = .ok paths ∧
    ∃ interfaces : List (Option Interface),
      List.Forall₂ (PathRead bus t finish) paths interfaces ∧
      devices = interfaces.reduceOption.map Interface.device

/-- `isMatch` of lodash, for one number. -/
def MatchesType (isMatch : Value → Value → Bool) : Prop :=
  ∀ (value : Value) (type : DeviceType),
    isMatch value type.filter = true ↔ value.get "DeviceType" = .ok type.number

section Interfaces

open NetworkDeviceService

variable {bus : Nat → Bus} {start finish : Nat}

@[simp] theorem DeviceType.ofValue_number (type : DeviceType) :
    DeviceType.ofValue type.number = some type := by
  cases type <;> simp [DeviceType.number, DeviceType.ofValue]

theorem exists_fields {value : Value} {type : DeviceType}
    (h : value.get "DeviceType" = .ok type.number) :
    ∃ fields, value = .object fields ∧ Value.field "DeviceType" fields = type.number := by
  cases value with
  | object fields => exact ⟨fields, rfl, Except.ok.inj h⟩
  | variant signature value =>
      exfalso
      cases type <;> simp [Value.get, DeviceType.number] at h
  | _ =>
      exfalso
      cases type <;> simp [Value.get, DeviceType.number] at h

/-- The type is that of the properties the device is made of. -/
theorem ofValue_baseDevice {deviceProperties : Value} {type : DeviceType}
    (htype : deviceProperties.get "DeviceType" = .ok type.number)
    {resolved : List (String × Value)}
    (hresolved : List.Forall₂ (ChildHeld bus start finish deviceProperties) children resolved)
    (availableConnections : List Value) :
    DeviceType.ofValue (Value.field "DeviceType"
      (baseDevice deviceProperties resolved availableConnections)) = some type := by
  obtain ⟨fields, rfl, hfield⟩ := exists_fields htype
  rw [baseDevice, field_spread, ownFields, hfield, DeviceType.ofValue_number]
  simp [names_of_childHeld hresolved, children]

theorem doesDeviceMatchFilter_iff {isMatch : Value → Value → Bool} (h : MatchesType isMatch)
    (deviceProperties : Value) :
    doesDeviceMatchFilter isMatch [DeviceType.ethernet.filter, DeviceType.wifi.filter]
        deviceProperties = true ↔
      ∃ type : DeviceType, deviceProperties.get "DeviceType" = .ok type.number := by
  simp only [doesDeviceMatchFilter, List.isEmpty_cons, List.any_cons, List.any_nil, Bool.false_or,
    Bool.or_false, Bool.or_eq_true, h _ _]
  constructor
  · rintro (htype | htype)
    · exact ⟨_, htype⟩
    · exact ⟨_, htype⟩
  · rintro ⟨type, htype⟩
    cases type with
    | ethernet => exact .inl htype
    | wifi => exact .inr htype

theorem PathRead.of_looked {isMatch : Value → Value → Bool} (h : MatchesType isMatch)
    {devicePath : String} {result : Option Value}
    (hlooked : Looked isMatch bus start finish
      [DeviceType.ethernet.filter, DeviceType.wifi.filter] devicePath result) :
    ∃ i, PathRead bus start finish devicePath i ∧ result = i.map Interface.device := by
  obtain ⟨m, deviceProperties, hm, hfinish, hheld, hresult⟩ := hlooked
  cases result with
  | none =>
      refine ⟨none, ⟨deviceProperties, hheld.mono (Nat.le_refl start) hfinish, ?_⟩, rfl⟩
      intro type htype
      rw [(doesDeviceMatchFilter_iff h deviceProperties).mpr ⟨type, htype⟩] at hresult
      cases hresult
  | some device =>
      obtain ⟨hmatch, resolved, connections, hresolved, hconnections, hdevice⟩ := hresult
      obtain ⟨type, htype⟩ := (doesDeviceMatchFilter_iff h deviceProperties).mp hmatch
      simp only [ofValue_baseDevice htype hresolved] at hdevice
      obtain ⟨own, hown, rfl⟩ := hdevice
      let i : Interface :=
        { looked := m, type, deviceProperties, resolved, availableConnections := connections, own }
      exact ⟨some i, { start_le := hm, le_finish := hfinish, properties := hheld, type := htype,
                       resolved := hresolved, availableConnections := hconnections,
                       own := hown }, rfl⟩

theorem PathRead.mono {devicePath : String} {i : Option Interface} {start' finish' : Nat}
    (h : PathRead bus start finish devicePath i) (hstart : start' ≤ start)
    (hfinish : finish ≤ finish') : PathRead bus start' finish' devicePath i := by
  cases i with
  | none =>
      obtain ⟨deviceProperties, hheld, htype⟩ := h
      exact ⟨deviceProperties, hheld.mono hstart hfinish, htype⟩
  | some i =>
      have hlooked := Nat.le_refl i.looked
      exact { start_le := hstart.trans h.start_le
              le_finish := h.le_finish.trans hfinish
              properties := h.properties.mono hstart hlooked
              type := h.type
              resolved := h.resolved.imp fun _ _ hchild => hchild.mono hlooked hfinish
              availableConnections := h.availableConnections.mono hlooked hfinish
              own := h.own.mono hlooked hfinish }

/-- One interface for each path that has a device. -/
theorem exists_interfaces {isMatch : Value → Value → Bool} (h : MatchesType isMatch)
    {paths : List String} {results : List (Option Value)} {t : Nat} (ht : t ≤ start)
    (hresults : List.Forall₂ (fun path result => ∃ m ≤ finish, Looked isMatch bus start m
      [DeviceType.ethernet.filter, DeviceType.wifi.filter] path result) paths results) :
    ∃ interfaces : List (Option Interface),
      List.Forall₂ (PathRead bus t finish) paths interfaces ∧
        results.reduceOption = interfaces.reduceOption.map Interface.device := by
  induction hresults with
  | nil => exact ⟨[], .nil, rfl⟩
  | cons hresult _ ih =>
      obtain ⟨m, hm, hlooked⟩ := hresult
      obtain ⟨i, hi, rfl⟩ := PathRead.of_looked h hlooked
      obtain ⟨interfaces, hinterfaces, heq⟩ := ih
      refine ⟨i :: interfaces, .cons (hi.mono ht hm) hinterfaces, ?_⟩
      cases i with
      | none => exact heq
      | some i => exact congrArg (i.device :: ·) heq

theorem returns_getNetworkInterfaces {isMatch : Value → Value → Bool} (h : MatchesType isMatch) :
    (NetworkService.getNetworkInterfaces isMatch).Returns bus start (InterfacesRead bus start) := by
  refine Reader.returns_bind (Reader.returns_bind ?_)
  refine (Reader.returns_start_le _).mono fun m₀ _ hm₀ _ => ?_
  refine Reader.returns_read fun t m₁ paths ht hm₁ hpaths => ?_
  refine Reader.returns_bind
    ((Reader.returns_all fun path _ => returns_getDevice isMatch _ path).mono
      fun finish results hfinish hresults => ?_)
  obtain ⟨interfaces, hinterfaces, heq⟩ := exists_interfaces h hm₁ hresults
  exact Reader.returns_ret
    ⟨t, paths, hm₀.trans ht, hm₁.trans hfinish, hpaths, interfaces, hinterfaces, heq⟩

end Interfaces

/-! ## A bus that stands still -/

namespace Bus

open NetworkDeviceService

variable (bus : Bus)

def properties (type : String) (path : Value) : Except Exception Value :=
  if path.isString "/" then .ok .null
  else do
    DBusProxy.introspected "org.freedesktop.DBus.Properties" path bus
    DBusProxy.unwrapped (interfaceName type) path bus

def child (deviceProperties : Value) (child : String × String) :
    Except Exception (String × Value) := do
  let path ← deviceProperties.get child.1
  return (child.1, ← bus.properties child.2 path)

def connections (deviceProperties : Value) : Except Exception (List Value) := do
  let paths ← elements (← deviceProperties.get "AvailableConnections")
  paths.mapM (bus.properties "Settings.Connection")

def device (deviceProperties : Value) (devicePath : String) : Except Exception Value := do
  let resolved ← children.mapM (bus.child deviceProperties)
  let availableConnections ← bus.connections deviceProperties
  let base := baseDevice deviceProperties resolved availableConnections
  match DeviceType.ofValue (Value.field "DeviceType" base) with
  | some type => do
    let own ← bus.properties type.interface (.string devicePath)
    return .object (spread base (ownFields own))
  | none => return .object base

variable (isMatch : Value → Value → Bool) (deviceFilters : List Value)

def deviceAt (devicePath : String) : Except Exception (Option Value) := do
  let deviceProperties ← bus.properties "Device" (.string devicePath)
  if doesDeviceMatchFilter isMatch deviceFilters deviceProperties then do
    return some (← bus.device deviceProperties devicePath)
  else return none

/-- All devices that match, read at one time. -/
def devices : Except Exception (List Value) := do
  DBusProxy.introspected "org.freedesktop.NetworkManager" .undefined bus
  let devices ← (← bus.getAllDevices).mapM (bus.deviceAt isMatch deviceFilters)
  return devices.reduceOption

end Bus

section Steady

open NetworkDeviceService Reader

theorem steady_getProperties (type : String) (path : Value) :
    (getProperties type path).Steady fun bus => bus.properties type path := by
  rw [getProperties]
  split
  · rename_i hroot
    exact (steady_ret _).congr fun bus => by rw [Bus.properties, if_pos hroot]
  · rename_i hroot
    refine (steady_bind (steady_read _) fun _ => steady_read _).congr fun bus => ?_
    rw [Bus.properties, if_neg hroot]
    rfl

theorem steady_resolveChildren (deviceProperties : Value) (children : List (String × String)) :
    (resolveChildren deviceProperties children).Steady fun bus =>
      children.mapM (bus.child deviceProperties) := by
  induction children with
  | nil => exact steady_ret []
  | cons child children ih =>
      refine (steady_bind (steady_lift _) fun path => steady_bind (steady_getProperties _ path)
        fun value => steady_bind ih fun resolved => steady_ret _).congr fun bus => ?_
      simp only [List.mapM_cons, Bus.child, bind_assoc, pure_bind]
      rfl

theorem steady_resolveConnections (deviceProperties : Value) :
    (resolveConnections deviceProperties).Steady fun bus => bus.connections deviceProperties := by
  refine (steady_bind (steady_lift _) fun value => steady_bind (steady_lift _) fun paths =>
    steady_all paths fun path _ => steady_getProperties _ path).congr fun bus => ?_
  rfl

theorem steady_resolveDeviceProperties (deviceProperties : Value) (devicePath : String) :
    (resolveDeviceProperties deviceProperties devicePath).Steady fun bus =>
      bus.device deviceProperties devicePath := by
  refine steady_bind (steady_resolveChildren deviceProperties children) fun resolved =>
    steady_bind (steady_resolveConnections deviceProperties) fun connections => ?_
  dsimp only
  split
  · exact steady_bind (steady_getProperties _ _) fun own => steady_ret _
  · exact steady_ret _

theorem steady_getDevice (isMatch : Value → Value → Bool) (deviceFilters : List Value)
    (devicePath : String) : (getDevice isMatch deviceFilters devicePath).Steady fun bus =>
      bus.deviceAt isMatch deviceFilters devicePath := by
  refine steady_bind (steady_getProperties _ _) fun deviceProperties => ?_
  split
  · exact steady_bind (steady_resolveDeviceProperties _ _) fun device => steady_ret _
  · exact steady_ret _

theorem steady_getAllDevices (isMatch : Value → Value → Bool) (deviceFilters : List Value) :
    (getAllDevices isMatch deviceFilters).Steady fun bus => bus.devices isMatch deviceFilters := by
  refine (steady_bind (steady_bind (steady_read _) fun _ => steady_read _) fun paths =>
    steady_bind (steady_all paths fun path _ => steady_getDevice isMatch deviceFilters path)
      fun devices => steady_ret _).congr fun bus => ?_
  exact bind_assoc (DBusProxy.introspected _ _ bus) (fun _ => bus.getAllDevices) _

end Steady

/-- Whatever happens on the bus meanwhile, the answer is made of what was there during the
request, and where nothing happens it is what there is, or both fail. -/
structure InterfacesAnswer (isMatch : Value → Value → Bool) : Prop where
  read : ∀ bus start, (NetworkService.getNetworkInterfaces isMatch).Returns bus start
    (InterfacesRead bus start)
  still : (NetworkService.getNetworkInterfaces isMatch).Steady fun bus =>
    bus.devices isMatch [DeviceType.ethernet.filter, DeviceType.wifi.filter]

theorem network_interfaces {isMatch : Value → Value → Bool} (h : MatchesType isMatch) :
    InterfacesAnswer isMatch where
  read _ _ := returns_getNetworkInterfaces h
  still := steady_getAllDevices _ _

/-- The number of a property is the same. -/
def sameNumber : Value → Value → Bool
  | .number q, .number q' => q == q'
  | _, _ => false

/-- All properties of the second value are numbers that the first one has. -/
def matchesNumbers (value source : Value) : Bool :=
  (ownFields source).all fun p => match value.get p.1 with
    | .ok x => sameNumber x p.2
    | .error _ => false

theorem network_interfaces_matchesNumbers : InterfacesAnswer matchesNumbers := by
  refine network_interfaces fun value type => ?_
  cases hvalue : value.get "DeviceType" with
  | error e => simp [matchesNumbers, DeviceType.filter, ownFields, hvalue]
  | ok x =>
      cases x with
      | number q =>
          cases type <;> simp [matchesNumbers, DeviceType.filter, DeviceType.number, ownFields,
            hvalue, sameNumber]
      | _ =>
          cases type <;> simp [matchesNumbers, DeviceType.filter, DeviceType.number, ownFields,
            hvalue, sameNumber]

end RpiNestApi.NetworkDevices
