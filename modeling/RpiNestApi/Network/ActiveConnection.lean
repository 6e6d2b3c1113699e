import RpiNestApi.Dbus.Utils
import RpiNestApi.Network.Services

/-
Reading the settings of a device's active connection.

The settings are unwrapped, and a request is answered with the method, the
gateway, the first address and the first DNS server of either family.
-/

namespace RpiNestApi.Network

open Async

/-! ## The settings as a value -/

def VariantObject.toValue (object : VariantObject) : Value :=
  .object (object.entries.map fun e => (e.1, e.2.toValue))

def VariantParentObject.toValue (settings : VariantParentObject) : Value :=
  .object (settings.entries.map fun e => (e.1, VariantObject.toValue e.2))

def unwrapVariantObject (settings : VariantParentObject) : Except Exception Value :=
  unwrapVariantDeep (VariantParentObject.toValue settings)

theorem lookup_map_entries {β : Type} (f : β → Value) (entries : List (Sigma fun _ : String => β))
    (name : String) :
    (entries.map fun e => (e.1, f e.2)).lookup name = (entries.dlookup name).map f := by
  induction entries with
  | nil => rfl
  | cons e entries ih =>
      obtain ⟨name', x⟩ := e
      by_cases hname : name = name'
      · subst hname
        simp
      · rw [List.map_cons, List.lookup_cons, beq_false_of_ne hname, List.dlookup_cons_ne _ _ hname]
        exact ih

/-! ## The request -/

namespace NetworkSettingsService

def getActiveConnectionOfDevice (deviceName : String) : Service Value := do
  networkManagerMethods
  let device ← await (.getDeviceByIpIface deviceName)
  match device with
  | none => throw (.error ("No device found with name '" ++ deviceName ++ "'"))
  | some devicePath =>
    if devicePath = "/" then
      throw (.error ("No device found with name '" ++ deviceName ++ "'"))
    else
      let activeConnection ← getDeviceProperties devicePath
      if activeConnection = "/" then
        throw (.badRequest "Cannot get connection settings: Device is not active")
      else
        let connection ← getActiveConnectionProperties activeConnection
        getInterface connection "org.freedesktop.NetworkManager.Settings.Connection"
        let currentSettings ← await (.getSettings connection)
        match unwrapVariantObject currentSettings with
        | .error e => throw e
        | .ok settings => return settings

end NetworkSettingsService

/-- `value?.[0]`. -/
def optionalFirst : Value → Except Exception Value
  | .undefined => .ok .undefined
  | .null => .ok .undefined
  | value => value.first

/-- A property of the first address, which is only set where there is one. -/
def ofFirst (firstIp : Value) (name : String) : Except Exception Value :=
  if firstIp.isDefined then firstIp.get name else .ok .undefined

/-- A property that is not set is `undefined`. -/
def toSimple (ip : Value) : Except Exception SimpleIpSettings := do
  let method ← ip.destructure "method" "ip"
  let gateway ← ip.destructure "gateway" "ip"
  let addressData ← ip.get "address-data"
  let firstIp ← addressData.first
  let address ← ofFirst firstIp "address"
  let networkPrefix ← ofFirst firstIp "prefix"
  let dnsData ← ip.get "dns-data"
  let firstDns ← optionalFirst dnsData
  return { address, networkPrefix, gateway, dns := firstDns, method }

/-- Both families of the unwrapped settings. -/
def toSimpleSettings (settings : Value) : Except Exception UpdateNetworkConfigDto := do
  let ipv4 ← settings.destructure "ipv4" "(intermediate value)"
  let ipv6 ← settings.destructure "ipv6" "(intermediate value)"
  let ipv4 ← toSimple ipv4
  let ipv6 ← toSimple ipv6
  return { ipv4 := .value ipv4, ipv6 := .value ipv6 }

namespace NetworkService

def getActiveConnection (interfaceName : String) : Service UpdateNetworkConfigDto := do
  let settings ← NetworkSettingsService.getActiveConnectionOfDevice interfaceName
  match toSimpleSettings settings with
  | .error e => throw e
  | .ok config => return config

end NetworkService

/-! ## What is read of one section -/

/-- The property of an object once it is unwrapped. -/
inductive Shows (object : VariantObject) (name : String) : Value → Prop
  | absent (h : object.lookup name = none) : Shows object name .undefined
  | present {v : Variant} {value : Value} (h : object.lookup name = some v)
      (hvalue : unwrapContents v.value = .ok value) : Shows object name value

theorem Shows.cases {object : VariantObject} {name : String} {value : Value}
    (h : Shows object name value) :
    object.lookup name = none ∧ value = .undefined ∨
      ∃ v, object.lookup name = some v ∧ unwrapContents v.value = .ok value := by
  cases h with
  | absent h => exact .inl ⟨h, rfl⟩
  | present h hvalue => exact .inr ⟨_, h, hvalue⟩

theorem Shows.unique {object : VariantObject} {name : String} {value value' : Value}
    (h : Shows object name value) (h' : Shows object name value') : value = value' := by
  cases h with
  | absent h =>
      cases h' with
      | absent => rfl
      | present h' => cases h.symm.trans h'
  | present h hvalue =>
      cases h' with
      | absent h' => cases h.symm.trans h'
      | present h' hvalue' =>
          cases h.symm.trans h'
          exact Except.ok.inj (hvalue.symm.trans hvalue')

theorem Shows.congr {object object' : VariantObject} {name : String} {value : Value}
    (h : Shows object name value) (hlookup : object'.lookup name = object.lookup name) :
    Shows object' name value := by
  cases h with
  | absent h => exact .absent (hlookup.trans h)
  | present h hvalue => exact .present (hlookup.trans h) hvalue

/-- All values of the section are values of D-Bus. -/
def FromDBus (object : VariantObject) : Prop :=
  ∀ name v, object.lookup name = some v → v.value.isDBus = true

/-- A section as NetworkManager returns it: it is named after no property of a
variant, its values are those of D-Bus, and it has a list of addresses. -/
structure Readable (object : VariantObject) : Prop where
  signature : object.lookup "signature" = none
  values : FromDBus object
  addressData : object.lookup "address-data" ≠ none

theorem unwrapVariantDeep_toValue {v : Variant} (h : v.value.isDBus = true) :
    unwrapVariantDeep v.toValue = unwrapContents v.value := by
  rw [Variant.toValue, unwrapVariantDeep]
  rintro he
  rw [he] at h
  simp [Value.isDBus] at h

theorem isVariantLike_entries {β : Type} (f : β → Value)
    {entries : List (Sigma fun _ : String => β)}
    (h : entries.dlookup "signature" = none) :
    isVariantLike (entries.map fun e => (e.1, f e.2)) = false := by
  simp [isVariantLike, Value.field, lookup_map_entries, h, Value.isDefined]

theorem haveDBus_entries {β : Type} {f : β → Value} {entries : List (Sigma fun _ : String => β)}
    (h : ∀ e ∈ entries, (f e.2).isDBus = true) :
    haveDBus (entries.map fun e => (e.1, f e.2)) = true := by
  rw [haveDBus_iff]
  intro p hp
  obtain ⟨e, he, rfl⟩ := List.mem_map.mp hp
  exact h e he

theorem FromDBus.isDBus {object : VariantObject} (h : FromDBus object) :
    (VariantObject.toValue object).isDBus = true := by
  rw [VariantObject.toValue, Value.isDBus]
  refine haveDBus_entries fun e he => ?_
  rw [Variant.toValue, Value.isDBus]
  exact h e.1 e.2 (AList.mem_lookup_iff.mpr he)

theorem Readable.unwrap {object : VariantObject} (h : Readable object) :
    ∃ fields, unwrapVariantDeep (VariantObject.toValue object) = .ok (.object fields) ∧
      ∀ name, Shows object name (Value.field name fields) := by
  have hdbus : haveDBus (object.entries.map fun e => (e.1, e.2.toValue)) = true := by
    simpa only [VariantObject.toValue, Value.isDBus] using h.values.isDBus
  obtain ⟨fields, hfields⟩ := exists_unwrapFields _ hdbus
  refine ⟨fields, ?_, fun name => ?_⟩
  · rw [VariantObject.toValue, unwrapVariantDeep, isVariantLike_entries _ h.signature, hfields]
    rfl
  · have hlookup := lookup_unwrapFields hfields name
    rw [lookup_map_entries] at hlookup
    rcases hlookup with ⟨hnone, hnone'⟩ | ⟨x, y, hx, hy, hlookup⟩
    · rw [Value.field, hnone']
      exact .absent (Option.map_eq_none_iff.mp hnone)
    · obtain ⟨v, hv, rfl⟩ := Option.map_eq_some_iff.mp hx
      rw [Value.field, hlookup]
      exact .present hv (by rwa [← unwrapVariantDeep_toValue (h.values name v hv)])

/-- The properties of a section that are read. -/
def simpleProperties : List String := ["method", "gateway", "address-data", "dns-data"]

theorem toSimple_congr {fields fields' : List (String × Value)}
    (h : ∀ name ∈ simpleProperties, Value.field name fields' = Value.field name fields) :
    toSimple (.object fields') = toSimple (.object fields) := by
  simp only [toSimple, Value.destructure, Value.get, h "method" (by decide),
    h "gateway" (by decide), h "address-data" (by decide), h "dns-data" (by decide)]

/-- The section is read as `simple`. -/
def Reads (object : VariantObject) (simple : SimpleIpSettings) : Prop :=
  ∃ v, unwrapVariantDeep (VariantObject.toValue object) = .ok v ∧ toSimple v = .ok simple

theorem Reads.unique {object : VariantObject} {simple simple' : SimpleIpSettings}
    (h : Reads object simple) (h' : Reads object simple') : simple = simple' := by
  obtain ⟨v, hv, hs⟩ := h
  obtain ⟨v', hv', hs'⟩ := h'
  obtain rfl := Except.ok.inj (hv.symm.trans hv')
  exact Except.ok.inj (hs.symm.trans hs')

theorem Reads.congr {object object' : VariantObject} {simple : SimpleIpSettings}
    (h : Reads object simple) (ho : Readable object) (ho' : Readable object')
    (hlookup : ∀ name ∈ simpleProperties, object'.lookup name = object.lookup name) :
    Reads object' simple := by
  obtain ⟨fields, hfields, hshows⟩ := ho.unwrap
  obtain ⟨fields', hfields', hshows'⟩ := ho'.unwrap
  obtain ⟨v, hv, hs⟩ := h
  obtain rfl := Except.ok.inj (hfields.symm.trans hv)
  refine ⟨_, hfields', (toSimple_congr fun name hname => ?_).trans hs⟩
  exact (hshows' name).unique ((hshows name).congr (hlookup name hname))

/-- The first element of an unwrapped value is not `null`. -/
theorem exists_first {v v' : Value} (h : v.isDBus = true) (hv : unwrapContents v = .ok v') :
    ∃ x, v'.first = .ok x ∧ x ≠ .null := by
  cases v with
  | array xs =>
      cases xs with
      | nil =>
          cases hv
          exact ⟨_, rfl, by simp⟩
      | cons x xs =>
          simp only [Value.isDBus, areDBus, Bool.and_eq_true] at h
          obtain ⟨y, hy, hnull, _⟩ := unwrapped_deep x h.1
          obtain ⟨ys, hys⟩ := exists_unwrapList xs h.2
          rw [unwrapContents, unwrapList, hy, hys] at hv
          cases hv
          exact ⟨y, rfl, hnull⟩
  | object fields =>
      rw [Value.isDBus] at h
      obtain ⟨fields', hfields⟩ := exists_unwrapFields fields h
      rw [unwrapContents, hfields] at hv
      cases hv
      refine ⟨_, rfl, ?_⟩
      rcases lookup_unwrapFields hfields "0" with ⟨_, hnone⟩ | ⟨x, y, hx, hy, hlookup⟩
      · rw [Value.field, hnone]
        simp
      · have hmem : ("0", x) ∈ fields := by
          obtain ⟨before, after, rfl, _⟩ := List.lookup_eq_some_iff.mp hx
          simp
        have hdbus : x.isDBus = true := haveDBus_iff.mp h _ hmem
        obtain ⟨z, hz, hnull, _⟩ := unwrapped_deep x hdbus
        rw [hy] at hz
        cases hz
        rwa [Value.field, hlookup]
  | string s =>
      cases hv
      refine ⟨_, rfl, ?_⟩
      cases s.toList.head? <;> simp
  | buffer bytes =>
      cases hv
      refine ⟨_, rfl, ?_⟩
      cases bytes.head? <;> simp
  | undefined => simp [Value.isDBus] at h
  | null => simp [Value.isDBus] at h
  | _ =>
      cases hv
      exact ⟨_, rfl, by simp⟩

theorem exists_ofFirst {firstIp : Value} (h : firstIp ≠ .null) (name : String) :
    ∃ x, ofFirst firstIp name = .ok x := by
  cases firstIp with
  | null => exact absurd rfl h
  | _ => exact ⟨_, rfl⟩

theorem optionalFirst_eq_ok {v x : Value} (h : v.first = .ok x) : optionalFirst v = .ok x := by
  cases v with
  | undefined => cases h
  | null => cases h
  | _ => exact h

theorem toSimple_eq_ok {fields : List (String × Value)} {firstIp address networkPrefix dns : Value}
    (hfirst : (Value.field "address-data" fields).first = .ok firstIp)
    (haddress : ofFirst firstIp "address" = .ok address)
    (hnetworkPrefix : ofFirst firstIp "prefix" = .ok networkPrefix)
    (hdns : optionalFirst (Value.field "dns-data" fields) = .ok dns) :
    toSimple (.object fields) = .ok
      { address, networkPrefix, gateway := Value.field "gateway" fields, dns,
        method := Value.field "method" fields } := by
  simp only [toSimple, Value.destructure, Value.get, bind, Except.bind, hfirst, haddress,
    hnetworkPrefix, hdns]
  rfl

/-- A section that is readable is read. -/
theorem Readable.exists_reads {object : VariantObject} (h : Readable object) :
    ∃ simple, Reads object simple := by
  obtain ⟨fields, hfields, hshows⟩ := h.unwrap
  obtain ⟨firstIp, hfirst, hnull⟩ :
      ∃ x, (Value.field "address-data" fields).first = .ok x ∧ x ≠ .null := by
    obtain ⟨v, hv, hvalue⟩ := (hshows "address-data").cases.resolve_left fun hnone =>
      h.addressData hnone.1
    exact exists_first (h.values _ _ hv) hvalue
  obtain ⟨dns, hdns⟩ : ∃ x, optionalFirst (Value.field "dns-data" fields) = .ok x := by
    rcases (hshows "dns-data").cases with ⟨_, hundefined⟩ | ⟨v, hv, hvalue⟩
    · exact ⟨_, by rw [hundefined]; rfl⟩
    · obtain ⟨x, hx, _⟩ := exists_first (h.values _ _ hv) hvalue
      exact ⟨x, optionalFirst_eq_ok hx⟩
  obtain ⟨address, haddress⟩ := exists_ofFirst hnull "address"
  obtain ⟨networkPrefix, hnetworkPrefix⟩ := exists_ofFirst hnull "prefix"
  exact ⟨_, _, hfields, toSimple_eq_ok hfirst haddress hnetworkPrefix hdns⟩

/-- What is read of a section, by what its properties show. -/
theorem Readable.reads {object : VariantObject} (h : Readable object)
    {method gateway addressData dnsData firstIp address networkPrefix dns : Value}
    (hmethod : Shows object "method" method) (hgateway : Shows object "gateway" gateway)
    (haddressData : Shows object "address-data" addressData)
    (hdnsData : Shows object "dns-data" dnsData) (hfirst : addressData.first = .ok firstIp)
    (haddress : ofFirst firstIp "address" = .ok address)
    (hnetworkPrefix : ofFirst firstIp "prefix" = .ok networkPrefix)
    (hdns : optionalFirst dnsData = .ok dns) :
    Reads object { address, networkPrefix, gateway, dns, method } := by
  obtain ⟨fields, hfields, hshows⟩ := h.unwrap
  obtain rfl := hmethod.unique (hshows "method")
  obtain rfl := hgateway.unique (hshows "gateway")
  obtain rfl := haddressData.unique (hshows "address-data")
  obtain rfl := hdnsData.unique (hshows "dns-data")
  exact ⟨_, hfields, toSimple_eq_ok hfirst haddress hnetworkPrefix hdns⟩

end RpiNestApi.Network
