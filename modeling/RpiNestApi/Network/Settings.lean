import Mathlib.Data.List.AList
import RpiNestApi.Value
import RpiNestApi.Values

/-
Connection settings, and what an update of a device does to them.

NetworkManager keeps the settings of a connection as sections, each an object of
variants.  `IpSettingsVariantAdapter` changes the sections "ipv4" and "ipv6" to
what a request asks for.  The request's values come from a body and may be of any
type, so they are JavaScript values here.
-/

namespace RpiNestApi.Network

structure Variant where
  signature : String
  value : Value

def toVariant (signature : String) (value : Value) : Variant := { signature, value }

/-- The variant as an element of another value. -/
def Variant.toValue (v : Variant) : Value := .variant v.signature v.value

abbrev VariantObject := AList fun _ : String => Variant

/-- What `GetSettings` returns, by the names of the sections. -/
abbrev VariantParentObject := AList fun _ : String => VariantObject

structure NetworkAddress where
  address : Value
  networkPrefix : Value

/-- The changes to one section.  A property is `undefined` or `null` where its
type allows that, and `gateway` and `method` are as in the body. -/
structure UpdateIpSettings where
  addressData : Field (List NetworkAddress)
  gateway : Value
  method : Value
  dnsData : Field (List Value)
  dnsSearch : Field (List Value)

structure UpdatableSettings where
  ipv4 : Option UpdateIpSettings
  ipv6 : Option UpdateIpSettings

namespace IpSettingsVariantAdapter

/-- The constructor removes the deprecated properties.  `delete` throws where
there is no object. -/
def new : Option VariantObject → Except Exception VariantObject
  | none => .error (.error "Cannot convert undefined or null to object")
  | some object => .ok (((object.erase "addresses").erase "dns").erase "routes")

/-- `setDnsData` and `setDnsSearch`. -/
def setList (name : String) (data : Option (List Value)) (object : VariantObject) :
    VariantObject :=
  match data with
  | none => object.erase name
  | some xs => object.insert name (toVariant "as" (.array xs))

def setDnsData : Option (List Value) → VariantObject → VariantObject := setList "dns-data"

def setDnsSearch : Option (List Value) → VariantObject → VariantObject := setList "dns-search"

def setAddressData (addressData : Option (List NetworkAddress)) (object : VariantObject) :
    VariantObject :=
  match addressData with
  | none => object.erase "address-data"
  | some xs => object.insert "address-data" <| toVariant "aa{sv}" <| .array <| xs.map fun x =>
      .object
        [("address", (toVariant "s" x.address).toValue),
          ("prefix", (toVariant "u" x.networkPrefix).toValue)]

def setGateway (gateway : Option Value) (object : VariantObject) :
    Except Exception VariantObject :=
  match gateway with
  | none => .ok (object.erase "gateway")
  | some gateway =>
    match object.lookup "address-data" with
    | none => .error (.error "Cannot read properties of undefined (reading 'value')")
    | some addressData =>
      if addressData.value.isEmpty then
        .error (.error "gateway cannot be set if there are no addresses configured")
      else .ok (object.insert "gateway" (toVariant "s" gateway))

def setMethod (method : String) (object : VariantObject) : VariantObject :=
  object.insert "method" (toVariant "s" (.string method))

def setDHCP (object : VariantObject) : Except Exception VariantObject := do
  let object ← setGateway none (setAddressData none object)
  return setMethod "auto" object

def setManual (changes : UpdateIpSettings) (object : VariantObject) :
    Except Exception VariantObject :=
  match changes.addressData with
  | .value (x :: xs) =>
    if changes.gateway.isEmpty then
      .error (.error "Must provide a gateway for static ip")
    else do
      let object ← setGateway (some changes.gateway) (setAddressData (some (x :: xs)) object)
      return setMethod "manual" object
  | _ => .error (.error "Must provide at least one static ip")

/-- Set a list where the changes name it, to `null` or to a value. -/
def setDefined (set : Option (List Value) → VariantObject → VariantObject) :
    Field (List Value) → VariantObject → VariantObject
  | .undefined, object => object
  | .null, object => set none object
  | .value xs, object => set (some xs) object

def applyChanges (changes : Option UpdateIpSettings) (object : VariantObject) :
    Except Exception VariantObject :=
  match changes with
  | none => .ok object
  | some changes =>
    let object := setDefined setDnsData changes.dnsData object
    let object := setDefined setDnsSearch changes.dnsSearch object
    if changes.method.isString "auto" then setDHCP object else setManual changes object

end IpSettingsVariantAdapter

namespace UpdatableSettings

/-- The settings with one section changed. -/
def applySection (name : String) (changes : Option UpdateIpSettings)
    (settings : VariantParentObject) : Except Exception VariantParentObject := do
  let object ← IpSettingsVariantAdapter.new (settings.lookup name)
  let object ← IpSettingsVariantAdapter.applyChanges changes object
  return settings.insert name object

/-- `currentSettings` with the changes of `updateSettings`. -/
def apply (updateSettings : UpdatableSettings) (currentSettings : VariantParentObject) :
    Except Exception VariantParentObject := do
  let settings ← applySection "ipv4" updateSettings.ipv4 currentSettings
  applySection "ipv6" updateSettings.ipv6 settings

end UpdatableSettings

/-! ## The request -/

structure SimpleIpSettings where
  address : Value
  networkPrefix : Value
  gateway : Value
  dns : Value
  method : Value

structure UpdateNetworkConfigDto where
  ipv4 : Field SimpleIpSettings
  ipv6 : Field SimpleIpSettings

/-- A `null` section passes the validation and cannot be destructured. -/
def toInternal : Field SimpleIpSettings → Except Exception (Option UpdateIpSettings)
  | .undefined => .ok none
  | .null => .error (.error "Cannot destructure property 'address' of 'ip' as it is null.")
  | .value ip => .ok <| some
    { addressData := .value <|
        if ip.address.isDefined && ip.networkPrefix.isDefined then
          [{ address := ip.address, networkPrefix := ip.networkPrefix }]
        else []
      gateway := ip.gateway
      method := ip.method
      dnsData := .value <| if ip.dns.isDefined then [ip.dns] else []
      dnsSearch := .undefined }

def UpdateNetworkConfigDto.toInternal (config : UpdateNetworkConfigDto) :
    Except Exception UpdatableSettings := do
  let ipv4 ← Network.toInternal config.ipv4
  let ipv6 ← Network.toInternal config.ipv6
  return { ipv4, ipv6 }

end RpiNestApi.Network
