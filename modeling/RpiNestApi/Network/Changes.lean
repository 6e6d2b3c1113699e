import RpiNestApi.Network.Settings

/-
What an update makes of the settings it has read.

Both families are changed in the same way, each in its own section.  A section
that is changed keeps every property that the adapter does not manage, and one
that is not changed keeps all but the deprecated ones.
-/

namespace RpiNestApi.Network

inductive Family where
  | ipv4
  | ipv6
  deriving DecidableEq, Repr

/-- The section of the family. -/
def Family.name : Family → String
  | .ipv4 => "ipv4"
  | .ipv6 => "ipv6"

def UpdatableSettings.changes (updateSettings : UpdatableSettings) :
    Family → Option UpdateIpSettings
  | .ipv4 => updateSettings.ipv4
  | .ipv6 => updateSettings.ipv6

/-- The simple settings of a family. -/
def UpdateNetworkConfigDto.family (config : UpdateNetworkConfigDto) :
    Family → Field SimpleIpSettings
  | .ipv4 => config.ipv4
  | .ipv6 => config.ipv6

theorem toInternal_family {config : UpdateNetworkConfigDto} {updateSettings : UpdatableSettings}
    (h : config.toInternal = .ok updateSettings) (f : Family) :
    toInternal (config.family f) = .ok (updateSettings.changes f) := by
  simp only [UpdateNetworkConfigDto.toInternal] at h
  cases h₄ : toInternal config.ipv4 with
  | error e =>
      rw [h₄] at h
      cases h
  | ok ipv4 =>
      cases h₆ : toInternal config.ipv6 with
      | error e =>
          rw [h₄, h₆] at h
          cases h
      | ok ipv6 =>
          rw [h₄, h₆] at h
          cases h
          cases f with
          | ipv4 => exact h₄
          | ipv6 => exact h₆

/-- The DNS servers of a request. -/
def dnsServers (dns : Value) : List Value := if dns.isDefined then [dns] else []

theorem erase_of_lookup_eq_none {object : VariantObject} {name : String}
    (h : object.lookup name = none) : object.erase name = object := by
  rw [AList.lookup_eq_none, AList.mem_keys] at h
  exact AList.ext (List.kerase_of_notMem_keys h)

namespace IpSettingsVariantAdapter

/-- The object without the deprecated properties. -/
def clean (object : VariantObject) : VariantObject :=
  ((object.erase "addresses").erase "dns").erase "routes"

def deprecated : List String := ["addresses", "dns", "routes"]

/-- The properties the adapter sets. -/
def managed : List String := ["dns-data", "dns-search", "address-data", "gateway", "method"]

theorem new_some (object : VariantObject) : new (some object) = .ok (clean object) := rfl

theorem lookup_clean {name : String} (h : name ∉ deprecated) (object : VariantObject) :
    (clean object).lookup name = object.lookup name := by
  simp only [deprecated, List.mem_cons, List.not_mem_nil, or_false, not_or] at h
  rw [clean, AList.lookup_erase_ne h.2.2, AList.lookup_erase_ne h.2.1, AList.lookup_erase_ne h.1]

theorem lookup_clean_deprecated {name : String} (h : name ∈ deprecated) (object : VariantObject) :
    (clean object).lookup name = none := by
  simp only [deprecated, List.mem_cons, List.not_mem_nil, or_false] at h
  rcases h with rfl | rfl | rfl <;> simp [clean, AList.lookup_erase_ne]

theorem clean_eq_self {object : VariantObject}
    (h : ∀ name ∈ deprecated, object.lookup name = none) : clean object = object := by
  rw [clean, erase_of_lookup_eq_none (h "addresses" (by decide)),
    erase_of_lookup_eq_none (h "dns" (by decide)),
    erase_of_lookup_eq_none (h "routes" (by decide))]

/-! ## One property at a time -/

theorem lookup_setList_ne {name name' : String} (h : name' ≠ name) (data : Option (List Value))
    (object : VariantObject) : (setList name data object).lookup name' = object.lookup name' := by
  cases data with
  | none => exact AList.lookup_erase_ne h
  | some xs => exact AList.lookup_insert_ne h

theorem lookup_setDefined_ne {name name' : String} (h : name' ≠ name) (data : Field (List Value))
    (object : VariantObject) :
    (setDefined (setList name) data object).lookup name' = object.lookup name' := by
  cases data with
  | undefined => rfl
  | null => exact lookup_setList_ne h none object
  | value xs => exact lookup_setList_ne h (some xs) object

/-- The variant `setAddressData` makes of the addresses. -/
def addressVariant (xs : List NetworkAddress) : Variant :=
  toVariant "aa{sv}" <| .array <| xs.map fun x =>
    .object
      [("address", (toVariant "s" x.address).toValue),
        ("prefix", (toVariant "u" x.networkPrefix).toValue)]

theorem setAddressData_some (xs : List NetworkAddress) (object : VariantObject) :
    setAddressData (some xs) object = object.insert "address-data" (addressVariant xs) := rfl

/-- The object with the lists of the changes. -/
def setLists (changes : UpdateIpSettings) (object : VariantObject) : VariantObject :=
  setDefined setDnsSearch changes.dnsSearch (setDefined setDnsData changes.dnsData object)

/-- What `applyChanges` makes of an object, where it does not throw. -/
inductive Applied (changes : UpdateIpSettings) (object : VariantObject) : VariantObject → Prop
  | auto (hmethod : changes.method.isString "auto" = true) :
      Applied changes object
        (((setLists changes object).erase "address-data").erase "gateway"
          |>.insert "method" (toVariant "s" (.string "auto")))
  | manual {x : NetworkAddress} {xs : List NetworkAddress}
      (hmethod : changes.method.isString "auto" = false)
      (haddress : changes.addressData = .value (x :: xs))
      (hgateway : changes.gateway.isEmpty = false) :
      Applied changes object
        ((((setLists changes object).insert "address-data" (addressVariant (x :: xs))).insert
          "gateway" (toVariant "s" changes.gateway)).insert "method"
            (toVariant "s" (.string "manual")))

theorem applyChanges_auto {changes : UpdateIpSettings}
    (h : changes.method.isString "auto" = true) (object : VariantObject) :
    applyChanges (some changes) object = setDHCP (setLists changes object) := by
  simp only [applyChanges, h, if_true]
  rfl

theorem applyChanges_manual {changes : UpdateIpSettings}
    (h : changes.method.isString "auto" = false) (object : VariantObject) :
    applyChanges (some changes) object = setManual changes (setLists changes object) := by
  simp only [applyChanges, h, Bool.false_eq_true, if_false]
  rfl

/-- A gateway that follows addresses is set. -/
theorem setManual_eq_ok {changes : UpdateIpSettings} {x : NetworkAddress}
    {xs : List NetworkAddress} (haddress : changes.addressData = .value (x :: xs))
    (hgateway : changes.gateway.isEmpty = false) (object : VariantObject) :
    setManual changes object = .ok
      (((object.insert "address-data" (addressVariant (x :: xs))).insert "gateway"
        (toVariant "s" changes.gateway)).insert "method" (toVariant "s" (.string "manual"))) := by
  have hempty : (addressVariant (x :: xs)).value.isEmpty = false := rfl
  simp only [setManual, haddress, hgateway, Bool.false_eq_true, if_false, setGateway,
    setAddressData_some, AList.lookup_insert, hempty]
  rfl

theorem applyChanges_iff {changes : UpdateIpSettings} {object object' : VariantObject} :
    applyChanges (some changes) object = .ok object' ↔ Applied changes object object' := by
  constructor
  · intro h
    cases hmethod : changes.method.isString "auto" with
    | true =>
        rw [applyChanges_auto hmethod] at h
        cases h
        exact .auto hmethod
    | false =>
        rw [applyChanges_manual hmethod] at h
        cases haddress : changes.addressData with
        | value list =>
            cases list with
            | nil => simp [setManual, haddress] at h
            | cons x xs =>
                cases hgateway : changes.gateway.isEmpty with
                | true => simp [setManual, haddress, hgateway] at h
                | false =>
                    rw [setManual_eq_ok haddress hgateway] at h
                    cases h
                    exact .manual hmethod haddress hgateway
        | undefined => simp [setManual, haddress] at h
        | null => simp [setManual, haddress] at h
  · rintro (hmethod | ⟨hmethod, haddress, hgateway⟩)
    · rw [applyChanges_auto hmethod]
      rfl
    · rw [applyChanges_manual hmethod, setManual_eq_ok haddress hgateway]

/-- What the properties are that a request decides. -/
structure Managed (object : VariantObject) (method : String) (gateway : Option Value)
    (addresses : Option (List NetworkAddress)) (servers : List Value) : Prop where
  method : object.lookup "method" = some (toVariant "s" (.string method))
  gateway : object.lookup "gateway" = gateway.map (toVariant "s")
  addressData : object.lookup "address-data" = addresses.map addressVariant
  dnsData : object.lookup "dns-data" = some (toVariant "as" (.array servers))

theorem lookup_setLists_dnsData {changes : UpdateIpSettings} {servers : List Value}
    (h : changes.dnsData = .value servers) (object : VariantObject) :
    (setLists changes object).lookup "dns-data" = some (toVariant "as" (.array servers)) := by
  rw [setLists, setDnsSearch, lookup_setDefined_ne (by decide), h]
  exact AList.lookup_insert object

theorem Applied.sets {changes : UpdateIpSettings} {object object' : VariantObject}
    {servers : List Value} (h : Applied changes object object')
    (hdns : changes.dnsData = .value servers) :
    changes.method.isString "auto" = true ∧ Managed object' "auto" none none servers ∨
      changes.method.isString "auto" = false ∧ changes.gateway.isEmpty = false ∧
        ∃ x xs, changes.addressData = .value (x :: xs) ∧
          Managed object' "manual" (some changes.gateway) (some (x :: xs)) servers := by
  have hlists := lookup_setLists_dnsData hdns object
  cases h with
  | auto hmethod =>
      refine .inl ⟨hmethod, AList.lookup_insert _, ?_, ?_, ?_⟩
      · rw [AList.lookup_insert_ne (by decide), AList.lookup_erase, Option.map_none]
      · rw [AList.lookup_insert_ne (by decide), AList.lookup_erase_ne (by decide),
          AList.lookup_erase, Option.map_none]
      · rw [AList.lookup_insert_ne (by decide), AList.lookup_erase_ne (by decide),
          AList.lookup_erase_ne (by decide), hlists]
  | manual hmethod haddress hgateway =>
      refine .inr ⟨hmethod, hgateway, _, _, haddress, AList.lookup_insert _, ?_, ?_, ?_⟩
      · rw [AList.lookup_insert_ne (by decide), AList.lookup_insert, Option.map_some]
      · rw [AList.lookup_insert_ne (by decide), AList.lookup_insert_ne (by decide),
          AList.lookup_insert, Option.map_some]
      · rw [AList.lookup_insert_ne (by decide), AList.lookup_insert_ne (by decide),
          AList.lookup_insert_ne (by decide), hlists]

/-- Properties that are not managed are left alone. -/
theorem Applied.lookup_of_notMem {changes : UpdateIpSettings} {object object' : VariantObject}
    (h : Applied changes object object') {name : String} (hname : name ∉ managed) :
    object'.lookup name = object.lookup name := by
  simp only [managed, List.mem_cons, List.not_mem_nil, or_false, not_or] at hname
  obtain ⟨hdns, hsearch, haddress, hgateway, hmethod⟩ := hname
  have hlists : (setLists changes object).lookup name = object.lookup name :=
    (lookup_setDefined_ne hsearch _ _).trans (lookup_setDefined_ne hdns _ _)
  cases h with
  | auto =>
      rw [AList.lookup_insert_ne hmethod, AList.lookup_erase_ne hgateway,
        AList.lookup_erase_ne haddress, hlists]
  | manual =>
      rw [AList.lookup_insert_ne hmethod, AList.lookup_insert_ne hgateway,
        AList.lookup_insert_ne haddress, hlists]

theorem applyChanges_lookup_of_notMem {changes : Option UpdateIpSettings}
    {object object' : VariantObject} (h : applyChanges changes object = .ok object')
    {name : String} (hname : name ∉ managed) : object'.lookup name = object.lookup name := by
  cases changes with
  | none =>
      cases h
      rfl
  | some changes => exact (applyChanges_iff.mp h).lookup_of_notMem hname

/-- A block that was cleaned and changed has no deprecated property. -/
theorem lookup_applyChanges_deprecated {changes : Option UpdateIpSettings}
    {object object' : VariantObject} (h : applyChanges changes (clean object) = .ok object')
    {name : String} (hname : name ∈ deprecated) : object'.lookup name = none := by
  have hmanaged : name ∉ managed := by
    revert name
    decide
  rw [applyChanges_lookup_of_notMem h hmanaged, lookup_clean_deprecated hname]

end IpSettingsVariantAdapter

namespace UpdatableSettings

open IpSettingsVariantAdapter

theorem applySection_eq_ok {name : String} {changes : Option UpdateIpSettings}
    {settings settings' : VariantParentObject}
    (h : applySection name changes settings = .ok settings') :
    ∃ object object', settings.lookup name = some object ∧
      applyChanges changes (clean object) = .ok object' ∧
      settings' = settings.insert name object' := by
  simp only [applySection] at h
  cases hobject : settings.lookup name with
  | none =>
      rw [hobject] at h
      cases h
  | some object =>
      rw [hobject, new_some] at h
      cases hchanges : applyChanges changes (clean object) with
      | error e =>
          simp only [bind, Except.bind, hchanges] at h
          cases h
      | ok object' =>
          simp only [bind, Except.bind, hchanges] at h
          cases h
          exact ⟨object, object', rfl, hchanges, rfl⟩

/-- Both sections are there, and each is changed by its own changes. -/
def Changed (updateSettings : UpdatableSettings) (settings settings' : VariantParentObject) :
    Prop :=
  ∀ f : Family, ∃ object object', settings.lookup f.name = some object ∧
    applyChanges (updateSettings.changes f) (clean object) = .ok object' ∧
    settings'.lookup f.name = some object'

/-- The sections are changed one after the other. -/
theorem exists_applySection {updateSettings : UpdatableSettings}
    {settings settings' : VariantParentObject} (h : updateSettings.apply settings = .ok settings') :
    ∃ settings₁, applySection "ipv4" updateSettings.ipv4 settings = .ok settings₁ ∧
      applySection "ipv6" updateSettings.ipv6 settings₁ = .ok settings' := by
  simp only [apply] at h
  cases h₁ : applySection "ipv4" updateSettings.ipv4 settings with
  | error e =>
      rw [h₁] at h
      cases h
  | ok settings₁ =>
      rw [h₁] at h
      exact ⟨settings₁, rfl, h⟩

theorem apply_eq_ok {updateSettings : UpdatableSettings} {settings settings' : VariantParentObject}
    (h : updateSettings.apply settings = .ok settings') :
    Changed updateSettings settings settings' := by
  obtain ⟨settings₁, h₄, h₆⟩ := exists_applySection h
  obtain ⟨object₄, object₄', hlookup₄, hchanges₄, rfl⟩ := applySection_eq_ok h₄
  obtain ⟨object₆, object₆', hlookup₆, hchanges₆, rfl⟩ := applySection_eq_ok h₆
  rw [AList.lookup_insert_ne (by decide)] at hlookup₆
  intro f
  cases f with
  | ipv4 =>
      refine ⟨object₄, object₄', hlookup₄, hchanges₄, ?_⟩
      rw [Family.name, AList.lookup_insert_ne (by decide), AList.lookup_insert]
  | ipv6 => exact ⟨object₆, object₆', hlookup₆, hchanges₆, AList.lookup_insert _⟩

/-- All other sections are left alone. -/
theorem lookup_apply_ne {updateSettings : UpdatableSettings}
    {settings settings' : VariantParentObject} (h : updateSettings.apply settings = .ok settings')
    {name : String} (hname : ∀ f : Family, name ≠ f.name) :
    settings'.lookup name = settings.lookup name := by
  obtain ⟨settings₁, h₄, h₆⟩ := exists_applySection h
  obtain ⟨_, object₄, _, _, rfl⟩ := applySection_eq_ok h₄
  obtain ⟨_, object₆, _, _, rfl⟩ := applySection_eq_ok h₆
  have hipv4 : name ≠ "ipv4" := hname .ipv4
  have hipv6 : name ≠ "ipv6" := hname .ipv6
  rw [AList.lookup_insert_ne hipv6, AList.lookup_insert_ne hipv4]

/-- The section of a family that the request names, with the changes made of it. -/
theorem exists_section {config : UpdateNetworkConfigDto} {updateSettings : UpdatableSettings}
    (hinternal : config.toInternal = .ok updateSettings) {settings settings' : VariantParentObject}
    (happly : updateSettings.apply settings = .ok settings') {f : Family} {ip : SimpleIpSettings}
    (hip : config.family f = .value ip) :
    ∃ changes object object', toInternal (.value ip) = .ok (some changes) ∧
      applyChanges (some changes) (clean object) = .ok object' ∧
      settings'.lookup f.name = some object' := by
  obtain ⟨object, object', _, hchanges, hlookup⟩ := apply_eq_ok happly f
  have hfamily := toInternal_family hinternal f
  rw [hip] at hfamily
  rw [← Except.ok.inj hfamily] at hchanges
  exact ⟨_, object, object', rfl, hchanges, hlookup⟩

namespace Changed

variable {updateSettings : UpdatableSettings} {settings settings' : VariantParentObject}

/-- A changed section has no deprecated property. -/
theorem clean (h : Changed updateSettings settings settings') (f : Family) :
    ∃ object, settings'.lookup f.name = some object ∧
      ∀ name ∈ deprecated, object.lookup name = none := by
  obtain ⟨object, object', _, hchanges, hlookup⟩ := h f
  exact ⟨object', hlookup, fun name hname => lookup_applyChanges_deprecated hchanges hname⟩

/-- A section without changes and without deprecated properties is kept. -/
theorem keeps (h : Changed updateSettings settings settings') {f : Family}
    (hnone : updateSettings.changes f = none) {object : VariantObject}
    (hlookup : settings.lookup f.name = some object)
    (hclean : ∀ name ∈ deprecated, object.lookup name = none) :
    settings'.lookup f.name = some object := by
  obtain ⟨object₀, object', hlookup₀, hchanges, hlookup'⟩ := h f
  rw [hlookup] at hlookup₀
  cases hlookup₀
  rw [hnone, clean_eq_self hclean] at hchanges
  cases hchanges
  exact hlookup'

end Changed

/-- A second update keeps the section it has no changes for. -/
theorem lookup_apply_apply {updateSettings updateSettings' : UpdatableSettings}
    {settings settings' settings'' : VariantParentObject}
    (h : updateSettings.apply settings = .ok settings')
    (h' : updateSettings'.apply settings' = .ok settings'') {f : Family}
    (hnone : updateSettings'.changes f = none) :
    settings''.lookup f.name = settings'.lookup f.name := by
  obtain ⟨object, hlookup, hclean⟩ := (apply_eq_ok h).clean f
  rw [hlookup, (apply_eq_ok h').keeps hnone hlookup hclean]

end UpdatableSettings

end RpiNestApi.Network
