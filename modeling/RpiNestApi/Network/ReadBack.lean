import RpiNestApi.Async.Alone
import RpiNestApi.Network.ActiveConnection
import RpiNestApi.Network.Changes
import RpiNestApi.Network.Steps

/-
Reading back what an update has written.

NetworkManager returns the settings it was given, with an empty list of addresses
where there is none.  What a request asks for is then read back, and so is what
the other family had before.
-/

namespace RpiNestApi.Network

open Async IpSettingsVariantAdapter

/-- The section as `GetSettings` returns it. -/
def withAddressData (object : VariantObject) : VariantObject :=
  match object.lookup "address-data" with
  | none => object.insert "address-data" (toVariant "aa{sv}" (.array []))
  | some _ => object

def withAddressDataIn (name : String) (settings : VariantParentObject) : VariantParentObject :=
  match settings.lookup name with
  | none => settings
  | some object => settings.insert name (withAddressData object)

/-- What `GetSettings` returns of the settings passed to `Update`. -/
def returnedSettings (settings : VariantParentObject) : VariantParentObject :=
  withAddressDataIn "ipv6" (withAddressDataIn "ipv4" settings)

/-- Settings that NetworkManager stores: they came over D-Bus, and no section and
no property of the sections that are read is called "signature". -/
structure Stored (settings : VariantParentObject) : Prop where
  signature : settings.lookup "signature" = none
  sections : ∀ (f : Family) object, settings.lookup f.name = some object →
    object.lookup "signature" = none
  values : ∀ name object, settings.lookup name = some object → FromDBus object

/-- A request for one family: automatic settings, or a static address. -/
inductive SimpleIpSettings.Requested : SimpleIpSettings → Prop
  | auto {address networkPrefix gateway dns : Value}
      (hdns : dns = .undefined ∨ ∃ s, dns = .string s) :
      Requested { address, networkPrefix, gateway, dns, method := .string "auto" }
  | manual {address gateway : String} {networkPrefix : Rat} {dns : Value}
      (hdns : dns = .undefined ∨ ∃ s, dns = .string s) :
      Requested
        { address := .string address, networkPrefix := .number networkPrefix,
          gateway := .string gateway, dns, method := .string "manual" }

/-- What is read back of a request.  Automatic settings have no address. -/
def SimpleIpSettings.readBack (ip : SimpleIpSettings) : SimpleIpSettings :=
  if ip.method.isString "auto" then
    { ip with address := .undefined, networkPrefix := .undefined, gateway := .undefined }
  else ip

/-! ## Sections -/

theorem FromDBus.insert {object : VariantObject} (h : FromDBus object) {name : String} {v : Variant}
    (hv : v.value.isDBus = true) : FromDBus (object.insert name v) := by
  intro name' v' hlookup
  by_cases hname : name' = name
  · subst hname
    rw [AList.lookup_insert] at hlookup
    cases hlookup
    exact hv
  · rw [AList.lookup_insert_ne hname] at hlookup
    exact h name' v' hlookup

theorem FromDBus.erase {object : VariantObject} (h : FromDBus object) (name : String) :
    FromDBus (object.erase name) := by
  intro name' v' hlookup
  by_cases hname : name' = name
  · subst hname
    rw [AList.lookup_erase] at hlookup
    cases hlookup
  · rw [AList.lookup_erase_ne hname] at hlookup
    exact h name' v' hlookup

theorem FromDBus.clean {object : VariantObject} (h : FromDBus object) : FromDBus (clean object) :=
  ((h.erase _).erase _).erase _

theorem lookup_withAddressData_ne {name : String} (h : name ≠ "address-data")
    (object : VariantObject) : (withAddressData object).lookup name = object.lookup name := by
  rw [withAddressData]
  split
  · exact AList.lookup_insert_ne h
  · rfl

theorem lookup_withAddressData (object : VariantObject) :
    (withAddressData object).lookup "address-data" =
      some ((object.lookup "address-data").getD (toVariant "aa{sv}" (.array []))) := by
  rw [withAddressData]
  split
  · rename_i h
    rw [AList.lookup_insert, h, Option.getD_none]
  · rename_i v h
    rw [h, Option.getD_some]

theorem FromDBus.readable {object : VariantObject} (h : FromDBus object)
    (hsignature : object.lookup "signature" = none) : Readable (withAddressData object) where
  signature := (lookup_withAddressData_ne (by decide) object).trans hsignature
  values := by
    rw [withAddressData]
    split
    · exact h.insert (by decide)
    · exact h
  addressData := by simp [lookup_withAddressData]

/-- The section of a family that is not changed is read as before. -/
theorem reads_clean {object : VariantObject} (h : FromDBus object)
    (hsignature : object.lookup "signature" = none) {simple : SimpleIpSettings}
    (hreads : Reads (withAddressData object) simple) :
    Reads (withAddressData (clean (withAddressData object))) simple := by
  have hreadable := h.readable hsignature
  have hclean : FromDBus (clean (withAddressData object)) := FromDBus.clean hreadable.values
  have hsignature' : (clean (withAddressData object)).lookup "signature" = none := by
    rw [lookup_clean (by decide), hreadable.signature]
  refine hreads.congr hreadable (hclean.readable hsignature') fun name hname => ?_
  by_cases haddress : name = "address-data"
  · subst haddress
    rw [lookup_withAddressData, lookup_clean (by decide), lookup_withAddressData, Option.getD_some]
  · have hdeprecated : name ∉ deprecated := by
      revert name
      decide
    rw [lookup_withAddressData_ne haddress, lookup_clean hdeprecated]

theorem dnsServers_read {dns : Value} (h : dns = .undefined ∨ ∃ s, dns = .string s) :
    (Value.array (dnsServers dns)).isDBus = true ∧
      unwrapContents (.array (dnsServers dns)) = .ok (.array (dnsServers dns)) ∧
      optionalFirst (.array (dnsServers dns)) = .ok dns := by
  rcases h with rfl | ⟨s, rfl⟩ <;> exact ⟨rfl, rfl, rfl⟩

/-- What a request decides is read of the section it has changed. -/
theorem reads_managed {object : VariantObject} (h : FromDBus object)
    (hsignature : object.lookup "signature" = none) {method : String} {gateway : Option Value}
    {addresses : Option (List NetworkAddress)} {dns firstIp address networkPrefix : Value}
    (hmanaged : Managed object method gateway addresses (dnsServers dns))
    (hdns : dns = .undefined ∨ ∃ s, dns = .string s)
    (hgateway : ∀ v, gateway = some v → unwrapContents v = .ok v)
    {addressData : Value}
    (haddresses : unwrapContents
      ((addresses.map addressVariant).getD (toVariant "aa{sv}" (.array []))).value =
        .ok addressData)
    (hfirst : addressData.first = .ok firstIp)
    (haddress : ofFirst firstIp "address" = .ok address)
    (hnetworkPrefix : ofFirst firstIp "prefix" = .ok networkPrefix) :
    Reads (withAddressData object)
      { address, networkPrefix, gateway := gateway.getD .undefined, dns,
        method := .string method } := by
  obtain ⟨_, hcontents, hserver⟩ := dnsServers_read hdns
  have hlookup : ∀ name, name ≠ "address-data" →
      (withAddressData object).lookup name = object.lookup name :=
    fun name hname => lookup_withAddressData_ne hname object
  have hgateway' : Shows (withAddressData object) "gateway" (gateway.getD .undefined) := by
    have hobject := (hlookup "gateway" (by decide)).trans hmanaged.gateway
    cases gateway with
    | none => exact .absent hobject
    | some v => exact .present hobject (hgateway v rfl)
  have haddressData := lookup_withAddressData object
  rw [hmanaged.addressData] at haddressData
  exact (h.readable hsignature).reads
    (.present ((hlookup _ (by decide)).trans hmanaged.method) rfl) hgateway'
    (.present haddressData haddresses)
    (.present ((hlookup _ (by decide)).trans hmanaged.dnsData) hcontents) hfirst haddress
    hnetworkPrefix
    hserver

/-- A section that was changed on request is read as requested. -/
theorem SimpleIpSettings.Requested.reads {ip : SimpleIpSettings} (hip : ip.Requested)
    {changes : UpdateIpSettings} (hchanges : toInternal (.value ip) = .ok (some changes))
    {object object' : VariantObject} (h : FromDBus object)
    (hsignature : object.lookup "signature" = none)
    (happly : applyChanges (some changes) object = .ok object') :
    FromDBus object' ∧ object'.lookup "signature" = none ∧
      Reads (withAddressData object') ip.readBack := by
  have hsignature' : object'.lookup "signature" = none :=
    (applyChanges_lookup_of_notMem happly (by decide)).trans hsignature
  have happlied := applyChanges_iff.mp happly
  cases hchanges
  cases hip with
  | auto hdns =>
      have hdbus := (dnsServers_read hdns).1
      rcases happlied.sets rfl with ⟨_, hmanaged⟩ | ⟨hmethod, _⟩
      · have hfrom : FromDBus object' := by
          cases happlied with
          | auto => exact (((h.insert hdbus).erase _).erase _).insert rfl
          | manual hmethod => cases hmethod
        exact ⟨hfrom, hsignature',
          reads_managed hfrom hsignature' hmanaged hdns (by simp) rfl rfl rfl rfl⟩
      · cases hmethod
  | manual hdns =>
      have hdbus := (dnsServers_read hdns).1
      rcases happlied.sets rfl with ⟨hmethod, _⟩ | ⟨_, _, x, xs, haddress, hmanaged⟩
      · cases hmethod
      · cases haddress
        have hfrom : FromDBus object' := by
          cases happlied with
          | auto hmethod => cases hmethod
          | manual _ haddress _ =>
              cases haddress
              exact (((h.insert hdbus).insert rfl).insert rfl).insert rfl
        refine ⟨hfrom, hsignature',
          reads_managed hfrom hsignature' hmanaged hdns ?_ rfl rfl rfl rfl⟩
        rintro _ ⟨⟩
        rfl

/-! ## Settings -/

theorem lookup_withAddressDataIn (name : String) (settings : VariantParentObject) :
    (withAddressDataIn name settings).lookup name =
      (settings.lookup name).map withAddressData := by
  rw [withAddressDataIn]
  split
  · rename_i h
    rw [h, Option.map_none]
  · rename_i object h
    rw [AList.lookup_insert, h, Option.map_some]

theorem lookup_withAddressDataIn_ne {name name' : String} (h : name' ≠ name)
    (settings : VariantParentObject) :
    (withAddressDataIn name settings).lookup name' = settings.lookup name' := by
  rw [withAddressDataIn]
  split
  · rfl
  · exact AList.lookup_insert_ne h

theorem lookup_returnedSettings (f : Family) (settings : VariantParentObject) :
    (returnedSettings settings).lookup f.name =
      (settings.lookup f.name).map withAddressData := by
  cases f with
  | ipv4 =>
      rw [returnedSettings, Family.name, lookup_withAddressDataIn_ne (by decide),
        lookup_withAddressDataIn]
  | ipv6 =>
      rw [returnedSettings, Family.name, lookup_withAddressDataIn,
        lookup_withAddressDataIn_ne (by decide)]

theorem lookup_returnedSettings_ne {name : String} (h : ∀ f : Family, name ≠ f.name)
    (settings : VariantParentObject) :
    (returnedSettings settings).lookup name = settings.lookup name := by
  have hipv4 : name ≠ "ipv4" := h .ipv4
  have hipv6 : name ≠ "ipv6" := h .ipv6
  rw [returnedSettings, lookup_withAddressDataIn_ne hipv6, lookup_withAddressDataIn_ne hipv4]

theorem signature_ne (f : Family) : "signature" ≠ f.name := by
  cases f <;> decide

/-- What is read of the settings that NetworkManager returns. -/
def readSettings (settings : VariantParentObject) : Except Exception UpdateNetworkConfigDto := do
  let settings ← unwrapVariantObject settings
  toSimpleSettings settings

theorem Stored.fromDBus {settings : VariantParentObject} (h : Stored settings) {name : String}
    {object : VariantObject} (hlookup : (returnedSettings settings).lookup name = some object) :
    FromDBus object := by
  by_cases hname : ∃ f : Family, name = f.name
  · obtain ⟨f, rfl⟩ := hname
    rw [lookup_returnedSettings] at hlookup
    obtain ⟨object₀, hlookup₀, rfl⟩ := Option.map_eq_some_iff.mp hlookup
    have hfrom : FromDBus object₀ := h.values _ _ hlookup₀
    exact (hfrom.readable (h.sections f object₀ hlookup₀)).values
  · rw [lookup_returnedSettings_ne fun f hf => hname ⟨f, hf⟩] at hlookup
    exact h.values name object hlookup

/-- Both families of stored settings are read, each from its section. -/
theorem Stored.read {settings : VariantParentObject} (h : Stored settings)
    {object : Family → VariantObject}
    (hlookup : ∀ f : Family, settings.lookup f.name = some (object f))
    {simple : Family → SimpleIpSettings}
    (hreads : ∀ f, Reads (withAddressData (object f)) (simple f)) :
    readSettings (returnedSettings settings) =
      .ok { ipv4 := .value (simple .ipv4), ipv6 := .value (simple .ipv6) } := by
  have hsignature : (returnedSettings settings).lookup "signature" = none :=
    (lookup_returnedSettings_ne signature_ne settings).trans h.signature
  have hdbus : haveDBus ((returnedSettings settings).entries.map fun e =>
      (e.1, VariantObject.toValue e.2)) = true :=
    haveDBus_entries fun e he => (h.fromDBus (AList.mem_lookup_iff.mpr he)).isDBus
  obtain ⟨fields, hfields⟩ := exists_unwrapFields _ hdbus
  have hunwrap : unwrapVariantObject (returnedSettings settings) = .ok (.object fields) := by
    rw [unwrapVariantObject, VariantParentObject.toValue, unwrapVariantDeep,
      isVariantLike_entries _ hsignature, hfields]
    rfl
  have hsection : ∀ f : Family, toSimple (Value.field f.name fields) = .ok (simple f) := by
    intro f
    obtain ⟨v, hv, hsimple⟩ := hreads f
    have hreturned : (returnedSettings settings).entries.dlookup f.name =
        some (withAddressData (object f)) :=
      (lookup_returnedSettings f settings).trans (congrArg (Option.map _) (hlookup f))
    rcases lookup_unwrapFields hfields f.name with ⟨hnone, _⟩ | ⟨x, y, hx, hy, hfield⟩
    · rw [lookup_map_entries, hreturned] at hnone
      cases hnone
    · rw [lookup_map_entries, hreturned] at hx
      cases hx
      cases hv.symm.trans hy
      rwa [Value.field, hfield]
  have hipv4 : toSimple (Value.field "ipv4" fields) = .ok (simple .ipv4) := hsection .ipv4
  have hipv6 : toSimple (Value.field "ipv6" fields) = .ok (simple .ipv6) := hsection .ipv6
  simp only [readSettings, hunwrap, toSimpleSettings, Value.destructure, Value.get, bind,
    Except.bind, hipv4, hipv6]
  rfl

/-! ## Requests -/

/-- A request that changes the families it names to automatic settings or to a
static address. -/
def UpdateNetworkConfigDto.Requested (config : UpdateNetworkConfigDto) : Prop :=
  ∀ f, config.family f = .undefined ∨ ∃ ip, config.family f = .value ip ∧ ip.Requested

/-- The families that are named in a request are read as requested, and the others
as before. -/
structure ReadBack (config before after : UpdateNetworkConfigDto) : Prop where
  requested : ∀ f ip, config.family f = .value ip → after.family f = .value ip.readBack
  kept : ∀ f, config.family f = .undefined → after.family f = before.family f

/-- One section of stored settings, before and after a change. -/
theorem Stored.section_read {settings settings' : VariantParentObject} (h : Stored settings)
    {config : UpdateNetworkConfigDto} (hconfig : config.Requested)
    {updateSettings : UpdatableSettings} (hinternal : config.toInternal = .ok updateSettings)
    (happly : updateSettings.apply (returnedSettings settings) = .ok settings') (f : Family) :
    ∃ object object' before after, settings.lookup f.name = some object ∧
      settings'.lookup f.name = some object' ∧ FromDBus object' ∧
      object'.lookup "signature" = none ∧ Reads (withAddressData object) before ∧
      Reads (withAddressData object') after ∧
      (∀ ip, config.family f = .value ip → after = ip.readBack) ∧
      (config.family f = .undefined → after = before) := by
  obtain ⟨object₀, object', hlookup₀, hchanges, hlookup'⟩ := UpdatableSettings.apply_eq_ok happly f
  rw [lookup_returnedSettings] at hlookup₀
  obtain ⟨object, hlookup, rfl⟩ := Option.map_eq_some_iff.mp hlookup₀
  have hfrom : FromDBus object := h.values _ _ hlookup
  have hsignature := h.sections f object hlookup
  have hreadable := hfrom.readable hsignature
  have hclean : FromDBus (clean (withAddressData object)) := hreadable.values.clean
  have hsignature' : (clean (withAddressData object)).lookup "signature" = none := by
    rw [lookup_clean (by decide), hreadable.signature]
  have hfamily := toInternal_family hinternal f
  obtain ⟨before, hbefore⟩ := hreadable.exists_reads
  rcases hconfig f with hnone | ⟨ip, hip, hrequested⟩
  · rw [hnone] at hfamily
    cases hupdate : updateSettings.changes f with
    | some changes =>
        rw [hupdate] at hfamily
        cases hfamily
    | none =>
        rw [hupdate] at hchanges
        cases hchanges
        refine ⟨object, _, before, before, hlookup, hlookup', hclean, hsignature', hbefore,
          reads_clean hfrom hsignature hbefore, fun ip hip => ?_, fun _ => rfl⟩
        cases hnone.symm.trans hip
  · rw [hip] at hfamily
    cases hupdate : updateSettings.changes f with
    | none =>
        rw [hupdate] at hfamily
        cases hfamily
    | some changes =>
        rw [hupdate] at hfamily hchanges
        obtain ⟨hfrom', hnone', hafter⟩ := hrequested.reads hfamily hclean hsignature' hchanges
        refine ⟨object, object', before, _, hlookup, hlookup', hfrom', hnone', hbefore, hafter,
          fun ip' hip' => ?_, fun hundefined => ?_⟩
        · cases hip.symm.trans hip'
          rfl
        · cases hip.symm.trans hundefined

/-- What is read of stored settings, and of what an update has made of them. -/
theorem Stored.readBack {settings settings' : VariantParentObject} (h : Stored settings)
    {config : UpdateNetworkConfigDto} (hconfig : config.Requested)
    {updateSettings : UpdatableSettings} (hinternal : config.toInternal = .ok updateSettings)
    (happly : updateSettings.apply (returnedSettings settings) = .ok settings') :
    ∃ before after, readSettings (returnedSettings settings) = .ok before ∧
      readSettings (returnedSettings settings') = .ok after ∧ ReadBack config before after := by
  have hsections := h.section_read hconfig hinternal happly
  choose object object' before after hlookup hlookup' hfrom hsignature hbefore hafter hsupplied
    hkept using hsections
  have hstored : Stored settings' :=
    { signature := by
        rw [UpdatableSettings.lookup_apply_ne happly signature_ne,
          lookup_returnedSettings_ne signature_ne, h.signature]
      sections := fun f object₁ hobject₁ => by
        cases (hlookup' f).symm.trans hobject₁
        exact hsignature f
      values := fun name object₁ hobject₁ => by
        by_cases hname : ∃ f : Family, name = f.name
        · obtain ⟨f, rfl⟩ := hname
          cases (hlookup' f).symm.trans hobject₁
          exact hfrom f
        · rw [UpdatableSettings.lookup_apply_ne happly fun f hf => hname ⟨f, hf⟩] at hobject₁
          exact h.fromDBus hobject₁ }
  refine ⟨_, _, h.read hlookup hbefore, hstored.read hlookup' hafter, ?_, ?_⟩
  · rintro (_ | _) ip hip
    · exact congrArg Field.value (hsupplied .ipv4 ip hip)
    · exact congrArg Field.value (hsupplied .ipv6 ip hip)
  · rintro (_ | _) hnone
    · exact congrArg Field.value (hkept .ipv4 hnone)
    · exact congrArg Field.value (hkept .ipv6 hnone)

/-! ## The services -/

section Ends

variable {η : Host} {w : World}

/-- A read that is not rejected. -/
theorem resolve_ends {q : Await} {post : Except Exception q.Answer → World → Prop}
    {r : Except Exception q.Answer × World} (hr : η.answer q .resolve w = some r)
    (h : post r.1 r.2) : (await q).Ends η.answer Eq (· = .resolve) post w := by
  refine Prog.ends_call_eq ⟨.resolve, r, rfl, hr⟩ fun c r' hc hr' => ?_
  subst hc
  cases hr.symm.trans hr'
  exact h

theorem await_ends_eq {q : Await} {post : Except Exception q.Answer → World → Prop}
    (h : ∀ a w', η.answer q .resolve w = some (.ok a, w') → post (.ok a) w')
    (hreject : ∀ e, post (.error e) w) : (await q).Ends η.answer Eq (fun _ => True) post w := by
  refine Prog.ends_call_eq ⟨.reject (.error ""), _, trivial, answer_reject⟩ fun c r _ hr => ?_
  cases c with
  | resolve =>
      obtain ⟨a, ha⟩ := answer_resolve hr
      obtain ⟨r, w'⟩ := r
      obtain rfl : r = .ok a := ha
      exact h a w' hr
  | reject e =>
      rw [answer_reject] at hr
      cases hr
      exact hreject e

/-- The settings of the interface's connection are read as `config`. -/
def ReadAs (η : Host) (interfaceName : String) (w : World) (config : UpdateNetworkConfigDto) :
    Prop :=
  (NetworkService.getActiveConnection interfaceName).Ends η.answer Eq (· = .resolve)
    (fun r _ => r = .ok config) w

variable {interfaceName : String} {device : ObjectPath} {config : UpdateNetworkConfigDto}

theorem readAs (hdevice : η.deviceByIpIface interfaceName = some device) (hpath : device ≠ "/")
    (hactive : η.activeConnection device ≠ "/")
    (hread : readSettings (η.getSettings (w.networkManager.saved (η.profile device))) =
      .ok config) : ReadAs η interfaceName w config := by
  simp only [ReadAs, NetworkService.getActiveConnection,
    NetworkSettingsService.getActiveConnectionOfDevice,
    NetworkSettingsService.networkManagerMethods, NetworkSettingsService.getInterface,
    NetworkSettingsService.getDeviceProperties,
    NetworkSettingsService.getActiveConnectionProperties, Prog.bind_def, Prog.ends_bind]
  refine resolve_ends rfl (resolve_ends rfl ?_)
  simp only [hdevice, if_neg hpath, Prog.ends_bind]
  refine resolve_ends rfl (resolve_ends rfl ?_)
  simp only [if_neg hactive, Prog.ends_bind]
  refine resolve_ends rfl (resolve_ends rfl (resolve_ends rfl (resolve_ends rfl ?_)))
  rw [readSettings] at hread
  cases hunwrap : unwrapVariantObject
      (η.getSettings (w.networkManager.saved (η.profile device))) with
  | error e =>
      rw [hunwrap] at hread
      cases hread
  | ok settings =>
      rw [hunwrap] at hread
      have hsimple : toSimpleSettings settings = .ok config := hread
      simp only [Host.profile] at hunwrap
      simp only [hunwrap, Prog.pure_def, Prog.ends_ret, hsimple]

/-- An update that succeeds has saved the changed settings of the device. -/
structure Saves (η : Host) (interfaceName : String) (config : UpdateNetworkConfigDto)
    (w w' : World) (device : ObjectPath) : Prop where
  found : η.deviceByIpIface interfaceName = some device
  path : device ≠ "/"
  saved : ∃ updateSettings settings, config.toInternal = .ok updateSettings ∧
    updateSettings.apply (η.getSettings (w.networkManager.saved (η.profile device))) =
      .ok settings ∧
    w'.networkManager.saved (η.profile device) = settings

theorem update_ends : (NetworkService.update η.config interfaceName config).Ends η.answer Eq
    (fun _ => True) (fun r w' => ∀ url, r = .ok url → ∃ device, Saves η interfaceName config w w'
      device) w := by
  rw [NetworkService.update]
  cases hinternal : config.toInternal with
  | error e => exact fun url h => by cases h
  | ok updateSettings =>
      simp only [NetworkSettingsService.updateActiveConnectionOfDevice,
        NetworkSettingsService.networkManagerMethods, NetworkSettingsService.getInterface,
        NetworkSettingsService.getDeviceProperties,
        NetworkSettingsService.getActiveConnectionProperties, Prog.bind_def, Prog.ends_bind]
      refine await_ends_eq (fun _ _ hr => ?_) fun e url h => by cases h
      cases hr
      refine await_ends_eq (fun _ _ hr => ?_) fun e url h => by cases h
      cases hr
      cases hdevice : η.deviceByIpIface interfaceName with
      | none => exact fun url h => by cases h
      | some device =>
          refine Prog.ends_ite.mpr ⟨fun _ url h => (by cases h), fun hpath => ?_⟩
          simp only [Prog.ends_bind]
          iterate 7
            refine await_ends_eq (fun _ _ hr => ?_) fun e url h => by cases h
            cases hr
          cases hsettings : updateSettings.apply (η.getSettings
              (w.networkManager.saved (η.connection (η.activeConnection device)))) with
          | error e =>
              simp only [hsettings]
              exact fun url h => by cases h
          | ok settings =>
              simp only [hsettings, Prog.ends_bind]
              refine await_ends_eq (fun _ _ hr => ?_) fun e url h => by cases h
              obtain ⟨⟨path, w'⟩, hcreate, hr⟩ := Option.map_eq_some_iff.mp hr
              cases hr
              obtain ⟨_, rfl, _, _⟩ := createCheckpoint_eq_some hcreate
              simp only [checkpointId_checkpointPath (η.slash_notMem _),
                NetworkSettingsService.saveAndApplyLater, Prog.tryCatch_def,
                Prog.ends_catchWith, Prog.bind_def, Prog.ends_bind]
              refine await_ends_eq (fun _ _ hr => ?_) fun e url h => by cases h
              cases hr
              refine await_ends_eq (fun _ _ hr => ?_) fun e url h => by cases h
              cases hr
              refine fun url _ => ⟨device, hdevice, hpath, updateSettings, settings, hinternal,
                hsettings, ?_⟩
              exact Function.update_self ..

/-- The device of the interface is active, and its connection has stored settings. -/
def Connected (η : Host) (interfaceName : String) (w : World) : Prop :=
  ∀ device, η.deviceByIpIface interfaceName = some device →
    η.activeConnection device ≠ "/" ∧ Stored (w.networkManager.saved (η.profile device))

/-- What a successful update has written is read back. -/
theorem read_back (hη : ∀ settings, η.getSettings settings = returnedSettings settings)
    (hw : Connected η interfaceName w) (hconfig : config.Requested) :
    (NetworkService.update η.config interfaceName config).Ends η.answer Eq (fun _ => True)
      (fun r w' => ∀ url, r = .ok url → ∃ before after, ReadAs η interfaceName w before ∧
        ReadAs η interfaceName w' after ∧ ReadBack config before after) w := by
  refine update_ends.mono fun r w' hsaves url hr => ?_
  obtain ⟨device, hdevice, hpath, updateSettings, settings, hinternal, happly, hsaved⟩ :=
    hsaves url hr
  obtain ⟨hactive, hstored⟩ := hw device hdevice
  rw [hη] at happly
  obtain ⟨before, after, hbefore, hafter, hread⟩ := hstored.readBack hconfig hinternal happly
  refine ⟨before, after, readAs hdevice hpath hactive ?_, readAs hdevice hpath hactive ?_, hread⟩
  · rw [hη, hbefore]
  · rw [hη, hsaved, hafter]

end Ends

/-- A static address for "eth0". -/
def staticEth0 : UpdateNetworkConfigDto where
  ipv4 := .value
    { address := .string "10.0.0.2", networkPrefix := .number 24, gateway := .string "10.0.0.1",
      dns := .undefined, method := .string "manual" }
  ipv6 := .undefined

theorem stored_emptySettings : Stored emptySettings := by
  have hempty : ∀ name object, emptySettings.lookup name = some object → object = ∅ := by
    intro name object hobject
    by_cases hipv4 : name = "ipv4"
    · subst hipv4
      exact (Option.some.inj ((AList.lookup_insert _).symm.trans hobject)).symm
    · by_cases hipv6 : name = "ipv6"
      · subst hipv6
        cases hobject
        rfl
      · rw [emptySettings, AList.lookup_insert_ne hipv4, AList.lookup_insert_ne hipv6] at hobject
        cases hobject
  refine ⟨rfl, fun f object hobject => ?_, fun name object hobject property v hv => ?_⟩
  · rw [hempty _ _ hobject]
    rfl
  · rw [hempty _ _ hobject] at hv
    cases hv

/-- The host of the samples, with the sections completed that it returns. -/
def Host.returning : Host := { Host.sample with getSettings := returnedSettings }

theorem read_back_eth0 :
    (NetworkService.update Host.returning.config "eth0" staticEth0).Ends Host.returning.answer Eq
      (fun _ => True) (fun r w' => ∀ url, r = .ok url → ∃ before after,
        ReadAs Host.returning "eth0" sampleWorld before ∧ ReadAs Host.returning "eth0" w' after ∧
          ReadBack staticEth0 before after) sampleWorld := by
  refine read_back (fun _ => rfl) (fun device hdevice => ?_) fun f => ?_
  · cases hdevice
    exact ⟨by decide, stored_emptySettings⟩
  · cases f with
    | ipv4 => exact .inr ⟨_, rfl, .manual (.inl rfl)⟩
    | ipv6 => exact .inl rfl

end RpiNestApi.Network
