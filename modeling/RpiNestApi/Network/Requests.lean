import RpiNestApi.Dbus.Utils
import RpiNestApi.Network.Changes
import RpiNestApi.Network.Checkpoints
import RpiNestApi.Validation

/-
The request that updates an interface, and the variants it leads to.

The body is checked by the decorators of its DTO, the service looks for properties
that are `undefined`, and the adapter puts what is left into variants of a given
signature.  None of the three looks again at what the one before has let through.
-/

namespace RpiNestApi.Network

open Async ClassValidator IpSettingsVariantAdapter

variable {isIP : Nat → String → Bool}

/-! ## Bodies -/

def simpleIPv4SettingsMethods : List String := ["auto", "manual"]

def simpleIPv6SettingsMethods : List String := ["auto", "manual", "dhcp"]

/-- The decorators of the settings of one family. -/
def settingsValid (isIP : Nat → String → Bool) (version : Nat) (minPrefix maxPrefix : Rat)
    (methods : List String) (fields : List (String × Value)) : Bool :=
  whitelisted ["address", "prefix", "gateway", "dns", "method"] fields &&
    isOptional (ClassValidator.isIP isIP version) (Value.field "address" fields) &&
    isOptional (fun value => isNumber value && ClassValidator.max maxPrefix value &&
      ClassValidator.min minPrefix value) (Value.field "prefix" fields) &&
    isOptional (ClassValidator.isIP isIP version) (Value.field "gateway" fields) &&
    isOptional (fun _ => true) (Value.field "dns" fields) &&
    isIn methods (Value.field "method" fields)

def UpdateIpv4SettingsDto.accepts (isIP : Nat → String → Bool) :
    List (String × Value) → Bool :=
  settingsValid isIP 4 0 32 simpleIPv4SettingsMethods

def UpdateIpv6SettingsDto.accepts (isIP : Nat → String → Bool) :
    List (String × Value) → Bool :=
  settingsValid isIP 6 1 128 simpleIPv6SettingsMethods

/-- An empty array has no property without a decorator. -/
def UpdateNetworkConfigDto.accepts (isIP : Nat → String → Bool) : Value → Bool
  | .object fields =>
    whitelisted ["ipv4", "ipv6"] fields &&
      isOptional (validateNested (UpdateIpv4SettingsDto.accepts isIP))
        (Value.field "ipv4" fields) &&
      isOptional (validateNested (UpdateIpv6SettingsDto.accepts isIP)) (Value.field "ipv6" fields)
  | .array xs => xs.isEmpty
  | _ => false

def SimpleIpSettings.ofFields (fields : List (String × Value)) : SimpleIpSettings where
  address := Value.field "address" fields
  networkPrefix := Value.field "prefix" fields
  gateway := Value.field "gateway" fields
  dns := Value.field "dns" fields
  method := Value.field "method" fields

/-- The settings of one family, as the service destructures them.  An array has
none of the properties. -/
def SimpleIpSettings.ofBody : Value → Field SimpleIpSettings
  | .undefined => .undefined
  | .null => .null
  | .object fields => .value (ofFields fields)
  | _ => .value (ofFields [])

def UpdateNetworkConfigDto.ofBody : Value → UpdateNetworkConfigDto
  | .object fields =>
    { ipv4 := SimpleIpSettings.ofBody (Value.field "ipv4" fields)
      ipv6 := SimpleIpSettings.ofBody (Value.field "ipv6" fields) }
  | _ => { ipv4 := .undefined, ipv6 := .undefined }

/-- The call that the request makes, if its body is accepted. -/
def NetworkController.updateNetworkInterface (isIP : Nat → String → Bool) (interfaceName : String)
    (body : Value) : Option Call :=
  if UpdateNetworkConfigDto.accepts isIP body then
    some (.update interfaceName (UpdateNetworkConfigDto.ofBody body))
  else none

/-! ## What a body may ask for -/

def Family.version : Family → Nat
  | .ipv4 => 4
  | .ipv6 => 6

def Family.minPrefix : Family → Nat
  | .ipv4 => 0
  | .ipv6 => 1

def Family.maxPrefix : Family → Nat
  | .ipv4 => 32
  | .ipv6 => 128

/-- What the decorators let through. -/
structure SimpleIpSettings.Accepted (f : Family) (ip : SimpleIpSettings) : Prop where
  address : ip.address = .undefined ∨ ip.address = .null ∨ ∃ s, ip.address = .string s
  networkPrefix : ip.networkPrefix = .undefined ∨ ip.networkPrefix = .null ∨
    ∃ q : Rat, f.minPrefix ≤ q ∧ q ≤ f.maxPrefix ∧ ip.networkPrefix = .number q
  gateway : ip.gateway = .undefined ∨ ip.gateway = .null ∨ ∃ s, ip.gateway = .string s

/-- The values that have the types of their variants: a name server is a text, and
a static address has an integral prefix. -/
structure SimpleIpSettings.Typed (ip : SimpleIpSettings) : Prop where
  dns : ip.dns = .undefined ∨ ∃ s, ip.dns = .string s
  manual : ip.method.isString "auto" = false →
    ip.address ≠ .null ∧ ip.networkPrefix ≠ .null ∧
      ∀ q, ip.networkPrefix = .number q → q.den = 1

theorem isOptional_isIP {version : Nat} {v : Value}
    (h : isOptional (ClassValidator.isIP isIP version) v = true) :
    v = .undefined ∨ v = .null ∨ ∃ s, v = .string s := by
  rcases isOptional_iff.mp h with h | h | h
  · exact .inl h
  · exact .inr (.inl h)
  · cases v with
    | string s => exact .inr (.inr ⟨s, rfl⟩)
    | _ => cases h

theorem isOptional_prefix {lo hi : Rat} {v : Value}
    (h : isOptional (fun value => isNumber value && ClassValidator.max hi value &&
      ClassValidator.min lo value) v = true) :
    v = .undefined ∨ v = .null ∨ ∃ q, lo ≤ q ∧ q ≤ hi ∧ v = .number q := by
  rcases isOptional_iff.mp h with h | h | h
  · exact .inl h
  · exact .inr (.inl h)
  · cases v with
    | number q =>
        simp only [isNumber, ClassValidator.max, ClassValidator.min, Bool.true_and,
          Bool.and_eq_true,
          decide_eq_true_eq] at h
        exact .inr (.inr ⟨q, h.2, h.1, rfl⟩)
    | _ => cases h

theorem settingsValid.body_accepted {f : Family} {version : Nat} {lo hi : Rat}
    {methods : List String} {fields : List (String × Value)} (hlo : f.minPrefix = lo)
    (hhi : f.maxPrefix = hi)
    (h : settingsValid isIP version lo hi methods fields = true) :
    SimpleIpSettings.Accepted f (.ofFields fields) := by
  subst hlo hhi
  simp only [settingsValid, Bool.and_eq_true] at h
  obtain ⟨⟨⟨⟨⟨_, haddress⟩, hnetworkPrefix⟩, hgateway⟩, _⟩, _⟩ := h
  exact
    { address := isOptional_isIP haddress, networkPrefix := isOptional_prefix hnetworkPrefix
      gateway := isOptional_isIP hgateway }

theorem SimpleIpSettings.accepted_nil (f : Family) : Accepted f (ofFields []) :=
  { address := .inl rfl, networkPrefix := .inl rfl, gateway := .inl rfl }

/-- Only an object can ask for something. -/
theorem SimpleIpSettings.ofBody_accepted {f : Family} {validate : List (String × Value) → Bool}
    {v : Value} (h : isOptional (validateNested validate) v = true)
    (hvalidate : ∀ fields, validate fields = true → Accepted f (ofFields fields))
    {ip : SimpleIpSettings} (hip : ofBody v = .value ip) : Accepted f ip := by
  cases v with
  | undefined => cases hip
  | null => cases hip
  | object fields =>
      cases hip
      exact hvalidate fields (by simpa only [isOptional, validateNested] using h)
  | _ =>
      cases hip
      exact accepted_nil f

theorem UpdateNetworkConfigDto.accepts_family {body : Value}
    (h : UpdateNetworkConfigDto.accepts isIP body = true) {f : Family} {ip : SimpleIpSettings}
    (hip : (ofBody body).family f = .value ip) : ip.Accepted f := by
  cases body with
  | object fields =>
      simp only [accepts, Bool.and_eq_true] at h
      cases f with
      | ipv4 =>
          exact SimpleIpSettings.ofBody_accepted h.1.2
            (fun _ => settingsValid.body_accepted (by norm_num [Family.minPrefix])
              (by norm_num [Family.maxPrefix])) hip
      | ipv6 =>
          exact SimpleIpSettings.ofBody_accepted h.2
            (fun _ => settingsValid.body_accepted (by norm_num [Family.minPrefix])
              (by norm_num [Family.maxPrefix])) hip
  | _ => cases f <;> cases hip

/-! ## What is written -/

/-- Each property that an update sets has a value of the variant's signature. -/
structure WellTyped (f : Family) (object : VariantObject) : Prop where
  method : ∀ v, object.lookup "method" = some v → ∃ s, v = toVariant "s" (.string s)
  gateway : ∀ v, object.lookup "gateway" = some v → ∃ s, v = toVariant "s" (.string s)
  dnsData : ∀ v, object.lookup "dns-data" = some v →
    ∃ ss : List String, v = toVariant "as" (.array (ss.map .string))
  addressData : ∀ v, object.lookup "address-data" = some v →
    ∃ xs : List (String × Nat), (∀ x ∈ xs, f.minPrefix ≤ x.2 ∧ x.2 ≤ f.maxPrefix) ∧
      v = addressVariant (xs.map fun x => { address := .string x.1, networkPrefix := .number x.2 })

/-- The list of name servers is a list of texts where the name server is a text. -/
theorem dnsData_typed {dns : Value} :
    (∃ ss : List String, toVariant "as" (.array (dnsServers dns)) =
      toVariant "as" (.array (ss.map .string))) ↔ dns = .undefined ∨ ∃ s, dns = .string s := by
  constructor
  · rintro ⟨ss, h⟩
    have hlist : dnsServers dns = ss.map Value.string :=
      Value.array.inj (congrArg Variant.value h)
    rw [dnsServers] at hlist
    cases hdns : dns.isDefined with
    | false =>
        cases dns with
        | undefined => exact .inl rfl
        | _ => cases hdns
    | true =>
        rw [hdns, if_pos rfl] at hlist
        cases ss with
        | nil => cases hlist
        | cons s ss => exact .inr ⟨s, (List.cons.inj hlist).1⟩
  · rintro (rfl | ⟨s, rfl⟩)
    · exact ⟨[], rfl⟩
    · exact ⟨[s], rfl⟩

/-- A prefix that the decorators let through is a natural number, where it is an
integer. -/
theorem exists_prefix {f : Family} {q : Rat} (hlo : f.minPrefix ≤ q) (hhi : q ≤ f.maxPrefix)
    (hq : q.den = 1) : ∃ n : Nat, f.minPrefix ≤ n ∧ n ≤ f.maxPrefix ∧ q = n := by
  have hnum : (q.num : Rat) = q := Rat.den_eq_one_iff q |>.mp hq
  have hnonneg : 0 ≤ q.num := by
    rw [← Int.cast_nonneg_iff (R := Rat), hnum]
    exact (Nat.cast_nonneg _).trans hlo
  obtain ⟨n, hn⟩ := Int.eq_ofNat_of_zero_le hnonneg
  rw [hn, Int.cast_natCast] at hnum
  rw [← hnum] at hlo hhi
  exact ⟨n, by exact_mod_cast hlo, by exact_mod_cast hhi, hnum.symm⟩

/-- The addresses of a static request are typed where its address and its prefix
are. -/
theorem SimpleIpSettings.Accepted.address_typed {f : Family} {ip : SimpleIpSettings}
    (h : ip.Accepted f) (haddress : ip.address.isDefined = true)
    (hnetworkPrefix : ip.networkPrefix.isDefined = true) :
    (∃ xs : List (String × Nat), (∀ x ∈ xs, f.minPrefix ≤ x.2 ∧ x.2 ≤ f.maxPrefix) ∧
      addressVariant [{ address := ip.address, networkPrefix := ip.networkPrefix }] =
        addressVariant
          (xs.map fun x => { address := .string x.1, networkPrefix := .number x.2 })) ↔
      ip.address ≠ .null ∧ ip.networkPrefix ≠ .null ∧
        ∀ q, ip.networkPrefix = .number q → q.den = 1 := by
  constructor
  · rintro ⟨xs, hxs, hvariant⟩
    cases xs with
    | nil => cases hvariant
    | cons x xs =>
        simp only [addressVariant, toVariant, Variant.toValue, List.map_cons, List.map_nil,
          Variant.mk.injEq, Value.array.injEq, List.cons.injEq, Value.object.injEq, Prod.mk.injEq,
          Value.variant.injEq, true_and, and_true] at hvariant
        obtain ⟨⟨haddress, hnetworkPrefix⟩, _⟩ := hvariant
        rw [haddress, hnetworkPrefix]
        refine ⟨by simp, by simp, fun q hq => ?_⟩
        cases hq
        rfl
  · rintro ⟨hnull, hnull', hden⟩
    obtain ⟨s, hs⟩ : ∃ s, ip.address = .string s := by
      rcases h.address with he | he | hs
      · rw [he] at haddress
        cases haddress
      · exact absurd he hnull
      · exact hs
    obtain ⟨q, hlo, hhi, hq⟩ :
        ∃ q : Rat, f.minPrefix ≤ q ∧ q ≤ f.maxPrefix ∧ ip.networkPrefix = .number q := by
      rcases h.networkPrefix with he | he | hq
      · rw [he] at hnetworkPrefix
        cases hnetworkPrefix
      · exact absurd he hnull'
      · exact hq
    obtain ⟨n, hmin, hmax, rfl⟩ := exists_prefix hlo hhi (hden q hq)
    exact ⟨[(s, n)], by simp [hmin, hmax], by rw [hs, hq]; rfl⟩

/-- The properties are typed where each of the four is. -/
theorem IpSettingsVariantAdapter.Managed.wellTyped_iff {f : Family} {object : VariantObject}
    {method : String} {gateway : Option Value} {addresses : Option (List NetworkAddress)}
    {servers : List Value} (h : Managed object method gateway addresses servers)
    (hgateway : ∀ v, gateway = some v → ∃ s, v = .string s) :
    WellTyped f object ↔
      (∃ ss : List String, toVariant "as" (.array servers) = toVariant "as"
        (.array (ss.map .string))) ∧
        ∀ list, addresses = some list →
          ∃ xs : List (String × Nat), (∀ x ∈ xs, f.minPrefix ≤ x.2 ∧ x.2 ≤ f.maxPrefix) ∧
            addressVariant list =
              addressVariant
                (xs.map fun x => { address := .string x.1, networkPrefix := .number x.2 }) := by
  constructor
  · intro htyped
    refine ⟨htyped.dnsData _ h.dnsData, fun list hlist => ?_⟩
    exact htyped.addressData _ (by rw [h.addressData, hlist, Option.map_some])
  · rintro ⟨hdns, haddresses⟩
    refine ⟨fun v hv => ?_, fun v hv => ?_, fun v hv => ?_, fun v hv => ?_⟩
    · cases h.method.symm.trans hv
      exact ⟨method, rfl⟩
    · obtain ⟨value, hvalue, rfl⟩ := Option.map_eq_some_iff.mp (h.gateway.symm.trans hv)
      obtain ⟨s, rfl⟩ := hgateway value hvalue
      exact ⟨s, rfl⟩
    · cases h.dnsData.symm.trans hv
      exact hdns
    · obtain ⟨list, hlist, rfl⟩ := Option.map_eq_some_iff.mp (h.addressData.symm.trans hv)
      exact haddresses list hlist

/-- What an accepted request writes is typed where its values are. -/
theorem SimpleIpSettings.Accepted.wellTyped_iff {f : Family} {ip : SimpleIpSettings}
    (h : ip.Accepted f) {changes : UpdateIpSettings}
    (hchanges : toInternal (.value ip) = .ok (some changes)) {object object' : VariantObject}
    (happly : applyChanges (some changes) object = .ok object') :
    WellTyped f object' ↔ ip.Typed := by
  cases hchanges
  rcases (applyChanges_iff.mp happly).sets rfl with
    ⟨hmethod, hmanaged⟩ | ⟨hmethod, hgateway, x, xs, haddress, hmanaged⟩
  · rw [hmanaged.wellTyped_iff (by simp)]
    constructor
    · rintro ⟨hdns, _⟩
      exact
        { dns := dnsData_typed.mp hdns
          manual := fun hne => by cases hmethod.symm.trans hne }
    · intro htyped
      exact ⟨dnsData_typed.mpr htyped.dns, by simp⟩
  · have hstring : ∀ v, some ip.gateway = some v → ∃ s, v = .string s := by
      rintro _ ⟨⟩
      rcases h.gateway with he | he | hs
      · rw [he] at hgateway
        cases hgateway
      · rw [he] at hgateway
        cases hgateway
      · exact hs
    rw [hmanaged.wellTyped_iff hstring]
    cases hdefined : ip.address.isDefined && ip.networkPrefix.isDefined with
    | false => simp [hdefined] at haddress
    | true =>
        simp only [hdefined, if_true, Field.value.injEq, List.cons.injEq] at haddress
        obtain ⟨rfl, rfl⟩ := haddress
        simp only [Bool.and_eq_true] at hdefined
        have haddresses := h.address_typed hdefined.1 hdefined.2
        constructor
        · rintro ⟨hdns, hlist⟩
          exact
            { dns := dnsData_typed.mp hdns
              manual := fun _ => haddresses.mp (hlist _ rfl) }
        · intro htyped
          refine ⟨dnsData_typed.mpr htyped.dns, ?_⟩
          rintro _ ⟨⟩
          exact haddresses.mpr (htyped.manual hmethod)

/-! ## Runs -/

section Run

variable {η : Host}

theorem Step.applies {c : Call} {o : Option Await} {w w' : World} {device : ObjectPath}
    {settings : VariantParentObject}
    (h : Step η c o w w' (.waits (.checkpointCreate device settings))) :
    ∃ updateSettings stored, c.Updates η device updateSettings ∧
      updateSettings.apply stored = .ok settings := by
  cases h with
  | read _ hq => exact hq.elim
  | change hconfig hdevice hsettings => exact ⟨_, _, ⟨_, _, rfl, hdevice, hconfig⟩, hsettings⟩

/-- The settings that a thread saves are what its changes make of some others. -/
structure Applies (η : Host) (t : Service.Thread) : Prop where
  order : InOrder η t
  create : ∀ device settings, t.Awaited (.checkpointCreate device settings) →
    ∃ updateSettings stored, t.call.Updates η device updateSettings ∧
      updateSettings.apply stored = .ok settings

theorem run_applies {w : World} {as : List Service.Act} {s : Service.State}
    (hrun : η.system.Run always (.init w) as s) {i : Nat} {t : Service.Thread}
    (hi : s.config.threads i = some t) : Applies η t := by
  let I : Service.Config → Prop := fun g => ∀ i t, g.threads i = some t → Applies η t
  have hI : I s.config := by
    refine hrun.invariant I (system_obeys η) (fun g a h _ hmove hg => ?_) (.init w)
      fun i t hi => by cases hi
    refine hmove.threads (P := fun _ t => Applies η t) (fun _ ht => ht) (fun c w st hT => ?_)
      (fun c past q w st ht hT => ?_) hg
    · refine ⟨hT.inOrder_start, fun device settings hq => ?_⟩
      obtain rfl := hq.resolve_right List.not_mem_nil
      exact hT.applies
    · refine ⟨hT.inOrder_resume ht.order, fun device settings hq => ?_⟩
      rcases hq with rfl | hq
      · exact hT.applies
      · exact ht.create device settings (Thread.awaited_waits.mpr (List.mem_cons.mp hq))
  exact hI i t hi

/-- What an update saves has been made of settings that it has read. -/
theorem Applies.saves {t : Service.Thread} (h : Applies η t) {interfaceName : String}
    {config : UpdateNetworkConfigDto} (hcall : t.call = .update interfaceName config)
    {connection : ObjectPath} {settings : VariantParentObject} {id : String}
    (hsaves : t.Awaited (.update connection settings id)) :
    ∃ updateSettings stored, config.toInternal = .ok updateSettings ∧
      updateSettings.apply stored = .ok settings := by
  obtain ⟨device, _, hcreate⟩ := h.order.update connection settings id hsaves
  obtain ⟨updateSettings, stored, ⟨_, _, hupdate, _, hconfig⟩, happly⟩ :=
    h.create device settings hcreate
  cases hcall.symm.trans hupdate
  exact ⟨updateSettings, stored, hconfig, happly⟩

/-- The sections an update saves are typed. -/
def SavesTyped (config : UpdateNetworkConfigDto) (settings : VariantParentObject) : Prop :=
  ∀ f ip object, config.family f = .value ip → settings.lookup f.name = some object →
    WellTyped f object

/-- What an accepted request saves is typed where the values are that it names. -/
theorem saves_typed {interfaceName : String} {body : Value} {c : Call}
    (hbody : NetworkController.updateNetworkInterface isIP interfaceName body = some c) {w : World}
    {as : List Service.Act} {s : Service.State} (hrun : η.system.Run always (.init w) as s)
    {i : Nat} {t : Service.Thread} (hi : s.config.threads i = some t) (hcall : t.call = c)
    {connection : ObjectPath} {settings : VariantParentObject} {id : String}
    (hsaves : t.Awaited (.update connection settings id)) :
    SavesTyped (.ofBody body) settings ↔
      ∀ f ip, (UpdateNetworkConfigDto.ofBody body).family f = .value ip → ip.Typed := by
  obtain ⟨haccepts, ⟨⟩⟩ := Option.ite_none_right_eq_some.mp hbody
  obtain ⟨updateSettings, stored, hconfig, happly⟩ := (run_applies hrun hi).saves hcall hsaves
  have hsection : ∀ f ip, (UpdateNetworkConfigDto.ofBody body).family f = .value ip →
      ∃ object, settings.lookup f.name = some object ∧ (WellTyped f object ↔ ip.Typed) := by
    intro f ip hip
    obtain ⟨changes, object, object', hfamily, hchanges, hlookup⟩ :=
      UpdatableSettings.exists_section hconfig happly hip
    have hvalid := UpdateNetworkConfigDto.accepts_family haccepts hip
    exact ⟨object', hlookup, hvalid.wellTyped_iff hfamily hchanges⟩
  constructor
  · intro htyped f ip hip
    obtain ⟨object, hobject, hiff⟩ := hsection f ip hip
    exact hiff.mp (htyped f ip object hip hobject)
  · intro htyped f ip object hip hobject
    obtain ⟨object', hobject', hiff⟩ := hsection f ip hip
    cases hobject.symm.trans hobject'
    exact hiff.mpr (htyped f ip hip)

end Run

/-- A request for DHCP with the name server `dns`. -/
def dnsBody (dns : Value) : Value :=
  .object [("ipv4", .object [("method", .string "auto"), ("dns", dns)])]

/-- The request is made for "eth0", and gets as far as saving the settings. -/
def runBody (dns : Value) : List Service.Act :=
  .start 0 (.update "eth0" (.ofBody (dnsBody dns))) :: List.replicate 10 (.resume 0 .resolve)

/-- The request names one section, and in it a text for the name server. -/
theorem typed_dnsBody {dns : String} {f : Family} {ip : SimpleIpSettings}
    (hip : (UpdateNetworkConfigDto.ofBody (dnsBody (.string dns))).family f = .value ip) :
    ip.Typed := by
  cases f with
  | ipv4 =>
      cases hip
      exact { dns := .inr ⟨dns, rfl⟩, manual := fun hmethod => by cases hmethod }
  | ipv6 => cases hip

theorem saves_typed_dns : ∃ t connection settings id,
    (sampleOutcome (runBody (.string "1.1.1.1"))).config.threads 0 = some t ∧
      t.Awaited (.update connection settings id) ∧
      SavesTyped (.ofBody (dnsBody (.string "1.1.1.1"))) settings := by
  have hrun : Host.sample.system.Run always (.init sampleWorld) (runBody (.string "1.1.1.1"))
      (sampleOutcome (runBody (.string "1.1.1.1"))) := System.run_outcome rfl
  obtain ⟨t, connection, settings, id, hi, hcall, hstatus⟩ : ∃ t connection settings id,
      (sampleOutcome (runBody (.string "1.1.1.1"))).config.threads 0 = some t ∧
        t.call = .update "eth0" (.ofBody (dnsBody (.string "1.1.1.1"))) ∧
        t.status = .waits (.update connection settings id) := ⟨_, _, _, _, rfl, rfl, rfl⟩
  have hbody : NetworkController.updateNetworkInterface (fun _ _ => false) "eth0"
      (dnsBody (.string "1.1.1.1")) = some t.call := by
    rw [hcall]
    rfl
  exact ⟨t, connection, settings, id, hi, .inl hstatus,
    (saves_typed hbody hrun hi rfl (.inl hstatus)).mpr fun _ _ hip => typed_dnsBody hip⟩

/-- A name server that is a number is saved as a text. -/
theorem saves_untyped : ¬ ∀ (isIP : Nat → String → Bool) (body : Value) (as : List Service.Act)
    (s : Service.State) (t : Service.Thread) (connection : ObjectPath)
    (settings : VariantParentObject) (id : String),
    NetworkController.updateNetworkInterface isIP "eth0" body = some t.call →
    Host.sample.system.Run always (.init sampleWorld) as s → s.config.threads 0 = some t →
    t.Awaited (.update connection settings id) → SavesTyped (.ofBody body) settings := by
  intro h
  obtain ⟨t, connection, settings, id, hi, hcall, hstatus, object, hobject, hdns⟩ :
      ∃ t connection settings id,
        (sampleOutcome (runBody (.number 5))).config.threads 0 = some t ∧
          t.call = .update "eth0" (.ofBody (dnsBody (.number 5))) ∧
          t.status = .waits (.update connection settings id) ∧
          ∃ object, settings.lookup Family.ipv4.name = some object ∧
            object.lookup "dns-data" = some (toVariant "as" (.array [.number 5])) :=
    ⟨_, _, _, _, rfl, rfl, rfl, _, rfl, rfl⟩
  have hbody : NetworkController.updateNetworkInterface (fun _ _ => false) "eth0"
      (dnsBody (.number 5)) = some t.call := by
    rw [hcall]
    rfl
  have htyped := h _ _ _ _ t connection settings id hbody (System.run_outcome rfl) hi
    (.inl hstatus) .ipv4 _ object rfl hobject
  obtain ⟨ss, hss⟩ := htyped.dnsData _ hdns
  cases ss with
  | nil => cases hss
  | cons s ss => cases hss

end RpiNestApi.Network
