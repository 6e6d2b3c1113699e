import RpiNestApi.Async.Each
import RpiNestApi.Network.Adapter
import RpiNestApi.Network.ReadBack
import RpiNestApi.Network.Requests

/-
What of a request is found again in the settings that are saved.

The DTO admits three methods, and the adapter knows two: what is not "auto" is
static.  A request that leaves out the name server is turned into one that asks for
none, where the adapter would have kept what is stored.
-/

namespace RpiNestApi.Network

open Async IpSettingsVariantAdapter

/-! ## Methods -/

/-- The methods that the DTO of the family admits. -/
def Family.methods : Family → List String
  | .ipv4 => simpleIPv4SettingsMethods
  | .ipv6 => simpleIPv6SettingsMethods

namespace UpdateNetworkConfigDto

def AsksDhcp (config : UpdateNetworkConfigDto) : Prop :=
  ∃ f ip, config.family f = .value ip ∧ ip.method = .string "dhcp"

/-- Each family that is supplied asks for an automatic method, and names no address. -/
def Automatic (config : UpdateNetworkConfigDto) : Prop :=
  ∀ f ip, config.family f = .value ip →
    (ip.method = .string "auto" ∨ ip.method = .string "dhcp") ∧ ip.address = .undefined

end UpdateNetworkConfigDto

/-- Each family that is supplied has the method it asks for. -/
def MethodsWritten (config : UpdateNetworkConfigDto) (settings : VariantParentObject) : Prop :=
  ∀ f ip object, config.family f = .value ip → settings.lookup f.name = some object →
    object.lookup "method" = some (toVariant "s" ip.method)

/-- The request of the thread has ended for want of a static address or gateway. -/
def RejectedForStatic (s : Service.State) (i : Nat) : Prop :=
  ∃ t e, s.config.threads i = some t ∧ t.status = .done (.error e) ∧ LacksStatic e

theorem isString_iff {s : String} {v : Value} : v.isString s = true ↔ v = .string s := by
  cases v with
  | string t => simp [Value.isString]
  | _ => simp [Value.isString]

theorem settingsValid.method {isIP : Nat → String → Bool} {version : Nat} {lo hi : Rat}
    {methods : List String} {fields : List (String × Value)}
    (h : settingsValid isIP version lo hi methods fields = true) :
    ∃ m ∈ methods, (SimpleIpSettings.ofFields fields).method = .string m := by
  simp only [settingsValid, Bool.and_eq_true] at h
  exact ClassValidator.isIn_iff.mp h.2

/-- An accepted family has an admitted method, or it is an array, which has no
property. -/
theorem SimpleIpSettings.ofBody_method {validate : List (String × Value) → Bool}
    {methods : List String} {v : Value}
    (h : ClassValidator.isOptional (ClassValidator.validateNested validate) v = true)
    (hvalidate : ∀ fields, validate fields = true →
      ∃ m ∈ methods, (ofFields fields).method = .string m)
    {ip : SimpleIpSettings} (hip : ofBody v = .value ip) :
    (∃ m ∈ methods, ip.method = .string m) ∨ ip = ofFields [] := by
  cases v with
  | undefined => cases hip
  | null => cases hip
  | object fields =>
      cases hip
      refine .inl (hvalidate fields ?_)
      simpa only [ClassValidator.isOptional, ClassValidator.validateNested] using h
  | _ =>
      cases hip
      exact .inr rfl

theorem UpdateNetworkConfigDto.accepts_method {isIP : Nat → String → Bool} {body : Value}
    (h : UpdateNetworkConfigDto.accepts isIP body = true) {f : Family} {ip : SimpleIpSettings}
    (hip : (ofBody body).family f = .value ip) :
    (∃ m ∈ f.methods, ip.method = .string m) ∨ ip = .ofFields [] := by
  cases body with
  | object fields =>
      simp only [accepts, Bool.and_eq_true] at h
      cases f with
      | ipv4 => exact SimpleIpSettings.ofBody_method h.1.2 (fun _ => settingsValid.method) hip
      | ipv6 => exact SimpleIpSettings.ofBody_method h.2 (fun _ => settingsValid.method) hip
  | _ => cases f <;> cases hip

/-- The method of a family is written where it is not "dhcp". -/
theorem method_written_iff {f : Family} {ip : SimpleIpSettings}
    (h : (∃ m ∈ f.methods, ip.method = .string m) ∨ ip = .ofFields [])
    {changes : UpdateIpSettings} (hchanges : toInternal (.value ip) = .ok (some changes))
    {object object' : VariantObject}
    (happly : applyChanges (some changes) object = .ok object') :
    object'.lookup "method" = some (toVariant "s" ip.method) ↔ ip.method ≠ .string "dhcp" := by
  cases hchanges
  rcases (applyChanges_iff.mp happly).sets rfl with
    ⟨hmethod, hmanaged⟩ | ⟨hmethod, _, x, xs, haddress, hmanaged⟩
  · have hauto : ip.method = .string "auto" := isString_iff.mp hmethod
    rw [hmanaged.method, hauto]
    simp
  · rcases h with ⟨m, hm, hip⟩ | rfl
    · have hcases : m = "auto" ∨ m = "manual" ∨ m = "dhcp" := by
        cases f <;>
          simp only [Family.methods, simpleIPv4SettingsMethods, simpleIPv6SettingsMethods,
            List.mem_cons, List.not_mem_nil, or_false] at hm <;> tauto
      have hne : m ≠ "auto" := by
        rintro rfl
        simp [hip, Value.isString] at hmethod
      rw [hmanaged.method, hip]
      rcases hcases with rfl | rfl | rfl
      · exact absurd rfl hne
      · simp
      · simp [toVariant]
    · simp [SimpleIpSettings.ofFields, Value.field, Value.isDefined] at haddress

/-! ## Automatic requests -/

/-- What the adapter makes of a section of an automatic request. -/
theorem applyChanges_automatic {config : UpdateNetworkConfigDto} (h : config.Automatic)
    {updateSettings : UpdatableSettings} (hinternal : config.toInternal = .ok updateSettings)
    (f : Family) (object : VariantObject) :
    (∀ ip, config.family f = .value ip → ip.method ≠ .string "dhcp") ∧
        (∃ object', applyChanges (updateSettings.changes f) object = .ok object') ∨
      (∃ ip, config.family f = .value ip ∧ ip.method = .string "dhcp") ∧
        applyChanges (updateSettings.changes f) object =
          .error (.error "Must provide at least one static ip") := by
  have hfamily := toInternal_family hinternal f
  cases hip : config.family f with
  | undefined =>
      rw [hip] at hfamily
      rw [← Except.ok.inj hfamily]
      exact .inl ⟨fun ip he => (by cases he), object, rfl⟩
  | null =>
      rw [hip] at hfamily
      cases hfamily
  | value ip =>
      rw [hip] at hfamily
      rw [← Except.ok.inj hfamily]
      obtain ⟨hmethod, haddress⟩ := h f ip hip
      rcases hmethod with hauto | hdhcp
      · refine .inl ⟨fun ip' he => ?_, _, applyChanges_auto ?_ object⟩
        · cases he
          simp [hauto]
        · exact isString_iff.mpr hauto
      · refine .inr ⟨⟨ip, rfl, hdhcp⟩, (applyChanges_manual ?_ object).trans ?_⟩
        · simp [hdhcp, Value.isString]
        · simp [setManual, haddress, Value.isDefined]

theorem applySection_of_lookup {name : String} {settings : VariantParentObject}
    {object : VariantObject} (h : settings.lookup name = some object)
    (changes : Option UpdateIpSettings) :
    UpdatableSettings.applySection name changes settings =
      (applyChanges changes (clean object)).map (settings.insert name) := by
  rw [UpdatableSettings.applySection, h, new_some]
  simp only [bind, Except.bind]
  cases applyChanges changes (clean object) <;> rfl

theorem applySection_of_lookup_none {name : String} {settings : VariantParentObject}
    (h : settings.lookup name = none) (changes : Option UpdateIpSettings) :
    UpdatableSettings.applySection name changes settings =
      .error (.error "Cannot convert undefined or null to object") := by
  rw [UpdatableSettings.applySection, h]
  rfl

/-- Both sections are there. -/
def HasFamilies (settings : VariantParentObject) : Prop :=
  ∀ f : Family, ∃ object, settings.lookup f.name = some object

theorem hasFamilies_iff {settings : VariantParentObject} :
    HasFamilies settings ↔ (∃ object, settings.lookup "ipv4" = some object) ∧
      ∃ object, settings.lookup "ipv6" = some object :=
  ⟨fun h => ⟨h .ipv4, h .ipv6⟩, fun h f => f.casesOn h.1 h.2⟩

theorem not_lacksStatic_convert :
    ¬ LacksStatic (.error "Cannot convert undefined or null to object") := by
  simp [LacksStatic]

/-- An automatic request is refused for want of an address where it asks for DHCPv6
and both sections are there. -/
theorem apply_lacks_iff {config : UpdateNetworkConfigDto} (h : config.Automatic)
    (hipv4 : ∀ ip, config.family .ipv4 = .value ip → ip.method ≠ .string "dhcp")
    {updateSettings : UpdatableSettings} (hinternal : config.toInternal = .ok updateSettings)
    (settings : VariantParentObject) :
    (∃ e, updateSettings.apply settings = .error e ∧ LacksStatic e) ↔
      HasFamilies settings ∧ config.AsksDhcp := by
  rw [hasFamilies_iff]
  cases h₄ : settings.lookup "ipv4" with
  | none =>
      simp only [UpdatableSettings.apply, applySection_of_lookup_none h₄]
      constructor
      · rintro ⟨e, ⟨⟩, hlacks⟩
        exact absurd hlacks not_lacksStatic_convert
      · rintro ⟨⟨⟨_, he⟩, _⟩, _⟩
        cases he
  | some object₄ =>
      obtain ⟨object₄', hchanges₄⟩ : ∃ object', applyChanges (updateSettings.changes .ipv4)
          (clean object₄) = .ok object' := by
        rcases applyChanges_automatic h hinternal .ipv4 (clean object₄) with
          ⟨_, hok⟩ | ⟨⟨ip, hip, hdhcp⟩, _⟩
        · exact hok
        · exact absurd hdhcp (hipv4 ip hip)
      have happly : updateSettings.apply settings = UpdatableSettings.applySection "ipv6"
          updateSettings.ipv6 (settings.insert "ipv4" object₄') := by
        rw [UpdatableSettings.changes] at hchanges₄
        rw [UpdatableSettings.apply, applySection_of_lookup h₄, hchanges₄]
        rfl
      rw [happly]
      cases h₆ : settings.lookup "ipv6" with
      | none =>
          have hnone : (settings.insert "ipv4" object₄').lookup "ipv6" = none := by
            rw [AList.lookup_insert_ne (by decide), h₆]
          rw [applySection_of_lookup_none hnone]
          constructor
          · rintro ⟨e, ⟨⟩, hlacks⟩
            exact absurd hlacks not_lacksStatic_convert
          · rintro ⟨⟨_, ⟨_, he⟩⟩, _⟩
            cases he
      | some object₆ =>
          have hsome : (settings.insert "ipv4" object₄').lookup "ipv6" = some object₆ := by
            rw [AList.lookup_insert_ne (by decide), h₆]
          rw [applySection_of_lookup hsome]
          rcases applyChanges_automatic h hinternal .ipv6 (clean object₆) with
            ⟨hnone, object₆', hok⟩ | ⟨⟨ip, hip, hdhcp⟩, herror⟩
          · rw [UpdatableSettings.changes] at hok
            rw [hok]
            constructor
            · rintro ⟨e, he, _⟩
              cases he
            · rintro ⟨_, f, ip, hip, hdhcp⟩
              cases f with
              | ipv4 => exact absurd hdhcp (hipv4 ip hip)
              | ipv6 => exact absurd hdhcp (hnone ip hip)
          · rw [UpdatableSettings.changes] at herror
            rw [herror]
            exact ⟨fun _ => ⟨⟨⟨_, rfl⟩, _, rfl⟩, .ipv6, ip, hip, hdhcp⟩,
              fun _ => ⟨_, rfl, .inl rfl⟩⟩

/-! ## Runs -/

/-- How a call goes on once a promise has resolved.  Only an update reads settings,
and only its changes of them can lack a static address. -/
def Proceeds (c : Call) : (q : Await) → (Except Exception q.Answer → Service Response) → Prop
  | .getSettings _, k => ∀ interfaceName config, c = .update interfaceName config →
    ∃ updateSettings, config.toInternal = .ok updateSettings ∧ ∀ settings,
      match updateSettings.apply settings with
      | .error e => k (.ok settings) = .throw e
      | .ok _ => ∃ q f, k (.ok settings) = .await q f
  | _, k => ∀ a w e, ((k (.ok a)).advance w).1 = .done (.error e) → ¬ LacksStatic e

theorem Proceeds.not_lacks {c : Call} {q : Await}
    {k : Except Exception q.Answer → Service Response} (h : Proceeds c q k)
    (hq : ∀ connection, q ≠ .getSettings connection) {a : q.Answer} {w : World} {e : Exception}
    (he : ((k (.ok a)).advance w).1 = .done (.error e)) : ¬ LacksStatic e := by
  cases q with
  | getSettings connection => exact absurd rfl (hq connection)
  | _ => exact h a w e he

section Bodies

variable {η : Host} {c : Call}

/-- A promise that is no read of settings. -/
theorem call_each {q : Await} {g : q.Answer → Service Response}
    (hq : ∀ connection, q ≠ .getSettings connection)
    (hg : ∀ b w e, ((g b).advance w).1 = .done (.error e) → ¬ LacksStatic e)
    (heach : ∀ b, (g b).Each (Proceeds c)) : ((Prog.call q).bind g).Each (Proceeds c) := by
  refine Prog.each_call_bind.mpr ⟨?_, heach⟩
  cases q with
  | getSettings connection => exact absurd rfl (hq connection)
  | _ => exact hg

/-- Another promise is awaited next. -/
theorem call_each_call {q : Await} {q' : q.Answer → Await}
    {g : (b : q.Answer) → (q' b).Answer → Service Response}
    (hq : ∀ connection, q ≠ .getSettings connection)
    (heach : ∀ b, ((Prog.call (q' b)).bind (g b)).Each (Proceeds c)) :
    ((Prog.call q).bind fun b => (Prog.call (q' b)).bind (g b)).Each (Proceeds c) :=
  call_each hq (fun b w e he => by cases he) heach

theorem saveAndApplyLater_each {device connection : ObjectPath} {settings : VariantParentObject}
    {id : String} :
    (((NetworkSettingsService.saveAndApplyLater device connection settings id).catchWith
      fun _ => .throw (.internalServerError "Error while updating connection settings")).bind
        fun id => .ret (.confirm (NetworkService.confirmationUrl η.config id))).Each
      (Proceeds c) := by
  refine ⟨fun a w e he => (by cases he), fun r => ?_⟩
  cases r with
  | error e => trivial
  | ok a =>
      refine ⟨fun a w e he => (by cases he), fun r => ?_⟩
      cases r with
      | error e => trivial
      | ok version => exact fun w => trivial

variable {interfaceName : String} {config : UpdateNetworkConfigDto}

theorem updateConnection_each {updateSettings : UpdatableSettings}
    (hinternal : config.toInternal = .ok updateSettings) :
    ((NetworkSettingsService.updateActiveConnectionOfDevice interfaceName updateSettings).bind
      fun id => .ret (.confirm (NetworkService.confirmationUrl η.config id))).Each
      (Proceeds (.update interfaceName config)) := by
  have hdevice :
      ¬ LacksStatic (.error ("No device found with name '" ++ interfaceName ++ "'")) := by
    rintro (h | h) <;>
      exact absurd (congrArg (fun s => s.toList.head?) (Exception.error.inj h)) (by simp)
  simp only [NetworkSettingsService.updateActiveConnectionOfDevice,
    NetworkSettingsService.networkManagerMethods, NetworkSettingsService.getInterface,
    NetworkSettingsService.getDeviceProperties,
    NetworkSettingsService.getActiveConnectionProperties, await, Prog.bind_def, Prog.bind_assoc]
  refine call_each_call (by simp) fun _ => call_each (by simp) (fun device w e he => ?_)
    fun device => ?_
  · cases device with
    | none =>
        cases he
        exact hdevice
    | some devicePath =>
        by_cases hpath : devicePath = "/"
        · simp only [if_pos hpath] at he
          cases he
          exact hdevice
        · simp only [if_neg hpath] at he
          cases he
  · cases device with
    | none => trivial
    | some devicePath =>
        by_cases hpath : devicePath = "/"
        · simp only [if_pos hpath]
          trivial
        · simp only [if_neg hpath, Prog.bind_assoc]
          iterate 6 refine call_each_call (by simp) fun _ => ?_
          refine Prog.each_call_bind.mpr ⟨?_, fun settings => ?_⟩
          · rintro _ _ ⟨⟩
            refine ⟨updateSettings, hinternal, fun settings => ?_⟩
            cases happly : updateSettings.apply settings with
            | error e => simp only [happly]; rfl
            | ok settings => simp only [happly]; exact ⟨_, _, rfl⟩
          · cases happly : updateSettings.apply settings with
            | error e => trivial
            | ok settings =>
                simp only [Prog.bind_assoc]
                refine call_each (by simp) (fun path w e he => ?_) fun path => ?_
                · cases hid : checkpointId path with
                  | none =>
                      simp only [hid] at he
                      cases he
                      simp [LacksStatic]
                  | some id =>
                      simp only [hid] at he
                      cases he
                · cases hid : checkpointId path with
                  | none => trivial
                  | some id => exact saveAndApplyLater_each

theorem body_each (c : Call) : (η.body c).Each (Proceeds c) := by
  cases c with
  | update interfaceName config =>
      simp only [Host.body, NetworkService.update, Prog.bind_def, Prog.pure_def]
      cases hinternal : config.toInternal with
      | error e => trivial
      | ok updateSettings =>
          simp only [Prog.bind_assoc]
          exact updateConnection_each hinternal
  | commit id =>
      refine ⟨fun a w e he => (by cases he), fun r => ?_⟩
      cases r with
      | error e => trivial
      | ok a =>
          refine ⟨fun a w e he => (by cases he), fun r => ?_⟩
          cases r <;> trivial
  | immediate =>
      simp only [Host.body, runImmediate, Prog.read, Prog.bind_def, Prog.pure_def, Prog.sync_bind,
        Prog.ret_bind]
      intro w
      cases h : w.immediates with
      | nil => simp only [h]; trivial
      | cons immediate immediates =>
          simp only [h]
          refine fun w => ⟨fun a w e he => (by cases he), fun r => ?_⟩
          cases r with
          | error e => exact fun w => trivial
          | ok a => trivial

end Bodies

/-- The only error that an update can end with before it awaits anything. -/
theorem UpdateNetworkConfigDto.toInternal_error {config : UpdateNetworkConfigDto} {e : Exception}
    (h : config.toInternal = .error e) :
    e = .error "Cannot destructure property 'address' of 'ip' as it is null." := by
  cases h₄ : config.ipv4 with
  | null =>
      simp only [toInternal, h₄, Network.toInternal] at h
      cases h
      rfl
  | _ =>
      cases h₆ : config.ipv6 <;>
        simp only [toInternal, h₄, h₆, Network.toInternal] at h <;> cases h
      rfl

theorem update_advance {η : Host} {interfaceName : String} {config : UpdateNetworkConfigDto}
    {w : World} {e : Exception}
    (h : ((η.body (.update interfaceName config)).advance w).1 = .done (.error e)) :
    ¬ LacksStatic e := by
  cases hinternal : config.toInternal with
  | error e' =>
      simp only [Host.body, NetworkService.update, hinternal] at h
      cases h
      rw [UpdateNetworkConfigDto.toInternal_error hinternal]
      simp [LacksStatic]
  | ok updateSettings =>
      simp only [Host.body, NetworkService.update, hinternal] at h
      cases h

section Run

variable {η : Host} {isIP : Nat → String → Bool} {interfaceName : String} {body : Value}
variable {c : Call}

theorem rejectedForStatic_of_thread {s : Service.State} {i : Nat} {past : List Await}
    {st : Suspended World Await Await.Answer Exception Response}
    (hi : s.config.threads i = some { call := c, past, status := st.status }) :
    RejectedForStatic s i ↔ ∃ e, st = .done (.error e) ∧ LacksStatic e := by
  constructor
  · rintro ⟨t, e, ht, hstatus, hlacks⟩
    obtain rfl := Option.some.inj (hi.symm.trans ht)
    cases st with
    | done r =>
        cases hstatus
        exact ⟨e, rfl, hlacks⟩
    | waits q k => cases hstatus
  · rintro ⟨e, rfl, hlacks⟩
    exact ⟨_, e, hi, rfl, hlacks⟩

/-- A request does not start with an error for want of a static address. -/
theorem not_rejectedForStatic_start {config : UpdateNetworkConfigDto} {s s' : Service.State}
    {i : Nat} (hstep : η.system.step s (.start i (.update interfaceName config)) = some s') :
    ¬ RejectedForStatic s' i := by
  obtain ⟨_, w, _, rfl⟩ := System.step_start hstep
  rw [rejectedForStatic_of_thread (by rw [State.settle_config]; exact Function.update_self ..)]
  rintro ⟨e, he, hlacks⟩
  exact update_advance he hlacks

/-- The settings of an accepted request that are saved have its methods where it does
not ask for DHCPv6. -/
theorem methodsWritten_iff (haccepts : UpdateNetworkConfigDto.accepts isIP body = true)
    {updateSettings : UpdatableSettings}
    (hinternal : (UpdateNetworkConfigDto.ofBody body).toInternal = .ok updateSettings)
    {stored settings : VariantParentObject} (happly : updateSettings.apply stored = .ok settings) :
    MethodsWritten (.ofBody body) settings ↔ ¬ (UpdateNetworkConfigDto.ofBody body).AsksDhcp := by
  have hsection : ∀ f ip, (UpdateNetworkConfigDto.ofBody body).family f = .value ip →
      ∃ object, settings.lookup f.name = some object ∧
        (object.lookup "method" = some (toVariant "s" ip.method) ↔
          ip.method ≠ .string "dhcp") := by
    intro f ip hip
    obtain ⟨changes, object, object', hfamily, hchanges, hlookup⟩ :=
      UpdatableSettings.exists_section hinternal happly hip
    have hmethod := UpdateNetworkConfigDto.accepts_method haccepts hip
    exact ⟨object', hlookup, method_written_iff hmethod hfamily hchanges⟩
  constructor
  · rintro hwritten ⟨f, ip, hip, hdhcp⟩
    obtain ⟨object, hobject, hiff⟩ := hsection f ip hip
    exact hiff.mp (hwritten f ip object hip hobject) hdhcp
  · intro hnone f ip object hip hobject
    obtain ⟨object', hobject', hiff⟩ := hsection f ip hip
    cases hobject.symm.trans hobject'
    exact hiff.mpr fun hdhcp => hnone ⟨f, ip, hip, hdhcp⟩

/-- The IPv4 settings of an accepted body do not ask for DHCPv6. -/
theorem UpdateNetworkConfigDto.accepts_ipv4
    (haccepts : UpdateNetworkConfigDto.accepts isIP body = true) {ip : SimpleIpSettings}
    (hip : (ofBody body).family .ipv4 = .value ip) : ip.method ≠ .string "dhcp" := by
  rcases accepts_method haccepts hip with ⟨m, hm, hmethod⟩ | rfl
  · rw [hmethod]
    rintro ⟨⟩
    simp [Family.methods, simpleIPv4SettingsMethods] at hm
  · simp [SimpleIpSettings.ofFields, Value.field]

/-- A step that answers a promise of an automatic request ends it for want of a
static address where it has read both sections, and the request asks for DHCPv6. -/
theorem rejectedForStatic_iff (haccepts : UpdateNetworkConfigDto.accepts isIP body = true)
    (hauto : (UpdateNetworkConfigDto.ofBody body).Automatic) {s s' : Service.State}
    (heach : s.EachFor Proceeds) {i : Nat} {t : Service.Thread}
    (hi : s.config.threads i = some t) (hcall : t.call = .update interfaceName (.ofBody body))
    (hstep : η.system.step s (.resume i .resolve) = some s') :
    RejectedForStatic s' i ↔
      ∃ connection, t.status = .waits (.getSettings connection) ∧
        HasFamilies (η.getSettings (s.world.networkManager.saved connection)) ∧
        (UpdateNetworkConfigDto.ofBody body).AsksDhcp := by
  obtain ⟨q, hq⟩ : ∃ q, t.status = .waits q := by
    obtain ⟨c, past, q, f, hi', _⟩ := System.step_resume hstep
    refine ⟨q, ?_⟩
    obtain rfl : t = { call := c, past, status := .waits q } := by
      simpa [State.config, hi', Task.thread, Suspended.status] using hi.symm
    rfl
  obtain ⟨k, r, hproceeds, hr, hi'⟩ := heach.resume hstep hi hq
  rw [rejectedForStatic_of_thread hi']
  by_cases hget : ∃ connection, q = .getSettings connection
  · obtain ⟨connection, rfl⟩ := hget
    cases hr
    obtain ⟨updateSettings, hinternal, hgo⟩ := hproceeds _ _ hcall
    have happly := hgo (η.getSettings (s.world.networkManager.saved connection))
    have hiff := apply_lacks_iff hauto
      (fun ip hip => UpdateNetworkConfigDto.accepts_ipv4 haccepts hip) hinternal
      (η.getSettings (s.world.networkManager.saved connection))
    have hlacks : (∃ e, ((k (.ok (η.getSettings
        (s.world.networkManager.saved connection)))).advance s.world).1 = .done (.error e) ∧
          LacksStatic e) ↔
        ∃ e, updateSettings.apply (η.getSettings (s.world.networkManager.saved connection)) =
          .error e ∧ LacksStatic e := by
      cases hsettings : updateSettings.apply
          (η.getSettings (s.world.networkManager.saved connection)) with
      | error e =>
          simp only [hsettings] at happly
          rw [happly]
          simp [Prog.advance]
      | ok settings =>
          simp only [hsettings] at happly
          obtain ⟨q', k', hk'⟩ := happly
          rw [hk']
          simp [Prog.advance]
    rw [hlacks, hiff]
    constructor
    · exact fun h => ⟨connection, hq, h⟩
    · rintro ⟨connection', hq', h⟩
      cases hq.symm.trans hq'
      exact h
  · obtain ⟨a, ha⟩ := answer_resolve hr
    rw [ha]
    constructor
    · rintro ⟨e, he, hlacks⟩
      exact absurd hlacks (hproceeds.not_lacks (fun c hc => hget ⟨c, hc⟩) he)
    · rintro ⟨connection, hq', _⟩
      cases hq.symm.trans hq'
      exact absurd ⟨connection, rfl⟩ hget

/-- An accepted request keeps its methods where it does not ask for DHCPv6.  Where it
does, what is saved is static, and without an address it is rejected for that once it
has read the settings, not when it starts. -/
theorem method_fidelity
    (hbody : NetworkController.updateNetworkInterface isIP interfaceName body = some c) {w : World}
    {as : List Service.Act} {s : Service.State} (hrun : η.system.Run always (.init w) as s)
    {i : Nat} {t : Service.Thread} (hi : s.config.threads i = some t) (hcall : t.call = c) :
    (∀ connection settings id, t.Awaited (.update connection settings id) →
      (MethodsWritten (.ofBody body) settings ↔
        ¬ (UpdateNetworkConfigDto.ofBody body).AsksDhcp)) ∧
      (∀ s j s', η.system.step s (.start j c) = some s' → ¬ RejectedForStatic s' j) ∧
      ((UpdateNetworkConfigDto.ofBody body).Automatic →
        ∀ s', η.system.step s (.resume i .resolve) = some s' →
          (RejectedForStatic s' i ↔
            ∃ connection, t.status = .waits (.getSettings connection) ∧
              HasFamilies (η.getSettings (s.world.networkManager.saved connection)) ∧
              (UpdateNetworkConfigDto.ofBody body).AsksDhcp)) := by
  obtain ⟨haccepts, ⟨⟩⟩ := Option.ite_none_right_eq_some.mp hbody
  refine ⟨?_, fun s j s' hstep => not_rejectedForStatic_start hstep, ?_⟩
  · intro connection settings id hsaves
    obtain ⟨updateSettings, stored, hconfig, happly⟩ := (run_applies hrun hi).saves hcall hsaves
    exact methodsWritten_iff haccepts hconfig happly
  · intro hauto s' hstep
    exact rejectedForStatic_iff haccepts hauto (hrun.eachFor body_each (.init w)) hi hcall hstep

end Run

/-- A request for DHCPv6, and for nothing else. -/
def dhcpBody : Value := .object [("ipv6", .object [("method", .string "dhcp")])]

/-- The request is made for "eth0", and gets as far as reading the settings. -/
def runDhcp : List Service.Act :=
  .start 0 (.update "eth0" (.ofBody dhcpBody)) :: List.replicate 8 (.resume 0 .resolve)

/-- A request for an automatic method of both families. -/
def autoBody : Value :=
  .object [("ipv4", .object [("method", .string "auto")]),
    ("ipv6", .object [("method", .string "auto")])]

/-- The request is made for "eth0", and gets as far as `Update`. -/
def runAuto : List Service.Act :=
  .start 0 (.update "eth0" (.ofBody autoBody)) :: List.replicate 10 (.resume 0 .resolve)

theorem asksDhcp_dhcpBody : (UpdateNetworkConfigDto.ofBody dhcpBody).AsksDhcp :=
  ⟨.ipv6, _, rfl, rfl⟩

theorem not_asksDhcp_autoBody : ¬ (UpdateNetworkConfigDto.ofBody autoBody).AsksDhcp := by
  rintro ⟨f, ip, hip, hdhcp⟩
  cases f <;> cases hip <;> simp [SimpleIpSettings.ofFields, Value.field] at hdhcp

theorem automatic_dhcpBody : (UpdateNetworkConfigDto.ofBody dhcpBody).Automatic := by
  intro f ip hip
  cases f with
  | ipv4 => cases hip
  | ipv6 =>
      cases hip
      exact ⟨.inr rfl, rfl⟩

/-- The methods are written for the one request, and the other is rejected. -/
theorem method_fidelity_dhcp :
    (∃ t connection settings id, (sampleOutcome runAuto).config.threads 0 = some t ∧
      t.Awaited (.update connection settings id) ∧
      MethodsWritten (.ofBody autoBody) settings) ∧
    ∃ s', Host.sample.system.step (sampleOutcome runDhcp) (.resume 0 .resolve) = some s' ∧
      RejectedForStatic s' 0 := by
  have hfamilies : HasFamilies (Host.sample.getSettings
      ((sampleOutcome runDhcp).world.networkManager.saved (Host.sample.profile eth0))) := by
    rw [hasFamilies_iff]
    exact ⟨⟨_, rfl⟩, _, rfl⟩
  constructor
  · have hrun : Host.sample.system.Run always (.init sampleWorld) runAuto
        (sampleOutcome runAuto) := System.run_outcome rfl
    obtain ⟨t, connection, settings, id, hi, hcall, hq⟩ : ∃ t connection settings id,
        (sampleOutcome runAuto).config.threads 0 = some t ∧
          t.call = .update "eth0" (.ofBody autoBody) ∧
          t.Awaited (.update connection settings id) := ⟨_, _, _, _, rfl, rfl, .inl rfl⟩
    have hbody : NetworkController.updateNetworkInterface (fun _ _ => false) "eth0" autoBody =
        some t.call := by
      rw [hcall]
      rfl
    have hiff := (method_fidelity hbody hrun hi rfl).1 connection settings id hq
    exact ⟨t, connection, settings, id, hi, hq, hiff.mpr not_asksDhcp_autoBody⟩
  · have hrun : Host.sample.system.Run always (.init sampleWorld) runDhcp
        (sampleOutcome runDhcp) := System.run_outcome rfl
    obtain ⟨t, s', hi, hcall, hstatus, hstep⟩ : ∃ t s',
        (sampleOutcome runDhcp).config.threads 0 = some t ∧
          t.call = .update "eth0" (.ofBody dhcpBody) ∧
          t.status = .waits (.getSettings (Host.sample.profile eth0)) ∧
          Host.sample.system.step (sampleOutcome runDhcp) (.resume 0 .resolve) = some s' :=
      ⟨_, _, rfl, rfl, rfl, rfl⟩
    have hbody : NetworkController.updateNetworkInterface (fun _ _ => false) "eth0" dhcpBody =
        some t.call := by
      rw [hcall]
      rfl
    have hiff := (method_fidelity hbody hrun hi rfl).2.2 automatic_dhcpBody s' hstep
    exact ⟨s', hstep, hiff.mpr ⟨_, hstatus, hfamilies, asksDhcp_dhcpBody⟩⟩

/-- A request for DHCPv6 is rejected for want of a static address. -/
theorem dhcp_rejected :
    NetworkController.updateNetworkInterface (fun _ _ => false) "eth0" dhcpBody =
        some (.update "eth0" (.ofBody dhcpBody)) ∧
      (UpdateNetworkConfigDto.ofBody dhcpBody).Automatic ∧
      ∃ s s', Host.sample.system.Run always (.init sampleWorld) runDhcp s ∧
        Host.sample.system.step s (.resume 0 .resolve) = some s' ∧ RejectedForStatic s' 0 := by
  refine ⟨rfl, automatic_dhcpBody, sampleOutcome runDhcp, _, System.run_outcome rfl, rfl, _, _,
    rfl, rfl, .inl rfl⟩

/-! ## Name servers -/

/-- The name servers of a family in saved settings. -/
def dnsData (f : Family) (settings : VariantParentObject) : Option Variant :=
  (settings.lookup f.name).bind fun object => object.lookup "dns-data"

/-- Each family that is supplied has the name server that the request names, and the
ones from before where it names none. -/
structure DnsKept (config : UpdateNetworkConfigDto) (before after : VariantParentObject) :
    Prop where
  absent : ∀ f ip, config.family f = .value ip → ip.dns = .undefined →
    dnsData f after = dnsData f before
  supplied : ∀ f ip, config.family f = .value ip → ip.dns ≠ .undefined →
    dnsData f after = some (toVariant "as" (.array [ip.dns]))

/-- A family for which the request names no server has an empty list of them. -/
def NoDnsToKeep (config : UpdateNetworkConfigDto) (before : VariantParentObject) : Prop :=
  ∀ f ip, config.family f = .value ip → ip.dns = .undefined →
    dnsData f before = some (toVariant "as" (.array []))

theorem dnsData_apply {config : UpdateNetworkConfigDto} {updateSettings : UpdatableSettings}
    (hinternal : config.toInternal = .ok updateSettings) {before after : VariantParentObject}
    (happly : updateSettings.apply before = .ok after) {f : Family} {ip : SimpleIpSettings}
    (hip : config.family f = .value ip) :
    dnsData f after = some (toVariant "as" (.array (dnsServers ip.dns))) := by
  obtain ⟨_, object, object', hfamily, hchanges, hlookup⟩ :=
    UpdatableSettings.exists_section hinternal happly hip
  cases hfamily
  rw [dnsData, hlookup, Option.bind_some]
  rcases (applyChanges_iff.mp hchanges).sets rfl with ⟨_, hmanaged⟩ | ⟨_, _, _, _, _, hmanaged⟩
  · exact hmanaged.dnsData
  · exact hmanaged.dnsData

theorem dnsServers_of_ne {dns : Value} (h : dns ≠ .undefined) : dnsServers dns = [dns] := by
  cases dns with
  | undefined => exact absurd rfl h
  | _ => rfl

/-- What an update that succeeds has made of the name servers. -/
theorem dnsKept_iff {config : UpdateNetworkConfigDto} {updateSettings : UpdatableSettings}
    (hinternal : config.toInternal = .ok updateSettings)
    {stored before after : VariantParentObject}
    (happly : updateSettings.apply stored = .ok after) :
    DnsKept config before after ↔ NoDnsToKeep config before := by
  have hafter : ∀ f ip, config.family f = .value ip → ip.dns = .undefined →
      dnsData f after = some (toVariant "as" (.array [])) := by
    intro f ip hip hdns
    rw [dnsData_apply hinternal happly hip, hdns]
    rfl
  constructor
  · intro hkept f ip hip hdns
    rw [← hkept.absent f ip hip hdns, hafter f ip hip hdns]
  · intro hnone
    refine ⟨fun f ip hip hdns => ?_, fun f ip hip hdns => ?_⟩
    · rw [hafter f ip hip hdns, hnone f ip hip hdns]
    · rw [dnsData_apply hinternal happly hip, dnsServers_of_ne hdns]

/-- An update that succeeds keeps the name servers that its request does not mention
where there are none to be kept. -/
theorem dns_kept (η : Host) (interfaceName : String) (config : UpdateNetworkConfigDto)
    (w : World) :
    (NetworkService.update η.config interfaceName config).Ends η.answer Eq (fun _ => True)
      (fun r w' => ∀ url, r = .ok url → ∃ device,
        η.deviceByIpIface interfaceName = some device ∧
          (DnsKept config (w.networkManager.saved (η.profile device))
              (w'.networkManager.saved (η.profile device)) ↔
            NoDnsToKeep config (w.networkManager.saved (η.profile device)))) w := by
  refine update_ends.mono fun r w' hsaves url hr => ?_
  obtain ⟨device, hdevice, _, updateSettings, settings, hinternal, happly, hsaved⟩ := hsaves url hr
  refine ⟨device, hdevice, ?_⟩
  rw [hsaved]
  exact dnsKept_iff hinternal happly

/-- Settings with a name server. -/
def serverSettings : VariantParentObject :=
  AList.insert "ipv4"
    (AList.singleton "dns-data" (toVariant "as" (.array [.string "1.1.1.1"]))) emptySettings

/-- A request for DHCP that names no server removes the one that is stored. -/
theorem dns_removed : ∃ s t, Host.sample.system.Run always (.init (.init fun _ => serverSettings))
      (runUpdate 0) s ∧ s.config.threads 0 = some t ∧ (∃ url, t.status = .done (.ok url)) ∧
    ∃ config, t.call = .update "eth0" config ∧
      ¬ DnsKept config serverSettings
        (s.world.networkManager.saved (Host.sample.profile eth0)) := by
  refine ⟨Host.sample.system.outcome (.init (.init fun _ => serverSettings)) (runUpdate 0), _,
    System.run_outcome rfl, rfl, ⟨_, rfl⟩, _, rfl, fun h => ?_⟩
  have hbefore : dnsData .ipv4 serverSettings =
      some (toVariant "as" (.array [.string "1.1.1.1"])) := rfl
  have hafter : dnsData .ipv4 ((Host.sample.system.outcome (.init (.init fun _ => serverSettings))
      (runUpdate 0)).world.networkManager.saved (Host.sample.profile eth0)) =
      some (toVariant "as" (.array [])) := rfl
  have hkept := h.absent .ipv4 _ rfl rfl
  rw [hbefore, hafter] at hkept
  simp [toVariant] at hkept

end RpiNestApi.Network
