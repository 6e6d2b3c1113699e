import RpiNestApi.Async.Apart
import RpiNestApi.Network.Adapter
import RpiNestApi.Network.Confirmation

/-
Several updates of a device are one.

An update sets each property that it manages without looking at the old one, but for lists
that it does not name.  Two updates in a row are then the update that has the changes of
both, the later ones where both change a family, and what is committed of a device is made
by one update of its first settings.
-/

namespace RpiNestApi.Network

open Async Checkpointed IpSettingsVariantAdapter

/-! ## Changes of changes -/

/-- A list that the later changes do not name is the one of the earlier changes. -/
def laterList : Field (List Value) → Field (List Value) → Field (List Value)
  | data, .undefined => data
  | _, data => data

def UpdateIpSettings.andThen (changes later : UpdateIpSettings) : UpdateIpSettings :=
  { later with
    dnsData := laterList changes.dnsData later.dnsData
    dnsSearch := laterList changes.dnsSearch later.dnsSearch }

def andThenChanges : Option UpdateIpSettings → Option UpdateIpSettings → Option UpdateIpSettings
  | none, later => later
  | changes, none => changes
  | some changes, some later => some (changes.andThen later)

def UpdatableSettings.andThen (updateSettings later : UpdatableSettings) : UpdatableSettings where
  ipv4 := andThenChanges updateSettings.ipv4 later.ipv4
  ipv6 := andThenChanges updateSettings.ipv6 later.ipv6

/-- The same variants under the same names, in any order. -/
def SameObject (object object' : VariantObject) : Prop :=
  ∀ name, object.lookup name = object'.lookup name

def SameSettings (settings settings' : VariantParentObject) : Prop :=
  ∀ name, Option.Rel SameObject (settings.lookup name) (settings'.lookup name)

/-! ## What a change makes of a property -/

theorem UpdatableSettings.changes_andThen (updateSettings later : UpdatableSettings) (f : Family) :
    (updateSettings.andThen later).changes f =
      andThenChanges (updateSettings.changes f) (later.changes f) := by
  cases f <;> rfl

/-- The property of a block that was changed, from those of the block. -/
def UpdateIpSettings.property (changes : UpdateIpSettings) (old : String → Option Variant)
    (name : String) : Option Variant :=
  if name = "dns-data" then requestedList changes.dnsData (old name)
  else if name = "dns-search" then requestedList changes.dnsSearch (old name)
  else if changes.method.isString "auto" then
    if name = "method" then some (toVariant "s" (.string "auto"))
    else if name = "address-data" ∨ name = "gateway" then none
    else old name
  else if name = "method" then some (toVariant "s" (.string "manual"))
  else if name = "gateway" then some (toVariant "s" changes.gateway)
  else if name = "address-data" then
    match changes.addressData with
    | .value xs => some (addressVariant xs)
    | _ => none
  else old name

/-- The same with the deprecated properties gone. -/
def property (changes : Option UpdateIpSettings) (old : String → Option Variant)
    (name : String) : Option Variant :=
  if name ∈ deprecated then none
  else match changes with
    | none => old name
    | some changes => changes.property old name

theorem requestedList_laterList (data later : Field (List Value)) (old : Option Variant) :
    requestedList (laterList data later) old = requestedList later (requestedList data old) := by
  cases later <;> rfl

/-- What is not managed is left alone. -/
theorem UpdateIpSettings.property_of_notMem {name : String} (h : name ∉ managed)
    (changes : UpdateIpSettings) (old : String → Option Variant) :
    changes.property old name = old name := by
  simp only [managed, List.mem_cons, List.not_mem_nil, or_false, not_or] at h
  obtain ⟨hdns, hsearch, haddress, hgateway, hmethod⟩ := h
  simp only [property, hdns, hsearch, haddress, hgateway, hmethod, if_false, or_self, ite_self]

/-- Only the lists depend on what was there. -/
theorem UpdateIpSettings.property_andThen (changes later : UpdateIpSettings)
    (old : String → Option Variant) (name : String) :
    (changes.andThen later).property old name = later.property (changes.property old) name := by
  by_cases hname : name ∈ managed
  · simp only [managed, List.mem_cons, List.not_mem_nil, or_false] at hname
    rcases hname with rfl | rfl | rfl | rfl | rfl
    · exact requestedList_laterList changes.dnsData later.dnsData _
    · exact requestedList_laterList changes.dnsSearch later.dnsSearch _
    · rfl
    · rfl
    · rfl
  · simp only [property_of_notMem hname]

/-- A property depends on no other one. -/
theorem UpdateIpSettings.property_congr (changes : UpdateIpSettings)
    {old old' : String → Option Variant} {name : String} (h : old name = old' name) :
    changes.property old name = changes.property old' name := by
  simp only [property, h]

theorem property_deprecated {name : String} (h : name ∈ deprecated)
    (changes : Option UpdateIpSettings) (old : String → Option Variant) :
    property changes old name = none :=
  if_pos h

theorem property_none {name : String} (h : name ∉ deprecated) (old : String → Option Variant) :
    property none old name = old name :=
  if_neg h

theorem property_some {name : String} (h : name ∉ deprecated) (changes : UpdateIpSettings)
    (old : String → Option Variant) :
    property (some changes) old name = changes.property old name :=
  if_neg h

theorem property_congr (changes : Option UpdateIpSettings) {old old' : String → Option Variant}
    {name : String} (h : old name = old' name) :
    property changes old name = property changes old' name := by
  cases changes with
  | none => simp only [property, h]
  | some changes => simp only [property, changes.property_congr h]

theorem property_andThen (changes later : Option UpdateIpSettings)
    (old : String → Option Variant) (name : String) :
    property (andThenChanges changes later) old name =
      property later (property changes old) name := by
  by_cases hname : name ∈ deprecated
  · rw [property_deprecated hname, property_deprecated hname]
  · cases changes with
    | none => cases later <;> exact property_congr _ (property_none hname old).symm
    | some changes =>
        cases later with
        | none => exact (property_none hname _).symm
        | some later =>
            rw [andThenChanges, property_some hname, property_some hname,
              changes.property_andThen]
            exact later.property_congr (property_some hname changes old).symm

theorem IpSettingsVariantAdapter.Applied.lookup {changes : UpdateIpSettings}
    {object object' : VariantObject} (h : Applied changes object object') (name : String) :
    object'.lookup name = changes.property object.lookup name := by
  by_cases hname : name ∈ managed
  · simp only [managed, List.mem_cons, List.not_mem_nil, or_false] at hname
    cases h with
    | auto hmethod =>
        have happlied : Applied changes object _ := .auto hmethod
        rcases hname with rfl | rfl | rfl | rfl | rfl
        · exact (happlied.lookup_lists (by decide)).trans (lookup_setLists_data changes object)
        · exact (happlied.lookup_lists (by decide)).trans (lookup_setLists_search changes object)
        · rw [AList.lookup_insert_ne (by decide), AList.lookup_erase_ne (by decide),
            AList.lookup_erase]
          simp [UpdateIpSettings.property, hmethod]
        · rw [AList.lookup_insert_ne (by decide), AList.lookup_erase]
          simp [UpdateIpSettings.property, hmethod]
        · rw [AList.lookup_insert]
          simp [UpdateIpSettings.property, hmethod]
    | manual hmethod haddress hgateway =>
        have happlied : Applied changes object _ := .manual hmethod haddress hgateway
        rcases hname with rfl | rfl | rfl | rfl | rfl
        · exact (happlied.lookup_lists (by decide)).trans (lookup_setLists_data changes object)
        · exact (happlied.lookup_lists (by decide)).trans (lookup_setLists_search changes object)
        · rw [AList.lookup_insert_ne (by decide), AList.lookup_insert_ne (by decide),
            AList.lookup_insert]
          simp [UpdateIpSettings.property, hmethod, haddress]
        · rw [AList.lookup_insert_ne (by decide), AList.lookup_insert]
          simp [UpdateIpSettings.property, hmethod]
        · rw [AList.lookup_insert]
          simp [UpdateIpSettings.property, hmethod]
  · rw [h.lookup_of_notMem hname, UpdateIpSettings.property_of_notMem hname]

theorem lookup_applyChanges {changes : Option UpdateIpSettings} {object object' : VariantObject}
    (h : applyChanges changes (clean object) = .ok object') (name : String) :
    object'.lookup name = property changes object.lookup name := by
  by_cases hname : name ∈ deprecated
  · rw [lookup_applyChanges_deprecated h hname, property_deprecated hname]
  · cases changes with
    | none =>
        cases h
        rw [lookup_clean hname, property_none hname]
    | some changes =>
        rw [(applyChanges_iff.mp h).lookup name, property_some hname]
        exact changes.property_congr (lookup_clean hname object)

/-! ## When changes are refused -/

/-- Changes are made of every block or of none. -/
theorem exists_applyChanges {changes : Option UpdateIpSettings} {object object₁ : VariantObject}
    (h : applyChanges changes object = .ok object₁) (object' : VariantObject) :
    ∃ object₁', applyChanges changes object' = .ok object₁' := by
  cases changes with
  | none => exact ⟨_, rfl⟩
  | some changes =>
      cases applyChanges_iff.mp h with
      | auto hmethod => exact ⟨_, applyChanges_iff.mpr (.auto hmethod)⟩
      | manual hmethod haddress hgateway =>
          exact ⟨_, applyChanges_iff.mpr (.manual hmethod haddress hgateway)⟩

theorem exists_applyChanges_andThen {changes later : Option UpdateIpSettings}
    {object object₁ object' object₁' : VariantObject}
    (h : applyChanges changes object = .ok object₁)
    (h' : applyChanges later object' = .ok object₁') (block : VariantObject) :
    ∃ block', applyChanges (andThenChanges changes later) block = .ok block' := by
  cases changes with
  | none => cases later <;> exact exists_applyChanges h' block
  | some changes =>
      cases later with
      | none => exact exists_applyChanges h block
      | some later =>
          cases applyChanges_iff.mp h' with
          | auto hmethod => exact ⟨_, applyChanges_iff.mpr (.auto hmethod)⟩
          | manual hmethod haddress hgateway =>
              exact ⟨_, applyChanges_iff.mpr (.manual hmethod haddress hgateway)⟩

namespace UpdatableSettings

variable {updateSettings later : UpdatableSettings}
variable {settings settings₁ settings₂ settings' : VariantParentObject}

/-- An update of settings that have both sections. -/
theorem exists_apply (h : ∀ f : Family, ∃ object object', settings.lookup f.name = some object ∧
      applyChanges (updateSettings.changes f) (clean object) = .ok object') :
    ∃ settings', updateSettings.apply settings = .ok settings' := by
  obtain ⟨object₄, object₄', hlookup₄, hchanges₄⟩ := h .ipv4
  obtain ⟨object₆, object₆', hlookup₆, hchanges₆⟩ := h .ipv6
  have hfirst : applySection "ipv4" updateSettings.ipv4 settings =
      .ok (settings.insert "ipv4" object₄') := by
    rw [applySection, show settings.lookup "ipv4" = some object₄ from hlookup₄, new_some]
    exact congrArg (Except.map (settings.insert "ipv4")) hchanges₄
  have hsecond : (settings.insert "ipv4" object₄').lookup "ipv6" = some object₆ := by
    rw [AList.lookup_insert_ne (by decide)]
    exact hlookup₆
  refine ⟨(settings.insert "ipv4" object₄').insert "ipv6" object₆', ?_⟩
  rw [apply, hfirst]
  show applySection "ipv6" updateSettings.ipv6 (settings.insert "ipv4" object₄') = _
  rw [applySection, hsecond, new_some]
  exact congrArg (Except.map ((settings.insert "ipv4" object₄').insert "ipv6")) hchanges₆

/-- Two updates in a row are one, also where the later one finds the same settings in
another order. -/
theorem apply_andThen (h : updateSettings.apply settings = .ok settings₁)
    (hsame : SameSettings settings₁ settings') (h' : later.apply settings' = .ok settings₂) :
    ∃ settings₂', (updateSettings.andThen later).apply settings = .ok settings₂' ∧
      SameSettings settings₂' settings₂ := by
  obtain ⟨settings₂', happly⟩ : ∃ settings₂',
      (updateSettings.andThen later).apply settings = .ok settings₂' := by
    refine exists_apply fun f => ?_
    obtain ⟨object, object₁, hlookup, hchanges, _⟩ := apply_eq_ok h f
    obtain ⟨object', object₂, _, hchanges', _⟩ := apply_eq_ok h' f
    obtain ⟨block, hblock⟩ := exists_applyChanges_andThen hchanges hchanges' (clean object)
    exact ⟨object, block, hlookup, changes_andThen .. ▸ hblock⟩
  refine ⟨settings₂', happly, fun name => ?_⟩
  by_cases hname : ∃ f : Family, name = f.name
  · obtain ⟨f, rfl⟩ := hname
    obtain ⟨object, object₁, hlookup, hchanges, hlookup₁⟩ := apply_eq_ok h f
    obtain ⟨object', object₂, hlookup', hchanges', hlookup₂⟩ := apply_eq_ok h' f
    obtain ⟨_, block, hlookup₀, hchanges₀, hblock⟩ := apply_eq_ok happly f
    cases hlookup.symm.trans hlookup₀
    rw [hblock, hlookup₂]
    refine .some fun property => ?_
    have hsame₁ : SameObject object₁ object' := by
      have hrel := hsame f.name
      rw [hlookup₁, hlookup'] at hrel
      cases hrel with
      | some hrel => exact hrel
    rw [changes_andThen] at hchanges₀
    rw [lookup_applyChanges hchanges₀, property_andThen, lookup_applyChanges hchanges']
    refine property_congr _ ?_
    rw [← lookup_applyChanges hchanges, hsame₁]
  · have hne : ∀ f : Family, name ≠ f.name := fun f hf => hname ⟨f, hf⟩
    rw [lookup_apply_ne happly hne, lookup_apply_ne h' hne, ← lookup_apply_ne h hne]
    exact hsame name

end UpdatableSettings

/-! ## Committed updates -/

/-- The updates, the latest first, as one. -/
def compose : List UpdatableSettings → UpdatableSettings :=
  List.foldr (fun later updateSettings => updateSettings.andThen later)
    { ipv4 := none, ipv6 := none }

section Committed

variable {η : Host} {device : ObjectPath} {saved : ObjectPath → VariantParentObject}

/-- The update that holds the id makes these changes to the device. -/
def ChangesUnder (η : Host) (device : ObjectPath) (g : Service.Config) (id : String)
    (updateSettings : UpdatableSettings) : Prop :=
  ∃ i t settings, Holds η g i t device settings id ∧ t.call.Updates η device updateSettings

/-- The id of a commit that was answered with success. -/
def committedId : Nat × Call × Except Exception Response → Option String
  | (_, .commit id, .ok _) => some id
  | _ => none

/-- The ids that were committed, in the order of the answers. -/
def commits (answers : List (Nat × Call × Except Exception Response)) : List String :=
  answers.filterMap committedId

/-- `ids` are the ids that were committed of the device, the latest first, as the answers say, and
what stands are the settings `v`, made of `v₀` by all of their updates as one. -/
structure Composed (η : Host) (device : ObjectPath) (v₀ : VariantParentObject)
    (g : Service.Config) (answers : List (Nat × Call × Except Exception Response))
    (ids : List String) (us : List UpdatableSettings) (v : VariantParentObject) : Prop where
  nodup : ids.Nodup
  mem : ∀ id, id ∈ ids ↔ CommittedFor η device g id
  /-- No id is committed twice. -/
  once : (commits answers).Nodup
  order : ids.reverse.Sublist (commits answers)
  changes : List.Forall₂ (ChangesUnder η device g) ids us
  stands : g.world.networkManager.Stands η.profile device v
  first : us = [] → v = v₀
  composed : us ≠ [] → ∃ settings, (compose us).apply v₀ = .ok settings ∧ SameSettings settings v

/-- Each of the committed settings was made of the ones before, and what a live checkpoint
guards is made of the last ones. -/
structure Chained (η : Host) (device : ObjectPath) (v₀ : VariantParentObject) (g : Service.Config)
    (ids : List String) (v : VariantParentObject) : Prop where
  log : Checkpointed.Log (Made η device g) v₀ ids v
  nodup : ids.Nodup
  mem : ∀ id, id ∈ ids ↔ CommittedFor η device g id
  stands : g.world.networkManager.Stands η.profile device v
  pending : ∀ i t settings id updateSettings, Holds η g i t device settings id →
    t.call.Updates η device updateSettings → Alive g device id →
    updateSettings.apply v = .ok settings

theorem SameSettings.refl (settings : VariantParentObject) : SameSettings settings settings := by
  intro name
  cases settings.lookup name with
  | none => exact .none
  | some object => exact .some fun _ => rfl

theorem exists_compose {g : Service.Config} (hg : Numbered η g) {v₀ v : VariantParentObject}
    {ids : List String} (hlog : Checkpointed.Log (Made η device g) v₀ ids v) :
    ∃ us, List.Forall₂ (ChangesUnder η device g) ids us ∧ (us = [] → v = v₀) ∧
      (us ≠ [] → ∃ settings, (compose us).apply v₀ = .ok settings ∧ SameSettings settings v) := by
  induction hlog with
  | nil => exact ⟨[], .nil, fun _ => rfl, fun h => absurd rfl h⟩
  | @cons ids id v v' _ hmade ih =>
      obtain ⟨us, hchanges, hfirst, hcomposed⟩ := ih
      obtain ⟨i, t, updateSettings, hi, hcall, hq, happly⟩ := hmade
      have hold : Holds η g i t device v' id :=
        ⟨hi, (hg.order i t hi).applied device v' id hq⟩
      refine ⟨updateSettings :: us, .cons ⟨i, t, v', hold, hcall⟩ hchanges,
        fun h => (by cases h), fun _ => ?_⟩
      cases us with
      | nil =>
          obtain rfl := hfirst rfl
          exact ⟨v', happly, .refl v'⟩
      | cons u us =>
          obtain ⟨settings, hsettings, hsame⟩ := hcomposed (List.cons_ne_nil u us)
          exact UpdatableSettings.apply_andThen hsettings hsame happly

/-! ## One step -/

section Move

variable {g h : Service.Config} {a : Service.Act} {v₀ v : VariantParentObject} {ids : List String}

/-- A checkpoint that is made is live. -/
theorem Makes.alive {i : Nat} {t : Service.Thread} {settings : VariantParentObject} {id : String}
    (hm : Makes η g h a i t device settings id) : Alive h device id := by
  obtain ⟨_, _, hlive⟩ := Store.create_eq_some hm.create
  exact ⟨_, hlive ▸ List.mem_cons_self, rfl, rfl⟩

/-- A step in which no checkpoint of the device is made or committed. -/
theorem Chained.of_kept (hs : Chained η device v₀ g ids v) (hmove : Move (Step η) η.env g a h)
    (hmem : ∀ id, CommittedFor η device h id → CommittedFor η device g id)
    (hstands : h.world.networkManager.Stands η.profile device v)
    (halive : ∀ id, Alive h device id → Alive g device id) : Chained η device v₀ h ids v where
  log := hs.log.mono fun _ _ _ hmade => hmade.move hmove
  nodup := hs.nodup
  mem id := (hs.mem id).trans ⟨fun hid => hid.move hmove, hmem id⟩
  stands := hstands
  pending i t settings id updateSettings hold hcall hid := by
    rcases hold.cases hmove with ⟨t₀, hext, hold₀⟩ | hnew
    · exact hs.pending i t₀ settings id updateSettings hold₀ (hext.call ▸ hcall) (halive id hid)
    · obtain ⟨hbare, _, _⟩ := Store.create_eq_some hnew.create
      exact absurd hbare (halive id hnew.alive).not_bare

theorem Chained.untouched (hs : Chained η device v₀ g ids v) (hg : Numbered η g)
    (hmove : Move (Step η) η.env g a h) (hu : Untouched η device g.world h.world) :
    Chained η device v₀ h ids v := by
  refine hs.of_kept hmove (fun id hid => ?_) (hs.stands.congr hu.saved hu.live)
    fun id hid => hu.alive.mp hid
  exact (CommittedFor.cases hg hmove hid).resolve_right fun ⟨halive, hrelease⟩ =>
    hu.not_released halive hrelease

theorem Chained.create (hs : Chained η device v₀ g ids v) (hg : Numbered η g)
    (hfresh : CreatesFresh η device g a) (hmove : Move (Step η) η.env g a h) {i : Nat}
    {t : Service.Thread} {settings : VariantParentObject} {id : String}
    (hm : Makes η g h a i t device settings id) : Chained η device v₀ h ids v := by
  obtain ⟨hbare, _, hlive⟩ := Store.create_eq_some hm.create
  refine
    { log := hs.log.mono fun _ _ _ hmade => hmade.move hmove, nodup := hs.nodup,
      mem := fun id' => ?_, stands := hs.stands.create hm.create,
      pending := fun j t' settings' id' updateSettings hold hcall halive => ?_ }
  · refine (hs.mem id').trans ⟨fun hid => hid.move hmove, fun hid => ?_⟩
    exact (CommittedFor.cases hg hmove hid).resolve_right fun ⟨halive, _⟩ => halive.not_bare hbare
  · rcases hold.cases hmove with ⟨_, _, hold₀⟩ | hnew
    · obtain rfl := halive.unique hm.alive
      exact absurd hm (hg.fresh hold₀)
    · rw [← hs.stands.bare hbare]
      exact hfresh j t'.call settings' updateSettings hnew.runs hcall hbare

/-- Settings of the device are saved only under its checkpoint. -/
theorem Chained.save (hs : Chained η device v₀ g ids v) (hg : Numbered η g)
    (hguarded : Guarded η saved g) (hmove : Move (Step η) η.env g a h) {i : Nat}
    {t : Service.Thread} {settings : VariantParentObject} {id : String}
    (hi : g.threads i = some t)
    (hstatus : t.status = .waits (.update (η.profile device) settings id))
    (hsave : h.world.networkManager = g.world.networkManager.save (η.profile device) settings) :
    Chained η device v₀ h ids v := by
  have hlive : h.world.networkManager.live = g.world.networkManager.live := by rw [hsave]; rfl
  have hnot : ¬ g.world.networkManager.Bare device := by
    rcases hguarded.saving i t _ settings id hi hstatus with ⟨c, hc, hid, hkey⟩ | hcommitted
    · exact Alive.not_bare ⟨c, hc, hid, η.profile_injective hkey⟩
    · exact absurd hcommitted (hg.not_committed hi hstatus)
  refine hs.of_kept hmove (fun id' hid => ?_) ?_ fun id' ⟨c, hc, hid, hkey⟩ =>
    ⟨c, hlive ▸ hc, hid, hkey⟩
  · refine (CommittedFor.cases hg hmove hid).resolve_right fun ⟨⟨c, hc, _, hkey⟩, hrelease⟩ => ?_
    rw [← hlive, hrelease] at hc
    exact (Store.mem_release.mp hc).2 hkey
  · rw [hsave]
    exact hs.stands.save η.profile_injective fun hbare => absurd hbare hnot

/-- What is restored are the settings that stood. -/
theorem Chained.expire (hs : Chained η device v₀ g ids v) {path : ObjectPath}
    (hmove : Move (Step η) η.env g (.env (.expire path) : Service.Act) h)
    (hexpire : g.world.networkManager.expire η.profile path = some h.world.networkManager)
    {c : Checkpoint ObjectPath ObjectPath VariantParentObject} (hkey : c.key = device)
    (hrelease : h.world.networkManager =
      (g.world.networkManager.save (η.profile c.key) c.snapshot).release c.key) :
    Chained η device v₀ h ids v := by
  have hthreads := hmove.env_threads
  refine hs.of_kept hmove (fun id ⟨hid, i, t, settings, hold⟩ => ?_)
    (hs.stands.expire η.profile_injective hexpire) fun id ⟨c', hc', _, hkey'⟩ => ?_
  · rw [Committed, hthreads] at hid
    exact ⟨hid, i, t, settings, hthreads ▸ hold.thread, hold.awaited⟩
  · rw [hrelease] at hc'
    exact absurd (hkey'.trans hkey.symm) (Store.mem_release.mp hc').2

/-- What its update has saved is committed. -/
theorem Chained.commit (hs : Chained η device v₀ g ids v) (hg : Numbered η g)
    (hsaved : SavedWhileLive η g) (hmove : Move (Step η) η.env g a h) {i j : Nat} {id : String}
    {past : List Await}
    (hi : h.threads i = some { call := .commit id, past, status := .done (.ok .void) })
    {t : Service.Thread} (hj : g.threads j = some t) (hreturned : Returned η id t)
    (halive : Alive g device id)
    (hrelease : h.world.networkManager = g.world.networkManager.release device) :
    Chained η device v₀ h (id :: ids) (g.world.networkManager.saved (η.profile device)) := by
  have horder := hg.order j t hj
  obtain ⟨device', settings, hq⟩ := horder.returned id hreturned
  have hold : Holds η g j t device' settings id := ⟨hj, horder.applied device' settings id hq⟩
  obtain rfl : device = device' := by
    obtain ⟨c, hc, hid, rfl⟩ := halive
    exact hg.key hold hc hid
  obtain ⟨_, hprofile, hcreate⟩ := horder.update _ settings id hold.awaited
  obtain rfl := η.profile_injective hprofile
  obtain ⟨updateSettings, hcall⟩ := horder.create device settings hcreate
  have happly := hs.pending j t settings id updateSettings hold hcall halive
  have hmade : Made η device g id v settings := ⟨j, t, updateSettings, hj, hcall, hq, happly⟩
  have hcommitted : CommittedFor η device h id := by
    obtain ⟨t', _, hold'⟩ := hold.move hmove
    exact ⟨⟨i, _, hi, rfl, rfl⟩, j, t', settings, hold'⟩
  have hnot : ∀ id', ¬ Alive h device id' := fun id' halive' =>
    halive'.not_bare (hrelease ▸ bare_release)
  have hnew : id ∉ ids := by
    intro hid
    obtain ⟨c, hc, hid', _⟩ := halive
    exact hg.dead id ((hs.mem id).mp hid).1 c hc hid'
  rw [hsaved j t device settings id hj hq halive]
  refine
    { log := .cons (hs.log.mono fun _ _ _ hmade => hmade.move hmove) (hmade.move hmove),
      nodup := List.nodup_cons.mpr ⟨hnew, hs.nodup⟩, mem := fun id' => ?_, stands := ?_,
      pending := fun _ _ _ id' _ _ _ halive' => absurd halive' (hnot id') }
  · rw [List.mem_cons, hs.mem]
    constructor
    · rintro (rfl | hid)
      · exact hcommitted
      · exact hid.move hmove
    · intro hid
      exact (CommittedFor.cases hg hmove hid).elim .inr fun ⟨halive', _⟩ =>
        .inl (halive'.unique halive)
  · rw [hrelease, ← hsaved j t device settings id hj hq halive]
    exact .release _ _

theorem Chained.move (hs : Chained η device v₀ g ids v) (hg : LinksKept η saved g)
    (hok : CommitsReturned η g a) (hfresh : CreatesFresh η device g a)
    (hmove : Move (Step η) η.env g a h) :
    ∃ ids' v', Chained η device v₀ h ids' v' ∧
      (ids' = ids ∨ ∃ i id, ids' = id :: ids ∧ h.answered a = some (i, .commit id, .ok .void)) := by
  have hsame : Chained η device v₀ h ids v → ∃ ids' v', Chained η device v₀ h ids' v' ∧
      (ids' = ids ∨ ∃ i id, ids' = id :: ids ∧ h.answered a = some (i, .commit id, .ok .void)) :=
    fun hs' => ⟨ids, v, hs', .inl rfl⟩
  rcases hmove.runs with ⟨i, c, o, past, st, hruns, hT, hi⟩ | ⟨e, rfl, he⟩
  · cases hT.effect with
    | none heq _ => exact hsame (hs.untouched hg.numbered hmove (.of_eq heq))
    | @create device' settings id _ =>
        obtain ⟨_, hprofile, rfl, hid, hcheckpoints, hcreate⟩ := hT.creates
        obtain rfl := η.profile_injective hprofile
        by_cases hdevice : device' = device
        · subst hdevice
          exact hsame (hs.create hg.numbered hfresh hmove
            ⟨hruns, hi, rfl, hid, hcheckpoints, hcreate⟩)
        · exact hsame (hs.untouched hg.numbered hmove (.create hdevice hcreate))
    | @save _ _ device' settings id _ ho hsave =>
        by_cases hdevice : device' = device
        · subst hdevice ho
          cases hruns with
          | resume hj =>
              exact hsame (hs.save hg.numbered hg.guarded hmove hj rfl hsave)
        · exact hsame (hs.untouched hg.numbered hmove (.save hdevice hsave))
    | @destroy id hc hdestroy =>
        obtain ⟨c', hc', hid, hrelease⟩ := Store.destroy_eq_some hdestroy
        by_cases hdevice : c'.key = device
        · subst hc hdevice
          obtain ⟨j, t, hj, hreturned⟩ : ∃ j t, g.threads j = some t ∧ Returned η id t := by
            cases hruns with
            | start => exact hok
            | resume hi₀ => exact hg.numbered.commits i _ id hi₀ rfl
          exact ⟨_, _, hs.commit hg.numbered hg.savedWhileLive hmove hi hj hreturned
            ⟨c', hc', hid, rfl⟩ hrelease, .inr ⟨i, id, rfl, hruns.answered hi⟩⟩
        · exact hsame (hs.untouched hg.numbered hmove (.release hdevice hrelease))
  · cases e with
    | expire path =>
        obtain ⟨networkManager, hexpire, hw⟩ := Option.map_eq_some_iff.mp he
        obtain rfl : networkManager = h.world.networkManager := by rw [← hw]
        obtain ⟨c, hc, hid, hrelease⟩ := Store.expire_eq_some hexpire
        by_cases hdevice : c.key = device
        · exact hsame (hs.expire hmove hexpire hdevice hrelease)
        · exact hsame (hs.untouched hg.numbered hmove (expire_untouched hdevice hrelease))

/-! ## The order of the commits -/

theorem committedId_eq_some {x : Nat × Call × Except Exception Response} {id : String} :
    committedId x = some id ↔ ∃ i r, x = (i, .commit id, .ok r) := by
  constructor
  · intro hx
    obtain ⟨i, c, r⟩ := x
    cases c with
    | commit id' =>
        cases r with
        | ok r =>
            cases hx
            exact ⟨i, r, rfl⟩
        | error e => cases hx
    | _ => cases hx
  · rintro ⟨i, r, rfl⟩
    rfl

/-- What the answers so far say of the ids that were committed. -/
structure Ordered (g : Service.Config) (answers : List (Nat × Call × Except Exception Response))
    (ids : List String) : Prop where
  once : (commits answers).Nodup
  committed : ∀ id ∈ commits answers, Committed g id
  order : ids.reverse.Sublist (commits answers)

theorem Ordered.of_kept {answers : List (Nat × Call × Except Exception Response)}
    (hs : Ordered g answers ids) (hmove : Move (Step η) η.env g a h) : Ordered h answers ids where
  once := hs.once
  committed id hid := (hs.committed id hid).move hmove
  order := hs.order

/-- A commit that is answered has destroyed a checkpoint that was live. -/
theorem Ordered.commit {answers : List (Nat × Call × Except Exception Response)}
    (hs : Ordered g answers ids) (hg : Numbered η g) (hmove : Move (Step η) η.env g a h) {i : Nat}
    {id : String} {r : Response} (hx : h.answered a = some (i, .commit id, .ok r)) :
    Ordered h (answers ++ [(i, .commit id, .ok r)]) ids ∧
      Ordered h (answers ++ [(i, .commit id, .ok r)]) (id :: ids) := by
  obtain ⟨o, past, _, hT, hi⟩ := hmove.answered hx
  obtain rfl : r = .void := hT.void
  have hcommits : commits (answers ++ [(i, .commit id, .ok .void)]) = commits answers ++ [id] := by
    rw [commits, List.filterMap_append]
    rfl
  have hnew : id ∉ commits answers := by
    intro hid
    obtain ⟨c, hc, hpath, _⟩ := Store.destroy_eq_some hT.destroys
    exact hg.dead id (hs.committed id hid) c hc hpath
  have honce : (commits answers ++ [id]).Nodup :=
    List.nodup_append.mpr ⟨hs.once, List.nodup_singleton id, by
      rintro id' hid' _ hmem rfl
      rw [List.mem_singleton.mp hmem] at hid'
      exact hnew hid'⟩
  have hcommitted : ∀ id' ∈ commits answers ++ [id], Committed h id' := by
    intro id' hid'
    rcases List.mem_append.mp hid' with hid' | hid'
    · exact (hs.committed id' hid').move hmove
    · rw [List.mem_singleton.mp hid']
      exact ⟨i, _, hi, rfl, rfl⟩
  have hnext : ∀ {ids' : List String}, ids'.reverse.Sublist (commits answers ++ [id]) →
      Ordered h (answers ++ [(i, .commit id, .ok .void)]) ids' :=
    fun horder => ⟨hcommits ▸ honce, hcommits ▸ hcommitted, hcommits ▸ horder⟩
  refine ⟨hnext (hs.order.trans (List.sublist_append_left _ _)), hnext ?_⟩
  rw [List.reverse_cons]
  exact hs.order.append (List.Sublist.refl [id])

theorem Ordered.move {answers : List (Nat × Call × Except Exception Response)}
    (hs : Ordered g answers ids) (hg : Numbered η g) (hmove : Move (Step η) η.env g a h)
    {ids' : List String} (hids : ids' = ids ∨
      ∃ i id, ids' = id :: ids ∧ h.answered a = some (i, .commit id, .ok .void)) :
    Ordered h (answers ++ (h.answered a).toList) ids' := by
  rcases hids with rfl | ⟨i, id, rfl, hx⟩
  · cases hx : h.answered a with
    | none =>
        rw [Option.toList_none, List.append_nil]
        exact hs.of_kept hmove
    | some x =>
        rw [Option.toList_some]
        cases hid : committedId x with
        | none =>
            have hcommits : commits (answers ++ [x]) = commits answers := by
              rw [commits, List.filterMap_append, List.filterMap_cons_none hid, List.filterMap_nil,
                List.append_nil]
              rfl
            have hs' := hs.of_kept hmove
            exact ⟨hcommits ▸ hs'.once, hcommits ▸ hs'.committed, hcommits ▸ hs'.order⟩
        | some _ =>
            obtain ⟨i, r, rfl⟩ := committedId_eq_some.mp hid
            exact (hs.commit hg hmove hx).1
  · rw [hx, Option.toList_some]
    exact (hs.commit hg hmove hx).2

end Move

/-! ## Runs -/

/-- The updates of the device are fresh, too. -/
def OrderlyFresh (η : Host) (device : ObjectPath) (g : Service.Config) (a : Service.Act) : Prop :=
  Orderly η g a ∧ CreatesFresh η device g a

theorem Chained.init : Chained η device (saved (η.profile device))
    (State.init (World.init saved) : Service.State).config [] (saved (η.profile device)) where
  log := .nil
  nodup := List.nodup_nil
  mem id := by
    refine iff_of_false List.not_mem_nil fun ⟨⟨i, t, hi, _⟩, _⟩ => ?_
    cases hi
  stands := .init saved device
  pending i t settings id updateSettings hold := by cases hold.thread

theorem Ordered.init : Ordered (State.init (World.init saved) : Service.State).config [] [] where
  once := List.nodup_nil
  committed _ hid := absurd hid List.not_mem_nil
  order := .slnil

/-- Whatever is updated, committed and rolled back, what stands for a device is made by its
committed updates as one, in the order in which the commits were answered. -/
theorem committed_composed {as : List Service.Act} {s : Service.State}
    (hrun : η.system.Run (OrderlyFresh η device) (.init (World.init saved)) as s) :
    ∃ ids us v, Composed η device (saved (η.profile device)) s.config
      (η.system.answers (.init (World.init saved)) as) ids us v := by
  obtain ⟨hkept, ids, v, hs, hordered⟩ := hrun.invariant_answers
    (fun answers g => LinksKept η saved g ∧ ∃ ids v,
      Chained η device (saved (η.profile device)) g ids v ∧ Ordered g answers ids)
    (system_obeys η)
    (fun _ _ _ _ hok hmove ⟨hg, _, _, hs, hordered⟩ => by
      obtain ⟨ids', v', hs', hids⟩ := hs.move hg hok.1.2 hok.2 hmove
      exact ⟨hg.move hok.1 hmove, ids', v', hs', hordered.move hg.numbered hmove hids⟩)
    (.init _) ⟨.init, [], _, .init, .init⟩
  obtain ⟨us, hchanges, hfirst, hcomposed⟩ := exists_compose hkept.numbered hs.log
  exact ⟨ids, us, v,
    { nodup := hs.nodup, mem := hs.mem, once := hordered.once, order := hordered.order,
      changes := hchanges, stands := hs.stands, first := hfirst, composed := hcomposed }⟩

end Committed

set_option maxRecDepth 2000 in
theorem committed_composed_eth0 : ∃ s,
    Host.sample.system.Run (OrderlyFresh Host.sample eth0) (.init sampleWorld) changesInTurn s ∧
      commits (Host.sample.system.answers (.init sampleWorld) changesInTurn) = ["1", "2"] ∧
      ∃ ids us v, Composed Host.sample eth0 emptySettings s.config
        (Host.sample.system.answers (.init sampleWorld) changesInTurn) ids us v := by
  have hrun : Host.sample.system.Run (OrderlyFresh Host.sample eth0) (.init sampleWorld)
      changesInTurn (sampleOutcome changesInTurn) := by
    refine System.run_outcome_of (by decide +kernel) fun n hn => ?_
    have hn32 : n < 32 := hn
    interval_cases n
    case «13» => exact ⟨⟨trivial, 0, _, rfl, rfl⟩, .of_start⟩
    case «29» => exact ⟨⟨trivial, 2, _, rfl, rfl⟩, .of_start⟩
    case «10» => exact ⟨⟨trivial, trivial⟩, .of_create rfl rfl ⟨_, _, rfl, rfl, rfl⟩ rfl⟩
    case «26» => exact ⟨⟨trivial, trivial⟩, .of_create rfl rfl ⟨_, _, rfl, rfl, rfl⟩ rfl⟩
    all_goals first
      | exact ⟨⟨trivial, trivial⟩, .of_start⟩
      | exact ⟨⟨trivial, trivial⟩, .of_resume rfl fun _ h => by cases h⟩
  exact ⟨_, hrun, by decide +kernel, committed_composed hrun⟩

end RpiNestApi.Network
