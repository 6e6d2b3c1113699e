import RpiNestApi.Network.Changes

/-
What the adapter makes of one block of settings.

A block is edited by one helper after another.  What counts is the block that is
left at the end: its method, its addresses and its gateway go together, each list is
as the changes say, and everything else is as it was.
-/

namespace RpiNestApi.Network

/-- The changes have the types they are declared with: a gateway is a text, where it
is given. -/
def UpdateIpSettings.Typed (changes : UpdateIpSettings) : Prop :=
  changes.gateway = .undefined ∨ changes.gateway = .null ∨ ∃ s, changes.gateway = .string s

/-- A gateway that is typed and not empty is a text. -/
theorem UpdateIpSettings.Typed.gateway_eq {changes : UpdateIpSettings} (h : changes.Typed)
    (hgateway : changes.gateway.isEmpty = false) :
    ∃ s, s ≠ "" ∧ changes.gateway = .string s := by
  rcases h with he | he | ⟨s, he⟩
  · rw [he] at hgateway
    cases hgateway
  · rw [he] at hgateway
    cases hgateway
  · refine ⟨s, ?_, he⟩
    rintro rfl
    rw [he] at hgateway
    cases hgateway

namespace IpSettingsVariantAdapter

/-- `new IpSettingsVariantAdapter(object).applyChanges(changes)`. -/
def edit (changes : Option UpdateIpSettings) (object : VariantObject) :
    Except Exception VariantObject := do
  applyChanges changes (← new (some object))

/-- The changes have no static address, or no gateway for it. -/
def LacksStatic (e : Exception) : Prop :=
  e = .error "Must provide at least one static ip" ∨
    e = .error "Must provide a gateway for static ip"

/-- What becomes of a list: it is kept, removed or replaced. -/
def requestedList (data : Field (List Value)) (old : Option Variant) : Option Variant :=
  match data with
  | .undefined => old
  | .null => none
  | .value xs => some (toVariant "as" (.array xs))

/-- The block has the addresses and the gateway of the changes, and at least one of
the former. -/
def HasStatic (changes : UpdateIpSettings) (object : VariantObject) : Prop :=
  ∃ xs gateway, xs ≠ [] ∧ gateway ≠ "" ∧ changes.addressData = .value xs ∧
    changes.gateway = .string gateway ∧
    object.lookup "address-data" = some (addressVariant xs) ∧
    object.lookup "gateway" = some (toVariant "s" (.string gateway))

/-- A block after changes of it. -/
structure Edited (changes : UpdateIpSettings) (object object' : VariantObject) : Prop where
  method : object'.lookup "method" = some (toVariant "s" (.string "auto")) ∨
    object'.lookup "method" = some (toVariant "s" (.string "manual"))
  manual : object'.lookup "method" = some (toVariant "s" (.string "manual")) ↔
    HasStatic changes object'
  auto : object'.lookup "method" = some (toVariant "s" (.string "auto")) →
    object'.lookup "address-data" = none ∧ object'.lookup "gateway" = none
  dnsData : object'.lookup "dns-data" =
    requestedList changes.dnsData (object.lookup "dns-data")
  dnsSearch : object'.lookup "dns-search" =
    requestedList changes.dnsSearch (object.lookup "dns-search")

/-- The properties that are neither deprecated nor set are those of the old block. -/
structure Consistent (changes : Option UpdateIpSettings) (object object' : VariantObject) :
    Prop where
  deprecated : ∀ name ∈ deprecated, object'.lookup name = none
  edited : ∀ c, changes = some c → Edited c object object'
  kept : changes = none → ∀ name, name ∉ IpSettingsVariantAdapter.deprecated →
    object'.lookup name = object.lookup name
  others : ∀ name, name ∉ IpSettingsVariantAdapter.deprecated → name ∉ managed →
    object'.lookup name = object.lookup name

/-! ## Lists -/

theorem lookup_setDefined (name : String) (data : Field (List Value)) (object : VariantObject) :
    (setDefined (setList name) data object).lookup name =
      requestedList data (object.lookup name) := by
  cases data with
  | undefined => rfl
  | null => exact AList.lookup_erase ..
  | value xs => exact AList.lookup_insert object

theorem lookup_setLists_data (changes : UpdateIpSettings) (object : VariantObject) :
    (setLists changes object).lookup "dns-data" =
      requestedList changes.dnsData (object.lookup "dns-data") := by
  rw [setLists, setDnsSearch, lookup_setDefined_ne (by decide)]
  exact lookup_setDefined "dns-data" changes.dnsData object

theorem lookup_setLists_search (changes : UpdateIpSettings) (object : VariantObject) :
    (setLists changes object).lookup "dns-search" =
      requestedList changes.dnsSearch (object.lookup "dns-search") := by
  rw [setLists, setDnsSearch, lookup_setDefined, setDnsData, lookup_setDefined_ne (by decide)]

/-! ## The edited block -/

theorem Applied.lookup_lists {changes : UpdateIpSettings} {object object' : VariantObject}
    (h : Applied changes object object') {name : String}
    (hname : name ≠ "address-data" ∧ name ≠ "gateway" ∧ name ≠ "method") :
    object'.lookup name = (setLists changes object).lookup name := by
  obtain ⟨haddress, hgateway, hmethod⟩ := hname
  cases h with
  | auto =>
      rw [AList.lookup_insert_ne hmethod, AList.lookup_erase_ne hgateway,
        AList.lookup_erase_ne haddress]
  | manual =>
      rw [AList.lookup_insert_ne hmethod, AList.lookup_insert_ne hgateway,
        AList.lookup_insert_ne haddress]

theorem Applied.edited {changes : UpdateIpSettings} (htyped : changes.Typed)
    {object object' : VariantObject} (h : Applied changes object object') :
    Edited changes object object' := by
  have hdata : object'.lookup "dns-data" = _ :=
    (h.lookup_lists (by decide)).trans (lookup_setLists_data changes object)
  have hsearch : object'.lookup "dns-search" = _ :=
    (h.lookup_lists (by decide)).trans (lookup_setLists_search changes object)
  cases h with
  | auto =>
      refine ⟨.inl (AList.lookup_insert _), ⟨fun hmanual => ?_, ?_⟩, fun _ => ⟨?_, ?_⟩, hdata,
        hsearch⟩
      · rw [AList.lookup_insert] at hmanual
        simp [toVariant] at hmanual
      · rintro ⟨xs, gateway, _, _, _, _, haddress, _⟩
        rw [AList.lookup_insert_ne (by decide), AList.lookup_erase_ne (by decide),
          AList.lookup_erase] at haddress
        cases haddress
      · rw [AList.lookup_insert_ne (by decide), AList.lookup_erase_ne (by decide),
          AList.lookup_erase]
      · rw [AList.lookup_insert_ne (by decide), AList.lookup_erase]
  | @manual x xs _ haddress hgateway =>
      obtain ⟨gateway, hempty, hstring⟩ := htyped.gateway_eq hgateway
      refine ⟨.inr (AList.lookup_insert _), ⟨fun _ => ?_, fun _ => AList.lookup_insert _⟩,
        fun hauto => ?_, hdata, hsearch⟩
      · refine ⟨x :: xs, gateway, by simp, hempty, haddress, hstring, ?_, ?_⟩
        · rw [AList.lookup_insert_ne (by decide), AList.lookup_insert_ne (by decide),
            AList.lookup_insert]
        · rw [AList.lookup_insert_ne (by decide), AList.lookup_insert, hstring]
      · rw [AList.lookup_insert] at hauto
        simp [toVariant] at hauto

/-- The adapter refuses changes for two reasons only. -/
theorem applyChanges_error {changes : Option UpdateIpSettings} {object : VariantObject}
    {e : Exception} (h : applyChanges changes object = .error e) : LacksStatic e := by
  cases changes with
  | none => cases h
  | some changes =>
      cases hmethod : changes.method.isString "auto" with
      | true =>
          rw [applyChanges_auto hmethod] at h
          cases h
      | false =>
          rw [applyChanges_manual hmethod] at h
          cases haddress : changes.addressData with
          | undefined =>
              simp only [setManual, haddress, Except.error.injEq] at h
              exact .inl h.symm
          | null =>
              simp only [setManual, haddress, Except.error.injEq] at h
              exact .inl h.symm
          | value list =>
              cases list with
              | nil =>
                  simp only [setManual, haddress, Except.error.injEq] at h
                  exact .inl h.symm
              | cons x xs =>
                  cases hgateway : changes.gateway.isEmpty with
                  | true =>
                      simp only [setManual, haddress, hgateway, if_true, Except.error.injEq] at h
                      exact .inr h.symm
                  | false =>
                      rw [setManual_eq_ok haddress hgateway] at h
                      cases h

/-- Whatever the block was, it is consistent after its changes, and they are refused
for nothing but a missing address or gateway. -/
theorem edit_consistent {changes : Option UpdateIpSettings}
    (htyped : ∀ c, changes = some c → c.Typed) (object : VariantObject) :
    (∀ object', edit changes object = .ok object' → Consistent changes object object') ∧
      ∀ e, edit changes object = .error e → LacksStatic e := by
  have hedit : edit changes object = applyChanges changes (clean object) := rfl
  rw [hedit]
  refine ⟨fun object' h => ?_, fun e h => applyChanges_error h⟩
  have hothers : ∀ name, name ∉ managed → object'.lookup name = (clean object).lookup name :=
    fun name hname => applyChanges_lookup_of_notMem h hname
  refine ⟨fun name hname => ?_, fun c hc => ?_, fun hnone name hname => ?_, fun name hname hm => ?_⟩
  · exact lookup_applyChanges_deprecated h hname
  · subst hc
    have hedited := (applyChanges_iff.mp h).edited (htyped c rfl)
    have hdata : (clean object).lookup "dns-data" = object.lookup "dns-data" :=
      lookup_clean (by decide) object
    have hsearch : (clean object).lookup "dns-search" = object.lookup "dns-search" :=
      lookup_clean (by decide) object
    exact { hedited with
      dnsData := hdata ▸ hedited.dnsData
      dnsSearch := hsearch ▸ hedited.dnsSearch }
  · subst hnone
    cases h
    exact lookup_clean hname object
  · rw [hothers name hm, lookup_clean hname]

/-- A static address for a block with deprecated addresses. -/
def staticChanges : UpdateIpSettings where
  addressData := .value [{ address := .string "10.0.0.2", networkPrefix := .number 24 }]
  gateway := .string "10.0.0.1"
  method := .string "manual"
  dnsData := .null
  dnsSearch := .undefined

theorem edit_consistent_static :
    (∀ object', edit (some staticChanges) (AList.singleton "addresses" (toVariant "aau" .null)) =
        .ok object' →
      Consistent (some staticChanges) (AList.singleton "addresses" (toVariant "aau" .null))
        object') ∧
      ∀ e, edit (some staticChanges) (AList.singleton "addresses" (toVariant "aau" .null)) =
        .error e → LacksStatic e :=
  edit_consistent (fun c hc => by cases hc; exact .inr (.inr ⟨_, rfl⟩)) _

end IpSettingsVariantAdapter

end RpiNestApi.Network
