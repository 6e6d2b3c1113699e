import RpiNestApi.Datastore.Settings

/-
Resetting all settings to their defaults.

The keys of the table of defaults are checked and written one after the other.  A key
that is found initialised ends the loop, but not what was written before it.
-/

namespace RpiNestApi.Settings

open Async

/-- `DEFAULT_SETTINGS`, or another table of keys with their default values. -/
abbrev Defaults := AList fun _ : String => Obj

/-- A key of the table. -/
abbrev SettingsKey (defaults : Defaults) : Type := { key : String // key ∈ defaults }

namespace Defaults

variable (defaults : Defaults)

/-- `DEFAULT_SETTINGS[key]`. -/
def value (key : SettingsKey defaults) : Obj :=
  (defaults.lookup key.1).get (AList.lookup_isSome.mpr key.2)

/-- `Object.keys(DEFAULT_SETTINGS)`. -/
def getAllSettingsKeys : List (SettingsKey defaults) := defaults.keys.attach

end Defaults

def SettingsRepository.resetDefaults {defaults : Defaults} (key : SettingsKey defaults) :
    Service Unit :=
  put key.1 (defaults.value key)

namespace MaintenanceService

variable {defaults : Defaults}

def notEmpty (key : String) : Exception :=
  .conflict ("Settings for \"" ++ key ++ "\" are not empty.")

/-- The loop over the keys. -/
def resetKeys (ignoreExising : Bool) : List (SettingsKey defaults) → Service Unit
  | [] => return ()
  | key :: keys => do
    let isInitialized ← SettingsRepository.isInitialized key.1
    if isInitialized && ignoreExising == false then
      throw (notEmpty key.1)
    else
      SettingsRepository.resetDefaults key
      resetKeys ignoreExising keys

def resetAllSettingsToDefaults (defaults : Defaults) (ignoreExising : Bool) : Service Unit :=
  resetKeys ignoreExising defaults.getAllSettingsKeys

end MaintenanceService

/-! ## What a reset is to do -/

/-- Every key of the table has its default, and no other key is changed. -/
def ResetTo (defaults : Defaults) (w w' : World) : Prop :=
  ∀ key, w' key = (defaults.lookup key).or (w key)

def AnyInitialized (defaults : Defaults) (w : World) : Prop :=
  ∃ key ∈ defaults, (w key).isSome = true

/-- All keys are reset, or where existing settings count and there are any, none is. -/
structure AllOrNothing (defaults : Defaults) (ignoreExising : Bool) (w : World)
    (r : Except Exception Unit) (w' : World) : Prop where
  reset : ignoreExising = true ∨ ¬ AnyInitialized defaults w → r = .ok () ∧ ResetTo defaults w w'
  refused : ignoreExising = false → AnyInitialized defaults w →
    (∃ key, r = .error (MaintenanceService.notEmpty key)) ∧ w' = w

/-- The first key of the table is initialised. -/
def FirstInitialized (defaults : Defaults) (w : World) : Prop :=
  ∃ key keys, defaults.keys = key :: keys ∧ (w key).isSome = true

/-! ## The loop -/

section Loop

variable {defaults : Defaults} {ignoreExising : Bool} {w : World}

theorem call_ends_iff {q : Await} {post : Except Exception Unit → World → Prop} :
    (Prog.call q : Service Unit).Ends answer Eq (fun _ => True) post w ↔ post (.ok ()) w := by
  constructor
  · intro h
    exact ((Prog.ends_call.mp h) w rfl).2 () _ trivial rfl
  · intro h
    refine Prog.ends_call_eq ⟨(), _, trivial, rfl⟩ fun c r _ hr => ?_
    cases hr
    exact h

/-- The store with the defaults of the keys. -/
def resetStore (keys : List (SettingsKey defaults)) (w : World) : World :=
  keys.foldl (fun w key => Function.update w key.1 (some (defaults.value key))) w

/-- Where the loop ends: at a key that is initialised, or after the last one. -/
def loopEnd (ignoreExising : Bool) :
    List (SettingsKey defaults) → World → Except Exception Unit × World
  | [], w => (.ok (), w)
  | key :: keys, w =>
    if (w key.1).isSome && ignoreExising == false then
      (.error (MaintenanceService.notEmpty key.1), w)
    else loopEnd ignoreExising keys (Function.update w key.1 (some (defaults.value key)))

/-- The loop comes to its end, and to no other. -/
theorem resetKeys_ends_iff (keys : List (SettingsKey defaults))
    {post : Except Exception Unit → World → Prop} :
    (MaintenanceService.resetKeys ignoreExising keys).Ends answer Eq (fun _ => True) post w ↔
      post (loopEnd ignoreExising keys w).1 (loopEnd ignoreExising keys w).2 := by
  induction keys generalizing w with
  | nil => exact Iff.rfl
  | cons key keys ih =>
      simp only [MaintenanceService.resetKeys, SettingsRepository.isInitialized,
        SettingsRepository.resetDefaults, SettingsRepository.put, Prog.read, Prog.modify,
        Prog.bind_def, Prog.pure_def, Prog.sync_bind, Prog.ret_bind, Prog.ends_bind,
        Prog.ends_sync, Prog.ends_ret, call_ends_iff, id, loopEnd]
      split
      · exact Iff.rfl
      · simp only [Prog.ends_sync, Prog.ends_bind, call_ends_iff]
        exact ih

theorem resetStore_of_mem {keys : List (SettingsKey defaults)} {key : SettingsKey defaults}
    (h : key ∈ keys) : resetStore keys w key.1 = some (defaults.value key) := by
  induction keys using List.reverseRecOn with
  | nil => cases h
  | append_singleton keys last ih =>
      rw [resetStore, List.foldl_append]
      by_cases hlast : key = last
      · subst hlast
        exact Function.update_self ..
      · have hkey : key.1 ≠ last.1 := fun he => hlast (Subtype.ext he)
        rw [List.foldl_cons, List.foldl_nil, Function.update_of_ne hkey]
        refine ih ((List.mem_append.mp h).resolve_right fun hmem => ?_)
        exact hlast (List.mem_singleton.mp hmem)

theorem resetStore_of_notMem {keys : List (SettingsKey defaults)} {name : String}
    (h : ∀ key ∈ keys, key.1 ≠ name) : resetStore keys w name = w name := by
  induction keys generalizing w with
  | nil => rfl
  | cons key keys ih =>
      rw [List.forall_mem_cons] at h
      rw [resetStore, List.foldl_cons]
      exact (ih h.2).trans (Function.update_of_ne h.1.symm ..)

theorem resetStore_getAllSettingsKeys :
    ResetTo defaults w (resetStore defaults.getAllSettingsKeys w) := by
  intro name
  by_cases hname : name ∈ defaults
  · have hlookup : defaults.lookup name = some (defaults.value ⟨name, hname⟩) :=
      (Option.some_get _).symm
    have hmem : (⟨name, hname⟩ : SettingsKey defaults) ∈ defaults.getAllSettingsKeys :=
      List.mem_attach ..
    have hstored : resetStore defaults.getAllSettingsKeys w name =
        some (defaults.value ⟨name, hname⟩) := resetStore_of_mem hmem
    rw [hstored, hlookup, Option.some_or]
  · have hlookup : defaults.lookup name = none := AList.lookup_eq_none.mpr hname
    rw [resetStore_of_notMem, hlookup, Option.none_or]
    rintro key _ rfl
    exact hname key.2

/-- Nothing ends the loop early. -/
theorem loopEnd_of_none {keys : List (SettingsKey defaults)} (hnodup : keys.Nodup)
    (h : ignoreExising = true ∨ ∀ key ∈ keys, w key.1 = none) :
    loopEnd ignoreExising keys w = (.ok (), resetStore keys w) := by
  induction keys generalizing w with
  | nil => rfl
  | cons key keys ih =>
      rw [List.nodup_cons] at hnodup
      have hgo : ((w key.1).isSome && ignoreExising == false) = false := by
        rcases h with rfl | hnone
        · simp
        · simp [hnone key List.mem_cons_self]
      rw [loopEnd, if_neg (Bool.not_eq_true _ ▸ hgo)]
      refine ih hnodup.2 (h.imp id fun hnone key' hkey' => ?_)
      have hne : key'.1 ≠ key.1 := fun he => hnodup.1 (Subtype.ext he ▸ hkey')
      rw [Function.update_of_ne hne, hnone key' (List.mem_cons_of_mem _ hkey')]

/-- The loop ends at the first key that is initialised.  The keys before it are
reset by then. -/
theorem loopEnd_of_some {keys : List (SettingsKey defaults)} (hnodup : keys.Nodup)
    (h : ∃ key ∈ keys, (w key.1).isSome = true) :
    ∃ done key rest, keys = done ++ key :: rest ∧ (w key.1).isSome = true ∧
      (∀ key ∈ done, w key.1 = none) ∧
      loopEnd false keys w = (.error (MaintenanceService.notEmpty key.1), resetStore done w) := by
  induction keys generalizing w with
  | nil =>
      obtain ⟨key, hkey, _⟩ := h
      cases hkey
  | cons key keys ih =>
      rw [List.nodup_cons] at hnodup
      cases hkey : (w key.1).isSome with
      | true =>
          refine ⟨[], key, keys, rfl, hkey, fun _ h => (by cases h), ?_⟩
          rw [loopEnd, if_pos (by simp [hkey])]
          rfl
      | false =>
          have hnone : w key.1 = none := by simpa using hkey
          have hne : ∀ key' ∈ keys, key'.1 ≠ key.1 :=
            fun key' hkey' he => hnodup.1 (Subtype.ext he ▸ hkey')
          have hsame : ∀ key' ∈ keys,
              Function.update w key.1 (some (defaults.value key)) key'.1 = w key'.1 :=
            fun key' hkey' => Function.update_of_ne (hne key' hkey') ..
          obtain ⟨key', hmem, hsome⟩ := h
          have hkey' : key' ∈ keys := by
            refine (List.mem_cons.mp hmem).resolve_left ?_
            rintro rfl
            simp [hnone] at hsome
          obtain ⟨done, last, rest, rfl, hlast, hdone, hend⟩ :=
            ih (w := Function.update w key.1 (some (defaults.value key))) hnodup.2
              ⟨key', hkey', by rw [hsame key' hkey', hsome]⟩
          refine ⟨key :: done, last, rest, rfl, ?_, ?_, ?_⟩
          · rwa [hsame last (by simp)] at hlast
          · rintro key'' hkey''
            rcases List.mem_cons.mp hkey'' with rfl | hkey''
            · exact hnone
            · rw [← hsame key'' (by simp [hkey'']), hdone key'' hkey'']
          · rw [loopEnd, if_neg (by simp [hnone]), hend]
            rfl

end Loop

theorem nodup_getAllSettingsKeys (defaults : Defaults) : defaults.getAllSettingsKeys.Nodup :=
  List.nodup_attach.mpr defaults.keys_nodup

/-- Where nothing is in the way, all keys are reset. -/
theorem allOrNothing_of_free {defaults : Defaults} {ignoreExising : Bool} {w : World}
    (hfree : ignoreExising = true ∨ ¬ AnyInitialized defaults w) :
    AllOrNothing defaults ignoreExising w
      (loopEnd ignoreExising defaults.getAllSettingsKeys w).1
      (loopEnd ignoreExising defaults.getAllSettingsKeys w).2 := by
  have hend := loopEnd_of_none (nodup_getAllSettingsKeys defaults)
    (hfree.imp id fun hnone key _ => by
      refine Option.not_isSome_iff_eq_none.mp fun hsome => ?_
      exact hnone ⟨key.1, key.2, hsome⟩)
  rw [hend]
  refine ⟨fun _ => ⟨rfl, resetStore_getAllSettingsKeys⟩, fun hfalse hany => ?_⟩
  rcases hfree with htrue | hnone
  · rw [hfalse] at htrue
    cases htrue
  · exact absurd hany hnone

/-- Where a key is initialised, and this counts, the reset is refused, and the store is as
before only if that is the first key. -/
theorem allOrNothing_false_iff {defaults : Defaults} {w : World}
    (hany : AnyInitialized defaults w) :
    AllOrNothing defaults false w (loopEnd false defaults.getAllSettingsKeys w).1
      (loopEnd false defaults.getAllSettingsKeys w).2 ↔ FirstInitialized defaults w := by
  have hexists : ∃ key ∈ defaults.getAllSettingsKeys, (w key.1).isSome = true := by
    obtain ⟨name, hname, hsome⟩ := hany
    exact ⟨⟨name, hname⟩, List.mem_attach .., hsome⟩
  obtain ⟨done, key, rest, hsplit, hkey, hdone, hend⟩ :=
    loopEnd_of_some (nodup_getAllSettingsKeys defaults) hexists
  have hnames : defaults.keys = (done ++ key :: rest).map Subtype.val := by
    rw [← hsplit, Defaults.getAllSettingsKeys, List.attach_map_subtype_val]
  rw [hend]
  cases done with
  | nil =>
      refine ⟨fun _ => ⟨_, _, hnames, hkey⟩, fun _ => ⟨fun hfree => ?_, fun _ _ => ?_⟩⟩
      · rcases hfree with hfalse | hnot
        · cases hfalse
        · exact absurd hany hnot
      · exact ⟨⟨key.1, rfl⟩, rfl⟩
  | cons first done =>
      have hnone : w first.1 = none := hdone first List.mem_cons_self
      constructor
      · intro h
        have hstore : resetStore (first :: done) w first.1 = w first.1 :=
          congrFun (h.refused rfl hany).2 first.1
        rw [resetStore_of_mem List.mem_cons_self, hnone] at hstore
        cases hstore
      · rintro ⟨key', keys, hfirst, hinit⟩
        cases hnames.symm.trans hfirst
        rw [hnone] at hinit
        cases hinit

/-- A reset is all or nothing where existing settings do not count, or none of the keys
is initialised, or the first one is. -/
theorem reset_all_or_nothing (defaults : Defaults) (ignoreExising : Bool) (w : World) :
    (MaintenanceService.resetAllSettingsToDefaults defaults ignoreExising).Ends answer Eq
        (fun _ => True) (AllOrNothing defaults ignoreExising w) w ↔
      ignoreExising = true ∨ ¬ AnyInitialized defaults w ∨ FirstInitialized defaults w := by
  rw [MaintenanceService.resetAllSettingsToDefaults, resetKeys_ends_iff]
  by_cases hfree : ignoreExising = true ∨ ¬ AnyInitialized defaults w
  · exact ⟨fun _ => hfree.imp id .inl, fun _ => allOrNothing_of_free hfree⟩
  · obtain ⟨hfalse, hany⟩ := not_or.mp hfree
    obtain rfl : ignoreExising = false := by simpa using hfalse
    rw [allOrNothing_false_iff (not_not.mp hany)]
    exact ⟨fun hfirst => .inr (.inr hfirst),
      fun h => (h.resolve_left hfalse).resolve_left hany⟩

/-- The table of the source. -/
def DEFAULT_SETTINGS : Defaults :=
  AList.insert "authentication" (AList.singleton "isAdminPasswordResetEnabled" (.boolean true)) <|
    AList.insert "metadata" ∅ <|
      AList.singleton "test"
        (AList.insert "foo" (.string "foo") (AList.singleton "bar" (.string "bar")))

/-- Only the metadata is initialised. -/
def metadataOnly : World := fun key => if key = "metadata" then some ∅ else none

/-- The settings of authentication are written before the reset is refused. -/
theorem reset_overwrites :
    ¬ (MaintenanceService.resetAllSettingsToDefaults DEFAULT_SETTINGS false).Ends answer Eq
      (fun _ => True) (AllOrNothing DEFAULT_SETTINGS false metadataOnly) metadataOnly := by
  rw [MaintenanceService.resetAllSettingsToDefaults, resetKeys_ends_iff]
  intro h
  have hstore := congrFun (h.refused rfl ⟨"metadata", by decide, rfl⟩).2 "authentication"
  have hwritten : (loopEnd false DEFAULT_SETTINGS.getAllSettingsKeys metadataOnly).2
      "authentication" = some (AList.singleton "isAdminPasswordResetEnabled" (.boolean true)) := rfl
  rw [hwritten] at hstore
  cases hstore

end RpiNestApi.Settings
