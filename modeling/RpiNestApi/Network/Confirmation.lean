import RpiNestApi.Http.Routes
import RpiNestApi.Network.Isolation

/-
The link that confirms an update.

An update is answered with the URL of its checkpoint.  The id in it goes through the
router and back to NetworkManager, which knows the checkpoint by its path alone.
-/

namespace RpiNestApi

namespace Network

open Async Checkpointed Http

/-- The call that a request makes of `NetworkController.commitChanges`. -/
def commitChanges (request : Request) : Option Call := do
  let route ← (dispatch routes request).toOption
  let parts ← pathParts request.path
  let params ← pathParams route.path parts
  match route.handler with
  | .network .commitChanges => (params.lookup "checkpointId").map .commit
  | _ => none

variable {η : Host} {device : ObjectPath}

/-- A POST to the URL commits the checkpoint, and with another method nothing is found. -/
def LinksTo (η : Host) (url id : String) : Prop :=
  ∃ path, url = η.config.protocol ++ "://" ++ η.config.hostname ++ ":" ++ η.config.port ++ path ∧
    (∀ authorization,
      commitChanges { method := .post, path, authorization } = some (.commit id)) ∧
    ∀ method authorization, method ≠ .post →
      dispatch routes { method, path, authorization } = .error .notFound

/-- The settings of the device stand, and every other device is left alone. -/
structure SettingsStand (η : Host) (device : ObjectPath) (settings : VariantParentObject)
    (w w' : World) : Prop where
  saved : w'.networkManager.saved (η.profile device) = settings
  bare : w'.networkManager.Bare device
  others : ∀ device', device' ≠ device → Untouched η device' w w'

/-- The URL that the thread `i` was answered with leads to what it has saved, and to nothing
else. -/
structure Confirms (η : Host) (g h : Service.Config) (i : Nat) (t : Service.Thread) (url : String) :
    Prop where
  link : ∃ device settings id, t.call.Names η device ∧
    t.Awaited (.getAppliedConnection device settings id) ∧ LinksTo η url id ∧
      (Commits g h id → SettingsStand η device settings g.world h.world)
  unique : ∀ j t', g.threads j = some t' → t'.status = .done (.ok (.confirm url)) → j = i

/-- Checkpoints expire only after their request was answered, and only ids that were returned
are committed. -/
def Orderly (η : Host) (g : Service.Config) (a : Service.Act) : Prop :=
  ExpiresAnswered g a ∧ CommitsReturned η g a

/-! ## The link -/

def commitPath : List Segment :=
  [.literal "device", .literal "network", .literal "commit", .param "checkpointId"]

def commitRoute : Route where
  method := .post
  path := commitPath
  handler := .network .commitChanges
  metadata := undecorated
  controllerMetadata := undecorated

theorem commitRoute_mem : commitRoute ∈ routes := by decide +kernel

/-- Whatever fits the path of a link is a POST. -/
theorem post_of_meets : ∀ route ∈ routes, meetPaths route.path commitPath = true →
    route.method = .post := by
  decide +kernel

section Link

variable {id : String} (hid : PathElement id)
include hid

theorem pathParts_link :
    pathParts ("/device/network/commit/" ++ id) = some ["device", "network", "commit", id] := by
  have hsplit : split '/' ("/device/network/commit/" ++ id) =
      ["", "device", "network", "commit", id] := by
    have hpath : ("/device/network/commit/" ++ id).toList =
        [] ++ '/' :: ("device".toList ++ '/' :: ("network".toList ++ '/' ::
          ("commit".toList ++ '/' :: id.toList))) := by
      simp
    rw [split, hpath]
    repeat rw [List.splitOn_append_cons_self]
    rw [List.splitOn_eq_singleton (hid.notMem (by decide) (by decide))]
    simp [List.splitOn_eq_singleton]
  rw [pathParts, hsplit]
  simp [hid.ne_empty]

theorem fitsPath_link : fitsPath commitPath ["device", "network", "commit", id] = true := by
  have hparam : (Segment.param "checkpointId").fits id = true := by
    simp [Segment.fits, hid.ne_empty]
  simp only [commitPath, fitsPath, hparam]
  decide

theorem decodes_link : Percent.decodeURIComponent id.toList = some id.toList :=
  Percent.decodeURIComponent_of_notMem (hid.notMem (by decide) (by decide))

/-- The path of a link is routed by the first route that fits. -/
theorem dispatch_link_eq (method : Method) (authorization : Option String) :
    dispatch routes { method, path := "/device/network/commit/" ++ id, authorization } =
      (routes.find? fun route => route.fits method ["device", "network", "commit", id]).elim
        (.error .notFound) .ok := by
  have hdecodes : ["device", "network", "commit", id].all decodes = true := by
    have hid' : decodes id = true := by
      rw [decodes, decodes_link hid]
      rfl
    simp only [List.all_cons, List.all_nil, hid', Bool.and_true]
    decide +kernel
  simp only [dispatch, pathParts_link hid]
  rw [next_eq routes_plain, if_pos hdecodes]

theorem dispatch_link (authorization : Option String) :
    dispatch routes { method := .post, path := "/device/network/commit/" ++ id, authorization } =
      .ok commitRoute := by
  have hfits : commitRoute.fits .post ["device", "network", "commit", id] = true := by
    rw [Route.fits, Bool.and_eq_true]
    exact ⟨rfl, fitsPath_link hid⟩
  rw [dispatch_link_eq hid]
  cases hfind : routes.find? fun route => route.fits .post ["device", "network", "commit", id] with
  | none => exact absurd hfits (List.find?_eq_none.mp hfind _ commitRoute_mem)
  | some route =>
      have hfits' := List.find?_some hfind
      rw [routes_unique (List.mem_of_find?_eq_some hfind) commitRoute_mem hfits' hfits]
      rfl

theorem commitChanges_link (authorization : Option String) :
    commitChanges { method := .post, path := "/device/network/commit/" ++ id, authorization } =
      some (.commit id) := by
  have hparams : pathParams commitPath ["device", "network", "commit", id] =
      some [("checkpointId", id)] := by
    simp only [commitPath, pathParams, decodes_link hid, Option.bind_eq_bind, Option.bind_some,
      String.ofList_toList]
    rfl
  simp only [commitChanges, dispatch_link hid, pathParts_link hid, commitRoute, hparams,
    Except.toOption, Option.bind_eq_bind, Option.bind_some]
  rfl

/-- No other method is meant. -/
theorem dispatch_link_of_ne {method : Method} (hmethod : method ≠ .post)
    (authorization : Option String) :
    dispatch routes { method, path := "/device/network/commit/" ++ id, authorization } =
      .error .notFound := by
  have hnone : (routes.find? fun route =>
      route.fits method ["device", "network", "commit", id]) = none := by
    rw [List.find?_eq_none]
    intro route hroute hfits
    rw [Route.fits, Bool.and_eq_true] at hfits
    have hmeets := meetPaths_of_fits hfits.2 (fitsPath_link hid)
    have hpost := hfits.1
    rw [post_of_meets route hroute hmeets] at hpost
    cases method with
    | post => exact hmethod rfl
    | _ => cases hpost
  rw [dispatch_link_eq hid, hnone]
  rfl

/-- The URL of an id. -/
theorem linksTo_confirmationUrl (η : Host) :
    LinksTo η (NetworkService.confirmationUrl η.config id) id := by
  refine ⟨"/device/network/commit/" ++ id, ?_, commitChanges_link hid,
    fun method authorization hmethod => dispatch_link_of_ne hid hmethod authorization⟩
  simp only [NetworkService.confirmationUrl, String.append_assoc]

end Link

/-! ## What is committed -/

/-- What an update has saved is saved as long as its checkpoint is live. -/
def SavedWhileLive (η : Host) (g : Service.Config) : Prop :=
  ∀ i t device settings id, g.threads i = some t →
    t.Awaited (.getAppliedConnection device settings id) → Alive g device id →
    g.world.networkManager.saved (η.profile device) = settings

section Move

variable {g h : Service.Config} {a : Service.Act} {saved : ObjectPath → VariantParentObject}

/-- Only the update that made the live checkpoint of a device saves settings of it. -/
theorem saved_eq_of_saves (hg : Numbered η g) (hguarded : Guarded η saved g) {i j : Nat}
    {t t' : Service.Thread} {device' : ObjectPath} {settings settings' : VariantParentObject}
    {id id' : String} (hold : Holds η g i t device settings id) (halive : Alive g device id)
    (hj : g.threads j = some t')
    (hstatus : t'.status = .waits (.update (η.profile device') settings' id'))
    (hdevice : device' = device) : settings' = settings := by
  subst hdevice
  rcases hguarded.saving j t' _ settings' id' hj hstatus with ⟨c, hc, hid, hkey⟩ | hcommitted
  · have halive' : Alive g device' id' := ⟨c, hc, hid, η.profile_injective hkey⟩
    obtain rfl := halive'.unique halive
    exact (hg.unique ⟨hj, .inl hstatus⟩ hold).2.2
  · exact absurd hcommitted (hg.not_committed hj hstatus)

theorem SavedWhileLive.move (hs : SavedWhileLive η g) (hg : Numbered η g)
    (hguarded : Guarded η saved g) (hmove : Move (Step η) η.env g a h) :
    SavedWhileLive η h := by
  rintro i t device settings id hi hq ⟨c, hc, hid, hkey⟩
  rcases hmove.awaited hi hq with ⟨t₀, hi₀, hext, hq₀⟩ | ⟨hstatus, o, hruns, hT⟩
  · have hold : Holds η g i t₀ device settings id :=
      ⟨hi₀, (hg.order i t₀ hi₀).applied device settings id hq₀⟩
    have hc₀ : c ∈ g.world.networkManager.live := by
      rcases live_cases hmove hc with hc₀ | ⟨_, _, _, id', hid', hnew⟩
      · exact hc₀
      · obtain rfl := checkpointPath_injective (hid.symm.trans hid')
        exact absurd hnew (hg.fresh hold)
    have halive : Alive g device id := ⟨c, hc₀, hid, hkey⟩
    have hsaved := hs i t₀ device settings id hi₀ hq₀ halive
    rcases hmove.runs with ⟨j, call, o, past, st, hruns, hT, _⟩ | ⟨e, rfl, he⟩
    · cases hT.effect with
      | none hsame _ => rw [hsame, hsaved]
      | create hcreate =>
          rw [(Store.create_eq_some hcreate).2.1, hsaved]
      | @save _ _ device' settings' id' _ ho hsave =>
          rw [hsave, Store.saved_save]
          by_cases hdevice : device' = device
          · subst ho
            cases hruns with
            | resume hj =>
                rw [hdevice, Function.update_self]
                exact saved_eq_of_saves hg hguarded hold halive hj rfl hdevice
          · rw [Function.update_of_ne fun hprofile =>
              hdevice (η.profile_injective hprofile).symm, hsaved]
      | destroy _ hdestroy =>
          obtain ⟨_, _, _, hrelease⟩ := Store.destroy_eq_some hdestroy
          rw [hrelease]
          exact hsaved
    · cases e with
      | expire path =>
          obtain ⟨networkManager, hexpire, hw⟩ := Option.map_eq_some_iff.mp he
          obtain ⟨c', _, _, hrelease⟩ := Store.expire_eq_some hexpire
          rw [← hw, hrelease] at hc ⊢
          have hne : device ≠ c'.key := hkey ▸ (Store.mem_release.mp hc).2
          refine (Function.update_of_ne (fun hprofile => ?_) ..).trans hsaved
          exact hne (η.profile_injective hprofile)
  · rw [hT.saves.2, Store.saved_save, Function.update_self]

/-- The checkpoint that is destroyed is the one of the update. -/
theorem settingsStand_of_commits (hs : SavedWhileLive η g) (hg : Numbered η g)
    (hmove : Move (Step η) η.env g a h) {i : Nat} {t : Service.Thread}
    {settings : VariantParentObject} {id : String} (hi : g.threads i = some t)
    (hq : t.Awaited (.getAppliedConnection device settings id)) (hcommits : Commits g h id) :
    SettingsStand η device settings g.world h.world := by
  have hold : Holds η g i t device settings id :=
    ⟨hi, (hg.order i t hi).applied device settings id hq⟩
  obtain ⟨j, t', hj, hcall, hdone, hnew⟩ := hcommits
  rcases hmove.ran hj with hj₀ | ⟨o, _, hT⟩
  · exact absurd hj₀ hnew
  · rw [hcall, hdone] at hT
    obtain ⟨c, hc, hid, hrelease⟩ := Store.destroy_eq_some hT.destroys
    obtain rfl := hg.key hold hc hid
    have hsaved := hs i t c.key settings id hi hq ⟨c, hc, hid, rfl⟩
    exact
      { saved := by rw [hrelease]; exact hsaved
        bare := hrelease ▸ bare_release
        others := fun device' hdevice' => .release hdevice'.symm hrelease }

/-- The answer of an update is the URL of an id. -/
def ReturnsUrl (η : Host) (t : Service.Thread) : Prop :=
  ∀ url, t.status = .done (.ok (.confirm url)) → ∃ id, Returned η id t ∧
    url = NetworkService.confirmationUrl η.config id

theorem Step.returnsUrl {c : Call} {o : Option Await} {w w' : World} {past : List Await}
    {st : Status Await Exception Response} (hT : Step η c o w w' st) :
    ReturnsUrl η { call := c, past, status := st } := by
  rintro url hdone
  obtain rfl : st = _ := hdone
  obtain ⟨_, _, id, _, _, rfl⟩ := hT.confirmed
  exact ⟨id, rfl, rfl⟩

/-- What holds in every state of an orderly run. -/
structure LinksKept (η : Host) (saved : ObjectPath → VariantParentObject) (g : Service.Config) :
    Prop where
  guarded : Guarded η saved g
  numbered : Numbered η g
  savedWhileLive : SavedWhileLive η g
  returnsUrl : ∀ i t, g.threads i = some t → ReturnsUrl η t

theorem LinksKept.init :
    LinksKept η saved (State.init (World.init saved) : Service.State).config where
  guarded := .init
  numbered := .init
  savedWhileLive i t _ _ _ hi := by cases hi
  returnsUrl i t hi := by cases hi

theorem LinksKept.move (hg : LinksKept η saved g) (hok : Orderly η g a)
    (hmove : Move (Step η) η.env g a h) : LinksKept η saved h where
  guarded := hg.guarded.move hok.1 hmove
  numbered := hg.numbered.move hok.2 hmove
  savedWhileLive := hg.savedWhileLive.move hg.numbered hg.guarded hmove
  returnsUrl := hmove.threads (P := fun _ t => ReturnsUrl η t) (fun _ ht => ht)
    (fun _ _ _ hT => hT.returnsUrl) (fun _ _ _ _ _ _ hT => hT.returnsUrl) hg.returnsUrl

theorem LinksKept.confirms (hg : LinksKept η saved g) (hmove : Move (Step η) η.env g a h) {i : Nat}
    {t : Service.Thread} {url : String} (hi : g.threads i = some t)
    (hdone : t.status = .done (.ok (.confirm url))) : Confirms η g h i t url := by
  obtain ⟨id, hreturned, rfl⟩ := hg.returnsUrl i t hi url hdone
  have horder := hg.numbered.order i t hi
  obtain ⟨device, settings, hq⟩ := horder.returned id hreturned
  have hupdate := horder.applied device settings id hq
  have hold : Holds η g i t device settings id := ⟨hi, hupdate⟩
  refine ⟨⟨device, settings, id, horder.names_update hupdate, hq, ?_, fun hcommits =>
    settingsStand_of_commits hg.savedWhileLive hg.numbered hmove hi hq hcommits⟩,
    fun j t' hj hreturned' => ?_⟩
  · obtain ⟨n, _, rfl⟩ := hg.numbered.number hold
    exact linksTo_confirmationUrl (η.element n) η
  · have horder' := hg.numbered.order j t' hj
    obtain ⟨device', settings', hq'⟩ := horder'.returned id hreturned'
    have hold' : Holds η g j t' device' settings' id :=
      ⟨hj, horder'.applied device' settings' id hq'⟩
    exact (hg.numbered.unique hold' hold).1

/-- In every orderly run, the URL of an update confirms this update and nothing else. -/
theorem confirmation_link {as : List Service.Act} {s s' : Service.State}
    (hrun : η.system.Run (Orderly η) (.init (World.init saved)) as s)
    (hstep : η.system.step s a = some s') {i : Nat} {t : Service.Thread} {url : String}
    (hi : s.config.threads i = some t) (hdone : t.status = .done (.ok (.confirm url))) :
    Confirms η s.config s'.config i t url := by
  have hkept : LinksKept η saved s.config :=
    hrun.invariant (LinksKept η saved) (system_obeys η)
      (fun _ _ _ hok hmove hg => hg.move hok hmove) (.init _) .init
  have hobeys := (hrun.trace (system_obeys η) (.init _)).2
  exact hkept.confirms ((system_obeys η).move hobeys hstep).1 hi hdone

end Move

/-- An update of "eth0" is answered, its callback has run, and its commit is answered. -/
theorem confirmation_link_eth0 : ∃ s s' t,
    Host.sample.system.Run (Orderly Host.sample) (.init sampleWorld) appliedEth0 s ∧
      Host.sample.system.step s (.resume 2 .resolve) = some s' ∧ s.config.threads 0 = some t ∧
        Confirms Host.sample s.config s'.config 0 t
          "http://raspberrypi:3000/device/network/commit/1" := by
  have hrun : Host.sample.system.Run (Orderly Host.sample) (.init sampleWorld) appliedEth0
      (sampleOutcome appliedEth0) := by
    refine System.run_outcome_of rfl fun n hn => ?_
    have hn17 : n < 17 := hn
    interval_cases n
    all_goals first
      | exact ⟨trivial, trivial⟩
      | exact ⟨trivial, 0, _, rfl, rfl⟩
  have hstep : ∃ s', Host.sample.system.step (sampleOutcome appliedEth0) (.resume 2 .resolve) =
      some s' := ⟨_, rfl⟩
  have h0 : ∃ t, (sampleOutcome appliedEth0).config.threads 0 = some t ∧
      t.status = .done (.ok (.confirm "http://raspberrypi:3000/device/network/commit/1")) :=
    ⟨_, rfl, rfl⟩
  generalize sampleOutcome appliedEth0 = s at hrun hstep h0
  obtain ⟨s', hstep⟩ := hstep
  obtain ⟨t, hi, hdone⟩ := h0
  exact ⟨s, s', t, hrun, hstep, hi, confirmation_link hrun hstep hi hdone⟩

end Network

end RpiNestApi
