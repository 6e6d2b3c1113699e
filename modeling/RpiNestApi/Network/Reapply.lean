import Mathlib.Tactic.IntervalCases
import RpiNestApi.Network.Rollback

/-
Committed settings and the device.

An update answers with a checkpoint id and leaves it to a callback to apply the
settings to the device.  A commit of the id does not look for the callback.  The
settings it commits are in effect where the callback has ended by then and has
not logged an error.
-/

namespace RpiNestApi.Network

open Async

variable {η : Host} {saved : ObjectPath → VariantParentObject}

theorem NetworkService.confirmationUrl_injective (config : ApiConfig) :
    Function.Injective (NetworkService.confirmationUrl config) :=
  fun _ _ h => (String.append_right_inj _).mp h

/-- The request was answered with the checkpoint id. -/
def Returned (η : Host) (id : String) (t : Service.Thread) : Prop :=
  t.status = .done (.ok (.confirm (NetworkService.confirmationUrl η.config id)))

/-- The callback applies what the request has saved under its checkpoint. -/
def LeftBy (t : Service.Thread) (immediate : Immediate) : Prop :=
  t.Awaited (.getAppliedConnection immediate.devicePath immediate.currentSettings
    immediate.checkpointId)

/-- The callback waits to be run, or for its `Reapply`. -/
def Outstanding (g : Service.Config) (immediate : Immediate) : Prop :=
  immediate ∈ g.world.immediates ∨
    ∃ i t, g.threads i = some t ∧ t.call = .immediate ∧ t.status = .waits (.reapply immediate)

/-- The step commits the id. -/
def Commits (g h : Service.Config) (id : String) : Prop :=
  ∃ i t, h.threads i = some t ∧ t.call = .commit id ∧ t.status = .done (.ok .void) ∧
    g.threads i ≠ some t

/-- A commit of an id that a request was answered with comes after the `Reapply`
of what the request has saved. -/
def InEffect (η : Host) (g h : Service.Config) : Prop :=
  ∀ i t id, g.threads i = some t → Returned η id t → Commits g h id →
    ∃ immediate ∈ g.world.reapplied, immediate.checkpointId = id ∧ LeftBy t immediate

def CommittedInEffect (η : Host) (saved : ObjectPath → VariantParentObject)
    (as : List Service.Act) : Prop :=
  ∀ before a after s₁ s₂, as = before ++ a :: after →
    η.system.Run always (.init (World.init saved)) before s₁ → η.system.step s₁ a = some s₂ →
    InEffect η s₁.config s₂.config

/-- Where the destruction of a live checkpoint is answered, the callback of its
update has ended and has not logged an error. -/
def CommitsSettled (g : Service.Config) (a : Service.Act) : Prop :=
  ∀ i id, g.Runs i (.commit id) (some (.checkpointDestroy (checkpointPath id))) a →
    g.world.networkManager.find (checkpointPath id) ≠ none →
    ∀ immediate, immediate.checkpointId = id →
      ¬ Outstanding g immediate ∧ immediate ∉ g.world.logged

/-! ## No callback is lost -/

/-- The callback of every answered update waits, runs or has ended. -/
def CallbacksKept (η : Host) (g : Service.Config) : Prop :=
  ∀ i t id, g.threads i = some t → Returned η id t →
    ∃ immediate, immediate.checkpointId = id ∧ LeftBy t immediate ∧
      (Outstanding g immediate ∨ immediate ∈ g.world.logged ∨ immediate ∈ g.world.reapplied)

section Move

variable {g h : Service.Config} {a : Service.Act}

theorem callback_move (hmove : Move (Step η) η.env g a h) {immediate : Immediate}
    (hg : Outstanding g immediate ∨ immediate ∈ g.world.logged ∨
      immediate ∈ g.world.reapplied) :
    Outstanding h immediate ∨ immediate ∈ h.world.logged ∨ immediate ∈ h.world.reapplied := by
  rcases hmove.runs with ⟨i, c, o, past, st, hruns, hT, hi⟩ | ⟨e, rfl, he⟩
  · have hcallbacks := hT.callbacks
    rcases hg with (hwaiting | ⟨j, t, hj, hcall, hstatus⟩) | hlogged | hreapplied
    · rcases hcallbacks.waiting immediate hwaiting with hwaiting | ⟨rfl, rfl⟩
      · exact .inl (.inl hwaiting)
      · exact .inl (.inr ⟨i, _, hi, rfl, rfl⟩)
    · by_cases hij : j = i
      · subst hij
        cases hruns with
        | start hnone =>
            rw [hnone] at hj
            cases hj
        | @resume _ q _ hq =>
            rw [hq] at hj
            cases hj
            cases hstatus
            exact .inr (hcallbacks.running hcall immediate rfl).symm
      · obtain ⟨t', hj', hext⟩ := hmove.thread hj
        rcases hmove.ran hj' with hold | ⟨o', hruns', _⟩
        · rw [hj] at hold
          cases hold
          exact .inl (.inr ⟨j, t, hj', hcall, hstatus⟩)
        · exact absurd (hruns'.index hruns) hij
    · exact .inr (.inl (hcallbacks.logged immediate hlogged))
    · exact .inr (.inr (hcallbacks.reapplied immediate hreapplied))
  · cases e with
    | expire path =>
        obtain ⟨networkManager, _, hw⟩ := Option.map_eq_some_iff.mp he
        cases hmove with
        | env _ =>
            rw [Outstanding, ← hw]
            exact hg

theorem CallbacksKept.move (hg : CallbacksKept η g) (hmove : Move (Step η) η.env g a h) :
    CallbacksKept η h := by
  intro i t id hi hreturned
  rcases hmove.ran hi with hi₀ | ⟨o, hruns, hT⟩
  · obtain ⟨immediate, hid, hleft, hkept⟩ := hg i t id hi₀ hreturned
    exact ⟨immediate, hid, hleft, callback_move hmove hkept⟩
  · rw [show t.status = _ from hreturned] at hT
    obtain ⟨device, settings, id', rfl, hw, hurl⟩ := hT.confirmed
    obtain rfl := NetworkService.confirmationUrl_injective η.config hurl
    have hleft : t.Awaited (.getAppliedConnection device settings id) := by
      cases hruns with
      | resume hq =>
          obtain ⟨t', hi', hext⟩ := hmove.thread hq
          rw [hi] at hi'
          cases hi'
          exact hext.awaited _ (.inl rfl)
    let immediate : Immediate :=
      { checkpointId := id, devicePath := device, currentSettings := settings,
        currentVersion := g.world.version device }
    refine ⟨immediate, rfl, hleft, .inl (.inl ?_)⟩
    rw [hw]
    exact List.mem_append_right _ (List.mem_singleton.mpr rfl)

end Move

theorem run_callbacksKept {ok : Service.Config → Service.Act → Prop} {as : List Service.Act}
    {s : Service.State} (hrun : η.system.Run ok (.init (World.init saved)) as s) :
    CallbacksKept η s.config :=
  hrun.invariant (CallbacksKept η) (system_obeys η) (fun _ _ _ _ hmove hg => hg.move hmove)
    (.init _) fun i t id hi => by cases hi

/-- In every run in which a commit is answered only once the callback of its
update has ended without an error, what is committed is in effect. -/
theorem committed_in_effect {as : List Service.Act} {s : Service.State}
    (hrun : η.system.Run CommitsSettled (.init (World.init saved)) as s) :
    CommittedInEffect η saved as := by
  intro before a after s₁ s₂ has hbefore hstep i t id hi hreturned hcommits
  obtain ⟨j, t', hj, hcall, hdone, hnew⟩ := hcommits
  subst has
  obtain ⟨hbefore', hafter⟩ := hrun.split_at hbefore
  cases hafter with
  | cons hok _ _ =>
      have hobeys := (hbefore'.trace (system_obeys η) (.init _)).2
      have hmove := ((system_obeys η).move hobeys hstep).1
      obtain ⟨immediate, hid, hleft, hkept⟩ := run_callbacksKept hbefore' i t id hi hreturned
      rcases hmove.ran hj with hold | ⟨o, hruns, hT⟩
      · exact absurd hold hnew
      · rw [hcall] at hruns hT
        rw [hdone] at hT
        obtain ⟨rfl, hlive⟩ := hT.committed
        obtain ⟨houtstanding, hlogged⟩ := hok j id hruns hlive immediate hid
        exact ⟨immediate, (hkept.resolve_left houtstanding).resolve_left hlogged, hid, hleft⟩

/-- Only the step in which a commit is answered is restricted. -/
theorem CommitsSettled.of_start {g : Service.Config} {i : Nat} {c : Call} :
    CommitsSettled g (.start i c) := by
  intro j id hruns
  cases hruns

theorem CommitsSettled.of_resume {g : Service.Config} {i : Nat} {k : Choice} {t : Service.Thread}
    (hi : g.threads i = some t) (ht : ∀ path, t.status ≠ .waits (.checkpointDestroy path)) :
    CommitsSettled g (.resume i k) := by
  intro j id hruns
  cases hruns with
  | resume hj =>
      rw [hi] at hj
      cases hj
      exact absurd rfl (ht _)

/-- An update of "eth0" is answered, its callback applies the settings, and a
commit is about to be answered. -/
def appliedEth0 : List Service.Act :=
  runUpdate 0 ++ [.start 1 .immediate, .resume 1 .resolve] ++
    [.start 2 (.commit "1"), .resume 2 .resolve]

theorem committed_in_effect_eth0 : ∃ s,
    Host.sample.system.Run CommitsSettled (.init sampleWorld)
        (appliedEth0 ++ [.resume 2 .resolve]) s ∧
      CommittedInEffect Host.sample (fun _ => emptySettings)
        (appliedEth0 ++ [.resume 2 .resolve]) := by
  have hrun : Host.sample.system.Run CommitsSettled (.init sampleWorld) appliedEth0
      (sampleOutcome appliedEth0) := by
    refine System.run_outcome_of rfl fun n hn => ?_
    have hn17 : n < 17 := hn
    interval_cases n
    all_goals first
      | exact CommitsSettled.of_start
      | exact CommitsSettled.of_resume rfl fun path h => by cases h
  have hstep : ∃ s, Host.sample.system.step (sampleOutcome appliedEth0) (.resume 2 .resolve) =
      some s := ⟨_, rfl⟩
  have h0 : ∃ past r, (sampleOutcome appliedEth0).config.threads 0 =
      some { call := updateEth0, past, status := .done r } := ⟨_, _, rfl⟩
  have h1 : ∃ past r, (sampleOutcome appliedEth0).config.threads 1 =
      some { call := .immediate, past, status := .done r } := ⟨_, _, rfl⟩
  have h2 : ∃ past q, (sampleOutcome appliedEth0).config.threads 2 =
      some { call := .commit "1", past, status := .waits q } := ⟨_, _, rfl⟩
  have himmediates : (sampleOutcome appliedEth0).config.world.immediates = [] := rfl
  have hlogged : (sampleOutcome appliedEth0).config.world.logged = [] := rfl
  generalize sampleOutcome appliedEth0 = s₀ at hrun hstep h0 h1 h2 himmediates hlogged
  obtain ⟨s, hstep⟩ := hstep
  obtain ⟨past₀, r₀, h0⟩ := h0
  obtain ⟨past₁, r₁, h1⟩ := h1
  obtain ⟨past₂, q₂, h2⟩ := h2
  have hidle : ∀ i t, s₀.config.threads i = some t → t.call = .immediate →
      ∃ r, t.status = .done r := by
    refine hrun.forall_threads ?_
    show ∀ i ∈ [0, 1, 2], _
    simp [h0, h1, h2, updateEth0]
  have hsettled : CommitsSettled s₀.config (.resume 2 .resolve) := by
    intro i id _ _ immediate _
    rw [Outstanding, himmediates, hlogged]
    refine ⟨fun houtstanding => ?_, List.not_mem_nil⟩
    obtain ⟨j, t, hj, hcall, hstatus⟩ := houtstanding.resolve_left List.not_mem_nil
    obtain ⟨r, hr⟩ := hidle j t hj hcall
    cases hr.symm.trans hstatus
  have hrun' := hrun.snoc hsettled hstep
  exact ⟨s, hrun', committed_in_effect hrun'⟩

/-- An update of "eth0" is answered, its `Reapply` fails, and a commit is about to
be answered. -/
def failedReapply : List Service.Act :=
  runUpdate 0 ++ [.start 1 .immediate, .resume 1 (.reject (.error "Reapply failed"))] ++
    [.start 2 (.commit "1"), .resume 2 .resolve]

theorem committed_unapplied : ∃ s,
    Host.sample.system.Run always (.init sampleWorld) (failedReapply ++ [.resume 2 .resolve]) s ∧
      ¬ CommittedInEffect Host.sample (fun _ => emptySettings)
        (failedReapply ++ [.resume 2 .resolve]) := by
  have hrun : Host.sample.system.Run always (.init sampleWorld) failedReapply
      (sampleOutcome failedReapply) := System.run_outcome rfl
  have hstep : ∃ s', Host.sample.system.step (sampleOutcome failedReapply) (.resume 2 .resolve) =
      some s' ∧ ∃ past, s'.config.threads 2 =
        some { call := .commit "1", past, status := .done (.ok .void) } := ⟨_, rfl, _, rfl⟩
  have h0 : ∃ past url, (sampleOutcome failedReapply).config.threads 0 =
      some { call := updateEth0, past, status := .done (.ok (.confirm url)) } ∧
        url = NetworkService.confirmationUrl Host.sample.config "1" := ⟨_, _, rfl, rfl⟩
  have h2 : ∃ past q, (sampleOutcome failedReapply).config.threads 2 =
      some { call := .commit "1", past, status := .waits q } := ⟨_, _, rfl⟩
  have hnone : (sampleOutcome failedReapply).config.world.reapplied = [] := rfl
  generalize sampleOutcome failedReapply = s at hrun hstep h0 h2 hnone
  obtain ⟨s', hstep, past', hdone⟩ := hstep
  obtain ⟨past₀, url, h0, rfl⟩ := h0
  obtain ⟨past₂, q, h2⟩ := h2
  refine ⟨s', hrun.snoc trivial hstep, fun h => ?_⟩
  have hcommits : Commits s.config s'.config "1" := by
    refine ⟨2, _, hdone, rfl, rfl, ?_⟩
    rw [h2]
    simp
  obtain ⟨immediate, hmem, _⟩ := h _ _ [] s s' rfl hrun hstep 0 _ "1" h0 rfl hcommits
  rw [hnone] at hmem
  cases hmem

end RpiNestApi.Network
