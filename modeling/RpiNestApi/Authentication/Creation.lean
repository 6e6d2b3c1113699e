import Mathlib.Tactic.IntervalCases
import RpiNestApi.Authentication.Writes

/-
Creation of accounts.

`UserRepository.create` looks the login up in the committed content and then
puts the record.  A put that is issued but not committed is invisible to the
next look, so that two requests may both find the login free.  Where no put of
the login waits for its commit when a request looks, every create writes over
nothing.
-/

namespace RpiNestApi

open Async

variable {π : Platform} {u : UserLogin}

/-- A call that creates `u` and finds no `u` has no put of `u` still to be
committed. -/
def CreatesCommitted (π : Platform) (u : UserLogin) (g : Service.Config) (a : Service.Act) :
    Prop :=
  ∀ i c password data, g.Runs i c (some (.hashPassword password)) a → c.Creates π u data →
    g.world.users.get u = none →
    ∀ n user, g.world.users.Wrote n u (some user) → g.world.users.Committed n

/-- Every create of `u` writes where there is no `u`. -/
def CreatesFresh (π : Platform) (u : UserLogin) (g : Service.Config) : Prop :=
  ∀ i t n data, g.threads i = some t → t.call.Creates π u data → t.Awaited (.written n) →
    g.world.users.version n u = none

theorem creates_fresh {as : List Service.Act} {s : Service.State}
    (hrun : π.system.Run (CreatesCommitted π u) Service.initial as s) :
    CreatesFresh π u s.config := by
  intro i t n data hi hc hn
  obtain ⟨_, s₁, a, o, login, v, _, hok, hruns, hissues, rfl, hext, _⟩ := run_issued hrun hi hn
  rw [State.config_world, hext.users.version (Nat.le_refl _)]
  generalize t.call = c at hc hruns hissues
  cases hissues with
  | create hc' hfree =>
      obtain rfl := hc'.unique hc
      exact WriteBehind.Store.latest_eq_none hfree (hok i _ _ _ hruns hc' hfree)
  | merge hc' => exact absurd hc' hc.not_updates
  | remove => exact hc.elim

/-- `t` has reported that it created `u`. -/
def Created (π : Platform) (u : UserLogin) (t : Service.Thread) : Prop :=
  t.status = .done (.ok .void) ∧ ∃ data, t.call.Creates π u data

/-- Creation of `u` is unique in the state `g`. -/
structure UniqueCreation (π : Platform) (u : UserLogin) (g : Service.Config) : Prop where
  /-- Two creates that both report success have a removal between their writes. -/
  once : ∀ i j t t', i ≠ j → g.threads i = some t → g.threads j = some t' →
    Created π u t → Created π u t' →
    ∃ l m n, t.Awaited (.written m) ∧ t'.Awaited (.written n) ∧
      g.world.users.Wrote l u none ∧ (m < l ∧ l < n ∨ n < l ∧ l < m)
  /-- A create never overwrites an account. -/
  fresh : CreatesFresh π u g
  /-- Where nothing updates `u`, its record is that of the last create to report
  success, until it is removed. -/
  stored : (∀ i t data, g.threads i = some t → ¬ t.call.Updates π u data) →
    ∀ i t, g.threads i = some t → Created π u t →
    ∃ n data created, t.Awaited (.written n) ∧ t.call.Creates π u data ∧
      ((∀ l, n < l → l < g.world.users.applied → ¬ g.world.users.Wrote l u none) →
        g.world.users.get u = some (data.record u created))
  /-- And there is no other record of `u`. -/
  source : (∀ i t data, g.threads i = some t → ¬ t.call.Updates π u data) →
    ∀ user, g.world.users.get u = some user →
    ∃ i t n data created, g.threads i = some t ∧ t.call.Creates π u data ∧
      t.Awaited (.written n) ∧ g.world.users.Committed n ∧ user = data.record u created

/-- The ticket of a create that reports success. -/
theorem Ledger.created {g : Service.Config} (hg : Ledger π g) {i : Nat} {t : Service.Thread}
    (hi : g.threads i = some t) (h : Created π u t) :
    ∃ n data created, t.Awaited (.written n) ∧ t.call.Creates π u data ∧
      g.world.users.Wrote n u (some (data.record u created)) ∧ g.world.users.Committed n := by
  obtain ⟨hdone, data, hc⟩ := h
  obtain ⟨n, login, v, hwrote, hcommitted⟩ := (hg.ticket i t hi).success hdone hc.writes
  obtain ⟨rfl, data', created, hc', rfl⟩ := hwrote.writer.of_creates hc
  exact ⟨n, data', created, hwrote.awaited, hc', hwrote.wrote, hcommitted⟩

theorem UniqueCreation.of_fresh {g : Service.Config} (hledger : Ledger π g)
    (hfresh : CreatesFresh π u g) : UniqueCreation π u g where
  once i j t t' hij hi hj ht ht' := by
    obtain ⟨m, data, created, hm, hc, hwm, _⟩ := hledger.created hi ht
    obtain ⟨n, data', created', hn, hc', hwn, _⟩ := hledger.created hj ht'
    have hmn : m ≠ n := by
      rintro rfl
      exact hij (hledger.unique i j t t' m hi hj hm hn)
    rcases Nat.lt_or_gt_of_ne hmn with hlt | hlt
    · obtain ⟨l, hml, hln, hw⟩ :=
        WriteBehind.Store.exists_removal hlt hwm (hfresh j t' n data' hj hc' hn)
      exact ⟨l, m, n, hm, hn, hw, .inl ⟨hml, hln⟩⟩
    · obtain ⟨l, hnl, hlm, hw⟩ :=
        WriteBehind.Store.exists_removal hlt hwn (hfresh i t m data hi hc hm)
      exact ⟨l, m, n, hm, hn, hw, .inr ⟨hnl, hlm⟩⟩
  fresh := hfresh
  stored hupdates i t hi ht := by
    obtain ⟨n, data, created, hn, hc, hwn, hcommitted⟩ := hledger.created hi ht
    refine ⟨n, data, created, hn, hc, fun hremoved => ?_⟩
    have hsucc : g.world.users.version (n + 1) u = some (data.record u created) := by
      rw [g.world.users.version_succ hwn, if_pos rfl]
    rw [WriteBehind.Store.get, ← hsucc]
    refine g.world.users.version_eq_of_untouched hcommitted fun m hm hma v hwm => ?_
    obtain ⟨j, t', hj, hwrote⟩ := hledger.writer m u v hwm
    cases hwrote.writer with
    | created hc' created' =>
        -- a later create needs a removal between the two
        obtain ⟨l, hnl, hlm, hw⟩ := WriteBehind.Store.exists_removal (Nat.lt_of_succ_le hm) hwn
          (hfresh j t' m _ hj hc' hwrote.awaited)
        exact hremoved l hnl (Nat.lt_trans hlm hma) hw
    | merged hc' => exact hupdates j t' _ hj hc'
    | removed => exact hremoved m (Nat.lt_of_succ_le hm) hma hwm
  source hupdates user huser := by
    obtain ⟨n, hn, hw, _⟩ := WriteBehind.Store.version_eq_some huser
    obtain ⟨i, t, hi, hwrote⟩ := hledger.writer n u _ hw
    generalize hv : some user = v at hwrote
    cases hwrote.writer with
    | created hc created =>
        cases hv
        exact ⟨i, t, n, _, created, hi, hc, hwrote.awaited, hn, rfl⟩
    | merged hc => exact absurd hc (hupdates i t _ hi)
    | removed => cases hv

/-- In every run in which a create that finds no `u` has no put of `u` waiting
for its commit, creation of `u` is unique. -/
theorem unique_creation {as : List Service.Act} {s : Service.State}
    (hrun : π.system.Run (CreatesCommitted π u) Service.initial as s) :
    UniqueCreation π u s.config :=
  .of_fresh (ledger hrun) (creates_fresh hrun)

/-- "bob" is created, not created again while it is there, removed and created anew. -/
def createsInTurn : List Service.Act :=
  [.start 0 (createBob "first"), .resume 0 (.resolve 0), .env .commit, .resume 0 (.resolve 0),
    .start 1 (createBob "second"), .resume 1 (.resolve 0), .start 2 (.remove "bob"), .env .commit,
    .resume 2 (.resolve 0), .start 3 (createBob "third"), .resume 3 (.resolve 0), .env .commit,
    .resume 3 (.resolve 0)]

theorem createsInTurn_committed (n : Nat) (hn : n < createsInTurn.length) :
    CreatesCommitted Platform.sample "bob"
      (Platform.sample.system.outcome Service.initial (createsInTurn.take n)).config
      createsInTurn[n] := by
  intro i c password data hruns _ _ m user hw
  by_contra hm
  have hpending := WriteBehind.Store.pending_iff.mpr ⟨m, _, Nat.le_of_not_lt hm, hw⟩
  have hn' : n < 13 := hn
  interval_cases n
  all_goals first
    | (cases hruns; done)
    | exact absurd hpending (by decide)

theorem unique_creation_single :
    ∃ s, Platform.sample.system.Run (CreatesCommitted Platform.sample "bob") Service.initial
      createsInTurn s ∧ UniqueCreation Platform.sample "bob" s.config ∧
        (∀ i ∈ [0, 3], ∃ t, s.config.threads i = some t ∧ Created Platform.sample "bob" t) ∧
        ∃ t e, s.config.threads 1 = some t ∧ t.status = .done (.error e) := by
  have hrun := System.run_outcome_of (by rfl) createsInTurn_committed
  refine ⟨_, hrun, unique_creation hrun, ?_, _, _, rfl, rfl⟩
  intro i hi
  simp only [List.mem_cons, List.not_mem_nil, or_false] at hi
  rcases hi with rfl | rfl
  · exact ⟨_, rfl, rfl, _, rfl, by decide, 0, rfl⟩
  · exact ⟨_, rfl, rfl, _, rfl, by decide, 0, rfl⟩

/-- Two requests look for "bob" before either put is committed. -/
def racingCreates : List Service.Act :=
  [.start 0 (createBob "first"), .start 1 (createBob "second"), .resume 0 (.resolve 0),
    .resume 1 (.resolve 0), .env .commit, .env .commit, .resume 0 (.resolve 0),
    .resume 1 (.resolve 0)]

theorem racing_creates :
    ∃ s, Platform.sample.system.Run always Service.initial racingCreates s ∧
      ¬ UniqueCreation Platform.sample "bob" s.config := by
  refine ⟨_, System.run_outcome rfl, fun h => ?_⟩
  obtain ⟨l, m, n, _, _, hw, _⟩ := h.once 0 1 _ _ (by decide) rfl rfl
    ⟨rfl, _, rfl, by decide, 0, rfl⟩ ⟨rfl, _, rfl, by decide, 0, rfl⟩
  have hl := hw.lt
  match l, hl with
  | 0, _ => cases hw
  | 1, _ => cases hw

end RpiNestApi
