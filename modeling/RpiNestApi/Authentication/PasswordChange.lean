import Mathlib.Tactic.IntervalCases
import RpiNestApi.Authentication.Credentials

/-
Password changes.

`updatePassword` compares the current password with the record it reads when it
starts.  Two more awaits later it merges the new hash into whatever record is
there, and awaits once more before it puts the merge.  Where, from that first
read to its own write, the account is only written by updates that leave the
password as it is, the change replaces a record that has the password it was
authenticated against.  It may also be removed until the change reads it again: the change
then finds no account, or there is a removal that it does not see.
-/

namespace RpiNestApi

open Async

variable {π : Platform} {u : UserLogin}

/-- `t` changes the password of `u`, starts from a record its password matches,
and has yet to write.  It has not found the account gone. -/
structure Changing (π : Platform) (u : UserLogin) (t : Service.Thread) : Prop where
  authenticates : ∃ currentPassword newPassword user,
    t.call = .updatePassword u currentPassword newPassword ∧ t.Awaited (.user u (some user)) ∧
      π.bcrypt.compare currentPassword user.passwordHash = true
  running : ∀ r, t.status ≠ .done r
  unwritten : ∀ n, ¬ t.Awaited (.written n)
  found : ∀ data, t.status ≠ .waits (.updating u data none)

/-- `t` has read the record of `u` that it merges, and has yet to write. -/
def Merging (u : UserLogin) (t : Service.Thread) : Prop :=
  ∃ data user, t.status = .waits (.updating u data (some user))

/-- The call is an `update`, and stores `v` over `prev` with its password. -/
structure KeepsPassword (c : Call) (prev v : Option IUserData) : Prop where
  update : ∃ updateUser, c = .update updateUser
  passwordHash : v.map IUserData.passwordHash = prev.map IUserData.passwordHash

/-- The write `n` of `v` under `u` has kept the password. -/
def KeptPassword (u : UserLogin) (g : Service.Config) (n : Nat) (v : Option IUserData) : Prop :=
  ∃ i t, g.threads i = some t ∧ t.Awaited (.written n) ∧
    KeepsPassword t.call (g.world.users.version n u) v

/-- While a password change of `u` has yet to write, every other write of `u`
keeps the password, those outstanding at its start included, or removes `u` before the
change reads it again.  It does not read a record that is being removed. -/
structure ChangesAlone (π : Platform) (u : UserLogin) (g : Service.Config) (a : Service.Act) :
    Prop where
  settled : ∀ i currentPassword newPassword user,
    g.Runs i (.updatePassword u currentPassword newPassword) none a →
    g.world.users.get u = some user →
    π.bcrypt.compare currentPassword user.passwordHash = true →
    ∀ n v, g.world.users.Wrote n u v → ¬ g.world.users.Committed n →
      KeptPassword u g n v ∨ v = none
  alone : ∀ i c o v, g.Runs i c o a → Issues π g.world c o u v →
    ∀ j t, j ≠ i → g.threads j = some t → Changing π u t →
      KeepsPassword c (g.world.users.latest u) v ∨ v = none ∧ ¬ Merging u t
  present : ∀ i currentPassword newPassword,
    g.Runs i (.updatePassword u currentPassword newPassword) (some (.hashPassword newPassword)) a →
    g.world.users.get u ≠ none → g.world.users.latest u ≠ none

/-- The call `c` of the thread `i` started after the write `n` was committed. -/
def StartedAfter (π : Platform) (as : List Service.Act) (i : Nat) (c : Call) (n : Nat) : Prop :=
  ∃ before after s₀, as = before ++ .start i c :: after ∧
    π.system.Run always Service.initial before s₀ ∧ s₀.world.users.Committed n

/-- `t` has reported that it changed the password of `u`. -/
def Changed (u : UserLogin) (currentPassword newPassword : String) (t : Service.Thread) : Prop :=
  t.call = .updatePassword u currentPassword newPassword ∧ t.status = .done (.ok .void)

/-- Password changes of `u` are compare-and-set in the run `as` to `g`. -/
structure CompareAndSet (π : Platform) (u : UserLogin) (as : List Service.Act)
    (g : Service.Config) : Prop where
  /-- A change replaces a record that has the password it presented. -/
  replaces : ∀ i t currentPassword newPassword, g.threads i = some t →
    Changed u currentPassword newPassword t →
    ∃ n user, t.Awaited (.written n) ∧ g.world.users.version n u = some user ∧
      π.bcrypt.compare currentPassword user.passwordHash = true
  /-- Of two changes one started after the write of the other was committed. -/
  exclusive : ∀ i j t t' p p' q q', i ≠ j → g.threads i = some t → g.threads j = some t' →
    Changed u p q t → Changed u p' q' t' →
    ∃ m n, t.Awaited (.written m) ∧ t'.Awaited (.written n) ∧
      (m < n ∧ StartedAfter π as j t'.call m ∨ n < m ∧ StartedAfter π as i t.call n)
  /-- A change over a record of `u` that was created anew started after that
  creation was committed. -/
  recreated : ∀ i j t t' currentPassword newPassword data n l, g.threads i = some t →
    Changed u currentPassword newPassword t → t.Awaited (.written n) →
    g.threads j = some t' → t'.call.Creates π u data → t'.Awaited (.written l) → l < n →
    StartedAfter π as i t.call l

theorem KeptPassword.move {g h : Service.Config} {a : Service.Act} {n : Nat}
    {v : Option IUserData} (hkept : KeptPassword u g n v) (hg : Ledger π g)
    (hmove : Move (Step π) Platform.env g a h) : KeptPassword u h n v := by
  obtain ⟨i, t, hi, hn, hkeeps⟩ := hkept
  obtain ⟨t', hi', hext⟩ := hmove.thread hi
  have hversion := ((extends_moves π).move hmove).users.version
    (Nat.le_of_lt (hg.awaited_lt hi hn)) u
  refine ⟨i, t', hi', hext.awaited _ hn, ?_⟩
  rw [hext.call, hversion]
  exact hkeeps

/-! ## What a change may do -/

/-- A change that has found no record is rejected. -/
theorem Step.of_missing {c : Call} {data : UpdateUserData} {w w' : World}
    {st : Status Await Exception Response}
    (h : Step π c (some (.updating u data none)) w w' st) : ∃ r, st = .done r := by
  cases h with
  | reject e => exact ⟨_, rfl⟩
  | settingsPut hc => cases c <;> exact hc.elim

/-- A change reads the committed record when its new password is hashed. -/
theorem Step.of_merging {c : Call} {p q : String} (hcall : c = .updatePassword u p q)
    {o : Option Await} {w w' : World} {st : Status Await Exception Response}
    (h : Step π c o w w' st) {data : UpdateUserData} {user : IUserData}
    (hst : st = .waits (.updating u data (some user))) :
    o = some (.hashPassword q) ∧ w.users.get u = some user := by
  subst hcall
  cases h with
  | newRead salt =>
      injection hst with hst
      injection hst with _ _ hget
      exact ⟨rfl, hget⟩
  | _ => cases hst

/-- A change that writes has read the record that it merges. -/
theorem merging_of_issues {g : Service.Config} {a : Service.Act} {i : Nat} {t : Service.Thread}
    {p q : String} (hi : g.threads i = some t) {c : Call} (hcall : c = .updatePassword u p q)
    {o : Option Await} (hruns : g.Runs i c o a) {login : UserLogin} {v : Option IUserData}
    (hissues : Issues π g.world c o login v) : Merging u t := by
  subst hcall
  cases hissues with
  | create hc => exact hc.elim
  | merge hc =>
      obtain ⟨rfl, _⟩ := hc
      cases hruns with
      | resume hi₀ =>
          rw [hi] at hi₀
          cases hi₀
          exact ⟨_, _, rfl⟩

/-- The writes of `u` from `first` on that come before that of the thread `i`
have kept the password.  Until it reads again they may also be removals. -/
structure PasswordHeld (π : Platform) (u : UserLogin) (i first : Nat) (g : Service.Config) :
    Prop where
  ledger : Ledger π g
  first_le : first ≤ g.world.users.writes.length
  thread : ∃ t currentPassword newPassword user, g.threads i = some t ∧
    t.call = .updatePassword u currentPassword newPassword ∧ t.Awaited (.user u (some user)) ∧
    π.bcrypt.compare currentPassword user.passwordHash = true ∧
    (Changing π u t → ∀ l v, first ≤ l → g.world.users.Wrote l u v →
      KeptPassword u g l v ∨ v = none ∧ ¬ Merging u t) ∧
    ∀ n, t.Awaited (.written n) →
      first ≤ n ∧ ∀ l v, first ≤ l → l < n → g.world.users.Wrote l u v → KeptPassword u g l v

/-- Over nothing there is no record that has the password. -/
theorem KeptPassword.eq_none {g : Service.Config} {n : Nat} {v : Option IUserData}
    (h : KeptPassword u g n v) (hnone : g.world.users.version n u = none) : v = none := by
  obtain ⟨_, _, _, _, hkeeps⟩ := h
  have hhash := hkeeps.passwordHash
  rw [hnone] at hhash
  exact Option.map_eq_none_iff.mp hhash

/-- A change that goes on has been going on. -/
theorem Changing.of_move {g h : Service.Config} {a : Service.Act}
    (hmove : Move (Step π) Platform.env g a h) {i : Nat} {t t' : Service.Thread}
    (hi : g.threads i = some t) (hi' : h.threads i = some t') (hext : t.Extends t')
    (hauthenticates : ∃ currentPassword newPassword user,
      t.call = .updatePassword u currentPassword newPassword ∧ t.Awaited (.user u (some user)) ∧
        π.bcrypt.compare currentPassword user.passwordHash = true)
    (hc : Changing π u t') : Changing π u t where
  authenticates := hauthenticates
  running r hr := by
    obtain rfl := hext.done r hr
    exact hc.running r hr
  unwritten n hn := hc.unwritten n (hext.awaited _ hn)
  found data hstatus := by
    rcases hmove.ran hi' with hsame | ⟨o, hruns, hT⟩
    · cases hi.symm.trans hsame
      exact hc.found data hstatus
    · cases hruns with
      | start hnone => cases hi.symm.trans hnone
      | resume hi₀ =>
          cases hi.symm.trans hi₀
          cases hstatus
          obtain ⟨r, hr⟩ := hT.of_missing
          exact hc.running r hr

theorem PasswordHeld.move {g h : Service.Config} {a : Service.Act} {i first : Nat}
    (hg : PasswordHeld π u i first g) (hok : ChangesAlone π u g a)
    (hmove : Move (Step π) Platform.env g a h) : PasswordHeld π u i first h := by
  obtain ⟨t, p, q, user, hi, hcall, hread, hcompare, hchanging, hwritten⟩ := hg.thread
  obtain ⟨t', hi', hext⟩ := hmove.thread hi
  have hworld := (extends_moves π).move hmove
  have hledger := hg.ledger.move hmove
  have hcall' : t'.call = .updatePassword u p q := hext.call.trans hcall
  refine ⟨hledger, Nat.le_trans hg.first_le hworld.users.length_le, t', p, q, user, hi',
    hcall', hext.awaited _ hread, hcompare, fun hc l v hl hw => ?_, fun n hn => ?_⟩
  · have hold : Changing π u t :=
      .of_move hmove hi hi' hext ⟨p, q, user, hcall, hread, hcompare⟩ hc
    rcases hg.ledger.wrote_cases hmove hw with hw | ⟨rfl, j, t'', o, hj, hn, hruns, hissues⟩
    · rcases hchanging hold l v hl hw with hkept | ⟨rfl, hmerging⟩
      · exact .inl (hkept.move hg.ledger hmove)
      · refine .inr ⟨rfl, ?_⟩
        rintro ⟨data, record, hstatus⟩
        rcases hmove.ran hi' with hsame | ⟨o, hruns, hT⟩
        · cases hi.symm.trans hsame
          exact hmerging ⟨data, record, hstatus⟩
        · obtain ⟨rfl, hget⟩ := hT.of_merging hcall' hstatus
          rw [hcall'] at hruns
          -- the record that the change reads again has not been removed
          refine hok.present i p q hruns (fun hnone => ?_) ?_
          · cases hget.symm.trans hnone
          · refine WriteBehind.Store.version_eq_none hw (fun m o hm hnone hw => ?_) hw.lt
            rcases hchanging hold m o (Nat.le_trans hl (Nat.le_of_lt hm)) hw with hkept | ⟨ho, _⟩
            · exact hkept.eq_none hnone
            · exact ho
    · have hij : i ≠ j := by
        rintro rfl
        rw [hi'] at hj
        cases hj
        exact hc.unwritten _ hn
      rcases hok.alone j _ o v hruns hissues i t hij hi hold with hkeeps | ⟨hv, hmerging⟩
      · refine .inl ⟨j, t'', hj, hn, ?_⟩
        rw [hworld.users.version (Nat.le_refl _)]
        exact hkeeps
      · rcases hmove.ran hi' with hsame | ⟨_, hruns', _⟩
        · cases hi.symm.trans hsame
          exact .inr ⟨hv, hmerging⟩
        · exact absurd (hruns'.index hruns) hij
  · rcases hmove.awaited hi' hn with ⟨t₀, hi₀, _, hn₀⟩ | ⟨hstatus, hreach⟩
    · rw [hi] at hi₀
      cases hi₀
      obtain ⟨hfirst, hkept⟩ := hwritten n hn₀
      refine ⟨hfirst, fun l v hl hln hw => ?_⟩
      have hlt := Nat.lt_trans hln (hg.ledger.awaited_lt hi hn₀)
      exact (hkept l v hl hln (hworld.users.wrote_of_lt hlt hw)).move hg.ledger hmove
    · -- the thread writes now, and has been changing until this step
      obtain ⟨hlength, o, login, v, hruns, hissues, _⟩ := reaches_written hreach
      have hmerging : Merging u t := merging_of_issues hi hcall' hruns hissues
      obtain ⟨data, record, hwaits⟩ := id hmerging
      have hold : Changing π u t :=
        { authenticates := ⟨p, q, user, hcall, hread, hcompare⟩
          running := fun r hr => by cases hwaits.symm.trans hr
          unwritten := (hg.ledger.ticket i t hi).unwritten hwaits (by simp)
          found := fun data' hstatus' => by cases hwaits.symm.trans hstatus' }
      refine ⟨hlength ▸ hg.first_le, fun l v hl hln hw => ?_⟩
      have hlt : l < g.world.users.writes.length := hlength ▸ hln
      rcases hchanging hold l v hl (hworld.users.wrote_of_lt hlt hw) with hkept | ⟨_, hnot⟩
      · exact hkept.move hg.ledger hmove
      · exact absurd hmerging hnot

/-- A successful change of a run replaces a record with the password it was
authenticated against, and every earlier write of `u` that did not keep the
password was committed when it started. -/
theorem change_replaces {as : List Service.Act} {s : Service.State}
    (hrun : π.system.Run (ChangesAlone π u) Service.initial as s) {i : Nat} {t : Service.Thread}
    {p q : String} (hi : s.config.threads i = some t) (ht : Changed u p q t) :
    ∃ n user, t.Awaited (.written n) ∧ s.world.users.version n u = some user ∧
      π.bcrypt.compare p user.passwordHash = true ∧
      ∀ l v, l < n → s.world.users.Wrote l u v →
        StartedAfter π as i t.call l ∨ KeptPassword u s.config l v := by
  obtain ⟨hcall, hdone⟩ := ht
  have hauthenticates : t.call.authenticates = some (u, p) := by
    rw [hcall]
    rfl
  obtain ⟨user, hread, hcompare⟩ := run_authenticated hrun hi hauthenticates hdone
  obtain ⟨before, after, s₁, s₂, has, hbefore, hok, hstep, hafter, hnone, hget, hworld, t₂, hi₂,
    hstatus₂, hext₂⟩ := run_read hrun hi hread
  obtain ⟨hmove, hobeys₂⟩ := (system_obeys π).move (run_obeys hbefore) hstep
  have hledger₂ := ledger (hbefore.snoc hok hstep)
  have hstart : PasswordHeld π u i s₁.world.users.applied s₂.config := by
    refine ⟨hledger₂, hworld ▸ s₁.world.users.applied_le, t₂, p, q, user, hi₂,
      hext₂.call.symm.trans hcall, .inl hstatus₂, hcompare, fun _ l v hl hw => ?_, fun n hn => ?_⟩
    · rw [State.config_world, hworld] at hw
      rw [hcall] at hok
      rcases hok.settled i p q user (.start hnone) hget hcompare l v hw (Nat.not_lt.mpr hl) with
        hkept | hv
      · exact .inl (hkept.move (ledger hbefore) hmove)
      · exact .inr ⟨hv, fun ⟨_, _, hstatus⟩ => by cases hstatus₂.symm.trans hstatus⟩
    · exact absurd hn ((hledger₂.ticket i t₂ hi₂).unwritten hstatus₂ (by simp) n)
  have hend := hafter.invariant (PasswordHeld π u i s₁.world.users.applied) (system_obeys π)
    (fun _ _ _ hok hmove hg => hg.move hok hmove) hobeys₂ hstart
  obtain ⟨t', _, _, _, hi', _, _, _, _, hwritten⟩ := hend.thread
  rw [hi] at hi'
  cases hi'
  obtain ⟨n, _, _, hwrote, _⟩ :=
    (hend.ledger.ticket i t hi).success hdone (by rw [hcall]; trivial)
  obtain ⟨hfirst, hkept⟩ := hwritten n hwrote.awaited
  have hext : s₁.world.Extends s.world := hworld ▸ run_extends hafter hobeys₂
  have hpassword : (s.world.users.version n u).map IUserData.passwordHash =
      some user.passwordHash := by
    rw [s.world.users.version_eq_of_kept (Option.map IUserData.passwordHash) hfirst
      fun l v hl hln hw => ?_, hext.users.version s₁.world.users.applied_le]
    · exact congrArg (Option.map IUserData.passwordHash) hget
    · obtain ⟨_, _, _, _, hkeeps⟩ := hkept l v hl hln hw
      exact hkeeps.passwordHash
  obtain ⟨user', hversion, hhash⟩ := Option.map_eq_some_iff.mp hpassword
  refine ⟨n, user', hwrote.awaited, hversion, hhash ▸ hcompare, fun l v hl hw => ?_⟩
  rcases Nat.lt_or_ge l s₁.world.users.applied with hlt | hge
  · exact .inl ⟨before, after, s₁, has, hbefore.mono fun _ _ _ => trivial, hlt⟩
  · exact .inr (hkept l v hge hl hw)

/-- A write of a call other than `update` has not kept the password. -/
theorem Ledger.not_kept {g : Service.Config} (hg : Ledger π g) {i n : Nat} {t : Service.Thread}
    {v : Option IUserData} (hi : g.threads i = some t) (hn : t.Awaited (.written n))
    (hcall : ∀ updateUser, t.call ≠ .update updateUser) : ¬ KeptPassword u g n v := by
  rintro ⟨j, t', hj, hn', hkeeps⟩
  obtain ⟨updateUser, hupdate⟩ := hkeeps.update
  obtain rfl := hg.unique i j t t' n hi hj hn hn'
  rw [hi] at hj
  cases hj
  exact hcall updateUser hupdate

/-- The write of a successful change. -/
theorem Ledger.changed {g : Service.Config} (hg : Ledger π g) {i : Nat} {t : Service.Thread}
    {p q : String} (hi : g.threads i = some t) (ht : Changed u p q t) {n : Nat}
    (hn : t.Awaited (.written n)) : ∃ v, g.world.users.Wrote n u v := by
  obtain ⟨login, v, hwrote⟩ := (hg.ticket i t hi).wrote hn
  have hc : t.call.Updates π u { passwordHash := some (π.bcrypt.hash q 0) } := by
    rw [ht.1]
    exact ⟨rfl, 0, rfl⟩
  obtain ⟨rfl, _⟩ := hwrote.writer.of_updates hc
  exact ⟨v, hwrote.wrote⟩

/-- In every run in which the password of `u` is kept while a change of it is
under way, password changes of `u` are compare-and-set. -/
theorem compare_and_set {as : List Service.Act} {s : Service.State}
    (hrun : π.system.Run (ChangesAlone π u) Service.initial as s) :
    CompareAndSet π u as s.config where
  replaces i t p q hi ht := by
    obtain ⟨n, user, hn, hversion, hcompare, _⟩ := change_replaces hrun hi ht
    exact ⟨n, user, hn, hversion, hcompare⟩
  exclusive i j t t' p p' q q' hij hi hj ht ht' := by
    have hledger := ledger hrun
    obtain ⟨m, _, hm, _, _, hstarted⟩ := change_replaces hrun hi ht
    obtain ⟨n, _, hn, _, _, hstarted'⟩ := change_replaces hrun hj ht'
    obtain ⟨v, hwm⟩ := hledger.changed hi ht hm
    obtain ⟨v', hwn⟩ := hledger.changed hj ht' hn
    have hmn : m ≠ n := by
      rintro rfl
      exact hij (hledger.unique i j t t' m hi hj hm hn)
    refine ⟨m, n, hm, hn, ?_⟩
    rcases Nat.lt_or_gt_of_ne hmn with hlt | hlt
    · have hkept : ¬ KeptPassword u s.config m v := hledger.not_kept hi hm (by simp [ht.1])
      exact .inl ⟨hlt, (hstarted' m v hlt hwm).resolve_right hkept⟩
    · have hkept : ¬ KeptPassword u s.config n v' := hledger.not_kept hj hn (by simp [ht'.1])
      exact .inr ⟨hlt, (hstarted n v' hlt hwn).resolve_right hkept⟩
  recreated i j t t' p q data n l hi ht hn hj hc hl hln := by
    have hledger := ledger hrun
    obtain ⟨n', _, hn', _, _, hstarted⟩ := change_replaces hrun hi ht
    obtain rfl := (hledger.ticket i t hi).once hn hn'
    obtain ⟨login, v, hwrote⟩ := (hledger.ticket j t' hj).wrote hl
    obtain ⟨rfl, _⟩ := hwrote.writer.of_creates hc
    refine (hstarted l v hln hwrote.wrote).resolve_right (hledger.not_kept hj hl ?_)
    rintro updateUser hcall
    rw [hcall] at hc
    exact hc

/-- The password of "bob" is changed while his description is, and changed again.  He is
removed while it is changed once more. -/
def changesInTurn : List Service.Act :=
  [.start 0 (createBob "first"), .resume 0 (.resolve 0), .env .commit, .resume 0 (.resolve 0),
    .start 1 (.updatePassword "bob" "first" "second"), .start 2 (describeBob "new"),
    .resume 2 (.resolve 0), .env .commit, .resume 1 (.resolve 0), .resume 1 (.resolve 0),
    .resume 1 (.resolve 0), .resume 1 (.resolve 0), .env .commit, .resume 1 (.resolve 0),
    .start 3 (.updatePassword "bob" "second" "third"), .resume 3 (.resolve 0),
    .resume 3 (.resolve 0), .resume 3 (.resolve 0), .resume 3 (.resolve 0), .env .commit,
    .resume 3 (.resolve 0), .start 4 (.updatePassword "bob" "third" "fourth"),
    .resume 4 (.resolve 0), .start 5 (.remove "bob"), .env .commit, .resume 4 (.resolve 0),
    .resume 4 (.resolve 0), .resume 4 (.resolve 0)]

theorem changesInTurn_alone (n : Nat) (hn : n < changesInTurn.length) :
    ChangesAlone Platform.sample "bob"
      (Platform.sample.system.outcome Service.initial (changesInTurn.take n)).config
      changesInTurn[n] where
  settled i p q user hruns _ _ m v hw hm := by
    have hpending := WriteBehind.Store.pending_iff.mpr ⟨m, v, Nat.le_of_not_lt hm, hw⟩
    have hn' : n < 28 := hn
    interval_cases n
    all_goals first
      | (cases hruns; done)
      | exact absurd hpending (by decide)
  alone i c o v hruns hissues j t hj ht hchanging := by
    have hn' : n < 28 := hn
    have hrun := Platform.sample.system.run_outcome
      (show (Platform.sample.system.exec Service.initial (changesInTurn.take n)).isSome = true by
        interval_cases n <;> rfl)
    have hstart := hrun.started_init ht
    obtain ⟨p, q, user, hcall, _⟩ := hchanging.authenticates
    rw [hcall] at hstart
    have hj' : j = 1 ∨ j = 3 ∨ j = 4 := by
      have hmem := List.mem_of_mem_take hstart
      simp only [changesInTurn, createBob, describeBob, List.mem_cons, List.not_mem_nil, or_false,
        Act.start.injEq, reduceCtorEq, and_false, false_or] at hmem
      exact hmem.imp And.left (Or.imp And.left And.left)
    rcases hj' with rfl | rfl | rfl
    · interval_cases n
      all_goals try first
        | (cases ht; done)
        | (cases hruns; done)
        | (cases hruns; exact absurd rfl hj)
        | (cases ht; exact absurd rfl (hchanging.running _))
      -- the description is read, and written back
      · cases hruns
        cases hissues
      · cases hruns with
        | resume hi =>
            cases hi
            cases hissues with
            | merge hc => exact .inl { update := ⟨_, rfl⟩, passwordHash := rfl }
    · interval_cases n
      all_goals first
        | (cases ht; done)
        | (cases hruns; done)
        | (cases hruns; exact absurd rfl hj)
        | (cases ht; exact absurd rfl (hchanging.running _))
    · interval_cases n
      all_goals try first
        | (cases ht; done)
        | (cases hruns; done)
        | (cases hruns; exact absurd rfl hj)
      -- the account is removed
      cases hruns
      cases hissues
      refine .inr ⟨rfl, ?_⟩
      rintro ⟨_, _, hstatus⟩
      cases ht
      cases hstatus
  present i p q hruns hget hlatest := by
    have hn' : n < 28 := hn
    interval_cases n
    all_goals first
      | (cases hruns; done)
      | (cases hlatest; done)
      | exact absurd rfl hget

theorem compare_and_set_once :
    ∃ s, Platform.sample.system.Run (ChangesAlone Platform.sample "bob") Service.initial
        changesInTurn s ∧ CompareAndSet Platform.sample "bob" changesInTurn s.config ∧
      (∃ t, s.config.threads 1 = some t ∧ Changed "bob" "first" "second" t) ∧
      (∃ t, s.config.threads 3 = some t ∧ Changed "bob" "second" "third" t) ∧
      ∃ t e, s.config.threads 4 = some t ∧ t.status = .done (.error e) :=
  have hrun := System.run_outcome_of (by rfl) changesInTurn_alone
  ⟨_, hrun, compare_and_set hrun, ⟨_, rfl, rfl, rfl⟩, ⟨_, rfl, rfl, rfl⟩, _, _, rfl, rfl⟩

/-- Two changes authenticate with the same password. -/
def changeTwice : List Service.Act :=
  [.start 0 (createBob "first"), .resume 0 (.resolve 0), .env .commit, .resume 0 (.resolve 0),
    .start 1 (.updatePassword "bob" "first" "second"), .resume 1 (.resolve 0),
    .start 2 (.updatePassword "bob" "first" "third"), .resume 2 (.resolve 0),
    .resume 1 (.resolve 0), .resume 1 (.resolve 0), .resume 1 (.resolve 0), .env .commit,
    .resume 1 (.resolve 0), .resume 2 (.resolve 0), .resume 2 (.resolve 0),
    .resume 2 (.resolve 0), .env .commit, .resume 2 (.resolve 0)]

theorem change_twice :
    ∃ s, Platform.sample.system.Run always Service.initial changeTwice s ∧
      ¬ CompareAndSet Platform.sample "bob" changeTwice s.config := by
  have hrun := Platform.sample.system.run_outcome
    (show (Platform.sample.system.exec Service.initial changeTwice).isSome = true from rfl)
  refine ⟨_, hrun, fun h => ?_⟩
  generalize hs : Platform.sample.system.outcome Service.initial changeTwice = s at hrun h
  have h2 : ∃ past, s.config.threads 2 = some
      { call := .updatePassword "bob" "first" "third", past := .written 2 :: past,
        status := .done (.ok .void) } := hs ▸ ⟨_, rfl⟩
  have hreplaced : ∃ user, s.world.users.version 2 "bob" = some user ∧
      Platform.sample.bcrypt.compare "first" user.passwordHash = false := hs ▸ ⟨_, rfl, rfl⟩
  obtain ⟨past, h2⟩ := h2
  obtain ⟨user, huser, hwrong⟩ := hreplaced
  obtain ⟨n, user', hn, huser', hcompare⟩ := h.replaces 2 _ "first" "third" h2 ⟨rfl, rfl⟩
  obtain rfl := ((ledger hrun).ticket 2 _ h2).once hn (.inr List.mem_cons_self)
  obtain rfl : user' = user := Option.some.inj (huser'.symm.trans huser)
  rw [hwrong] at hcompare
  cases hcompare

end RpiNestApi
