import RpiNestApi.Authentication.Writes

/-
Calls that authenticate.

`login` and `updatePassword` read the record of a login when they start, compare
the password with the hash in it, and go on only if they match.  A thread that
got further still shows the record it was authenticated against.
-/

namespace RpiNestApi

open Async

variable {π : Platform}

/-- The promises a call awaits to authenticate. -/
def Await.Authenticates : Await → Prop
  | .user _ _ => True
  | .comparePasswords _ _ => True
  | _ => False

/-- How far a call that authenticates `u` with `password` has come. -/
inductive Credentials (π : Platform) (u : UserLogin) (password : String)
    (t : Service.Thread) : Prop
  | asked {user} (hpast : t.past = []) (hstatus : t.status = .waits (.user u user))
  | found {user} (hpast : t.past = [.user u (some user)])
      (hstatus : t.status = .waits (.comparePasswords password user))
  | passed {user} (hread : t.Awaited (.user u (some user)))
      (hcompare : π.bcrypt.compare password user.passwordHash = true)
      (hlater : ∀ q, t.status = .waits q → ¬ q.Authenticates)
  | failed {e} (hstatus : t.status = .done (.error e))

theorem Step.later {c : Call} {q q' : Await} {w w' : World} {st : Status Await Exception Response}
    (h : Step π c (some q) w w' st) (hq : ∀ login user, q ≠ .user login user)
    (hst : st = .waits q') : ¬ q'.Authenticates := by
  cases h with
  | authCompare => exact absurd rfl (hq _ _)
  | _ =>
      cases hst
      try exact id

theorem Step.credentials_start {c : Call} {u : UserLogin} {password : String} {w w' : World}
    {st : Status Await Exception Response} (h : Step π c none w w' st)
    (hc : c.authenticates = some (u, password)) :
    Credentials π u password { call := c, past := [], status := st } := by
  cases h with
  | reject e => exact .failed rfl
  | authRead hc' =>
      cases hc.symm.trans hc'
      exact .asked rfl rfl
  | settingsPut hc' => cases c <;> first | exact hc'.elim | cases hc
  | _ => cases hc

theorem Step.credentials_resume {c : Call} {u : UserLogin} {password : String}
    {past : List Await} {q : Await} {w w' : World} {st : Status Await Exception Response}
    (h : Step π c (some q) w w' st) (hc : c.authenticates = some (u, password))
    (ht : Credentials π u password { call := c, past, status := .waits q }) :
    Credentials π u password { call := c, past := q :: past, status := st } := by
  cases ht with
  | asked hpast hstatus =>
      cases hpast
      cases hstatus
      cases h with
      | reject e => exact .failed rfl
      | authCompare hc' =>
          cases hc.symm.trans hc'
          exact .found rfl rfl
      | settingsPut hc' => cases c <;> exact hc'.elim
  | found hpast hstatus =>
      cases hpast
      cases hstatus
      cases h with
      | reject e => exact .failed rfl
      | sign hcompare =>
          exact .passed (.inr (by simp)) hcompare fun q hq => by cases hq; exact id
      | newHash hcompare =>
          exact .passed (.inr (by simp)) hcompare fun q hq => by cases hq; exact id
      | settingsPut hc' => cases c <;> exact hc'.elim
  | passed hread hcompare hlater =>
      refine .passed (.inr ?_) hcompare fun q' hst => h.later (fun login user hq => ?_) hst
      · rcases hread with hread | hread
        · cases hread
          exact List.mem_cons_self
        · exact List.mem_cons_of_mem _ hread
      · subst hq
        exact hlater _ rfl trivial
  | failed hstatus => cases hstatus

section Run

variable {ok : Service.Config → Service.Act → Prop} {as : List Service.Act} {s : Service.State}
variable {i : Nat} {t : Service.Thread} {u : UserLogin} {password : String}

theorem run_credentials (hrun : π.system.Run ok Service.initial as s)
    (hi : s.config.threads i = some t) (hc : t.call.authenticates = some (u, password)) :
    Credentials π u password t := by
  have hthreads := (extends_moves π).threads
    (fun _ (t : Service.Thread) => ∀ u password, t.call.authenticates = some (u, password) →
      Credentials π u password t) (fun _ _ _ _ h => h)
    (fun c w w' st h _ _ hc => h.credentials_start hc)
    (fun c past q w w' st ht h _ _ hc => h.credentials_resume hc (ht _ _ hc))
    (hrun.trace (system_obeys π) (Service.initial_obeys π)).1 (fun _ _ h => by cases h)
  exact hthreads i t hi u password hc

/-- A call that reports success was authenticated. -/
theorem run_authenticated (hrun : π.system.Run ok Service.initial as s)
    (hi : s.config.threads i = some t) (hc : t.call.authenticates = some (u, password))
    {r : Response} (hdone : t.status = .done (.ok r)) :
    ∃ user, t.Awaited (.user u (some user)) ∧
      π.bcrypt.compare password user.passwordHash = true := by
  cases run_credentials hrun hi hc with
  | asked hpast hstatus => cases hstatus.symm.trans hdone
  | found hpast hstatus => cases hstatus.symm.trans hdone
  | passed hread hcompare hlater => exact ⟨_, hread, hcompare⟩
  | failed hstatus => cases hstatus.symm.trans hdone

/-- The record a call authenticates against is the one that is stored when the
call starts. -/
theorem run_read (hrun : π.system.Run ok Service.initial as s)
    (hi : s.config.threads i = some t) {user : Option IUserData}
    (hread : t.Awaited (.user u user)) :
    ∃ before after s₁ s₂, as = before ++ .start i t.call :: after ∧
      π.system.Run ok Service.initial before s₁ ∧ ok s₁.config (.start i t.call) ∧
      π.system.step s₁ (.start i t.call) = some s₂ ∧ π.system.Run ok s₂ after s ∧
      s₁.config.threads i = none ∧ s₁.world.users.get u = user ∧ s₂.world = s₁.world ∧
      ∃ t₂, s₂.config.threads i = some t₂ ∧ t₂.status = .waits (.user u user) ∧
        t₂.Extends t := by
  obtain ⟨before, a, after, s₁, s₂, has, hbefore, hok, hstep, hafter, ht₂, o, hruns, hT⟩ :=
    hrun.reached (system_obeys π) (Service.initial_obeys π) hi hread (fun _ h => by cases h)
  generalize hcall : t.call = c at hruns hT ⊢
  generalize hw : s₂.world = w at hT
  cases hT with
  | authRead hc =>
      cases hruns with
      | start hnone =>
          exact ⟨before, after, s₁, s₂, has, hbefore, hok, hstep, hafter, hnone, rfl, hw, ht₂⟩

end Run

end RpiNestApi
