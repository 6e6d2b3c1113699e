import RpiNestApi.Authentication.RecordInvariant
import RpiNestApi.Http.Access

/-
How long a change of an account may go unnoticed.

The guard goes by the token alone, and a token carries the roles of the record its
login has read.  A login reads when it starts and signs when it ends, so that the
roles that pass the guard are at most as old as a token lives and its login takes.
-/

namespace RpiNestApi

open Async

variable {π : Platform}

namespace Http

/-- No login of `u` is in progress. -/
def Idle (g : Service.Config) (u : UserLogin) : Prop :=
  ∀ i t p, g.threads i = some t → t.call = .login u p → ∃ r, t.status = .done r

/-- The guard lets a request through to the handler in the world `w`, and the request bears a
token of `u`. -/
structure AdmittedAs (π : Platform) (w : World) (request : Request) (handler : Handler)
    (u : UserLogin) (token : String) (payload : AccessTokenPayload) : Prop where
  admitted : admittedTo π w request = some handler
  bears : request.Bears token
  verified : π.verifyAsync w token = some payload
  subject : payload.sub = u

theorem Request.Bears.unique {request : Request} {token token' : String}
    (h : request.Bears token) (h' : request.Bears token') : token = token' := by
  obtain ⟨header, words, hheader, hwords⟩ := h
  obtain ⟨header', words', hheader', hwords'⟩ := h'
  cases hheader.symm.trans hheader'
  exact (List.cons.inj (List.cons.inj (hwords.symm.trans hwords')).2).1

theorem AdmittedAs.admits {w : World} {request : Request} {handler : Handler} {u : UserLogin}
    {token : String} {payload : AccessTokenPayload}
    (h : AdmittedAs π w request handler u token payload)
    (hanonymous : handler ∉ anonymousHandlers) : handler.Admits u payload.roles := by
  obtain ⟨token', payload', hbears, hverify, hadmits⟩ :=
    (admitted_cases h.admitted).resolve_left hanonymous
  obtain rfl := h.bears.unique hbears
  cases h.verified.symm.trans hverify
  exact h.subject ▸ hadmits

section Run

variable {as bs : List Service.Act} {s t : Service.State}

/-- While the clock is not set back, no token was issued later than now. -/
theorem issued_before {ok : Service.Config → Service.Act → Prop}
    (hok : ∀ g a, ok g a → ClockForward g a)
    (hrun : π.system.Run ok Service.initial as s) {x : AccessTokenPayload × Nat}
    (hx : x ∈ s.world.issued) : x.2 ≤ seconds s.world.clock := by
  refine hrun.invariant (fun g => ∀ x ∈ g.world.issued, x.2 ≤ seconds g.world.clock)
    (system_obeys π) (fun g a h hg hmove hissued x hx => ?_) (Service.initial_obeys π)
    (fun _ h => by cases h) x hx
  have hclock : seconds g.world.clock ≤ seconds h.world.clock :=
    Nat.div_le_div_right (clock_move (hok g a hg) hmove)
  rcases hmove.runs with ⟨i, c, o, past, st, _, hstep, _⟩ | ⟨e, rfl, he⟩
  · have hnow := hstep.clock
    generalize h.world = w at hstep hnow hclock hx ⊢
    cases hstep with
    | token =>
        rcases List.mem_append.mp hx with hx | hx
        · exact Nat.le_trans (hissued x hx) hclock
        · rw [List.mem_singleton.mp hx]
    | _ => exact Nat.le_trans (hissued x hx) hclock
  · rw [(Platform.env_spec he).2.1] at hx
    exact Nat.le_trans (hissued x hx) hclock

/-- The thread of a login shows the record it has read. -/
theorem login_thread (l : Login π as s) (hrun : π.system.Run always Service.initial as s) :
    ∃ th, s.config.threads l.thread = some th ∧ th.call = .login l.userLogin l.password ∧
      th.status = .done (.ok (.token (π.issue l.user l.userLogin l.signing.world.clock))) ∧
      ∃ user, th.Awaited (.user l.userLogin (some user)) ∧
        l.user.payload l.userLogin = user.payload l.userLogin := by
  obtain ⟨past, hdone⟩ := l.done
  obtain ⟨past', hwaits⟩ := l.awaits
  have hsteps := l.steps
  rw [← List.cons_append, ← List.append_assoc] at hsteps
  have hall := hrun
  rw [hsteps] at hall
  have hlater := (hall.split_at l.run_signing).2
  obtain ⟨th, hi, hext⟩ := (hlater.trace (system_obeys π) (run_obeys l.run_signing)).1.thread hwaits
  cases hdone.symm.trans hi
  obtain ⟨user, hread, _, hpayload⟩ := run_signed hrun hdone rfl (hext.awaited _ (.inl rfl))
  exact ⟨_, hdone, rfl, rfl, user, hread, hpayload⟩

/-- A login that has signed a token after `s`, where no login of its user was in
progress, has read its record after `s`. -/
theorem read_later (hrun : π.system.Run ClockForward Service.initial as s)
    (hrest : π.system.Run ClockForward s bs t) (l : Login π (as ++ bs) t)
    (hidle : Idle s.config l.userLogin)
    (hsigned : seconds s.world.clock < seconds l.signing.world.clock) :
    ∃ (s₁ : Service.State) (user : IUserData), s.world.Extends s₁.world ∧ s₁.world.Extends t.world ∧
      s₁.world.users.get l.userLogin = some user ∧
      l.user.payload l.userLogin = user.payload l.userLogin := by
  have hall : π.system.Run always Service.initial (as ++ bs) t :=
    (hrun.append hrest).mono fun _ _ _ => trivial
  obtain ⟨th, hi, hcall, hdone, user, hread, hpayload⟩ := login_thread l hall
  cases hold : s.config.threads l.thread with
  | some th₀ =>
      -- then it had ended, and its token was signed, before `s`
      obtain ⟨th', hi', hext⟩ := (hrest.trace (system_obeys π) (run_obeys hrun)).1.thread hold
      cases hi.symm.trans hi'
      obtain ⟨r, hr⟩ := hidle _ th₀ l.password hold (hext.call.symm.trans hcall)
      rw [hext.done r hr] at hdone
      obtain ⟨payload, iat, hmem, htoken⟩ :=
        run_token (hrun.mono fun _ _ _ => trivial) hold hdone
      obtain ⟨_, rfl⟩ := π.jwtService.sign_inj htoken
      exact absurd (issued_before (fun _ _ h => h) hrun hmem) (Nat.not_le.mpr hsigned)
  | none =>
      obtain ⟨before, a, after, s₁, s₂, _, hbefore, hok, hstep, hafter, _, o, hruns, hT⟩ :=
        hrest.reached (system_obeys π) (run_obeys hrun) hi hread (fun th' h => by
          cases hold.symm.trans h)
      have hobeys := (hbefore.trace (system_obeys π) (run_obeys hrun)).2
      have hget : s₁.world.users.get l.userLogin = some user := by
        rw [hcall] at hT
        generalize s₂.world = w at hT
        generalize some user = found at hT
        cases hT with
        | authRead => rfl
      exact ⟨s₁, user, run_extends hbefore (run_obeys hrun),
        run_extends (.cons hok hstep hafter) hobeys, hget, hpayload⟩

/-- The record of `u` with these roles was stored at some moment between `s` and `t`. -/
def StoredBetween (s t : World) (u : UserLogin) (user : IUserData) : Prop :=
  ∃ n, s.users.applied ≤ n ∧ n ≤ t.users.applied ∧ t.users.version n u = some user

/-- A token that has lived on for its lifetime after a moment in which no login of
`u` was in progress carries the roles of a record that was stored since that moment. -/
theorem stored_since (hrun : π.system.Run ClockForward Service.initial as s)
    (hrest : π.system.Run ClockForward s bs t) {u : UserLogin} (hidle : Idle s.config u)
    (hexpired : seconds s.world.clock + π.jwtService.expiresIn ≤ seconds t.world.clock)
    {token : String} {payload : AccessTokenPayload}
    (hverify : π.verifyAsync t.world token = some payload) (hsub : payload.sub = u) :
    ∃ user, StoredBetween s.world t.world u user ∧ payload.roles = user.roles := by
  have hall : π.system.Run always Service.initial (as ++ bs) t :=
    (hrun.append hrest).mono fun _ _ _ => trivial
  obtain ⟨⟨payload', iat, hsign, hlt⟩, l, hl, hpayload⟩ := (verifyAsync_iff hall).mp hverify
  obtain ⟨_, rfl⟩ := π.jwtService.sign_inj (hsign.trans hl.symm)
  obtain rfl : l.userLogin = u := by
    rw [← hsub, hpayload]
    rfl
  obtain ⟨s₁, user, hsince, huntil, hget, hread⟩ :=
    read_later hrun hrest l hidle (by omega)
  refine ⟨user, ⟨s₁.world.users.applied, hsince.users.applied, huntil.users.applied, ?_⟩, ?_⟩
  · rw [huntil.users.version s₁.world.users.applied_le]
    exact hget
  · rw [hpayload, hread]
    rfl

/-- Whoever is let through as `u` a token's lifetime after a moment in which no login of
`u` was in progress has the rights of a record that was stored since that moment. -/
theorem rights_recent (hrun : π.system.Run ClockForward Service.initial as s)
    (hrest : π.system.Run ClockForward s bs t) {u : UserLogin} (hidle : Idle s.config u)
    (hexpired : seconds s.world.clock + π.jwtService.expiresIn ≤ seconds t.world.clock)
    {request : Request} {handler : Handler} {token : String} {payload : AccessTokenPayload}
    (hadmitted : AdmittedAs π t.world request handler u token payload) :
    handler ∈ anonymousHandlers ∨
      ∃ user, StoredBetween s.world t.world u user ∧ handler.Admits u user.roles := by
  refine or_iff_not_imp_left.mpr fun hanonymous => ?_
  obtain ⟨user, hstored, hroles⟩ :=
    stored_since hrun hrest hidle hexpired hadmitted.verified hadmitted.subject
  exact ⟨user, hstored, hroles ▸ hadmitted.admits hanonymous⟩

end Run

/-- A platform whose tokens live for one second. -/
def shortLived : Platform :=
  { Platform.sample with
    jwtService := { Platform.sampleJwtService with expiresIn := 1 } }

def bobCreated : List Service.Act :=
  [.start 0 (createBob "first"), .resume 0 (.resolve 0), .env .commit, .resume 0 (.resolve 0)]

/-- "bob" logs in a second later. -/
def bobReturns : List Service.Act :=
  [.env (.clock 1000), .start 1 (.login "bob" "first"), .resume 1 (.resolve 0),
    .resume 1 (.resolve 0), .resume 1 (.resolve 0)]

def bobPayload : AccessTokenPayload := { sub := "bob", roles := .value [.user], modified := 0 }

def bobReturnsRequest : Request :=
  { method := .get, path := "/device/packages",
    authorization := some ("Bearer " ++ shortLived.jwtService.sign bobPayload 1) }

theorem rights_recent_bob :
    ∃ s t, shortLived.system.Run ClockForward Service.initial bobCreated s ∧
      shortLived.system.Run ClockForward s bobReturns t ∧
      ∃ user, StoredBetween s.world t.world "bob" user ∧
        (Handler.device .getInstalledPackages).Admits "bob" user.roles := by
  have hrun : shortLived.system.Run ClockForward Service.initial bobCreated
      (shortLived.system.outcome Service.initial bobCreated) := by
    refine System.run_outcome_of rfl fun n hn => ?_
    have hn4 : n < 4 := hn
    interval_cases n <;> trivial
  have hrest : shortLived.system.Run ClockForward
      (shortLived.system.outcome Service.initial bobCreated) bobReturns
      (shortLived.system.outcome (shortLived.system.outcome Service.initial bobCreated)
        bobReturns) := by
    refine System.run_outcome_of rfl fun n hn => ?_
    have hn5 : n < 5 := hn
    interval_cases n <;> first | trivial | exact Nat.zero_le _
  have hadmitted : AdmittedAs shortLived
      (shortLived.system.outcome (shortLived.system.outcome Service.initial bobCreated)
        bobReturns).world bobReturnsRequest (.device .getInstalledPackages) "bob"
      (shortLived.jwtService.sign bobPayload 1) bobPayload :=
    { admitted := rfl, bears := ⟨_, [], rfl, rfl⟩, verified := rfl, subject := rfl }
  have h0 : ∃ past, (shortLived.system.outcome Service.initial bobCreated).config.threads 0 =
      some { call := createBob "first", past, status := .done (.ok .void) } := ⟨_, rfl⟩
  obtain ⟨past₀, h0⟩ := h0
  have hidle : Idle (shortLived.system.outcome Service.initial bobCreated).config "bob" := by
    intro i t p hi hcall
    refine hrun.forall_threads (P := fun _ t => t.call = .login "bob" p →
      ∃ r, t.status = .done r) ?_ i t hi hcall
    show ∀ i ∈ [0], _
    simp [h0]
  exact ⟨_, _, hrun, hrest, (rights_recent hrun hrest hidle (Nat.le_refl _) hadmitted).resolve_left
    (by decide)⟩

end Http

end RpiNestApi
