import Mathlib.Tactic.IntervalCases
import RpiNestApi.Authentication.AdminFrame
import RpiNestApi.Authentication.Guard

/-
Tokens and the logins that issued them.

A login reads the record of its user when it starts and signs the roles in that
record, whatever has become of it by then.  The guard goes by the token alone.
-/

namespace RpiNestApi

open Async

variable {π : Platform}

/-- What `login` signs for a user. -/
def IUserData.payload (user : IUserData) (userLogin : UserLogin) : AccessTokenPayload :=
  { sub := userLogin, roles := user.roles, modified := user.modified }

def Platform.issue (π : Platform) (user : IUserData) (userLogin : UserLogin) (now : Nat) :
    AccessTokenDto :=
  { token := π.jwtService.sign (user.payload userLogin) (seconds now) }

/-- A successful login of the run `as` to `s`, with the states in which it read
its record and in which its token was signed. -/
structure Login (π : Platform) (as : List Service.Act) (s : Service.State) where
  thread : Nat
  userLogin : UserLogin
  password : String
  user : IUserData
  before : List Service.Act
  between : List Service.Act
  after : List Service.Act
  choice : Choice
  started : Service.State
  signing : Service.State
  steps : as = before ++ .start thread (.login userLogin password) ::
    (between ++ .resume thread choice :: after)
  run_started : π.system.Run always Service.initial before started
  run_signing : π.system.Run always Service.initial
    (before ++ .start thread (.login userLogin password) :: between) signing
  stored : started.world.users.get userLogin = some user
  correct : π.bcrypt.compare password user.passwordHash = true
  awaits : ∃ past, signing.config.threads thread = some
    { call := .login userLogin password, past,
      status := .waits (.signAsync (user.payload userLogin)) }
  done : ∃ past, s.config.threads thread = some
    { call := .login userLogin password, past,
      status := .done (.ok (.token (π.issue user userLogin signing.world.clock))) }

namespace Login

variable {as : List Service.Act} {s : Service.State}

def token (l : Login π as s) : String :=
  (π.issue l.user l.userLogin l.signing.world.clock).token

theorem run_between (l : Login π as s) :
    π.system.Run always l.started (.start l.thread (.login l.userLogin l.password) :: l.between)
      l.signing :=
  (l.run_signing.split_at l.run_started).2

/-- The step that signs the token. -/
theorem signing_step (l : Login π as s) :
    ∃ n : Nat, as[n]? = some (.resume l.thread l.choice) ∧
      l.signing = π.system.outcome Service.initial (as.take n) := by
  have hsteps := l.steps
  rw [← List.cons_append, ← List.append_assoc] at hsteps
  have hsigning := l.run_signing.eq_outcome
  generalize l.before ++ .start l.thread (.login l.userLogin l.password) :: l.between = first
    at hsteps hsigning
  have hact := congrArg (fun xs => xs[first.length]?) hsteps
  have htake := congrArg (List.take first.length) hsteps
  simp only [List.getElem?_append_right (Nat.le_refl _), Nat.sub_self,
    List.getElem?_cons_zero] at hact
  rw [List.take_left] at htake
  exact ⟨first.length, hact, hsigning.trans (congrArg _ htake.symm)⟩

/-- If no write of the user is committed between its read and the signature, the
roles signed are those stored when the token is issued. -/
theorem stored_signing (l : Login π as s)
    (h : ∀ n v, l.started.world.users.applied ≤ n → n < l.signing.world.users.applied →
      ¬ l.signing.world.users.Wrote n l.userLogin v) :
    l.signing.world.users.get l.userLogin = some l.user := by
  have hext := run_extends l.run_between (run_obeys l.run_started)
  rw [WriteBehind.Store.get, l.signing.world.users.version_eq_of_untouched hext.users.applied
    fun n hn hlt v => h n v hn hlt, hext.users.version l.started.world.users.applied_le]
  exact l.stored

end Login

section Run

variable {as : List Service.Act} {s : Service.State}

/-- A login signs the record it was authenticated against. -/
theorem run_signed (hrun : π.system.Run always Service.initial as s) {i : Nat}
    {t : Service.Thread} {u : UserLogin} {p : String} {payload : AccessTokenPayload}
    (hi : s.config.threads i = some t) (hcall : t.call = .login u p)
    (hq : t.Awaited (.signAsync payload)) :
    ∃ user, t.Awaited (.user u (some user)) ∧
      π.bcrypt.compare p user.passwordHash = true ∧ payload = user.payload u := by
  obtain ⟨before, a, after, s₁, s₂, _, hbefore, hok, hstep, hafter, _, o, hruns, hT⟩ :=
    hrun.reached (system_obeys π) (Service.initial_obeys π) hi hq (fun _ h => by cases h)
  rw [hcall] at hruns hT
  generalize s₂.world = w at hT
  cases hT with
  | sign hcompare =>
      cases hruns with
      | resume hi₁ =>
          have hc := run_credentials hbefore hi₁ rfl
          obtain ⟨t', hi', hext⟩ := ((System.Run.cons hok hstep hafter).trace (system_obeys π)
            (run_obeys hbefore)).1.thread hi₁
          rw [hi] at hi'
          cases hi'
          cases hc with
          | asked hpast hstatus => cases hstatus
          | found hpast hstatus =>
              cases hpast
              cases hstatus
              exact ⟨_, hext.awaited _ (.inr List.mem_cons_self), hcompare, rfl⟩
          | passed hread hcompare' hlater => exact absurd trivial (hlater _ rfl)
          | failed hstatus => cases hstatus

/-- Every token a login has returned. -/
theorem exists_login (hrun : π.system.Run always Service.initial as s) {i : Nat}
    {u : UserLogin} {p : String} {past : List Await} {dto : AccessTokenDto}
    (hi : s.config.threads i = some
      { call := .login u p, past, status := .done (.ok (.token dto)) }) :
    ∃ l : Login π as s, l.token = dto.token := by
  obtain ⟨before, a, after, s₁, s₂, o, has, hbefore, hstep, hafter, hruns, hT⟩ :=
    hrun.became (system_obeys π) (Service.initial_obeys π) hi (fun h => by cases h)
  generalize s₂.world = w at hT
  cases hT with
  | @token _ _ payload =>
      cases hruns with
      | @resume past₁ _ k hi₁ =>
          obtain ⟨user, hread, hcompare, rfl⟩ := run_signed hbefore hi₁ rfl (.inl rfl)
          obtain ⟨first, mid, s₀, _, rfl, hfirst, _, _, _, _, hget, _⟩ := run_read hbefore hi₁ hread
          exact ⟨{ thread := i, userLogin := u, password := p, user, before := first,
                   between := mid, after, choice := k, started := s₀, signing := s₁,
                   steps := by rw [has, List.append_assoc, List.cons_append],
                   run_started := hfirst, run_signing := hbefore, stored := hget,
                   correct := hcompare, awaits := ⟨past₁, hi₁⟩, done := ⟨past, hi⟩ }, rfl⟩

/-- A token a login returns is one the `JwtService` has signed. -/
theorem run_token (hrun : π.system.Run always Service.initial as s) {i : Nat}
    {t : Service.Thread} {dto : AccessTokenDto} (hi : s.config.threads i = some t)
    (hdone : t.status = .done (.ok (.token dto))) :
    ∃ payload iat, (payload, iat) ∈ s.world.issued ∧
      dto.token = π.jwtService.sign payload iat := by
  have hthreads := (extends_moves π).threads
    (fun w (t : Service.Thread) => ∀ dto, t.status = .done (.ok (.token dto)) →
      ∃ payload iat, (payload, iat) ∈ w.issued ∧ dto.token = π.jwtService.sign payload iat)
    (fun w w' t hw ht dto hdto => ?_) (fun c w w' st h dto hdto => ?_)
    (fun c past q w w' st _ h dto hdto => ?_)
    (hrun.trace (system_obeys π) (Service.initial_obeys π)).1 (fun _ _ h => by cases h)
  · exact hthreads i t hi dto hdone
  · obtain ⟨payload, iat, hmem, htoken⟩ := ht dto hdto
    exact ⟨payload, iat, hw.issued.subset hmem, htoken⟩
  · simp only at hdto
    subst hdto
    cases h
  · simp only at hdto
    subst hdto
    cases h with
    | token => exact ⟨_, _, List.mem_append_right _ List.mem_cons_self, rfl⟩

/-- A step that signs a token returns it from a login. -/
theorem Step.issued {c : Call} {o : Option Await} {w w' : World}
    {st : Status Await Exception Response} (h : Step π c o w w' st)
    {x : AccessTokenPayload × Nat} (hx : x ∈ w'.issued) :
    x ∈ w.issued ∨ (∃ u p, c = .login u p) ∧
      st = .done (.ok (.token { token := π.jwtService.sign x.1 x.2 })) := by
  cases h with
  | token =>
      rcases List.mem_append.mp hx with hx | hx
      · exact .inl hx
      · obtain rfl := List.mem_singleton.mp hx
        exact .inr ⟨⟨_, _, rfl⟩, rfl⟩
  | _ => exact .inl hx

/-- The thread is a login that has returned the token `x`. -/
def Returned (π : Platform) (x : AccessTokenPayload × Nat) (t : Service.Thread) : Prop :=
  (∃ u p, t.call = .login u p) ∧
    t.status = .done (.ok (.token { token := π.jwtService.sign x.1 x.2 }))

/-- Every signed token was returned by a login. -/
theorem run_issuer (hrun : π.system.Run always Service.initial as s)
    {x : AccessTokenPayload × Nat} (hx : x ∈ s.world.issued) :
    ∃ i t, s.config.threads i = some t ∧ Returned π x t := by
  refine hrun.invariant
    (fun g => ∀ x, x ∈ g.world.issued → ∃ i t, g.threads i = some t ∧ Returned π x t)
    (system_obeys π) (fun g a h _ hmove hg => ?_) (Service.initial_obeys π)
    (fun _ h => by cases h) x hx
  refine Move.origin (fun w x => x ∈ w.issued) (Returned π) hmove (fun x t t' hext ht => ?_)
    (fun e w x he hw => (Platform.env_spec he).2.1 ▸ hw) (fun c w st x h hw => h.issued hw)
    (fun c past q w st x h hw => h.issued hw) hg
  obtain rfl := hext.done _ ht.2
  exact ht

/-- A token verifies if a login returned it and it has not expired. -/
theorem verifyAsync_iff (hrun : π.system.Run always Service.initial as s) {token : String}
    {payload : AccessTokenPayload} :
    π.verifyAsync s.world token = some payload ↔
      π.Unexpired s.world token ∧
        ∃ l : Login π as s, l.token = token ∧ payload = l.user.payload l.userLogin := by
  rw [Platform.verifyAsync_eq_some]
  constructor
  · rintro ⟨iat, hmem, rfl, hlt⟩
    obtain ⟨i, ⟨c, past, status⟩, hi, ⟨u, p, rfl⟩, rfl⟩ := run_issuer hrun hmem
    obtain ⟨l, hl⟩ := exists_login hrun hi
    exact ⟨⟨payload, iat, rfl, hlt⟩, l, hl, (π.jwtService.sign_inj hl).1.symm⟩
  · rintro ⟨⟨payload', iat, rfl, hlt⟩, l, hl, rfl⟩
    obtain ⟨past, hi⟩ := l.done
    obtain ⟨payload, iat', hmem, htoken⟩ := run_token hrun hi rfl
    obtain ⟨rfl, rfl⟩ := π.jwtService.sign_inj (htoken.symm.trans hl)
    obtain ⟨rfl, rfl⟩ := π.jwtService.sign_inj hl
    exact ⟨_, hmem, rfl, hlt⟩

end Run

/-! ## The guard -/

section Guard

variable {as : List Service.Act} {s : Service.State} {context : ExecutionContext}

/-- The guard accepts the unexpired tokens of logins whose record admits. -/
theorem accepts_iff (hrun : π.system.Run always Service.initial as s)
    (hpublic : AuthenticationGuard.isRoutePublic context = false) :
    AuthenticationGuard.canActivate π s.world context = .ok true ↔
      ∃ token, context.Bears token ∧ π.Unexpired s.world token ∧
        ∃ l : Login π as s, l.token = token ∧ context.Admits l.userLogin l.user.roles := by
  rw [canActivate_iff hpublic]
  constructor
  · rintro ⟨token, payload, hbears, hverify, hadmits⟩
    obtain ⟨hunexpired, l, hl, rfl⟩ := (verifyAsync_iff hrun).mp hverify
    exact ⟨token, hbears, hunexpired, l, hl, hadmits⟩
  · rintro ⟨token, hbears, hunexpired, l, hl, hadmits⟩
    exact ⟨token, _, hbears, (verifyAsync_iff hrun).mpr ⟨hunexpired, l, hl, rfl⟩, hadmits⟩

/-- Who passes the guard of a route. -/
structure Guarded (π : Platform) (as : List Service.Act) (s : Service.State)
    (context : ExecutionContext) : Prop where
  /-- It accepts exactly the unexpired tokens of logins whose record admits to the
  route. -/
  accepts : AuthenticationGuard.canActivate π s.world context = .ok true ↔
    ∃ token, context.Bears token ∧ π.Unexpired s.world token ∧
      ∃ l : Login π as s, l.token = token ∧ context.Admits l.userLogin l.user.roles
  /-- That record is the one stored at issue time if no write of the user is
  committed between its read and the signature. -/
  issued : ∀ l : Login π as s,
    (∀ n v, l.started.world.users.applied ≤ n → n < l.signing.world.users.applied →
      ¬ l.signing.world.users.Wrote n l.userLogin v) →
    l.signing.world.users.get l.userLogin = some l.user
  /-- A login of "admin" has read the account a `createAdmin` had made. -/
  admin : ∀ l : Login π as s, l.userLogin = adminUserName →
    ∃ i t n, l.started.config.threads i = some t ∧ t.call = .createAdmin ∧
      t.Awaited (.written n) ∧ l.started.world.users.Committed n
  /-- Without roles the route is closed to all others but the users with the role
  "admin". -/
  closed : context.handler.accessRoles = none → context.controller.accessRoles = none →
    AuthenticationGuard.canActivate π s.world context = .ok true →
    ∃ token, context.Bears token ∧ ∃ l : Login π as s, l.token = token ∧
      (l.userLogin = adminUserName ∨ l.user.roles.HasRole .admin)

theorem guarded (hrun : π.system.Run always Service.initial as s)
    (hpublic : AuthenticationGuard.isRoutePublic context = false) : Guarded π as s context where
  accepts := accepts_iff hrun hpublic
  issued l := l.stored_signing
  admin l hl := by
    have hstored := l.stored
    rw [hl] at hstored
    exact run_createAdmin l.run_started hstored
  closed hhandler hcontroller haccepts := by
    obtain ⟨token, hbears, _, l, hl, hadmits⟩ := (accepts_iff hrun hpublic).mp haccepts
    refine ⟨token, hbears, l, hl, ?_⟩
    rcases hadmits with hadmin | hadmin | ⟨role, ⟨roles, hroles, _⟩, _⟩
    · exact .inl hadmin
    · exact .inr hadmin
    · rw [hhandler, hcontroller] at hroles
      rcases hroles with hroles | hroles <;> cases hroles

/-- The route of a request of "bob" that lets in the role "user". -/
def bobContext (token : String) : ExecutionContext :=
  { authorization := some ("Bearer " ++ token),
    handler := { isPublic := none, accessRoles := some [.user] },
    controller := { isPublic := none, accessRoles := none } }

/-- The token of "bob" as `createBob` makes the account. -/
def bobToken : String :=
  Platform.sample.jwtService.sign { sub := "bob", roles := .value [.user], modified := 0 } 0

def bobLogin : List Service.Act :=
  [.start 0 (createBob "first"), .resume 0 (.resolve 0), .env .commit, .resume 0 (.resolve 0),
    .start 1 (.login "bob" "first"), .resume 1 (.resolve 0), .resume 1 (.resolve 0),
    .resume 1 (.resolve 0)]

theorem guarded_bob :
    ∃ s, Platform.sample.system.Run always Service.initial bobLogin s ∧
      AuthenticationGuard.canActivate Platform.sample s.world (bobContext bobToken) = .ok true ∧
      Guarded Platform.sample bobLogin s (bobContext bobToken) :=
  have hrun := System.run_outcome (by rfl)
  ⟨_, hrun, rfl, guarded hrun rfl⟩

/-- The guard goes by the roles that are stored when the token is signed. -/
def AcceptsStored (π : Platform) (as : List Service.Act) (s : Service.State)
    (context : ExecutionContext) : Prop :=
  AuthenticationGuard.canActivate π s.world context = .ok true ↔
    ∃ token, context.Bears token ∧ π.Unexpired s.world token ∧
      ∃ l : Login π as s, l.token = token ∧ (l.userLogin = adminUserName ∨
        ∃ user, l.signing.world.users.get l.userLogin = some user ∧
          context.Admits l.userLogin user.roles)

/-- "bob" may only read from before his login signs a token with the role "user". -/
def loginDuringUpdate : List Service.Act :=
  [.start 0 (createBob "first"), .resume 0 (.resolve 0), .env .commit, .resume 0 (.resolve 0),
    .start 1 (.login "bob" "first"), .resume 1 (.resolve 0),
    .start 2 (.update
      { login := .value "bob", roles := .value [.readOnly], description := .undefined }),
    .resume 2 (.resolve 0), .env .commit, .resume 2 (.resolve 0), .resume 1 (.resolve 0),
    .resume 1 (.resolve 0)]

/-- The step that signs the token is the last one. -/
theorem loginDuringUpdate_signing {n : Nat} (hn : n < 12) {i : Nat} {k : Choice}
    (hact : loginDuringUpdate[n]? = some (.resume i k)) {u : UserLogin} {p : String}
    {past : List Await} {payload : AccessTokenPayload}
    (hi : (Platform.sample.system.outcome Service.initial
      (loginDuringUpdate.take n)).config.threads i = some
        { call := .login u p, past, status := .waits (.signAsync payload) }) :
    n = 11 ∧ u = "bob" := by
  interval_cases n
  all_goals
    cases hact
    try cases hi
  exact ⟨rfl, rfl⟩

theorem login_during_update :
    ∃ s, Platform.sample.system.Run always Service.initial loginDuringUpdate s ∧
      AuthenticationGuard.isRoutePublic (bobContext bobToken) = false ∧
      ¬ AcceptsStored Platform.sample loginDuringUpdate s (bobContext bobToken) := by
  have hrun := Platform.sample.system.run_outcome
    (show (Platform.sample.system.exec Service.initial loginDuringUpdate).isSome = true from rfl)
  refine ⟨_, hrun, rfl, fun h => ?_⟩
  obtain ⟨token, _, _, l, _, hadmits⟩ := h.mp rfl
  obtain ⟨past, hawaits⟩ := l.awaits
  obtain ⟨n, hact, hsigning⟩ := l.signing_step
  have hlength : n < 12 := (List.getElem?_eq_some_iff.mp hact).1
  rw [hsigning] at hawaits hadmits
  obtain ⟨hlast, hbob⟩ := loginDuringUpdate_signing hlength hact hawaits
  rw [hlast, hbob] at hadmits
  have hclosed : AuthenticationGuard.isUserAuthorized (bobContext bobToken)
      { sub := "bob", roles := .value [.readOnly], modified := 0 } = false := by decide
  rw [← Bool.not_eq_true, isUserAuthorized_iff] at hclosed
  rcases hadmits with hadmin | ⟨user, huser, hadmits⟩
  · exact absurd hadmin (by decide)
  · cases huser
    exact hclosed hadmits

/-- What an accepted token tells of its user. -/
structure Accepted (π : Platform) (as : List Service.Act) (s : Service.State)
    (context : ExecutionContext) (token : String) (payload : AccessTokenPayload) : Prop where
  bears : context.Bears token
  verified : π.verifyAsync s.world token = some payload
  /-- When the login that issued it read the record of its user, the record was
  stored, was last modified when the token says, and admits to the route. -/
  login : ∃ l : Login π as s, l.token = token ∧ l.userLogin = payload.sub ∧
    l.started.world.users.get payload.sub = some l.user ∧
    l.user.modified = payload.modified ∧ l.user.roles = payload.roles ∧
    context.Admits payload.sub l.user.roles
  /-- It stays accepted until it expires, whatever run follows. -/
  stays : ∀ bs t, π.system.Run always s bs t → π.Unexpired t.world token →
    AuthenticationGuard.canActivate π t.world context = .ok true

theorem accepted (hrun : π.system.Run always Service.initial as s)
    (hpublic : AuthenticationGuard.isRoutePublic context = false)
    (haccepts : AuthenticationGuard.canActivate π s.world context = .ok true) :
    ∃ token payload, Accepted π as s context token payload := by
  obtain ⟨token, hbears, hunexpired, l, hl, hadmits⟩ := (accepts_iff hrun hpublic).mp haccepts
  have hverify := (verifyAsync_iff hrun).mpr ⟨hunexpired, l, hl, rfl⟩
  refine ⟨token, _, hbears, hverify, ⟨l, hl, rfl, l.stored, rfl, rfl, hadmits⟩,
    fun bs t hlater hunexpired' => ?_⟩
  obtain ⟨iat, hmem, hsign, _⟩ := Platform.verifyAsync_eq_some.mp hverify
  obtain ⟨payload', iat', hsign', hlt⟩ := hunexpired'
  obtain ⟨rfl, rfl⟩ := π.jwtService.sign_inj (hsign'.trans hsign.symm)
  have hmem' := (run_extends hlater (run_obeys hrun)).issued.subset hmem
  exact (canActivate_iff hpublic).mpr ⟨token, _, hbears,
    Platform.verifyAsync_eq_some.mpr ⟨iat', hmem', hsign, hlt⟩, hadmits⟩

theorem accepted_bob :
    ∃ s token payload, Platform.sample.system.Run always Service.initial bobLogin s ∧
      Accepted Platform.sample bobLogin s (bobContext bobToken) token payload := by
  have hrun : Platform.sample.system.Run always Service.initial bobLogin _ :=
    System.run_outcome (by rfl)
  have hroute : AuthenticationGuard.isRoutePublic (bobContext bobToken) = false := rfl
  obtain ⟨token, payload, h⟩ := accepted hrun hroute rfl
  exact ⟨_, token, payload, hrun, h⟩

/-- Whoever the guard lets in is stored, was not modified since the token was
issued, and has a stored role that admits. -/
def AcceptsCurrent (π : Platform) (w : World) (context : ExecutionContext) : Prop :=
  ∀ token payload, context.Bears token → π.verifyAsync w token = some payload →
    AuthenticationGuard.canActivate π w context = .ok true →
    ∃ user, w.users.get payload.sub = some user ∧ user.modified = payload.modified ∧
      context.Admits payload.sub user.roles

/-- "bob" is removed after he has logged in. -/
def removalAfterLogin : List Service.Act :=
  bobLogin ++ [.start 2 (.remove "bob"), .env .commit, .resume 2 (.resolve 0)]

theorem removal_after_login :
    ∃ s, Platform.sample.system.Run always Service.initial removalAfterLogin s ∧
      AuthenticationGuard.isRoutePublic (bobContext bobToken) = false ∧
      ¬ AcceptsCurrent Platform.sample s.world (bobContext bobToken) := by
  have hrun := Platform.sample.system.run_outcome
    (show (Platform.sample.system.exec Service.initial removalAfterLogin).isSome = true from rfl)
  refine ⟨_, hrun, rfl, fun h => ?_⟩
  obtain ⟨user, huser, _⟩ := h bobToken _ ⟨_, [], rfl, rfl⟩ rfl rfl
  cases huser

end Guard

end RpiNestApi
