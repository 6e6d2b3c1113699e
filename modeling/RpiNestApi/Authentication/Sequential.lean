import RpiNestApi.Async.Alone
import RpiNestApi.Authentication.Services

/-
The methods of the repository and the services, run alone.

A method that runs alone reads what was last written, and its own write is
committed before it returns.  The environment has no say in what it does but for
the salts, the time, and the promises it rejects.
-/

namespace RpiNestApi

open Async

abbrev Records := UserLogin → Option IUserData

variable {π : Platform} {allowed : Choice → Prop}

/-- No write is outstanding, and a read sees `records` and `settings`. -/
structure World.Shows (w : World) (records : Records)
    (settings : Option AuthenticationSettings) : Prop where
  applied : w.users.applied = w.users.writes.length
  users : w.users.get = records
  settings : w.settings = settings

/-- The environment does nothing but commit writes and let time pass. -/
theorem Platform.idle {w w' : World} (h : π.system.Idle w w') :
    w'.users.writes = w.users.writes ∧ w.users.applied ≤ w'.users.applied ∧
      w'.settings = w.settings := by
  induction h with
  | refl => exact ⟨rfl, Nat.le_refl _, rfl⟩
  | tail _ hstep ih =>
      obtain ⟨e, he⟩ := hstep
      cases e with
      | commit =>
          obtain ⟨users, husers, rfl⟩ := Option.map_eq_some_iff.mp he
          obtain ⟨_, hwrites, happlied⟩ := WriteBehind.Store.commit_eq_some husers
          refine ⟨hwrites.trans ih.1, ?_, ih.2.2⟩
          have hle := ih.2.1
          show _ ≤ users.applied
          omega
      | clock now =>
          cases he
          exact ih

variable {w : World} {records : Records} {settings : Option AuthenticationSettings}

theorem World.Shows.idle (h : w.Shows records settings) {w' : World}
    (hidle : π.system.Idle w w') : w'.Shows records settings := by
  obtain ⟨hwrites, happlied, hsettings⟩ := Platform.idle hidle
  have hle := w'.users.applied_le
  have hall : w'.users.applied = w.users.applied := by
    rw [hwrites] at hle
    have := h.applied
    omega
  exact { applied := by rw [hall, hwrites, h.applied]
          users := by
            rw [← h.users]
            funext u
            rw [WriteBehind.Store.get, WriteBehind.Store.version_congr hwrites, hall,
              WriteBehind.Store.get]
          settings := hsettings.trans h.settings }

/-! ## A write on its own -/

section Write

variable {w₀ : World} {login : UserLogin} {o : Option IUserData}

theorem World.Shows.written (h : w.Shows records settings)
    (hidle : π.system.Idle (w.write login o) w₀) :
    w₀.users.writes = w.users.writes ++ [(login, o)] ∧
      w.users.writes.length ≤ w₀.users.applied ∧
        w₀.users.applied ≤ w.users.writes.length + 1 := by
  obtain ⟨hwrites, happlied, _⟩ := Platform.idle hidle
  have hle := w₀.users.applied_le
  rw [World.users_write, WriteBehind.Store.writes_issue] at hwrites
  rw [World.users_write, WriteBehind.Store.applied_issue, h.applied] at happlied
  rw [hwrites, List.length_append, List.length_singleton] at hle
  exact ⟨hwrites, happlied, hle⟩

/-- The store can commit the write. -/
theorem World.Shows.exists_committed (h : w.Shows records settings)
    (hidle : π.system.Idle (w.write login o) w₀) :
    ∃ w₁, π.system.Idle w₀ w₁ ∧ w₁.users.Committed w.users.writes.length := by
  obtain ⟨hwrites, happlied, hle⟩ := h.written hidle
  by_cases hdone : w.users.writes.length < w₀.users.applied
  · exact ⟨w₀, .refl, hdone⟩
  · have hlt : w₀.users.applied < w₀.users.writes.length := by
      rw [hwrites, List.length_append, List.length_singleton]
      omega
    obtain ⟨users, husers⟩ := WriteBehind.Store.exists_commit hlt
    obtain ⟨_, _, hsucc⟩ := WriteBehind.Store.commit_eq_some husers
    let w₁ : World := { w₀ with users }
    have hcommit : Platform.env .commit w₀ = some w₁ := by
      rw [Platform.env, husers]
      rfl
    refine ⟨w₁, .single ⟨.commit, hcommit⟩, ?_⟩
    show w.users.writes.length < users.applied
    omega

/-- Once the write is committed a read sees it, and the rest as before. -/
theorem World.Shows.committed (h : w.Shows records settings)
    (hidle : π.system.Idle (w.write login o) w₀)
    (hdone : w₀.users.Committed w.users.writes.length) :
    w₀.Shows (Function.update records login o) settings := by
  obtain ⟨hwrites, _, hle⟩ := h.written hidle
  have hsettings := (Platform.idle hidle).2.2
  have hdone : w.users.writes.length < w₀.users.applied := hdone
  have hall : w₀.users.applied = w₀.users.writes.length := by
    rw [hwrites, List.length_append, List.length_singleton]
    omega
  have hissued : w₀.users.writes = (w.users.issue login o).writes := hwrites
  refine { applied := hall, users := ?_, settings := hsettings.trans h.settings }
  funext u
  rw [WriteBehind.Store.get, WriteBehind.Store.version_congr hissued, hall, hissued]
  show (w.users.issue login o).latest u = _
  rw [WriteBehind.Store.latest_issue, Function.update_apply]
  by_cases hu : login = u
  · rw [if_pos hu, if_pos hu.symm]
  · rw [if_neg hu, if_neg fun he => hu he.symm, WriteBehind.Store.latest, ← h.applied, ← h.users,
      WriteBehind.Store.get]

end Write

/-! ## Rules for the methods -/

section Ends

abbrev Service.Ends (π : Platform) (allowed : Choice → Prop) {α : Type} (p : Service α)
    (post : Except Exception α → World → Prop) (w : World) : Prop :=
  Prog.Ends π.system.answer π.system.Idle allowed p post w

variable (hresolve : ∀ salt, allowed (.resolve salt))
include hresolve

/-- A promise that can always resolve. -/
theorem await_ends {q : Await} {post : Except Exception q.Answer → World → Prop}
    (hw : w.Shows records settings) (hgo : ∀ w, ∃ r, π.answer q (.resolve 0) w = some r)
    (hpost : ∀ w c r, w.Shows records settings → allowed c → π.answer q c w = some r →
      post r.1 r.2) :
    Service.Ends π allowed (await q) post w := by
  rw [Service.Ends, await, Prog.ends_call]
  intro w₀ hw₀
  obtain ⟨r, hr⟩ := hgo w₀
  exact ⟨⟨w₀, _, r, .refl, hresolve 0, hr⟩, fun c r hc hr => hpost w₀ c r (hw.idle hw₀) hc hr⟩

/-- A promise that is never rejected, and that changes nothing. -/
theorem value_ends {q : Await} {a : q.Answer} {post : Except Exception q.Answer → World → Prop}
    (hw : w.Shows records settings) (hgo : ∀ salt w, π.answer q (.resolve salt) w = some (.ok a, w))
    (hnever : ∀ e w, π.answer q (.reject e) w = none)
    (hpost : ∀ w, w.Shows records settings → post (.ok a) w) :
    Service.Ends π allowed (await q) post w := by
  refine await_ends hresolve hw (fun w => ⟨_, hgo 0 w⟩) fun w c r hw hc hr => ?_
  cases c with
  | reject e => cases (hnever e w).symm.trans hr
  | resolve salt =>
      cases (hgo salt w).symm.trans hr
      exact hpost w hw

theorem hashPassword_ends {password : String} {post : Except Exception String → World → Prop}
    (hw : w.Shows records settings)
    (hok : ∀ salt w, w.Shows records settings → post (.ok (π.bcrypt.hash password salt)) w)
    (herror : ∀ e w, w.Shows records settings → allowed (.reject e) → post (.error e) w) :
    Service.Ends π allowed (CryptoService.hashPassword password) post w := by
  refine await_ends hresolve hw (fun w => ⟨_, rfl⟩) fun w c r hw hc hr => ?_
  cases c with
  | resolve salt =>
      cases hr
      exact hok salt w hw
  | reject e =>
      cases hr
      exact herror e w hw hc

theorem getDeviceDefaultPassword_ends {post : Except Exception String → World → Prop}
    (hw : w.Shows records settings)
    (hok : ∀ w, w.Shows records settings → post (.ok π.deviceDefaultPassword) w)
    (herror : ∀ e w, w.Shows records settings → allowed (.reject e) → post (.error e) w) :
    Service.Ends π allowed CryptoService.getDeviceDefaultPassword post w := by
  refine await_ends hresolve hw (fun w => ⟨_, rfl⟩) fun w c r hw hc hr => ?_
  cases c with
  | resolve salt =>
      cases hr
      exact hok w hw
  | reject e =>
      cases hr
      exact herror e w hw hc

theorem put_ends {login : UserLogin} {o : Option IUserData}
    {post : Except Exception Unit → World → Prop} (hw : w.Shows records settings)
    (hok : ∀ w, w.Shows (Function.update records login o) settings → post (.ok ()) w) :
    Service.Ends π allowed (UserRepository.put login o) post w := by
  simp only [Service.Ends, UserRepository.put, Prog.read, Prog.modify, await, Prog.bind_def,
    Prog.sync_bind, Prog.ret_bind, Prog.ends_sync, Prog.ends_call, id]
  intro w₀ hw₀
  constructor
  · obtain ⟨w₁, hw₁, hdone⟩ := hw.exists_committed hw₀
    exact ⟨w₁, .resolve 0, (.ok (), w₁), hw₁, hresolve 0, if_pos hdone⟩
  · intro c r hc hr
    cases c with
    | reject e => cases hr
    | resolve salt =>
        obtain ⟨hdone, hr⟩ := Option.ite_none_right_eq_some.mp hr
        cases hr
        exact hok w₀ (hw.committed hw₀ hdone)

theorem create_ends {login : UserLogin} {data : CreateUserData}
    {post : Except Exception Unit → World → Prop} (hw : w.Shows records settings)
    (hok : records login = none → ∀ created w,
      w.Shows (Function.update records login (some (data.record login created))) settings →
        post (.ok ()) w)
    (herror : records login ≠ none → ∀ e, post (.error e) w) :
    Service.Ends π allowed (UserRepository.create login data) post w := by
  simp only [Service.Ends, UserRepository.create, Prog.read, Prog.bind_def, Prog.sync_bind,
    Prog.ret_bind, Prog.ends_sync, Prog.ends_ite, id]
  have hget : w.users.get login = records login := congrFun hw.users login
  constructor
  · intro hex
    refine herror ?_ _
    rw [← hget]
    simpa [WriteBehind.Store.doesExist, Option.isSome_iff_ne_none] using hex
  · intro hfree
    refine put_ends hresolve hw fun w' hw' => hok ?_ _ w' hw'
    rw [← hget]
    simpa [WriteBehind.Store.doesExist] using hfree

theorem update_ends {login : UserLogin} {data : UpdateUserData}
    {post : Except Exception Unit → World → Prop} (hw : w.Shows records settings)
    (hok : ∀ user, records login = some user → ∀ modified w,
      w.Shows (Function.update records login (some (user.merge data modified))) settings →
        post (.ok ()) w)
    (herror : records login = none → ∀ e w, w.Shows records settings → post (.error e) w) :
    Service.Ends π allowed (UserRepository.update login data) post w := by
  simp only [Service.Ends, UserRepository.update, UserRepository.getByLogin, Prog.read,
    Prog.bind_def, Prog.pure_def, Prog.sync_bind, Prog.ret_bind, Prog.ends_sync, Prog.ends_bind,
    id]
  have hget : w.users.get login = records login := congrFun hw.users login
  refine value_ends hresolve hw (fun _ _ => rfl) (fun _ _ => rfl) fun w' hw' => ?_
  rw [hget]
  cases huser : records login with
  | none => exact herror huser _ w' hw'
  | some user => exact put_ends hresolve hw' fun w'' hw'' => hok user huser _ w'' hw''

theorem remove_ends {login : UserLogin} {post : Except Exception Unit → World → Prop}
    (hw : w.Shows records settings)
    (hok : records login ≠ none →
      ∀ w, w.Shows (Function.update records login none) settings → post (.ok ()) w)
    (herror : records login = none → ∀ e, post (.error e) w) :
    Service.Ends π allowed (UserRepository.remove login) post w := by
  simp only [Service.Ends, UserRepository.remove, Prog.read, Prog.bind_def, Prog.sync_bind,
    Prog.ret_bind, Prog.ends_sync, Prog.ends_ite, id]
  have hget : w.users.get login = records login := congrFun hw.users login
  constructor
  · intro hfree
    refine herror ?_ _
    rw [← hget]
    simpa [WriteBehind.Store.doesExist] using hfree
  · intro hex
    refine put_ends hresolve hw fun w' hw' => hok ?_ w' hw'
    rw [← hget]
    simpa [WriteBehind.Store.doesExist, Option.isSome_iff_ne_none] using hex

theorem getAuthenticatedUserOrThrow_ends {login : UserLogin} {password : String}
    {post : Except Exception IUserData → World → Prop} (hw : w.Shows records settings)
    (hok : ∀ user, records login = some user →
      π.bcrypt.compare password user.passwordHash = true →
        ∀ w, w.Shows records settings → post (.ok user) w)
    (herror : ∀ e w, w.Shows records settings →
      (∃ e, allowed (.reject e)) ∨
        (∀ user, records login = some user →
          π.bcrypt.compare password user.passwordHash = false) → post (.error e) w) :
    Service.Ends π allowed (AuthenticationService.getAuthenticatedUserOrThrow login password)
      post w := by
  simp only [Service.Ends, AuthenticationService.getAuthenticatedUserOrThrow,
    AuthenticationService.getUserOrThrow, UserRepository.getByLogin,
    CryptoService.comparePasswords, Prog.read, Prog.bind_def, Prog.pure_def, Prog.sync_bind,
    Prog.ret_bind, Prog.ends_sync, Prog.ends_bind, id]
  have hget : w.users.get login = records login := congrFun hw.users login
  refine value_ends hresolve hw (fun _ _ => rfl) (fun _ _ => rfl) fun w' hw' => ?_
  rw [hget]
  cases huser : records login with
  | none => exact herror _ w' hw' (.inr fun user h => by simp [huser] at h)
  | some user =>
      refine await_ends hresolve hw' (fun w => ⟨_, rfl⟩) fun w'' c r hw'' hc hr => ?_
      cases c with
      | reject e =>
          cases hr
          exact herror e w'' hw'' (.inl ⟨e, hc⟩)
      | resolve salt =>
          cases hr
          refine Prog.ends_ite.mpr ⟨fun hwrong => ?_, fun hcorrect => ?_⟩
          · refine herror _ w'' hw'' (.inr fun user' h => ?_)
            cases huser.symm.trans h
            exact hwrong
          · exact hok user huser (by simpa using hcorrect) w'' hw''

theorem updateUserPassword_ends {login : UserLogin} {newPassword : String}
    {post : Except Exception Unit → World → Prop} (hw : w.Shows records settings)
    (hok : ∀ user, records login = some user → ∀ salt modified w,
      w.Shows (Function.update records login (some
        (user.merge { passwordHash := some (π.bcrypt.hash newPassword salt) } modified)))
          settings → post (.ok ()) w)
    (herror : ∀ e w, w.Shows records settings →
      (∃ e, allowed (.reject e)) ∨ records login = none → post (.error e) w) :
    Service.Ends π allowed (AuthenticationService.updateUserPassword login newPassword)
      post w := by
  rw [AuthenticationService.updateUserPassword, Prog.bind_def, Service.Ends, Prog.ends_bind]
  refine hashPassword_ends hresolve hw (fun salt w' hw' => ?_)
    fun e w' hw' hc => herror e w' hw' (.inl ⟨e, hc⟩)
  exact update_ends hresolve hw' (fun user huser modified => hok user huser salt modified)
    fun hnone e w'' hw'' => herror e w'' hw'' (.inr hnone)

end Ends

end RpiNestApi
