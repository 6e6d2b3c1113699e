import RpiNestApi.Async.Apart
import RpiNestApi.Authentication.Accounts
import RpiNestApi.Authentication.Writes

/-
The methods of the repository and the services, undisturbed.

A call concerns an account, the settings, or both, and others may write whatever it does not
concern while it waits.  What a method reads under its login is then what was last written
there, and its own write is committed before it returns.
-/

namespace RpiNestApi

open Async

/-! ## What a call concerns -/

/-- The parts of the account table. -/
inductive Key where
  | account (login : UserLogin)
  | settings
  deriving DecidableEq, Repr

def Call.keys : Call → List Key
  | .create user => [.account user.login]
  | .update updateUser =>
    match updateUser.login with
    | .value userLogin => [.account userLogin]
    | _ => []
  | .remove userLogin => [.account userLogin]
  | .createAdmin => [.account adminUserName]
  | .login userLogin _ => [.account userLogin]
  | .updatePassword userLogin _ _ => [.account userLogin]
  | .resetAdminPassword => [.account adminUserName, .settings]
  | .resetSettings => [.settings]
  | .updateSettings _ => [.settings]

/-- What may become of the world where a part is left alone. -/
def Key.Rely : Key → World → World → Prop
  | .account login, w, w' =>
    w.users.Extends w'.users ∧
      ∀ n o, w.users.writes.length ≤ n → ¬ w'.users.Wrote n login o
  | .settings, w, w' => w'.settings = w.settings

def Call.Relies (c : Call) (w w' : World) : Prop := ∀ k ∈ c.keys, k.Rely w w'

variable {π : Platform}

theorem Key.Rely.refl (k : Key) (w : World) : k.Rely w w := by
  cases k with
  | account login => exact ⟨.refl _, fun n o hn hw => absurd hw.lt (Nat.not_lt.mpr hn)⟩
  | settings => rfl

theorem Key.Rely.trans {k : Key} {w w' w'' : World} (h : k.Rely w w') (h' : k.Rely w' w'') :
    k.Rely w w'' := by
  cases k with
  | account login =>
      refine ⟨h.1.trans h'.1, fun n o hn hw => ?_⟩
      by_cases hlt : n < w'.users.writes.length
      · exact h.2 n o hn (h'.1.wrote_of_lt hlt hw)
      · exact h'.2 n o (Nat.le_of_not_lt hlt) hw
  | settings => exact Eq.trans h' h

/-- Commits and the clock leave every part alone. -/
theorem Key.Rely.env {e : Env} {w w' : World} (h : Platform.env e w = some w') (k : Key) :
    k.Rely w w' := by
  cases k with
  | account login =>
      obtain ⟨hwrites, _, happlied⟩ := Platform.env_spec h
      refine ⟨⟨hwrites ▸ List.prefix_refl _, happlied⟩, fun n o hn hw => ?_⟩
      rw [WriteBehind.Store.wrote_congr hwrites] at hw
      exact absurd hw.lt (Nat.not_lt.mpr hn)
  | settings =>
      cases e with
      | commit =>
          obtain ⟨users, _, rfl⟩ := Option.map_eq_some_iff.mp h
          rfl
      | clock now =>
          cases h
          rfl

theorem Key.Rely.idle {w w' : World} (h : π.system.Idle w w') (k : Key) : k.Rely w w' := by
  induction h with
  | refl => exact .refl k w
  | tail _ hstep ih =>
      obtain ⟨e, he⟩ := hstep
      exact ih.trans (.env he k)

/-- A write is of the account that the call concerns. -/
theorem Issues.concerns {w : World} {c : Call} {o : Option Await} {login : UserLogin}
    {v : Option IUserData} (h : Issues π w c o login v) : .account login ∈ c.keys := by
  cases h with
  | create hc _ =>
      cases c with
      | create user =>
          obtain ⟨rfl, _⟩ := hc
          exact List.mem_singleton_self _
      | createAdmin =>
          obtain ⟨rfl, _⟩ := hc
          exact List.mem_singleton_self _
      | _ => exact hc.elim
  | merge hc =>
      cases c with
      | update updateUser =>
          obtain ⟨hlogin, _⟩ := hc
          simp [Call.keys, hlogin]
      | updatePassword userLogin _ _ =>
          obtain ⟨rfl, _⟩ := hc
          exact List.mem_singleton_self _
      | resetAdminPassword =>
          obtain ⟨rfl, _⟩ := hc
          exact List.mem_cons_self
      | _ => exact hc.elim
  | remove => exact List.mem_singleton_self _

theorem Step.settings {c : Call} {o : Option Await} {w w' : World}
    {st : Status Await Exception Response} (h : Step π c o w w' st) (hc : .settings ∉ c.keys) :
    w'.settings = w.settings := by
  cases h with
  | settingsPut hput =>
      cases c with
      | resetSettings => exact absurd (List.mem_singleton_self _) hc
      | updateSettings data => exact absurd (List.mem_singleton_self _) hc
      | _ => exact hput.elim
  | _ => rfl

/-- A step leaves alone what its call does not concern. -/
theorem Step.rely {c : Call} {o : Option Await} {w w' : World}
    {st : Status Await Exception Response} (h : Step π c o w w' st) {k : Key} (hk : k ∉ c.keys) :
    k.Rely w w' := by
  cases k with
  | account login =>
      refine ⟨h.extends.users, fun n o' hn hw => ?_⟩
      rcases h.users with ⟨login', v, hissues, rfl, _⟩ | ⟨husers, _⟩
      · rcases WriteBehind.Store.wrote_issue_iff.mp hw with hw | ⟨_, rfl, _⟩
        · exact absurd hw.lt (Nat.not_lt.mpr hn)
        · exact hk hissues.concerns
      · rw [husers] at hw
        exact absurd hw.lt (Nat.not_lt.mpr hn)
  | settings => exact h.settings hk

/-! ## What a call sees -/

/-- Under the login is `o`, nothing is on its way there, and the settings are as said if the
call concerns them. -/
structure World.Holds (w : World) (c : Call) (login : UserLogin) (o : Option IUserData)
    (settings : Option AuthenticationSettings) : Prop where
  settled : ¬ w.users.Pending login
  get : w.users.get login = o
  settings : .settings ∈ c.keys → w.settings = settings

/-- Once the writes of a login are committed and no new ones follow, a read sees the last. -/
theorem settled_of_committed {s s' : WriteBehind.Store UserLogin IUserData} {login : UserLogin}
    (h : s.Extends s') (hnew : ∀ n o, s.writes.length ≤ n → ¬ s'.Wrote n login o)
    (hs : ∀ n o, s.Wrote n login o → s'.Committed n) :
    ¬ s'.Pending login ∧ s'.get login = s.latest login := by
  have hcommitted : ∀ n o, s'.Wrote n login o → s'.Committed n := by
    intro n o hw
    by_cases hn : n < s.writes.length
    · exact hs n o (h.wrote_of_lt hn hw)
    · exact absurd hw (hnew n o (Nat.le_of_not_lt hn))
  constructor
  · rw [WriteBehind.Store.pending_iff]
    rintro ⟨n, o, hn, hw⟩
    exact Nat.not_lt.mpr hn (hcommitted n o hw)
  · have hlatest : s'.latest login = s'.get login :=
      s'.version_eq_of_untouched s'.applied_le fun n hn _ o hw =>
        Nat.not_lt.mpr hn (hcommitted n o hw)
    rw [← hlatest]
    exact (s'.version_eq_of_untouched h.length_le fun n hn _ o => hnew n o hn).trans
      (h.version (Nat.le_refl _) login)

theorem committed_of_settled {s : WriteBehind.Store UserLogin IUserData} {login : UserLogin}
    (h : ¬ s.Pending login) {n : Nat} {o : Option IUserData} (hw : s.Wrote n login o) :
    s.Committed n := by
  rw [WriteBehind.Store.pending_iff] at h
  exact Nat.lt_of_not_le fun hn => h ⟨n, o, hn, hw⟩

/-- What was last issued is what a read sees. -/
theorem latest_of_settled {s : WriteBehind.Store UserLogin IUserData} {login : UserLogin}
    (h : ¬ s.Pending login) : s.latest login = s.get login :=
  s.version_eq_of_untouched s.applied_le fun _ hn _ _ hw =>
    Nat.not_lt.mpr hn (committed_of_settled h hw)

section Holds

variable {w w' : World} {c : Call} {login : UserLogin} {o o' : Option IUserData}
variable {settings : Option AuthenticationSettings}

theorem Key.Rely.settled (hrely : (Key.account login).Rely w w') (h : ¬ w.users.Pending login) :
    ¬ w'.users.Pending login ∧ w'.users.get login = w.users.get login := by
  obtain ⟨hextends, hnew⟩ := hrely
  obtain ⟨hsettled, hget⟩ := settled_of_committed hextends hnew fun n o hw =>
    hextends.committed (committed_of_settled h hw)
  exact ⟨hsettled, hget.trans (latest_of_settled h)⟩

theorem World.Holds.relies (h : w.Holds c login o settings) (hkey : .account login ∈ c.keys)
    (hrely : c.Relies w w') : w'.Holds c login o settings := by
  obtain ⟨hsettled, hget⟩ := (hrely _ hkey).settled h.settled
  exact {
    settled := hsettled
    get := hget.trans h.get
    settings := fun hc => Eq.trans (hrely _ hc) (h.settings hc) }

/-- Once the write of the call is committed a read sees it. -/
theorem World.Holds.written (h : w.Holds c login o settings) (hkey : .account login ∈ c.keys)
    (hrely : c.Relies (w.write login o') w')
    (hdone : w'.users.Committed w.users.writes.length) : w'.Holds c login o' settings := by
  obtain ⟨hextends, hnew⟩ := hrely _ hkey
  obtain ⟨hsettled, hget⟩ := settled_of_committed hextends hnew fun n o hw => by
    rcases WriteBehind.Store.wrote_issue_iff.mp hw with hw | ⟨rfl, _⟩
    · exact hextends.committed (committed_of_settled h.settled hw)
    · exact hdone
  exact {
    settled := hsettled
    get := by
      rw [hget, World.users_write, WriteBehind.Store.latest_issue, if_pos rfl]
    settings := fun hc => Eq.trans (hrely _ hc) (h.settings hc) }

/-- The store can commit every write that it was given. -/
theorem exists_committed {n : Nat} (hn : n < w.users.writes.length) :
    ∃ w', π.system.Idle w w' ∧ w'.users.Committed n := by
  induction hm : n + 1 - w.users.applied generalizing w with
  | zero => exact ⟨w, .refl, show n < w.users.applied by omega⟩
  | succ m ih =>
      obtain ⟨users, husers⟩ :=
        WriteBehind.Store.exists_commit (show w.users.applied < w.users.writes.length by omega)
      obtain ⟨_, hwrites, happlied⟩ := WriteBehind.Store.commit_eq_some husers
      have hcommit : Platform.env .commit w = some { w with users } := by
        rw [Platform.env, husers]
        rfl
      obtain ⟨w', hidle, hdone⟩ := ih (w := { w with users }) (by rw [hwrites]; exact hn)
        (show n + 1 - users.applied = m by omega)
      exact ⟨w', .head ⟨.commit, hcommit⟩ hidle, hdone⟩

end Holds

/-! ## Rules for the methods -/

/-- The promises of the thread settle, and they are rejected only if `rejected`. -/
def Choice.Allowed (rejected : Prop) : Choice → Prop
  | .resolve _ => True
  | .reject _ => rejected

section Ends

/-- Run among others that leave alone what `c` concerns, `p` comes to an end with `post`. -/
abbrev Call.Ends (π : Platform) (rejected : Prop) (c : Call) {α : Type} (p : Service α)
    (post : Except Exception α → World → Prop) (w : World) : Prop :=
  Prog.Ends π.system.answer c.Relies (Choice.Allowed rejected) p post w

variable {rejected : Prop} {w : World} {c : Call} {login : UserLogin} {o : Option IUserData}
variable {settings : Option AuthenticationSettings} (hkey : .account login ∈ c.keys)
variable (hw : w.Holds c login o settings)
include hkey hw

theorem await_apart {q : Await} {post : Except Exception q.Answer → World → Prop}
    (hgo : ∀ w, ∃ r, π.answer q (.resolve 0) w = some r)
    (hpost : ∀ w k r, w.Holds c login o settings → k.Allowed rejected →
      π.answer q k w = some r → post r.1 r.2) :
    c.Ends π rejected (await q) post w := by
  rw [Call.Ends, await, Prog.ends_call]
  intro w₀ hw₀
  obtain ⟨r, hr⟩ := hgo w₀
  exact ⟨⟨w₀, .resolve 0, r, fun k _ => .refl k w₀, trivial, hr⟩,
    fun k r hk hr => hpost w₀ k r (hw.relies hkey hw₀) hk hr⟩

/-- A promise that is never rejected. -/
theorem value_apart {q : Await} {a : q.Answer} {post : Except Exception q.Answer → World → Prop}
    (hresolve : ∀ salt w, π.answer q (.resolve salt) w = some (.ok a, w))
    (hreject : ∀ e w, π.answer q (.reject e) w = none)
    (hpost : ∀ w, w.Holds c login o settings → post (.ok a) w) :
    c.Ends π rejected (await q) post w := by
  refine await_apart hkey hw (fun w => ⟨_, hresolve 0 w⟩) fun w k r hw hk hr => ?_
  cases k with
  | reject e => cases (hreject e w).symm.trans hr
  | resolve salt =>
      cases (hresolve salt w).symm.trans hr
      exact hpost w hw

/-- A promise of the process itself, which changes nothing. -/
theorem promise_apart {q : Await} {f : Nat → q.Answer}
    {post : Except Exception q.Answer → World → Prop}
    (hresolve : ∀ salt w, π.answer q (.resolve salt) w = some (.ok (f salt), w))
    (hreject : ∀ e w, π.answer q (.reject e) w = some (.error e, w))
    (hok : ∀ salt w, w.Holds c login o settings → post (.ok (f salt)) w)
    (herror : ∀ e w, w.Holds c login o settings → rejected → post (.error e) w) :
    c.Ends π rejected (await q) post w := by
  refine await_apart hkey hw (fun w => ⟨_, hresolve 0 w⟩) fun w k r hw hk hr => ?_
  cases k with
  | reject e =>
      cases (hreject e w).symm.trans hr
      exact herror e w hw hk
  | resolve salt =>
      cases (hresolve salt w).symm.trans hr
      exact hok salt w hw

theorem put_apart {o' : Option IUserData} {post : Except Exception Unit → World → Prop}
    (hok : ∀ w, w.Holds c login o' settings → post (.ok ()) w) :
    c.Ends π rejected (UserRepository.put login o') post w := by
  simp only [Call.Ends, UserRepository.put, Prog.read, Prog.modify, await, Prog.bind_def,
    Prog.sync_bind, Prog.ret_bind, Prog.ends_sync, Prog.ends_call, id]
  intro w₀ hw₀
  have hissued : w.users.writes.length < w₀.users.writes.length :=
    Nat.lt_of_lt_of_le (by simp) (hw₀ _ hkey).1.length_le
  obtain ⟨w₁, hidle, hdone⟩ := exists_committed (π := π) hissued
  constructor
  · exact ⟨w₁, .resolve 0, (.ok (), w₁), fun k _ => .idle hidle k, trivial, if_pos hdone⟩
  · intro k r hk hr
    cases k with
    | reject e => cases hr
    | resolve salt =>
        obtain ⟨hdone, hr⟩ := Option.ite_none_right_eq_some.mp hr
        cases hr
        exact hok w₀ (hw.written hkey hw₀ hdone)

theorem create_apart {data : CreateUserData} {post : Except Exception Unit → World → Prop}
    (hok : o = none → ∀ created w,
      w.Holds c login (some (data.record login created)) settings → post (.ok ()) w)
    (herror : o ≠ none → ∀ e, post (.error e) w) :
    c.Ends π rejected (UserRepository.create login data) post w := by
  simp only [Call.Ends, UserRepository.create, Prog.read, Prog.bind_def, Prog.sync_bind,
    Prog.ret_bind, Prog.ends_sync, Prog.ends_ite, id]
  constructor
  · intro hex
    refine herror ?_ _
    rw [← hw.get]
    simpa [WriteBehind.Store.doesExist, Option.isSome_iff_ne_none] using hex
  · intro hfree
    refine put_apart hkey hw fun w' hw' => hok ?_ _ w' hw'
    rw [← hw.get]
    simpa [WriteBehind.Store.doesExist] using hfree

theorem update_apart {data : UpdateUserData} {post : Except Exception Unit → World → Prop}
    (hok : ∀ user, o = some user → ∀ modified w,
      w.Holds c login (some (user.merge data modified)) settings → post (.ok ()) w)
    (herror : o = none → ∀ e w, w.Holds c login o settings → post (.error e) w) :
    c.Ends π rejected (UserRepository.update login data) post w := by
  simp only [Call.Ends, UserRepository.update, UserRepository.getByLogin, Prog.read,
    Prog.bind_def, Prog.pure_def, Prog.sync_bind, Prog.ret_bind, Prog.ends_sync, Prog.ends_bind,
    id, hw.get]
  refine value_apart hkey hw (fun _ _ => rfl) (fun _ _ => rfl) fun w' hw' => ?_
  cases o with
  | none => exact herror rfl _ w' hw'
  | some user => exact put_apart hkey hw' fun w'' hw'' => hok user rfl _ w'' hw''

theorem remove_apart {post : Except Exception Unit → World → Prop}
    (hok : o ≠ none → ∀ w, w.Holds c login none settings → post (.ok ()) w)
    (herror : o = none → ∀ e, post (.error e) w) :
    c.Ends π rejected (UserRepository.remove login) post w := by
  simp only [Call.Ends, UserRepository.remove, Prog.read, Prog.bind_def, Prog.sync_bind,
    Prog.ret_bind, Prog.ends_sync, Prog.ends_ite, id]
  constructor
  · intro hfree
    refine herror ?_ _
    rw [← hw.get]
    simpa [WriteBehind.Store.doesExist] using hfree
  · intro hex
    refine put_apart hkey hw fun w' hw' => hok ?_ w' hw'
    rw [← hw.get]
    simpa [WriteBehind.Store.doesExist, Option.isSome_iff_ne_none] using hex

theorem getAuthenticatedUserOrThrow_apart {password : String}
    {post : Except Exception IUserData → World → Prop}
    (hok : ∀ user, o = some user → π.bcrypt.compare password user.passwordHash = true →
      ∀ w, w.Holds c login o settings → post (.ok user) w)
    (herror : ∀ e w, w.Holds c login o settings →
      rejected ∨ (∀ user, o = some user → π.bcrypt.compare password user.passwordHash = false) →
        post (.error e) w) :
    c.Ends π rejected (AuthenticationService.getAuthenticatedUserOrThrow login password)
      post w := by
  simp only [Call.Ends, AuthenticationService.getAuthenticatedUserOrThrow,
    AuthenticationService.getUserOrThrow, UserRepository.getByLogin,
    CryptoService.comparePasswords, Prog.read, Prog.bind_def, Prog.pure_def, Prog.sync_bind,
    Prog.ret_bind, Prog.ends_sync, Prog.ends_bind, id, hw.get]
  refine value_apart hkey hw (fun _ _ => rfl) (fun _ _ => rfl) fun w' hw' => ?_
  cases o with
  | none => exact herror _ w' hw' (.inr fun user h => absurd h.symm (Option.some_ne_none user))
  | some user =>
      refine promise_apart hkey hw' (fun _ _ => rfl) (fun _ _ => rfl) (fun _ w'' hw'' => ?_)
        fun e w'' hw'' h => herror e w'' hw'' (.inl h)
      refine Prog.ends_ite.mpr ⟨fun hwrong => ?_, fun hcorrect => ?_⟩
      · refine herror _ w'' hw'' (.inr fun user' h => ?_)
        cases h
        exact hwrong
      · exact hok user rfl (by simpa using hcorrect) w'' hw''

theorem updateUserPassword_apart {newPassword : String}
    {post : Except Exception Unit → World → Prop}
    (hok : ∀ user, o = some user → ∀ salt modified w, w.Holds c login (some
      (user.merge { passwordHash := some (π.bcrypt.hash newPassword salt) } modified))
        settings → post (.ok ()) w)
    (herror : ∀ e w, w.Holds c login o settings → rejected ∨ o = none → post (.error e) w) :
    c.Ends π rejected (AuthenticationService.updateUserPassword login newPassword) post w := by
  rw [AuthenticationService.updateUserPassword, Prog.bind_def, Call.Ends, Prog.ends_bind]
  refine promise_apart hkey hw (fun _ _ => rfl) (fun _ _ => rfl) (fun salt w' hw' => ?_)
    fun e w' hw' h => herror e w' hw' (.inl h)
  exact update_apart hkey hw' (fun user huser modified => hok user huser salt modified)
    fun hnone e w'' hw'' => herror e w'' hw'' (.inr hnone)

end Ends

end RpiNestApi
