import RpiNestApi.Authentication.AdminFrame

/-
What every record of the users store satisfies.

A record gets into the store as a new one, or as the merge of a record that was
read from it.  A property of new records that merges keep is one of every record:
those that are stored, those that wait for their commit, and the copies that
updates in flight have read.
-/

namespace RpiNestApi

open Async

variable {π : Platform}

/-- Every record that was ever put, and every copy of one in flight, satisfies
`P`. -/
structure EveryRecord (P : UserLogin → IUserData → Prop) (g : Service.Config) : Prop where
  writes : ∀ n login user, g.world.users.Wrote n login (some user) → P login user
  copies : ∀ i t login data user, g.threads i = some t →
    t.status = .waits (.updating login data (some user)) → P login user

namespace EveryRecord

variable {P P' : UserLogin → IUserData → Prop} {g h : Service.Config}

theorem empty {w : World} (hw : w.users = .empty) :
    EveryRecord P { world := w, threads := fun _ => none } where
  writes n login user hwrote := by
    have hlt := hwrote.lt
    rw [hw] at hlt
    cases hlt
  copies i t login data user hi := by cases hi

theorem version (hg : EveryRecord P g) {n : Nat} {login : UserLogin} {user : IUserData}
    (h : g.world.users.version n login = some user) : P login user := by
  obtain ⟨m, _, hw, _⟩ := WriteBehind.Store.version_eq_some h
  exact hg.writes m login user hw

/-- A step keeps what new records satisfy and merges keep.  `P'` may say more
about the state after the step than `P` does about the one before. -/
theorem move {a : Service.Act} (hg : EveryRecord P g) (hledger : Ledger π g)
    (hmono : ∀ login user, P login user → P' login user)
    (hcreate : ∀ i c login data password, c.Creates π login data →
      g.Runs i c (some (.hashPassword password)) a → P' login (data.record login g.world.clock))
    (hmerge : ∀ i c login data user, c.Updates π login data → P login user →
      g.Runs i c (some (.updating login data (some user))) a →
      P' login (user.merge data g.world.clock))
    (hmove : Move (Step π) Platform.env g a h) : EveryRecord P' h where
  writes n login user hw := by
    rcases hledger.wrote_cases hmove hw with hw | ⟨_, i, t, o, _, _, hruns, hissues⟩
    · exact hmono login user (hg.writes n login user hw)
    · generalize t.call = c at hruns hissues
      cases hissues with
      | create hc hfree => exact hcreate i c login _ _ hc hruns
      | merge hc =>
          have hcopy := hruns
          cases hcopy with
          | resume hi => exact hmerge i c login _ _ hc (hg.copies i _ _ _ _ hi rfl) hruns
  copies i t login data user hi hstatus := by
    rcases hmove.ran hi with hi₀ | ⟨o, _, hT⟩
    · exact hmono login user (hg.copies i t login data user hi₀ hstatus)
    · rw [hstatus] at hT
      exact hmono login user (hg.version hT.updating.2.symm)

end EveryRecord

end RpiNestApi
