import RpiNestApi.Async.History
import RpiNestApi.Authentication.Steps

/-
Which call issued a write of the users store.

A write is identified by its ticket, its position in the store.  In every state
of a run each write has one thread that awaited its ticket, and that thread
tells what the write stored: a new record, the merge of the record it had read,
or nothing.
-/

namespace RpiNestApi

open Async

/-- The worlds a run passes through later. -/
structure World.Extends (w w' : World) : Prop where
  users : w.users.Extends w'.users
  issued : w.issued <+: w'.issued

theorem World.Extends.refl (w : World) : w.Extends w :=
  { users := .refl _, issued := List.prefix_refl _ }

theorem World.Extends.trans {w w' w'' : World} (h : w.Extends w') (h' : w'.Extends w'') :
    w.Extends w'' :=
  { users := h.users.trans h'.users, issued := h.issued.trans h'.issued }

theorem World.Extends.write (w : World) (login : UserLogin) (v : Option IUserData) :
    w.Extends (w.write login v) :=
  { users := .issue _ _ _, issued := List.prefix_refl _ }

/-- The call `c`, resumed from `o`, issues a write of `v` under `login`. -/
inductive Issues (π : Platform) (w : World) :
    Call → Option Await → UserLogin → Option IUserData → Prop
  | create {c login data password} (hc : c.Creates π login data)
      (hfree : w.users.get login = none) :
      Issues π w c (some (.hashPassword password)) login (some (data.record login w.clock))
  | merge {c login data user} (hc : c.Updates π login data) :
      Issues π w c (some (.updating login data (some user))) login
        (some (user.merge data w.clock))
  | remove {login} (hadmin : login ≠ adminUserName) (hex : w.users.get login ≠ none) :
      Issues π w (.remove login) none login none

variable {π : Platform}

/-- A step issues one write and awaits its ticket, or leaves the store alone. -/
theorem Step.users {c : Call} {o : Option Await} {w w' : World}
    {st : Status Await Exception Response} (h : Step π c o w w' st) :
    (∃ login v, Issues π w c o login v ∧ w' = w.write login v ∧
      st = .waits (.written w.users.writes.length)) ∨
    w'.users = w.users ∧ ∀ n, st ≠ .waits (.written n) := by
  cases h with
  | create hc hfree => exact .inl ⟨_, _, .create hc hfree, rfl, rfl⟩
  | merge hc => exact .inl ⟨_, _, .merge hc, rfl, rfl⟩
  | remove hadmin hex => exact .inl ⟨_, _, .remove hadmin hex, rfl, rfl⟩
  | _ => exact .inr ⟨rfl, by simp⟩

theorem Step.extends {c : Call} {o : Option Await} {w w' : World}
    {st : Status Await Exception Response} (h : Step π c o w w' st) : w.Extends w' := by
  cases h with
  | create hc hfree => exact .write ..
  | merge hc => exact .write ..
  | remove hadmin hex => exact .write ..
  | token => exact { users := .refl _, issued := List.prefix_append .. }
  | settingsPut => exact { users := .refl _, issued := List.prefix_refl _ }
  | _ => exact .refl _

/-- A commit or the clock leaves the writes and the tokens. -/
theorem Platform.env_spec {e : Env} {w w' : World} (h : Platform.env e w = some w') :
    w'.users.writes = w.users.writes ∧ w'.issued = w.issued ∧
      w.users.applied ≤ w'.users.applied := by
  cases e with
  | commit =>
      obtain ⟨users, hcommit, rfl⟩ := Option.map_eq_some_iff.mp h
      obtain ⟨_, hw, ha⟩ := WriteBehind.Store.commit_eq_some hcommit
      exact ⟨hw, rfl, ha ▸ Nat.le_succ _⟩
  | clock now =>
      cases h
      exact ⟨rfl, rfl, Nat.le_refl _⟩

theorem extends_moves (π : Platform) : Moves (Step π) Platform.env World.Extends where
  step h := h.extends
  env h := by
    obtain ⟨hw, hi, ha⟩ := Platform.env_spec h
    exact { users := { writes := hw ▸ List.prefix_refl _, applied := ha },
            issued := hi ▸ List.prefix_refl _ }

/-! ## What a call writes -/

theorem Call.Creates.unique {c : Call} {k k' : UserLogin} {data data' : CreateUserData}
    (h : c.Creates π k data) (h' : c.Creates π k' data') : k = k' := by
  cases c with
  | create user => exact h.1.symm.trans h'.1
  | createAdmin => exact h.1.trans h'.1.symm
  | _ => exact h.elim

theorem Call.Creates.writes {c : Call} {k : UserLogin} {data : CreateUserData}
    (h : c.Creates π k data) : c.Writes := by
  cases c with
  | create user => trivial
  | createAdmin => trivial
  | _ => exact h.elim

theorem Call.Creates.not_updates {c : Call} {k k' : UserLogin} {data : CreateUserData}
    {data' : UpdateUserData} (h : c.Creates π k data) : ¬ c.Updates π k' data' := by
  cases c with
  | create user => exact id
  | createAdmin => exact id
  | _ => exact h.elim

theorem Call.Creates.not_remove {c : Call} {k k' : UserLogin} {data : CreateUserData}
    (h : c.Creates π k data) : c ≠ .remove k' := by
  rintro rfl
  exact h

theorem Call.Updates.unique {c : Call} {k k' : UserLogin} {data data' : UpdateUserData}
    (h : c.Updates π k data) (h' : c.Updates π k' data') : k = k' := by
  cases c with
  | update updateUser => exact Field.value.inj (h.1.symm.trans h'.1)
  | updatePassword => exact h.1.symm.trans h'.1
  | resetAdminPassword => exact h.1.trans h'.1.symm
  | _ => exact h.elim

theorem Call.Updates.writes {c : Call} {k : UserLogin} {data : UpdateUserData}
    (h : c.Updates π k data) : c.Writes := by
  cases c with
  | update updateUser => trivial
  | updatePassword => trivial
  | resetAdminPassword => trivial
  | _ => exact h.elim

theorem Call.Updates.not_remove {c : Call} {k k' : UserLogin} {data : UpdateUserData}
    (h : c.Updates π k data) : c ≠ .remove k' := by
  rintro rfl
  exact h

/-! ## Writers -/

/-- What the thread `t` knows of the write of `v` under `login` it issued. -/
inductive Writer (π : Platform) (t : Service.Thread) (login : UserLogin) : Option IUserData → Prop
  | created {data} (hc : t.call.Creates π login data) (created : Nat) :
      Writer π t login (some (data.record login created))
  | merged {data user} (hc : t.call.Updates π login data)
      (hread : t.Awaited (.updating login data (some user))) (modified : Nat) :
      Writer π t login (some (user.merge data modified))
  | removed (hc : t.call = .remove login) (hadmin : login ≠ adminUserName) : Writer π t login none

/-- A call that creates accounts has written a new record. -/
theorem Writer.of_creates {t : Service.Thread} {k : UserLogin} {data : CreateUserData}
    {login : UserLogin} {v : Option IUserData} (h : Writer π t login v)
    (hc : t.call.Creates π k data) :
    login = k ∧ ∃ data created, t.call.Creates π k data ∧ v = some (data.record k created) := by
  cases h with
  | created hc' created =>
      obtain rfl := hc'.unique hc
      exact ⟨rfl, _, created, hc', rfl⟩
  | merged hc' => exact absurd hc' hc.not_updates
  | removed hc' => exact absurd hc' hc.not_remove

/-- A call that updates an account has merged what it had read. -/
theorem Writer.of_updates {t : Service.Thread} {k : UserLogin} {data : UpdateUserData}
    {login : UserLogin} {v : Option IUserData} (h : Writer π t login v)
    (hc : t.call.Updates π k data) :
    login = k ∧ ∃ data user modified, t.call.Updates π k data ∧
      t.Awaited (.updating k data (some user)) ∧ v = some (user.merge data modified) := by
  cases h with
  | created hc' => exact absurd hc hc'.not_updates
  | merged hc' hread modified =>
      obtain rfl := hc'.unique hc
      exact ⟨rfl, _, _, modified, hc', hread, rfl⟩
  | removed hc' => exact absurd hc' hc.not_remove

/-- A call that removes an account has written its removal. -/
theorem Writer.of_remove {t : Service.Thread} {k login : UserLogin} {v : Option IUserData}
    (h : Writer π t login v) (hc : t.call = .remove k) : login = k ∧ v = none := by
  cases h with
  | created hc' => exact absurd hc hc'.not_remove
  | merged hc' => exact absurd hc hc'.not_remove
  | removed hc' =>
      rw [hc] at hc'
      cases hc'
      exact ⟨rfl, rfl⟩

theorem Writer.extends {t t' : Service.Thread} {login : UserLogin} {v : Option IUserData}
    (h : Writer π t login v) (hext : t.Extends t') : Writer π t' login v := by
  cases h with
  | created hc created => exact .created (hext.call ▸ hc) created
  | merged hc hread modified => exact .merged (hext.call ▸ hc) (hext.awaited _ hread) modified
  | removed hc hadmin => exact .removed (hext.call.trans hc) hadmin

theorem Issues.writer {w : World} {c : Call} {o : Option Await} {login : UserLogin}
    {v : Option IUserData} (h : Issues π w c o login v) {past : List Await}
    (ho : ∀ q, o = some q → q ∈ past) (st : Status Await Exception Response) :
    Writer π { call := c, past, status := st } login v := by
  cases h with
  | create hc hfree => exact .created hc _
  | merge hc => exact .merged hc (.inr (ho _ rfl)) _
  | remove hadmin hex => exact .removed rfl hadmin

/-- The thread issued the write `n`. -/
structure Wrote (π : Platform) (w : World) (t : Service.Thread) (n : Nat) (login : UserLogin)
    (v : Option IUserData) : Prop where
  awaited : t.Awaited (.written n)
  wrote : w.users.Wrote n login v
  writer : Writer π t login v

theorem Wrote.extends {w w' : World} {t t' : Service.Thread} {n : Nat} {login : UserLogin}
    {v : Option IUserData} (h : Wrote π w t n login v) (hw : w.Extends w') (ht : t.Extends t') :
    Wrote π w' t' n login v :=
  { awaited := ht.awaited _ h.awaited, wrote := hw.users.wrote h.wrote,
    writer := h.writer.extends ht }

/-- A call awaits at most one ticket, that of its write, and awaits it last. -/
inductive Ticket (π : Platform) (w : World) (t : Service.Thread) : Prop
  | before (h : ∀ n, ¬ t.Awaited (.written n))
      (hok : ∀ r, t.status = .done (.ok r) → ¬ t.call.Writes)
  | during {n login v} (hstatus : t.status = .waits (.written n))
      (hpast : ∀ m, .written m ∉ t.past) (h : Wrote π w t n login v)
  | after {n login v past} (hstatus : t.status = .done (.ok .void))
      (hpast : t.past = .written n :: past) (hbefore : ∀ m, .written m ∉ past)
      (h : Wrote π w t n login v) (hcommitted : w.users.Committed n)

theorem Ticket.extends {w w' : World} {t : Service.Thread} (h : Ticket π w t)
    (hw : w.Extends w') : Ticket π w' t := by
  cases h with
  | before h hok => exact .before h hok
  | during hstatus hpast h => exact .during hstatus hpast (h.extends hw (.refl t))
  | after hstatus hpast hbefore h hcommitted =>
      exact .after hstatus hpast hbefore (h.extends hw (.refl t)) (hw.users.committed hcommitted)

/-- A step from which no ticket was awaited before. -/
theorem Step.ticket {c : Call} {o : Option Await} {w w' : World} {past : List Await}
    {st : Status Await Exception Response} (h : Step π c o w w' st)
    (ho : ∀ q, o = some q → q ∈ past) (hpast : ∀ n, .written n ∉ past) :
    Ticket π w' { call := c, past, status := st } := by
  rcases h.users with ⟨login, v, hissues, rfl, rfl⟩ | ⟨_, hst⟩
  · exact .during rfl hpast
      { awaited := .inl rfl, wrote := WriteBehind.Store.wrote_issue_self ..,
        writer := hissues.writer ho _ }
  · refine .before (fun n hn => hn.elim (hst n) (hpast n)) fun r hr hwrites => ?_
    cases hr
    cases h with
    | written => exact hpast _ (ho _ rfl)
    | token => exact hwrites
    | settingsWritten hc => exact hc hwrites

theorem Step.of_written {c : Call} {n : Nat} {w w' : World}
    {st : Status Await Exception Response} (h : Step π c (some (.written n)) w w' st) :
    w' = w ∧ w.users.Committed n ∧ st = .done (.ok .void) := by
  cases h with
  | reject e ho => exact absurd rfl (ho n)
  | written hn => exact ⟨rfl, hn, rfl⟩
  | settingsPut hc => cases c <;> exact hc.elim

theorem ticket_resume {c : Call} {past : List Await} {q : Await} {w w' : World}
    {st : Status Await Exception Response}
    (ht : Ticket π w { call := c, past, status := .waits q }) (h : Step π c (some q) w w' st) :
    Ticket π w' { call := c, past := q :: past, status := st } := by
  cases ht with
  | before hnone hok =>
      refine h.ticket (fun p hp => ?_) fun n hn => ?_
      · cases hp
        exact List.mem_cons_self
      · exact hnone n (Async.Thread.awaited_waits.mpr (List.mem_cons.mp hn))
  | during hstatus hpast hwrote =>
      cases hstatus
      obtain ⟨rfl, hn, rfl⟩ := h.of_written
      refine .after rfl rfl hpast (hwrote.extends (.refl _) ?_) hn
      exact { call := rfl, done := nofun,
              awaited := fun p hp => .inr (List.mem_cons.mpr (Async.Thread.awaited_waits.mp hp)) }
  | after hstatus => cases hstatus

theorem Ticket.wrote {w : World} {t : Service.Thread} (h : Ticket π w t) {n : Nat}
    (hn : t.Awaited (.written n)) : ∃ login v, Wrote π w t n login v := by
  cases h with
  | before h hok => exact absurd hn (h n)
  | during hstatus hpast h =>
      rcases hn with hn | hn
      · rw [hstatus] at hn
        cases hn
        exact ⟨_, _, h⟩
      · exact absurd hn (hpast n)
  | after hstatus hpast hbefore h hcommitted =>
      rcases hn with hn | hn
      · rw [hstatus] at hn
        cases hn
      · rw [hpast, List.mem_cons] at hn
        rcases hn with hn | hn
        · cases hn
          exact ⟨_, _, h⟩
        · exact absurd hn (hbefore n)

/-- A call that awaits something else has not written yet. -/
theorem Ticket.unwritten {w : World} {t : Service.Thread} (h : Ticket π w t) {q : Await}
    (hstatus : t.status = .waits q) (hq : ∀ n, q ≠ .written n) (n : Nat) :
    ¬ t.Awaited (.written n) := by
  cases h with
  | before h hok => exact h n
  | @during m login v hstatus' hpast h =>
      cases hstatus.symm.trans hstatus'
      exact absurd rfl (hq m)
  | after hstatus' hpast hbefore h hcommitted => cases hstatus.symm.trans hstatus'

/-- A call that reports a change has written it. -/
theorem Ticket.success {w : World} {t : Service.Thread} (h : Ticket π w t) {r : Response}
    (hdone : t.status = .done (.ok r)) (hwrites : t.call.Writes) :
    ∃ n login v, Wrote π w t n login v ∧ w.users.Committed n := by
  cases h with
  | before h hok => exact absurd hwrites (hok r hdone)
  | during hstatus hpast h => exact absurd (hstatus.symm.trans hdone) nofun
  | after hstatus hpast hbefore h hcommitted => exact ⟨_, _, _, h, hcommitted⟩

/-- A call that has ended has its write committed. -/
theorem Ticket.committed {w : World} {t : Service.Thread} (h : Ticket π w t)
    {r : Except Exception Response} (hdone : t.status = .done r) {n : Nat}
    (hn : t.Awaited (.written n)) : t.status = .done (.ok .void) ∧ w.users.Committed n := by
  cases h with
  | before h hok => exact absurd hn (h n)
  | during hstatus hpast h => exact absurd (hstatus.symm.trans hdone) nofun
  | after hstatus hpast hbefore h hcommitted =>
      rcases hn with hn | hn
      · exact absurd (hstatus.symm.trans hn) nofun
      · rw [hpast, List.mem_cons] at hn
        rcases hn with hn | hn
        · cases hn
          exact ⟨hstatus, hcommitted⟩
        · exact absurd hn (hbefore n)

theorem Ticket.once {w : World} {t : Service.Thread} (h : Ticket π w t) {m n : Nat}
    (hm : t.Awaited (.written m)) (hn : t.Awaited (.written n)) : m = n := by
  cases h with
  | before h hok => exact absurd hn (h n)
  | during hstatus hpast h =>
      have hm := hm.resolve_right (hpast m)
      have hn := hn.resolve_right (hpast n)
      cases hstatus.symm.trans hm
      cases hstatus.symm.trans hn
      rfl
  | @after k login v past hstatus hpast hbefore h hcommitted =>
      have hlast : ∀ {m}, t.Awaited (.written m) → m = k := by
        intro m hm
        rcases hm with hm | hm
        · exact absurd (hstatus.symm.trans hm) nofun
        · rw [hpast, List.mem_cons] at hm
          rcases hm with hm | hm
          · cases hm
            rfl
          · exact absurd hm (hbefore m)
      rw [hlast hm, hlast hn]

/-- Every write has the thread that awaited its ticket, and no other. -/
structure Ledger (π : Platform) (g : Service.Config) : Prop where
  ticket : ∀ i t, g.threads i = some t → Ticket π g.world t
  writer : ∀ n login v, g.world.users.Wrote n login v →
    ∃ i t, g.threads i = some t ∧ Wrote π g.world t n login v
  unique : ∀ i j t t' n, g.threads i = some t → g.threads j = some t' →
    t.Awaited (.written n) → t'.Awaited (.written n) → i = j

/-- A step that comes to await a ticket issues the write. -/
theorem reaches_written {g : Service.Config} {a : Service.Act} {i n : Nat} {c : Call} {w : World}
    (h : g.Reaches (Step π) i c (.written n) a w) :
    n = g.world.users.writes.length ∧ ∃ o login v, g.Runs i c o a ∧
      Issues π g.world c o login v ∧ w = g.world.write login v := by
  obtain ⟨o, hruns, hT⟩ := h
  rcases hT.users with ⟨login, v, hissues, hw, hst⟩ | ⟨_, hst⟩
  · cases hst
    exact ⟨rfl, o, login, v, hruns, hissues, hw⟩
  · exact absurd rfl (hst n)

namespace Ledger

variable {g h : Service.Config}

theorem empty (w : World) (hw : w.users = .empty) :
    Ledger π { world := w, threads := fun _ => none } where
  ticket i t hi := by cases hi
  writer n login v hwrote := by
    have hlt := hwrote.lt
    rw [hw] at hlt
    cases hlt
  unique i j t t' n hi := by cases hi

theorem awaited_lt (hg : Ledger π g) {i n : Nat} {t : Service.Thread}
    (hi : g.threads i = some t) (hn : t.Awaited (.written n)) :
    n < g.world.users.writes.length := by
  obtain ⟨login, v, hwrote⟩ := (hg.ticket i t hi).wrote hn
  exact hwrote.wrote.lt

theorem move {a : Service.Act} (hg : Ledger π g) (hmove : Move (Step π) Platform.env g a h) :
    Ledger π h where
  ticket := hmove.threads (fun t ht => ht.extends ((extends_moves π).move hmove))
    (fun c w st hT => hT.ticket nofun nofun)
    (fun c past q w st ht hT => ticket_resume ht hT) hg.ticket
  writer n login v hwrote := by
    have hnew : ∀ {c o past st w} (n : Nat) (login : UserLogin) (v : Option IUserData),
        Step π c o g.world w st → (∀ q, o = some q → q ∈ past) → w.users.Wrote n login v →
        g.world.users.Wrote n login v ∨
          Async.Thread.Awaited { call := c, past, status := st } (.written n) ∧
            Writer π { call := c, past, status := st } login v := by
      intro c o past st w n login v hT ho hw
      rcases hT.users with ⟨login', v', hissues, rfl, rfl⟩ | ⟨hu, _⟩
      · rcases WriteBehind.Store.wrote_issue_iff.mp hw with hw | ⟨rfl, rfl, rfl⟩
        · exact .inl hw
        · exact .inr ⟨.inl rfl, hissues.writer ho _⟩
      · exact .inl (hu ▸ hw)
    obtain ⟨i, t, hi, hawaited, hwriter⟩ := Move.origin
      (fun w (x : Nat × UserLogin × Option IUserData) => w.users.Wrote x.1 x.2.1 x.2.2)
      (fun x t => t.Awaited (.written x.1) ∧ Writer π t x.2.1 x.2.2) hmove
      (fun x t t' hext ht => ⟨hext.awaited (.written x.1) ht.1, ht.2.extends hext⟩)
      (fun e w x he hw => (WriteBehind.Store.wrote_congr (Platform.env_spec he).1).mp hw)
      (fun c w st x hT hw => hnew x.1 x.2.1 x.2.2 hT nofun hw)
      (fun c past q w st x hT hw =>
        hnew x.1 x.2.1 x.2.2 hT (fun p hp => by cases hp; exact List.mem_cons_self) hw)
      (fun x hx => by
        obtain ⟨i, t, hi, ht⟩ := hg.writer _ _ _ hx
        exact ⟨i, t, hi, ht.awaited, ht.writer⟩)
      (n, login, v) hwrote
    exact ⟨i, t, hi, { awaited := hawaited, wrote := hwrote, writer := hwriter }⟩
  unique i j t t' n hi hj hn hn' := by
    rcases hmove.awaited hi hn with ⟨t₀, hi₀, _, hn₀⟩ | ⟨_, hreach⟩
    · rcases hmove.awaited hj hn' with ⟨t₁, hj₁, _, hn₁⟩ | ⟨_, hreach'⟩
      · exact hg.unique i j t₀ t₁ n hi₀ hj₁ hn₀ hn₁
      · exact absurd (hg.awaited_lt hi₀ hn₀) ((reaches_written hreach').1 ▸ Nat.lt_irrefl _)
    · rcases hmove.awaited hj hn' with ⟨t₁, hj₁, _, hn₁⟩ | ⟨_, hreach'⟩
      · exact absurd (hg.awaited_lt hj₁ hn₁) ((reaches_written hreach).1 ▸ Nat.lt_irrefl _)
      · obtain ⟨_, hruns, _⟩ := hreach
        obtain ⟨_, hruns', _⟩ := hreach'
        exact hruns.index hruns'

/-- A write that a step adds is the one its thread issues. -/
theorem wrote_cases {a : Service.Act} (hg : Ledger π g)
    (hmove : Move (Step π) Platform.env g a h) {n : Nat} {login : UserLogin}
    {v : Option IUserData} (hw : h.world.users.Wrote n login v) :
    g.world.users.Wrote n login v ∨
      n = g.world.users.writes.length ∧ ∃ i t o, h.threads i = some t ∧
        t.Awaited (.written n) ∧ g.Runs i t.call o a ∧ Issues π g.world t.call o login v := by
  have hext := (extends_moves π).move hmove
  obtain ⟨i, t, hi, hwrote⟩ := (hg.move hmove).writer n login v hw
  rcases hmove.awaited hi hwrote.awaited with ⟨t₀, hi₀, _, hn₀⟩ | ⟨_, hreach⟩
  · exact .inl (hext.users.wrote_of_lt (hg.awaited_lt hi₀ hn₀) hw)
  · obtain ⟨rfl, o, login', v', hruns, hissues, hworld⟩ := reaches_written hreach
    rw [hworld, World.users_write] at hw
    obtain ⟨rfl, rfl⟩ := hw.unique (WriteBehind.Store.wrote_issue_self ..)
    exact .inr ⟨rfl, i, t, o, hi, hwrote.awaited, hruns, hissues⟩

end Ledger

/-- No account and no call yet. -/
def Service.initial : Service.State := .init .empty

theorem Service.initial_obeys (π : Platform) : Service.initial.Obeys π.system (Step π) :=
  .init _

section Run

variable {ok : Service.Config → Service.Act → Prop} {as : List Service.Act} {s t : Service.State}

theorem run_obeys (hrun : π.system.Run ok Service.initial as s) : s.Obeys π.system (Step π) :=
  (hrun.trace (system_obeys π) (Service.initial_obeys π)).2

theorem ledger (hrun : π.system.Run ok Service.initial as s) : Ledger π s.config :=
  hrun.invariant (Ledger π) (system_obeys π) (fun _ _ _ _ hmove hg => hg.move hmove)
    (Service.initial_obeys π) (.empty _ rfl)

theorem run_extends (hrun : π.system.Run ok s as t) (hs : s.Obeys π.system (Step π)) :
    s.world.Extends t.world :=
  (extends_moves π).trace World.Extends.refl World.Extends.trans
    (hrun.trace (system_obeys π) hs).1

/-- A call that is started later has a later ticket. -/
theorem run_ticket_after (hrun : π.system.Run ok Service.initial as s) {bs : List Service.Act}
    (hrest : π.system.Run ok s bs t) {i n : Nat} {th : Service.Thread}
    (hnone : s.config.threads i = none) (hi : t.config.threads i = some th)
    (hn : th.Awaited (.written n)) : s.world.users.writes.length ≤ n := by
  refine Nat.not_lt.mp fun hlt => ?_
  obtain ⟨login, v, hw⟩ := WriteBehind.Store.exists_wrote hlt
  obtain ⟨j, th', hj, hwrote⟩ := (ledger hrun).writer n login v hw
  obtain ⟨th'', hj', hext⟩ := (hrest.trace (system_obeys π) (run_obeys hrun)).1.thread hj
  have hij := (ledger (hrun.append hrest)).unique i j th th'' n hi hj' hn
    (hext.awaited _ hwrote.awaited)
  rw [hij, hj] at hnone
  cases hnone

/-- The step of a run that issued the write `n` of the thread `i`. -/
theorem run_issued (hrun : π.system.Run ok Service.initial as s) {i n : Nat}
    {th : Service.Thread} (hi : s.config.threads i = some th) (hn : th.Awaited (.written n)) :
    ∃ before s₁ a o login v, π.system.Run ok Service.initial before s₁ ∧ ok s₁.config a ∧
      s₁.config.Runs i th.call o a ∧ Issues π s₁.world th.call o login v ∧
      n = s₁.world.users.writes.length ∧ s₁.world.Extends s.world ∧
      s.world.users.Wrote n login v := by
  obtain ⟨before, a, after, s₁, s₂, rfl, hbefore, hok, hstep, hafter, _, hreach⟩ :=
    hrun.reached (system_obeys π) (Service.initial_obeys π) hi hn (fun _ h => by cases h)
  obtain ⟨hlen, o, login, v, hruns, hissues, hw⟩ := reaches_written hreach
  have hobeys := ((system_obeys π).move (run_obeys hbefore) hstep).2
  have hext := run_extends hafter hobeys
  refine ⟨before, s₁, a, o, login, v, hbefore, hok, hruns, hissues, hlen, ?_, ?_⟩
  · exact World.Extends.trans (hw ▸ .write ..) hext
  · refine hext.users.wrote ?_
    rw [hw, hlen]
    exact WriteBehind.Store.wrote_issue_self ..

/-- The step of a run that issued the write of an update: the write replaces what was the
latest record, and merges the data into the record that the update has read. -/
theorem run_merged (hrun : π.system.Run ok Service.initial as s) {i n : Nat}
    {th : Service.Thread} {u : UserLogin} {data : UpdateUserData}
    (hi : s.config.threads i = some th) (hc : th.call.Updates π u data)
    (hn : th.Awaited (.written n)) :
    ∃ (s₁ : Service.State) (a : Service.Act) (data : UpdateUserData) (user : IUserData)
      (modified : Nat), th.call.Updates π u data ∧ ok s₁.config a ∧
      s₁.config.Runs i th.call (some (.updating u data (some user))) a ∧
      s.world.users.version n u = s₁.world.users.latest u ∧
      s.world.users.Wrote n u (some (user.merge data modified)) := by
  obtain ⟨_, s₁, a, o, login, v, _, hok, hruns, hissues, rfl, hext, hwrote⟩ :=
    run_issued hrun hi hn
  have hversion := hext.users.version (Nat.le_refl _) u
  generalize th.call = c at hc hruns hissues ⊢
  cases hissues with
  | create hc' => exact absurd hc hc'.not_updates
  | merge hc' =>
      obtain rfl := hc'.unique hc
      exact ⟨s₁, a, _, _, _, hc', hok, hruns, hversion, hwrote⟩
  | remove => exact hc.elim

end Run

end RpiNestApi
