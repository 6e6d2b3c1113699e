/-
Programs that only read, while what they read changes.

A read is answered some time after it is asked, and the answer takes some time to
arrive.  Programs read one after another or, as with `Promise.all`, side by side.  What
holds of a program whatever the delays is shown from its parts, and where the world
stands still a program settles as one that reads everything at once.
-/
import RpiNestApi.Async.Answers
import Mathlib.Data.List.Forall2

namespace Async

variable {W ε α β : Type}

/-- How long things take, by the place in the program. -/
abbrev Delays := List Nat → Nat

def Delays.part (d : Delays) (i : Nat) : Delays := fun place => d (i :: place)

/-- When and how a program settles that was started at the time. -/
structure Settled (ε α : Type) (start : Nat) where
  time : Nat
  result : Except ε α
  start_le : start ≤ time

/-- What a program does with the worlds of all times and the delays, when it is started. -/
structure Reader (W ε α : Type) where
  run : (Nat → W) → Delays → (start : Nat) → Settled ε α start

namespace Reader

def ret (a : α) : Reader W ε α where
  run _ _ start := { time := start, result := .ok a, start_le := Nat.le_refl start }

def throw (e : ε) : Reader W ε α where
  run _ _ start := { time := start, result := .error e, start_le := Nat.le_refl start }

/-- A look at the world that takes no time. -/
def now (f : W → α) : Reader W ε α where
  run history _ start :=
    { time := start, result := .ok (f (history start)), start_le := Nat.le_refl start }

/-- What is read is there when the read is answered. -/
def await (f : W → α) : Reader W ε α where
  run history d start :=
    { time := start + d [0] + d [1]
      result := .ok (f (history (start + d [0])))
      start_le := Nat.le_add_right_of_le (Nat.le_add_right ..) }

def bind (p : Reader W ε β) (k : β → Reader W ε α) : Reader W ε α where
  run history d start :=
    let s := p.run history (d.part 0) start
    match s.result with
    | .error e => { time := s.time, result := .error e, start_le := s.start_le }
    | .ok b =>
      let s' := (k b).run history (d.part 1) s.time
      { time := s'.time, result := s'.result, start_le := Nat.le_trans s.start_le s'.start_le }

instance : Monad (Reader W ε) where
  pure := ret
  bind := bind

theorem pure_def (a : α) : (pure a : Reader W ε α) = ret a := rfl

theorem bind_def (p : Reader W ε β) (k : β → Reader W ε α) : (p >>= k) = p.bind k := rfl

def lift : Except ε α → Reader W ε α
  | .ok a => ret a
  | .error e => throw e

/-- A read that may fail. -/
def read (f : W → Except ε α) : Reader W ε α := (await f).bind lift

/-- Two programs side by side.  If one of them fails, so do both, and with the error of
the one that fails first. -/
def both (p : Reader W ε α) (q : Reader W ε β) : Reader W ε (α × β) where
  run history d start :=
    let s := p.run history (d.part 0) start
    let t := q.run history (d.part 1) start
    match s.result, t.result with
    | .ok a, .ok b =>
      { time := max s.time t.time, result := .ok (a, b),
        start_le := Nat.le_trans s.start_le (Nat.le_max_left ..) }
    | .error e, .ok _ => { time := s.time, result := .error e, start_le := s.start_le }
    | .ok _, .error e => { time := t.time, result := .error e, start_le := t.start_le }
    | .error e, .error e' =>
      if s.time ≤ t.time then { time := s.time, result := .error e, start_le := s.start_le }
      else { time := t.time, result := .error e', start_le := t.start_le }

/-- `Promise.all`. -/
def all : List (Reader W ε α) → Reader W ε (List α)
  | [] => ret []
  | p :: ps => (both p (all ps)).bind fun (a, as) => ret (a :: as)

/-- However long everything takes, the program settles at such a time and so. -/
def Ends (p : Reader W ε α) (history : Nat → W) (start : Nat)
    (post : Nat → Except ε α → Prop) : Prop :=
  ∀ d, post (p.run history d start).time (p.run history d start).result

section Ends

variable {history : Nat → W} {start : Nat}

theorem Ends.mono {p : Reader W ε α} {post post' : Nat → Except ε α → Prop}
    (h : p.Ends history start post)
    (hpost : ∀ finish r, start ≤ finish → post finish r → post' finish r) :
    p.Ends history start post' :=
  fun d => hpost _ _ (p.run history d start).start_le (h d)

theorem ends_ret {a : α} {post : Nat → Except ε α → Prop} (h : post start (.ok a)) :
    (ret a : Reader W ε α).Ends history start post :=
  fun _ => h

theorem ends_throw {e : ε} {post : Nat → Except ε α → Prop} (h : post start (.error e)) :
    (throw e : Reader W ε α).Ends history start post :=
  fun _ => h

theorem ends_now {f : W → α} {post : Nat → Except ε α → Prop}
    (h : post start (.ok (f (history start)))) : (now f : Reader W ε α).Ends history start post :=
  fun _ => h

theorem ends_await {f : W → α} {post : Nat → Except ε α → Prop}
    (h : ∀ t finish, start ≤ t → t ≤ finish → post finish (.ok (f (history t)))) :
    (await f : Reader W ε α).Ends history start post :=
  fun _ => h _ _ (Nat.le_add_right ..) (Nat.le_add_right ..)

/-- What follows starts when the first part has settled. -/
theorem ends_bind {p : Reader W ε β} {k : β → Reader W ε α} {post : Nat → Except ε α → Prop}
    (h : p.Ends history start fun m r => match r with
      | .ok b => (k b).Ends history m post
      | .error e => post m (.error e)) :
    (p.bind k).Ends history start post := by
  intro d
  have hp := h (d.part 0)
  rw [bind]
  dsimp only
  split
  · rename_i e he
    rw [he] at hp
    exact hp
  · rename_i b hb
    rw [hb] at hp
    exact hp (d.part 1)

theorem ends_lift {r : Except ε α} {post : Nat → Except ε α → Prop} (h : post start r) :
    (lift r : Reader W ε α).Ends history start post := by
  cases r with
  | ok a => exact ends_ret h
  | error e => exact ends_throw h

theorem ends_read {f : W → Except ε α} {post : Nat → Except ε α → Prop}
    (h : ∀ t finish, start ≤ t → t ≤ finish → post finish (f (history t))) :
    (read f).Ends history start post :=
  ends_bind (ends_await fun t finish hstart hfinish => ends_lift (h t finish hstart hfinish))

/-- Both have settled when the two together succeed. -/
theorem ends_both {p : Reader W ε α} {q : Reader W ε β} {postₚ : Nat → Except ε α → Prop}
    {post_q : Nat → Except ε β → Prop} {post : Nat → Except ε (α × β) → Prop}
    (hp : p.Ends history start postₚ) (hq : q.Ends history start post_q)
    (hok : ∀ m n a b, postₚ m (.ok a) → post_q n (.ok b) → post (max m n) (.ok (a, b)))
    (hleft : ∀ m e, postₚ m (.error e) → post m (.error e))
    (hright : ∀ m e, post_q m (.error e) → post m (.error e)) :
    (both p q).Ends history start post := by
  intro d
  have hs := hp (d.part 0)
  have ht := hq (d.part 1)
  rw [both]
  dsimp only
  split
  · rename_i a b ha hb
    rw [ha] at hs
    rw [hb] at ht
    exact hok _ _ a b hs ht
  · rename_i e b he hb
    rw [he] at hs
    exact hleft _ e hs
  · rename_i a e ha he
    rw [he] at ht
    exact hright _ e ht
  · rename_i e e' he he'
    rw [he] at hs
    rw [he'] at ht
    split
    · exact hleft _ e hs
    · exact hright _ e' ht

/-- Each of the programs has settled when they all together succeed. -/
theorem ends_all {ι : Type} {p : ι → Reader W ε α} {xs : List ι}
    {post : ι → Nat → Except ε α → Prop}
    (h : ∀ x ∈ xs, (p x).Ends history start (post x)) :
    (all (xs.map p)).Ends history start fun finish r => match r with
      | .ok as => List.Forall₂ (fun x a => ∃ t ≤ finish, post x t (.ok a)) xs as
      | .error e => ∃ x ∈ xs, post x finish (.error e) := by
  induction xs with
  | nil => exact ends_ret .nil
  | cons x xs ih =>
      rw [List.forall_mem_cons] at h
      refine ends_bind (ends_both h.1 (ih h.2) ?_ ?_ ?_)
      · intro m n a as ha has
        refine ends_ret (.cons ⟨m, Nat.le_max_left .., ha⟩ ?_)
        refine has.imp fun x' a' => ?_
        rintro ⟨t, ht, ha'⟩
        exact ⟨t, Nat.le_trans ht (Nat.le_max_right ..), ha'⟩
      · intro m e he
        exact ⟨x, List.mem_cons_self, he⟩
      · rintro m e ⟨x', hx', he⟩
        exact ⟨x', List.mem_cons_of_mem x hx', he⟩

/-! ## What a program returns -/

/-- If the program succeeds, it does so at such a time and with such a value. -/
def Returns (p : Reader W ε α) (history : Nat → W) (start : Nat) (post : Nat → α → Prop) : Prop :=
  p.Ends history start fun finish r => ∀ a, r = .ok a → post finish a

theorem Returns.mono {p : Reader W ε α} {post post' : Nat → α → Prop}
    (h : p.Returns history start post)
    (hpost : ∀ finish a, start ≤ finish → post finish a → post' finish a) :
    p.Returns history start post' :=
  Ends.mono h fun finish _ hfinish hr a ha => hpost finish a hfinish (hr a ha)

theorem returns_start_le (p : Reader W ε α) :
    p.Returns history start fun finish _ => start ≤ finish :=
  fun d _ _ => (p.run history d start).start_le

theorem returns_ret {a : α} {post : Nat → α → Prop} (h : post start a) :
    (ret a : Reader W ε α).Returns history start post :=
  ends_ret fun _ ha => Except.ok.inj ha ▸ h

theorem returns_bind {p : Reader W ε β} {k : β → Reader W ε α} {post : Nat → α → Prop}
    (h : p.Returns history start fun m b => (k b).Returns history m post) :
    (p.bind k).Returns history start post := by
  refine ends_bind (Ends.mono h fun m r _ hr => ?_)
  cases r with
  | ok b => exact hr b rfl
  | error e => exact fun _ ha => nomatch ha

theorem returns_lift {r : Except ε α} {post : Nat → α → Prop}
    (h : ∀ a, r = .ok a → post start a) : (lift r : Reader W ε α).Returns history start post :=
  ends_lift h

theorem returns_now {f : W → α} {post : Nat → α → Prop} (h : post start (f (history start))) :
    (now f : Reader W ε α).Returns history start post :=
  ends_now fun _ ha => Except.ok.inj ha ▸ h

theorem returns_await {f : W → α} {post : Nat → α → Prop}
    (h : ∀ t finish, start ≤ t → t ≤ finish → post finish (f (history t))) :
    (await f : Reader W ε α).Returns history start post :=
  ends_await fun t finish hstart hfinish _ ha => Except.ok.inj ha ▸ h t finish hstart hfinish

theorem returns_read {f : W → Except ε α} {post : Nat → α → Prop}
    (h : ∀ t finish a, start ≤ t → t ≤ finish → f (history t) = .ok a → post finish a) :
    (read f).Returns history start post :=
  ends_read fun t finish hstart hfinish a => h t finish a hstart hfinish

theorem returns_all {ι : Type} {p : ι → Reader W ε α} {xs : List ι} {post : ι → Nat → α → Prop}
    (h : ∀ x ∈ xs, (p x).Returns history start (post x)) :
    (all (xs.map p)).Returns history start fun finish as =>
      List.Forall₂ (fun x a => ∃ t ≤ finish, post x t a) xs as := by
  refine (ends_all h).mono fun finish r _ hr as has => ?_
  subst has
  refine hr.imp fun x a => ?_
  rintro ⟨t, ht, ha⟩
  exact ⟨t, ht, ha a rfl⟩

end Ends

/-! ## A world that stands still -/

/-- Both succeed with the same, or both fail. -/
def Alike (r r' : Except ε α) : Prop := r.toOption = r'.toOption

theorem alike_error (e e' : ε) : Alike (.error e : Except ε α) (.error e') := rfl

theorem Alike.ok {r : Except ε α} {a : α} (h : Alike (.ok a) r) : r = .ok a := by
  cases r with
  | ok a' => exact congrArg Except.ok (Option.some.inj h).symm
  | error e => cases h

theorem Alike.error {r : Except ε α} {e : ε} (h : Alike (.error e) r) : ∃ e', r = .error e' := by
  cases r with
  | ok a => cases h
  | error e' => exact ⟨e', rfl⟩

/-- From one time to another the world is `w`. -/
def Still (history : Nat → W) (start finish : Nat) (w : W) : Prop :=
  ∀ t, start ≤ t → t ≤ finish → history t = w

theorem Still.mono {history : Nat → W} {start finish start' finish' : Nat} {w : W}
    (h : Still history start finish w) (hstart : start ≤ start') (hfinish : finish' ≤ finish) :
    Still history start' finish' w :=
  fun t h₁ h₂ => h t (Nat.le_trans hstart h₁) (Nat.le_trans h₂ hfinish)

/-- If the world stands still until the program settles, the program settles as one that
reads everything at once. -/
def Steady (p : Reader W ε α) (f : W → Except ε α) : Prop :=
  ∀ w history start, p.Ends history start fun finish r =>
    Still history start finish w → Alike r (f w)

theorem Steady.congr {p : Reader W ε α} {f g : W → Except ε α} (h : Steady p f)
    (hfg : ∀ w, f w = g w) : Steady p g := by
  intro w history start
  rw [← hfg]
  exact h w history start

theorem steady_ret (a : α) : Steady (ret a : Reader W ε α) fun _ => .ok a :=
  fun _ _ _ => ends_ret fun _ => rfl

theorem steady_throw (e : ε) : Steady (throw e : Reader W ε α) fun _ => .error e :=
  fun _ _ _ => ends_throw fun _ => rfl

theorem steady_await (f : W → α) : Steady (await f : Reader W ε α) fun w => .ok (f w) := by
  refine fun w history start => ends_await fun t finish hstart hfinish hstill => ?_
  rw [hstill t hstart hfinish]
  rfl

theorem steady_bind {p : Reader W ε β} {k : β → Reader W ε α} {f : W → Except ε β}
    {g : β → W → Except ε α} (hp : Steady p f) (hk : ∀ b, Steady (k b) (g b)) :
    Steady (p.bind k) fun w => (f w).bind fun b => g b w := by
  refine fun w history start => ends_bind ((hp w history start).mono fun m r hm hr => ?_)
  cases r with
  | error e =>
      intro hstill
      show Alike (.error e) ((f w).bind fun b => g b w)
      obtain ⟨e', he'⟩ := (hr hstill).error
      rw [he']
      exact alike_error e e'
  | ok b =>
      refine (hk b w history m).mono fun finish r hfinish hb hstill => ?_
      show Alike r ((f w).bind fun b => g b w)
      rw [(hr (hstill.mono (Nat.le_refl start) hfinish)).ok]
      exact hb (hstill.mono hm (Nat.le_refl finish))

theorem steady_lift (r : Except ε α) : Steady (lift r : Reader W ε α) fun _ => r := by
  cases r with
  | ok a => exact steady_ret a
  | error e => exact steady_throw e

theorem steady_read (f : W → Except ε α) : Steady (read f) f :=
  steady_bind (steady_await f) steady_lift

theorem steady_both {p : Reader W ε α} {q : Reader W ε β} {f : W → Except ε α}
    {g : W → Except ε β} (hp : Steady p f) (hq : Steady q g) :
    Steady (both p q) fun w => (f w).bind fun a => (g w).bind fun b => .ok (a, b) := by
  refine fun w history start => ends_both (hp w history start) (hq w history start) ?_ ?_ ?_
  · intro m n a b ha hb hstill
    show Alike (.ok (a, b)) ((f w).bind fun a => (g w).bind fun b => .ok (a, b))
    rw [(ha (hstill.mono (Nat.le_refl start) (Nat.le_max_left ..))).ok,
      (hb (hstill.mono (Nat.le_refl start) (Nat.le_max_right ..))).ok]
    rfl
  · intro m e he hstill
    show Alike (.error e) ((f w).bind fun a => (g w).bind fun b => .ok (a, b))
    obtain ⟨e', he'⟩ := (he hstill).error
    rw [he']
    exact alike_error e e'
  · intro m e he hstill
    show Alike (.error e) ((f w).bind fun a => (g w).bind fun b => .ok (a, b))
    obtain ⟨e', he'⟩ := (he hstill).error
    rw [he']
    cases f w with
    | error e'' => exact alike_error e e''
    | ok a => exact alike_error e e'

theorem steady_all {ι : Type} {p : ι → Reader W ε α} {f : ι → W → Except ε α} (xs : List ι)
    (h : ∀ x ∈ xs, Steady (p x) (f x)) :
    Steady (all (xs.map p)) fun w => xs.mapM fun x => f x w := by
  induction xs with
  | nil => exact steady_ret []
  | cons x xs ih =>
      rw [List.forall_mem_cons] at h
      refine (steady_bind (k := fun r => ret (r.1 :: r.2)) (steady_both h.1 (ih h.2))
        fun r => steady_ret (r.1 :: r.2)).congr fun w => ?_
      rw [List.mapM_cons]
      cases f x w with
      | error e => rfl
      | ok a => cases xs.mapM fun x => f x w <;> rfl

end Reader

end Async
