/-
A key-value store that commits its writes later.

`put` and `remove` only issue a write.  Writes are applied one by one in the
order they were issued, and a read sees the writes applied so far.  The store
keeps every write it was ever given, so that each content it had or will have is
the replay of a prefix of `writes`: `get` replays the applied prefix and
`latest` all of it.
-/
import Mathlib.Data.List.Basic
import Mathlib.Data.Nat.Init

namespace WriteBehind

/-- The writes `writes` were issued, and the first `applied` of them are
committed.  A write of `none` removes its key. -/
structure Store (κ ν : Type) where
  writes : List (κ × Option ν)
  applied : Nat
  applied_le : applied ≤ writes.length

variable {κ ν : Type}

namespace Store

def empty : Store κ ν := { writes := [], applied := 0, applied_le := Nat.le_refl 0 }

def issue (s : Store κ ν) (k : κ) (o : Option ν) : Store κ ν :=
  { writes := s.writes ++ [(k, o)], applied := s.applied,
    applied_le := by
      have := s.applied_le
      simp only [List.length_append, List.length_cons, List.length_nil]
      omega }

def put (s : Store κ ν) (k : κ) (v : ν) : Store κ ν := s.issue k (some v)

def remove (s : Store κ ν) (k : κ) : Store κ ν := s.issue k none

/-- Apply the oldest write that is not committed yet. -/
def commit (s : Store κ ν) : Option (Store κ ν) :=
  if h : s.applied < s.writes.length then
    some { writes := s.writes, applied := s.applied + 1, applied_le := h }
  else none

/-- The promise of the write `n` has resolved. -/
def Committed (s : Store κ ν) (n : Nat) : Prop := n < s.applied

instance (s : Store κ ν) (n : Nat) : Decidable (s.Committed n) :=
  inferInstanceAs (Decidable (n < s.applied))

/-- The write `n` stores `o` under `k`. -/
def Wrote (s : Store κ ν) (n : Nat) (k : κ) (o : Option ν) : Prop := s.writes[n]? = some (k, o)

/-- Some write of `k` is issued and not committed. -/
def Pending (s : Store κ ν) (k : κ) : Prop := ∃ w ∈ s.writes.drop s.applied, w.1 = k

/-! ## Issuing and committing -/

@[simp] theorem writes_issue (s : Store κ ν) (k : κ) (o : Option ν) :
    (s.issue k o).writes = s.writes ++ [(k, o)] := rfl

@[simp] theorem applied_issue (s : Store κ ν) (k : κ) (o : Option ν) :
    (s.issue k o).applied = s.applied := rfl

theorem commit_eq_some {s t : Store κ ν} (h : s.commit = some t) :
    s.applied < s.writes.length ∧ t.writes = s.writes ∧ t.applied = s.applied + 1 := by
  simp only [commit] at h
  split at h
  · rename_i hlt
    cases h
    exact ⟨hlt, rfl, rfl⟩
  · cases h

theorem exists_commit {s : Store κ ν} (h : s.applied < s.writes.length) :
    ∃ t, s.commit = some t := by
  simp [commit, h]

theorem Wrote.lt {s : Store κ ν} {n : Nat} {k : κ} {o : Option ν} (h : s.Wrote n k o) :
    n < s.writes.length := by
  obtain ⟨hn, _⟩ := List.getElem?_eq_some_iff.mp h
  exact hn

theorem Wrote.unique {s : Store κ ν} {n : Nat} {k k' : κ} {o o' : Option ν} (h : s.Wrote n k o)
    (h' : s.Wrote n k' o') : k = k' ∧ o = o' := by
  have he : some (k, o) = some (k', o') := h.symm.trans h'
  cases he
  exact ⟨rfl, rfl⟩

theorem wrote_issue_iff {s : Store κ ν} {n : Nat} {k k' : κ} {o o' : Option ν} :
    (s.issue k' o').Wrote n k o ↔
      s.Wrote n k o ∨ n = s.writes.length ∧ k = k' ∧ o = o' := by
  rw [Wrote, writes_issue, List.getElem?_append, Wrote]
  split
  · rename_i hlt
    exact ⟨.inl, fun h => h.elim id fun ⟨he, _⟩ => absurd hlt (he ▸ Nat.lt_irrefl _)⟩
  · rename_i hge
    rw [List.getElem?_eq_none (Nat.le_of_not_lt hge)]
    constructor
    · intro h
      obtain ⟨hn, hw⟩ := List.getElem?_eq_some_iff.mp h
      simp only [List.length_cons, List.length_nil] at hn
      have hn0 : n = s.writes.length := by omega
      subst hn0
      simp only [Nat.sub_self, List.getElem_cons_zero, Prod.mk.injEq] at hw
      exact .inr ⟨rfl, hw.1.symm, hw.2.symm⟩
    · rintro (h | ⟨rfl, rfl, rfl⟩)
      · cases h
      · simp

theorem Wrote.issue {s : Store κ ν} {n : Nat} {k : κ} {o : Option ν} (h : s.Wrote n k o)
    (k' : κ) (o' : Option ν) : (s.issue k' o').Wrote n k o :=
  wrote_issue_iff.mpr (.inl h)

theorem wrote_issue_self (s : Store κ ν) (k : κ) (o : Option ν) :
    (s.issue k o).Wrote s.writes.length k o :=
  wrote_issue_iff.mpr (.inr ⟨rfl, rfl, rfl⟩)

theorem wrote_congr {s t : Store κ ν} (h : t.writes = s.writes) {n : Nat} {k : κ}
    {o : Option ν} : t.Wrote n k o ↔ s.Wrote n k o := by
  rw [Wrote, Wrote, h]

theorem exists_wrote {s : Store κ ν} {n : Nat} (h : n < s.writes.length) :
    ∃ k o, s.Wrote n k o :=
  ⟨s.writes[n].1, s.writes[n].2, List.getElem?_eq_getElem h⟩

/-! ## Later stores -/

/-- `t` is `s` after more writes and more commits. -/
structure Extends (s t : Store κ ν) : Prop where
  writes : s.writes <+: t.writes
  applied : s.applied ≤ t.applied

theorem Extends.refl (s : Store κ ν) : s.Extends s :=
  { writes := List.prefix_refl _, applied := Nat.le_refl _ }

theorem Extends.trans {s t u : Store κ ν} (h : s.Extends t) (h' : t.Extends u) : s.Extends u :=
  { writes := h.writes.trans h'.writes, applied := Nat.le_trans h.applied h'.applied }

theorem Extends.issue (s : Store κ ν) (k : κ) (o : Option ν) : s.Extends (s.issue k o) :=
  { writes := List.prefix_append .., applied := Nat.le_refl _ }

theorem Extends.commit {s t : Store κ ν} (h : s.commit = some t) : s.Extends t := by
  obtain ⟨_, hw, ha⟩ := commit_eq_some h
  exact { writes := hw ▸ List.prefix_refl _, applied := ha ▸ Nat.le_succ _ }

theorem Extends.length_le {s t : Store κ ν} (h : s.Extends t) :
    s.writes.length ≤ t.writes.length :=
  h.writes.length_le

theorem Extends.wrote {s t : Store κ ν} (h : s.Extends t) {n : Nat} {k : κ} {o : Option ν}
    (hw : s.Wrote n k o) : t.Wrote n k o := by
  obtain ⟨ws, hws⟩ := h.writes
  rw [Wrote, ← hws, List.getElem?_append_left hw.lt]
  exact hw

theorem Extends.wrote_of_lt {s t : Store κ ν} (h : s.Extends t) {n : Nat} {k : κ}
    {o : Option ν} (hn : n < s.writes.length) (hw : t.Wrote n k o) : s.Wrote n k o := by
  obtain ⟨k', o', hw'⟩ := exists_wrote hn
  obtain ⟨rfl, rfl⟩ := hw.unique (h.wrote hw')
  exact hw'

theorem Extends.committed {s t : Store κ ν} (h : s.Extends t) {n : Nat} (hn : s.Committed n) :
    t.Committed n :=
  Nat.lt_of_lt_of_le hn h.applied

/-! ## Pending writes -/

theorem pending_iff {s : Store κ ν} {k : κ} :
    s.Pending k ↔ ∃ n o, s.applied ≤ n ∧ s.Wrote n k o := by
  constructor
  · rintro ⟨w, hw, rfl⟩
    obtain ⟨n, hn⟩ := List.mem_iff_getElem?.mp hw
    rw [List.getElem?_drop] at hn
    exact ⟨s.applied + n, w.2, Nat.le_add_right .., hn⟩
  · rintro ⟨n, o, hn, hw⟩
    refine ⟨(k, o), List.mem_iff_getElem?.mpr ⟨n - s.applied, ?_⟩, rfl⟩
    rw [List.getElem?_drop, Nat.add_sub_cancel' hn]
    exact hw

end Store

/-! ## Contents -/

section Content

variable [DecidableEq κ]

/-- The value of `k` after the writes `ws` to an empty store. -/
def replay (ws : List (κ × Option ν)) (k : κ) : Option ν :=
  ws.foldl (fun v w => if w.1 = k then w.2 else v) none

theorem replay_snoc (ws : List (κ × Option ν)) (w : κ × Option ν) (k : κ) :
    replay (ws ++ [w]) k = if w.1 = k then w.2 else replay ws k := by
  simp only [replay, List.foldl_append, List.foldl_cons, List.foldl_nil]

namespace Store

/-- The content after the first `n` writes. -/
def version (s : Store κ ν) (n : Nat) (k : κ) : Option ν := replay (s.writes.take n) k

/-- The last committed value of `k`. -/
def get (s : Store κ ν) (k : κ) : Option ν := s.version s.applied k

/-- The value `k` has once every issued write is committed. -/
def latest (s : Store κ ν) (k : κ) : Option ν := s.version s.writes.length k

def doesExist (s : Store κ ν) (k : κ) : Bool := (s.get k).isSome

instance (s : Store κ ν) (k : κ) : Decidable (s.Pending k) :=
  inferInstanceAs (Decidable (∃ w ∈ s.writes.drop s.applied, w.1 = k))

theorem version_congr {s t : Store κ ν} (h : t.writes = s.writes) (n : Nat) (k : κ) :
    t.version n k = s.version n k := by
  simp only [version, h]

theorem Extends.version {s t : Store κ ν} (h : s.Extends t) {n : Nat}
    (hn : n ≤ s.writes.length) (k : κ) : t.version n k = s.version n k := by
  obtain ⟨ws, hws⟩ := h.writes
  simp only [Store.version, ← hws, List.take_append_of_le_length hn]

theorem latest_issue (s : Store κ ν) (k : κ) (o : Option ν) (k' : κ) :
    (s.issue k o).latest k' = if k = k' then o else s.latest k' := by
  simp only [latest, version, writes_issue, List.take_length, replay_snoc]

theorem version_succ (s : Store κ ν) {n : Nat} {k : κ} {o : Option ν} (h : s.Wrote n k o)
    (k' : κ) : s.version (n + 1) k' = if k = k' then o else s.version n k' := by
  simp only [version, List.take_add_one, show s.writes[n]? = some (k, o) from h,
    Option.toList_some, replay_snoc]

theorem version_succ_of_ne (s : Store κ ν) {n : Nat} {k : κ}
    (h : ∀ o, ¬ s.Wrote n k o) : s.version (n + 1) k = s.version n k := by
  by_cases hn : n < s.writes.length
  · have hw : s.Wrote n s.writes[n].1 s.writes[n].2 := List.getElem?_eq_getElem hn
    rw [s.version_succ hw, if_neg]
    rintro rfl
    exact h _ hw
  · simp only [version]
    rw [List.take_of_length_le (by omega), List.take_of_length_le (by omega)]

/-- What every write of `k` in a stretch keeps of its value, the stretch keeps. -/
theorem version_eq_of_kept {α : Type} (f : Option ν → α) (s : Store κ ν) {k : κ} {a b : Nat}
    (hab : a ≤ b)
    (h : ∀ n o, a ≤ n → n < b → s.Wrote n k o → f o = f (s.version n k)) :
    f (s.version b k) = f (s.version a k) := by
  induction b, hab using Nat.le_induction with
  | base => rfl
  | succ b hab ih =>
      have hstep : f (s.version (b + 1) k) = f (s.version b k) := by
        by_cases hb : ∃ o, s.Wrote b k o
        · obtain ⟨o, ho⟩ := hb
          rw [s.version_succ ho, if_pos rfl]
          exact h b o hab (Nat.lt_succ_self b) ho
        · rw [s.version_succ_of_ne fun o ho => hb ⟨o, ho⟩]
      rw [hstep]
      exact ih fun n o hn hnb => h n o hn (Nat.lt_succ_of_lt hnb)

/-- A stretch of writes that leaves `k` alone keeps its value. -/
theorem version_eq_of_untouched (s : Store κ ν) {k : κ} {a b : Nat} (hab : a ≤ b)
    (h : ∀ n, a ≤ n → n < b → ∀ o, ¬ s.Wrote n k o) : s.version b k = s.version a k :=
  s.version_eq_of_kept id hab fun n o hn hb ho => absurd ho (h n hn hb o)

/-- Either no write of a stretch touches `k`, or the last one that does gave `k`
the value it has at its end. -/
theorem version_cases (s : Store κ ν) (k : κ) {a b : Nat} (hab : a ≤ b) :
    s.version b k = s.version a k ∨
      ∃ n o, a ≤ n ∧ n < b ∧ s.Wrote n k o ∧ s.version b k = o ∧
        ∀ m, n < m → m < b → ∀ o', ¬ s.Wrote m k o' := by
  induction b, hab using Nat.le_induction with
  | base => exact .inl rfl
  | succ b hab ih =>
      by_cases hb : ∃ o, s.Wrote b k o
      · obtain ⟨o, ho⟩ := hb
        refine .inr ⟨b, o, hab, Nat.lt_succ_self b, ho, ?_, fun m hm hb => absurd hb (by omega)⟩
        simp [s.version_succ ho]
      · have hb' : ∀ o, ¬ s.Wrote b k o := fun o ho => hb ⟨o, ho⟩
        rw [s.version_succ_of_ne hb']
        rcases ih with he | ⟨n, o, hn, hnb, ho, he, hlast⟩
        · exact .inl he
        · refine .inr ⟨n, o, hn, Nat.lt_succ_of_lt hnb, ho, he, fun m hnm hmb => ?_⟩
          rcases Nat.lt_succ_iff_lt_or_eq.mp hmb with hlt | rfl
          · exact hlast m hnm hlt
          · exact hb'

theorem version_zero (s : Store κ ν) (k : κ) : s.version 0 k = none := rfl

/-- A value of `k` is the work of the last write of `k`. -/
theorem version_eq_some {s : Store κ ν} {k : κ} {b : Nat} {v : ν} (h : s.version b k = some v) :
    ∃ n, n < b ∧ s.Wrote n k (some v) ∧ ∀ m, n < m → m < b → ∀ o, ¬ s.Wrote m k o := by
  rcases s.version_cases k (Nat.zero_le b) with he | ⟨n, o, _, hnb, hw, he, hlast⟩
  · rw [h, version_zero] at he
    cases he
  · rw [h] at he
    subst he
    exact ⟨n, hnb, hw, hlast⟩

/-- Between a write of a value and a later version without one lies a removal. -/
theorem exists_removal {s : Store κ ν} {k : κ} {v : ν} {n b : Nat} (hnb : n < b)
    (hw : s.Wrote n k (some v)) (h : s.version b k = none) :
    ∃ m, n < m ∧ m < b ∧ s.Wrote m k none := by
  rcases s.version_cases k (show n + 1 ≤ b from hnb) with he | ⟨m, o, hm, hmb, hw', he, _⟩
  · rw [h, s.version_succ hw, if_pos rfl] at he
    cases he
  · rw [h] at he
    subst he
    exact ⟨m, hm, hmb, hw'⟩

/-- After a removal `k` stays without a value if nothing but a removal is written
where it has none. -/
theorem version_eq_none {s : Store κ ν} {k : κ} {n b : Nat} (hw : s.Wrote n k none)
    (h : ∀ m o, n < m → s.version m k = none → s.Wrote m k o → o = none) (hb : n < b) :
    s.version b k = none := by
  induction b, hb using Nat.le_induction with
  | base => rw [s.version_succ hw, if_pos rfl]
  | succ b hb ih =>
      by_cases hm : ∃ o, s.Wrote b k o
      · obtain ⟨o, ho⟩ := hm
        rw [s.version_succ ho, if_pos rfl]
        exact h b o hb ih ho
      · rw [s.version_succ_of_ne fun o ho => hm ⟨o, ho⟩]
        exact ih

/-- With no value of `k` waiting to be committed, a read that finds nothing is
right. -/
theorem latest_eq_none {s : Store κ ν} {k : κ} (hget : s.get k = none)
    (h : ∀ n v, s.Wrote n k (some v) → s.Committed n) : s.latest k = none := by
  rcases s.version_cases k s.applied_le with he | ⟨n, o, hn, _, hw, he, _⟩
  · exact he.trans hget
  · cases o with
    | none => exact he
    | some v => exact absurd (h n v hw) (Nat.not_lt.mpr hn)

end Store

end Content

end WriteBehind
