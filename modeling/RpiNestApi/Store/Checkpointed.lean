/-
A store whose values can be put under a checkpoint.

A checkpoint of a key keeps the value its slot has when the checkpoint is made.
While it is live the slot may be overwritten.  Destroying the checkpoint lets the
value stand, and where it expires the kept value is restored.  `Covered` is what
such a store is for: every value is good, or is guarded by a live checkpoint that
would restore a good one.
-/
import Mathlib.Data.List.Nodup
import Mathlib.Logic.Function.Basic

namespace Checkpointed

structure Checkpoint (ι κ ν : Type) where
  id : ι
  key : κ
  snapshot : ν

/-- Slots hold values, and no key has two live checkpoints. -/
structure Store (ι κ σ ν : Type) where
  saved : σ → ν
  live : List (Checkpoint ι κ ν)
  nodup : (live.map Checkpoint.key).Nodup

variable {ι κ σ ν : Type}

namespace Store

def init (saved : σ → ν) : Store ι κ σ ν := { saved, live := [], nodup := List.nodup_nil }

/-- The key has no live checkpoint. -/
def Bare (s : Store ι κ σ ν) (k : κ) : Prop := k ∉ s.live.map Checkpoint.key

instance [DecidableEq κ] (s : Store ι κ σ ν) (k : κ) : Decidable (s.Bare k) :=
  inferInstanceAs (Decidable (k ∉ s.live.map Checkpoint.key))

def save [DecidableEq σ] (s : Store ι κ σ ν) (x : σ) (v : ν) : Store ι κ σ ν :=
  { s with saved := Function.update s.saved x v }

/-- Forget the checkpoint of a key. -/
def release [DecidableEq κ] (s : Store ι κ σ ν) (k : κ) : Store ι κ σ ν :=
  { s with
    live := s.live.filter fun c => c.key ≠ k
    nodup := (List.filter_sublist.map _).nodup s.nodup }

def find [DecidableEq ι] (s : Store ι κ σ ν) (i : ι) : Option (Checkpoint ι κ ν) :=
  s.live.find? fun c => c.id = i

def create [DecidableEq κ] (slot : κ → σ) (s : Store ι κ σ ν) (i : ι) (k : κ) :
    Option (Store ι κ σ ν) :=
  if h : s.Bare k then
    some
      { s with
        live := { id := i, key := k, snapshot := s.saved (slot k) } :: s.live
        nodup := List.nodup_cons.mpr ⟨h, s.nodup⟩ }
  else none

def destroy [DecidableEq ι] [DecidableEq κ] (s : Store ι κ σ ν) (i : ι) :
    Option (Store ι κ σ ν) :=
  (s.find i).map fun c => s.release c.key

def expire [DecidableEq ι] [DecidableEq κ] [DecidableEq σ] (slot : κ → σ) (s : Store ι κ σ ν)
    (i : ι) : Option (Store ι κ σ ν) :=
  (s.find i).map fun c => (s.save (slot c.key) c.snapshot).release c.key

/-! ## What the operations do -/

section

variable {s s' : Store ι κ σ ν} {i : ι} {k : κ}

theorem bare_iff : s.Bare k ↔ ∀ c ∈ s.live, c.key ≠ k := by
  simp [Bare]

@[simp] theorem saved_save [DecidableEq σ] (s : Store ι κ σ ν) (x : σ) (v : ν) :
    (s.save x v).saved = Function.update s.saved x v := rfl

theorem mem_release [DecidableEq κ] {c : Checkpoint ι κ ν} :
    c ∈ (s.release k).live ↔ c ∈ s.live ∧ c.key ≠ k := by
  simp [release]

theorem find_eq_some [DecidableEq ι] {c : Checkpoint ι κ ν} (h : s.find i = some c) :
    c ∈ s.live ∧ c.id = i :=
  ⟨List.mem_of_find?_eq_some h, by simpa using List.find?_some h⟩

theorem create_eq_some [DecidableEq κ] {slot : κ → σ} (h : s.create slot i k = some s') :
    s.Bare k ∧ s'.saved = s.saved ∧
      s'.live = { id := i, key := k, snapshot := s.saved (slot k) } :: s.live := by
  simp only [create] at h
  split at h
  · rename_i hbare
    cases h
    exact ⟨hbare, rfl, rfl⟩
  · cases h

theorem destroy_eq_some [DecidableEq ι] [DecidableEq κ] (h : s.destroy i = some s') :
    ∃ c ∈ s.live, c.id = i ∧ s' = s.release c.key := by
  obtain ⟨c, hc, rfl⟩ := Option.map_eq_some_iff.mp h
  obtain ⟨hmem, hid⟩ := find_eq_some hc
  exact ⟨c, hmem, hid, rfl⟩

theorem expire_eq_some [DecidableEq ι] [DecidableEq κ] [DecidableEq σ] {slot : κ → σ}
    (h : s.expire slot i = some s') :
    ∃ c ∈ s.live, c.id = i ∧ s' = (s.save (slot c.key) c.snapshot).release c.key := by
  obtain ⟨c, hc, rfl⟩ := Option.map_eq_some_iff.mp h
  obtain ⟨hmem, hid⟩ := find_eq_some hc
  exact ⟨c, hmem, hid, rfl⟩

/-- Where the checkpoint expires, what was saved under it is undone. -/
theorem expire_save_create [DecidableEq ι] [DecidableEq κ] [DecidableEq σ] {slot : κ → σ}
    (h : s.create slot i k = some s') (v : ν) :
    (s'.save (slot k) v).expire slot i = some s := by
  obtain ⟨hbare, hsaved, hlive⟩ := create_eq_some h
  have hfind : (s'.save (slot k) v).find i =
      some { id := i, key := k, snapshot := s.saved (slot k) } := by
    simp [find, save, hlive]
  have hfilter : s.live.filter (fun c => c.key ≠ k) = s.live := by
    simpa [List.filter_eq_self] using bare_iff.mp hbare
  rw [expire, hfind, Option.map_some, Option.some.injEq]
  obtain ⟨saved, live, nodup⟩ := s
  simp only [release, save, hsaved, hlive, Store.mk.injEq, Function.update_idem,
    Function.update_eq_self, true_and] at hfilter ⊢
  rw [List.filter_cons_of_neg (by simp), hfilter]

theorem expire_create [DecidableEq ι] [DecidableEq κ] [DecidableEq σ] {slot : κ → σ}
    (h : s.create slot i k = some s') : s'.expire slot i = some s := by
  have hundo := expire_save_create h (s'.saved (slot k))
  rwa [save, Function.update_eq_self] at hundo

/-- A key has at most one live checkpoint. -/
theorem eq_of_key_eq {c c' : Checkpoint ι κ ν} (hc : c ∈ s.live) (hc' : c' ∈ s.live)
    (h : c.key = c'.key) : c = c' :=
  List.inj_on_of_nodup_map s.nodup hc hc' h

end

/-! ## Covered stores -/

/-- `good` values may stand.  `wrote i k v` says that `v` was saved for `k` on the
strength of the checkpoint `i`. -/
structure Covered (slot : κ → σ) (good : κ → ν → Prop) (wrote : ι → κ → ν → Prop)
    (s : Store ι κ σ ν) : Prop where
  bare : ∀ k, s.Bare k → good k (s.saved (slot k))
  snapshot : ∀ c ∈ s.live, good c.key c.snapshot
  saved : ∀ c ∈ s.live, good c.key (s.saved (slot c.key)) ∨
    wrote c.id c.key (s.saved (slot c.key))

namespace Covered

variable {slot : κ → σ} {good good' : κ → ν → Prop} {wrote wrote' : ι → κ → ν → Prop}
variable {s s' : Store ι κ σ ν} {i : ι} {k : κ} {v : ν}

theorem init {saved : σ → ν} (h : ∀ k, good k (saved (slot k))) :
    (Store.init saved).Covered slot good wrote where
  bare k _ := h k
  snapshot c hc := by cases hc
  saved c hc := by cases hc

theorem mono (h : s.Covered slot good wrote) (hgood : ∀ k v, good k v → good' k v)
    (hwrote : ∀ i k v, wrote i k v → wrote' i k v) : s.Covered slot good' wrote' where
  bare k hk := hgood _ _ (h.bare k hk)
  snapshot c hc := hgood _ _ (h.snapshot c hc)
  saved c hc := (h.saved c hc).imp (hgood _ _) (hwrote _ _ _)

theorem create [DecidableEq κ] (h : s.Covered slot good wrote)
    (hs : s.create slot i k = some s') : s'.Covered slot good wrote := by
  obtain ⟨hbare, hsaved, hlive⟩ := create_eq_some hs
  have hk := h.bare k hbare
  have hmem : ∀ c ∈ s'.live, c = { id := i, key := k, snapshot := s.saved (slot k) } ∨
      c ∈ s.live := by
    intro c hc
    rw [hlive] at hc
    exact List.mem_cons.mp hc
  refine ⟨fun k' hk' => ?_, fun c hc => ?_, fun c hc => ?_⟩
  · rw [hsaved]
    refine h.bare k' (bare_iff.mpr fun c hc => bare_iff.mp hk' c ?_)
    rw [hlive]
    exact List.mem_cons_of_mem _ hc
  · rcases hmem c hc with rfl | hc
    · exact hk
    · exact h.snapshot c hc
  · rw [hsaved]
    rcases hmem c hc with rfl | hc
    · exact .inl hk
    · exact h.saved c hc

/-- A value may be saved that is good, or that comes with the live checkpoint of
its key. -/
theorem save [DecidableEq σ] (hslot : Function.Injective slot) (h : s.Covered slot good wrote)
    (hv : good k v ∨ ∃ c ∈ s.live, c.key = k ∧ wrote c.id k v) :
    (s.save (slot k) v).Covered slot good wrote := by
  have hother : ∀ k', k' ≠ k → (s.save (slot k) v).saved (slot k') = s.saved (slot k') :=
    fun k' hk => Function.update_of_ne (fun he => hk (hslot he)) ..
  have hself : (s.save (slot k) v).saved (slot k) = v := Function.update_self ..
  refine ⟨fun k' hk' => ?_, fun c hc => h.snapshot c hc, fun c hc => ?_⟩
  · by_cases hk : k' = k
    · subst hk
      rw [hself]
      refine hv.resolve_right fun ⟨c, hc, hkey, _⟩ => ?_
      exact bare_iff.mp hk' c hc hkey
    · rw [hother k' hk]
      exact h.bare k' hk'
  · by_cases hk : c.key = k
    · rw [hk, hself]
      refine hv.imp_right fun ⟨c', hc', hkey, hwrote⟩ => ?_
      rwa [eq_of_key_eq hc hc' (hk.trans hkey.symm)]
    · rw [hother _ hk]
      exact h.saved c hc

/-- A checkpoint may go once the value of its key is good. -/
theorem release [DecidableEq κ] (h : s.Covered slot good wrote)
    (hgood : good k (s.saved (slot k))) : (s.release k).Covered slot good wrote := by
  refine ⟨fun k' hk' => ?_, fun c hc => ?_, fun c hc => ?_⟩
  · by_cases hk : k' = k
    · rw [hk]
      exact hgood
    · refine h.bare k' (bare_iff.mpr fun c hc hkey => ?_)
      exact bare_iff.mp hk' c (mem_release.mpr ⟨hc, hkey ▸ hk⟩) hkey
  · exact h.snapshot c (mem_release.mp hc).1
  · exact h.saved c (mem_release.mp hc).1

theorem destroy [DecidableEq ι] [DecidableEq κ] (h : s.Covered slot good wrote)
    (hs : s.destroy i = some s') (hgood : ∀ k v, wrote i k v → good k v) :
    s'.Covered slot good wrote := by
  obtain ⟨c, hc, rfl, rfl⟩ := destroy_eq_some hs
  exact h.release ((h.saved c hc).elim id fun hwrote => hgood _ _ hwrote)

theorem expire [DecidableEq ι] [DecidableEq κ] [DecidableEq σ]
    (hslot : Function.Injective slot) (h : s.Covered slot good wrote)
    (hs : s.expire slot i = some s') : s'.Covered slot good wrote := by
  obtain ⟨c, hc, _, rfl⟩ := expire_eq_some hs
  have hsnapshot := h.snapshot c hc
  refine (h.save hslot (.inl hsnapshot)).release ?_
  rw [saved_save, Function.update_self]
  exact hsnapshot

end Covered

end Store

end Checkpointed
