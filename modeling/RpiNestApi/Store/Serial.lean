import RpiNestApi.Store.Checkpointed

/-
The values that were committed, one after another.

The value that stands for a key is the one its live checkpoint would restore, or
the saved one where it has none.  It changes where a checkpoint is destroyed, and
where a value is saved without one.  A `Log` is the history of the destroyed
checkpoints, each value made from the one that stood before.
-/

namespace Checkpointed

variable {ι κ σ ν : Type}

/-- The values saved under the checkpoints `is`, the latest first, lead from `v₀`
to `v`.  `R i v v'` says that `v'` was made of `v` and saved under `i`. -/
inductive Log (R : ι → ν → ν → Prop) (v₀ : ν) : List ι → ν → Prop
  | nil : Log R v₀ [] v₀
  | cons {is : List ι} {i : ι} {v v' : ν} (h : Log R v₀ is v) (hR : R i v v') :
      Log R v₀ (i :: is) v'

theorem Log.mono {R R' : ι → ν → ν → Prop} (hR : ∀ i v v', R i v v' → R' i v v') {v₀ v : ν}
    {is : List ι} (h : Log R v₀ is v) : Log R' v₀ is v := by
  induction h with
  | nil => exact .nil
  | cons _ h ih => exact .cons ih (hR _ _ _ h)

/-- Two entries of a log: the later value was made of the earlier one. -/
theorem Log.pair {R : ι → ν → ν → Prop} {v₀ v : ν} {i j : ι} (h : Log R v₀ [j, i] v) :
    ∃ u, R i v₀ u ∧ R j u v := by
  cases h with
  | cons h hj =>
      cases h with
      | cons h hi =>
          cases h with
          | nil => exact ⟨_, hi, hj⟩

namespace Store

/-- The value of the key that stands if its live checkpoint expires. -/
structure Stands (s : Store ι κ σ ν) (slot : κ → σ) (k : κ) (v : ν) : Prop where
  bare : s.Bare k → s.saved (slot k) = v
  snapshot : ∀ c ∈ s.live, c.key = k → c.snapshot = v

namespace Stands

variable {slot : κ → σ} {s s' : Store ι κ σ ν} {i : ι} {k k' : κ} {v : ν}

theorem init (saved : σ → ν) (k : κ) :
    (Store.init saved : Store ι κ σ ν).Stands slot k (saved (slot k)) where
  bare _ := rfl
  snapshot c hc := by cases hc

theorem congr (h : s.Stands slot k v) (hsaved : s'.saved (slot k) = s.saved (slot k))
    (hlive : ∀ c, c.key = k → (c ∈ s'.live ↔ c ∈ s.live)) : s'.Stands slot k v where
  bare hbare := by
    refine hsaved.trans (h.bare (bare_iff.mpr fun c hc hkey => ?_))
    exact bare_iff.mp hbare c ((hlive c hkey).mpr hc) hkey
  snapshot c hc hkey := h.snapshot c ((hlive c hkey).mp hc) hkey

theorem create [DecidableEq κ] (h : s.Stands slot k v) (hs : s.create slot i k' = some s') :
    s'.Stands slot k v := by
  obtain ⟨hbare, hsaved, hlive⟩ := create_eq_some hs
  refine ⟨fun hk => ?_, fun c hc hkey => ?_⟩
  · rw [hsaved]
    refine h.bare (bare_iff.mpr fun c hc => bare_iff.mp hk c ?_)
    rw [hlive]
    exact List.mem_cons_of_mem _ hc
  · rw [hlive] at hc
    rcases List.mem_cons.mp hc with rfl | hc
    · obtain rfl : k' = k := hkey
      exact h.bare hbare
    · exact h.snapshot c hc hkey

/-- What is saved for another key, or under a checkpoint, does not stand. -/
theorem save [DecidableEq σ] (hslot : Function.Injective slot) (h : s.Stands slot k v) {x : ν}
    (hk : s.Bare k → k' ≠ k) : (s.save (slot k') x).Stands slot k v where
  bare hbare := by
    have hne : slot k ≠ slot k' := fun he => hk hbare (hslot he).symm
    rw [saved_save, Function.update_of_ne hne]
    exact h.bare hbare
  snapshot := h.snapshot

theorem release_of_ne [DecidableEq κ] (h : s.Stands slot k v) (hk : k' ≠ k) :
    (s.release k').Stands slot k v where
  bare hbare := by
    refine h.bare (bare_iff.mpr fun c hc hkey => ?_)
    exact bare_iff.mp hbare c (mem_release.mpr ⟨hc, fun he => hk (he.symm.trans hkey)⟩) hkey
  snapshot c hc := h.snapshot c (mem_release.mp hc).1

/-- A value stands once its checkpoint is gone. -/
theorem release [DecidableEq κ] (s : Store ι κ σ ν) (k : κ) :
    (s.release k).Stands slot k (s.saved (slot k)) where
  bare _ := rfl
  snapshot _ hc hkey := absurd hkey (mem_release.mp hc).2

theorem expire [DecidableEq ι] [DecidableEq κ] [DecidableEq σ]
    (hslot : Function.Injective slot) (h : s.Stands slot k v) (hs : s.expire slot i = some s') :
    s'.Stands slot k v := by
  obtain ⟨c, hc, _, rfl⟩ := expire_eq_some hs
  by_cases hk : c.key = k
  · subst hk
    have hv : (s.save (slot c.key) c.snapshot).saved (slot c.key) = v := by
      rw [saved_save, Function.update_self]
      exact h.snapshot c hc rfl
    exact hv ▸ release _ _
  · exact (h.save hslot fun _ => hk).release_of_ne hk

end Stands

end Store

end Checkpointed
