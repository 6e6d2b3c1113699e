/-
Deep merges.

A merge writes the properties of one object into another one, property by property.  An
undefined property is skipped where there is one already, objects and arrays are merged in
turn, and every other value replaces what is there.  `Covers s d` says that everything
in `s` is in `d` already: a merge makes it true, and does nothing where it holds.
-/
import RpiNestApi.Json.Values
import Mathlib.Data.List.Nodup

namespace Json

/-- What an object or array is merged into: what is there, or a new object or array.
`toArray` is the array that takes the place of what is not one. -/
def target (toArray : Json → Json) (source d : Json) : Json :=
  if source.isArray then if d.isArray then d else toArray d
  else if d.isObject then d else source.blank

/-- The merge of one property, where `merged` is the merge of its value. -/
def assign (toArray : Json → Json) (o : Json) (key : String) (v : Json) (merged : Json → Json) :
    Json :=
  match v with
  | .undefined => if o.has key then o else o.set key .undefined
  | .object _ _ _ => o.set key (merged (target toArray v (o.get key)))
  | v => o.set key v

/-- What a property becomes when it is merged with the one of an object in its place. -/
def mergeInto (toArray : Json → Json) (merge : Json → Json → Json) (d s : Json) : Json :=
  merge (target toArray s d) s

/-- The merge of the second value into the first one. -/
structure IsMerge (toArray : Json → Json) (merge : Json → Json → Json) : Prop where
  isArray_toArray : ∀ d, (toArray d).isArray = true
  merge_object : ∀ d s, d.isObject = true → s.isObject = true →
    merge d s =
      s.keys.foldl (fun o key => assign toArray o key (s.get key) (fun e => merge e (s.get key))) d

/-- Everything in the first value is in the second one. -/
def Covers : Json → Json → Prop
  | .undefined, _ => True
  | .object isArray keys fields, d => d.isObject = true ∧ (isArray = true → d.isArray = true) ∧
      ∀ key ∈ keys, d.has key = true ∧ Covers (fields key) (d.get key)
  | v, d => d = v

/-! ## What is covered -/

theorem covers_object {s d : Json} (hs : s.isObject = true) :
    Covers s d ↔ d.isObject = true ∧ (s.isArray = true → d.isArray = true) ∧
      ∀ key, s.has key = true → d.has key = true ∧ Covers (s.get key) (d.get key) := by
  cases s with
  | object isArray keys fields =>
      have hget : ∀ key ∈ keys, (object isArray keys fields).get key = fields key :=
        fun key hkey => if_pos (List.contains_iff_mem.mpr hkey)
      refine and_congr_right fun _ => and_congr_right fun _ => forall_congr' fun key => ?_
      rw [← mem_keys (o := object isArray keys fields)]
      refine forall_congr' fun hkey => ?_
      rw [hget key hkey]
  | _ => cases hs

theorem Covers.isObject {s d : Json} (h : Covers s d) (hs : s.isObject = true) :
    d.isObject = true := ((covers_object hs).mp h).1

theorem Covers.get {s d : Json} (h : Covers s d) {key : String} (hkey : s.has key = true) :
    Covers (s.get key) (d.get key) :=
  (((covers_object (isObject_of_has hkey)).mp h).2.2 key hkey).2

theorem Covers.has {s d : Json} (h : Covers s d) {key : String} (hkey : s.has key = true) :
    d.has key = true :=
  (((covers_object (isObject_of_has hkey)).mp h).2.2 key hkey).1

/-- A value that still covers the properties still covers the object. -/
theorem Covers.congr {s d d' : Json} (h : Covers s d) (hs : s.isObject = true)
    (hblank : d'.blank = d.blank) (hhas : ∀ key, s.has key = true → d'.has key = d.has key)
    (hget : ∀ key, s.has key = true → Covers (s.get key) (d.get key) →
      Covers (s.get key) (d'.get key)) : Covers s d' := by
  obtain ⟨hobject, harray, hkeys⟩ := (covers_object hs).mp h
  refine (covers_object hs).mpr ⟨?_, fun hs' => ?_, fun key hkey => ⟨?_, ?_⟩⟩
  · rw [isObject_eq_of_blank hblank, hobject]
  · rw [isArray_eq_of_blank hblank, harray hs']
  · rw [hhas key hkey, (hkeys key hkey).1]
  · exact hget key hkey (hkeys key hkey).2

theorem isArray_target {toArray : Json → Json} (h : ∀ d, (toArray d).isArray = true)
    {s : Json} (hs : s.isArray = true) (d : Json) : (target toArray s d).isArray = true := by
  rw [target, if_pos hs]
  split
  · assumption
  · exact h d

theorem isObject_target {toArray : Json → Json} (h : ∀ d, (toArray d).isArray = true)
    {s : Json} (hs : s.isObject = true) (d : Json) : (target toArray s d).isObject = true := by
  cases harray : s.isArray with
  | true => exact isObject_of_isArray (isArray_target h harray d)
  | false =>
      rw [target, if_neg (by simp [harray])]
      split
      · assumption
      · cases s with
        | object isArray keys fields => rfl
        | _ => cases hs

/-- A new object has no properties, and neither has what is not an object. -/
theorem get_target (toArray : Json → Json) {s : Json} (hs : s.isArray = false) (d : Json)
    (key : String) : (target toArray s d).get key = d.get key := by
  rw [target, if_neg (by simp [hs])]
  split
  · rfl
  · cases s <;> cases d <;> first | rfl | contradiction

theorem has_target (toArray : Json → Json) {s : Json} (hs : s.isArray = false) (d : Json)
    (key : String) : (target toArray s d).has key = d.has key := by
  rw [target, if_neg (by simp [hs])]
  split
  · rfl
  · cases s <;> cases d <;> first | rfl | contradiction

/-- What covers the source is merged into. -/
theorem target_of_covers (toArray : Json → Json) {s d : Json} (hs : s.isObject = true)
    (h : Covers s d) : target toArray s d = d := by
  obtain ⟨hobject, harray, -⟩ := (covers_object hs).mp h
  rw [target, if_pos hobject, ite_eq_right_iff]
  exact fun hs' => if_pos (harray hs')

/-! ## One property -/

section Assign

variable {toArray : Json → Json} {o : Json} {key : String} {v : Json} {merged : Json → Json}

theorem assign_sameBut : SameBut [key] o (assign toArray o key v merged) := by
  have hset := fun w => SameBut.set o (List.mem_singleton_self key) w
  cases v with
  | undefined =>
      rw [assign]
      split
      · exact SameBut.refl [key] o
      · exact hset .undefined
  | _ => exact hset _

theorem has_assign (h : o.isObject = true) :
    (assign toArray o key v merged).has key = true := by
  cases v with
  | undefined =>
      rw [assign]
      split
      · assumption
      · exact has_set_self h key .undefined
  | _ => exact has_set_self h key _

theorem has_assign_of_has {key' : String} (h : o.has key' = true) :
    (assign toArray o key v merged).has key' = true := by
  by_cases hkey : key' = key
  · rw [hkey]
    exact has_assign (isObject_of_has h)
  · rw [assign_sameBut.has key' (fun hmem => hkey (List.mem_singleton.mp hmem)), h]

theorem get_assign_of_ne {key' : String} (h : key' ≠ key) :
    (assign toArray o key v merged).get key' = o.get key' :=
  assign_sameBut.get key' fun hmem => h (List.mem_singleton.mp hmem)

theorem get_assign_object (h : o.isObject = true) (hv : v.isObject = true) :
    (assign toArray o key v merged).get key = merged (target toArray v (o.get key)) := by
  cases v with
  | object isArray keys fields => exact get_set_self h key _
  | _ => cases hv

theorem covers_assign (h : o.isObject = true)
    (hmerged : v.isObject = true → Covers v (merged (target toArray v (o.get key)))) :
    Covers v ((assign toArray o key v merged).get key) := by
  cases v with
  | undefined => trivial
  | object isArray keys fields =>
      rw [get_assign_object h rfl]
      exact hmerged rfl
  | _ => exact get_set_self h key _

theorem assign_of_covers (hkey : o.has key = true) (hcovers : Covers v (o.get key))
    (hmerged : v.isObject = true → merged (o.get key) = o.get key) :
    assign toArray o key v merged = o := by
  cases v with
  | undefined => exact if_pos hkey
  | object isArray keys fields =>
      rw [assign, target_of_covers toArray rfl hcovers, hmerged rfl, set_get hkey]
  | _ => exact (congrArg (o.set key) (Eq.symm hcovers)).trans (set_get hkey)

end Assign

namespace IsMerge

variable {toArray : Json → Json} {merge : Json → Json → Json}

/-- What holds of an object and is kept by the merge of every property holds of the
merge. -/
theorem induction (hmerge : IsMerge toArray merge) {P : Json → Prop} {d s : Json}
    (hd : d.isObject = true) (hs : s.isObject = true) (h : P d)
    (hstep : ∀ o key, s.has key = true → P o →
      P (assign toArray o key (s.get key) (fun e => merge e (s.get key)))) : P (merge d s) := by
  rw [hmerge.merge_object d s hd hs]
  exact List.foldlRecOn s.keys _ h fun o ho key hkey => hstep o key (mem_keys.mp hkey) ho

/-- What the merge of one property makes true, and every other one keeps, holds of the
merge. -/
theorem induction_on (hmerge : IsMerge toArray merge) {P : Json → Prop} {d s : Json}
    (hd : d.isObject = true) {key : String} (hkey : s.has key = true)
    (hset : ∀ o, o.isObject = true →
      P (assign toArray o key (s.get key) (fun e => merge e (s.get key))))
    (hkeep : ∀ o key', o.isObject = true → s.has key' = true → P o →
      P (assign toArray o key' (s.get key') (fun e => merge e (s.get key')))) : P (merge d s) := by
  rw [hmerge.merge_object d s hd (isObject_of_has hkey)]
  have hkeys : ∀ key' ∈ s.keys, s.has key' = true := fun key' hkey' => mem_keys.mp hkey'
  obtain ⟨before, after, hsplit⟩ := List.append_of_mem (mem_keys.mpr hkey)
  rw [hsplit] at hkeys ⊢
  rw [List.foldl_append, List.foldl_cons]
  have hbefore := List.foldlRecOn (motive := fun o => o.isObject = true) before
    (fun o key => assign toArray o key (s.get key) (fun e => merge e (s.get key))) hd
    fun o ho key' _ => assign_sameBut.isObject.trans ho
  refine (List.foldlRecOn (motive := fun o => o.isObject = true ∧ P o) after _
    ⟨assign_sameBut.isObject.trans hbefore, hset _ hbefore⟩ fun o ho key' hkey' => ?_).2
  have hmem : key' ∈ before ++ key :: after :=
    List.mem_append_right before (List.mem_cons_of_mem key hkey')
  exact ⟨assign_sameBut.isObject.trans ho.1, hkeep o key' ho.1 (hkeys key' hmem) ho.2⟩

theorem merge_sameBut (hmerge : IsMerge toArray merge) {d s : Json} (hd : d.isObject = true)
    (hs : s.isObject = true) : SameBut s.keys d (merge d s) := by
  refine hmerge.induction hd hs (SameBut.refl s.keys d) fun o key hkey ho => ?_
  refine ho.trans (assign_sameBut.mono fun key' hkey' => ?_)
  rw [List.mem_singleton.mp hkey']
  exact mem_keys.mpr hkey

/-- What a property of the source that is an object has been merged into. -/
theorem get_merge (hmerge : IsMerge toArray merge) {d s : Json} (hd : d.isObject = true)
    (hnodup : s.keys.Nodup) {key : String} (hkey : s.has key = true)
    (hobject : (s.get key).isObject = true) :
    (merge d s).get key = mergeInto toArray merge (d.get key) (s.get key) := by
  rw [hmerge.merge_object d s hd (isObject_of_has hkey)]
  obtain ⟨before, after, hsplit⟩ := List.append_of_mem (mem_keys.mpr hkey)
  rw [hsplit] at hnodup ⊢
  have hdisjoint := List.nodup_middle.mp hnodup
  rw [List.nodup_cons, List.mem_append, not_or] at hdisjoint
  rw [List.foldl_append, List.foldl_cons]
  let step := fun o key => assign toArray o key (s.get key) (fun e => merge e (s.get key))
  have hbefore := List.foldlRecOn (motive := fun o => o.isObject = true ∧ o.get key = d.get key)
    before step ⟨hd, rfl⟩ fun o ho key' hkey' =>
      ⟨assign_sameBut.isObject.trans ho.1,
        (get_assign_of_ne (ne_of_mem_of_not_mem hkey' hdisjoint.1.1).symm).trans ho.2⟩
  refine List.foldlRecOn (motive := fun o => o.get key = _) after step ?_ fun o ho key' hkey' => ?_
  · rw [get_assign_object hbefore.1 hobject, hbefore.2, mergeInto]
  · exact (get_assign_of_ne (ne_of_mem_of_not_mem hkey' hdisjoint.1.2).symm).trans ho

theorem isObject_merge (hmerge : IsMerge toArray merge) {d s : Json} (hd : d.isObject = true)
    (hs : s.isObject = true) : (merge d s).isObject = true :=
  (hmerge.merge_sameBut hd hs).isObject.trans hd

theorem mergeInto_of_isObject {d s : Json} (hs : s.isArray = false) (hd : d.isObject = true) :
    mergeInto toArray merge d s = merge d s := by
  rw [mergeInto, target, if_neg (by simp [hs]), if_pos hd]

theorem isObject_mergeInto (hmerge : IsMerge toArray merge) {s : Json} (hs : s.isObject = true)
    (d : Json) : (mergeInto toArray merge d s).isObject = true :=
  hmerge.isObject_merge (isObject_target hmerge.isArray_toArray hs d) hs

theorem get_mergeInto (hmerge : IsMerge toArray merge) {s : Json} (hs : s.isArray = false)
    (hnodup : s.keys.Nodup) {key : String} (hkey : s.has key = true)
    (hobject : (s.get key).isObject = true) (d : Json) :
    (mergeInto toArray merge d s).get key = mergeInto toArray merge (d.get key) (s.get key) := by
  have htarget := isObject_target hmerge.isArray_toArray (isObject_of_has hkey) d
  rw [mergeInto, hmerge.get_merge htarget hnodup hkey hobject, get_target toArray hs]

theorem get_mergeInto_of_notMem (hmerge : IsMerge toArray merge) {s : Json}
    (hs : s.isObject = true) (harray : s.isArray = false) {key : String} (hkey : key ∉ s.keys)
    (d : Json) : (mergeInto toArray merge d s).get key = d.get key := by
  have htarget := isObject_target hmerge.isArray_toArray hs d
  rw [mergeInto, (hmerge.merge_sameBut htarget hs).get key hkey, get_target toArray harray]

theorem has_mergeInto_of_notMem (hmerge : IsMerge toArray merge) {s : Json}
    (hs : s.isObject = true) (harray : s.isArray = false) {key : String} (hkey : key ∉ s.keys)
    (d : Json) : (mergeInto toArray merge d s).has key = d.has key := by
  have htarget := isObject_target hmerge.isArray_toArray hs d
  rw [mergeInto, (hmerge.merge_sameBut htarget hs).has key hkey, has_target toArray harray]

/-- No property is lost. -/
theorem has_merge (hmerge : IsMerge toArray merge) {d s : Json} (hd : d.isObject = true)
    (hs : s.isObject = true) {key : String} (h : d.has key = true) :
    (merge d s).has key = true :=
  hmerge.induction (P := fun o => o.has key = true) hd hs h fun _ _ _ => has_assign_of_has

/-- Everything in the source is in the result. -/
theorem covers_merge (hmerge : IsMerge toArray merge) {s : Json} (hs : s.isObject = true) :
    ∀ {d : Json}, d.isObject = true → (s.isArray = true → d.isArray = true) →
      Covers s (merge d s) := by
  induction s with
  | object isArray keys fields ih =>
      intro d hd harray
      have hsame := hmerge.merge_sameBut hd hs
      have hget : ∀ {key}, (object isArray keys fields).has key = true →
          (object isArray keys fields).get key = fields key := fun hkey => if_pos hkey
      -- The merge of one property, by the induction on what its value holds.
      have hone : ∀ o key, o.isObject = true → (object isArray keys fields).has key = true →
          Covers ((object isArray keys fields).get key)
            ((assign toArray o key ((object isArray keys fields).get key)
              (fun e => merge e ((object isArray keys fields).get key))).get key) := by
        intro o key ho hkey
        refine covers_assign ho fun hv => ?_
        rw [hget hkey] at hv ⊢
        exact ih key hv (isObject_target hmerge.isArray_toArray hv _)
          fun hv' => isArray_target hmerge.isArray_toArray hv' _
      refine (covers_object hs).mpr ⟨hsame.isObject.trans hd,
        fun h => hsame.isArray.trans (harray h), fun key hkey => ⟨?_, ?_⟩⟩
      · exact hmerge.induction_on (P := fun o => o.has key = true) hd hkey (fun _ => has_assign)
          fun _ _ _ _ => has_assign_of_has
      · refine hmerge.induction_on (P := fun o => Covers _ (o.get key)) hd hkey
          (fun o ho => hone o key ho hkey) fun o key' ho hkey' hcovers => ?_
        by_cases hne : key = key'
        · rw [hne]
          exact hone o key' ho hkey'
        · rw [get_assign_of_ne hne]
          exact hcovers
  | _ => cases hs

/-- A merge does nothing where everything is there. -/
theorem merge_of_covers (hmerge : IsMerge toArray merge) {s : Json} (hs : s.isObject = true) :
    ∀ {d : Json}, Covers s d → merge d s = d := by
  induction s with
  | object isArray keys fields ih =>
      intro d hcovers
      have hd := hcovers.isObject hs
      refine hmerge.induction (P := (· = d)) hd hs rfl fun o key hkey ho => ?_
      rw [ho]
      have hget : (object isArray keys fields).get key = fields key := if_pos hkey
      refine assign_of_covers (hcovers.has hkey) (hcovers.get hkey) fun hv => ?_
      rw [hget] at hv ⊢
      refine ih key hv ?_
      rw [← hget]
      exact hcovers.get hkey
  | _ => cases hs

end IsMerge

/-! ## The merge -/

/-- An array of the first values of an object that has a `length`, or an empty one. -/
def copyArray (d : Json) : Json :=
  match d.get "length" with
  | .number q =>
    if q.den = 1 ∧ 0 ≤ q.num ∧ q.num ≤ 9007199254740991 then
      arr ((List.range q.num.toNat).map fun i => d.get (toString i))
    else arr []
  | _ => arr []

/-- The second value with the properties of the first one merged into it. -/
def mergeFrom (toArray : Json → Json) : Json → Json → Json
  | .object _ keys fields, d =>
    keys.foldl (fun o key => assign toArray o key (fields key) (mergeFrom toArray (fields key))) d
  | _, d => d

theorem isMerge_mergeFrom {toArray : Json → Json} (h : ∀ d, (toArray d).isArray = true) :
    IsMerge toArray (fun d s => mergeFrom toArray s d) where
  isArray_toArray := h
  merge_object := by
    intro d s _ hs
    cases s with
    | object isArray keys fields =>
        refine List.foldl_ext _ _ d fun o key hkey => ?_
        have hget : (object isArray keys fields).get key = fields key :=
          if_pos (List.contains_iff_mem.mpr hkey)
        rw [hget]
    | _ => cases hs

theorem isArray_copyArray (d : Json) : (copyArray d).isArray = true := by
  rw [copyArray]
  split
  · split <;> rfl
  · rfl

end Json
