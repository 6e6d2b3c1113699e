/-
Passes that rewrite a value in place.

A pass may throw.  It settles on a value when it changes the value as a relation says and
would then leave the result alone.  A loop settles on an object when its body settles on
every property that the loop visits, also when it visits one twice.
-/
import RpiNestApi.Json.Values

/-- The pass changes the value as `R` says, and changes the result no further. -/
def Settles {α ε : Type} (pass : α → Except ε α) (R : α → α → Prop) (a : α) : Prop :=
  ∃ b, pass a = .ok b ∧ R a b ∧ pass b = .ok b

namespace Settles

variable {α ε : Type} {p q : α → Except ε α} {R S : α → α → Prop} {a : α}

theorem mono (h : Settles p R a) (hRS : ∀ b, R a b → S a b) : Settles p S a := by
  obtain ⟨b, hb, hR, hfix⟩ := h
  exact ⟨b, hb, hRS b hR, hfix⟩

theorem rel (h : Settles p R a) {b : α} (hb : p a = .ok b) : R a b := by
  obtain ⟨c, hc, hR, -⟩ := h
  cases hb.symm.trans hc
  exact hR

/-- A pass that is made on some values only. -/
theorem ite {c : α → Bool} (hpass : c a = true → Settles p R a) (hskip : c a = false → R a a) :
    Settles (fun a => if c a then p a else .ok a) R a := by
  cases hc : c a with
  | true =>
      obtain ⟨b, hb, hR, hfix⟩ := hpass hc
      refine ⟨b, (if_pos hc).trans hb, hR, ?_⟩
      -- Where the condition no longer holds, nothing is done either.
      dsimp only
      split
      · exact hfix
      · rfl
  | false =>
      have hid : (if c a then p a else .ok a) = .ok a := if_neg (by simp [hc])
      exact ⟨a, hid, hskip hc, hid⟩

/-- A pass that throws on some values. -/
theorem guard {c : α → Bool} {e : ε} (hc : c a = false) (h : Settles p R a)
    (hR : ∀ b, R a b → c b = false) :
    Settles (fun a => if c a then .error e else p a) R a := by
  obtain ⟨b, hb, hab, hfix⟩ := h
  refine ⟨b, ?_, hab, ?_⟩
  · dsimp only
    rw [hc]
    exact hb
  · dsimp only
    rw [hR b hab]
    exact hfix

/-- Two passes, the second of which leaves alone what the first one has settled. -/
theorem bind (hp : Settles p R a) (hq : ∀ b, R a b → Settles q S b)
    (hfix : ∀ b c, R a b → p b = .ok b → S b c → p c = .ok c) :
    Settles (fun a => p a >>= q) (fun a c => ∃ b, R a b ∧ S b c) a := by
  obtain ⟨b, hb, hR, hpb⟩ := hp
  obtain ⟨c, hc, hS, hqc⟩ := hq b hR
  refine ⟨c, ?_, ⟨b, hR, hS⟩, ?_⟩
  · change (p a).bind q = .ok c
    rw [hb]
    exact hc
  · change (p c).bind q = .ok c
    rw [hfix b c hR hpb hS]
    exact hqc

end Settles

namespace Json

variable {ι ε : Type}

/-- The pass on one property, if there is one of that name. -/
def update (f : Json → Except ε Json) (key : String) (o : Json) : Except ε Json :=
  if o.has key then do
    let v ← f (o.get key)
    return o.set key v
  else return o

/-- The passes on some properties, one after the other. -/
def forEach (name : ι → String) (f : ι → Json → Except ε Json) (is : List ι) (o : Json) :
    Except ε Json :=
  is.foldlM (fun o i => update (f i) (name i) o) o

/-- The pass on every property. -/
def forKeys (f : Json → Except ε Json) (o : Json) : Except ε Json :=
  forEach (fun key => key) (fun _ => f) o.keys o

/-- The named properties are changed as `R` says, and nothing else is. -/
structure Each (name : ι → String) (R : ι → Json → Json → Prop) (is : List ι) (o o' : Json) :
    Prop where
  sameBut : SameBut (is.map name) o o'
  keys : o'.keys = o.keys
  each : ∀ i ∈ is, o.has (name i) = true → R i (o.get (name i)) (o'.get (name i))

variable {name : ι → String} {f : ι → Json → Except ε Json} {R : ι → Json → Json → Prop}

theorem Each.has {is : List ι} {o o' : Json} (h : Each name R is o o') (key : String) :
    o'.has key = o.has key := has_eq_of_keys h.keys key

/-- What holds of every property holds of every name, where it holds of `undefined`. -/
theorem Each.get {S : Json → Json → Prop} {o o' : Json}
    (h : Each (fun key => key) (fun _ => S) o.keys o o') (hundefined : S .undefined .undefined)
    (key : String) : S (o.get key) (o'.get key) := by
  cases hkey : o.has key with
  | true => exact h.each key (mem_keys.mpr hkey) hkey
  | false =>
      rw [get_of_has_eq_false hkey, get_of_has_eq_false ((h.has key).trans hkey)]
      exact hundefined

theorem update_of_has {g : Json → Except ε Json} {key : String} {o v : Json}
    (hhas : o.has key = true) (h : g (o.get key) = .ok v) : update g key o = .ok (o.set key v) := by
  rw [update, if_pos hhas, h]
  rfl

theorem update_of_has_eq_false {g : Json → Except ε Json} {key : String} {o : Json}
    (hhas : o.has key = false) : update g key o = .ok o := by
  rw [update, if_neg (by simp [hhas])]
  rfl

theorem update_fixed {g : Json → Except ε Json} {key : String} {o : Json}
    (h : o.has key = true → g (o.get key) = .ok (o.get key)) : update g key o = .ok o := by
  cases hhas : o.has key with
  | true => rw [update_of_has hhas (h hhas), set_get hhas]
  | false => exact update_of_has_eq_false hhas

/-- What a pass leaves alone has a property that is left alone. -/
theorem update_fixed_iff {g : Json → Except ε Json} {key : String} {o : Json}
    (hhas : o.has key = true) : update g key o = .ok o ↔ g (o.get key) = .ok (o.get key) := by
  refine ⟨fun h => ?_, fun h => update_fixed fun _ => h⟩
  rw [update, if_pos hhas] at h
  cases hv : g (o.get key) with
  | error e =>
      rw [hv] at h
      cases h
  | ok v =>
      rw [hv] at h
      have hset : o.set key v = o := Except.ok.inj h
      rw [← get_set_self (isObject_of_has hhas) key v, hset]

theorem forEach_cons {i : ι} {is : List ι} {o o' : Json} (h : update (f i) (name i) o = .ok o') :
    forEach name f (i :: is) o = forEach name f is o' := by
  rw [forEach, List.foldlM_cons, h]
  rfl

theorem forEach_fixed {is : List ι} {o : Json}
    (h : ∀ i ∈ is, o.has (name i) = true → f i (o.get (name i)) = .ok (o.get (name i))) :
    forEach name f is o = .ok o := by
  induction is with
  | nil => rfl
  | cons i is ih =>
      rw [forEach_cons (update_fixed (h i List.mem_cons_self))]
      exact ih fun j hj => h j (List.mem_cons_of_mem i hj)

/-- One property and then others, where a property may be visited again. -/
theorem Each.cons (hname : Function.Injective name) {i : ι} {is : List ι} {o o' o'' : Json}
    (htrans : ∀ u v w, R i u v → R i v w → R i u w) (h : Each name R [i] o o')
    (h' : Each name R is o' o'') : Each name R (i :: is) o o'' where
  sameBut := (h.sameBut.mono (by simp)).trans (h'.sameBut.mono (List.subset_cons_self _ _))
  keys := h'.keys.trans h.keys
  each := by
    intro j hj hhas
    have hhas' : o'.has (name j) = true := (h.has (name j)).trans hhas
    by_cases hji : j = i
    · rw [hji] at hhas hhas' ⊢
      have hfirst := h.each i (List.mem_singleton_self i) hhas
      by_cases hi : i ∈ is
      · exact htrans _ _ _ hfirst (h'.each i hi hhas')
      · rw [h'.sameBut.get (name i) (by simpa [hname.eq_iff] using hi)]
        exact hfirst
    · have hget := h.sameBut.get (name j) (by simpa [hname.eq_iff] using hji)
      rw [← hget]
      exact h'.each j ((List.mem_cons.mp hj).resolve_left hji) hhas'

/-- The pass takes the first value to the second one, which it leaves alone. -/
def Stops (g : Json → Except ε Json) (v w : Json) : Prop := g v = .ok w ∧ g w = .ok w

theorem Stops.trans {g : Json → Except ε Json} {u v w : Json} (h : Stops g u v)
    (h' : Stops g v w) : Stops g u w := by
  cases h.2.symm.trans h'.1
  exact h

theorem update_stops {i : ι} {o : Json}
    (h : o.has (name i) = true → ∃ v, Stops (f i) (o.get (name i)) v) :
    ∃ o', update (f i) (name i) o = .ok o' ∧ Each name (fun i => Stops (f i)) [i] o o' := by
  cases hhas : o.has (name i) with
  | false =>
      refine ⟨o, update_of_has_eq_false hhas, SameBut.refl _ o, rfl, fun j hj hjhas => ?_⟩
      rw [List.mem_singleton.mp hj, hhas] at hjhas
      cases hjhas
  | true =>
      obtain ⟨v, hv⟩ := h hhas
      refine ⟨o.set (name i) v, update_of_has hhas hv.1, SameBut.set o (by simp) v,
        keys_set_of_has hhas v, fun j hj _ => ?_⟩
      rw [List.mem_singleton.mp hj, get_set_self (isObject_of_has hhas)]
      exact hv

/-- A property that is visited again has settled by then. -/
theorem forEach_stops (hname : Function.Injective name) {is : List ι} {o : Json}
    (h : ∀ i ∈ is, o.has (name i) = true → ∃ v, Stops (f i) (o.get (name i)) v) :
    ∃ o', forEach name f is o = .ok o' ∧ Each name (fun i => Stops (f i)) is o o' := by
  induction is generalizing o with
  | nil => exact ⟨o, rfl, SameBut.refl _ o, rfl, fun i hi => absurd hi List.not_mem_nil⟩
  | cons i is ih =>
      obtain ⟨o', ho', hone⟩ := update_stops (h i List.mem_cons_self)
      have hrest : ∀ j ∈ is, o'.has (name j) = true →
          ∃ v, Stops (f j) (o'.get (name j)) v := by
        intro j hj hjhas
        have hhas : o.has (name j) = true := (hone.has (name j)).symm.trans hjhas
        by_cases hji : j = i
        · rw [hji] at hhas ⊢
          have hfix := (hone.each i (List.mem_singleton_self i) hhas).2
          exact ⟨_, hfix, hfix⟩
        · rw [hone.sameBut.get (name j) (by simpa [hname.eq_iff] using hji)]
          exact h j (List.mem_cons_of_mem i hj) hhas
      obtain ⟨o'', ho'', heach⟩ := ih hrest
      exact ⟨o'', (forEach_cons ho').trans ho'', hone.cons hname (fun _ _ _ => Stops.trans) heach⟩

theorem settles_forEach (hname : Function.Injective name) {is : List ι} {o : Json}
    (h : ∀ i ∈ is, o.has (name i) = true → Settles (f i) (R i) (o.get (name i))) :
    Settles (forEach name f is) (Each name R is) o := by
  obtain ⟨o', ho', heach⟩ := forEach_stops hname fun i hi hhas => by
    obtain ⟨v, hv, -, hfix⟩ := h i hi hhas
    exact ⟨v, hv, hfix⟩
  refine ⟨o', ho', ⟨heach.sameBut, heach.keys, fun i hi hhas => ?_⟩, ?_⟩
  · exact (h i hi hhas).rel (heach.each i hi hhas).1
  · exact forEach_fixed fun i hi hhas => (heach.each i hi ((heach.has _).symm.trans hhas)).2

theorem settles_forKeys {g : Json → Except ε Json} {S : Json → Json → Prop} {o : Json}
    (h : ∀ key, o.has key = true → Settles g S (o.get key)) :
    Settles (forKeys g) (Each (fun key => key) (fun _ => S) o.keys) o := by
  obtain ⟨o', ho', heach, hfix⟩ := settles_forEach (f := fun _ => g) (R := fun _ => S)
    Function.injective_id fun key (_ : key ∈ o.keys) => h key
  refine ⟨o', ho', heach, ?_⟩
  rw [forKeys, heach.keys]
  exact hfix

theorem settles_update {g : Json → Except ε Json} {S : Json → Json → Prop} {o : Json}
    (key : String) (h : o.has key = true → Settles g S (o.get key)) :
    Settles (update g key) (Each (fun _ : Unit => key) (fun _ => S) [()]) o := by
  have hone : forEach (fun _ : Unit => key) (fun _ => g) [()] = update g key := by
    funext o
    rw [forEach, List.foldlM_cons]
    exact bind_pure _
  rw [← hone]
  exact settles_forEach (fun _ _ _ => rfl) fun _ _ => h

end Json
