import RpiNestApi.Dbus.Utils

/-
Erasing variants.

`unwrapVariantDeep` looks whether a value is a variant once.  What a variant holds is
not looked at again, so that a variant directly in a variant stays, and a dictionary that
has a `value` and a `signature` passes for a variant unless it is directly in one.
-/

namespace RpiNestApi

namespace Value

mutual

/-- The value with every variant replaced by what it holds. -/
def erase : Value → Value
  | .variant _ value => value.erase
  | .array xs => .array (eraseAll xs)
  | .object fields => .object (eraseFields fields)
  | value => value

def eraseAll : List Value → List Value
  | [] => []
  | x :: xs => x.erase :: eraseAll xs

def eraseFields : List (String × Value) → List (String × Value)
  | [] => []
  | (name, x) :: fields => (name, x.erase) :: eraseFields fields

end

mutual

/-- There is a variant at some depth. -/
def hasVariant : Value → Bool
  | .variant _ _ => true
  | .array xs => anyVariant xs
  | .object fields => fieldsVariant fields
  | _ => false

def anyVariant : List Value → Bool
  | [] => false
  | x :: xs => x.hasVariant || anyVariant xs

def fieldsVariant : List (String × Value) → Bool
  | [] => false
  | (_, x) :: fields => x.hasVariant || fieldsVariant fields

end

/-- What a value is made of, apart from variants. -/
inductive Node where
  | leaf (value : Value)
  | array (length : Nat)
  | dictionary (keys : List String)

mutual

/-- The nodes of a value, each one before those that it holds. -/
def nodes : Value → List Node
  | .variant _ value => value.nodes
  | .array xs => .array xs.length :: nodesOfAll xs
  | .object fields => .dictionary (fields.map (·.1)) :: nodesOfFields fields
  | value => [.leaf value]

def nodesOfAll : List Value → List Node
  | [] => []
  | x :: xs => x.nodes ++ nodesOfAll xs

def nodesOfFields : List (String × Value) → List Node
  | [] => []
  | (_, x) :: fields => x.nodes ++ nodesOfFields fields

end

mutual

/-- No variant is directly in another one, and no dictionary looks like a variant where
it is taken for one. -/
def isReadable : Value → Bool
  | .variant _ value => value.isReadableContents
  | .array xs => areReadable xs
  | .object fields => !isVariantLike fields && haveReadable fields
  | _ => true

/-- The same of a value that is directly in a variant. -/
def isReadableContents : Value → Bool
  | .variant _ _ => false
  | .array xs => areReadable xs
  | .object fields => haveReadable fields
  | _ => true

def areReadable : List Value → Bool
  | [] => true
  | x :: xs => x.isReadable && areReadable xs

def haveReadable : List (String × Value) → Bool
  | [] => true
  | (_, x) :: fields => x.isReadable && haveReadable fields

end

/-- Every variant is replaced by what it holds, and nothing else is changed. -/
structure Erased (v w : Value) : Prop where
  erase : w = v.erase
  noVariant : w.hasVariant = false
  nodes : w.nodes = v.nodes
  unchanged : v.hasVariant = false → w = v

/-! ## Erased values -/

theorem length_eraseAll (xs : List Value) : (eraseAll xs).length = xs.length := by
  induction xs with
  | nil => rfl
  | cons x xs ih => rw [eraseAll, List.length_cons, List.length_cons, ih]

theorem keys_eraseFields (fields : List (String × Value)) :
    (eraseFields fields).map (·.1) = fields.map (·.1) := by
  induction fields with
  | nil => rfl
  | cons p fields ih => rw [eraseFields, List.map_cons, List.map_cons, ih]

mutual

theorem hasVariant_erase : ∀ v : Value, v.erase.hasVariant = false
  | .undefined => rfl
  | .null => rfl
  | .boolean _ => rfl
  | .number _ => rfl
  | .string _ => rfl
  | .buffer _ => rfl
  | .variant _ value => hasVariant_erase value
  | .array xs => anyVariant_eraseAll xs
  | .object fields => fieldsVariant_eraseFields fields

theorem anyVariant_eraseAll : ∀ xs : List Value, anyVariant (eraseAll xs) = false
  | [] => rfl
  | x :: xs => by
      rw [eraseAll, anyVariant, hasVariant_erase x, anyVariant_eraseAll xs]
      rfl

theorem fieldsVariant_eraseFields :
    ∀ fields : List (String × Value), fieldsVariant (eraseFields fields) = false
  | [] => rfl
  | (name, x) :: fields => by
      rw [eraseFields, fieldsVariant, hasVariant_erase x, fieldsVariant_eraseFields fields]
      rfl

end

mutual

theorem nodes_erase : ∀ v : Value, v.erase.nodes = v.nodes
  | .undefined => rfl
  | .null => rfl
  | .boolean _ => rfl
  | .number _ => rfl
  | .string _ => rfl
  | .buffer _ => rfl
  | .variant _ value => nodes_erase value
  | .array xs => by rw [erase, nodes, nodes, length_eraseAll, nodesOfAll_eraseAll xs]
  | .object fields => by
      rw [erase, nodes, nodes, keys_eraseFields, nodesOfFields_eraseFields fields]

theorem nodesOfAll_eraseAll : ∀ xs : List Value, nodesOfAll (eraseAll xs) = nodesOfAll xs
  | [] => rfl
  | x :: xs => by rw [eraseAll, nodesOfAll, nodesOfAll, nodes_erase x, nodesOfAll_eraseAll xs]

theorem nodesOfFields_eraseFields :
    ∀ fields : List (String × Value), nodesOfFields (eraseFields fields) = nodesOfFields fields
  | [] => rfl
  | (name, x) :: fields => by
      rw [eraseFields, nodesOfFields, nodesOfFields, nodes_erase x,
        nodesOfFields_eraseFields fields]

end

mutual

theorem erase_eq_self : ∀ v : Value, v.hasVariant = false → v.erase = v
  | .undefined, _ => rfl
  | .null, _ => rfl
  | .boolean _, _ => rfl
  | .number _, _ => rfl
  | .string _, _ => rfl
  | .buffer _, _ => rfl
  | .variant _ _, h => by cases h
  | .array xs, h => by rw [erase, eraseAll_eq_self xs h]
  | .object fields, h => by rw [erase, eraseFields_eq_self fields h]

theorem eraseAll_eq_self : ∀ xs : List Value, anyVariant xs = false → eraseAll xs = xs
  | [], _ => rfl
  | x :: xs, h => by
      obtain ⟨hx, hxs⟩ := Bool.or_eq_false_iff.mp h
      rw [eraseAll, erase_eq_self x hx, eraseAll_eq_self xs hxs]

theorem eraseFields_eq_self :
    ∀ fields : List (String × Value), fieldsVariant fields = false → eraseFields fields = fields
  | [], _ => rfl
  | (name, x) :: fields, h => by
      obtain ⟨hx, hfields⟩ := Bool.or_eq_false_iff.mp h
      rw [eraseFields, erase_eq_self x hx, eraseFields_eq_self fields hfields]

end

theorem erased_iff {v w : Value} : Erased v w ↔ w = v.erase := by
  refine ⟨Erased.erase, ?_⟩
  rintro rfl
  exact ⟨rfl, hasVariant_erase v, nodes_erase v, erase_eq_self v⟩

end Value

/-! ## What is unwrapped -/

open Value

theorem unwrapList_cons {x : Value} {xs ys : List Value} :
    unwrapList (x :: xs) = .ok ys ↔
      ∃ y ys', unwrapVariantDeep x = .ok y ∧ unwrapList xs = .ok ys' ∧ ys = y :: ys' := by
  rw [unwrapList]
  cases unwrapVariantDeep x with
  | error e => simp [bind, Except.bind]
  | ok y =>
      cases unwrapList xs with
      | error e => simp [bind, Except.bind]
      | ok ys' => simp [bind, Except.bind, pure, Except.pure, eq_comm]

theorem unwrapFields_cons {name : String} {x : Value} {fields fields' : List (String × Value)} :
    unwrapFields ((name, x) :: fields) = .ok fields' ↔
      ∃ y rest, unwrapVariantDeep x = .ok y ∧ unwrapFields fields = .ok rest ∧
        fields' = (name, y) :: rest := by
  rw [unwrapFields]
  cases unwrapVariantDeep x with
  | error e => simp [bind, Except.bind]
  | ok y =>
      cases unwrapFields fields with
      | error e => simp [bind, Except.bind]
      | ok rest => simp [bind, Except.bind, pure, Except.pure, eq_comm]

theorem unwrapVariantDeep_variant {signature : String} {value : Value} (h : value.isDBus = true) :
    unwrapVariantDeep (.variant signature value) = unwrapContents value := by
  rw [unwrapVariantDeep]
  rintro rfl
  cases h

mutual

/-- Nothing is added to a value.  What passes for a variant may be left out. -/
theorem nodes_deep : ∀ {v w : Value}, v.isDBus = true → unwrapVariantDeep v = .ok w →
    w.nodes.length ≤ v.nodes.length
  | .undefined, _, h, _ => by cases h
  | .null, _, h, _ => by cases h
  | .boolean _, _, _, hw => by cases hw; exact Nat.le_refl _
  | .number _, _, _, hw => by cases hw; exact Nat.le_refl _
  | .string _, _, _, hw => by cases hw; exact Nat.le_refl _
  | .buffer _, _, _, hw => by cases hw; exact Nat.le_refl _
  | .variant _ value, _, h, hw => by
      have hvalue : value.isDBus = true := h
      rw [unwrapVariantDeep_variant hvalue] at hw
      have hle := nodes_contents hvalue hw
      exact hle
  | .array xs, _, h, hw => by
      obtain ⟨ys, hys, rfl⟩ := map_eq_ok.mp hw
      exact Nat.succ_le_succ (nodes_list h hys)
  | .object fields, _, h, hw => by
      rw [unwrapVariantDeep] at hw
      split at hw
      · rename_i hlike
        exact Nat.le_succ_of_le (nodes_field h (Bool.and_eq_true_iff.mp hlike).1 hw)
      · obtain ⟨fields', hfields', rfl⟩ := map_eq_ok.mp hw
        exact Nat.succ_le_succ (nodes_fields h hfields')

theorem nodes_contents : ∀ {v w : Value}, v.isDBus = true → unwrapContents v = .ok w →
    w.nodes.length ≤ v.nodes.length
  | .undefined, _, h, _ => by cases h
  | .null, _, h, _ => by cases h
  | .boolean _, _, _, hw => by cases hw; exact Nat.le_refl _
  | .number _, _, _, hw => by cases hw; exact Nat.le_refl _
  | .string _, _, _, hw => by cases hw; exact Nat.le_refl _
  | .buffer _, _, _, hw => by cases hw; exact Nat.le_refl _
  | .variant _ _, _, _, hw => by cases hw; exact Nat.le_refl _
  | .array xs, _, h, hw => by
      obtain ⟨ys, hys, rfl⟩ := map_eq_ok.mp hw
      exact Nat.succ_le_succ (nodes_list h hys)
  | .object fields, _, h, hw => by
      obtain ⟨fields', hfields', rfl⟩ := map_eq_ok.mp hw
      exact Nat.succ_le_succ (nodes_fields h hfields')

theorem nodes_list : ∀ {xs ys : List Value}, areDBus xs = true → unwrapList xs = .ok ys →
    (nodesOfAll ys).length ≤ (nodesOfAll xs).length
  | [], _, _, hys => by cases hys; exact Nat.le_refl _
  | x :: xs, _, h, h' => by
      obtain ⟨hx, hxs⟩ := Bool.and_eq_true_iff.mp h
      obtain ⟨y, ys, hy, hys, rfl⟩ := unwrapList_cons.mp h'
      rw [nodesOfAll, nodesOfAll, List.length_append, List.length_append]
      exact Nat.add_le_add (nodes_deep hx hy) (nodes_list hxs hys)

theorem nodes_fields : ∀ {fields fields' : List (String × Value)}, haveDBus fields = true →
    unwrapFields fields = .ok fields' →
    (nodesOfFields fields').length ≤ (nodesOfFields fields).length
  | [], _, _, h' => by cases h'; exact Nat.le_refl _
  | (name, x) :: fields, _, h, h' => by
      obtain ⟨hx, hfields⟩ := Bool.and_eq_true_iff.mp h
      obtain ⟨y, rest, hy, hrest, rfl⟩ := unwrapFields_cons.mp h'
      rw [nodesOfFields, nodesOfFields, List.length_append, List.length_append]
      exact Nat.add_le_add (nodes_deep hx hy) (nodes_fields hfields hrest)

theorem nodes_field : ∀ {name : String} {fields : List (String × Value)} {w : Value},
    haveDBus fields = true → (field name fields).isDefined = true →
    unwrapField name fields = .ok w → w.nodes.length ≤ (nodesOfFields fields).length
  | name, [], _, _, hdefined, _ => by simp [field, isDefined] at hdefined
  | name, (name', x) :: fields, _, h, hdefined, hw => by
      obtain ⟨hx, hfields⟩ := Bool.and_eq_true_iff.mp h
      rw [unwrapField] at hw
      rw [nodesOfFields, List.length_append]
      by_cases hname : name = name'
      · rw [if_pos hname] at hw
        exact Nat.le_add_right_of_le (nodes_contents hx hw)
      · rw [if_neg hname] at hw
        rw [field, List.lookup_cons, beq_false_of_ne hname] at hdefined
        exact Nat.le_add_left_of_le (nodes_field hfields hdefined hw)

end

theorem map_array_eq {r : Except Exception (List Value)} {xs : List Value} :
    r.map Value.array = .ok (.array xs) ↔ r = .ok xs := by
  rw [map_eq_ok]
  simp

theorem map_object_eq {r : Except Exception (List (String × Value))}
    {fields : List (String × Value)} :
    r.map Value.object = .ok (.object fields) ↔ r = .ok fields := by
  rw [map_eq_ok]
  simp

/-- What passes for a variant loses its other entries. -/
theorem unwrapField_ne_erase {fields : List (String × Value)} (h : haveDBus fields = true)
    (hlike : isVariantLike fields = true) :
    unwrapField "value" fields ≠ .ok (erase (.object fields)) := by
  intro herase
  have hle := nodes_field h (Bool.and_eq_true_iff.mp hlike).1 herase
  rw [nodes_erase, nodes, List.length_cons] at hle
  omega

mutual

theorem unwrapVariantDeep_iff : ∀ {v : Value}, v.isDBus = true →
    (unwrapVariantDeep v = .ok v.erase ↔ v.isReadable = true)
  | .undefined, h => by cases h
  | .null, h => by cases h
  | .boolean _, _ => iff_of_true rfl rfl
  | .number _, _ => iff_of_true rfl rfl
  | .string _, _ => iff_of_true rfl rfl
  | .buffer _, _ => iff_of_true rfl rfl
  | .variant _ value, h => by
      have hvalue : value.isDBus = true := h
      rw [unwrapVariantDeep_variant hvalue]
      have hiff := unwrapContents_iff hvalue
      exact hiff
  | .array xs, h => map_array_eq.trans (unwrapList_iff h)
  | .object fields, h => by
      rw [unwrapVariantDeep, isReadable]
      cases hlike : isVariantLike fields with
      | true => exact iff_of_false (unwrapField_ne_erase h hlike) (by simp)
      | false => exact map_object_eq.trans (unwrapFields_iff h)

theorem unwrapContents_iff : ∀ {v : Value}, v.isDBus = true →
    (unwrapContents v = .ok v.erase ↔ v.isReadableContents = true)
  | .undefined, h => by cases h
  | .null, h => by cases h
  | .boolean _, _ => iff_of_true rfl rfl
  | .number _, _ => iff_of_true rfl rfl
  | .string _, _ => iff_of_true rfl rfl
  | .buffer _, _ => iff_of_true rfl rfl
  | .variant signature value, _ => by
      refine iff_of_false (fun herase => ?_) (by simp [isReadableContents])
      -- The variant is still there.
      have hnone := hasVariant_erase (.variant signature value)
      rw [← Except.ok.inj herase] at hnone
      cases hnone
  | .array xs, h => map_array_eq.trans (unwrapList_iff h)
  | .object fields, h => map_object_eq.trans (unwrapFields_iff h)

theorem unwrapList_iff : ∀ {xs : List Value}, areDBus xs = true →
    (unwrapList xs = .ok (eraseAll xs) ↔ areReadable xs = true)
  | [], _ => iff_of_true rfl rfl
  | x :: xs, h => by
      obtain ⟨hx, hxs⟩ := Bool.and_eq_true_iff.mp h
      rw [areReadable, Bool.and_eq_true, ← unwrapVariantDeep_iff hx, ← unwrapList_iff hxs,
        unwrapList_cons, eraseAll]
      constructor
      · rintro ⟨y, ys, hy, hys, hcons⟩
        cases hcons
        exact ⟨hy, hys⟩
      · rintro ⟨hy, hys⟩
        exact ⟨_, _, hy, hys, rfl⟩

theorem unwrapFields_iff : ∀ {fields : List (String × Value)}, haveDBus fields = true →
    (unwrapFields fields = .ok (eraseFields fields) ↔ haveReadable fields = true)
  | [], _ => iff_of_true rfl rfl
  | (name, x) :: fields, h => by
      obtain ⟨hx, hfields⟩ := Bool.and_eq_true_iff.mp h
      rw [haveReadable, Bool.and_eq_true, ← unwrapVariantDeep_iff hx, ← unwrapFields_iff hfields,
        unwrapFields_cons, eraseFields]
      constructor
      · rintro ⟨y, rest, hy, hrest, hcons⟩
        cases hcons
        exact ⟨hy, hrest⟩
      · rintro ⟨hy, hrest⟩
        exact ⟨_, _, hy, hrest, rfl⟩

end

/-- A value of D-Bus is erased if and only if no variant is directly in another one, and
no dictionary that is not directly in a variant looks like one. -/
theorem variants_erased {v : Value} (h : v.isDBus = true) :
    (∃ w, unwrapVariantDeep v = .ok w ∧ Erased v w) ↔ v.isReadable = true := by
  rw [← unwrapVariantDeep_iff h]
  simp only [erased_iff, exists_eq_right]

/-- The properties of a connection. -/
def connection : Value :=
  .object [("ssid", .variant "ay" (.buffer [0x72, 0x70, 0x69])),
    ("address-data", .variant "aa{sv}" (.array
      [.object [("address", .variant "s" (.string "10.0.0.2"))]]))]

theorem variants_erased_connection : ∃ w, unwrapVariantDeep connection = .ok w ∧
    Erased connection w :=
  (variants_erased (by decide)).mpr (by decide)

/-- A variant in a variant, and a dictionary of strings. -/
def nested : Value := .variant "v" (.variant "s" (.string "x"))

def labels : Value := .object [("value", .string "a"), ("signature", .string "b")]

theorem variants_left :
    (nested.isDBus = true ∧ ¬ ∃ w, unwrapVariantDeep nested = .ok w ∧ Erased nested w) ∧
      labels.isDBus = true ∧ labels.hasVariant = false ∧
        unwrapVariantDeep labels = .ok (.string "a") := by
  refine ⟨⟨rfl, ?_⟩, rfl, rfl, rfl⟩
  rintro ⟨w, hw, hE⟩
  cases hw
  cases hE.noVariant

end RpiNestApi
