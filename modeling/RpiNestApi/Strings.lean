/-
Texts of commands and how they are taken apart.

A text is a list of characters here.  `cut` finds a separator of several
characters, and `fields` are the parts of a text between characters of a kind,
without those that are empty.
-/
import Mathlib.Data.List.DropRight

namespace RpiNestApi

/-- White space and line terminators of JavaScript. -/
def isWhiteSpace (c : Char) : Bool :=
  (0x9 ≤ c.val && c.val ≤ 0xd) || (0x2000 ≤ c.val && c.val ≤ 0x200a) ||
    c.val ∈ [0x20, 0xa0, 0x1680, 0x2028, 0x2029, 0x202f, 0x205f, 0x3000, 0xfeff]

/-- `text.trim()`. -/
def trim (text : List Char) : List Char := (text.dropWhile isWhiteSpace).rdropWhile isWhiteSpace

/-- The text before and after the first `sep`, which is not empty. -/
def cut (sep : List Char) : List Char → Option (List Char × List Char)
  | [] => none
  | c :: cs =>
    if sep.isPrefixOf (c :: cs) then some ([], (c :: cs).drop sep.length)
    else (cut sep cs).map fun r => (c :: r.1, r.2)

/-- `text.split(sep)[1]`. -/
def secondPart (sep text : List Char) : Option (List Char) :=
  (cut sep text).map fun r => match cut sep r.2 with
    | some r' => r'.1
    | none => r.2

theorem cut_eq_some {sep text before after : List Char} (h : cut sep text = some (before, after)) :
    text = before ++ sep ++ after := by
  induction text generalizing before with
  | nil => cases h
  | cons c cs ih =>
      rw [cut] at h
      split at h
      · rename_i hstarts
        cases h
        obtain ⟨rest, hrest⟩ := List.isPrefixOf_iff_prefix.mp hstarts
        rw [← hrest, List.drop_left, List.nil_append]
      · obtain ⟨r, hr, he⟩ := Option.map_eq_some_iff.mp h
        cases he
        rw [ih hr]
        rfl

/-! ## Parts -/

/-- The parts between separators hold none. -/
theorem eq_false_of_mem_splitOnP {α : Type} {p : α → Bool} {xs part : List α}
    (h : part ∈ xs.splitOnP p) : ∀ x ∈ part, p x = false := by
  induction xs generalizing part with
  | nil =>
      rw [List.splitOnP_nil, List.mem_singleton] at h
      simp [h]
  | cons x xs ih =>
      rw [List.splitOnP_cons_eq_if_modifyHead] at h
      cases hx : p x with
      | true =>
          rw [hx, if_pos rfl, List.mem_cons] at h
          rcases h with rfl | h
          · simp
          · exact ih h
      | false =>
          rw [hx, if_neg Bool.false_ne_true] at h
          cases hparts : xs.splitOnP p with
          | nil => exact absurd hparts (List.splitOnP_ne_nil p xs)
          | cons first parts =>
              rw [hparts] at ih h
              rw [List.modifyHead_cons, List.mem_cons] at h
              rcases h with rfl | h
              · intro y hy
                rcases List.mem_cons.mp hy with rfl | hy
                · exact hx
                · exact ih List.mem_cons_self y hy
              · exact ih (List.mem_cons_of_mem _ h)

theorem not_mem_of_mem_splitOn {α : Type} [BEq α] [LawfulBEq α] {sep : α} {xs part : List α}
    (h : part ∈ xs.splitOn sep) : sep ∉ part := by
  intro hsep
  rw [List.splitOn_eq_splitOnP] at h
  have hne := eq_false_of_mem_splitOnP h sep hsep
  simp at hne

theorem not_mem_intercalate {α : Type} {x : α} {sep : List α} {parts : List (List α)}
    (hsep : x ∉ sep) (h : ∀ part ∈ parts, x ∉ part) : x ∉ sep.intercalate parts := by
  induction parts with
  | nil => exact List.not_mem_nil
  | cons part parts ih =>
      have hpart := h part List.mem_cons_self
      cases parts with
      | nil => rwa [List.intercalate_singleton]
      | cons part' parts =>
          rw [List.intercalate_cons_cons, List.append_assoc]
          have hrest := ih fun q hq => h q (List.mem_cons_of_mem part hq)
          simp only [List.mem_append, not_or]
          exact ⟨hpart, hsep, hrest⟩

/-- There is one more part than lines where each of them is ended. -/
theorem splitOn_lines {α : Type} [BEq α] [LawfulBEq α] {sep : α} {lines : List (List α)}
    (h : ∀ line ∈ lines, sep ∉ line) :
    (lines.flatMap fun line => line ++ [sep]).splitOn sep = lines ++ [[]] := by
  induction lines with
  | nil => rfl
  | cons line lines ih =>
      rw [List.flatMap_cons, List.append_assoc, List.singleton_append,
        List.splitOn_append_cons_self, List.splitOn_eq_singleton (h line List.mem_cons_self),
        ih fun line' hline' => h line' (List.mem_cons_of_mem line hline')]
      rfl

/-! ## Fields -/

section Fields

variable {α : Type} {p : α → Bool}

/-- The parts between elements that satisfy `p`, but for the empty ones. -/
def fields (p : α → Bool) (xs : List α) : List (List α) :=
  (xs.splitOnP p).filter fun part => !part.isEmpty

/-- `fields` of a list whose first part has begun with `acc`, reversed. -/
def fieldsFrom (p : α → Bool) (acc xs : List α) : List (List α) :=
  ((xs.splitOnP p).modifyHead (acc.reverse ++ ·)).filter fun part => !part.isEmpty

theorem fields_eq (xs : List α) : fields p xs = fieldsFrom p [] xs := by
  cases hparts : xs.splitOnP p <;> simp [fields, fieldsFrom, hparts]

/-- The part that has begun, unless it is empty. -/
def part (acc : List α) : List (List α) := if acc.isEmpty then [] else [acc.reverse]

theorem fieldsFrom_nil (acc : List α) : fieldsFrom p acc [] = part acc := by
  cases acc <;> simp [fieldsFrom, part]

theorem fieldsFrom_cons_pos {x : α} (h : p x = true) (acc xs : List α) :
    fieldsFrom p acc (x :: xs) = part acc ++ fieldsFrom p [] xs := by
  rw [← fields_eq, fieldsFrom, fields, List.splitOnP_cons_eq_if_modifyHead, if_pos h]
  cases acc <;> simp [part]

theorem fieldsFrom_cons_neg {x : α} (h : p x = false) (acc xs : List α) :
    fieldsFrom p acc (x :: xs) = fieldsFrom p (x :: acc) xs := by
  rw [fieldsFrom, fieldsFrom, List.splitOnP_cons_eq_if_modifyHead, if_neg (by simp [h]),
    List.modifyHead_modifyHead]
  congr 2
  funext part
  simp

theorem flatten_fieldsFrom (acc xs : List α) :
    (fieldsFrom p acc xs).flatten = acc.reverse ++ xs.filter fun x => !p x := by
  induction xs generalizing acc with
  | nil => cases acc <;> simp [fieldsFrom_nil, part]
  | cons x xs ih =>
      cases hx : p x with
      | true =>
          rw [fieldsFrom_cons_pos hx, List.flatten_append, ih]
          cases acc <;> simp [part, hx]
      | false =>
          rw [fieldsFrom_cons_neg hx, ih]
          simp [hx]

/-- All of the text is in the fields but what separates them. -/
theorem flatten_fields (xs : List α) : (fields p xs).flatten = xs.filter fun x => !p x := by
  rw [fields_eq, flatten_fieldsFrom, List.reverse_nil, List.nil_append]

theorem fields_cons_pos {x : α} (h : p x = true) (xs : List α) :
    fields p (x :: xs) = fields p xs := by
  rw [fields_eq, fieldsFrom_cons_pos h, fields_eq]
  rfl

/-- Separators around a list make no fields. -/
theorem fields_append_left {as : List α} (h : ∀ x ∈ as, p x = true) (xs : List α) :
    fields p (as ++ xs) = fields p xs := by
  induction as with
  | nil => rfl
  | cons a as ih =>
      rw [List.cons_append, fields_cons_pos (h a List.mem_cons_self)]
      exact ih fun x hx => h x (List.mem_cons_of_mem a hx)

theorem fields_append_cons {x : α} (h : p x = true) (as xs : List α) :
    fields p (as ++ x :: xs) = fields p as ++ fields p xs := by
  rw [fields, List.splitOnP_append_cons as xs h, List.filter_append, fields, fields]

theorem fields_append_right {as : List α} (h : ∀ x ∈ as, p x = true) (xs : List α) :
    fields p (xs ++ as) = fields p xs := by
  cases as with
  | nil => rw [List.append_nil]
  | cons a as =>
      have hnone : fields p (as ++ []) = fields p [] :=
        fields_append_left (fun x hx => h x (List.mem_cons_of_mem a hx)) []
      rw [List.append_nil] at hnone
      rw [fields_append_cons (h a List.mem_cons_self), hnone]
      exact List.append_nil _

theorem fields_singleton {xs : List α} (hne : xs ≠ []) (h : ∀ x ∈ xs, p x = false) :
    fields p xs = [xs] := by
  rw [fields, List.splitOnP_eq_singleton h]
  simp [hne]

/-- Parts that are not empty and hold no separator are read back. -/
theorem fields_intercalate {sep : α} (hsep : p sep = true) {parts : List (List α)}
    (h : ∀ part ∈ parts, part ≠ [] ∧ ∀ x ∈ part, p x = false) :
    fields p ([sep].intercalate parts) = parts := by
  induction parts with
  | nil => rfl
  | cons part parts ih =>
      obtain ⟨hne, hpart⟩ := h part List.mem_cons_self
      cases parts with
      | nil => rw [List.intercalate_singleton, fields_singleton hne hpart]
      | cons part' parts =>
          rw [List.intercalate_cons_cons, List.append_assoc, List.singleton_append,
            fields_append_cons hsep, fields_singleton hne hpart,
            ih fun q hq => h q (List.mem_cons_of_mem part hq), List.singleton_append]

theorem fields_eq_nil_iff {xs : List α} : fields p xs = [] ↔ ∀ x ∈ xs, p x = true := by
  constructor
  · intro h x hx
    have hflatten := flatten_fields (p := p) xs
    rw [h, List.flatten_nil, eq_comm, List.filter_eq_nil_iff] at hflatten
    simpa using hflatten x hx
  · intro h
    have hnone := fields_append_left h []
    rwa [List.append_nil] at hnone

end Fields

theorem fields_rdropWhile {α : Type} (p : α → Bool) (xs : List α) :
    fields p (xs.rdropWhile p) = fields p xs := by
  have htaken : ∀ x ∈ xs.rtakeWhile p, p x = true := fun x hx => List.mem_rtakeWhile_imp hx
  have hfields := fields_append_right htaken (xs.rdropWhile p)
  rw [← hfields, List.rdropWhile_append_rtakeWhile]

theorem fields_dropWhile {α : Type} (p : α → Bool) (xs : List α) :
    fields p (xs.dropWhile p) = fields p xs := by
  have htaken : ∀ x ∈ xs.takeWhile p, p x = true := fun x hx => List.mem_takeWhile_imp hx
  have hfields := fields_append_left htaken (xs.dropWhile p)
  rw [← hfields, List.takeWhile_append_dropWhile]

theorem fields_trim (text : List Char) :
    fields isWhiteSpace (trim text) = fields isWhiteSpace text := by
  rw [trim, fields_rdropWhile, fields_dropWhile]

end RpiNestApi
