/-
UTF-16, the text of strings of JavaScript.

A string is a list of code units, two of which may stand for one character.  A half
that stands alone has no encoding, and is replaced by U+FFFD where the string is
encoded.
-/
import Mathlib.Data.List.Basic
import Mathlib.Tactic.Common

namespace Utf16

/-- A string by its code units. -/
abbrev Text := List UInt16

def isLead (u : UInt16) : Bool := 0xd800 ≤ u.toNat && u.toNat < 0xdc00

def isTrail (u : UInt16) : Bool := 0xdc00 ≤ u.toNat && u.toNat < 0xe000

/-- Half of a character. -/
def isSurrogate (u : UInt16) : Bool := isLead u || isTrail u

/-- The character of a code unit that is in no pair. -/
def single (u : UInt16) : Char := if isSurrogate u then '\uFFFD' else Char.ofNat u.toNat

def pair (u v : UInt16) : Char :=
  Char.ofNat (0x10000 + (u.toNat - 0xd800) * 0x400 + (v.toNat - 0xdc00))

def toChars : Text → List Char
  | [] => []
  | [u] => [single u]
  | u :: v :: rest =>
    if isLead u && isTrail v then pair u v :: toChars rest else single u :: toChars (v :: rest)

def units (c : Char) : Text :=
  if c.toNat < 0x10000 then [.ofNat c.toNat]
  else
    [.ofNat (0xd800 + (c.toNat - 0x10000) / 0x400), .ofNat (0xdc00 + (c.toNat - 0x10000) % 0x400)]

def ofChars (cs : List Char) : Text := cs.flatMap units

/-- Both halves of every pair are there. -/
def isWellFormed : Text → Bool
  | [] => true
  | [u] => !isSurrogate u
  | u :: v :: rest =>
    if isLead u && isTrail v then isWellFormed rest else !isSurrogate u && isWellFormed (v :: rest)

def toWellFormed (text : Text) : Text := ofChars (toChars text)

section

variable {u v : UInt16} {n : Nat} {text : Text}

theorem toNat_ofNat_of_valid (h : n.isValidChar) : (Char.ofNat n).toNat = n := by
  rw [Char.ofNat, dif_pos h]
  rfl

theorem units_single (h : isSurrogate u = false) : units (single u) = [u] := by
  have hu := u.toNat_lt
  simp only [isSurrogate, isLead, isTrail, Bool.or_eq_false_iff, Bool.and_eq_false_iff,
    decide_eq_false_iff_not] at h
  have hvalid : u.toNat.isValidChar := by
    unfold Nat.isValidChar
    omega
  have hsingle : (single u).toNat = u.toNat := by
    rw [single, isSurrogate, isLead, isTrail, if_neg (by simp; omega), toNat_ofNat_of_valid hvalid]
  rw [units, hsingle, if_pos hu, UInt16.ofNat_toNat]

theorem units_pair (hu : isLead u = true) (hv : isTrail v = true) : units (pair u v) = [u, v] := by
  simp only [isLead, isTrail, Bool.and_eq_true, decide_eq_true_eq] at hu hv
  have hvalid : (0x10000 + (u.toNat - 0xd800) * 0x400 + (v.toNat - 0xdc00)).isValidChar := by
    unfold Nat.isValidChar
    omega
  have hcode : 0x10000 + (u.toNat - 0xd800) * 0x400 + (v.toNat - 0xdc00) - 0x10000 =
      (u.toNat - 0xd800) * 0x400 + (v.toNat - 0xdc00) := by omega
  have hlead : 0xd800 + ((u.toNat - 0xd800) * 0x400 + (v.toNat - 0xdc00)) / 0x400 = u.toNat := by
    omega
  have htrail : 0xdc00 + ((u.toNat - 0xd800) * 0x400 + (v.toNat - 0xdc00)) % 0x400 = v.toNat := by
    omega
  rw [units, pair, toNat_ofNat_of_valid hvalid, if_neg (by omega), hcode, hlead, htrail,
    UInt16.ofNat_toNat, UInt16.ofNat_toNat]

theorem units_replaced (h : isSurrogate u = true) : units (single u) = [0xfffd] := by
  rw [single, if_pos h]
  rfl

theorem toWellFormed_pair (hu : isLead u = true) (hv : isTrail v = true) :
    toWellFormed (u :: v :: text) = u :: v :: toWellFormed text := by
  rw [toWellFormed, toChars, hu, hv, Bool.and_self, if_pos rfl, ofChars, List.flatMap_cons,
    units_pair hu hv]
  rfl

/-- A code unit that is in no pair with the next one. -/
theorem toWellFormed_single (h : ∀ v rest, text = v :: rest → (isLead u && isTrail v) = false) :
    toWellFormed (u :: text) = units (single u) ++ toWellFormed text := by
  cases text with
  | nil => rfl
  | cons v rest =>
      rw [toWellFormed, toChars, h v rest rfl, if_neg Bool.false_ne_true]
      rfl

theorem toWellFormed_singleton (u : UInt16) : toWellFormed [u] = units (single u) := by
  simp [toWellFormed, toChars, ofChars]

theorem not_pair_of_not_surrogate (h : isSurrogate u = false) (v : UInt16) :
    (isLead u && isTrail v) = false ∧ (isLead v && isTrail u) = false := by
  obtain ⟨hlead, htrail⟩ := Bool.or_eq_false_iff.mp h
  simp [hlead, htrail]

/-- A code unit that is no surrogate stays as it is. -/
theorem toWellFormed_cons (h : isSurrogate u = false) :
    toWellFormed (u :: text) = u :: toWellFormed text := by
  rw [toWellFormed_single fun v rest _ => (not_pair_of_not_surrogate h v).1, units_single h]
  rfl

theorem toWellFormed_append (h : isSurrogate u = false) (text rest : Text) :
    toWellFormed (text ++ u :: rest) = toWellFormed text ++ u :: toWellFormed rest := by
  induction text using toChars.induct with
  | case1 => exact toWellFormed_cons h
  | case2 v =>
      rw [List.singleton_append, toWellFormed_single, toWellFormed_cons h, toWellFormed_singleton]
      rintro _ _ hcons
      cases hcons
      exact (not_pair_of_not_surrogate h v).2
  | case3 v v' text hpair ih =>
      obtain ⟨hv, hv'⟩ := Bool.and_eq_true_iff.mp hpair
      simp only [List.cons_append, toWellFormed_pair hv hv', ih]
  | case4 v v' text hpair ih =>
      have hnot : (isLead v && isTrail v') = false := by simpa using hpair
      have hsplit : ∀ text, toWellFormed (v :: v' :: text) =
          units (single v) ++ toWellFormed (v' :: text) := by
        refine fun text => toWellFormed_single ?_
        rintro _ _ hcons
        cases hcons
        exact hnot
      simp only [List.cons_append] at ih ⊢
      rw [hsplit, hsplit, ih, List.append_assoc]

theorem toWellFormed_append_of_forall {text : Text} (h : ∀ u ∈ text, isSurrogate u = false)
    (rest : Text) : toWellFormed (text ++ rest) = text ++ toWellFormed rest := by
  induction text with
  | nil => rfl
  | cons u text ih =>
      rw [List.forall_mem_cons] at h
      rw [List.cons_append, toWellFormed_cons h.1, ih h.2]
      rfl

/-- Every character is read back. -/
theorem toChars_units (c : Char) (rest : Text) : toChars (units c ++ rest) = c :: toChars rest := by
  have hvalid : c.toNat < 0xd800 ∨ 0xdfff < c.toNat ∧ c.toNat < 0x110000 := c.valid
  by_cases hsmall : c.toNat < 0x10000
  · have hnat : (UInt16.ofNat c.toNat).toNat = c.toNat := UInt16.toNat_ofNat_of_lt' hsmall
    have hsurrogate : isSurrogate (.ofNat c.toNat) = false := by
      simp only [isSurrogate, isLead, isTrail, hnat, Bool.or_eq_false_iff, Bool.and_eq_false_iff,
        decide_eq_false_iff_not]
      omega
    have hsingle : single (.ofNat c.toNat) = c := by
      rw [single, hsurrogate, if_neg Bool.false_ne_true, hnat, Char.ofNat_toNat]
    rw [units, if_pos hsmall, List.singleton_append]
    cases rest with
    | nil => rw [toChars, toChars, hsingle]
    | cons v rest =>
        rw [toChars, (not_pair_of_not_surrogate hsurrogate v).1, if_neg Bool.false_ne_true, hsingle]
  · have hlead : (UInt16.ofNat (0xd800 + (c.toNat - 0x10000) / 0x400)).toNat =
        0xd800 + (c.toNat - 0x10000) / 0x400 :=
      UInt16.toNat_ofNat_of_lt' (by rw [UInt16.size]; omega)
    have htrail : (UInt16.ofNat (0xdc00 + (c.toNat - 0x10000) % 0x400)).toNat =
        0xdc00 + (c.toNat - 0x10000) % 0x400 :=
      UInt16.toNat_ofNat_of_lt' (by rw [UInt16.size]; omega)
    have hpair : (isLead (.ofNat (0xd800 + (c.toNat - 0x10000) / 0x400)) &&
        isTrail (.ofNat (0xdc00 + (c.toNat - 0x10000) % 0x400))) = true := by
      simp only [isLead, isTrail, hlead, htrail, Bool.and_eq_true, decide_eq_true_eq]
      omega
    have hcode : 0x10000 + (0xd800 + (c.toNat - 0x10000) / 0x400 - 0xd800) * 0x400 +
        (0xdc00 + (c.toNat - 0x10000) % 0x400 - 0xdc00) = c.toNat := by omega
    rw [units, if_neg hsmall, List.cons_append, List.singleton_append, toChars, if_pos hpair, pair,
      hlead, htrail, hcode, Char.ofNat_toNat]

theorem toChars_ofChars (cs : List Char) : toChars (ofChars cs) = cs := by
  induction cs with
  | nil => rfl
  | cons c cs ih => rw [ofChars, List.flatMap_cons, toChars_units, ← ofChars, ih]

theorem length_units_single (u : UInt16) : (units (single u)).length = 1 := by
  cases h : isSurrogate u with
  | false => rw [units_single h]; rfl
  | true => rw [units_replaced h]; rfl

/-- A half that is replaced is replaced by one code unit. -/
theorem length_toWellFormed (text : Text) : (toWellFormed text).length = text.length := by
  induction text using toChars.induct with
  | case1 => rfl
  | case2 u => rw [toWellFormed_singleton, length_units_single, List.length_singleton]
  | case3 u v text hpair ih =>
      obtain ⟨hu, hv⟩ := Bool.and_eq_true_iff.mp hpair
      rw [toWellFormed_pair hu hv, List.length_cons, List.length_cons, ih]
      rfl
  | case4 u v text hpair ih =>
      rw [toWellFormed_single, List.length_append, length_units_single, ih]
      · exact Nat.add_comm ..
      · rintro _ _ hcons
        cases hcons
        simpa using hpair

theorem units_single_eq_iff : units (single u) = [u] ↔ isSurrogate u = false := by
  refine ⟨fun h => ?_, units_single⟩
  by_contra hu
  rw [units_replaced (by simpa using hu)] at h
  cases h
  exact hu rfl

/-- The strings that are encoded as they are. -/
theorem toWellFormed_eq_iff : toWellFormed text = text ↔ isWellFormed text = true := by
  induction text using toChars.induct with
  | case1 => exact ⟨fun _ => rfl, fun _ => rfl⟩
  | case2 u =>
      rw [toWellFormed_singleton, units_single_eq_iff, isWellFormed, Bool.not_eq_true']
  | case3 u v text hpair ih =>
      obtain ⟨hu, hv⟩ := Bool.and_eq_true_iff.mp hpair
      rw [toWellFormed_pair hu hv, isWellFormed, hpair, if_pos rfl, ← ih]
      simp
  | case4 u v text hpair ih =>
      have hnot : (isLead u && isTrail v) = false := by simpa using hpair
      have hsplit : toWellFormed (u :: v :: text) =
          units (single u) ++ toWellFormed (v :: text) := by
        refine toWellFormed_single ?_
        rintro _ _ hcons
        cases hcons
        exact hnot
      rw [hsplit, isWellFormed, hnot, if_neg Bool.false_ne_true, Bool.and_eq_true,
        Bool.not_eq_true', ← ih, ← units_single_eq_iff]
      refine ⟨fun h => ?_, ?_⟩
      · have hparts : units (single u) ++ toWellFormed (v :: text) = [u] ++ v :: text := h
        exact List.append_inj hparts (length_units_single u)
      · rintro ⟨hu, hrest⟩
        rw [hu, hrest]
        rfl

end

end Utf16
