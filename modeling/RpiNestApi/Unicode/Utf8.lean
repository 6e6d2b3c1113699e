/-
UTF-8, with a decoder that replaces what is ill-formed.

The decoder reads one byte after another.  Where a byte does not go on with the
character that was begun, what was read of it is replaced by U+FFFD, and the byte
is taken as the first one of another character.  A text that is decoded in parts
has the same meaning only if no part ends inside a character.
-/
import Mathlib.Data.List.Flatten
import Mathlib.Data.List.Induction
import Mathlib.Tactic.Common

namespace Utf8

def replacement : Char := '\uFFFD'

/-- `within`: `more` bytes are missing of a character, the next one is between
`lower` and `upper`, and `code` are the bits that were read. -/
inductive State where
  | start
  | within (more lower upper code : Nat)
  deriving DecidableEq, Repr

/-- The first byte of a character. -/
def first (n : Nat) : List Char × State :=
  if n < 0x80 then ([Char.ofNat n], .start)
  else if n < 0xc2 then ([replacement], .start)
  else if n < 0xe0 then ([], .within 1 0x80 0xbf (n - 0xc0))
  else if n < 0xf0 then
    ([], .within 2 (if n = 0xe0 then 0xa0 else 0x80) (if n = 0xed then 0x9f else 0xbf) (n - 0xe0))
  else if n < 0xf5 then
    ([], .within 3 (if n = 0xf0 then 0x90 else 0x80) (if n = 0xf4 then 0x8f else 0xbf) (n - 0xf0))
  else ([replacement], .start)

/-- A byte that goes on with the character that was begun. -/
def State.Continues : State → UInt8 → Prop
  | .start, _ => False
  | .within _ lower upper _, b => lower ≤ b.toNat ∧ b.toNat ≤ upper

instance (σ : State) (b : UInt8) : Decidable (σ.Continues b) := by
  cases σ <;> unfold State.Continues <;> infer_instance

/-- The characters that a byte completes, and the state it leads to. -/
def step : State → UInt8 → List Char × State
  | .start, b => first b.toNat
  | .within more lower upper code, b =>
    if lower ≤ b.toNat ∧ b.toNat ≤ upper then
      if more = 1 then ([Char.ofNat (64 * code + (b.toNat - 0x80))], .start)
      else ([], .within (more - 1) 0x80 0xbf (64 * code + (b.toNat - 0x80)))
    else (replacement :: (first b.toNat).1, (first b.toNat).2)

/-- What the end of the text leaves of a character. -/
def flush : State → List Char
  | .start => []
  | .within .. => [replacement]

def decodeFrom (σ : State) : List UInt8 → List Char
  | [] => flush σ
  | b :: bs => (step σ b).1 ++ decodeFrom (step σ b).2 bs

def decode (bs : List UInt8) : List Char := decodeFrom .start bs

def encode (cs : List Char) : List UInt8 := cs.flatMap String.utf8EncodeChar

/-- The state after the bytes, from the start. -/
def stateAfter (bs : List UInt8) : State := bs.foldl (fun σ b => (step σ b).2) .start

/-- The first of `ys` goes on with a character that `xs` has begun. -/
def Breaks (xs ys : List UInt8) : Prop := ∃ b bs, ys = b :: bs ∧ (stateAfter xs).Continues b

/-- None of the parts but the last one ends inside a character that goes on. -/
def CleanCuts (parts : List (List UInt8)) : Prop :=
  ∀ before after, parts = before ++ after → ¬ Breaks before.flatten after.flatten

/-! ## Parts of a text -/

section Parts

variable {σ : State} {b : UInt8} {bs xs ys part : List UInt8} {parts : List (List UInt8)}
variable {more lower upper code : Nat}

theorem step_of_continues (h : (State.within more lower upper code).Continues b) :
    step (.within more lower upper code) b =
      if more = 1 then ([Char.ofNat (64 * code + (b.toNat - 0x80))], .start)
      else ([], .within (more - 1) 0x80 0xbf (64 * code + (b.toNat - 0x80))) :=
  if_pos h

theorem step_of_not_continues (h : ¬ (State.within more lower upper code).Continues b) :
    step (.within more lower upper code) b =
      (replacement :: (first b.toNat).1, (first b.toNat).2) :=
  if_neg h

/-- What the bytes leave undone is done from the state they lead to. -/
theorem exists_decode_append (xs : List UInt8) :
    ∃ cs, ∀ ys, decode (xs ++ ys) = cs ++ decodeFrom (stateAfter xs) ys := by
  induction xs using List.reverseRecOn with
  | nil => exact ⟨[], fun ys => rfl⟩
  | append_singleton xs b ih =>
      obtain ⟨cs, hcs⟩ := ih
      have hstate : stateAfter (xs ++ [b]) = (step (stateAfter xs) b).2 := by
        rw [stateAfter, List.foldl_append]
        rfl
      refine ⟨cs ++ (step (stateAfter xs) b).1, fun ys => ?_⟩
      rw [List.append_assoc, hcs, hstate, List.append_assoc]
      rfl

/-- The bounds of a state that the decoder comes to. -/
def State.Reached : State → Prop
  | .start => True
  | .within _ lower upper _ => 0x80 ≤ lower ∧ upper ≤ 0xbf

theorem reached_first (n : Nat) : (first n).2.Reached := by
  unfold first
  split_ifs <;> simp [State.Reached]

theorem reached_step (σ : State) (b : UInt8) : (step σ b).2.Reached := by
  cases σ with
  | start => exact reached_first b.toNat
  | within more lower upper code =>
      by_cases h : (State.within more lower upper code).Continues b
      · rw [step_of_continues h]
        split_ifs
        · trivial
        · exact ⟨Nat.le_refl _, Nat.le_refl _⟩
      · rw [step_of_not_continues h]
        exact reached_first b.toNat

theorem reached_stateAfter (bs : List UInt8) : (stateAfter bs).Reached := by
  induction bs using List.reverseRecOn with
  | nil => trivial
  | append_singleton bs b _ =>
      rw [stateAfter, List.foldl_append]
      exact reached_step _ b

theorem decodeFrom_cons_of_not (h : ¬ σ.Continues b) :
    decodeFrom σ (b :: bs) = flush σ ++ decode (b :: bs) := by
  cases σ with
  | start => rfl
  | within more lower upper code =>
      rw [decodeFrom, step_of_not_continues h]
      rfl

/-- A byte that goes on with a character is no first one. -/
theorem decode_cons_of_continues (hσ : σ.Reached) (h : σ.Continues b) :
    decode (b :: bs) = replacement :: decode bs := by
  cases σ with
  | start => exact h.elim
  | within more lower upper code =>
      have hlower : ¬ b.toNat < 0x80 := by have := hσ.1; have := h.1; omega
      have hupper : b.toNat < 0xc2 := by have := hσ.2; have := h.2; omega
      rw [decode, decodeFrom, step, first, if_neg hlower, if_pos hupper]
      rfl

/-- A byte that goes on with a character either completes it or leaves it undone. -/
theorem length_step_of_continues (h : σ.Continues b) :
    (step σ b).1.length + (flush (step σ b).2).length = (flush σ).length := by
  cases σ with
  | start => exact h.elim
  | within more lower upper code =>
      rw [step_of_continues h]
      split_ifs <;> rfl

/-- Nothing is gained by going on with a character. -/
theorem length_decodeFrom_le (hσ : σ.Reached) (bs : List UInt8) :
    (decodeFrom σ bs).length ≤ (flush σ).length + (decode bs).length := by
  induction bs generalizing σ with
  | nil => exact Nat.le_add_right _ _
  | cons b bs ih =>
      by_cases h : σ.Continues b
      · have hstep := length_step_of_continues h
        have hnext := ih (reached_step σ b)
        rw [decode_cons_of_continues hσ h, decodeFrom, List.length_append, List.length_cons]
        omega
      · exact Nat.le_of_eq (by rw [decodeFrom_cons_of_not h, List.length_append])

theorem length_decodeFrom_lt (hσ : σ.Reached) (h : σ.Continues b) :
    (decodeFrom σ (b :: bs)).length < (flush σ).length + (decode (b :: bs)).length := by
  have hstep := length_step_of_continues h
  have hnext := length_decodeFrom_le (reached_step σ b) bs
  rw [decode_cons_of_continues hσ h, decodeFrom, List.length_append, List.length_cons]
  omega

theorem decode_append (h : ¬ Breaks xs ys) : decode (xs ++ ys) = decode xs ++ decode ys := by
  obtain ⟨cs, hcs⟩ := exists_decode_append xs
  have hxs := hcs []
  rw [List.append_nil] at hxs
  rw [hcs, hxs, List.append_assoc]
  refine congrArg (cs ++ ·) ?_
  cases ys with
  | nil => exact (List.append_nil _).symm
  | cons b bs => exact decodeFrom_cons_of_not fun hb => h ⟨b, bs, rfl, hb⟩

theorem length_decode_append_lt (h : Breaks xs ys) :
    (decode (xs ++ ys)).length < (decode xs).length + (decode ys).length := by
  obtain ⟨b, bs, rfl, hb⟩ := h
  obtain ⟨cs, hcs⟩ := exists_decode_append xs
  have hxs := hcs []
  rw [List.append_nil] at hxs
  have hlt : (decodeFrom (stateAfter xs) (b :: bs)).length < _ :=
    length_decodeFrom_lt (reached_stateAfter xs) hb
  rw [hcs, hxs, List.length_append, List.length_append]
  show _ < _ + (flush (stateAfter xs)).length + _
  omega

/-- What a cut breaks it also breaks where more follows. -/
theorem Breaks.append_right (h : Breaks xs ys) (zs : List UInt8) : Breaks xs (ys ++ zs) := by
  obtain ⟨b, bs, rfl, hb⟩ := h
  exact ⟨b, bs ++ zs, rfl, hb⟩

theorem cleanCuts_concat :
    CleanCuts (parts ++ [part]) ↔ CleanCuts parts ∧ ¬ Breaks parts.flatten part := by
  constructor
  · refine fun h => ⟨fun before after hparts hbreaks => ?_, fun hbreaks => ?_⟩
    · refine h before (after ++ [part]) (by rw [hparts, List.append_assoc]) ?_
      rw [List.flatten_append]
      exact hbreaks.append_right _
    · refine h parts [part] rfl ?_
      rwa [List.flatten_singleton]
  · rintro ⟨hparts, hpart⟩ before after hsplit ⟨b, bs, hafter, hb⟩
    rcases List.eq_nil_or_concat after with rfl | ⟨after, last, rfl⟩
    · cases hafter
    · rw [List.concat_eq_append] at hafter hsplit
      rw [← List.append_assoc] at hsplit
      obtain ⟨rfl, hlast⟩ := List.append_inj' hsplit rfl
      cases hlast
      rw [List.flatten_append, List.flatten_singleton] at hafter
      cases hflat : after.flatten with
      | nil =>
          refine hpart ⟨b, bs, by simpa [hflat] using hafter, ?_⟩
          rwa [List.flatten_append, hflat, List.append_nil]
      | cons b' bs' =>
          rw [hflat] at hafter
          cases hafter
          exact hparts before after rfl ⟨b, bs', hflat, hb⟩

/-- The parts have the meaning of the whole. -/
theorem decode_flatten (h : CleanCuts parts) :
    decode parts.flatten = (parts.map decode).flatten := by
  induction parts using List.reverseRecOn with
  | nil => rfl
  | append_singleton parts part ih =>
      obtain ⟨hparts, hpart⟩ := cleanCuts_concat.mp h
      simp only [List.flatten_append, List.map_append, List.map_singleton, List.flatten_singleton]
      rw [decode_append hpart, ih hparts]

theorem length_decode_flatten_lt (h : ¬ CleanCuts parts) :
    (decode parts.flatten).length < (parts.map decode).flatten.length := by
  induction parts using List.reverseRecOn with
  | nil =>
      refine absurd (fun before after hnil hbreaks => ?_) h
      obtain ⟨_, rfl⟩ := List.append_eq_nil_iff.mp hnil.symm
      obtain ⟨b, bs, hcons, _⟩ := hbreaks
      cases hcons
  | append_singleton parts part ih =>
      rw [cleanCuts_concat, not_and_or, not_not] at h
      simp only [List.flatten_append, List.map_append, List.map_singleton, List.flatten_singleton,
        List.length_append]
      by_cases hparts : CleanCuts parts
      · have hlt := length_decode_append_lt (h.resolve_left (not_not.mpr hparts))
        rw [← decode_flatten hparts]
        exact hlt
      · have hlt := ih hparts
        by_cases hpart : Breaks parts.flatten part
        · have := length_decode_append_lt hpart
          omega
        · rw [decode_append hpart, List.length_append]
          omega

/-- A text may be decoded in parts if and only if no part but the last ends inside a
character that goes on. -/
theorem decode_flatten_iff :
    decode parts.flatten = (parts.map decode).flatten ↔ CleanCuts parts := by
  refine ⟨fun h => ?_, decode_flatten⟩
  by_contra hcuts
  exact absurd (congrArg List.length h) (Nat.ne_of_lt (length_decode_flatten_lt hcuts))

end Parts

/-! ## What was encoded -/

section Encode

variable {n code lower upper more : Nat} {bs : List UInt8}

theorem decode_ofNat_cons (hn : n < 256) :
    decode (.ofNat n :: bs) = (first n).1 ++ decodeFrom (first n).2 bs := by
  rw [decode, decodeFrom, step, UInt8.toNat_ofNat_of_lt' hn]

theorem continues_ofNat (h : lower ≤ n % 64 + 128 ∧ n % 64 + 128 ≤ upper) :
    (State.within more lower upper code).Continues (.ofNat (n % 64 + 128)) := by
  rw [State.Continues, UInt8.toNat_ofNat_of_lt' (show n % 64 + 128 < 256 by omega)]
  exact h

/-- A byte that is neither the first nor the last one of a character. -/
theorem decodeFrom_middle (h : lower ≤ n % 64 + 128 ∧ n % 64 + 128 ≤ upper) (hmore : more ≠ 1) :
    decodeFrom (.within more lower upper code) (.ofNat (n % 64 + 128) :: bs) =
      decodeFrom (.within (more - 1) 0x80 0xbf (64 * code + n % 64)) bs := by
  rw [decodeFrom, step_of_continues (continues_ofNat h), if_neg hmore,
    UInt8.toNat_ofNat_of_lt' (show n % 64 + 128 < 256 by omega), Nat.add_sub_cancel]
  rfl

theorem decodeFrom_last (h : lower ≤ n % 64 + 128 ∧ n % 64 + 128 ≤ upper) :
    decodeFrom (.within 1 lower upper code) (.ofNat (n % 64 + 128) :: bs) =
      Char.ofNat (64 * code + n % 64) :: decode bs := by
  rw [decodeFrom, step_of_continues (continues_ofNat h), if_pos rfl,
    UInt8.toNat_ofNat_of_lt' (show n % 64 + 128 < 256 by omega), Nat.add_sub_cancel]
  rfl

theorem decode_one_byte (h : n ≤ 0x7f) : decode (.ofNat n :: bs) = Char.ofNat n :: decode bs := by
  have hfirst : first n = ([Char.ofNat n], .start) := if_pos (by omega)
  rw [decode_ofNat_cons (by omega), hfirst]
  rfl

theorem decode_two_bytes (h : 0x7f < n) (h' : n ≤ 0x7ff) :
    decode (.ofNat (n / 64 % 32 + 192) :: .ofNat (n % 64 + 128) :: bs) =
      Char.ofNat n :: decode bs := by
  have hfirst : first (n / 64 % 32 + 192) = ([], .within 1 0x80 0xbf (n / 64)) := by
    have hcode : n / 64 % 32 + 192 - 0xc0 = n / 64 := by omega
    rw [first, if_neg (by omega), if_neg (by omega), if_pos (by omega), hcode]
  rw [decode_ofNat_cons (by omega), hfirst, List.nil_append, decodeFrom_last (by omega)]
  congr 2
  omega

/-- A surrogate is no code point of a character. -/
theorem decode_three_bytes (h : 0x7ff < n) (h' : n ≤ 0xffff) (hn : n < 0xd800 ∨ 0xdfff < n) :
    decode (.ofNat (n / 4096 % 16 + 224) :: .ofNat (n / 64 % 64 + 128) ::
      .ofNat (n % 64 + 128) :: bs) = Char.ofNat n :: decode bs := by
  have hfirst : first (n / 4096 % 16 + 224) =
      ([], .within 2 (if n / 4096 % 16 + 224 = 0xe0 then 0xa0 else 0x80)
        (if n / 4096 % 16 + 224 = 0xed then 0x9f else 0xbf) (n / 4096)) := by
    have hcode : n / 4096 % 16 + 224 - 0xe0 = n / 4096 := by omega
    rw [first, if_neg (by omega), if_neg (by omega), if_neg (by omega), if_pos (by omega), hcode]
  rw [decode_ofNat_cons (by omega), hfirst, List.nil_append,
    decodeFrom_middle (by split_ifs <;> omega) (by decide), decodeFrom_last (by omega)]
  congr 2
  omega

theorem decode_four_bytes (h : 0xffff < n) (h' : n < 0x110000) :
    decode (.ofNat (n / 262144 % 8 + 240) :: .ofNat (n / 4096 % 64 + 128) ::
      .ofNat (n / 64 % 64 + 128) :: .ofNat (n % 64 + 128) :: bs) =
      Char.ofNat n :: decode bs := by
  have hfirst : first (n / 262144 % 8 + 240) =
      ([], .within 3 (if n / 262144 % 8 + 240 = 0xf0 then 0x90 else 0x80)
        (if n / 262144 % 8 + 240 = 0xf4 then 0x8f else 0xbf) (n / 262144)) := by
    have hcode : n / 262144 % 8 + 240 - 0xf0 = n / 262144 := by omega
    rw [first, if_neg (by omega), if_neg (by omega), if_neg (by omega), if_neg (by omega),
      if_pos (by omega), hcode]
  rw [decode_ofNat_cons (by omega), hfirst, List.nil_append,
    decodeFrom_middle (by split_ifs <;> omega) (by decide),
    decodeFrom_middle (by omega) (by decide), decodeFrom_last (by omega)]
  congr 2
  omega

theorem decode_utf8EncodeChar_append (c : Char) (bs : List UInt8) :
    decode (String.utf8EncodeChar c ++ bs) = c :: decode bs := by
  have hvalid : c.toNat < 0xd800 ∨ 0xdfff < c.toNat ∧ c.toNat < 0x110000 := c.valid
  have hbytes : decode (String.utf8EncodeChar c ++ bs) = Char.ofNat c.toNat :: decode bs := by
    simp only [String.utf8EncodeChar]
    split_ifs with h₁ h₂ h₃
    · exact decode_one_byte h₁
    · exact decode_two_bytes (Nat.lt_of_not_le h₁) h₂
    · exact decode_three_bytes (Nat.lt_of_not_le h₂) h₃ (hvalid.imp id And.left)
    · have hupper : c.toNat < 0x110000 := by omega
      exact decode_four_bytes (Nat.lt_of_not_le h₃) hupper
  rw [hbytes, Char.ofNat_toNat]

theorem decode_encode (cs : List Char) : decode (encode cs) = cs := by
  induction cs with
  | nil => rfl
  | cons c cs ih =>
      rw [encode, List.flatMap_cons, decode_utf8EncodeChar_append]
      exact congrArg (c :: ·) ih

end Encode

end Utf8
