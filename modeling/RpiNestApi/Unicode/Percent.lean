import RpiNestApi.Unicode.Utf8

/-
Texts with escaped bytes, as they stand in the path of a URL.

The bytes of the text, escaped or not, are read together.  What is not escaped is well formed
by itself, so that no escaped byte is taken for a part of it.
-/

namespace Percent

def hexValue (c : Char) : Option Nat :=
  if c.isDigit then some (c.toNat - '0'.toNat)
  else if 'a' ≤ c ∧ c ≤ 'f' then some (c.toNat - 'a'.toNat + 10)
  else if 'A' ≤ c ∧ c ≤ 'F' then some (c.toNat - 'A'.toNat + 10)
  else none

def bytes : List Char → Option (List UInt8)
  | [] => some []
  | c :: cs =>
    if c = '%' then
      match cs with
      | high :: low :: cs => do
        let high ← hexValue high
        let low ← hexValue low
        let bs ← bytes cs
        return .ofNat (16 * high + low) :: bs
      | _ => none
    else (bytes cs).map (String.utf8EncodeChar c ++ ·)

/-- Bytes that are ill formed are not what the characters they are decoded to are encoded as. -/
def decodeURIComponent (text : List Char) : Option (List Char) :=
  (bytes text).bind fun bs =>
    if Utf8.encode (Utf8.decode bs) = bs then some (Utf8.decode bs) else none

theorem bytes_of_notMem {text : List Char} (h : '%' ∉ text) :
    bytes text = some (Utf8.encode text) := by
  induction text with
  | nil => rfl
  | cons c cs ih =>
      have hc : c ≠ '%' := fun hc => h (hc ▸ List.mem_cons_self)
      unfold bytes
      rw [if_neg hc, ih fun hcs => h (List.mem_cons_of_mem _ hcs)]
      rfl

/-- A text without escapes is left alone. -/
theorem decodeURIComponent_of_notMem {text : List Char} (h : '%' ∉ text) :
    decodeURIComponent text = some text := by
  rw [decodeURIComponent, bytes_of_notMem h, Option.bind_some, Utf8.decode_encode, if_pos rfl]

example : decodeURIComponent "%C3%A9t%c3%a9".toList = some "été".toList := by decide +kernel

end Percent
