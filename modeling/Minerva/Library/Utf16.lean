import Mathlib.Data.List.Basic

namespace Utf16

def units (c : Char) : List Nat :=
  if c.toNat < 0x10000 then [c.toNat]
  else [0xD800 + (c.toNat - 0x10000) / 0x400, 0xDC00 + (c.toNat - 0x10000) % 0x400]

def encode (text : List Char) : List Nat := text.flatMap units

theorem units_of_lt {c : Char} (basic : c.toNat < 0x10000) : units c = [c.toNat] := if_pos basic

theorem length_units (c : Char) :
    (units c).length = if c.toNat < 0x10000 then 1 else 2 := by
  unfold units
  split <;> rfl

theorem length_units_bounds (c : Char) : 1 ≤ (units c).length ∧ (units c).length ≤ 2 := by
  rw [length_units]
  split <;> omega

theorem encode_cons (c : Char) (text : List Char) :
    encode (c :: text) = units c ++ encode text := List.flatMap_cons

theorem length_le_encode (text : List Char) : text.length ≤ (encode text).length := by
  induction text with
  | nil => exact Nat.le_refl 0
  | cons c rest ih =>
      have size := length_units_bounds c
      rw [encode_cons, List.length_append, List.length_cons]
      omega

end Utf16
