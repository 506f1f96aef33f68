import Minerva.Library.Utf16
import Mathlib.Data.UInt
import Mathlib.Tactic.IntervalCases

/-! Base64 as a `Buffer` writes and reads it: written with padding in the standard alphabet; read
from the low bytes of the code units, in the standard and the URL alphabet, up to the first '='. -/

namespace Base64

def digit (n : Nat) : Char :=
  if n < 26 then Char.ofNat (65 + n)
  else if n < 52 then Char.ofNat (71 + n)
  else if n < 62 then Char.ofNat (n - 4)
  else if n = 62 then '+' else '/'

def value (byte : Nat) : Option Nat :=
  if 65 ≤ byte ∧ byte ≤ 90 then some (byte - 65)
  else if 97 ≤ byte ∧ byte ≤ 122 then some (byte - 71)
  else if 48 ≤ byte ∧ byte ≤ 57 then some (byte + 4)
  else if byte = '+'.toNat ∨ byte = '-'.toNat then some 62
  else if byte = '/'.toNat ∨ byte = '_'.toNat then some 63
  else none

def encode : List UInt8 → List Char
  | [] => []
  | [a] => [digit (a.toNat / 4), digit (a.toNat % 4 * 16), '=', '=']
  | [a, b] =>
    [digit (a.toNat / 4), digit (a.toNat % 4 * 16 + b.toNat / 16), digit (b.toNat % 16 * 4), '=']
  | a :: b :: c :: rest =>
    [digit (a.toNat / 4), digit (a.toNat % 4 * 16 + b.toNat / 16),
      digit (b.toNat % 16 * 4 + c.toNat / 64), digit (c.toNat % 64)] ++ encode rest

/-- Bytes from groups of four sextets; bits that do not fill a byte are dropped. -/
def assemble : List Nat → List UInt8
  | p :: q :: r :: s :: rest =>
    [UInt8.ofNat (p * 4 + q / 16), UInt8.ofNat (q % 16 * 16 + r / 4), UInt8.ofNat (r % 4 * 64 + s)] ++
      assemble rest
  | [p, q, r] => [UInt8.ofNat (p * 4 + q / 16), UInt8.ofNat (q % 16 * 16 + r / 4)]
  | [p, q] => [UInt8.ofNat (p * 4 + q / 16)]
  | _ => []

/-- The digits up to the first '='; what is no digit is skipped. -/
def sextets (units : List Nat) : List Nat :=
  ((units.map (· % 256)).takeWhile (· ≠ '='.toNat)).filterMap value

def decode (units : List Nat) : List UInt8 := assemble (sextets units)

theorem digit_spec (n : Nat) (small : n < 64) :
    (digit n).toNat < 256 ∧ (digit n).toNat ≠ '='.toNat ∧ value (digit n).toNat = some n := by
  interval_cases n <;> decide

theorem sextets_digit (n : Nat) (small : n < 64) (text : List Char) :
    sextets (Utf16.encode (digit n :: text)) = n :: sextets (Utf16.encode text) := by
  obtain ⟨byte, more, digits⟩ := digit_spec n small
  rw [Utf16.encode_cons, Utf16.units_of_lt (by omega), List.singleton_append]
  unfold sextets
  rw [List.map_cons, Nat.mod_eq_of_lt byte, List.takeWhile_cons_of_pos (by simpa using more),
    List.filterMap_cons, digits]

theorem sextets_padding (text : List Char) : sextets (Utf16.encode ('=' :: text)) = [] := rfl

theorem sextets_skip {unit : Nat} (units : List Nat) (more : unit % 256 ≠ '='.toNat)
    (skipped : value (unit % 256) = none) : sextets (unit :: units) = sextets units := by
  unfold sextets
  rw [List.map_cons, List.takeWhile_cons_of_pos (by simpa using more), List.filterMap_cons, skipped]

theorem length_encode (bytes : List UInt8) :
    (encode bytes).length = 4 * ((bytes.length + 2) / 3) := by
  induction bytes using encode.induct with
  | case1 => rfl
  | case2 a => simp [encode]
  | case3 a b => simp [encode]
  | case4 a b c rest ih =>
      rw [encode, List.length_append, ih]
      simp only [List.length_cons, List.length_nil]
      omega

theorem ofNat_eq (byte : UInt8) (n : Nat) (same : n = byte.toNat) : UInt8.ofNat n = byte := by
  rw [same, UInt8.ofNat_toNat]

theorem decode_encode (bytes : List UInt8) : decode (Utf16.encode (encode bytes)) = bytes := by
  induction bytes using encode.induct with
  | case1 => rfl
  | case2 a =>
      have below := a.toNat_lt
      rw [decode, encode, sextets_digit (a.toNat / 4) (by omega),
        sextets_digit (a.toNat % 4 * 16) (by omega), sextets_padding, assemble,
        ofNat_eq a _ (by omega)]
  | case3 a b =>
      have below := a.toNat_lt
      have small := b.toNat_lt
      rw [decode, encode, sextets_digit (a.toNat / 4) (by omega),
        sextets_digit (a.toNat % 4 * 16 + b.toNat / 16) (by omega),
        sextets_digit (b.toNat % 16 * 4) (by omega), sextets_padding, assemble,
        ofNat_eq a _ (by omega), ofNat_eq b _ (by omega)]
  | case4 a b c rest ih =>
      have below := a.toNat_lt
      have small := b.toNat_lt
      have little := c.toNat_lt
      rw [decode] at ih
      rw [decode, encode, List.cons_append, List.cons_append, List.cons_append, List.cons_append,
        List.nil_append, sextets_digit (a.toNat / 4) (by omega),
        sextets_digit (a.toNat % 4 * 16 + b.toNat / 16) (by omega),
        sextets_digit (b.toNat % 16 * 4 + c.toNat / 64) (by omega),
        sextets_digit (c.toNat % 64) (by omega), assemble, ih,
        ofNat_eq a _ (by omega), ofNat_eq b _ (by omega), ofNat_eq c _ (by omega)]
      rfl

theorem length_assemble_le (sextets : List Nat) :
    4 * (assemble sextets).length ≤ 3 * sextets.length := by
  induction sextets using assemble.induct with
  | case1 p q r s rest ih =>
      simp only [assemble, List.length_append, List.length_cons, List.length_nil]
      omega
  | case2 p q r => simp [assemble]
  | case3 p q => simp [assemble]
  | case4 sextets whole three two =>
      rw [assemble.eq_def]
      split
      · exact absurd rfl (whole _ _ _ _ _)
      · exact absurd rfl (three _ _ _)
      · exact absurd rfl (two _ _)
      · simp

theorem length_sextets_le (units : List Nat) : (sextets units).length ≤ units.length := by
  have kept := List.length_filterMap_le value ((units.map (· % 256)).takeWhile (· ≠ '='.toNat))
  have before := ((units.map (· % 256)).takeWhile_sublist (· ≠ '='.toNat)).length_le
  rw [List.length_map] at before
  exact kept.trans before

theorem length_decode_le (units : List Nat) : 4 * (decode units).length ≤ 3 * units.length := by
  have assembled := length_assemble_le (sextets units)
  have kept := length_sextets_le units
  unfold decode
  omega

end Base64
