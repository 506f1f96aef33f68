import Mathlib.Data.List.Basic

namespace Percent

def hexDigit (n : Nat) : Char := Char.ofNat (if n < 10 then 48 + n else 55 + n)

def encodeByte (byte : UInt8) : List Char :=
  ['%', hexDigit (byte.toNat / 16), hexDigit (byte.toNat % 16)]

def encodeChar (unreserved : Char → Bool) (c : Char) : List Char :=
  if unreserved c then [c] else (String.utf8EncodeChar c).flatMap encodeByte

def encode (unreserved : Char → Bool) (text : List Char) : List Char :=
  text.flatMap (encodeChar unreserved)

def hexValue (c : Char) : Nat := if c.toNat < 65 then c.toNat - 48 else c.toNat - 55

def decode : List Char → List UInt8
  | '%' :: high :: low :: rest => UInt8.ofNat (hexValue high * 16 + hexValue low) :: decode rest
  | c :: rest => String.utf8EncodeChar c ++ decode rest
  | [] => []

theorem hexValue_hexDigit (n : Nat) (small : n < 16) : hexValue (hexDigit n) = n := by
  have all : ∀ i : Fin 16, hexValue (hexDigit i) = i := by decide
  exact all ⟨n, small⟩

theorem decode_encodeByte (byte : UInt8) (rest : List Char) :
    decode (encodeByte byte ++ rest) = byte :: decode rest := by
  have bound : byte.toNat < 256 := byte.toNat_lt
  have high := hexValue_hexDigit (byte.toNat / 16) (by omega)
  have low := hexValue_hexDigit (byte.toNat % 16) (by omega)
  have value : byte.toNat / 16 * 16 + byte.toNat % 16 = byte.toNat := by omega
  simp only [encodeByte, List.cons_append, List.nil_append, decode, high, low, value,
    UInt8.ofNat_toNat]

theorem decode_encodeBytes (bytes : List UInt8) (rest : List Char) :
    decode (bytes.flatMap encodeByte ++ rest) = bytes ++ decode rest := by
  induction bytes with
  | nil => rfl
  | cons byte bytes ih =>
      rw [List.flatMap_cons, List.append_assoc, decode_encodeByte, ih, List.cons_append]

theorem decode_cons (c : Char) (rest : List Char) (plain : c ≠ '%') :
    decode (c :: rest) = String.utf8EncodeChar c ++ decode rest := by
  rw [decode]
  intro high low tail escape
  exact absurd escape plain

variable {unreserved : Char → Bool}

theorem decode_encode (escape : unreserved '%' = false) (text : List Char) :
    decode (encode unreserved text) = text.flatMap String.utf8EncodeChar := by
  induction text with
  | nil => rfl
  | cons c text ih =>
      simp only [encode, List.flatMap_cons] at ih ⊢
      by_cases kept : unreserved c = true
      · have plain : c ≠ '%' := by
          rintro rfl
          simp [escape] at kept
        simp only [encodeChar, if_pos kept, List.cons_append, List.nil_append]
        rw [decode_cons c _ plain, ih]
      · simp only [encodeChar, if_neg kept]
        rw [decode_encodeBytes, ih]

theorem utf8_injective (left right : List Char)
    (same : left.flatMap String.utf8EncodeChar = right.flatMap String.utf8EncodeChar) :
    left = right := by
  have bytes : (String.ofList left).toByteArray = (String.ofList right).toByteArray := by
    simp only [String.toByteArray_ofList, List.utf8Encode, same]
  have strings := String.toByteArray_inj.mp bytes
  simpa using congrArg String.toList strings

theorem encode_injective (escape : unreserved '%' = false) (left right : List Char)
    (same : encode unreserved left = encode unreserved right) : left = right := by
  apply utf8_injective
  rw [← decode_encode escape, ← decode_encode escape, same]

theorem mem_encodeByte (byte : UInt8) (c : Char) (member : c ∈ encodeByte byte) :
    c = '%' ∨ ∃ n, n < 16 ∧ c = hexDigit n := by
  have bound : byte.toNat < 256 := byte.toNat_lt
  simp only [encodeByte, List.mem_cons, List.not_mem_nil, or_false] at member
  rcases member with rfl | rfl | rfl
  · exact .inl rfl
  · exact .inr ⟨_, by omega, rfl⟩
  · exact .inr ⟨_, by omega, rfl⟩

theorem not_mem_encode (separator : Char) (reserved : unreserved separator = false)
    (noEscape : separator ≠ '%') (noDigit : ∀ n, n < 16 → separator ≠ hexDigit n)
    (text : List Char) : separator ∉ encode unreserved text := by
  intro member
  obtain ⟨c, -, inside⟩ := List.mem_flatMap.mp member
  by_cases kept : unreserved c = true
  · simp only [encodeChar, if_pos kept, List.mem_singleton] at inside
    subst inside
    simp [reserved] at kept
  · simp only [encodeChar, if_neg kept] at inside
    obtain ⟨byte, -, written⟩ := List.mem_flatMap.mp inside
    rcases mem_encodeByte byte separator written with escape | ⟨n, small, digit⟩
    · exact noEscape escape
    · exact noDigit n small digit

end Percent
