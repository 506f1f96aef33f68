import Minerva.Library.Utf16
import Mathlib.Data.UInt
import Mathlib.Tactic.SplitIfs

/-! UTF-8 text, read as the WHATWG decoder reads it: what is ill-formed becomes U+FFFD. -/

namespace Utf8

def encode (text : List Char) : List UInt8 := text.flatMap String.utf8EncodeChar

def replacement : Char := '\uFFFD'

/-- A sequence that has begun: its code point so far, the bytes that are missing, and the range of
the next one. -/
structure Begun where
  code : Nat
  missing : Nat
  lower : Nat
  upper : Nat

inductive Lead where
  | char (c : Char)
  | begins (sequence : Begun)

def lead (byte : Nat) : Lead :=
  if byte < 0x80 then .char (Char.ofNat byte)
  else if 0xC2 ≤ byte ∧ byte ≤ 0xDF then .begins ⟨byte - 0xC0, 1, 0x80, 0xBF⟩
  else if 0xE0 ≤ byte ∧ byte ≤ 0xEF then
    .begins ⟨byte - 0xE0, 2, if byte = 0xE0 then 0xA0 else 0x80,
      if byte = 0xED then 0x9F else 0xBF⟩
  else if 0xF0 ≤ byte ∧ byte ≤ 0xF4 then
    .begins ⟨byte - 0xF0, 3, if byte = 0xF0 then 0x90 else 0x80,
      if byte = 0xF4 then 0x8F else 0xBF⟩
  else .char replacement

def decodeFrom : Option Begun → List UInt8 → List Char
  | none, [] => []
  | some _, [] => [replacement]
  | none, byte :: rest =>
    match lead byte.toNat with
    | .char c => c :: decodeFrom none rest
    | .begins sequence => decodeFrom (some sequence) rest
  | some sequence, byte :: rest =>
    if sequence.lower ≤ byte.toNat ∧ byte.toNat ≤ sequence.upper then
      let code := sequence.code * 64 + (byte.toNat - 0x80)
      if sequence.missing = 1 then Char.ofNat code :: decodeFrom none rest
      else decodeFrom (some ⟨code, sequence.missing - 1, 0x80, 0xBF⟩) rest
    else
      match lead byte.toNat with
      | .char c => replacement :: c :: decodeFrom none rest
      | .begins sequence => replacement :: decodeFrom (some sequence) rest

def decode (bytes : List UInt8) : List Char := decodeFrom none bytes

theorem decodeFrom_none_cons (byte : UInt8) (rest : List UInt8) :
    decodeFrom none (byte :: rest) =
      match lead byte.toNat with
      | .char c => c :: decodeFrom none rest
      | .begins sequence => decodeFrom (some sequence) rest := rfl

theorem decodeFrom_some_cons (sequence : Begun) (byte : UInt8) (rest : List UInt8) :
    decodeFrom (some sequence) (byte :: rest) =
      if sequence.lower ≤ byte.toNat ∧ byte.toNat ≤ sequence.upper then
        if sequence.missing = 1 then
          Char.ofNat (sequence.code * 64 + (byte.toNat - 0x80)) :: decodeFrom none rest
        else decodeFrom
          (some ⟨sequence.code * 64 + (byte.toNat - 0x80), sequence.missing - 1, 0x80, 0xBF⟩) rest
      else
        match lead byte.toNat with
        | .char c => replacement :: c :: decodeFrom none rest
        | .begins started => replacement :: decodeFrom (some started) rest := rfl

theorem scalar_bound (c : Char) : c.toNat < 0xD800 ∨ (0xDFFF < c.toNat ∧ c.toNat < 0x110000) := by
  exact c.valid

theorem decodeFrom_continuation (sequence : Begun) (n : Nat) (rest : List UInt8)
    (low : sequence.lower ≤ n) (high : n ≤ sequence.upper) (byte : n < 256) :
    decodeFrom (some sequence) (UInt8.ofNat n :: rest) =
      if sequence.missing = 1 then
        Char.ofNat (sequence.code * 64 + (n - 0x80)) :: decodeFrom none rest
      else decodeFrom (some ⟨sequence.code * 64 + (n - 0x80), sequence.missing - 1, 0x80, 0xBF⟩)
        rest := by
  have value : (UInt8.ofNat n).toNat = n := by
    rw [UInt8.toNat_ofNat']
    omega
  rw [decodeFrom, value, if_pos ⟨low, high⟩]

theorem decodeFrom_lead (n : Nat) (rest : List UInt8) (byte : n < 256) :
    decodeFrom none (UInt8.ofNat n :: rest) =
      match lead n with
      | .char c => c :: decodeFrom none rest
      | .begins sequence => decodeFrom (some sequence) rest := by
  have value : (UInt8.ofNat n).toNat = n := by
    rw [UInt8.toNat_ofNat']
    omega
  rw [decodeFrom, value]

theorem decodeFrom_final (sequence : Begun) (n : Nat) (rest : List UInt8) {c : Char}
    (last : sequence.missing = 1) (low : sequence.lower ≤ n) (high : n ≤ sequence.upper)
    (byte : n < 256) (value : sequence.code * 64 + (n - 0x80) = c.toNat) :
    decodeFrom (some sequence) (UInt8.ofNat n :: rest) = c :: decodeFrom none rest := by
  rw [decodeFrom_continuation sequence n rest low high byte, if_pos last, value, Char.ofNat_toNat]

theorem decodeFrom_encodeChar (c : Char) (rest : List UInt8) :
    decodeFrom none (String.utf8EncodeChar c ++ rest) = c :: decodeFrom none rest := by
  have scalar := scalar_bound c
  have whole : Char.ofNat c.toNat = c := Char.ofNat_toNat c
  have same : c.val.toNat = c.toNat := rfl
  unfold String.utf8EncodeChar
  simp only [same]
  generalize named : c.toNat = v at scalar whole
  by_cases one : v ≤ 0x7F
  · rw [if_pos one, List.singleton_append, decodeFrom_lead v rest (by omega), lead,
      if_pos (by omega), whole]
  rw [if_neg one]
  by_cases two : v ≤ 0x7FF
  · rw [if_pos two, List.cons_append, List.singleton_append,
      decodeFrom_lead _ _ (by omega), lead, if_neg (by omega), if_pos (by omega)]
    simp only
    apply decodeFrom_final _ _ _ rfl
    case low => simp only; omega
    case high => simp only; omega
    case byte => omega
    case value => simp only; omega
  rw [if_neg two]
  by_cases three : v ≤ 0xFFFF
  · rw [if_pos three, List.cons_append, List.cons_append, List.singleton_append,
      decodeFrom_lead _ _ (by omega), lead, if_neg (by omega), if_neg (by omega),
      if_pos (by omega)]
    simp only
    rw [decodeFrom_continuation _ _ _ (by simp only; split_ifs <;> omega)
      (by simp only; split_ifs <;> omega) (by omega)]
    simp only [Nat.reduceEqDiff, if_false, Nat.reduceSub]
    apply decodeFrom_final _ _ _ rfl
    case low => simp only; omega
    case high => simp only; omega
    case byte => omega
    case value => simp only; omega
  · rw [if_neg three, List.cons_append, List.cons_append, List.cons_append, List.singleton_append,
      decodeFrom_lead _ _ (by omega), lead, if_neg (by omega), if_neg (by omega),
      if_neg (by omega), if_pos (by omega)]
    simp only
    rw [decodeFrom_continuation _ _ _ (by simp only; split_ifs <;> omega)
      (by simp only; split_ifs <;> omega) (by omega)]
    simp only [Nat.reduceEqDiff, if_false, Nat.reduceSub]
    rw [decodeFrom_continuation _ _ _ (by simp only; omega) (by simp only; omega) (by omega)]
    simp only [Nat.reduceEqDiff, if_false, Nat.reduceSub]
    apply decodeFrom_final _ _ _ rfl
    case low => simp only; omega
    case high => simp only; omega
    case byte => omega
    case value => simp only; omega

def Begun.Sound (sequence : Begun) : Prop := 0x80 ≤ sequence.lower ∧ sequence.upper ≤ 0xBF

theorem lead_sound {n : Nat} {sequence : Begun} (begins : lead n = .begins sequence) :
    sequence.Sound := by
  unfold lead at begins
  split_ifs at begins <;> injection begins with same <;> subst same <;> constructor <;>
    simp only <;> omega

theorem decodeFrom_restart (sequence : Begun) (byte : UInt8) (rest : List UInt8)
    (apart : ¬(sequence.lower ≤ byte.toNat ∧ byte.toNat ≤ sequence.upper)) :
    decodeFrom (some sequence) (byte :: rest) =
      replacement :: decodeFrom none (byte :: rest) := by
  rw [decodeFrom_some_cons, if_neg apart, decodeFrom_none_cons]
  cases lead byte.toNat <;> rfl

theorem encodeChar_starts (c : Char) : ∃ byte rest, String.utf8EncodeChar c = byte :: rest ∧
    ¬(0x80 ≤ byte.toNat ∧ byte.toNat ≤ 0xBF) := by
  have scalar := scalar_bound c
  have same : c.val.toNat = c.toNat := rfl
  unfold String.utf8EncodeChar
  simp only [same]
  generalize c.toNat = v at scalar
  split_ifs <;> refine ⟨_, _, rfl, ?_⟩ <;> rw [UInt8.toNat_ofNat'] <;> omega

theorem decodeFrom_encode (state : Option Begun) (sound : ∀ sequence ∈ state, sequence.Sound)
    (text : List Char) : decodeFrom state (encode text) = decodeFrom state [] ++ text := by
  have fresh (text : List Char) : decodeFrom none (encode text) = text := by
    induction text with
    | nil => rfl
    | cons c rest ih =>
        rw [encode, List.flatMap_cons, decodeFrom_encodeChar]
        exact congrArg (c :: ·) ih
  cases state with
  | none => exact fresh text
  | some sequence =>
      cases text with
      | nil => simp [encode]
      | cons c rest =>
          obtain ⟨byte, tail, starts, apart⟩ := encodeChar_starts c
          have bounds := sound sequence rfl
          have again := fresh (c :: rest)
          rw [encode, List.flatMap_cons, starts, List.cons_append] at again ⊢
          rw [decodeFrom_restart, again]
          · rfl
          · intro within
            exact apart ⟨bounds.1.trans within.1, within.2.trans bounds.2⟩

theorem decodeFrom_append (state : Option Begun) (sound : ∀ sequence ∈ state, sequence.Sound)
    (bytes : List UInt8) (text : List Char) :
    decodeFrom state (bytes ++ encode text) = decodeFrom state bytes ++ text := by
  induction bytes generalizing state with
  | nil => exact decodeFrom_encode state sound text
  | cons byte rest ih =>
      have none_sound : ∀ sequence ∈ (none : Option Begun), sequence.Sound := nofun
      have begun_sound {n : Nat} {sequence : Begun} (begins : lead n = .begins sequence) :
          ∀ other ∈ some sequence, other.Sound := by
        intro other same
        cases same
        exact lead_sound begins
      rw [List.cons_append]
      cases state with
      | none =>
          rw [decodeFrom_none_cons, decodeFrom_none_cons]
          cases begins : lead byte.toNat with
          | char c => simp [ih none none_sound]
          | begins sequence => simp [ih (some sequence) (begun_sound begins)]
      | some sequence =>
          rw [decodeFrom_some_cons, decodeFrom_some_cons]
          split
          · split
            · simp [ih none none_sound]
            · rw [ih]
              intro other same
              rw [← Option.some.inj same]
              exact ⟨Nat.le_refl _, Nat.le_refl _⟩
          · cases begins : lead byte.toNat with
            | char c => simp [ih none none_sound]
            | begins started => simp [ih (some started) (begun_sound begins)]

theorem decode_append (bytes : List UInt8) (text : List Char) :
    decode (bytes ++ encode text) = decode bytes ++ text :=
  decodeFrom_append none nofun bytes text

theorem decode_encode (text : List Char) : decode (encode text) = text :=
  decode_append [] text

theorem decodeFrom_begun_ne_nil (sequence : Begun) (bytes : List UInt8) :
    decodeFrom (some sequence) bytes ≠ [] := by
  induction bytes generalizing sequence with
  | nil => exact List.cons_ne_nil _ _
  | cons byte rest ih =>
      rw [decodeFrom_some_cons]
      split
      · split
        · exact List.cons_ne_nil _ _
        · exact ih _
      · cases lead byte.toNat <;> exact List.cons_ne_nil _ _

theorem decode_eq_nil_iff (bytes : List UInt8) : decode bytes = [] ↔ bytes = [] := by
  cases bytes with
  | nil => simp [decode, decodeFrom]
  | cons byte rest =>
      simp only [decode, decodeFrom, List.cons_ne_nil, iff_false]
      cases lead byte.toNat with
      | char c => exact List.cons_ne_nil _ _
      | begins sequence => exact decodeFrom_begun_ne_nil sequence rest

theorem length_le_encode (text : List Char) : text.length ≤ (encode text).length := by
  induction text with
  | nil => exact Nat.le_refl 0
  | cons c rest ih =>
      obtain ⟨byte, tail, starts, -⟩ := encodeChar_starts c
      rw [encode, List.flatMap_cons, starts, List.length_append, List.length_cons, List.length_cons]
      have below : rest.length ≤ (rest.flatMap String.utf8EncodeChar).length := ih
      omega

theorem length_units_replacement : (Utf16.units replacement).length = 1 := rfl

theorem length_units_lead {byte : Nat} {c : Char} (ends : lead byte = .char c) :
    (Utf16.units c).length = 1 := by
  unfold lead at ends
  split_ifs at ends with ascii
  · injection ends with same
    subst same
    have value : (Char.ofNat byte).toNat = byte := by
      unfold Char.ofNat
      rw [dif_pos (Or.inl (by omega))]
      rfl
    rw [Utf16.units_of_lt (by omega), List.length_singleton]
  · injection ends with same
    subst same
    exact length_units_replacement

theorem length_units_decodeFrom_le (state : Option Begun) (bytes : List UInt8) :
    (Utf16.encode (decodeFrom state bytes)).length ≤ bytes.length + state.toList.length := by
  induction bytes generalizing state with
  | nil =>
      cases state with
      | none => exact Nat.le_refl 0
      | some sequence => exact Nat.le_refl 1
  | cons byte rest ih =>
      have fresh : (Utf16.encode (decodeFrom none (byte :: rest))).length ≤ rest.length + 1 := by
        rw [decodeFrom_none_cons]
        split
        · next c ends =>
            have shorter := ih none
            rw [Utf16.encode_cons, List.length_append, length_units_lead ends]
            simp only [Option.toList_none, List.length_nil] at shorter
            omega
        · next sequence begins =>
            have shorter := ih (some sequence)
            simpa using shorter
      cases state with
      | none => simpa using fresh
      | some sequence =>
          by_cases inside : sequence.lower ≤ byte.toNat ∧ byte.toNat ≤ sequence.upper
          · rw [decodeFrom_some_cons, if_pos inside]
            split
            · have shorter := ih none
              have size := Utf16.length_units_bounds
                (Char.ofNat (sequence.code * 64 + (byte.toNat - 0x80)))
              rw [Utf16.encode_cons, List.length_append]
              simp only [List.length_cons, Option.toList_none, List.length_nil,
                Option.toList_some] at shorter ⊢
              omega
            · refine Nat.le_trans (ih (some _)) ?_
              simp only [List.length_cons, Option.toList_some, List.length_nil]
              omega
          · rw [decodeFrom_restart sequence byte rest inside, Utf16.encode_cons, List.length_append,
              length_units_replacement]
            simp only [List.length_cons, Option.toList_some, List.length_nil]
            omega

theorem length_units_decode_le (bytes : List UInt8) :
    (Utf16.encode (decode bytes)).length ≤ bytes.length :=
  length_units_decodeFrom_le none bytes

theorem length_decode_le (bytes : List UInt8) : (decode bytes).length ≤ bytes.length :=
  (Utf16.length_le_encode _).trans (length_units_decode_le bytes)

end Utf8
