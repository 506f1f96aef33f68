import Mathlib.Data.List.TakeWhile

/-- The white space that `String.prototype.trim` strips. -/
def jsWhitespace (c : Char) : Bool :=
  decide (c.toNat ∈ [9, 10, 11, 12, 13, 32, 160, 5760, 8192, 8193, 8194, 8195, 8196, 8197, 8198,
    8199, 8200, 8201, 8202, 8232, 8233, 8239, 8287, 12288, 65279])

def jsTrim (text : String) : String :=
  String.ofList
    (((text.toList.dropWhile jsWhitespace).reverse.dropWhile jsWhitespace).reverse)

theorem dropWhile_trimmed (white : Char → Bool) (text : List Char) :
    (text.dropWhile white).dropWhile white = text.dropWhile white := by
  induction text with
  | nil => rfl
  | cons c rest ih =>
      by_cases space : white c = true
      · simp only [List.dropWhile_cons_of_pos space, ih]
      · simp only [List.dropWhile_cons_of_neg space]

theorem dropWhile_reverse_trimmed (white : Char → Bool) {text : List Char}
    (solid : text.dropWhile white = text) :
    (text.reverse.dropWhile white).reverse.dropWhile white =
      (text.reverse.dropWhile white).reverse := by
  cases text with
  | nil => rfl
  | cons c rest =>
      have first : ¬white c = true := by
        intro space
        rw [List.dropWhile_cons_of_pos space] at solid
        have longer := congrArg List.length solid
        have short := (List.dropWhile_sublist white (l := rest)).length_le
        simp only [List.length_cons] at longer
        omega
      have kept : ((c :: rest).reverse.dropWhile white).reverse =
          c :: (rest.reverse.dropWhile white).reverse := by
        rw [List.reverse_cons, List.dropWhile_append]
        split
        · rename_i gone
          rw [List.isEmpty_iff.mp gone, List.dropWhile_cons_of_neg first]
          rfl
        · rw [List.reverse_append]
          rfl
      rw [kept, List.dropWhile_cons_of_neg first]

@[simp] theorem jsTrim_jsTrim (text : String) : jsTrim (jsTrim text) = jsTrim text := by
  simp only [jsTrim, String.toList_ofList]
  rw [dropWhile_reverse_trimmed jsWhitespace (dropWhile_trimmed jsWhitespace text.toList),
    List.reverse_reverse, dropWhile_trimmed]

/-- `parseInt(text, 10)` as an exact integer; none stands for `NaN`. A `Number` agrees with it up
to 2^53. -/
def parseInt (text : String) : Option Int :=
  let (sign, digits) : Int × List Char :=
    match text.toList.dropWhile jsWhitespace with
    | '-' :: digits => (-1, digits)
    | '+' :: digits => (1, digits)
    | digits => (1, digits)
  match digits.takeWhile Char.isDigit with
  | [] => none
  | leading => some (sign * leading.foldl (fun value c => 10 * value + (c.toNat - '0'.toNat)) 0)

theorem digit_not_white (c : Char) (digit : c.isDigit = true) : jsWhitespace c = false := by
  have low : 48 ≤ c.toNat := (Char.isDigit_iff_toNat.mp digit).1
  have high : c.toNat ≤ 57 := (Char.isDigit_iff_toNat.mp digit).2
  unfold jsWhitespace
  rw [decide_eq_false_iff_not]
  intro member
  simp only [List.mem_cons, List.not_mem_nil, or_false] at member
  omega

theorem parseInt_toString (n : Nat) : parseInt (toString n) = some (n : Int) := by
  have written : (toString n).toList = Nat.toDigits 10 n := Nat.toList_repr
  have digits : ∀ c ∈ Nat.toDigits 10 n, c.isDigit = true := fun c member =>
    Nat.isDigit_of_mem_toDigits (by decide) (by decide) member
  have value : Nat.ofDigitChars 10 (Nat.toDigits 10 n) 0 = n := Nat.ofDigitChars_ten_toDigits
  have taken : (Nat.toDigits 10 n).takeWhile Char.isDigit = Nat.toDigits 10 n :=
    List.takeWhile_eq_self_iff.mpr digits
  unfold parseInt
  rw [written]
  cases listed : Nat.toDigits 10 n with
  | nil => exact absurd listed Nat.toDigits_ne_nil
  | cons c rest =>
      rw [listed] at digits value taken
      have first := digits c List.mem_cons_self
      have minus : c ≠ '-' := by
        rintro rfl
        exact absurd first (by decide)
      have plus : c ≠ '+' := by
        rintro rfl
        exact absurd first (by decide)
      rw [List.dropWhile_cons_of_neg (by simp [digit_not_white c first])]
      have unsigned : (match c :: rest with
          | '-' :: digits => ((-1 : Int), digits)
          | '+' :: digits => (1, digits)
          | digits => (1, digits)) = (1, c :: rest) := by
        split
        · rename_i same
          exact absurd (List.cons.inj same).1 minus
        · rename_i same
          exact absurd (List.cons.inj same).1 plus
        · rfl
      simp only [unsigned, taken, Int.one_mul]
      exact congrArg (fun m : Nat => some (m : Int)) value

def padZeros (length value : Nat) : String :=
  let digits := toString value
  String.ofList (List.replicate (length - digits.length) '0') ++ digits

/-- The proleptic Gregorian date, days after 1970-01-01; years are counted from March on, in eras
of 400 years. -/
def civilDate (days : Int) : Int × Nat × Nat :=
  let era := (days + 719468) / 146097
  let dayOfEra := ((days + 719468) % 146097).toNat
  let yearOfEra := (dayOfEra - dayOfEra / 1460 + dayOfEra / 36524 - dayOfEra / 146096) / 365
  let dayOfYear := dayOfEra - (365 * yearOfEra + yearOfEra / 4 - yearOfEra / 100)
  let monthFromMarch := (5 * dayOfYear + 2) / 153
  let day := dayOfYear - (153 * monthFromMarch + 2) / 5 + 1
  let month := if monthFromMarch < 10 then monthFromMarch + 3 else monthFromMarch - 9
  (yearOfEra + era * 400 + (if month ≤ 2 then 1 else 0), month, day)

def toISOString (time : Int) : String :=
  let (year, month, day) := civilDate (time / 86400000)
  let rest := (time % 86400000).toNat
  let years :=
    if 0 ≤ year ∧ year ≤ 9999 then padZeros 4 year.toNat
    else (if year < 0 then "-" else "+") ++ padZeros 6 year.natAbs
  years ++ "-" ++ padZeros 2 month ++ "-" ++ padZeros 2 day ++ "T" ++
    padZeros 2 (rest / 3600000) ++ ":" ++ padZeros 2 (rest / 60000 % 60) ++ ":" ++
    padZeros 2 (rest / 1000 % 60) ++ "." ++ padZeros 3 (rest % 1000) ++ "Z"

example : toISOString 1709210096789 = "2024-02-29T12:34:56.789Z" := by decide +kernel

def OneLine (text : List Char) : Prop := ∀ c ∈ text, c ≠ '\r' ∧ c ≠ '\n'

instance (text : List Char) : Decidable (OneLine text) :=
  List.decidableBAll (fun c => c ≠ '\r' ∧ c ≠ '\n') text

theorem oneLine_nil : OneLine [] := by
  intro c member
  cases member

theorem OneLine.append {first second : List Char} (left : OneLine first) (right : OneLine second) :
    OneLine (first ++ second) := by
  intro c member
  rcases List.mem_append.mp member with member | member
  · exact left c member
  · exact right c member

theorem OneLine.cons {c : Char} {text : List Char} (line : OneLine text)
    (solid : c ≠ '\r' ∧ c ≠ '\n') : OneLine (c :: text) := by
  intro d member
  rcases List.mem_cons.mp member with rfl | member
  · exact solid
  · exact line d member

theorem oneLine_toDigits (n : Nat) : OneLine (Nat.toDigits 10 n) := by
  intro c member
  have digit : c.isDigit = true := Nat.isDigit_of_mem_toDigits (by decide) (by decide) member
  constructor
  · rintro rfl
    exact absurd digit (by decide)
  · rintro rfl
    exact absurd digit (by decide)
