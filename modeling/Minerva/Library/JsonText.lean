import Minerva.Library.JsText
import Minerva.Library.Json

/-! `JSON.stringify` of JSON values, and a reader of what it writes: texts without white space
between their tokens. -/

namespace Json

abbrev Text := List Char

def hexDigit (n : Nat) : Char := Char.ofNat (if n < 10 then 48 + n else 87 + n)

def hexValue (c : Char) : Nat := if c.toNat < 58 then c.toNat - 48 else c.toNat - 87

def escape (c : Char) : Text :=
  match c with
  | '"' => ['\\', '"']
  | '\\' => ['\\', '\\']
  | '\x08' => ['\\', 'b']
  | '\x0c' => ['\\', 'f']
  | '\n' => ['\\', 'n']
  | '\r' => ['\\', 'r']
  | '\t' => ['\\', 't']
  | c =>
    if c.toNat < 32 then
      ['\\', 'u', '0', '0', hexDigit (c.toNat / 16), hexDigit (c.toNat % 16)]
    else [c]

def quote (text : Text) : Text := '"' :: (text.flatMap escape ++ ['"'])

def digits : Int → Text
  | .ofNat n => Nat.toDigits 10 n
  | .negSucc n => '-' :: Nat.toDigits 10 (n + 1)

mutual

def stringify : Json → Text
  | .null => "null".toList
  | .bool true => "true".toList
  | .bool false => "false".toList
  | .num value => digits value
  | .str value => quote value.toList
  | .arr [] => ['[', ']']
  | .arr (first :: rest) => '[' :: (stringify first ++ stringifyItems rest)
  | .obj [] => ['{', '}']
  | .obj ((name, first) :: rest) =>
    '{' :: (quote name.toList ++ ':' :: (stringify first ++ stringifyMembers rest))

def stringifyItems : List Json → Text
  | [] => [']']
  | item :: rest => ',' :: (stringify item ++ stringifyItems rest)

def stringifyMembers : List (String × Json) → Text
  | [] => ['}']
  | (name, value) :: rest =>
    ',' :: (quote name.toList ++ ':' :: (stringify value ++ stringifyMembers rest))

end

def unescape (c : Char) : Option Char :=
  match c with
  | '"' => some '"'
  | '\\' => some '\\'
  | '/' => some '/'
  | 'b' => some '\x08'
  | 'f' => some '\x0c'
  | 'n' => some '\n'
  | 'r' => some '\r'
  | 't' => some '\t'
  | _ => none

def readChar : Text → Option (Char × Text)
  | '\\' :: 'u' :: a :: b :: c :: d :: rest =>
    some (Char.ofNat (((hexValue a * 16 + hexValue b) * 16 + hexValue c) * 16 + hexValue d), rest)
  | '\\' :: c :: rest => (unescape c).map (·, rest)
  | c :: rest => if c.toNat < 32 then none else some (c, rest)
  | [] => none

def readString : Nat → Text → Option (Text × Text)
  | 0, _ => none
  | fuel + 1, text =>
    if text.head? = some '"' then some ([], text.tail)
    else
      match readChar text with
      | none => none
      | some (c, rest) => (readString fuel rest).map (fun read => (c :: read.1, read.2))

def readDigits (text : Text) : Option (Nat × Text) :=
  match text.takeWhile Char.isDigit with
  | [] => none
  | leading => some (Nat.ofDigitChars 10 leading 0, text.dropWhile Char.isDigit)

mutual

def readValue : Nat → Text → Option (Json × Text)
  | 0, _ => none
  | fuel + 1, text =>
    match text with
    | 'n' :: 'u' :: 'l' :: 'l' :: rest => some (.null, rest)
    | 't' :: 'r' :: 'u' :: 'e' :: rest => some (.bool true, rest)
    | 'f' :: 'a' :: 'l' :: 's' :: 'e' :: rest => some (.bool false, rest)
    | '"' :: rest => (readString fuel rest).map (fun read => (.str (String.ofList read.1), read.2))
    | '[' :: rest =>
      if rest.head? = some ']' then some (.arr [], rest.tail)
      else
        match readValue fuel rest with
        | none => none
        | some (first, rest) =>
          (readItems fuel rest).map (fun read => (.arr (first :: read.1), read.2))
    | '{' :: rest =>
      if rest.head? = some '}' then some (.obj [], rest.tail)
      else
        match readMember fuel rest with
        | none => none
        | some (first, rest) =>
          (readMembers fuel rest).map (fun read => (.obj (first :: read.1), read.2))
    | '-' :: rest => (readDigits rest).map (fun read => (.num (-read.1), read.2))
    | text => (readDigits text).map (fun read => (.num read.1, read.2))

def readItems : Nat → Text → Option (List Json × Text)
  | 0, _ => none
  | fuel + 1, text =>
    match text with
    | ']' :: rest => some ([], rest)
    | ',' :: rest =>
      match readValue fuel rest with
      | none => none
      | some (item, rest) => (readItems fuel rest).map (fun read => (item :: read.1, read.2))
    | _ => none

def readMember : Nat → Text → Option ((String × Json) × Text)
  | 0, _ => none
  | fuel + 1, text =>
    match text with
    | '"' :: rest =>
      match readString fuel rest with
      | some (name, ':' :: rest) =>
        (readValue fuel rest).map (fun read => ((String.ofList name, read.1), read.2))
      | _ => none
    | _ => none

def readMembers : Nat → Text → Option (List (String × Json) × Text)
  | 0, _ => none
  | fuel + 1, text =>
    match text with
    | '}' :: rest => some ([], rest)
    | ',' :: rest =>
      match readMember fuel rest with
      | none => none
      | some (member, rest) => (readMembers fuel rest).map (fun read => (member :: read.1, read.2))
    | _ => none

end

def parse (text : Text) : Option Json :=
  match readValue text.length text with
  | some (value, []) => some value
  | _ => none

example : stringify (.obj [("text", .str "a\r\nb"), ("list", .arr [.num (-5), .bool true])]) =
    "\x7b\"text\":\"a\\r\\nb\",\"list\":[-5,true]\x7d".toList := by decide

theorem hexValue_hexDigit (n : Nat) (small : n < 16) : hexValue (hexDigit n) = n := by
  have all : ∀ i : Fin 16, hexValue (hexDigit i) = i := by decide
  exact all ⟨n, small⟩

theorem readChar_escape (c : Char) (rest : Text) : readChar (escape c ++ rest) = some (c, rest) := by
  unfold escape
  split
  · rfl
  · rfl
  · rfl
  · rfl
  · rfl
  · rfl
  · rfl
  · rename_i _ backslash _ _ _ _ _
    by_cases control : c.toNat < 32
    · rw [if_pos control]
      have high := hexValue_hexDigit (c.toNat / 16) (by omega)
      have low := hexValue_hexDigit (c.toNat % 16) (by omega)
      have zero : hexValue '0' = 0 := by decide
      have whole : ((0 * 16 + 0) * 16 + c.toNat / 16) * 16 + c.toNat % 16 = c.toNat := by omega
      simp only [List.cons_append, List.nil_append, readChar, zero, high, low, whole, Char.ofNat_toNat]
    · rw [if_neg control]
      unfold readChar
      split
      · rename_i same
        exact absurd (List.cons.inj same).1 backslash
      · rename_i same
        exact absurd (List.cons.inj same).1 backslash
      · rename_i same
        cases same
        rw [if_neg control]
        rfl
      · rename_i same
        cases same

theorem escape_unquoted (c : Char) (more : Text) : escape c ≠ '"' :: more := by
  unfold escape
  split
  · simp
  · simp
  · simp
  · simp
  · simp
  · simp
  · simp
  · rename_i quote _ _ _ _ _ _
    split
    · simp
    · intro same
      exact quote (List.cons.inj same).1

theorem escape_ne_nil (c : Char) : escape c ≠ [] := by
  unfold escape
  split <;> simp
  split <;> simp

theorem readString_quoted (text rest : Text) (fuel : Nat)
    (enough : (text.flatMap escape).length < fuel) :
    readString fuel (text.flatMap escape ++ '"' :: rest) = some (text, rest) := by
  induction text generalizing fuel with
  | nil =>
      cases fuel with
      | zero => cases enough
      | succ fuel => rfl
  | cons c text ih =>
      cases fuel with
      | zero => cases enough
      | succ fuel =>
          rw [List.flatMap_cons, List.length_append] at enough
          have step : 0 < (escape c).length := List.length_pos_iff.mpr (escape_ne_nil c)
          have read := readChar_escape c (text.flatMap escape ++ '"' :: rest)
          have inside : (escape c ++ (text.flatMap escape ++ '"' :: rest)).head? ≠ some '"' := by
            cases shown : escape c with
            | nil => exact absurd shown (escape_ne_nil c)
            | cons d more =>
                intro same
                cases same
                exact escape_unquoted c more shown
          rw [List.flatMap_cons, List.append_assoc, readString, if_neg inside, read]
          simp only [ih fuel (by omega), Option.map_some]

def EndsNumber (rest : Text) : Prop := ∀ c ∈ rest.head?, c.isDigit = false

theorem toDigits_eq_cons (n : Nat) :
    ∃ c more, Nat.toDigits 10 n = c :: more ∧ c.isDigit = true := by
  obtain ⟨c, more, listed⟩ := List.exists_cons_of_ne_nil (Nat.toDigits_ne_nil (n := n) (b := 10))
  have front : c ∈ Nat.toDigits 10 n := listed ▸ List.mem_cons_self
  exact ⟨c, more, listed, Nat.isDigit_of_mem_toDigits (by decide) (by decide) front⟩

theorem readDigits_toDigits (n : Nat) {rest : Text} (ends : EndsNumber rest) :
    readDigits (Nat.toDigits 10 n ++ rest) = some (n, rest) := by
  have digits : ∀ c ∈ Nat.toDigits 10 n, c.isDigit = true := fun c member =>
    Nat.isDigit_of_mem_toDigits (by decide) (by decide) member
  have stop_take : rest.takeWhile Char.isDigit = [] := by
    cases rest with
    | nil => rfl
    | cons c rest => exact List.takeWhile_cons_of_neg (by simp [ends c rfl])
  have stop_drop : rest.dropWhile Char.isDigit = rest := by
    cases rest with
    | nil => rfl
    | cons c rest => exact List.dropWhile_cons_of_neg (by simp [ends c rfl])
  have taken : (Nat.toDigits 10 n ++ rest).takeWhile Char.isDigit = Nat.toDigits 10 n := by
    rw [List.takeWhile_append_of_pos digits, stop_take, List.append_nil]
  have dropped : (Nat.toDigits 10 n ++ rest).dropWhile Char.isDigit = rest := by
    rw [List.dropWhile_append_of_pos digits, stop_drop]
  obtain ⟨c, more, listed, _⟩ := toDigits_eq_cons n
  have value : Nat.ofDigitChars 10 (c :: more) 0 = n := by
    rw [← listed]
    exact Nat.ofDigitChars_ten_toDigits
  unfold readDigits
  rw [taken, dropped, listed]
  show some (Nat.ofDigitChars 10 (c :: more) 0, rest) = some (n, rest)
  rw [value]

theorem endsNumber_cons {c : Char} (other : c.isDigit = false) (rest : Text) :
    EndsNumber (c :: rest) := by
  intro d front
  cases front
  exact other

theorem endsNumber_items (items : List Json) (rest : Text) :
    EndsNumber (stringifyItems items ++ rest) := by
  cases items with
  | nil => exact endsNumber_cons rfl rest
  | cons item items =>
      rw [stringifyItems]
      exact endsNumber_cons rfl _

theorem endsNumber_members (members : List (String × Json)) (rest : Text) :
    EndsNumber (stringifyMembers members ++ rest) := by
  cases members with
  | nil => exact endsNumber_cons rfl rest
  | cons member members =>
      obtain ⟨name, value⟩ := member
      rw [stringifyMembers]
      exact endsNumber_cons rfl _

theorem digit_other {c : Char} (digit : c.isDigit = true) :
    c ≠ 'n' ∧ c ≠ 't' ∧ c ≠ 'f' ∧ c ≠ '"' ∧ c ≠ '[' ∧ c ≠ '{' ∧ c ≠ '-' := by
  refine ⟨?_, ?_, ?_, ?_, ?_, ?_, ?_⟩ <;> (rintro rfl; exact absurd digit (by decide))

theorem readValue_digits (value : Int) (fuel : Nat) {rest : Text} (ends : EndsNumber rest) :
    readValue (fuel + 1) (digits value ++ rest) = some (.num value, rest) := by
  cases value with
  | negSucc n =>
      have read := readDigits_toDigits (n + 1) ends
      simp only [digits, List.cons_append, readValue, read, Option.map_some]
      rfl
  | ofNat n =>
      have read := readDigits_toDigits n ends
      obtain ⟨c, more, listed, digit⟩ := toDigits_eq_cons n
      obtain ⟨n', t', f', q', a', o', m'⟩ := digit_other digit
      rw [listed, List.cons_append] at read
      simp only [digits, listed, List.cons_append]
      unfold readValue
      simp [n', t', f', q', a', o', m', read]

theorem length_quote (text : Text) : (quote text).length = (text.flatMap escape).length + 2 := by
  simp [quote]

theorem length_stringify_pos (value : Json) : 0 < (stringify value).length := by
  unfold stringify
  split
  · decide
  · decide
  · decide
  · rename_i value
    cases value with
    | ofNat n => exact List.length_pos_iff.mpr Nat.toDigits_ne_nil
    | negSucc n => exact Nat.succ_pos _
  · exact Nat.succ_pos _
  · exact Nat.succ_pos _
  · exact Nat.succ_pos _
  · exact Nat.succ_pos _
  · exact Nat.succ_pos _

theorem stringify_head (value : Json) (rest : Text) : (stringify value ++ rest).head? ≠ some ']' := by
  unfold stringify
  split
  · simp
  · simp
  · simp
  · rename_i value
    cases value with
    | negSucc n => simp [digits]
    | ofNat n =>
        obtain ⟨c, more, listed, digit⟩ := toDigits_eq_cons n
        simp only [digits, listed]
        intro same
        cases same
        cases digit
  · simp [quote]
  · simp
  · simp
  · simp
  · simp

mutual

/-- What is written is read back, with enough fuel for its length. -/
theorem readValue_stringify : ∀ (value : Json) (fuel : Nat) (rest : Text),
    (stringify value).length ≤ fuel → EndsNumber rest →
      readValue fuel (stringify value ++ rest) = some (value, rest)
  | value, 0, rest, enough, _ => by
      have filled := length_stringify_pos value
      omega
  | .null, fuel + 1, rest, _, _ => rfl
  | .bool true, fuel + 1, rest, _, _ => rfl
  | .bool false, fuel + 1, rest, _, _ => rfl
  | .num value, fuel + 1, rest, _, ends => readValue_digits value fuel ends
  | .str value, fuel + 1, rest, enough, _ => by
      simp only [stringify, length_quote] at enough
      have read := readString_quoted value.toList rest fuel (by omega)
      simp only [stringify, quote, List.cons_append, List.append_assoc, List.nil_append, readValue,
        read, Option.map_some, String.ofList_toList]
  | .arr [], fuel + 1, rest, _, _ => rfl
  | .arr (first :: more), fuel + 1, rest, enough, _ => by
      simp only [stringify, List.length_cons, List.length_append] at enough
      have filled := stringify_head first (stringifyItems more ++ rest)
      have head := readValue_stringify first fuel (stringifyItems more ++ rest) (by omega)
        (endsNumber_items more rest)
      have tail := readItems_stringify more fuel rest (by omega)
      simp only [stringify, List.cons_append, List.append_assoc, readValue, if_neg filled, head,
        tail, Option.map_some]
  | .obj [], fuel + 1, rest, _, _ => rfl
  | .obj ((name, first) :: more), fuel + 1, rest, enough, _ => by
      simp only [stringify, List.length_cons, List.length_append] at enough
      have head := readMember_stringify name first fuel (stringifyMembers more ++ rest) (by
        simp only [List.length_append, List.length_cons]
        omega) (endsNumber_members more rest)
      have tail := readMembers_stringify more fuel rest (by omega)
      simp only [List.append_assoc, List.cons_append, quote, List.nil_append] at head
      simp only [stringify, quote, List.cons_append, List.append_assoc, List.nil_append, readValue,
        head, tail, Option.map_some]
      rfl

theorem readItems_stringify : ∀ (items : List Json) (fuel : Nat) (rest : Text),
    (stringifyItems items).length ≤ fuel →
      readItems fuel (stringifyItems items ++ rest) = some (items, rest)
  | [], 0, rest, enough => by cases enough
  | _ :: _, 0, rest, enough => by cases enough
  | [], fuel + 1, rest, _ => rfl
  | item :: items, fuel + 1, rest, enough => by
      simp only [stringifyItems, List.length_cons, List.length_append] at enough
      have head := readValue_stringify item fuel (stringifyItems items ++ rest) (by omega)
        (endsNumber_items items rest)
      have tail := readItems_stringify items fuel rest (by omega)
      simp only [stringifyItems, List.cons_append, List.append_assoc, readItems, head, tail,
        Option.map_some]

theorem readMember_stringify : ∀ (name : String) (value : Json) (fuel : Nat) (rest : Text),
    (quote name.toList ++ ':' :: stringify value).length ≤ fuel → EndsNumber rest →
      readMember fuel ((quote name.toList ++ ':' :: stringify value) ++ rest) =
        some ((name, value), rest)
  | name, value, 0, rest, enough, _ => by
      simp only [List.length_append, List.length_cons] at enough
      omega
  | name, value, fuel + 1, rest, enough, ends => by
      simp only [List.length_append, List.length_cons, length_quote] at enough
      have named := readString_quoted name.toList (':' :: (stringify value ++ rest)) fuel (by omega)
      have read := readValue_stringify value fuel rest (by omega) ends
      simp only [quote, List.cons_append, List.append_assoc, List.nil_append, readMember, named,
        read, Option.map_some, String.ofList_toList]

theorem readMembers_stringify : ∀ (members : List (String × Json)) (fuel : Nat) (rest : Text),
    (stringifyMembers members).length ≤ fuel →
      readMembers fuel (stringifyMembers members ++ rest) = some (members, rest)
  | [], 0, rest, enough => by cases enough
  | _ :: _, 0, rest, enough => by
      rw [stringifyMembers] at enough
      cases enough
  | [], fuel + 1, rest, _ => rfl
  | (name, value) :: members, fuel + 1, rest, enough => by
      simp only [stringifyMembers, List.length_cons, List.length_append] at enough
      have head := readMember_stringify name value fuel (stringifyMembers members ++ rest) (by
        simp only [List.length_append, List.length_cons]
        omega) (endsNumber_members members rest)
      have tail := readMembers_stringify members fuel rest (by omega)
      simp only [List.append_assoc, List.cons_append, quote, List.nil_append] at head
      simp only [stringifyMembers, quote, List.cons_append, List.append_assoc, List.nil_append,
        readMembers, head, tail, Option.map_some]

end

theorem parse_stringify (value : Json) : parse (stringify value) = some value := by
  have read := readValue_stringify value (stringify value).length [] (Nat.le_refl _)
    (fun _ impossible => by cases impossible)
  rw [List.append_nil] at read
  simp only [parse, read]

theorem hexDigit_solid (n : Nat) (small : n < 16) : hexDigit n ≠ '\r' ∧ hexDigit n ≠ '\n' := by
  have all : ∀ i : Fin 16, hexDigit i ≠ '\r' ∧ hexDigit i ≠ '\n' := by decide
  exact all ⟨n, small⟩

theorem oneLine_escape (c : Char) : OneLine (escape c) := by
  unfold escape
  split
  · simp [OneLine]
  · simp [OneLine]
  · simp [OneLine]
  · simp [OneLine]
  · simp [OneLine]
  · simp [OneLine]
  · simp [OneLine]
  · rename_i _ _ _ _ feed carriage _
    by_cases control : c.toNat < 32
    · rw [if_pos control]
      have high := hexDigit_solid (c.toNat / 16) (by omega)
      have low := hexDigit_solid (c.toNat % 16) (by omega)
      simp [OneLine, high, low]
    · rw [if_neg control]
      exact oneLine_nil.cons ⟨carriage, feed⟩

theorem oneLine_quote (text : Text) : OneLine (quote text) := by
  refine .cons (.append ?_ (oneLine_nil.cons (by decide))) (by decide)
  intro c member
  obtain ⟨d, _, inside⟩ := List.mem_flatMap.mp member
  exact oneLine_escape d c inside

theorem oneLine_digits (value : Int) : OneLine (digits value) := by
  cases value with
  | ofNat n => exact oneLine_toDigits n
  | negSucc n => exact (oneLine_toDigits (n + 1)).cons (by decide)

mutual

theorem oneLine_stringify : ∀ value : Json, OneLine (stringify value)
  | .null => by simp [stringify, OneLine]
  | .bool true => by simp [stringify, OneLine]
  | .bool false => by simp [stringify, OneLine]
  | .num value => oneLine_digits value
  | .str value => oneLine_quote value.toList
  | .arr [] => by simp [stringify, OneLine]
  | .arr (first :: rest) =>
      ((oneLine_stringify first).append (oneLine_stringifyItems rest)).cons (by decide)
  | .obj [] => by simp [stringify, OneLine]
  | .obj ((name, first) :: rest) =>
      ((oneLine_quote name.toList).append
        (((oneLine_stringify first).append (oneLine_stringifyMembers rest)).cons (by decide))).cons
          (by decide)

theorem oneLine_stringifyItems : ∀ items : List Json, OneLine (stringifyItems items)
  | [] => oneLine_nil.cons (by decide)
  | item :: rest =>
      ((oneLine_stringify item).append (oneLine_stringifyItems rest)).cons (by decide)

theorem oneLine_stringifyMembers : ∀ members : List (String × Json),
    OneLine (stringifyMembers members)
  | [] => oneLine_nil.cons (by decide)
  | (name, value) :: rest =>
      ((oneLine_quote name.toList).append
        (((oneLine_stringify value).append (oneLine_stringifyMembers rest)).cons (by decide))).cons
          (by decide)

end

end Json
