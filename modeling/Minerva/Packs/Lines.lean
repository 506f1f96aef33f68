import Mathlib.Data.List.DropRight
import Minerva.Library.Joined
import Minerva.Packs.Types

namespace Minerva.Text

def Closed (text : Text) : Prop := ∀ c, text.getLast? = some c → jsWhitespace c = false

def Opened (text : Text) : Prop := ∀ c, text.head? = some c → jsWhitespace c = false

def Trimmed (text : Text) : Prop := text ≠ [] ∧ trim text = text

instance (text : Text) : Decidable text.Trimmed := inferInstanceAs (Decidable (_ ∧ _))

theorem Closed.suffix {text rest : Text} (closed : text.Closed) (behind : rest <:+ text) :
    rest.Closed := by
  intro c last
  obtain ⟨front, rfl⟩ := behind
  apply closed
  rw [List.getLast?_append, last]
  rfl

theorem Closed.append {text rest : Text} (closed : rest.Closed) (filled : rest ≠ []) :
    Closed (text ++ rest) := by
  intro c last
  rw [List.getLast?_append_of_ne_nil text filled] at last
  exact closed c last

theorem Closed.tail_ne_nil {c : Char} {rest : Text} (closed : Closed (c :: rest))
    (white : jsWhitespace c = true) : rest ≠ [] := by
  rintro rfl
  rw [closed c rfl] at white
  exact absurd white (by decide)

theorem Opened.append {text : Text} (opened : text.Opened) (filled : text ≠ []) (rest : Text) :
    Opened (text ++ rest) := by
  intro c first
  rw [List.head?_append_of_ne_nil text filled] at first
  exact opened c first

theorem Opened.dropWhile {text : Text} (opened : text.Opened) :
    text.dropWhile jsWhitespace = text := by
  cases text with
  | nil => rfl
  | cons c rest => rw [List.dropWhile_cons_of_neg (by simp [opened c rfl])]

theorem Closed.dropWhile_append {text : Text} (closed : text.Closed) (filled : text ≠ [])
    (rest : Text) :
    (text ++ rest).dropWhile jsWhitespace = text.dropWhile jsWhitespace ++ rest := by
  rw [List.dropWhile_append, if_neg]
  intro empty
  have white := List.dropWhile_eq_nil_iff.mp (List.isEmpty_iff.mp empty)
  have last := closed _ (List.getLast?_eq_some_getLast filled)
  rw [white _ (List.getLast_mem filled)] at last
  exact absurd last (by decide)

theorem trim_eq (text : Text) :
    trim text = (text.dropWhile jsWhitespace).rdropWhile jsWhitespace := rfl

theorem trim_closed (text : Text) : (trim text).Closed := by
  intro c last
  have filled : trim text ≠ [] := by
    intro empty
    rw [empty] at last
    cases last
  rw [List.getLast?_eq_some_getLast filled, Option.some_inj] at last
  rw [← last, Bool.eq_false_iff]
  exact List.rdropWhile_last_not jsWhitespace _ filled

theorem trim_opened (text : Text) : (trim text).Opened := by
  intro c first
  obtain ⟨rest, whole⟩ := List.rdropWhile_prefix jsWhitespace (text.dropWhile jsWhitespace)
  rw [trim_eq] at first
  have head : (text.dropWhile jsWhitespace).head? = some c := by
    rw [← whole, List.head?_append, first]
    rfl
  have refused := List.head?_dropWhile_not jsWhitespace text
  rw [head] at refused
  exact refused

theorem trim_infix (text : Text) : trim text <:+: text :=
  (List.rdropWhile_prefix jsWhitespace _).isInfix.trans (List.dropWhile_suffix jsWhitespace).isInfix

theorem trim_eq_self_iff (text : Text) : trim text = text ↔ text.Opened ∧ text.Closed := by
  constructor
  · intro same
    rw [← same]
    exact ⟨trim_opened text, trim_closed text⟩
  · rintro ⟨opened, closed⟩
    rw [trim_eq, opened.dropWhile, List.rdropWhile_eq_self_iff]
    intro filled white
    rw [closed _ (List.getLast?_eq_some_getLast filled)] at white
    exact absurd white (by decide)

theorem Trimmed.opened {text : Text} (trimmed : text.Trimmed) : text.Opened :=
  ((trim_eq_self_iff text).mp trimmed.2).1

theorem Trimmed.closed {text : Text} (trimmed : text.Trimmed) : text.Closed :=
  ((trim_eq_self_iff text).mp trimmed.2).2

theorem trim_of_white {text : Text} (white : ∀ c ∈ text, jsWhitespace c = true) :
    trim text = [] := by
  rw [trim_eq, List.dropWhile_eq_nil_iff.mpr white, List.rdropWhile_nil]

theorem trim_snoc (text : Text) {c : Char} (white : jsWhitespace c = true) :
    trim (text ++ [c]) = trim text := by
  rw [trim_eq, trim_eq, List.dropWhile_append]
  split
  · next blank =>
      rw [List.isEmpty_iff.mp blank, List.dropWhile_cons_of_pos white]
      rfl
  · rw [List.rdropWhile_concat_pos _ _ _ white]

theorem infix_trim_iff {word : Text} (trimmed : word.Trimmed) (text : Text) :
    word <:+: trim text ↔ word <:+: text := by
  have strip (word : Text) (filled : word ≠ []) (opened : word.Opened) (text : Text) :
      word <:+: text.dropWhile jsWhitespace ↔ word <:+: text := by
    induction text with
    | nil => rfl
    | cons c rest ih =>
        by_cases white : jsWhitespace c = true
        · have starts : word.head? ≠ some c := by
            intro first
            rw [opened c first] at white
            exact absurd white (by decide)
          rw [List.dropWhile_cons_of_pos white, ih, Joined.infix_cons_of_starts filled starts]
        · rw [List.dropWhile_cons_of_neg white]
  have back : Opened word.reverse := by
    intro c first
    rw [List.head?_reverse] at first
    exact trimmed.closed c first
  rw [trim_eq, List.rdropWhile, ← List.reverse_infix, List.reverse_reverse,
    strip word.reverse (by simpa using trimmed.1) back, List.reverse_infix,
    strip word trimmed.1 trimmed.opened]

theorem lines_append (text rest : Text) : lines (text ++ '\n' :: rest) = lines text ++ lines rest :=
  List.splitOn_append_cons_self text rest

theorem lines_joinLines {parts : List Text} (filled : parts ≠ [])
    (single : ∀ part ∈ parts, '\n' ∉ part) : lines (joinLines parts) = parts :=
  List.splitOn_intercalate '\n' single filled

theorem lines_single {text : Text} (single : '\n' ∉ text) : lines text = [text] :=
  List.splitOn_eq_singleton single

theorem lines_cons {c : Char} (single : c ≠ '\n') (rest : Text) :
    ∃ first others, lines rest = first :: others ∧ lines (c :: rest) = (c :: first) :: others := by
  have split := List.splitOn_cons_eq_if_modifyHead (a := '\n') c rest
  rw [if_neg (by simpa using single)] at split
  obtain ⟨first, others, listed⟩ := List.exists_cons_of_ne_nil (List.splitOn_ne_nil '\n' rest)
  refine ⟨first, others, listed, ?_⟩
  rw [lines, split, listed]
  rfl

theorem line_single {text line : Text} (listed : line ∈ lines text) : '\n' ∉ line := by
  induction text generalizing line with
  | nil =>
      rw [lines, List.splitOn_nil, List.mem_singleton] at listed
      rw [listed]
      exact List.not_mem_nil
  | cons c rest ih =>
      by_cases feed : c = '\n'
      · subst feed
        rw [← List.nil_append ('\n' :: rest), lines_append] at listed
        rcases List.mem_append.mp listed with before | later
        · rw [lines, List.splitOn_nil, List.mem_singleton] at before
          rw [before]
          exact List.not_mem_nil
        · exact ih later
      · obtain ⟨first, others, split, joined⟩ := lines_cons feed rest
        rw [joined] at listed
        rcases List.mem_cons.mp listed with rfl | later
        · have single := ih (split ▸ List.mem_cons_self : first ∈ lines rest)
          simp [single, Ne.symm feed]
        · exact ih (split ▸ List.mem_cons_of_mem _ later)

theorem lines_prefix {word : Text} (single : '\n' ∉ word) (rest : Text) :
    ∃ first others, lines (word ++ rest) = (word ++ first) :: others := by
  induction word with
  | nil =>
      obtain ⟨first, others, listed⟩ := List.exists_cons_of_ne_nil (List.splitOn_ne_nil '\n' rest)
      exact ⟨first, others, listed⟩
  | cons c word ih =>
      rw [List.mem_cons, not_or] at single
      obtain ⟨first, others, listed⟩ := ih single.2
      obtain ⟨line, later, split, joined⟩ := lines_cons (Ne.symm single.1) (word ++ rest)
      rw [listed] at split
      obtain ⟨rfl, rfl⟩ := List.cons.inj split
      exact ⟨first, others, joined⟩

theorem not_infix_of_lines {text word : Text} (single : '\n' ∉ word)
    (unstarted : ∀ line ∈ lines text, ¬word <+: line) : ¬ '\n' :: word <:+: text := by
  rintro ⟨before, after, rfl⟩
  have whole : before ++ '\n' :: word ++ after = before ++ '\n' :: (word ++ after) := by simp
  obtain ⟨first, others, listed⟩ := lines_prefix single after
  apply unstarted (word ++ first)
  · rw [whole, lines_append, listed]
    exact List.mem_append_right _ List.mem_cons_self
  · exact List.prefix_append word first

theorem not_break_of_lines {text : Text} (filled : ∀ line ∈ lines text, line ≠ []) :
    ¬"\n\n".toList <:+: text := by
  rintro ⟨before, after, rfl⟩
  have whole : before ++ "\n\n".toList ++ after = before ++ '\n' :: ([] ++ '\n' :: after) := by
    simp
  apply filled []
  · rw [whole, lines_append, lines_append]
    exact List.mem_append_right _ (List.mem_append_left _ List.mem_cons_self)
  · rfl

end Minerva.Text
