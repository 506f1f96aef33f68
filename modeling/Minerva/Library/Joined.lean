import Mathlib.Data.List.Infix

namespace Joined

variable {α : Type} {separator : α} {parts : List (List α)}

theorem part_infix (part : List α) (member : part ∈ parts) :
    part <:+: [separator].intercalate parts := by
  induction parts with
  | nil => exact absurd member List.not_mem_nil
  | cons head tail ih =>
      cases tail with
      | nil =>
          rw [List.mem_singleton.mp member, List.intercalate_singleton]
      | cons next rest =>
          rw [List.intercalate_cons_cons]
          rcases List.mem_cons.mp member with rfl | later
          · exact ⟨[], [separator] ++ [separator].intercalate (next :: rest), by simp⟩
          · exact (ih later).trans ⟨head ++ [separator], [], by simp⟩

theorem mem_intercalate {item : α} (member : item ∈ [separator].intercalate parts) :
    item = separator ∨ ∃ part ∈ parts, item ∈ part := by
  induction parts with
  | nil => exact absurd member List.not_mem_nil
  | cons head tail ih =>
      cases tail with
      | nil =>
          rw [List.intercalate_singleton] at member
          exact .inr ⟨head, List.mem_singleton_self _, member⟩
      | cons next rest =>
          rw [List.intercalate_cons_cons] at member
          rcases List.mem_append.mp member with first | later
          · rcases List.mem_append.mp first with inside | between
            · exact .inr ⟨head, List.mem_cons_self, inside⟩
            · exact .inl (List.mem_singleton.mp between)
          · rcases ih later with between | ⟨part, listed, inside⟩
            · exact .inl between
            · exact .inr ⟨part, List.mem_cons_of_mem _ listed, inside⟩

theorem infix_split {word left right : List α} (absent : separator ∉ word) :
    word <:+: left ++ separator :: right ↔ word <:+: left ∨ word <:+: right := by
  constructor
  · rintro ⟨before, after, whole⟩
    rw [List.append_assoc, List.append_eq_append_iff] at whole
    rcases whole with ⟨gap, inLeft, rest⟩ | ⟨gap, -, inRight⟩
    · rw [List.append_eq_append_iff] at rest
      rcases rest with ⟨more, inGap, -⟩ | ⟨more, crossing, later⟩
      · exact .inl ⟨before, more, by rw [inLeft, inGap, List.append_assoc]⟩
      · cases more with
        | nil =>
            rw [List.append_nil] at crossing
            exact .inl ⟨before, [], by rw [inLeft, crossing, List.append_nil]⟩
        | cons c tail =>
            cases later
            exact absurd (crossing ▸ List.mem_append_right gap List.mem_cons_self) absent
    · cases gap with
      | nil =>
          cases word with
          | nil => exact .inl (List.nil_infix)
          | cons c tail =>
              cases inRight
              exact absurd List.mem_cons_self absent
      | cons c tail =>
          cases inRight
          exact .inr ⟨tail, after, by simp⟩
  · rintro (inLeft | inRight)
    · exact inLeft.trans ⟨[], separator :: right, by simp⟩
    · exact inRight.trans ⟨left ++ [separator], [], by simp⟩

/-- A word without the separator is in one of the parts. -/
theorem infix_intercalate_iff {word : List α} (absent : separator ∉ word) (filled : word ≠ [])
    (parts : List (List α)) :
    word <:+: [separator].intercalate parts ↔ ∃ part ∈ parts, word <:+: part := by
  induction parts with
  | nil => simp [filled]
  | cons head tail ih =>
      cases tail with
      | nil => simp
      | cons next rest =>
          have split : [separator].intercalate (head :: next :: rest) =
              head ++ separator :: [separator].intercalate (next :: rest) := by
            simp [List.intercalate_cons_cons]
          rw [split, infix_split absent, ih]
          simp

theorem infix_cons_of_starts {word text : List α} {c : α} (filled : word ≠ [])
    (starts : word.head? ≠ some c) : word <:+: c :: text ↔ word <:+: text := by
  rw [List.infix_cons_iff]
  constructor
  · rintro (front | later)
    · cases word with
      | nil => exact absurd rfl filled
      | cons d rest =>
          have same := (List.cons_prefix_cons.mp front).1
          exact absurd (congrArg some same) starts
    · exact later
  · exact .inr

theorem infix_append_of_ends {word text : List α} {c : α} (filled : word ≠ [])
    (ends : word.getLast? ≠ some c) : word <:+: text ++ [c] ↔ word <:+: text := by
  rw [← List.reverse_infix, List.reverse_append, List.reverse_singleton, List.singleton_append,
    infix_cons_of_starts (by simpa using filled) (by simpa using ends), List.reverse_infix]

theorem not_infix_of_not_mem {word text : List α} {c : α} (inside : c ∈ word) (absent : c ∉ text) :
    ¬word <:+: text := fun found => absent (found.subset inside)

end Joined
