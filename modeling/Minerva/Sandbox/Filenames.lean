import Minerva.Library.PosixPath
import Minerva.Packs.Lines

namespace Minerva

def withoutSeparator (c : Char) : Char := if c = '/' ∨ c = '\\' then '_' else c

def sanitizeFilename (filename : Text) : Text :=
  -- Remove null bytes
  let sanitized := filename.filter (· != '\x00')
  -- Remove path separators
  let sanitized := sanitized.map withoutSeparator
  -- Remove leading dots (hidden files)
  let sanitized := sanitized.dropWhile (· == '.')
  -- Trim whitespace
  let sanitized := Text.trim sanitized
  -- Ensure not empty
  if sanitized = [] then "unnamed".toList else sanitized

/-- What a filename has to be for a file of its own, directly below a directory. -/
structure SafeName (name : Text) : Prop where
  filled : name ≠ []
  component : PosixPath.segments name = [name]
  clean : '\x00' ∉ name ∧ '/' ∉ name ∧ '\\' ∉ name
  visible : name.head? ≠ some '.'
  opened : name.Opened
  closed : name.Closed

/-- Without its NULs the filename begins with dots, or with none, then white space, then a dot. -/
def DotBehindBlank (filename : Text) : Prop :=
  ∃ dots blanks rest : Text, filename.filter (· != '\x00') = dots ++ blanks ++ '.' :: rest ∧
    (∀ c ∈ dots, c = '.') ∧ (∀ c ∈ blanks, jsWhitespace c = true) ∧ blanks ≠ []

def neutralized (filename : Text) : Text :=
  (filename.filter (· != '\x00')).map withoutSeparator

variable {filename name : Text}

theorem sanitizeFilename_eq (filename : Text) :
    sanitizeFilename filename =
      if Text.trim ((neutralized filename).dropWhile (· == '.')) = [] then "unnamed".toList
      else Text.trim ((neutralized filename).dropWhile (· == '.')) := rfl

theorem withoutSeparator_ne (c : Char) : withoutSeparator c ≠ '/' ∧ withoutSeparator c ≠ '\\' := by
  unfold withoutSeparator
  split
  · decide
  · next plain => exact not_or.mp plain

theorem withoutSeparator_pred {p : Char → Bool} (slash : p '/' = false) (back : p '\\' = false)
    (line : p '_' = false) : p ∘ withoutSeparator = p := by
  funext c
  unfold Function.comp withoutSeparator
  split
  · next separator => rcases separator with rfl | rfl <;> simp [slash, back, line]
  · rfl

theorem withoutSeparator_eq_self {c : Char} (slash : c ≠ '/') (back : c ≠ '\\') :
    withoutSeparator c = c := if_neg (not_or.mpr ⟨slash, back⟩)

theorem neutralized_clean (filename : Text) :
    '\x00' ∉ neutralized filename ∧ '/' ∉ neutralized filename ∧ '\\' ∉ neutralized filename := by
  unfold neutralized
  refine ⟨?_, ?_, ?_⟩
  · intro member
    obtain ⟨c, kept, same⟩ := List.mem_map.mp member
    have plain : c ≠ '\x00' := by simpa using (List.mem_filter.mp kept).2
    unfold withoutSeparator at same
    split at same
    · exact absurd same (by decide)
    · exact plain same
  · intro member
    obtain ⟨c, _, same⟩ := List.mem_map.mp member
    exact (withoutSeparator_ne c).1 same
  · intro member
    obtain ⟨c, _, same⟩ := List.mem_map.mp member
    exact (withoutSeparator_ne c).2 same

theorem neutralized_eq_self (clean : '\x00' ∉ name ∧ '/' ∉ name ∧ '\\' ∉ name) :
    neutralized name = name := by
  have kept : name.filter (· != '\x00') = name := by
    apply List.filter_eq_self.mpr
    intro c member
    have other : c ≠ '\x00' := fun same => clean.1 (same ▸ member)
    simpa using other
  have same : ∀ c ∈ name, withoutSeparator c = id c := by
    intro c member
    exact withoutSeparator_eq_self (fun slash => clean.2.1 (slash ▸ member))
      (fun back => clean.2.2 (back ▸ member))
  rw [neutralized, kept, List.map_congr_left same, List.map_id]

theorem neutralized_length_le (name : Text) : (neutralized name).length ≤ name.length := by
  rw [neutralized, List.length_map]
  exact List.length_filter_le _ _

theorem sanitizeFilename_clean (filename : Text) :
    '\x00' ∉ sanitizeFilename filename ∧ '/' ∉ sanitizeFilename filename ∧
      '\\' ∉ sanitizeFilename filename := by
  rw [sanitizeFilename_eq]
  split
  · decide
  · have below {c : Char}
        (member : c ∈ Text.trim ((neutralized filename).dropWhile (· == '.'))) :
        c ∈ neutralized filename :=
      (List.dropWhile_suffix _).subset ((Text.trim_infix _).subset member)
    obtain ⟨nul, slash, back⟩ := neutralized_clean filename
    exact ⟨fun member => nul (below member), fun member => slash (below member),
      fun member => back (below member)⟩

theorem sanitizeFilename_filled (filename : Text) : sanitizeFilename filename ≠ [] := by
  rw [sanitizeFilename_eq]
  split
  · decide
  · assumption

theorem sanitizeFilename_trimmed (filename : Text) :
    (sanitizeFilename filename).Opened ∧ (sanitizeFilename filename).Closed := by
  rw [sanitizeFilename_eq]
  split
  · exact (Text.trim_eq_self_iff _).mp (by decide)
  · exact ⟨Text.trim_opened _, Text.trim_closed _⟩

theorem segments_of_no_separator (plain : '/' ∉ name) : PosixPath.segments name = [name] := by
  induction name with
  | nil => rfl
  | cons c rest ih =>
      have below := ih (fun member => plain (List.mem_cons_of_mem _ member))
      have other : c ≠ '/' := fun same => plain (same ▸ List.mem_cons_self)
      rw [PosixPath.segments] at below ⊢
      rw [List.splitOn_cons_eq_if_modifyHead, if_neg (by simpa using other), below]
      rfl

theorem sanitizeFilename_of_safe (safe : SafeName name) : sanitizeFilename name = name := by
  have undotted : name.dropWhile (· == '.') = name := by
    cases name with
    | nil => rfl
    | cons c rest =>
        have other : c ≠ '.' := fun same => safe.visible (by rw [same]; rfl)
        exact List.dropWhile_cons_of_neg (by simpa using other)
  have trimmed := (Text.trim_eq_self_iff name).mpr ⟨safe.opened, safe.closed⟩
  rw [sanitizeFilename_eq, neutralized_eq_self safe.clean, undotted, trimmed, if_neg safe.filled]

theorem sanitizeFilename_ne_of_dot (hidden : name.head? = some '.') :
    sanitizeFilename name ≠ name := by
  obtain ⟨rest, rfl⟩ := List.head?_eq_some_iff.mp hidden
  rw [sanitizeFilename_eq]
  split
  · intro same
    exact absurd (congrArg List.head? same) (by simp)
  · intro same
    have dropped : neutralized ('.' :: rest) = '.' :: neutralized rest := rfl
    have shorter : ('.' :: rest : Text).length ≤ rest.length := calc
      ('.' :: rest : Text).length
          = (Text.trim ((neutralized ('.' :: rest)).dropWhile (· == '.'))).length := by rw [same]
      _ ≤ ((neutralized ('.' :: rest)).dropWhile (· == '.')).length :=
          (Text.trim_infix _).length_le
      _ = ((neutralized rest).dropWhile (· == '.')).length := by
          rw [dropped, List.dropWhile_cons_of_pos (by decide)]
      _ ≤ (neutralized rest).length := (List.dropWhile_suffix _).length_le
      _ ≤ rest.length := neutralized_length_le rest
    exact absurd shorter (by simp)

/-- What trimming brings to the front. -/
theorem head_trim {c : Char} (visible : jsWhitespace c = false) (text : Text) :
    (Text.trim text).head? = some c ↔ (text.dropWhile jsWhitespace).head? = some c := by
  have kept := List.rdropWhile_prefix jsWhitespace (text.dropWhile jsWhitespace)
  rw [← Text.trim_eq] at kept
  obtain ⟨rest, whole⟩ := kept
  constructor
  · intro first
    rw [← whole, List.head?_append, first]
    rfl
  · intro first
    obtain ⟨behind, split⟩ := List.head?_eq_some_iff.mp first
    have filled : Text.trim text ≠ [] := by
      intro empty
      rw [Text.trim_eq, List.rdropWhile_eq_nil_iff] at empty
      have white := empty c (split ▸ List.mem_cons_self)
      rw [visible] at white
      cases white
    rw [← whole, List.head?_append_of_ne_nil _ filled] at first
    exact first

theorem behind_dots_and_blanks (text : Text) :
    ((text.dropWhile (· == '.')).dropWhile jsWhitespace).head? = some '.' ↔
      ∃ dots blanks rest : Text, text = dots ++ blanks ++ '.' :: rest ∧
        (∀ c ∈ dots, c = '.') ∧ (∀ c ∈ blanks, jsWhitespace c = true) ∧ blanks ≠ [] := by
  constructor
  · intro first
    obtain ⟨rest, behind⟩ := List.head?_eq_some_iff.mp first
    have dotted := List.takeWhile_append_dropWhile (p := (· == '.')) (l := text)
    have blank := List.takeWhile_append_dropWhile (p := jsWhitespace)
      (l := text.dropWhile (· == '.'))
    refine ⟨text.takeWhile (· == '.'), (text.dropWhile (· == '.')).takeWhile jsWhitespace, rest,
      ?_, ?_, ?_, ?_⟩
    · rw [List.append_assoc, ← behind, blank, dotted]
    · intro c member
      simpa using List.mem_takeWhile_imp member
    · intro c member
      exact List.mem_takeWhile_imp member
    · intro empty
      rw [empty, List.nil_append, behind] at blank
      have refused := List.head?_dropWhile_not (· == '.') text
      rw [← blank] at refused
      exact absurd refused (by simp)
  · rintro ⟨dots, blanks, rest, rfl, dotted, white, filled⟩
    have undotted : (dots ++ blanks ++ '.' :: rest).dropWhile (· == '.') =
        blanks ++ '.' :: rest := by
      rw [List.append_assoc, List.dropWhile_append_of_pos (by simpa using dotted)]
      cases blanks with
      | nil => exact absurd rfl filled
      | cons c others =>
          have blank := white c List.mem_cons_self
          refine List.dropWhile_cons_of_neg ?_
          rw [beq_iff_eq]
          rintro rfl
          exact absurd blank (by decide)
    rw [undotted, List.dropWhile_append_of_pos white, List.dropWhile_cons_of_neg (by decide)]
    rfl

theorem sanitizeFilename_dot (filename : Text) :
    (sanitizeFilename filename).head? = some '.' ↔ DotBehindBlank filename := by
  have dots : (· == '.') ∘ withoutSeparator = (· == '.') :=
    withoutSeparator_pred (by decide) (by decide) (by decide)
  have blanks : jsWhitespace ∘ withoutSeparator = jsWhitespace :=
    withoutSeparator_pred (by decide) (by decide) (by decide)
  have dotOnly (c : Char) : withoutSeparator c = '.' ↔ c = '.' := by
    unfold withoutSeparator
    split
    · next separator => rcases separator with rfl | rfl <;> decide
    · exact Iff.rfl
  have named : (sanitizeFilename filename).head? = some '.' ↔
      (Text.trim ((neutralized filename).dropWhile (· == '.'))).head? = some '.' := by
    rw [sanitizeFilename_eq]
    split
    · next empty => simp [empty]
    · exact Iff.rfl
  calc (sanitizeFilename filename).head? = some '.'
      ↔ (((neutralized filename).dropWhile (· == '.')).dropWhile jsWhitespace).head? = some '.' :=
        named.trans (head_trim (by decide) _)
    _ ↔ ((((filename.filter (· != '\x00')).dropWhile (· == '.')).dropWhile jsWhitespace).map
          withoutSeparator).head? = some '.' := by
        rw [neutralized, List.dropWhile_map, dots, List.dropWhile_map, blanks]
    _ ↔ (((filename.filter (· != '\x00')).dropWhile (· == '.')).dropWhile jsWhitespace).head? =
          some '.' := by
        rw [List.head?_map, Option.map_eq_some_iff]
        simp [dotOnly]
    _ ↔ DotBehindBlank filename := behind_dots_and_blanks _

/-- The passes make a safe name that they then leave alone, unless white space kept a dot from
the third pass that the fourth one uncovers. -/
theorem sanitized_name_is_safe (filename : Text) :
    (SafeName (sanitizeFilename filename) ∧
      sanitizeFilename (sanitizeFilename filename) = sanitizeFilename filename) ↔
      ¬DotBehindBlank filename := by
  rw [← sanitizeFilename_dot]
  constructor
  · rintro ⟨safe, _⟩
    exact safe.visible
  · intro visible
    have clean := sanitizeFilename_clean filename
    have trimmed := sanitizeFilename_trimmed filename
    have safe : SafeName (sanitizeFilename filename) :=
      ⟨sanitizeFilename_filled filename, segments_of_no_separator clean.2.1, clean, visible,
        trimmed.1, trimmed.2⟩
    exact ⟨safe, sanitizeFilename_of_safe safe⟩

/-- Where it goes wrong, both parts do: the name is hidden and the passes change it again. -/
theorem hidden_name_changes (blank : DotBehindBlank filename) :
    ¬SafeName (sanitizeFilename filename) ∧
      sanitizeFilename (sanitizeFilename filename) ≠ sanitizeFilename filename := by
  have hidden := (sanitizeFilename_dot filename).mpr blank
  exact ⟨fun safe => safe.visible hidden, sanitizeFilename_ne_of_dot hidden⟩

theorem blank_before_dot_stays_hidden :
    sanitizeFilename " .hidden".toList = ".hidden".toList ∧
      ¬∀ filename, SafeName (sanitizeFilename filename) ∧
        sanitizeFilename (sanitizeFilename filename) = sanitizeFilename filename := by
  have uncovered : sanitizeFilename " .hidden".toList = ".hidden".toList := by decide
  refine ⟨uncovered, ?_⟩
  intro always
  have visible := (always " .hidden".toList).1.visible
  rw [uncovered] at visible
  exact visible rfl

end Minerva
