import Minerva.Packs.Headings

namespace Minerva

open Regex Document

def bulletList (rules : List Text) : Text := Text.joinLines (rules.map ("- ".toList ++ ·))

section Cut

variable {text : Text}

theorem sectionEnds_iff (rest : Text) :
    PackLoader.sectionEnds rest = true ↔ "\n##".toList <+: rest ∨ rest = [] := by
  simp [PackLoader.sectionEnds]

theorem upTo_sectionEnds (unbroken : ¬"\n##".toList <:+: text) :
    upTo PackLoader.sectionEnds text = text := by
  have going (part : Text) (filled : part ≠ []) (behind : part <:+ text) :
      PackLoader.sectionEnds (part ++ []) = false := by
    rw [List.append_nil, Bool.eq_false_iff, ne_eq, sectionEnds_iff]
    rintro (front | empty)
    · exact unbroken (front.isInfix.trans behind.isInfix)
    · exact filled empty
  simpa [upTo] using upTo_append PackLoader.sectionEnds text [] going

theorem upTo_sectionEnds_next (unbroken : ¬"\n##".toList <:+: text) (rest : Text) :
    upTo PackLoader.sectionEnds (text ++ "\n\n".toList ++ ("##".toList ++ rest)) =
      text ++ ['\n'] := by
  have ends : upTo PackLoader.sectionEnds ("\n\n".toList ++ ("##".toList ++ rest)) = ['\n'] := by
    simp [upTo, PackLoader.sectionEnds]
  rw [List.append_assoc, upTo_append _ text, ends]
  intro part filled behind
  rw [Bool.eq_false_iff, ne_eq, sectionEnds_iff]
  rintro (front | empty)
  · rcases part with _ | ⟨a, _ | ⟨b, _ | ⟨c, more⟩⟩⟩
    · exact filled rfl
    · simp at front
    · simp at front
    · have inside : "\n##".toList <+: a :: b :: c :: more := by simpa using front
      exact unbroken (inside.isInfix.trans behind.isInfix)
  · simp at empty

theorem paragraphEnds_iff (rest : Text) : PackLoader.paragraphEnds rest = true ↔
    "\n\n".toList <+: rest ∨ "\n##".toList <+: rest ∨ rest = [] := by
  simp [PackLoader.paragraphEnds, or_assoc]

theorem someUpTo_paragraphEnds (filled : text ≠ []) (whole : ¬"\n\n".toList <:+: text)
    (unbroken : ¬"\n##".toList <:+: text) : someUpTo PackLoader.paragraphEnds text = some text := by
  cases text with
  | nil => exact absurd rfl filled
  | cons c more =>
      have going (part : Text) (filled : part ≠ []) (behind : part <:+ more) :
          PackLoader.paragraphEnds (part ++ []) = false := by
        have inside : part <:+: c :: more := (behind.trans (List.suffix_cons c more)).isInfix
        rw [List.append_nil, Bool.eq_false_iff, ne_eq, paragraphEnds_iff]
        rintro (front | front | empty)
        · exact whole (front.isInfix.trans inside)
        · exact unbroken (front.isInfix.trans inside)
        · exact filled empty
      have uncut := upTo_append PackLoader.paragraphEnds more [] going
      simp only [List.append_nil, upTo] at uncut
      rw [someUpTo, uncut]

theorem someUpTo_sectionEnds (filled : text ≠ []) (unbroken : ¬"\n##".toList <:+: text) :
    someUpTo PackLoader.sectionEnds text = some text := by
  obtain ⟨c, more, rfl⟩ := List.exists_cons_of_ne_nil filled
  rw [someUpTo, upTo_sectionEnds (fun inside =>
    unbroken (inside.trans (List.suffix_cons c more).isInfix))]

theorem someUpTo_sectionEnds_next (filled : text ≠ []) (unbroken : ¬"\n##".toList <:+: text)
    (rest : Text) :
    someUpTo PackLoader.sectionEnds (text ++ "\n\n".toList ++ ("##".toList ++ rest)) =
      some (text ++ ['\n']) := by
  obtain ⟨c, more, rfl⟩ := List.exists_cons_of_ne_nil filled
  have cut := upTo_sectionEnds_next (fun inside =>
    unbroken (inside.trans (List.suffix_cons c more).isInfix)) rest
  rw [List.cons_append, List.cons_append, someUpTo, cut]
  rfl

theorem headed_plain {line : Text} (single : '\n' ∉ line) (unmarked : ¬"##".toList <+: line)
    (plain : ∀ line ∈ text.lines, ¬"##".toList <+: line) :
    ¬"\n##".toList <:+: '#' :: (line ++ "\n\n".toList ++ text) := by
  have parts : line ++ "\n\n".toList ++ text = line ++ '\n' :: ([] ++ '\n' :: text) := by simp
  have blank : Text.lines [] = [[]] := by decide
  have behind : ∀ other ∈ Text.lines (line ++ "\n\n".toList ++ text), ¬"##".toList <+: other := by
    rw [parts, Text.lines_append, Text.lines_append, Text.lines_single single, blank]
    intro other listed
    rcases List.mem_append.mp listed with first | later
    · rw [List.mem_singleton.mp first]
      exact unmarked
    · rcases List.mem_append.mp later with second | own
      · rw [List.mem_singleton.mp second]
        decide
      · exact plain other own
  have unbroken : ¬"\n##".toList <:+: line ++ "\n\n".toList ++ text :=
    Text.not_infix_of_lines (by decide) behind
  rw [@Joined.infix_cons_of_starts Char "\n##".toList _ '#' (by decide) (by decide)]
  exact unbroken

end Cut

namespace Document

def lastPart (text : Text) : Text := (lastSuffix (afterWord exactly "\n\n".toList) text).getD text

theorem afterEmptyLine_iff (text rest : Text) :
    afterWord exactly "\n\n".toList text = some rest ↔ text = "\n\n".toList ++ rest :=
  afterWord_exact_iff exactly (fun c d => by simp [exactly]) _ text rest

theorem not_break_iff (text : Text) : ¬"\n\n".toList <:+: text ↔
    lastSuffix (afterWord exactly "\n\n".toList) text = none := by
  constructor
  · intro whole
    apply lastSuffix_eq_none
    intro rest behind
    rw [Option.eq_none_iff_forall_ne_some]
    intro after found
    rw [afterEmptyLine_iff] at found
    exact whole ((found ▸ List.prefix_append _ after : "\n\n".toList <+: rest).isInfix.trans
      behind.isInfix)
  · rintro absent ⟨front, after, whole⟩
    have behind : "\n\n".toList ++ after <:+ text := ⟨front, by rw [← whole, List.append_assoc]⟩
    have none_found := lastSuffix_none absent _ behind
    rw [(afterEmptyLine_iff _ after).mpr rfl] at none_found
    cases none_found

theorem lastSuffix_afterBreak {text : Text} (closed : text.Closed)
    (unbroken : ¬"\n##".toList <:+: text) :
    lastSuffix afterBreak text = lastSuffix (afterWord exactly "\n\n".toList) text := by
  induction text with
  | nil => rfl
  | cons c more ih =>
      have later := ih (closed.suffix (List.suffix_cons c more))
        (fun inside => unbroken (inside.trans (List.suffix_cons c more).isInfix))
      rw [lastSuffix, lastSuffix, later]
      cases found : lastSuffix (afterWord exactly "\n\n".toList) more with
      | some result => rfl
      | none =>
          rw [Option.none_or, Option.none_or, afterBreak]
          cases here : afterWord exactly "\n\n".toList (c :: more) with
          | none => rfl
          | some rest =>
              have whole := (afterEmptyLine_iff _ rest).mp here
              have behind : rest <:+ more := by
                rw [(List.cons.inj whole).2]
                exact List.suffix_cons '\n' rest
              have filled : rest ≠ [] := by
                rintro rfl
                rw [whole] at closed
                exact absurd (closed '\n' rfl) (by decide)
              have single : ¬"\n\n".toList <:+: rest := fun inside =>
                (not_break_iff more).mpr found (inside.trans behind.isInfix)
              exact someUpTo_paragraphEnds filled single (fun inside =>
                unbroken (inside.trans (behind.trans (List.suffix_cons c more)).isInfix))

theorem lastSuffix_afterBreak_rendered {text : Text} (trimmed : text.Trimmed)
    (unbroken : ¬"\n##".toList <:+: text) (front : Text) :
    lastSuffix afterBreak (front ++ ("\n\n".toList ++ text)) = some (lastPart text) := by
  have own := lastSuffix_afterBreak trimmed.closed unbroken
  unfold lastPart
  cases found : lastSuffix (afterWord exactly "\n\n".toList) text with
  | some result =>
      rw [found] at own
      rw [← List.append_assoc]
      exact lastSuffix_append own _
  | none =>
      rw [found] at own
      apply lastSuffix_append
      have second : afterBreak ('\n' :: text) = none := by
        rw [afterBreak]
        cases after : afterWord exactly "\n\n".toList ('\n' :: text) with
        | none => rfl
        | some rest =>
            have whole := (afterEmptyLine_iff _ rest).mp after
            have starts : text.head? = some '\n' := by
              rw [(List.cons.inj whole).2]
              rfl
            exact absurd (trimmed.opened '\n' starts) (by decide)
      have first : afterBreak ("\n\n".toList ++ text) = some text := by
        rw [afterBreak, (afterEmptyLine_iff _ text).mpr rfl]
        exact someUpTo_paragraphEnds trimmed.1 ((not_break_iff text).mpr found) unbroken
      have steps : lastSuffix afterBreak ("\n\n".toList ++ text) =
          ((lastSuffix afterBreak text).or (afterBreak ('\n' :: text))).or
            (afterBreak ("\n\n".toList ++ text)) := rfl
      rw [steps, own, second, first]
      rfl

end Document

namespace PackLoader

section Bullets

theorem bullets_append (text rest : Text) :
    bullets (text ++ '\n' :: rest) = bullets text ++ bullets rest := by
  simp [bullets, Text.lines_append]

theorem bullets_snoc (text : Text) : bullets (text ++ ['\n']) = bullets text := by
  have none : bullets [] = [] := by decide
  rw [bullets_append, none, List.append_nil]

theorem bullets_single {line : Text} (single : '\n' ∉ line) :
    bullets line = if isBullet line.trim then [withoutBullet line.trim] else [] := by
  rw [bullets, Text.lines_single single, List.map_singleton]
  by_cases bullet : isBullet line.trim = true <;> simp [bullet]

theorem bullets_heading (text : Text) (heading : Text) (single : '\n' ∉ heading)
    (plain : isBullet heading.trim = false) :
    bullets (heading ++ "\n\n".toList ++ text) = bullets text := by
  have lines : heading ++ "\n\n".toList ++ text = heading ++ '\n' :: ([] ++ '\n' :: text) := by simp
  have none : bullets [] = [] := by decide
  rw [lines, bullets_append, bullets_append, none, bullets_single single, plain]
  rfl

theorem bullet_line {rule : Text} (trimmed : rule.Trimmed) (single : '\n' ∉ rule) :
    bullets ("- ".toList ++ rule) = [rule] := by
  have line_trimmed : Text.trim ("- ".toList ++ rule) = "- ".toList ++ rule := by
    rw [Text.trim_eq_self_iff]
    constructor
    · intro c first
      cases first
      decide
    · exact trimmed.closed.append trimmed.1
  have line_single : '\n' ∉ "- ".toList ++ rule := by simp [single]
  have bullet : isBullet ("- ".toList ++ rule) = true := by simp [isBullet]
  have text : withoutBullet ("- ".toList ++ rule) = rule := by
    have space : jsWhitespace ' ' = true := by decide
    simp [withoutBullet, space, trimmed.opened.dropWhile]
  rw [bullets_single line_single, line_trimmed, if_pos bullet, text]

theorem bullets_bulletList {rules : List Text} (trimmed : ∀ rule ∈ rules, rule.Trimmed)
    (single : ∀ rule ∈ rules, '\n' ∉ rule) : bullets (bulletList rules) = rules := by
  induction rules with
  | nil => decide
  | cons rule others ih =>
      obtain ⟨first, later⟩ := List.forall_mem_cons.mp trimmed
      obtain ⟨first_single, later_single⟩ := List.forall_mem_cons.mp single
      have line := bullet_line first first_single
      cases others with
      | nil => simpa [bulletList, Text.joinLines] using line
      | cons next rest =>
          have joined : bulletList (rule :: next :: rest) =
              "- ".toList ++ rule ++ '\n' :: bulletList (next :: rest) := by
            simp [bulletList, Text.joinLines]
          rw [joined, bullets_append, line, ih later later_single]
          rfl

end Bullets

section BulletList

variable {rules : List Text} (filled : rules ≠ [])

include filled

theorem bulletList_trimmed (trimmed : ∀ rule ∈ rules, rule.Trimmed) :
    (bulletList rules).Trimmed := by
  induction rules with
  | nil => exact absurd rfl filled
  | cons rule others ih =>
      obtain ⟨first, later⟩ := List.forall_mem_cons.mp trimmed
      have opened (rest : Text) : Text.Opened ("- ".toList ++ rule ++ rest) := by
        intro c head
        cases head
        decide
      have line_closed : Text.Closed ("- ".toList ++ rule) := first.closed.append first.1
      cases others with
      | nil =>
          have line : bulletList [rule] = "- ".toList ++ rule := by simp [bulletList, Text.joinLines]
          rw [line]
          refine ⟨by simp, (Text.trim_eq_self_iff _).mpr ⟨?_, line_closed⟩⟩
          simpa using opened []
      | cons next rest =>
          have joined : bulletList (rule :: next :: rest) =
              "- ".toList ++ rule ++ '\n' :: bulletList (next :: rest) := by
            simp [bulletList, Text.joinLines]
          obtain ⟨more, closed⟩ := ih (List.cons_ne_nil _ _) later
          rw [joined]
          refine ⟨by simp, (Text.trim_eq_self_iff _).mpr ⟨opened _, ?_⟩⟩
          rw [List.append_cons]
          exact ((Text.trim_eq_self_iff _).mp closed).2.append more

variable (single : ∀ rule ∈ rules, '\n' ∉ rule)

include single

theorem bulletList_lines : (bulletList rules).lines = rules.map ("- ".toList ++ ·) := by
  apply Text.lines_joinLines (by simpa using filled)
  intro line listed
  obtain ⟨rule, member, rfl⟩ := List.mem_map.mp listed
  simp [single rule member]

theorem bulletList_unbroken : ¬"\n\n".toList <:+: bulletList rules := by
  apply Text.not_break_of_lines
  rw [bulletList_lines filled single]
  intro line listed
  obtain ⟨rule, member, rfl⟩ := List.mem_map.mp listed
  simp

theorem bulletList_unmarked : ∀ line ∈ (bulletList rules).lines, ¬"##".toList <+: line := by
  rw [bulletList_lines filled single]
  intro line listed
  obtain ⟨rule, member, rfl⟩ := List.mem_map.mp listed
  simp

theorem bulletList_plain : ¬"\n##".toList <:+: bulletList rules :=
  Text.not_infix_of_lines (by decide) (bulletList_unmarked filled single)

omit filled single in
theorem rules_heading : "## Rules\n\n".toList ++ bulletList rules =
    "## Rules".toList ++ "\n\n".toList ++ bulletList rules := by simp

theorem bulletList_headed : ¬"\n##".toList <:+: "## Rules\n\n".toList ++ bulletList rules := by
  have whole : "## Rules\n\n".toList ++ bulletList rules =
      '#' :: ("# Rules".toList ++ "\n\n".toList ++ bulletList rules) := by simp
  rw [whole]
  exact headed_plain (by decide) (by decide) (bulletList_unmarked filled single)

end BulletList

end PackLoader

end Minerva
