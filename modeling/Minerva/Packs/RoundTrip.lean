import Minerva.Packs.Assembler
import Minerva.Packs.Sections

namespace Minerva

open Regex Document

/-- A name and rules of one line, a description of one paragraph, and no line of the description or
the stance that begins like the heading of a section. -/
structure Renderable (identity : AgentIdentity) : Prop where
  name : identity.name.Trimmed
  name_single : '\n' ∉ identity.name
  description : identity.description.Trimmed
  description_lines : ∀ line ∈ identity.description.lines,
    line.trim ≠ [] ∧ ¬"##".toList <+: line
  stance : identity.stance.Trimmed
  stance_lines : ∀ line ∈ identity.stance.lines, ¬"##".toList <+: line
  rules : ∀ rule ∈ identity.rules, rule.Trimmed
  rules_single : ∀ rule ∈ identity.rules, '\n' ∉ rule

def renderedRules (identity : AgentIdentity) : Text :=
  if identity.rules = [] then []
  else "\n\n".toList ++ ("## Rules\n\n".toList ++ bulletList identity.rules)

def renderedSections (identity : AgentIdentity) : Text :=
  "## Stance\n\n".toList ++ (identity.stance ++ renderedRules identity)

theorem buildIdentitySection_eq (identity : AgentIdentity) (filled : identity.stance ≠ []) :
    SystemPromptAssembler.buildIdentitySection identity =
      "# ".toList ++ (identity.name ++ "\n\n".toList ++
        (identity.description ++ "\n\n".toList ++ renderedSections identity)) := by
  unfold SystemPromptAssembler.buildIdentitySection renderedSections renderedRules
  rw [if_neg filled]
  by_cases ruled : identity.rules = []
  · simp [ruled, Text.joinLines]
  · obtain ⟨rule, others, listed⟩ := List.exists_cons_of_ne_nil ruled
    simp [listed, Text.joinLines, bulletList]

namespace PackLoader

variable {identity : AgentIdentity}

theorem sections_split : renderedSections identity =
    "## Stance\n\n".toList ++ identity.stance ++ renderedRules identity := by
  exact (List.append_assoc "## Stance\n\n".toList identity.stance (renderedRules identity)).symm

theorem sections_marked : renderedSections identity = "##".toList ++ (" Stance\n\n".toList ++
    (identity.stance ++ renderedRules identity)) := by
  exact List.append_assoc "##".toList " Stance\n\n".toList _

theorem firstHead_stance : firstHead "Stance".toList (renderedSections identity) =
    some (identity.stance ++ renderedRules identity) := by
  unfold renderedSections
  generalize identity.stance ++ renderedRules identity = rest
  rfl

theorem firstHead_rules : firstHead "Rules".toList ("## Rules\n\n".toList ++ bulletList identity.rules) =
    some (bulletList identity.rules) := by
  generalize bulletList identity.rules = rest
  rfl

section Read

variable {text : Text} (unbroken : ¬"\n##".toList <:+: text)

include unbroken

theorem section_before_rules (trimmed : text.Trimmed) :
    (someUpTo sectionEnds (text ++ renderedRules identity)).map Text.trim = some text := by
  unfold renderedRules
  split
  · rw [List.append_nil, someUpTo_sectionEnds trimmed.1 unbroken, Option.map_some, trimmed.2]
  · have next := someUpTo_sectionEnds_next trimmed.1 unbroken
      (" Rules\n\n".toList ++ bulletList identity.rules)
    have whole : text ++ ("\n\n".toList ++ ("## Rules\n\n".toList ++ bulletList identity.rules)) =
        text ++ "\n\n".toList ++ ("##".toList ++ (" Rules\n\n".toList ++
          bulletList identity.rules)) := by simp
    rw [whole, next, Option.map_some, Text.trim_snoc text (by decide), trimmed.2]

theorem bullets_before_rules :
    bullets (upTo sectionEnds (text ++ renderedRules identity)) = bullets text := by
  unfold renderedRules
  split
  · rw [List.append_nil, upTo_sectionEnds unbroken]
  · have next := upTo_sectionEnds_next unbroken (" Rules\n\n".toList ++ bulletList identity.rules)
    have whole : text ++ ("\n\n".toList ++ ("## Rules\n\n".toList ++ bulletList identity.rules)) =
        text ++ "\n\n".toList ++ ("##".toList ++ (" Rules\n\n".toList ++
          bulletList identity.rules)) := by simp
    rw [whole, next, bullets_snoc]

end Read

variable (renderable : Renderable identity)

include renderable

theorem description_unbroken : ¬"\n\n".toList <:+: identity.description := by
  apply Text.not_break_of_lines
  intro line listed empty
  subst empty
  exact (renderable.description_lines [] listed).1 rfl

theorem description_plain : ¬"\n##".toList <:+: identity.description :=
  Text.not_infix_of_lines (by decide) (fun line listed => (renderable.description_lines line listed).2)

theorem stance_plain : ¬"\n##".toList <:+: identity.stance :=
  Text.not_infix_of_lines (by decide) renderable.stance_lines

theorem heading_rendered (rest : Text) :
    heading ("# ".toList ++ (identity.name ++ "\n\n".toList ++ rest)) =
      some (Text.trim (identity.name.takeWhile (fun c => !lineTerminator c))) := by
  have shown : title (identity.name ++ "\n\n".toList ++ rest) =
      some (Text.trim (identity.name.takeWhile (fun c => !lineTerminator c))) := by
    have opened := renderable.name.opened.append renderable.name.1 ("\n\n".toList ++ rest)
    have taken : (identity.name ++ ("\n\n".toList ++ rest)).takeWhile (fun c => !lineTerminator c) =
        identity.name.takeWhile (fun c => !lineTerminator c) := by
      have ends : ("\n\n".toList ++ rest).takeWhile (fun c => !lineTerminator c) = [] :=
        List.takeWhile_cons_of_neg (by decide)
      rw [List.takeWhile_append, ends, List.append_nil]
      split
      · next all => exact (List.takeWhile_prefix _).eq_of_length all |>.symm
      · rfl
    unfold title
    rw [List.append_assoc, opened.dropWhile]
    cases visible : identity.name with
    | nil => exact absurd visible renderable.name.1
    | cons c more =>
        rw [visible] at taken
        simp only [List.cons_append] at taken ⊢
        rw [taken]
  have first : headingAt none ("# ".toList ++ (identity.name ++ "\n\n".toList ++ rest)) =
      title (identity.name ++ "\n\n".toList ++ rest) := rfl
  have place : heading ("# ".toList ++ (identity.name ++ "\n\n".toList ++ rest)) =
      (headingAt none ("# ".toList ++ (identity.name ++ "\n\n".toList ++ rest))).or
        (firstPlace headingAt (some '#') (' ' :: (identity.name ++ "\n\n".toList ++ rest))) := rfl
  rw [place, first, shown]
  rfl

theorem name_read_iff : (parseIdentity (SystemPromptAssembler.buildIdentitySection identity)).name =
    identity.name ↔ ∀ c ∈ identity.name, lineTerminator c = false := by
  rw [buildIdentitySection_eq identity renderable.stance.1]
  have read : (parseIdentity ("# ".toList ++ (identity.name ++ "\n\n".toList ++
      (identity.description ++ "\n\n".toList ++ renderedSections identity)))).name =
        Text.trim (identity.name.takeWhile (fun c => !lineTerminator c)) := by
    unfold parseIdentity
    simp only
    rw [heading_eq, heading_rendered renderable]
    rfl
  rw [read]
  constructor
  · intro same
    have shorter := (Text.trim_infix (identity.name.takeWhile (fun c => !lineTerminator c))).length_le
    rw [same] at shorter
    have whole := (List.takeWhile_prefix (fun c => !lineTerminator c)).eq_of_length_le shorter
    intro c member
    rw [← whole] at member
    simpa using List.mem_takeWhile_imp member
  · intro plain
    have whole : identity.name.takeWhile (fun c => !lineTerminator c) = identity.name :=
      List.takeWhile_eq_self_iff.mpr (fun c member => by simp [plain c member])
    rw [whole, renderable.name.2]

/-- What is read as the description: the list of the rules or, without rules, the last paragraph of
the stance. -/
def lastParagraphOf (identity : AgentIdentity) : Text :=
  if identity.rules = [] then (lastPart identity.stance).trim else bulletList identity.rules

theorem lastParagraph_rendered :
    (lastParagraph (SystemPromptAssembler.buildIdentitySection identity)).map Text.trim =
      some (lastParagraphOf identity) := by
  rw [buildIdentitySection_eq identity renderable.stance.1]
  obtain ⟨c, more, name⟩ := List.exists_cons_of_ne_nil renderable.name.1
  have skipped (rest : Text) : lastParagraph ("# ".toList ++ (identity.name ++ rest)) =
      lastSuffix afterBreak (more ++ rest) := by
    rw [name]
    rfl
  rw [List.append_assoc identity.name, skipped]
  unfold renderedSections renderedRules lastParagraphOf
  by_cases ruled : identity.rules = []
  · rw [if_pos ruled, if_pos ruled]
    have whole : more ++ ("\n\n".toList ++ (identity.description ++ "\n\n".toList ++
        ("## Stance\n\n".toList ++ (identity.stance ++ [])))) =
        (more ++ "\n\n".toList ++ identity.description ++ "\n\n## Stance".toList) ++
          ("\n\n".toList ++ identity.stance) := by simp
    rw [whole, lastSuffix_afterBreak_rendered renderable.stance (stance_plain renderable)]
    rfl
  · rw [if_neg ruled, if_neg ruled]
    have listed := bulletList_trimmed ruled renderable.rules
    have whole : more ++ ("\n\n".toList ++ (identity.description ++ "\n\n".toList ++
        ("## Stance\n\n".toList ++ (identity.stance ++ ("\n\n".toList ++
          ("## Rules\n\n".toList ++ bulletList identity.rules)))))) =
        (more ++ "\n\n".toList ++ identity.description ++ "\n\n## Stance\n\n".toList ++
          identity.stance ++ "\n\n## Rules".toList) ++
            ("\n\n".toList ++ bulletList identity.rules) := by simp
    have part : lastPart (bulletList identity.rules) = bulletList identity.rules := by
      rw [lastPart, (not_break_iff _).mp
        (bulletList_unbroken ruled renderable.rules_single)]
      rfl
    rw [whole, lastSuffix_afterBreak_rendered listed
      (bulletList_plain ruled renderable.rules_single), part, Option.map_some,
      listed.2]

theorem description_read_iff :
    (parseIdentity (SystemPromptAssembler.buildIdentitySection identity)).description =
      identity.description ↔ identity.description = lastParagraphOf identity := by
  have read : (parseIdentity (SystemPromptAssembler.buildIdentitySection identity)).description =
      lastParagraphOf identity := by
    unfold parseIdentity
    simp only
    rw [lastParagraph_eq, lastParagraph_rendered renderable]
    rfl
  rw [read, eq_comm]

section Heads

omit renderable in
theorem firstHead_name (heading rest : Text) :
    firstHead heading ("# ".toList ++ rest) = firstHead heading rest := by
  have mark : afterHead heading ('#' :: ' ' :: rest) = none := by
    rw [afterHead, afterNamed, afterMark_cons_cons, if_neg (by decide)]
    rfl
  have space : firstHead heading (" ".toList ++ rest) = firstHead heading rest :=
    firstHead_plain (by decide) rest
  have steps : firstHead heading ("# ".toList ++ rest) =
      (afterHead heading ('#' :: ' ' :: rest)).or (firstHead heading (" ".toList ++ rest)) := rfl
  rw [steps, mark, space]
  rfl

variable {heading : Text} (titled : Titled heading)

include titled

/-- The description is the title of a heading that the name has begun. -/
def NameRunsOn (heading : Text) (identity : AgentIdentity) : Prop :=
  "##".toList <:+ identity.name ∧ afterWord sameLetter heading identity.description = some []

theorem description_is_title :
    (afterWord sameLetter heading (identity.description ++ "\n\n".toList ++
      renderedSections identity)).bind (afterWord sameLetter "\n\n".toList) =
      if afterWord sameLetter heading identity.description = some [] then
        some (renderedSections identity)
      else none := by
  have feeds : identity.description ++ "\n\n".toList ++ renderedSections identity =
      identity.description ++ '\n' :: '\n' :: renderedSections identity := by simp
  rw [feeds, afterWord_append titled.lined]
  cases named : afterWord sameLetter heading identity.description with
  | none => rfl
  | some behind =>
      have closed := renderable.description.closed.suffix (afterWord_suffix named)
      have whole : ¬"\n\n".toList <:+: behind := fun inside =>
        description_unbroken renderable (inside.trans (afterWord_suffix named).isInfix)
      match behind, closed, whole with
      | [], _, _ => rfl
      | [c], closed, _ =>
          have visible : c ≠ '\n' := by
            rintro rfl
            exact absurd (closed '\n' rfl) (by decide)
          rw [if_neg (by simp), Option.map_some, Option.bind_some, List.singleton_append,
            afterFeeds_cons_cons, if_neg (fun both => visible both.1)]
      | c :: d :: more, _, whole =>
          rw [if_neg (by simp), Option.map_some, Option.bind_some, List.cons_append,
            List.cons_append, afterFeeds_cons_cons, if_neg]
          rintro ⟨rfl, rfl⟩
          exact whole ⟨[], more, rfl⟩

variable (filled : heading ≠ [])

include filled

theorem firstHead_description :
    (EndsInHead heading identity.description →
      firstHead heading (identity.description ++ "\n\n".toList ++ renderedSections identity) =
        some (renderedSections identity)) ∧
    (¬EndsInHead heading identity.description →
      firstHead heading (identity.description ++ "\n\n".toList ++ renderedSections identity) =
        firstHead heading (renderedSections identity)) := by
  have opened : Text.Opened (renderedSections identity) := by
    intro c first
    cases first
    decide
  have own : firstHead heading identity.description = none :=
    firstHead_unbroken (description_unbroken renderable)
  obtain ⟨-, ended, otherwise⟩ := firstHead_append titled renderable.description.closed opened
  refine ⟨ended own, fun unended => ?_⟩
  have unmarked : afterWord sameLetter heading (renderedSections identity) = none :=
    title_unmarked titled filled _
  rw [otherwise own unended, unmarked]
  split <;> rfl

theorem firstHead_rendered :
    (EndsInHead heading identity.name →
      firstHead heading (SystemPromptAssembler.buildIdentitySection identity) =
        some (identity.description ++ "\n\n".toList ++ renderedSections identity)) ∧
    (¬EndsInHead heading identity.name →
      NameRunsOn heading identity ∨ EndsInHead heading identity.description →
      firstHead heading (SystemPromptAssembler.buildIdentitySection identity) =
        some (renderedSections identity)) ∧
    (¬EndsInHead heading identity.name →
      ¬(NameRunsOn heading identity ∨ EndsInHead heading identity.description) →
      firstHead heading (SystemPromptAssembler.buildIdentitySection identity) =
        firstHead heading (renderedSections identity)) := by
  have behind : firstHead heading (SystemPromptAssembler.buildIdentitySection identity) =
      firstHead heading (identity.name ++ "\n\n".toList ++
        (identity.description ++ "\n\n".toList ++ renderedSections identity)) := by
    rw [buildIdentitySection_eq identity renderable.stance.1]
    exact firstHead_name heading _
  have opened : Text.Opened
      (identity.description ++ "\n\n".toList ++ renderedSections identity) := by
    rw [List.append_assoc]
    exact renderable.description.opened.append renderable.description.1 _
  have own : firstHead heading identity.name = none := by
    apply firstHead_unbroken
    intro inside
    exact renderable.name_single (inside.subset List.mem_cons_self)
  obtain ⟨-, ended, otherwise⟩ := firstHead_append titled renderable.name.closed opened
  obtain ⟨second, third⟩ := firstHead_description renderable titled filled
  rw [behind]
  refine ⟨ended own, ?_, ?_⟩
  · intro unended found
    rw [otherwise own unended, description_is_title renderable titled]
    by_cases runs : NameRunsOn heading identity
    · rw [if_pos runs.1, if_pos runs.2]
      rfl
    · rw [second (found.resolve_left runs)]
      split
      · split <;> rfl
      · rfl
  · intro unended absent
    rw [not_or] at absent
    rw [otherwise own unended, description_is_title renderable titled, third absent.2]
    split
    · next marked =>
        rw [if_neg (fun same => absent.1 ⟨marked, same⟩)]
        rfl
    · rfl

end Heads

theorem headed_stance_plain : ¬"\n##".toList <:+: "## Stance\n\n".toList ++ identity.stance := by
  have whole : "## Stance\n\n".toList ++ identity.stance =
      '#' :: ("# Stance".toList ++ "\n\n".toList ++ identity.stance) := by simp
  rw [whole]
  exact headed_plain (by decide) (by decide) renderable.stance_lines

theorem headed_stance_trimmed : Text.Trimmed ("## Stance\n\n".toList ++ identity.stance) := by
  refine ⟨by simp, (Text.trim_eq_self_iff _).mpr ⟨?_, ?_⟩⟩
  · intro c first
    cases first
    decide
  · exact renderable.stance.closed.append renderable.stance.1

theorem rendered_closed :
    Text.Closed (SystemPromptAssembler.buildIdentitySection identity) := by
  have sections : Text.Closed (renderedSections identity) := by
    unfold renderedSections renderedRules
    split
    · rw [List.append_nil]
      exact renderable.stance.closed.append renderable.stance.1
    · next ruled =>
        have listed := bulletList_trimmed ruled renderable.rules
        have whole : "## Stance\n\n".toList ++ (identity.stance ++ ("\n\n".toList ++
            ("## Rules\n\n".toList ++ bulletList identity.rules))) =
            ("## Stance\n\n".toList ++ identity.stance ++ "\n\n## Rules\n\n".toList) ++
              bulletList identity.rules := by simp
        rw [whole]
        exact listed.closed.append listed.1
  rw [buildIdentitySection_eq identity renderable.stance.1]
  have whole : "# ".toList ++ (identity.name ++ "\n\n".toList ++
      (identity.description ++ "\n\n".toList ++ renderedSections identity)) =
      ("# ".toList ++ identity.name ++ "\n\n".toList ++ identity.description ++ "\n\n".toList) ++
        renderedSections identity := by simp
  have filled : renderedSections identity ≠ [] := List.cons_ne_nil _ _
  rw [whole]
  exact sections.append filled

/-- The stance is read back unless an earlier heading of this title is found: behind one that the
name ends in comes the description, and behind one that the description ends in, or is the title
of, the heading of the stance itself. -/
theorem stance_read_iff :
    (parseIdentity (SystemPromptAssembler.buildIdentitySection identity)).stance =
        identity.stance ↔
      (EndsInHead "Stance".toList identity.name → identity.description = identity.stance) ∧
      (¬EndsInHead "Stance".toList identity.name →
        ¬NameRunsOn "Stance".toList identity ∧ ¬EndsInHead "Stance".toList identity.description) := by
  have read : (parseIdentity (SystemPromptAssembler.buildIdentitySection identity)).stance =
      (((firstHead "Stance".toList (SystemPromptAssembler.buildIdentitySection identity)).bind
        (someUpTo sectionEnds)).map Text.trim).getD [] := by
    unfold parseIdentity
    simp only
    rw [stance_eq, stance_eq_firstHead (rendered_closed renderable)]
  obtain ⟨named, earlier, own⟩ := firstHead_rendered renderable stance_titled (by decide)
  rw [read]
  by_cases ends : EndsInHead "Stance".toList identity.name
  · have next := someUpTo_sectionEnds_next renderable.description.1 (description_plain renderable)
      (" Stance\n\n".toList ++ (identity.stance ++ renderedRules identity))
    rw [named ends, Option.bind_some, sections_marked, next, Option.map_some,
      Text.trim_snoc _ (by decide), renderable.description.2]
    exact ⟨fun same => ⟨fun _ => same, fun other => absurd ends other⟩, fun both => both.1 ends⟩
  · by_cases intrudes : NameRunsOn "Stance".toList identity ∨
        EndsInHead "Stance".toList identity.description
    · have shown : (someUpTo sectionEnds ("## Stance\n\n".toList ++ identity.stance ++
          renderedRules identity)).map Text.trim = some ("## Stance\n\n".toList ++ identity.stance) :=
        section_before_rules (headed_stance_plain renderable) (headed_stance_trimmed renderable)
      rw [earlier ends intrudes, Option.bind_some, sections_split, shown]
      constructor
      · intro same
        have lengths := congrArg List.length same
        rw [Option.getD_some, List.length_append] at lengths
        have longer : "## Stance\n\n".toList.length = 11 := rfl
        omega
      · intro both
        obtain ⟨unrun, unended⟩ := both.2 ends
        exact absurd intrudes (not_or.mpr ⟨unrun, unended⟩)
    · have shown : (someUpTo sectionEnds (identity.stance ++ renderedRules identity)).map Text.trim =
          some identity.stance := section_before_rules (stance_plain renderable) renderable.stance
      rw [own ends intrudes, firstHead_stance, Option.bind_some, shown]
      exact ⟨fun _ => ⟨fun other => absurd other ends, fun _ => not_or.mp intrudes⟩, fun _ => rfl⟩

omit renderable in
theorem firstHead_past_stance (rest : Text) :
    firstHead "Rules".toList ("## Stance\n\n".toList ++ rest) = firstHead "Rules".toList rest := by
  have first : afterHead "Rules".toList ("## Stance\n\n".toList ++ rest) = none := rfl
  have second : afterHead "Rules".toList ("# Stance\n\n".toList ++ rest) = none := rfl
  have steps : firstHead "Rules".toList ("## Stance\n\n".toList ++ rest) =
      (afterHead "Rules".toList ("## Stance\n\n".toList ++ rest)).or
        ((afterHead "Rules".toList ("# Stance\n\n".toList ++ rest)).or
          (firstHead "Rules".toList (" Stance\n\n".toList ++ rest))) := rfl
  rw [steps, first, second, firstHead_plain (by decide)]
  rfl

theorem bullets_of_stance {behind : Text}
    (found : firstHead "Rules".toList identity.stance = some behind) :
    bullets (upTo sectionEnds (behind ++ renderedRules identity)) = bullets behind := by
  apply bullets_before_rules
  intro inside
  exact stance_plain renderable (inside.trans (firstHead_suffix found).isInfix)

theorem rules_of_sections :
    ((firstHead "Rules".toList (renderedSections identity)).map
      (fun text => bullets (upTo sectionEnds text))).getD [] =
      ((firstHead "Rules".toList identity.stance).map bullets).getD identity.rules := by
  have own {behind : Text} (found : firstHead "Rules".toList identity.stance = some behind) :
      bullets (upTo sectionEnds (behind ++ renderedRules identity)) = bullets behind :=
    bullets_of_stance renderable found
  unfold renderedSections
  rw [firstHead_past_stance]
  by_cases ruled : identity.rules = []
  · have none_rendered : renderedRules identity = [] := if_pos ruled
    rw [none_rendered] at own
    simp only [List.append_nil] at own
    rw [none_rendered, List.append_nil, ruled]
    cases found : firstHead "Rules".toList identity.stance with
    | none => rfl
    | some behind => exact own found
  · have rendered : renderedRules identity =
        "\n\n".toList ++ ("## Rules\n\n".toList ++ bulletList identity.rules) := if_neg ruled
    have opened : Text.Opened ("## Rules\n\n".toList ++ bulletList identity.rules) := by
      intro c first
      cases first
      decide
    have listed : bullets (bulletList identity.rules) = identity.rules :=
      bullets_bulletList renderable.rules renderable.rules_single
    have plain := bulletList_plain ruled renderable.rules_single
    obtain ⟨inside, ended, otherwise⟩ :=
      firstHead_append rules_titled renderable.stance.closed opened
    rw [rendered] at own ⊢
    rw [← List.append_assoc]
    cases found : firstHead "Rules".toList identity.stance with
    | some behind =>
        rw [inside behind found, Option.map_some, List.append_assoc]
        exact own found
    | none =>
        by_cases ends : EndsInHead "Rules".toList identity.stance
        · have headed := bulletList_headed ruled renderable.rules_single
          have bare : bullets ("## Rules".toList ++ "\n\n".toList ++ bulletList identity.rules) =
              bullets (bulletList identity.rules) :=
            bullets_heading _ "## Rules".toList (by decide) (by decide)
          rw [ended found ends, Option.map_some, upTo_sectionEnds headed, rules_heading, bare, listed]
          rfl
        · have unmarked : afterWord sameLetter "Rules".toList
              ("## Rules\n\n".toList ++ bulletList identity.rules) = none :=
            title_unmarked rules_titled (by decide) _
          rw [otherwise found ends, unmarked, firstHead_rules]
          have chosen : (if "##".toList <:+ identity.stance then
              (none : Option Text).bind (afterWord sameLetter "\n\n".toList) else none) = none := by
            split <;> rfl
          rw [chosen, Option.none_or, Option.map_some, upTo_sectionEnds plain, listed]
          rfl

/-- The rules are read back unless an earlier heading of this title has other bullets behind it:
one that the name ends in those of the description, one that the description ends in, or is the
title of, those of the stance, and one in the stance those of the rest of the stance. -/
theorem rules_read_iff :
    (parseIdentity (SystemPromptAssembler.buildIdentitySection identity)).rules = identity.rules ↔
      (EndsInHead "Rules".toList identity.name → bullets identity.description = identity.rules) ∧
      (¬EndsInHead "Rules".toList identity.name →
        (NameRunsOn "Rules".toList identity ∨ EndsInHead "Rules".toList identity.description →
          bullets identity.stance = identity.rules) ∧
        (¬(NameRunsOn "Rules".toList identity ∨ EndsInHead "Rules".toList identity.description) →
          ∀ behind ∈ firstHead "Rules".toList identity.stance, bullets behind = identity.rules)) := by
  have read : (parseIdentity (SystemPromptAssembler.buildIdentitySection identity)).rules =
      ((firstHead "Rules".toList (SystemPromptAssembler.buildIdentitySection identity)).map
        (fun text => bullets (upTo sectionEnds text))).getD [] := by
    unfold parseIdentity
    simp only
    rw [rules_eq, rules_eq_firstHead, Option.map_map]
    rfl
  obtain ⟨named, earlier, own⟩ := firstHead_rendered renderable rules_titled (by decide)
  rw [read]
  by_cases ends : EndsInHead "Rules".toList identity.name
  · have next := upTo_sectionEnds_next (description_plain renderable)
      (" Stance\n\n".toList ++ (identity.stance ++ renderedRules identity))
    rw [named ends, Option.map_some, sections_marked, next, bullets_snoc]
    exact ⟨fun same => ⟨fun _ => same, fun other => absurd ends other⟩, fun both => both.1 ends⟩
  · by_cases intrudes : NameRunsOn "Rules".toList identity ∨
        EndsInHead "Rules".toList identity.description
    · have shown : bullets (upTo sectionEnds ("## Stance\n\n".toList ++ identity.stance ++
          renderedRules identity)) = bullets ("## Stance\n\n".toList ++ identity.stance) :=
        bullets_before_rules (headed_stance_plain renderable)
      have heading : "## Stance\n\n".toList ++ identity.stance =
          "## Stance".toList ++ "\n\n".toList ++ identity.stance := by simp
      have bare : bullets ("## Stance".toList ++ "\n\n".toList ++ identity.stance) =
          bullets identity.stance := bullets_heading _ "## Stance".toList (by decide) (by decide)
      rw [earlier ends intrudes, Option.map_some, sections_split, shown, heading, bare]
      exact ⟨fun same => ⟨fun other => absurd other ends,
        fun _ => ⟨fun _ => same, fun other => absurd intrudes other⟩⟩,
        fun both => (both.2 ends).1 intrudes⟩
    · rw [own ends intrudes, rules_of_sections renderable]
      constructor
      · intro same
        refine ⟨fun other => absurd other ends, fun _ => ⟨fun other => absurd other intrudes, ?_⟩⟩
        intro _ behind found
        rw [Option.mem_def.mp found] at same
        exact same
      · intro both
        cases found : firstHead "Rules".toList identity.stance with
        | none => rfl
        | some behind => exact (both.2 ends).2 intrudes behind found

end PackLoader

open PackLoader in
/-- What an identity must be like to be read back from what is rendered of it. -/
structure ReadBack (identity : AgentIdentity) : Prop where
  name : ∀ c ∈ identity.name, lineTerminator c = false
  description : identity.description = lastParagraphOf identity
  stance : (EndsInHead "Stance".toList identity.name → identity.description = identity.stance) ∧
    (¬EndsInHead "Stance".toList identity.name →
      ¬NameRunsOn "Stance".toList identity ∧ ¬EndsInHead "Stance".toList identity.description)
  rules : (EndsInHead "Rules".toList identity.name →
      bullets identity.description = identity.rules) ∧
    (¬EndsInHead "Rules".toList identity.name →
      (NameRunsOn "Rules".toList identity ∨ EndsInHead "Rules".toList identity.description →
        bullets identity.stance = identity.rules) ∧
      (¬(NameRunsOn "Rules".toList identity ∨ EndsInHead "Rules".toList identity.description) →
        ∀ behind ∈ firstHead "Rules".toList identity.stance, bullets behind = identity.rules))

def SameFields (read identity : AgentIdentity) : Prop :=
  read.name = identity.name ∧ read.description = identity.description ∧
    read.stance = identity.stance ∧ read.rules = identity.rules

theorem round_trip_iff {identity : AgentIdentity} (renderable : Renderable identity) :
    SameFields (PackLoader.parseIdentity (SystemPromptAssembler.buildIdentitySection identity))
      identity ↔ ReadBack identity := by
  have name := PackLoader.name_read_iff renderable
  have description := PackLoader.description_read_iff renderable
  have stance := PackLoader.stance_read_iff renderable
  have rules := PackLoader.rules_read_iff renderable
  constructor
  · rintro ⟨same_name, same_description, same_stance, same_rules⟩
    exact ⟨name.mp same_name, description.mp same_description, stance.mp same_stance,
      rules.mp same_rules⟩
  · intro back
    exact ⟨name.mpr back.name, description.mpr back.description, stance.mpr back.stance,
      rules.mpr back.rules⟩

def identityOf (name description stance : String) (rules : List String) : AgentIdentity :=
  ⟨name.toList, description.toList, stance.toList, rules.map String.toList, []⟩

def listedIdentity : AgentIdentity := identityOf "Helper" "- Be kind" "Calm." ["Be kind"]

theorem listedIdentity_renderable : Renderable listedIdentity := by
  constructor <;> decide +kernel

theorem listed_identity_is_read_back :
    SameFields (PackLoader.parseIdentity
      (SystemPromptAssembler.buildIdentitySection listedIdentity)) listedIdentity := by
  have name (title : Text) : ¬EndsInHead title listedIdentity.name :=
    not_endsInHead (by decide +kernel)
  have description (title : Text) : ¬EndsInHead title listedIdentity.description :=
    not_endsInHead (by decide +kernel)
  have runs (title : Text) : ¬PackLoader.NameRunsOn title listedIdentity :=
    fun both => absurd both.1 (by decide +kernel)
  have inside : firstHead "Rules".toList listedIdentity.stance = none := by decide +kernel
  have single : listedIdentity.name.any lineTerminator = false := by decide +kernel
  refine (round_trip_iff listedIdentity_renderable).mpr ⟨Text.none_of_any single, by decide +kernel,
    ⟨fun ends => absurd ends (name _), fun _ => ⟨runs _, description _⟩⟩,
    ⟨fun ends => absurd ends (name _), fun _ => ⟨fun found => ?_, fun _ behind found => ?_⟩⟩⟩
  · exact absurd found (not_or.mpr ⟨runs _, description _⟩)
  · rw [inside] at found
    cases found

/-- The description of an agent without rules is lost: its stance is read instead. -/
theorem stance_is_read_as_description :
    ¬∀ identity : AgentIdentity, Renderable identity →
      SameFields (PackLoader.parseIdentity (SystemPromptAssembler.buildIdentitySection identity))
        identity := by
  intro always
  have renderable : Renderable (identityOf "Helper" "Helps users." "Calm." []) := by
    constructor <;> decide +kernel
  have same := always _ renderable
  exact absurd same.2.1 (by decide +kernel)

end Minerva
