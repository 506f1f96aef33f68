import Minerva.Packs.Assembler
import Minerva.Packs.Document

namespace Minerva

open Document

def keptParts (content : Text) : List Text :=
  let description := ((lastParagraph content).map Text.trim).getD []
  let stance := ((stance content).map Text.trim).getD []
  let rules := ((rules content).map PackLoader.bullets).getD []
  ["# ".toList ++ (heading content).getD "Unknown Agent".toList, description] ++
    (if stance = [] then [] else ["## Stance".toList, stance]) ++
    (if rules = [] then [] else "## Rules".toList :: rules.map ("- ".toList ++ ·))

def skillTexts (skills : List Skill) : List Text :=
  if skills = [] then []
  else "## Skills".toList :: skills.flatMap (fun skill =>
    ["### ".toList ++ skill.category, "#### ".toList ++ skill.name, skill.content])

theorem mem_skillTexts_of_perm {skills other : List Skill} (perm : skills.Perm other) (part : Text) :
    part ∈ skillTexts skills ↔ part ∈ skillTexts other := by
  unfold skillTexts
  by_cases empty : skills = []
  · rw [if_pos empty, if_pos ((empty ▸ perm).symm.eq_nil)]
  · have filled : other ≠ [] := by
      rintro rfl
      exact empty perm.eq_nil
    rw [if_neg empty, if_neg filled]
    simp only [List.mem_cons, List.mem_flatMap, perm.mem_iff]

namespace SystemPromptAssembler

variable {word : Text} (trimmed : word.Trimmed) (single : '\n' ∉ word)

include trimmed single

theorem infix_joinLines_iff (parts : List Text) :
    word <:+: Text.joinLines parts ↔ ∃ part ∈ parts, word <:+: part :=
  Joined.infix_intercalate_iff single trimmed.1 parts

theorem infix_identity_iff (content : Text) :
    word <:+: buildIdentitySection (PackLoader.parseIdentity content) ↔
      ∃ part ∈ keptParts content, word <:+: part := by
  have filled := trimmed.1
  unfold buildIdentitySection PackLoader.parseIdentity keptParts
  simp only
  rw [infix_joinLines_iff trimmed single, heading_eq, lastParagraph_eq, stance_eq, rules_eq]
  by_cases silent : ((stance content).map Text.trim).getD [] = [] <;>
    by_cases ruleless : ((Document.rules content).map PackLoader.bullets).getD [] = [] <;>
    simp [silent, ruleless, filled]

theorem infix_skills_iff (skills : List Skill) :
    word <:+: buildSkillsSection skills ↔ ∃ part ∈ skillTexts skills, word <:+: part := by
  have filled := trimmed.1
  unfold buildSkillsSection skillTexts
  by_cases empty : skills = []
  · simp [empty, filled]
  · rw [if_neg empty, if_neg empty, infix_joinLines_iff trimmed single, groupSkillsByCategory,
      Grouping.entries_groupBy]
    constructor
    · rintro ⟨part, listed, inside⟩
      rcases List.mem_append.mp listed with head | grouped
      · rcases List.mem_cons.mp head with rfl | blank
        · exact ⟨_, List.mem_cons_self, inside⟩
        · rw [List.mem_singleton.mp blank] at inside
          exact absurd (List.infix_nil.mp inside) filled
      · obtain ⟨group, member, part_listed⟩ := List.mem_flatMap.mp grouped
        obtain ⟨category, known, rfl⟩ := List.mem_map.mp member
        rw [Grouping.mem_firstKeys] at known
        obtain ⟨first, first_listed, rfl⟩ := List.mem_map.mp known
        rcases List.mem_append.mp part_listed with title | texts
        · refine ⟨_, List.mem_cons_of_mem _ (List.mem_flatMap.mpr
            ⟨first, first_listed, List.mem_cons_self⟩), ?_⟩
          rcases List.mem_cons.mp title with rfl | blank
          · exact inside
          · rw [List.mem_singleton.mp blank] at inside
            exact absurd (List.infix_nil.mp inside) filled
        · obtain ⟨skill, skill_listed, text⟩ := List.mem_flatMap.mp texts
          rw [Grouping.mem_ofKey] at skill_listed
          refine ⟨part, List.mem_cons_of_mem _ (List.mem_flatMap.mpr
            ⟨skill, skill_listed.1, ?_⟩), inside⟩
          have visible : part ≠ [] := by
            rintro rfl
            exact absurd (List.infix_nil.mp inside) filled
          simpa [skillParts, visible] using List.mem_cons_of_mem _ text
    · rintro ⟨part, listed, inside⟩
      rcases List.mem_cons.mp listed with rfl | texts
      · exact ⟨_, List.mem_append_left _ List.mem_cons_self, inside⟩
      · obtain ⟨skill, skill_listed, text⟩ := List.mem_flatMap.mp texts
        refine ⟨part, List.mem_append_right _ (List.mem_flatMap.mpr
          ⟨(skill.category, Grouping.ofKey Skill.category skill.category skills), ?_, ?_⟩), inside⟩
        · exact List.mem_map.mpr ⟨skill.category, (Grouping.mem_firstKeys _ _ _).mpr
            (List.mem_map_of_mem skill_listed), rfl⟩
        · rcases List.mem_cons.mp text with rfl | rest
          · exact List.mem_append_left _ List.mem_cons_self
          · refine List.mem_append_right _ (List.mem_flatMap.mpr
              ⟨skill, (Grouping.mem_ofKey _ _ _).mpr ⟨skill_listed, rfl⟩, ?_⟩)
            simp only [List.mem_cons, List.not_mem_nil, or_false] at rest
            rcases rest with rfl | rfl <;> simp [skillParts]

theorem infix_fullPrompt_iff (collation : Collation) (pack : AgentPack) {prompt : SystemPrompt}
    (assembled : assemble ⟨collation, .default⟩ pack = .ok prompt) :
    word <:+: prompt.fullPrompt ↔ word <:+: buildIdentitySection pack.identity ∨
      word <:+: buildSkillsSection (orderSkills ⟨collation, .default⟩ pack.skills) := by
  have filled := trimmed.1
  rw [fullPrompt_eq _ rfl assembled, buildFullPrompt, Text.infix_trim_iff trimmed,
    infix_joinLines_iff trimmed single]
  generalize buildIdentitySection pack.identity = identity
  generalize buildSkillsSection (orderSkills ⟨collation, .default⟩ pack.skills) = skills
  by_cases unidentified : identity = [] <;> by_cases unskilled : skills = [] <;>
    simp [sectionParts, unidentified, unskilled, filled]

end SystemPromptAssembler

section Lines

variable (collation : Collation) (content : Text) (pack : AgentPack)
  (identity : pack.identity = PackLoader.parseIdentity content) {prompt : SystemPrompt}
  (assembled : SystemPromptAssembler.assemble ⟨collation, .default⟩ pack = .ok prompt)

include identity assembled

theorem line_reaches_prompt_iff (line : Text) (listed : line ∈ content.lines)
    (filled : line.trim ≠ []) : line.trim <:+: prompt.fullPrompt ↔
      ∃ part ∈ keptParts content ++ skillTexts pack.skills, line.trim <:+: part := by
  have ordered : (SystemPromptAssembler.orderSkills ⟨collation, .default⟩ pack.skills).Perm
      pack.skills := List.perm_insertionSort _ pack.skills
  have trimmed : line.trim.Trimmed := ⟨filled, (Text.trim_eq_self_iff _).mpr
    ⟨Text.trim_opened line, Text.trim_closed line⟩⟩
  have single : '\n' ∉ line.trim := fun inside =>
    Text.line_single listed ((Text.trim_infix line).subset inside)
  rw [SystemPromptAssembler.infix_fullPrompt_iff trimmed single collation pack assembled, identity,
    SystemPromptAssembler.infix_identity_iff trimmed single,
    SystemPromptAssembler.infix_skills_iff trimmed single]
  simp only [mem_skillTexts_of_perm ordered, List.mem_append, or_and_right, exists_or]

/-- Every line reaches the prompt exactly if each is in a part that the identity keeps, or in a
skill. -/
theorem lines_reach_prompt_iff :
    (∀ line ∈ content.lines, line.trim ≠ [] → line.trim <:+: prompt.fullPrompt) ↔
      ∀ line ∈ content.lines, line.trim ≠ [] →
        ∃ part ∈ keptParts content ++ skillTexts pack.skills, line.trim <:+: part := by
  have shown := line_reaches_prompt_iff collation content pack identity assembled
  constructor
  · intro reached line listed filled
    exact (shown line listed filled).mp (reached line listed filled)
  · intro kept line listed filled
    exact (shown line listed filled).mpr (kept line listed filled)

end Lines

def packFor (content : Text) : AgentPack :=
  ⟨"/packs/helper".toList, PackLoader.parseIdentity content, [], ⟨"2026-01-01T00:00:00.000Z".toList, 0, 0⟩⟩

def promptFor (content : Text) : Except String SystemPrompt :=
  SystemPromptAssembler.assemble ⟨codePoints, .default⟩ (packFor content)

def bareDocument : Text := "# Helper\n\n## Stance\n\n- Be calm.".toList

theorem bare_document_reaches_prompt : ∃ prompt, promptFor bareDocument = .ok prompt ∧
    ∀ line ∈ bareDocument.lines, line.trim ≠ [] → line.trim <:+: prompt.fullPrompt := by
  have fits : (promptFor bareDocument).toBool = true := by decide +kernel
  cases assembled : promptFor bareDocument with
  | error error =>
      rw [assembled] at fits
      cases fits
  | ok prompt =>
      have kept : ∀ line ∈ bareDocument.lines, line.trim ≠ [] →
          ∃ part ∈ keptParts bareDocument ++ skillTexts [], line.trim <:+: part := by
        decide +kernel
      exact ⟨prompt, rfl, (lines_reach_prompt_iff codePoints bareDocument (packFor bareDocument) rfl
        assembled).mpr kept⟩

def describedDocument : Text := "# Helper\n\nHelps users.\n\n## Stance\n\nBe calm.".toList

/-- The description before the stance is not shown. -/
theorem description_is_lost :
    ¬∀ (collation : Collation) (content : Text) (pack : AgentPack),
      pack.identity = PackLoader.parseIdentity content → ∀ prompt,
        SystemPromptAssembler.assemble ⟨collation, .default⟩ pack = .ok prompt →
          ∀ line ∈ content.lines, line.trim ≠ [] → line.trim <:+: prompt.fullPrompt := by
  intro always
  have fits : (promptFor describedDocument).toBool = true := by decide +kernel
  cases assembled : promptFor describedDocument with
  | error error =>
      rw [assembled] at fits
      cases fits
  | ok prompt =>
      have shown := always codePoints describedDocument (packFor describedDocument) rfl prompt
        assembled "Helps users.".toList (by decide +kernel) (by decide +kernel)
      have part := (line_reaches_prompt_iff codePoints describedDocument
        (packFor describedDocument) rfl assembled "Helps users.".toList (by decide +kernel)
        (by decide +kernel)).mp shown
      have lost : ¬∃ part ∈ keptParts describedDocument ++ skillTexts [],
          Text.trim "Helps users.".toList <:+: part := by decide +kernel
      exact lost part

end Minerva
