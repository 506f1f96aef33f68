import Mathlib.Data.List.Pairwise
import Minerva.Packs.Assembler

namespace Minerva

namespace Collation

variable (collation : Collation) {a b c : Text}

theorem total (a b : Text) : collation.localeCompare a b ≤ 0 ∨ collation.localeCompare b a ≤ 0 := by
  have swapped := collation.swap b a
  omega

theorem self (a : Text) : collation.localeCompare a a = 0 := by
  have swapped := collation.swap a a
  omega

theorem tie_comm (tie : collation.localeCompare a b = 0) : collation.localeCompare b a = 0 := by
  have left := collation.swap a b
  have right := collation.swap b a
  omega

theorem lt_of_lt_of_le (first : collation.localeCompare a b < 0)
    (second : collation.localeCompare b c ≤ 0) : collation.localeCompare a c < 0 := by
  have below := collation.chain a b c (by omega) second
  by_contra reached
  have back := collation.tie_comm (a := a) (b := c) (by omega)
  have above := collation.chain b c a second (by omega)
  have swapped := collation.swap a b
  omega

theorem lt_of_le_of_lt (first : collation.localeCompare a b ≤ 0)
    (second : collation.localeCompare b c < 0) : collation.localeCompare a c < 0 := by
  have below := collation.chain a b c first (by omega)
  by_contra reached
  have back := collation.tie_comm (a := a) (b := c) (by omega)
  have above := collation.chain c a b (by omega) first
  have swapped := collation.swap b c
  omega

theorem tie_trans (first : collation.localeCompare a b = 0)
    (second : collation.localeCompare b c = 0) : collation.localeCompare a c = 0 := by
  have below := collation.chain a b c (by omega) (by omega)
  have back := collation.chain c b a (by rw [collation.tie_comm second])
    (by rw [collation.tie_comm first])
  have swapped := collation.swap a c
  omega

variable {collation}

theorem Separates.strict (separates : collation.Separates)
    (below : collation.localeCompare a b ≤ 0) (differs : a ≠ b) :
    collation.localeCompare a b < 0 := by
  have unequal : collation.localeCompare a b ≠ 0 := fun tie => differs (separates a b tie)
  omega

theorem Separates.antisymm (separates : collation.Separates)
    (below : collation.localeCompare a b ≤ 0) (above : collation.localeCompare b a ≤ 0) :
    a = b := by
  have swapped := collation.swap a b
  exact separates a b (by omega)

end Collation

namespace SystemPromptAssembler

variable (collation : Collation)

def Ascends (ordering : SkillOrdering) (a b : Skill) : Prop :=
  compareSkills collation ordering a b ≤ 0

instance (ordering : SkillOrdering) : DecidableRel (Ascends collation ordering) :=
  fun a b => inferInstanceAs (Decidable (compareSkills collation ordering a b ≤ 0))

theorem ascends_category (a b : Skill) :
    Ascends collation .category a b ↔ collation.localeCompare a.category b.category < 0 ∨
      (collation.localeCompare a.category b.category = 0 ∧
        collation.localeCompare a.name b.name ≤ 0) := by
  by_cases tie : collation.localeCompare a.category b.category = 0
  · simp [Ascends, compareSkills, tie]
  · simp only [Ascends, compareSkills, if_pos tie]
    omega

instance (ordering : SkillOrdering) : Std.Total (Ascends collation ordering) where
  total a b := by
    cases ordering with
    | alphabetical => exact collation.total a.name b.name
    | category =>
        rw [ascends_category, ascends_category]
        have reversed := collation.swap b.category a.category
        rcases Int.lt_trichotomy (collation.localeCompare a.category b.category) 0 with
          below | tie | above
        · exact .inl (.inl below)
        · rcases collation.total a.name b.name with left | right
          · exact .inl (.inr ⟨tie, left⟩)
          · exact .inr (.inr ⟨collation.tie_comm tie, right⟩)
        · exact .inr (.inl (reversed.mpr above))
    | size =>
        simp only [Ascends, compareSkills]
        omega

instance (ordering : SkillOrdering) : IsTrans Skill (Ascends collation ordering) where
  trans a b c first second := by
    cases ordering with
    | alphabetical => exact collation.chain a.name b.name c.name first second
    | category =>
        rw [ascends_category] at first second ⊢
        rcases first with below | ⟨tie, name⟩ <;> rcases second with above | ⟨other, later⟩
        · exact .inl (collation.lt_of_lt_of_le below (by omega))
        · exact .inl (collation.lt_of_lt_of_le below (by omega))
        · exact .inl (collation.lt_of_le_of_lt (by omega) above)
        · exact .inr ⟨collation.tie_trans tie other, collation.chain _ _ _ name later⟩
    | size =>
        simp only [Ascends, compareSkills] at first second ⊢
        omega

variable {collation}

theorem orderSkills_eq (assembler : SystemPromptAssembler) (skills : List Skill) :
    assembler.orderSkills skills =
      skills.insertionSort (Ascends assembler.collation assembler.rules.skillOrdering) := rfl

def Distinct (skills : List Skill) : Prop :=
  skills.Pairwise (fun a b => (a.category, a.name) ≠ (b.category, b.name))

instance (skills : List Skill) : Decidable (Distinct skills) :=
  inferInstanceAs (Decidable (skills.Pairwise _))

theorem Distinct.perm {skills other : List Skill} (distinct : Distinct skills)
    (perm : skills.Perm other) : Distinct other :=
  (perm.pairwise_iff (fun unequal => Ne.symm unequal)).mp distinct

theorem Distinct.eq_of_same {skills : List Skill} (distinct : Distinct skills) {a b : Skill}
    (first : a ∈ skills) (second : b ∈ skills) (category : a.category = b.category)
    (name : a.name = b.name) : a = b := by
  by_contra differs
  have symmetric : Std.Symm (fun a b : Skill => (a.category, a.name) ≠ (b.category, b.name)) :=
    ⟨fun _ _ unequal => Ne.symm unequal⟩
  exact List.Pairwise.forall distinct first second differs (by rw [category, name])

def rendered (assembler : SystemPromptAssembler) (skills : List Skill) : List Skill :=
  (groupSkillsByCategory (assembler.orderSkills skills)).values.flatten

/-- What the default rules are to list: every category once in ascending order, and under it its
skills in ascending order of their names. -/
structure Canonical (collation : Collation) (skills : List Skill)
    (groups : List (Text × List Skill)) : Prop where
  categories : (groups.map Prod.fst).Pairwise (fun a b => collation.localeCompare a b < 0)
  complete : ∀ category, category ∈ groups.map Prod.fst ↔ ∃ skill ∈ skills, skill.category = category
  names : ∀ group ∈ groups, group.2.Pairwise (fun a b => collation.localeCompare a.name b.name < 0)
  members : ∀ group ∈ groups, ∀ skill, skill ∈ group.2 ↔ skill ∈ skills ∧ skill.category = group.1

theorem canonical_of_sorted (separates : collation.Separates) {skills sorted : List Skill}
    (perm : sorted.Perm skills) (ascending : sorted.Pairwise (Ascends collation .category))
    (distinct : Distinct skills) :
    Canonical collation skills (groupSkillsByCategory sorted).entries := by
  have entries := Grouping.entries_groupBy Skill.category sorted
  have keys : (groupSkillsByCategory sorted).entries.map Prod.fst =
      Grouping.firstKeys Skill.category sorted := by
    rw [groupSkillsByCategory, entries]
    simp [Function.comp_def]
  have apart := distinct.perm perm.symm
  refine ⟨?_, ?_, ?_, ?_⟩
  · rw [keys]
    have below : (sorted.map Skill.category).Pairwise
        (fun a b => collation.localeCompare a b ≤ 0) := by
      rw [List.pairwise_map]
      apply ascending.imp
      intro a b above
      rcases (ascends_category collation a b).mp above with less | ⟨tie, _⟩ <;> omega
    have ordered := below.sublist (Grouping.firstKeys_sublist Skill.category sorted)
    have nodup : (Grouping.firstKeys Skill.category sorted).Pairwise (· ≠ ·) :=
      Grouping.firstKeys_nodup Skill.category sorted
    exact (ordered.and nodup).imp (fun both => separates.strict both.1 both.2)
  · intro category
    rw [keys, Grouping.mem_firstKeys, List.mem_map]
    simp [perm.mem_iff]
  · intro group member
    rw [groupSkillsByCategory, entries] at member
    obtain ⟨category, _, rfl⟩ := List.mem_map.mp member
    have grouped := ascending.filter (fun skill => decide (skill.category = category))
    have separate := apart.filter (fun skill => decide (skill.category = category))
    apply (grouped.and separate).imp_of_mem
    intro a b left right both
    have own := ((Grouping.mem_ofKey sorted category a).mp left).2
    have same := own.trans ((Grouping.mem_ofKey sorted category b).mp right).2.symm
    rcases (ascends_category collation a b).mp both.1 with less | ⟨_, name⟩
    · rw [same, collation.self] at less
      omega
    · apply separates.strict name
      intro equal
      exact both.2 (by rw [same, equal])
  · intro group member skill
    rw [groupSkillsByCategory, entries] at member
    obtain ⟨category, _, rfl⟩ := List.mem_map.mp member
    rw [Grouping.mem_ofKey, perm.mem_iff]

theorem orderSkills_perm (assembler : SystemPromptAssembler)
    (separates : assembler.collation.Separates) (byCategory : assembler.rules.skillOrdering = .category)
    {skills other : List Skill} (distinct : Distinct skills) (perm : skills.Perm other) :
    assembler.orderSkills skills = assembler.orderSkills other := by
  rw [orderSkills_eq, orderSkills_eq, byCategory]
  have first := List.perm_insertionSort (Ascends assembler.collation .category) skills
  have second := List.perm_insertionSort (Ascends assembler.collation .category) other
  apply List.Perm.eq_of_pairwise _ (List.pairwise_insertionSort _ skills)
    (List.pairwise_insertionSort _ other) ((first.trans perm).trans second.symm)
  intro a b left right below above
  have known := first.mem_iff.mp left
  have also := perm.mem_iff.mpr (second.mem_iff.mp right)
  rw [ascends_category] at below above
  have swapped := assembler.collation.swap a.category b.category
  have reversed := assembler.collation.swap b.category a.category
  have category : assembler.collation.localeCompare a.category b.category = 0 := by omega
  have name : assembler.collation.localeCompare a.name b.name ≤ 0 ∧
      assembler.collation.localeCompare b.name a.name ≤ 0 := by omega
  exact distinct.eq_of_same known also (separates _ _ category)
    (separates.antisymm name.1 name.2)

/-- Under the default rules the skills section is the canonical one, so that the prompt, or the
error about its length, does not depend on the order in which the skills are listed. -/
theorem default_prompt_is_canonical (collation : Collation) (separates : collation.Separates)
    (pack : AgentPack) (distinct : Distinct pack.skills) :
    (∃ groups, Canonical collation pack.skills groups ∧
      buildSkillsSection (orderSkills ⟨collation, .default⟩ pack.skills) =
        if pack.skills = [] then []
        else Text.joinLines (["## Skills".toList, []] ++ groups.flatMap categoryParts)) ∧
      ∀ listed : AgentPack, listed.identity = pack.identity → pack.skills.Perm listed.skills →
        assemble ⟨collation, .default⟩ listed = assemble ⟨collation, .default⟩ pack := by
  have sorted := List.pairwise_insertionSort (Ascends collation .category) pack.skills
  have perm := List.perm_insertionSort (Ascends collation .category) pack.skills
  constructor
  · refine ⟨_, canonical_of_sorted separates perm sorted distinct, ?_⟩
    have same : orderSkills ⟨collation, .default⟩ pack.skills =
        pack.skills.insertionSort (Ascends collation .category) := rfl
    rw [same, buildSkillsSection]
    by_cases empty : pack.skills = []
    · rw [if_pos empty, empty]
      rfl
    · have filled : pack.skills.insertionSort (Ascends collation .category) ≠ [] := by
        intro nothing
        rw [nothing] at perm
        exact empty perm.symm.eq_nil
      rw [if_neg empty, if_neg filled]
  · intro listed identity permuted
    exact assemble_congr ⟨collation, .default⟩ rfl identity
      (orderSkills_perm ⟨collation, .default⟩ separates rfl distinct permuted).symm

def skill (category name : String) (size : Nat) : Skill :=
  ⟨name.toList, category.toList, (name ++ " content").toList, [], size⟩

def packOf (skills : List Skill) : AgentPack :=
  ⟨[], ⟨"Agent".toList, "Helps.".toList, [], [], []⟩, skills, ⟨[], skills.length, 0⟩⟩

def mixedSkills : List Skill := [skill "ops" "b" 1, skill "dev" "c" 2, skill "ops" "a" 3]

theorem default_prompt_of_mixed_skills :
    buildSkillsSection (orderSkills ⟨codePoints, .default⟩ mixedSkills) =
        ("## Skills\n\n### dev\n\n#### c\n\nc content\n\n### ops\n\n#### a\n\na content\n\n" ++
          "#### b\n\nb content\n").toList ∧
      (∃ groups, Canonical codePoints mixedSkills groups) ∧
      assemble ⟨codePoints, .default⟩ (packOf mixedSkills.reverse) =
        assemble ⟨codePoints, .default⟩ (packOf mixedSkills) := by
  have ⟨⟨groups, canonical, _⟩, listed⟩ :=
    default_prompt_is_canonical codePoints codePoints_separates (packOf mixedSkills) (by decide)
  have permuted : mixedSkills.Perm mixedSkills.reverse := (List.reverse_perm mixedSkills).symm
  exact ⟨by decide +kernel, ⟨groups, canonical⟩, listed (packOf mixedSkills.reverse) rfl permuted⟩

/-- Of any two categories, the one with the first least skill has no skill above one of the other. -/
def Uninterleaved (collation : Collation) (ordering : SkillOrdering) (skills : List Skill) : Prop :=
  ∀ a ∈ skills, ∀ b ∈ skills, a.category ≠ b.category →
    Grouping.Leads (Ascends collation ordering) Skill.category skills a.category b.category →
      Ascends collation ordering a b

theorem rendered_ascends_iff (collation : Collation) (rules : AssemblyRules) (skills : List Skill) :
    (rendered ⟨collation, rules⟩ skills).Pairwise (Ascends collation rules.skillOrdering) ↔
      Uninterleaved collation rules.skillOrdering skills :=
  Grouping.sorted_regrouped_iff (Ascends collation rules.skillOrdering) Skill.category skills

/-- Under an ordering by name or by size the skills are rendered in that order exactly when their
categories do not interleave. -/
theorem configured_order_iff (collation : Collation) (rules : AssemblyRules) (skills : List Skill) :
    ((rendered ⟨collation, { rules with skillOrdering := .alphabetical }⟩ skills).Pairwise
        (fun a b => collation.localeCompare a.name b.name ≤ 0) ↔
      Uninterleaved collation .alphabetical skills) ∧
      ((rendered ⟨collation, { rules with skillOrdering := .size }⟩ skills).Pairwise
          (fun a b => a.size ≤ b.size) ↔
        Uninterleaved collation .size skills) := by
  have bySize : Ascends collation .size = fun a b => a.size ≤ b.size := by
    funext a b
    simp only [Ascends, compareSkills, eq_iff_iff]
    omega
  constructor
  · exact rendered_ascends_iff collation { rules with skillOrdering := .alphabetical } skills
  · have sized := rendered_ascends_iff collation { rules with skillOrdering := .size } skills
    rw [← bySize]
    exact sized

/-- A category that is met again later pulls its skills in front of the others. -/
theorem interleaved_categories_break_the_order :
    ¬((∀ skills : List Skill, (rendered ⟨codePoints, { AssemblyRules.default with
          skillOrdering := .alphabetical }⟩ skills).Pairwise
            (fun a b => codePoints.localeCompare a.name b.name ≤ 0)) ∧
        ∀ skills : List Skill, (rendered ⟨codePoints, { AssemblyRules.default with
          skillOrdering := .size }⟩ skills).Pairwise (fun a b => a.size ≤ b.size)) := by
  rintro ⟨byName, _⟩
  exact absurd (byName [skill "x" "a" 1, skill "y" "b" 2, skill "x" "c" 3]) (by decide +kernel)

end SystemPromptAssembler

end Minerva
