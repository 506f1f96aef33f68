import Mathlib.Data.Char
import Mathlib.Data.List.Lex
import Minerva.Library.Grouping
import Minerva.Packs.Types

namespace Minerva

/-- `String.prototype.localeCompare` in a locale: a total order, in which texts may tie. -/
structure Collation where
  localeCompare : Text → Text → Int
  swap : ∀ a b, localeCompare a b < 0 ↔ 0 < localeCompare b a
  chain : ∀ a b c, localeCompare a b ≤ 0 → localeCompare b c ≤ 0 → localeCompare a c ≤ 0

/-- No two texts tie. -/
def Collation.Separates (collation : Collation) : Prop :=
  ∀ a b, collation.localeCompare a b = 0 → a = b

/-- The order of code points, which is that of English on words of small letters. -/
def codePoints : Collation where
  localeCompare a b := if a = b then 0 else if a < b then -1 else 1
  swap a b := by
    rcases lt_trichotomy a b with below | same | above
    · simp [below, below.ne, below.ne', lt_asymm below]
    · simp [same]
    · simp [above, above.ne, above.ne', lt_asymm above]
  chain a b c first second := by
    have le_of {a b : Text} (below : (if a = b then 0 else if a < b then (-1 : Int) else 1) ≤ 0) :
        a ≤ b := by
      by_cases same : a = b
      · exact same.le
      · by_cases less : a < b
        · exact less.le
        · simp [same, less] at below
    have below := (le_of first).trans (le_of second)
    rcases below.lt_or_eq with less | same
    · simp [less, less.ne]
    · simp [same]

theorem codePoints_separates : codePoints.Separates := by
  intro a b tie
  by_contra differs
  by_cases below : a < b <;> simp [codePoints, differs, below] at tie

def AssemblyRules.default : AssemblyRules where
  identityFirst := true
  includeSkillMetadata := false
  skillOrdering := .category
  maxPromptLength := 128000

def SkillOrdering.text : SkillOrdering → String
  | .alphabetical => "alphabetical"
  | .category => "category"
  | .size => "size"

def AssemblyRules.stringify (rules : AssemblyRules) : String :=
  "\x7b\"identityFirst\":" ++ toString rules.identityFirst ++
    ",\"includeSkillMetadata\":" ++ toString rules.includeSkillMetadata ++
    ",\"skillOrdering\":\"" ++ rules.skillOrdering.text ++
    "\",\"maxPromptLength\":" ++ toString rules.maxPromptLength ++ "\x7d"

/-- The only error of `assemble`. -/
def promptTooLong (rules : AssemblyRules) : String :=
  "Assembled prompt exceeds maximum length of " ++ toString rules.maxPromptLength ++ " characters"

structure SystemPromptAssembler where
  collation : Collation
  rules : AssemblyRules

namespace SystemPromptAssembler

def buildIdentitySection (identity : AgentIdentity) : Text :=
  Text.joinLines <|
    ["# ".toList ++ identity.name, [], identity.description] ++
    (if identity.stance = [] then [] else [[], "## Stance".toList, [], identity.stance]) ++
    (if identity.rules = [] then []
      else [[], "## Rules".toList, []] ++ identity.rules.map ("- ".toList ++ ·))

def groupSkillsByCategory (skills : List Skill) : EsMap Text (List Skill) :=
  Grouping.groupBy Skill.category skills

def skillParts (skill : Skill) : List Text :=
  ["#### ".toList ++ skill.name, [], skill.content, []]

def categoryParts (group : Text × List Skill) : List Text :=
  ["### ".toList ++ group.1, []] ++ group.2.flatMap skillParts

def buildSkillsSection (skills : List Skill) : Text :=
  if skills = [] then []
  else Text.joinLines <|
    ["## Skills".toList, []] ++ (groupSkillsByCategory skills).entries.flatMap categoryParts

def compareSkills (collation : Collation) : SkillOrdering → Skill → Skill → Int
  | .alphabetical, a, b => collation.localeCompare a.name b.name
  | .category, a, b =>
    let catCompare := collation.localeCompare a.category b.category
    if catCompare ≠ 0 then catCompare else collation.localeCompare a.name b.name
  | .size, a, b => (a.size : Int) - b.size

/-- `Array.prototype.sort` is stable, as insertion sort is. -/
def orderSkills (assembler : SystemPromptAssembler) (skills : List Skill) : List Skill :=
  skills.insertionSort
    (fun a b => compareSkills assembler.collation assembler.rules.skillOrdering a b ≤ 0)

def buildAssemblyRulesSection (rules : AssemblyRules) (pack : AgentPack) : Text :=
  Text.joinLines <|
    ["## Assembly Information".toList, [],
      "- **Loaded at**: ".toList ++ pack.metadata.loadedAt,
      "- **Pack path**: ".toList ++ pack.path,
      ("- **Skills loaded**: " ++ toString pack.metadata.skillCount).toList,
      ("- **Total size**: " ++ toString pack.metadata.totalSize ++ " bytes").toList,
      ("- **Assembly rules**: " ++ rules.stringify).toList,
      []] ++
    (if pack.skills = [] then []
      else ["### Loaded Skills".toList, []] ++ pack.skills.map (fun skill =>
        "- ".toList ++ skill.name ++ " (".toList ++ skill.category ++
          ("): " ++ toString skill.size ++ " bytes").toList))

def sectionParts (part : PromptSection) : List Text :=
  if part.content = [] then [] else [part.content, []]

def buildFullPrompt (sections : List PromptSection) : Text :=
  let sorted := sections.insertionSort (fun a b => a.order ≤ b.order)
  (Text.joinLines (sorted.flatMap sectionParts)).trim

def assemble (assembler : SystemPromptAssembler) (pack : AgentPack) : Except String SystemPrompt :=
  let identityContent := buildIdentitySection pack.identity
  let skillsContent := buildSkillsSection (assembler.orderSkills pack.skills)
  let assemblyRulesContent :=
    if assembler.rules.includeSkillMetadata then buildAssemblyRulesSection assembler.rules pack
    else []
  let sections : List PromptSection :=
    [⟨"identity", identityContent, 0⟩, ⟨"skills", skillsContent, 1⟩] ++
    (if assembler.rules.includeSkillMetadata then [⟨"assembly-rules", assemblyRulesContent, 2⟩]
      else [])
  let fullPrompt := buildFullPrompt sections
  if fullPrompt.length16 > assembler.rules.maxPromptLength then .error (promptTooLong assembler.rules)
  else .ok ⟨identityContent, skillsContent, assemblyRulesContent, fullPrompt, sections⟩

/-- Without the metadata section the prompt depends on the identity and the sorted skills only. -/
theorem assemble_congr (assembler : SystemPromptAssembler)
    (plain : assembler.rules.includeSkillMetadata = false) {left right : AgentPack}
    (identity : left.identity = right.identity)
    (ordered : assembler.orderSkills left.skills = assembler.orderSkills right.skills) :
    assembler.assemble left = assembler.assemble right := by
  simp only [assemble, plain, identity, ordered, Bool.false_eq_true, if_false]

theorem fullPrompt_eq (assembler : SystemPromptAssembler)
    (plain : assembler.rules.includeSkillMetadata = false) {pack : AgentPack} {prompt : SystemPrompt}
    (assembled : assembler.assemble pack = .ok prompt) : prompt.fullPrompt = buildFullPrompt
      [⟨"identity", buildIdentitySection pack.identity, 0⟩,
        ⟨"skills", buildSkillsSection (assembler.orderSkills pack.skills), 1⟩] := by
  simp only [assemble, plain, Bool.false_eq_true, if_false] at assembled
  split at assembled
  · cases assembled
  · injection assembled with same
    rw [← same, List.append_nil]

end SystemPromptAssembler

end Minerva
