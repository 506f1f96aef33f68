import Minerva.Packs.Loading

namespace Minerva

structure PackValidationItem where
  message : Text
  field : Text
  code : Text
  deriving DecidableEq

structure PackValidationResult where
  valid : Bool
  errors : List PackValidationItem
  warnings : List PackValidationItem

namespace PackValidator

def requiredFiles : List Text := ["AGENTS.md".toList]

def checkRequiredFiles (pack : FileTree Text) : List PackValidationItem :=
  requiredFiles.flatMap (fun file =>
    if (pack.entry file).isSome then []
    else [⟨"Missing required file: ".toList ++ file, file, "MISSING_REQUIRED_FILE".toList⟩])

def checkDirectoryStructure (pack : FileTree Text) : List PackValidationItem :=
  if (PackLoader.skillsNode pack).isSome then []
  else [⟨"No .agents/skills directory found - pack will have no skills".toList, "skills".toList,
    "NO_SKILLS_DIRECTORY".toList⟩]

/-- `pack` is what stands at `packPath`. -/
def validateSync (packPath : Text) (pack : Option (FileTree Text)) :
    Except PackError PackValidationResult :=
  match pack with
  | none => .error (.packNotFound packPath)
  | some pack =>
    if !pack.isDirectory then
      .ok ⟨false, [⟨"Pack path must be a directory".toList, "packPath".toList,
        "NOT_A_DIRECTORY".toList⟩], []⟩
    else
      let errors := checkRequiredFiles pack
      let warnings := checkDirectoryStructure pack
      .ok ⟨errors.isEmpty, errors, warnings⟩

end PackValidator

namespace PackLoader

/-- A category that the loop in `loadSkills` gets past: its SKILL.md, if there is one, is a file
within the limit. -/
def Passable (config : PackLoaderConfig) (category : FileTree Text) : Prop :=
  ¬Obstructed category ∧ ∀ bytes ∈ FileTree.fileAt skillFile category,
    bytes.length ≤ config.maxSkillSize

/-- What the validator does not look at: AGENTS.md is a file, and the skills directory, where there
is one, is a directory with categories that the loader gets past. -/
def Readable (config : PackLoaderConfig) (pack : FileTree Text) : Prop :=
  (∃ bytes, pack.entry "AGENTS.md".toList = some (.file bytes)) ∧
    ∀ node ∈ skillsNode pack, ∃ size entries, node = .directory size entries ∧
      ∀ category ∈ entries.map Prod.fst, ∀ tree ∈ node.entry category, Passable config tree

variable {config : PackLoaderConfig} {dir : Text} {node : FileTree Text}

theorem loadCategory_ok_iff (skills : List Skill) {category : Text} {tree : FileTree Text}
    (found : node.entry category = some tree) :
    (∃ more, loadCategory config dir node skills category = .ok more) ↔ Passable config tree := by
  constructor
  · rintro ⟨more, done⟩
    have clear : ¬Obstructed tree := by
      intro obstructed
      obtain ⟨error, failed⟩ := loadCategory_obstructed config dir skills found obstructed
      rw [done] at failed
      cases failed
    refine ⟨clear, ?_⟩
    intro bytes held
    cases tree with
    | file own => cases held
    | directory size entries =>
        by_contra large
        have place : FileTree.entry skillFile (.directory size entries) = some (.file bytes) := by
          unfold FileTree.fileAt at held
          split at held
          · rename_i own place
            cases held
            exact place
          · cases held
        have refused : validateSkillSize config bytes.length =
            .error (.tooLarge config.maxSkillSize) := if_pos (Nat.lt_of_not_le large)
        simp only [loadCategory, found, place, readSkillFile, FileTree.size, refused] at done
        cases done
  · rintro ⟨clear, small⟩
    exact ⟨_, loadCategory_clear dir skills found clear small⟩

theorem categories_ok_iff (categories : List Text)
    (listed : ∀ category ∈ categories, ∃ tree, node.entry category = some tree)
    (skills : List Skill) :
    (∃ loaded, categories.foldlM (loadCategory config dir node) skills = .ok loaded) ↔
      ∀ category ∈ categories, ∀ tree ∈ node.entry category, Passable config tree := by
  induction categories generalizing skills with
  | nil => exact iff_of_true ⟨skills, rfl⟩ (fun _ member => absurd member List.not_mem_nil)
  | cons first rest ih =>
      obtain ⟨tree, found⟩ := listed first List.mem_cons_self
      have here := @loadCategory_ok_iff config dir _ skills _ _ found
      have later := ih (fun category member => listed category (List.mem_cons_of_mem _ member))
      rw [List.foldlM_cons, List.forall_mem_cons]
      constructor
      · rintro ⟨loaded, done⟩
        cases step : loadCategory config dir node skills first with
        | error error =>
            rw [step] at done
            cases done
        | ok more =>
            rw [step] at done
            refine ⟨?_, (later more).mp ⟨loaded, done⟩⟩
            intro other found'
            cases found.symm.trans found'
            exact here.mp ⟨more, step⟩
      · rintro ⟨passable, others⟩
        obtain ⟨more, step⟩ := here.mpr (passable tree found)
        obtain ⟨loaded, done⟩ := (later more).mpr others
        exact ⟨loaded, by rw [step]; exact done⟩

theorem loadSkills_ok_iff (dir : Text) (node : Option (FileTree Text)) :
    (∃ skills, loadSkills config dir node = .ok skills) ↔
      ∀ skillsDir ∈ node, ∃ size entries, skillsDir = .directory size entries ∧
        ∀ category ∈ entries.map Prod.fst, ∀ tree ∈ skillsDir.entry category,
          Passable config tree := by
  cases node with
  | none => exact iff_of_true ⟨[], rfl⟩ (fun _ member => by cases member)
  | some node =>
      simp only [Option.mem_some_iff, forall_eq']
      cases node with
      | file bytes =>
          constructor
          · rintro ⟨skills, done⟩
            cases done
          · rintro ⟨size, entries, same, -⟩
            cases same
      | directory size entries =>
          have loop := @categories_ok_iff config dir (.directory size entries) (entries.map Prod.fst)
            (fun _ member => FileTree.entry_of_listed size member) []
          constructor
          · intro done
            exact ⟨size, entries, rfl, loop.mp done⟩
          · rintro ⟨size', entries', same, passable⟩
            cases same
            exact loop.mpr passable

theorem load_ok_iff (now : Int) (packPath : Text) (pack : FileTree Text) :
    (∃ loaded, load config now packPath (some pack) = .ok loaded) ↔ Readable config pack := by
  cases present : pack.entry "AGENTS.md".toList with
  | none =>
      constructor
      · rintro ⟨loaded, done⟩
        simp only [load, present] at done
        cases done
      · rintro ⟨⟨bytes, found⟩, -⟩
        rw [present] at found
        cases found
  | some agentsMd =>
      cases agentsMd with
      | directory size entries =>
          constructor
          · rintro ⟨loaded, done⟩
            simp only [load, present, readFile] at done
            cases done
          · rintro ⟨⟨bytes, found⟩, -⟩
            rw [present] at found
            cases found
      | file bytes =>
          rw [load_agentsMd config now packPath present]
          have skills := @loadSkills_ok_iff config (skillsDir packPath) (skillsNode pack)
          constructor
          · rintro ⟨loaded, done⟩
            refine ⟨⟨bytes, present⟩, skills.mp ?_⟩
            cases read : loadSkills config (skillsDir packPath) (skillsNode pack) with
            | error error =>
                rw [read] at done
                cases done
            | ok skills => exact ⟨skills, rfl⟩
          · rintro ⟨-, passable⟩
            obtain ⟨read, done⟩ := skills.mpr passable
            exact ⟨_, congrArg _ done⟩

theorem loadSkills_error (dir : Text) (node : Option (FileTree Text)) (fileName : Text) :
    loadSkills config dir node ≠ .error (.missingRequiredFile fileName) := by
  have category (node : FileTree Text) (skills : List Skill) (category : Text) :
      loadCategory config dir node skills category ≠ .error (.missingRequiredFile fileName) := by
    intro failed
    unfold loadCategory at failed
    split at failed
    · cases failed
    · cases failed
    · split at failed
      · cases failed
      · unfold readSkillFile at failed
        split at failed
        · cases failed
        · split at failed <;> cases failed
  have loop (node : FileTree Text) (categories : List Text) (skills : List Skill) :
      categories.foldlM (loadCategory config dir node) skills ≠
        .error (.missingRequiredFile fileName) := by
    induction categories generalizing skills with
    | nil =>
        intro failed
        cases failed
    | cons first rest ih =>
        intro failed
        rw [List.foldlM_cons] at failed
        cases step : loadCategory config dir node skills first with
        | error error =>
            rw [step] at failed
            cases failed
            exact category node skills first step
        | ok more =>
            rw [step] at failed
            exact ih more failed
  unfold loadSkills
  cases node with
  | none => simp
  | some node =>
      dsimp only
      split
      · simp
      · exact loop node _ []

theorem load_missing_iff (now : Int) (packPath : Text) (pack : FileTree Text) :
    load config now packPath (some pack) = .error (.missingRequiredFile "AGENTS.md".toList) ↔
      pack.entry "AGENTS.md".toList = none := by
  cases present : pack.entry "AGENTS.md".toList with
  | none =>
      simp only [load, present]
  | some agentsMd =>
      cases agentsMd with
      | directory size entries =>
          simp only [load, present, readFile]
          exact iff_of_false (by rintro ⟨⟩) (by rintro ⟨⟩)
      | file bytes =>
          rw [load_agentsMd config now packPath present]
          have never := @loadSkills_error config (skillsDir packPath) (skillsNode pack)
            "AGENTS.md".toList
          cases read : loadSkills config (skillsDir packPath) (skillsNode pack) with
          | error error =>
              rw [read] at never
              simpa [Except.map] using never
          | ok skills => simp [Except.map]

theorem load_without_skills (now : Int) (packPath : Text) (pack : FileTree Text)
    (none : skillsNode pack = none) (loaded : AgentPack)
    (done : load config now packPath (some pack) = .ok loaded) : loaded.skills = [] := by
  obtain ⟨⟨bytes, present⟩, -⟩ := (@load_ok_iff config now packPath pack).mp ⟨loaded, done⟩
  rw [load_agentsMd config now packPath present, none] at done
  cases done
  rfl

end PackLoader

namespace PackValidator

variable {packPath : Text} {pack : FileTree Text} {result : PackValidationResult}

theorem valid_iff (validated : validateSync packPath (some pack) = .ok result) :
    result.valid = true ↔ pack.entry "AGENTS.md".toList ≠ none := by
  cases pack with
  | file bytes =>
      cases validated
      simp [FileTree.entry]
  | directory size entries =>
      cases validated
      simp only [checkRequiredFiles, requiredFiles, List.flatMap_cons, List.flatMap_nil,
        List.append_nil]
      cases FileTree.entry "AGENTS.md".toList (.directory size entries) with
      | none => simp
      | some agentsMd => simp

theorem warned (validated : validateSync packPath (some pack) = .ok result)
    (some_warning : result.warnings ≠ []) : PackLoader.skillsNode pack = none := by
  cases pack with
  | file bytes => rfl
  | directory size entries =>
      cases validated
      by_contra present
      apply some_warning
      have found := Option.isSome_iff_ne_none.mpr present
      simp only [checkDirectoryStructure, found, if_true]

/-- What the validator says of a pack foretells how loading it ends. It throws where loading fails
with the same error; a pack is invalid exactly if loading it fails for want of AGENTS.md; it loads
exactly if it is valid and what the validator does not look at can be read; and with a warning it
loads without skills. -/
theorem validator_foretells_load (config : PackLoaderConfig) (now : Int) (packPath : Text)
    (pack : Option (FileTree Text)) :
    (∀ error, validateSync packPath pack = .error error →
      PackLoader.load config now packPath pack = .error error) ∧
    ∀ result, validateSync packPath pack = .ok result →
      (result.valid = false ↔ PackLoader.load config now packPath pack =
        .error (.missingRequiredFile "AGENTS.md".toList)) ∧
      ((∃ loaded, PackLoader.load config now packPath pack = .ok loaded) ↔
        result.valid = true ∧ ∃ tree ∈ pack, PackLoader.Readable config tree) ∧
      (result.warnings ≠ [] → ∀ loaded, PackLoader.load config now packPath pack = .ok loaded →
        loaded.skills = []) := by
  cases pack with
  | none =>
      constructor
      · intro error thrown
        cases thrown
        rfl
      · intro result validated
        cases validated
  | some tree =>
      constructor
      · intro error thrown
        cases tree <;> cases thrown
      · intro result validated
        have valid := valid_iff validated
        have missing := @PackLoader.load_missing_iff config now packPath tree
        have loads := @PackLoader.load_ok_iff config now packPath tree
        refine ⟨?_, ?_, ?_⟩
        · rw [missing, ← Bool.not_eq_true, valid, not_not]
        · rw [loads]
          constructor
          · intro readable
            obtain ⟨bytes, found⟩ := readable.1
            refine ⟨valid.mpr ?_, tree, rfl, readable⟩
            rw [found]
            exact Option.some_ne_none _
          · rintro ⟨-, other, same, readable⟩
            cases same
            exact readable
        · intro some_warning loaded done
          exact PackLoader.load_without_skills now packPath tree (warned validated some_warning)
            loaded done

end PackValidator

end Minerva
