import Mathlib.Algebra.BigOperators.Group.List.Basic
import Minerva.Library.FileTree
import Minerva.Library.PosixPath
import Minerva.Library.Utf8
import Minerva.Packs.Loader

namespace Minerva

inductive FsError where
  | notFound (path : Text)
  | isDirectory
  | notDirectory (path : Text)

namespace FsError

def message : FsError → Text
  | .notFound path => "ENOENT: no such file or directory, stat '".toList ++ path ++ "'".toList
  | .isDirectory => "EISDIR: illegal operation on a directory, read".toList
  | .notDirectory path => "ENOTDIR: not a directory, scandir '".toList ++ path ++ "'".toList

def code : FsError → Text
  | .notFound _ => "ENOENT".toList
  | .isDirectory => "EISDIR".toList
  | .notDirectory _ => "ENOTDIR".toList

end FsError

inductive SkillCause where
  | tooLarge (maxSkillSize : Nat)
  | fs (error : FsError)

def SkillCause.message : SkillCause → Text
  | .tooLarge maxSkillSize =>
    "Skill file exceeds maximum size of ".toList ++ (toString maxSkillSize).toList ++
      " bytes".toList
  | .fs error => error.message

inductive PackError where
  | packNotFound (packPath : Text)
  | missingRequiredFile (fileName : Text)
  | skillLoad (skillPath : Text) (cause : SkillCause)
  /-- an error of `node:fs` that the loader does not catch -/
  | fs (error : FsError)

namespace PackError

def message : PackError → Text
  | .packNotFound packPath => "Pack not found at path: ".toList ++ packPath
  | .missingRequiredFile fileName => "Missing required file: ".toList ++ fileName
  | .skillLoad skillPath cause =>
    "Failed to load skill at ".toList ++ skillPath ++ ": ".toList ++ cause.message
  | .fs error => error.message

def code : PackError → Text
  | .packNotFound _ => "PACK_NOT_FOUND".toList
  | .missingRequiredFile _ => "VALIDATION_ERROR".toList
  | .skillLoad _ _ => "SKILL_LOAD_ERROR".toList
  | .fs error => error.code

end PackError

structure PackLoaderConfig where
  maxSkillSize : Nat

def DEFAULT_LOADER_CONFIG : PackLoaderConfig := ⟨100 * 1024⟩

namespace PackLoader

/-- `fs.readFile(path, 'utf-8')`; a byte order mark is kept. -/
def readFile : FileTree Text → Except FsError Text
  | .file bytes => .ok (Utf8.decode bytes)
  | .directory _ _ => .error .isDirectory

def readdir (path : Text) : FileTree Text → Except FsError (List Text)
  | .file _ => .error (.notDirectory path)
  | .directory _ entries => .ok (entries.map Prod.fst)

def skillFile : Text := "SKILL.md".toList

def validateSkillSize (config : PackLoaderConfig) (size : Nat) : Except SkillCause Unit :=
  if size > config.maxSkillSize then .error (.tooLarge config.maxSkillSize) else .ok ()

def readSkillFile (config : PackLoaderConfig) (skillPath category : Text) (node : FileTree Text) :
    Except PackError Skill :=
  match validateSkillSize config node.size with
  | .error cause => .error (.skillLoad skillPath cause)
  | .ok () =>
    match readFile node with
    | .error error => .error (.skillLoad skillPath (.fs error))
    | .ok content => .ok
      { name := PosixPath.basename (PosixPath.dirname skillPath)
        category
        content
        path := skillPath
        size := node.size }

def loadCategory (config : PackLoaderConfig) (skillsDir : Text) (node : FileTree Text)
    (skills : List Skill) (category : Text) : Except PackError (List Skill) :=
  let categoryPath := PosixPath.join skillsDir category
  match node.entry category with
  | none => .error (.fs (.notFound categoryPath))
  -- `if (!stat.isDirectory()) continue`
  | some (.file _) => .ok skills
  | some (.directory size entries) =>
    let skillFilePath := PosixPath.join categoryPath skillFile
    match FileTree.entry skillFile (.directory size entries) with
    | none => .ok skills
    | some found =>
      (readSkillFile config skillFilePath category found).map (fun skill => skills ++ [skill])

def loadSkills (config : PackLoaderConfig) (skillsDir : Text) (node : Option (FileTree Text)) :
    Except PackError (List Skill) :=
  match node with
  | none => .ok []
  | some node =>
    match readdir skillsDir node with
    | .error error => .error (.fs error)
    | .ok categories => categories.foldlM (loadCategory config skillsDir node) []

def skillsDir (packPath : Text) : Text :=
  PosixPath.join3 packPath ".agents".toList "skills".toList

def skillsNode (pack : FileTree Text) : Option (FileTree Text) :=
  (pack.entry ".agents".toList).bind (FileTree.entry "skills".toList)

/-- `pack` is what stands at `packPath`, and `now` the time when the skills have been read. -/
def load (config : PackLoaderConfig) (now : Int) (packPath : Text) (pack : Option (FileTree Text)) :
    Except PackError AgentPack :=
  match pack with
  | none => .error (.packNotFound packPath)
  | some pack =>
    match pack.entry "AGENTS.md".toList with
    | none => .error (.missingRequiredFile "AGENTS.md".toList)
    | some agentsMd =>
      match readFile agentsMd with
      | .error error => .error (.fs error)
      | .ok identityContent =>
        let identity := parseIdentity identityContent
        match loadSkills config (skillsDir packPath) (skillsNode pack) with
        | .error error => .error error
        | .ok skills =>
          let totalSize := skills.foldl (fun sum skill => sum + skill.size) 0
          .ok
            { path := packPath
              identity
              skills
              metadata := ⟨(toISOString now).toList, skills.length, totalSize⟩ }

/-- A file as the loader reports it: its path, its text and its size. -/
abbrev Source := Text × Text × Nat

def source (skill : Skill) : Source := (skill.path, skill.content, skill.size)

def spelled (skillsDir : Text) (found : FileTree.Located Text) : Source :=
  (found.1.foldl PosixPath.join skillsDir, Utf8.decode found.2, found.2.length)

def skillOf (skillsDir category : Text) (bytes : List UInt8) : Skill :=
  let skillPath := PosixPath.join (PosixPath.join skillsDir category) skillFile
  { name := PosixPath.basename (PosixPath.dirname skillPath)
    category
    content := Utf8.decode bytes
    path := skillPath
    size := bytes.length }

def listed (entry : Text × FileTree Text) : List (FileTree.Located Text) :=
  ((FileTree.fileAt skillFile entry.2).map (fun bytes => ([entry.1, skillFile], bytes))).toList

/-- A directory stands where the SKILL.md of a category would. -/
def Obstructed (node : FileTree Text) : Prop :=
  ∃ found ∈ node.entry skillFile, found.isDirectory = true

instance (node : FileTree Text) : Decidable (Obstructed node) :=
  inferInstanceAs (Decidable (∃ found ∈ node.entry skillFile, _))

section

variable {config : PackLoaderConfig}

/-- The size of a directory may be over the limit; reading it fails all the same. -/
theorem readSkillFile_directory (config : PackLoaderConfig) (skillPath category : Text) (size : Nat)
    (entries : List (Text × FileTree Text)) :
    ∃ error, readSkillFile config skillPath category (.directory size entries) = .error error := by
  unfold readSkillFile
  split
  · exact ⟨_, rfl⟩
  · exact ⟨_, rfl⟩

theorem readSkillFile_file (skillPath category : Text) {bytes : List UInt8}
    (small : bytes.length ≤ config.maxSkillSize) :
    readSkillFile config skillPath category (.file bytes) =
      .ok ⟨PosixPath.basename (PosixPath.dirname skillPath), category, Utf8.decode bytes, skillPath,
        bytes.length⟩ := by
  have valid : validateSkillSize config bytes.length = .ok () := if_neg (Nat.not_lt.mpr small)
  simp only [readSkillFile, FileTree.size, valid, readFile]

theorem loadCategory_obstructed (config : PackLoaderConfig) (dir : Text) {node tree : FileTree Text}
    (skills : List Skill) {category : Text} (found : node.entry category = some tree)
    (obstructed : Obstructed tree) :
    ∃ error, loadCategory config dir node skills category = .error error := by
  obtain ⟨inner, place, directory⟩ := obstructed
  cases tree with
  | file bytes => cases place
  | directory size entries =>
      cases inner with
      | file bytes => cases directory
      | directory inner sub =>
          obtain ⟨error, failed⟩ := readSkillFile_directory config
            (PosixPath.join (PosixPath.join dir category) skillFile) category inner sub
          refine ⟨error, ?_⟩
          simp only [loadCategory, found, Option.mem_def.mp place, failed]
          rfl

theorem loadCategory_clear (dir : Text) {node tree : FileTree Text} (skills : List Skill)
    {category : Text} (found : node.entry category = some tree) (clear : ¬Obstructed tree)
    (small : ∀ bytes, FileTree.fileAt skillFile tree = some bytes →
      bytes.length ≤ config.maxSkillSize) :
    loadCategory config dir node skills category =
      .ok (skills ++ (FileTree.fileAt skillFile tree).toList.map (skillOf dir category)) := by
  cases tree with
  | file bytes =>
      have nothing : FileTree.fileAt skillFile (.file bytes) = none := rfl
      rw [nothing]
      simp only [loadCategory, found, Option.toList_none, List.map_nil, List.append_nil]
  | directory size entries =>
      cases place : FileTree.entry skillFile (.directory size entries) with
      | none =>
          have nothing : FileTree.fileAt skillFile (.directory size entries) = none := by
            simp only [FileTree.fileAt, place]
          rw [nothing]
          simp only [loadCategory, found, place, Option.toList_none, List.map_nil, List.append_nil]
      | some inner =>
          cases inner with
          | directory inner sub => exact absurd ⟨.directory inner sub, place, rfl⟩ clear
          | file bytes =>
              have mine : FileTree.fileAt skillFile (.directory size entries) = some bytes := by
                simp only [FileTree.fileAt, place]
              have read := readSkillFile_file
                (PosixPath.join (PosixPath.join dir category) skillFile) category
                (small bytes mine)
              rw [mine]
              simp only [loadCategory, found, place, read]
              rfl

theorem categories_clear (dir : Text) {node : FileTree Text} (rest : List (Text × FileTree Text))
    (known : ∀ entry ∈ rest, node.entry entry.1 = some entry.2)
    (clear : ∀ entry ∈ rest, ¬Obstructed entry.2)
    (small : ∀ entry ∈ rest, ∀ bytes, FileTree.fileAt skillFile entry.2 = some bytes →
      bytes.length ≤ config.maxSkillSize) (skills : List Skill) :
    (rest.map Prod.fst).foldlM (loadCategory config dir node) skills =
      .ok (skills ++ rest.flatMap (fun entry =>
        (FileTree.fileAt skillFile entry.2).toList.map (skillOf dir entry.1))) := by
  induction rest generalizing skills with
  | nil =>
      rw [List.flatMap_nil, List.append_nil]
      rfl
  | cons first rest ih =>
      have step := loadCategory_clear dir skills (known first List.mem_cons_self)
        (clear first List.mem_cons_self) (small first List.mem_cons_self)
      rw [List.map_cons, List.foldlM_cons, step, List.flatMap_cons, ← List.append_assoc]
      exact ih (fun entry member => known entry (List.mem_cons_of_mem _ member))
        (fun entry member => clear entry (List.mem_cons_of_mem _ member))
        (fun entry member => small entry (List.mem_cons_of_mem _ member)) _

theorem categories_obstructed (config : PackLoaderConfig) (dir : Text) {node : FileTree Text}
    (rest : List (Text × FileTree Text))
    (known : ∀ entry ∈ rest, node.entry entry.1 = some entry.2) {blocked : Text × FileTree Text}
    (member : blocked ∈ rest) (obstructed : Obstructed blocked.2) (skills : List Skill) :
    ∃ error, (rest.map Prod.fst).foldlM (loadCategory config dir node) skills = .error error := by
  induction rest generalizing skills with
  | nil => cases member
  | cons first rest ih =>
      rw [List.map_cons, List.foldlM_cons]
      cases done : loadCategory config dir node skills first.1 with
      | error error => exact ⟨error, rfl⟩
      | ok more =>
          rcases List.mem_cons.mp member with here | later
          · rw [here] at obstructed
            obtain ⟨error, failed⟩ := loadCategory_obstructed config dir skills
              (known first List.mem_cons_self) obstructed
            rw [done] at failed
            cases failed
          · exact ih (fun entry member => known entry (List.mem_cons_of_mem _ member)) later more

theorem source_skills (dir : Text) (entries : List (Text × FileTree Text)) :
    (entries.flatMap (fun entry =>
        (FileTree.fileAt skillFile entry.2).toList.map (skillOf dir entry.1))).map source =
      (entries.flatMap listed).map (spelled dir) := by
  rw [List.map_flatMap, List.map_flatMap]
  congr 1
  funext entry
  unfold listed
  cases FileTree.fileAt skillFile entry.2 with
  | none => rfl
  | some bytes => rfl

theorem foldl_sizes (skills : List Skill) (sum : Nat) :
    skills.foldl (fun sum skill => sum + skill.size) sum =
      sum + ((skills.map source).map (fun source => source.2.2)).sum := by
  induction skills generalizing sum with
  | nil => rfl
  | cons skill rest ih =>
      rw [List.foldl_cons, ih, List.map_cons, List.map_cons, List.sum_cons, ← Nat.add_assoc]
      rfl

theorem load_agentsMd (config : PackLoaderConfig) (now : Int) (packPath : Text)
    {pack : FileTree Text} {identity : List UInt8}
    (agentsMd : pack.entry "AGENTS.md".toList = some (.file identity)) :
    load config now packPath (some pack) =
      (loadSkills config (skillsDir packPath) (skillsNode pack)).map (fun skills =>
        ⟨packPath, parseIdentity (Utf8.decode identity), skills, (toISOString now).toList,
          skills.length, skills.foldl (fun sum skill => sum + skill.size) 0⟩) := by
  simp only [load, agentsMd, readFile]
  cases loadSkills config (skillsDir packPath) (skillsNode pack) <;> rfl

end

/-- The loaded pack has one skill for each of the files, with its content, and counts them. -/
def LoadsEach (config : PackLoaderConfig) (now : Int) (packPath : Text) (pack : FileTree Text)
    (files : List (FileTree.Located Text)) : Prop :=
  ∃ loaded, load config now packPath (some pack) = .ok loaded ∧
    (loaded.skills.map source).Perm (files.map (spelled (skillsDir packPath))) ∧
    loaded.metadata.skillCount = files.length ∧
    loaded.metadata.totalSize = (files.map (fun file => file.2.length)).sum

section

variable {config : PackLoaderConfig} {pack : FileTree Text} {identity : List UInt8} {size : Nat}
  {entries : List (Text × FileTree Text)}

theorem load_clear (now : Int) (packPath : Text)
    (agentsMd : pack.entry "AGENTS.md".toList = some (.file identity))
    (skills : skillsNode pack = some (.directory size entries))
    (distinct : FileTree.Distinct (.directory size entries))
    (clear : ∀ entry ∈ entries, ¬Obstructed entry.2)
    (small : ∀ file ∈ entries.flatMap listed, file.2.length ≤ config.maxSkillSize) :
    LoadsEach config now packPath pack (entries.flatMap listed) := by
  have read := categories_clear (skillsDir packPath) entries
    (fun entry member => FileTree.entry_of_mem size distinct.names member) clear
    (fun entry member bytes held => small ([entry.1, skillFile], bytes)
      (List.mem_flatMap.mpr ⟨entry, member, by simp [listed, held]⟩)) []
  have sources := source_skills (skillsDir packPath) entries
  generalize entries.flatMap (fun entry => (FileTree.fileAt skillFile entry.2).toList.map
    (skillOf (skillsDir packPath) entry.1)) = found at read sources
  have loaded := load_agentsMd config now packPath agentsMd
  rw [skills] at loaded
  refine ⟨_, loaded.trans (congrArg _ read), ?_, ?_, ?_⟩
  · show (found.map source).Perm _
    rw [sources]
  · calc found.length = (found.map source).length := (List.length_map _).symm
      _ = (entries.flatMap listed).length := by rw [sources, List.length_map]
  · calc found.foldl (fun sum skill => sum + skill.size) 0
      _ = 0 + ((found.map source).map (fun source => source.2.2)).sum := foldl_sizes found 0
      _ = ((entries.flatMap listed).map (fun file => file.2.length)).sum := by
        rw [sources, List.map_map, Nat.zero_add]
        rfl

theorem load_obstructed (config : PackLoaderConfig) (now : Int) (packPath : Text)
    (agentsMd : pack.entry "AGENTS.md".toList = some (.file identity))
    (skills : skillsNode pack = some (.directory size entries))
    (distinct : FileTree.Distinct (.directory size entries)) {blocked : Text × FileTree Text}
    (member : blocked ∈ entries) (obstructed : Obstructed blocked.2) :
    ∃ error, load config now packPath (some pack) = .error error := by
  obtain ⟨error, failed⟩ := categories_obstructed config (skillsDir packPath) entries
    (fun entry member => FileTree.entry_of_mem size distinct.names member) member
    obstructed []
  have loaded := load_agentsMd config now packPath agentsMd
  rw [skills] at loaded
  exact ⟨error, loaded.trans (congrArg _ failed)⟩

end

/-- Every SKILL.md below the skills directory is loaded exactly if each lies one directory below
it and no directory stands in the place of one. -/
theorem skills_are_loaded_iff (config : PackLoaderConfig) (now : Int) (packPath : Text)
    (pack : FileTree Text) (identity : List UInt8) (size : Nat)
    (entries : List (Text × FileTree Text))
    (agentsMd : pack.entry "AGENTS.md".toList = some (.file identity))
    (skills : skillsNode pack = some (.directory size entries))
    (distinct : FileTree.Distinct (.directory size entries))
    (small : ∀ file ∈ FileTree.named skillFile (.directory size entries),
      file.2.length ≤ config.maxSkillSize) :
    LoadsEach config now packPath pack (FileTree.named skillFile (.directory size entries)) ↔
      (∀ file ∈ FileTree.named skillFile (.directory size entries), file.1.length = 2) ∧
        ∀ entry ∈ entries, ¬Obstructed entry.2 := by
  have two : (FileTree.named skillFile (.directory size entries)).filter
      (fun found => found.1.length = 2) = entries.flatMap listed :=
    FileTree.named_at_two skillFile distinct
  have small_listed : ∀ file ∈ entries.flatMap listed, file.2.length ≤ config.maxSkillSize := by
    intro file member
    rw [← two] at member
    exact small file (List.mem_filter.mp member).1
  constructor
  · rintro ⟨loaded, done, -, counted, -⟩
    have clear : ∀ entry ∈ entries, ¬Obstructed entry.2 := by
      intro entry member obstructed
      obtain ⟨error, failed⟩ := load_obstructed config now packPath agentsMd skills distinct member
        obstructed
      rw [done] at failed
      cases failed
    refine ⟨?_, clear⟩
    -- as many files lie one directory below as there are files at all
    obtain ⟨again, same, -, listed_count, -⟩ := load_clear now packPath agentsMd skills distinct
      clear small_listed
    rw [done, Except.ok.injEq] at same
    rw [← same, counted, ← two] at listed_count
    intro file member
    have kept := List.length_filter_eq_length_iff.mp listed_count.symm file member
    exact of_decide_eq_true kept
  · rintro ⟨shallow, clear⟩
    have all : FileTree.named skillFile (.directory size entries) = entries.flatMap listed := by
      rw [← two, eq_comm]
      apply List.filter_eq_self.mpr
      intro file member
      exact decide_eq_true (shallow file member)
    rw [all]
    exact load_clear now packPath agentsMd skills distinct clear small_listed

def packWith (skills : List (Text × FileTree Text)) : FileTree Text :=
  .directory 4096 [("AGENTS.md".toList, .file []),
    (".agents".toList, .directory 4096 [("skills".toList, .directory 4096 skills)])]

def flatSkills : List (Text × FileTree Text) :=
  [("README.md".toList, .file [72, 105]),
    ("coding".toList, .directory 4096 [(skillFile, .file [35, 32, 65])]),
    ("drafts".toList, .directory 4096 [])]

theorem one_category_is_loaded :
    LoadsEach DEFAULT_LOADER_CONFIG 0 "packs/acme".toList (packWith flatSkills)
      [(["coding".toList, skillFile], [35, 32, 65])] := by
  have distinct : FileTree.Distinct (.directory 4096 flatSkills) := by
    refine .directory 4096 (by decide) ?_
    simp only [flatSkills, List.forall_mem_cons]
    refine ⟨.file _, .directory _ (by decide) ?_, .directory _ (by decide) ?_, ?_⟩
    · simpa using FileTree.Distinct.file _
    · simp
    · simp
  exact (skills_are_loaded_iff DEFAULT_LOADER_CONFIG 0 "packs/acme".toList (packWith flatSkills) []
    4096 flatSkills rfl rfl distinct (by decide)).mpr (by decide)

def nestedSkills : List (Text × FileTree Text) :=
  [("languages".toList, .directory 4096
    [("typescript".toList, .directory 4096 [(skillFile, .file [35, 32, 65])])])]

/-- The nested skill is dropped without an error. -/
theorem nested_skill_is_dropped :
    ¬∀ config now packPath pack identity size entries,
      pack.entry "AGENTS.md".toList = some (.file identity) →
      skillsNode pack = some (.directory size entries) →
      FileTree.Distinct (.directory size entries) →
      (∀ file ∈ FileTree.named skillFile (.directory size entries),
        file.2.length ≤ config.maxSkillSize) →
      LoadsEach config now packPath pack
        (FileTree.named skillFile (.directory size entries)) := by
  intro always
  have distinct : FileTree.Distinct (.directory 4096 nestedSkills) := by
    refine .directory 4096 (by decide) ?_
    simp only [nestedSkills, List.forall_mem_singleton]
    refine .directory 4096 (by decide) ?_
    simp only [List.forall_mem_singleton]
    refine .directory 4096 (by decide) ?_
    simp only [List.forall_mem_singleton]
    exact .file _
  obtain ⟨loaded, done, -, counted, -⟩ := always DEFAULT_LOADER_CONFIG 0 "packs/acme".toList
    (packWith nestedSkills) [] 4096 nestedSkills rfl rfl distinct (by decide)
  have dropped : (load DEFAULT_LOADER_CONFIG 0 "packs/acme".toList
      (some (packWith nestedSkills))).toOption.map (fun loaded => loaded.metadata.skillCount) =
        some 0 := by decide +kernel
  rw [done] at dropped
  have skipped : loaded.metadata.skillCount = 0 := Option.some.inj dropped
  rw [counted] at skipped
  exact absurd skipped (by decide)

end PackLoader

end Minerva
