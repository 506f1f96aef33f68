import Minerva.Packs.SkillOrder
import Minerva.Packs.Validator

/-! The prompt of a run is made from the files of its pack: it does not matter where the pack lies,
in which order its directories are listed, or when it is read. -/

namespace Minerva

inductive PromptError where
  | pack (error : PackError)
  | assembly (message : String)

/-- What a host gives: the working directory, `config.packs.basePath`, what stands at a path, the
time, and the default locale. -/
structure PackHost where
  cwd : Text
  basePath : Text
  files : Text → Option (FileTree Text)
  now : Int
  collation : Collation

namespace RunExecutionService

def resolvePackPath (host : PackHost) (agentPackId : Text) : Text :=
  if PosixPath.isAbsolute agentPackId then agentPackId
  else '/' :: PosixPath.joined (PosixPath.resolve host.cwd
    (PosixPath.joined ([host.basePath, agentPackId].filter (fun path => path ≠ []))))

example : resolvePackPath ⟨"/srv".toList, "./packs".toList, fun _ => none, 0, codePoints⟩
    "../acme".toList = "/srv/acme".toList := by decide

/-- `systemPromptAssembler.assemble(await packLoader.load(packPath)).fullPrompt` -/
def systemPrompt (rules : AssemblyRules) (config : PackLoaderConfig) (host : PackHost)
    (agentPackId : Text) : Except PromptError Text :=
  let packPath := resolvePackPath host agentPackId
  match PackLoader.load config host.now packPath (host.files packPath) with
  | .error error => .error (.pack error)
  | .ok pack =>
    match SystemPromptAssembler.assemble ⟨host.collation, rules⟩ pack with
    | .error message => .error (.assembly message)
    | .ok prompt => .ok prompt.fullPrompt

end RunExecutionService

/-- A tree as a file system has it: no directory lists a name twice, and each name is one that an
entry can have. -/
structure Mounted (tree : FileTree Text) : Prop where
  distinct : FileTree.Distinct tree
  named : ∀ path, (FileTree.stands path tree).isSome = true → ∀ name ∈ path, PosixPath.Name name

theorem Mounted.entry {tree node : FileTree Text} (mounted : Mounted tree) {name : Text}
    (found : tree.entry name = some node) : PosixPath.Name name ∧ Mounted node := by
  have inside (path : List Text) (standing : (FileTree.stands path node).isSome = true) :
      ∀ other ∈ name :: path, PosixPath.Name other := by
    apply mounted.named (name :: path)
    simpa only [FileTree.stands, found, Option.bind_some] using standing
  refine ⟨inside [] (FileTree.stands_nil node) name List.mem_cons_self, ?_, ?_⟩
  · cases tree with
    | file bytes => cases found
    | directory size entries =>
        exact mounted.distinct.inside (FileTree.mem_of_entry found)
  · intro path standing other member
    exact inside path standing other (List.mem_cons_of_mem _ member)

theorem Mounted.skillsNode {pack node : FileTree Text} (mounted : Mounted pack)
    (found : PackLoader.skillsNode pack = some node) : Mounted node := by
  obtain ⟨agents, above, below⟩ := Option.bind_eq_some_iff.mp found
  exact ((mounted.entry above).2.entry below).2

theorem mounted_file (bytes : List UInt8) : Mounted (.file bytes) := by
  refine ⟨.file bytes, ?_⟩
  intro path standing
  cases path with
  | nil =>
      intro name member
      cases member
  | cons name path => cases standing

theorem mounted_directory (size : Nat) {entries : List (Text × FileTree Text)}
    (names : (entries.map Prod.fst).Nodup)
    (inside : ∀ entry ∈ entries, PosixPath.Name entry.1 ∧ Mounted entry.2) :
    Mounted (.directory size entries) := by
  refine ⟨.directory size names (fun entry member => (inside entry member).2.distinct), ?_⟩
  intro path standing
  cases path with
  | nil =>
      intro name member
      cases member
  | cons name path =>
      cases found : FileTree.entry name (.directory size entries) with
      | none =>
          simp only [FileTree.stands, found, Option.bind_none] at standing
          cases standing
      | some node =>
          simp only [FileTree.stands, found, Option.bind_some] at standing
          obtain ⟨named, below⟩ := inside (name, node) (FileTree.mem_of_entry found)
          rw [List.forall_mem_cons]
          exact ⟨named, below.named path standing⟩

namespace SystemPromptAssembler

def bare (skill : Skill) : Skill := { skill with path := [] }

theorem buildSkillsSection_bare (skills : List Skill) :
    buildSkillsSection (skills.map bare) = buildSkillsSection skills := by
  have keys : Grouping.firstKeys Skill.category (skills.map bare) =
      Grouping.firstKeys Skill.category skills := by
    induction skills with
    | nil => rfl
    | cons skill rest ih =>
        simp only [List.map_cons, Grouping.firstKeys, ih]
        rfl
  have group (category : Text) : categoryParts
        (category, Grouping.ofKey Skill.category category (skills.map bare)) =
      categoryParts (category, Grouping.ofKey Skill.category category skills) := by
    simp only [categoryParts, Grouping.ofKey, List.filter_map, List.flatMap_map]
    rfl
  have groups : (groupSkillsByCategory (skills.map bare)).entries.flatMap categoryParts =
      (groupSkillsByCategory skills).entries.flatMap categoryParts := by
    simp only [groupSkillsByCategory, Grouping.entries_groupBy, keys, List.flatMap_map, group]
  simp only [buildSkillsSection, List.map_eq_nil_iff, groups]

theorem orderSkills_bare (assembler : SystemPromptAssembler) (skills : List Skill) :
    assembler.orderSkills (skills.map bare) = (assembler.orderSkills skills).map bare := by
  rw [orderSkills_eq, orderSkills_eq]
  refine (List.map_insertionSort _ _ bare skills ?_).symm
  intro a _ b _
  unfold Ascends
  cases assembler.rules.skillOrdering <;> rfl

theorem assemble_bare (assembler : SystemPromptAssembler)
    (plain : assembler.rules.includeSkillMetadata = false) (pack : AgentPack) :
    assembler.assemble { pack with skills := pack.skills.map bare } = assembler.assemble pack := by
  simp only [assemble, plain, orderSkills_bare, buildSkillsSection_bare, Bool.false_eq_true,
    if_false]

/-- Packs with the same identity and the same skills, wherever these were loaded from. -/
theorem assemble_perm {collation : Collation} (separates : collation.Separates)
    {left right : AgentPack} (identity : left.identity = right.identity)
    (distinct : Distinct (left.skills.map bare))
    (perm : (left.skills.map bare).Perm (right.skills.map bare)) :
    assemble ⟨collation, .default⟩ left = assemble ⟨collation, .default⟩ right := by
  rw [← assemble_bare ⟨collation, .default⟩ rfl left, ← assemble_bare ⟨collation, .default⟩ rfl right]
  exact assemble_congr ⟨collation, .default⟩ rfl identity
    (orderSkills_perm ⟨collation, .default⟩ separates rfl distinct perm)

end SystemPromptAssembler

namespace PackLoader

open SystemPromptAssembler

variable {config : PackLoaderConfig} {left right pack : FileTree Text}

theorem Obstructed.alike (alike : left.Alike right) (obstructed : Obstructed left) :
    Obstructed right := by
  obtain ⟨node, found, directory⟩ := obstructed
  obtain ⟨other, there, same⟩ := alike.entry found
  cases node with
  | file bytes => cases directory
  | directory size entries =>
      obtain ⟨own, listed, rfl⟩ := same.directory
      exact ⟨_, there, rfl⟩

theorem Passable.alike (alike : left.Alike right) (passable : Passable config left) :
    Passable config right := by
  refine ⟨fun obstructed => passable.1 (obstructed.alike alike.symm), ?_⟩
  rw [← alike.fileAt]
  exact passable.2

theorem skillsNode_alike (alike : left.Alike right) {node : FileTree Text}
    (found : skillsNode left = some node) :
    ∃ other, skillsNode right = some other ∧ node.Alike other := by
  obtain ⟨agents, above, below⟩ := Option.bind_eq_some_iff.mp found
  obtain ⟨agents', above', alike'⟩ := alike.entry above
  obtain ⟨other, there, same⟩ := alike'.entry below
  exact ⟨other, Option.bind_eq_some_iff.mpr ⟨agents', above', there⟩, same⟩

theorem Readable.alike (alike : left.Alike right) (readable : Readable config left) :
    Readable config right := by
  obtain ⟨⟨bytes, agentsMd⟩, skills⟩ := readable
  constructor
  · obtain ⟨other, there, same⟩ := alike.entry agentsMd
    exact ⟨bytes, there.trans (congrArg some same.file)⟩
  · intro node found
    obtain ⟨other, there, same⟩ := skillsNode_alike alike.symm found
    obtain ⟨size, entries, rfl, passable⟩ := skills other there
    obtain ⟨own, listed, rfl⟩ := same.symm.directory
    refine ⟨own, listed, rfl, ?_⟩
    intro category member tree here
    obtain ⟨tree', here', like⟩ := same.entry here
    have category_listed : category ∈ entries.map Prod.fst :=
      List.mem_map_of_mem (FileTree.mem_of_entry here')
    exact (passable category category_listed tree' here').alike like.symm

def skillIn (node : FileTree Text) (category : Text) : List Skill :=
  (node.stands [category, skillFile]).join.toList.map (fun bytes =>
    ⟨category, category, Utf8.decode bytes, [], bytes.length⟩)

theorem skillIn_category (node : FileTree Text) (category : Text) :
    ∀ skill ∈ skillIn node category, skill.category = category := by
  intro skill member
  obtain ⟨bytes, -, rfl⟩ := List.mem_map.mp member
  rfl

def skillsIn : Option (FileTree Text) → List Skill
  | some (.directory size entries) =>
    (entries.map Prod.fst).flatMap (skillIn (.directory size entries))
  | _ => []

theorem skillFile_name : PosixPath.Name skillFile := by decide

theorem bare_skillOf (dir : Text) {category : Text} (named : PosixPath.Name category)
    (bytes : List UInt8) :
    bare (skillOf dir category bytes) =
      ⟨category, category, Utf8.decode bytes, [], bytes.length⟩ := by
  obtain ⟨front, stem, path⟩ := PosixPath.join_join dir named skillFile_name
  have name : PosixPath.basename (PosixPath.dirname
      (PosixPath.join (PosixPath.join dir category) skillFile)) = category := by
    rw [path, PosixPath.dirname_name named skillFile_name, PosixPath.basename_name stem named]
  simp only [bare, skillOf, name]

theorem bare_loaded (dir : Text) {size : Nat} {entries : List (Text × FileTree Text)}
    (mounted : Mounted (.directory size entries)) :
    (entries.flatMap (fun entry => (FileTree.fileAt skillFile entry.2).toList.map
      (skillOf dir entry.1))).map bare = skillsIn (some (.directory size entries)) := by
  simp only [skillsIn, List.map_flatMap, List.flatMap_map]
  apply List.flatMap_congr
  intro entry member
  have found := FileTree.entry_of_mem size mounted.distinct.names member
  have stands : (FileTree.directory size entries).stands [entry.1, skillFile] =
      entry.2.stands [skillFile] := by
    simp only [FileTree.stands, found, Option.bind_some]
  rw [skillIn, stands, ← FileTree.fileAt_eq, List.map_map]
  apply List.map_congr_left
  intro bytes _
  exact bare_skillOf dir (mounted.entry found).1 bytes

theorem load_readable (now : Int) (packPath : Text) (mounted : Mounted pack)
    (readable : Readable config pack) {bytes : List UInt8}
    (agentsMd : pack.entry "AGENTS.md".toList = some (.file bytes)) :
    ∃ loaded, load config now packPath (some pack) = .ok loaded ∧
      loaded.identity = parseIdentity (Utf8.decode bytes) ∧
      loaded.skills.map bare = skillsIn (skillsNode pack) := by
  have loaded := load_agentsMd config now packPath agentsMd
  cases skills : skillsNode pack with
  | none =>
      rw [skills] at loaded
      exact ⟨_, loaded, rfl, rfl⟩
  | some node =>
      obtain ⟨size, entries, rfl, passable⟩ := readable.2 node skills
      have mounted_skills := mounted.skillsNode skills
      have found : ∀ entry ∈ entries,
          FileTree.entry entry.1 (.directory size entries) = some entry.2 := fun entry member =>
        FileTree.entry_of_mem size mounted_skills.distinct.names member
      have passed : ∀ entry ∈ entries, Passable config entry.2 := fun entry member =>
        passable entry.1 (List.mem_map_of_mem member) entry.2 (found entry member)
      have read := categories_clear (skillsDir packPath) entries found
        (fun entry member => (passed entry member).1) (fun entry member => (passed entry member).2) []
      rw [skills] at loaded
      exact ⟨_, loaded.trans (congrArg _ read), rfl, bare_loaded (skillsDir packPath) mounted_skills⟩

theorem skillsIn_distinct (mounted : Mounted pack) : Distinct (skillsIn (skillsNode pack)) := by
  cases skills : skillsNode pack with
  | none => exact List.Pairwise.nil
  | some node =>
      cases node with
      | file bytes => exact List.Pairwise.nil
      | directory size entries =>
          have names := (mounted.skillsNode skills).distinct.names
          refine List.pairwise_flatMap.mpr ⟨?_, ?_⟩
          · intro category _
            unfold skillIn
            cases (FileTree.stands [category, skillFile] (.directory size entries)).join with
            | none => exact List.Pairwise.nil
            | some bytes => exact List.pairwise_singleton _ _
          · refine names.imp ?_
            intro category other differs skill member skill' member' same
            apply differs
            rw [← skillIn_category _ category skill member,
              ← skillIn_category _ other skill' member']
            exact congrArg Prod.fst same

theorem skillsIn_perm (alike : left.Alike right) (mounted : Mounted left)
    (mounted' : Mounted right) (readable : Readable config left) :
    (skillsIn (skillsNode left)).Perm (skillsIn (skillsNode right)) := by
  cases skills : skillsNode left with
  | none =>
      cases others : skillsNode right with
      | none => exact List.Perm.refl _
      | some node =>
          obtain ⟨other, there, -⟩ := skillsNode_alike alike.symm others
          rw [skills] at there
          cases there
  | some node =>
      obtain ⟨other, there, same⟩ := skillsNode_alike alike skills
      obtain ⟨size, entries, rfl, -⟩ := readable.2 node skills
      obtain ⟨own, listed, rfl⟩ := same.directory
      rw [there]
      have names := same.names (mounted.skillsNode skills).distinct.names
        (mounted'.skillsNode there).distinct.names
      have each : skillIn (.directory size entries) = skillIn (.directory own listed) := by
        funext category
        unfold skillIn
        rw [same]
      simp only [skillsIn, each]
      exact names.flatMap_right _

end PackLoader

namespace RunExecutionService

open PackLoader

variable (config : PackLoaderConfig) (here there : PackHost) (agentPackId other : Text)

/-- Where the same files stand in two packs, on hosts of one locale, the prompts of runs with the
packs are the same, or are refused alike; or neither of the packs can be loaded. -/
theorem same_files_same_prompt (locale : there.collation = here.collation)
    (separates : here.collation.Separates) {left right : FileTree Text}
    (stands : here.files (resolvePackPath here agentPackId) = some left)
    (stands' : there.files (resolvePackPath there other) = some right)
    (mounted : Mounted left) (mounted' : Mounted right) (alike : left.Alike right) :
    systemPrompt .default config here agentPackId = systemPrompt .default config there other ∨
      ((∃ error, systemPrompt .default config here agentPackId = .error (.pack error)) ∧
        ∃ error, systemPrompt .default config there other = .error (.pack error)) := by
  unfold systemPrompt
  simp only [stands, stands', locale]
  by_cases readable : Readable config left
  · left
    obtain ⟨bytes, agentsMd⟩ := readable.1
    obtain ⟨node, found, same⟩ := alike.entry agentsMd
    rw [same.file] at found
    obtain ⟨pack, loaded, identity, skills⟩ := load_readable here.now
      (resolvePackPath here agentPackId) mounted readable agentsMd
    obtain ⟨pack', loaded', identity', skills'⟩ := load_readable there.now
      (resolvePackPath there other) mounted' (readable.alike alike) found
    have assembled := SystemPromptAssembler.assemble_perm separates (identity.trans identity'.symm)
      (skills ▸ skillsIn_distinct mounted)
      (by rw [skills, skills']; exact skillsIn_perm alike mounted mounted' readable)
    rw [loaded, loaded']
    simp only [assembled]
  · right
    have unreadable : ¬Readable config right := fun able => readable (able.alike alike.symm)
    have fails (now : Int) (packPath : Text) {pack : FileTree Text}
        (unreadable : ¬Readable config pack) :
        ∃ error, load config now packPath (some pack) = .error error := by
      cases loaded : load config now packPath (some pack) with
      | error error => exact ⟨error, rfl⟩
      | ok done => exact absurd ((load_ok_iff now packPath pack).mp ⟨done, loaded⟩) unreadable
    obtain ⟨error, failed⟩ := fails here.now (resolvePackPath here agentPackId) readable
    obtain ⟨error', failed'⟩ := fails there.now (resolvePackPath there other) unreadable
    rw [failed, failed']
    exact ⟨⟨error, rfl⟩, error', rfl⟩

def twoSkills (size : Nat) (skills : List (Text × FileTree Text)) : FileTree Text :=
  .directory size [("AGENTS.md".toList, .file [35, 32, 65]),
    (".agents".toList, .directory 4096 [("skills".toList, .directory size skills)])]

def opsAndDev : List (Text × FileTree Text) :=
  [("ops".toList, .directory 4096 [(skillFile, .file [104, 105])]),
    ("dev".toList, .directory 4096 [(skillFile, .file [121, 111])])]

theorem twoSkills_mounted (size : Nat) {skills : List (Text × FileTree Text)}
    (perm : opsAndDev.Perm skills) : Mounted (twoSkills size skills) := by
  have category (bytes : List UInt8) : Mounted (.directory 4096 [(skillFile, .file bytes)]) := by
    refine mounted_directory 4096 (?_ : [skillFile].Nodup) ?_
    · exact List.nodup_singleton _
    · rw [List.forall_mem_singleton]
      exact ⟨skillFile_name, mounted_file bytes⟩
  have listed : Mounted (.directory size skills) := by
    apply mounted_directory size ((perm.map Prod.fst).nodup_iff.mp (by decide))
    intro entry member
    have before : entry ∈ opsAndDev := perm.mem_iff.mpr member
    simp only [opsAndDev, List.mem_cons, List.not_mem_nil, or_false] at before
    rcases before with rfl | rfl
    · exact ⟨by decide, category _⟩
    · exact ⟨by decide, category _⟩
  have agents : Mounted (.directory 4096 [("skills".toList, .directory size skills)]) := by
    refine mounted_directory 4096 (?_ : ["skills".toList].Nodup) ?_
    · exact List.nodup_singleton _
    · rw [List.forall_mem_singleton]
      exact ⟨(by decide : PosixPath.Name "skills".toList), listed⟩
  refine mounted_directory size (?_ : ["AGENTS.md".toList, ".agents".toList].Nodup) ?_
  · decide
  · rw [List.forall_mem_cons, List.forall_mem_singleton]
    exact ⟨⟨(by decide : PosixPath.Name "AGENTS.md".toList), mounted_file _⟩,
      (by decide : PosixPath.Name ".agents".toList), agents⟩

def hostOf (cwd path : Text) (pack : FileTree Text) (now : Int) : PackHost :=
  ⟨cwd, "packs".toList, fun other => if other = path then some pack else none, now,
    codePoints⟩

theorem hostOf_files {cwd path agentPackId : Text} {pack : FileTree Text} {now : Int}
    (resolved : resolvePackPath (hostOf cwd path pack now) agentPackId = path) :
    (hostOf cwd path pack now).files (resolvePackPath (hostOf cwd path pack now) agentPackId) =
      some pack := if_pos resolved

/-- A relative and an absolute id, with the categories listed the other way round. -/
theorem relocated_pack_same_prompt :
    systemPrompt .default DEFAULT_LOADER_CONFIG
        (hostOf "/srv".toList "/srv/packs/acme".toList (twoSkills 4096 opsAndDev) 0)
        "acme".toList =
      systemPrompt .default DEFAULT_LOADER_CONFIG
        (hostOf "/".toList "/opt/acme".toList (twoSkills 60 opsAndDev.reverse) 1000)
        "/opt/acme".toList := by
  have perm : opsAndDev.Perm opsAndDev.reverse := (List.reverse_perm opsAndDev).symm
  have alike : (twoSkills 4096 opsAndDev).Alike (twoSkills 60 opsAndDev.reverse) := by
    have skills : FileTree.Alike (.directory 4096 opsAndDev) (.directory 60 opsAndDev.reverse) :=
      FileTree.alike_of_perm (by decide) perm
    have agents : FileTree.Alike (.directory 4096 [("skills".toList, .directory 4096 opsAndDev)])
        (.directory 4096 [("skills".toList, .directory 60 opsAndDev.reverse)]) :=
      FileTree.alike_of_forall₂ (.cons ⟨rfl, skills⟩ .nil)
    exact FileTree.alike_of_forall₂ (.cons ⟨rfl, fun _ => rfl⟩ (.cons ⟨rfl, agents⟩ .nil))
  have prepared : (systemPrompt .default DEFAULT_LOADER_CONFIG
      (hostOf "/srv".toList "/srv/packs/acme".toList (twoSkills 4096 opsAndDev) 0)
      "acme".toList).toBool = true := by decide +kernel
  rcases same_files_same_prompt DEFAULT_LOADER_CONFIG
      (hostOf "/srv".toList "/srv/packs/acme".toList (twoSkills 4096 opsAndDev) 0)
      (hostOf "/".toList "/opt/acme".toList (twoSkills 60 opsAndDev.reverse) 1000)
      "acme".toList "/opt/acme".toList rfl codePoints_separates (hostOf_files (by decide))
      (hostOf_files (by decide)) (twoSkills_mounted 4096 (List.Perm.refl _))
      (twoSkills_mounted 60 perm) alike with
    same | ⟨⟨error, failed⟩, -⟩
  · exact same
  · rw [failed] at prepared
    cases prepared

end RunExecutionService

end Minerva
