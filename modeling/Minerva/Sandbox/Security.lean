import Minerva.Library.PosixPath
import Minerva.Sandbox.Workspaces

namespace Minerva

structure PathValidationResult where
  isValid : Bool
  normalizedPath : String
  error : Option String
  deriving DecidableEq

/-- `cwd` is the working directory of the process, which `path.relative` falls back to when the
root is not absolute. -/
def validatePath (cwd : List Char) (userPath workspaceRoot : String) : PathValidationResult :=
  if '\x00' ∈ userPath.toList then ⟨false, "", some "Path contains null bytes"⟩
  else if PosixPath.isAbsolute userPath.toList then ⟨false, "", some "Absolute paths not allowed"⟩
  else
    let normalized := PosixPath.normalize userPath.toList
    if "..".toList <+: normalized then ⟨false, "", some "Path traversal detected"⟩
    else
      let resolvedPath := PosixPath.join workspaceRoot.toList normalized
      let relativeToRoot := PosixPath.relative cwd workspaceRoot.toList resolvedPath
      if "..".toList <+: relativeToRoot ∨ PosixPath.isAbsolute relativeToRoot then
        ⟨false, "", some "Path escapes workspace root"⟩
      else ⟨true, String.ofList normalized, none⟩

def fullPath (rootPath : String) (validation : PathValidationResult) : String :=
  rootPath ++ "/" ++ validation.normalizedPath

variable {cwd : List Char} {userPath root : String}

theorem validatePath_valid (valid : (validatePath cwd userPath root).isValid = true) :
    '\x00' ∉ userPath.toList ∧ PosixPath.isAbsolute userPath.toList = false ∧
      ¬PosixPath.dotdot <+: PosixPath.normalize userPath.toList ∧
      (validatePath cwd userPath root).normalizedPath =
        String.ofList (PosixPath.normalize userPath.toList) := by
  unfold validatePath at valid ⊢
  by_cases nul : '\x00' ∈ userPath.toList
  · simp [nul] at valid
  by_cases absolute : PosixPath.isAbsolute userPath.toList = true
  · simp [nul, absolute] at valid
  by_cases traversal : "..".toList <+: PosixPath.normalize userPath.toList
  · simp only [if_neg nul, if_neg absolute, if_pos traversal] at valid
    cases valid
  simp only [if_neg nul, if_neg absolute, if_neg traversal] at valid ⊢
  split at valid
  · cases valid
  · rename_i escapes
    rw [if_neg escapes]
    exact ⟨nul, by simpa using absolute, traversal, rfl⟩

theorem validatePath_normalized (valid : (validatePath cwd userPath root).isValid = true) :
    validatePath cwd (validatePath cwd userPath root).normalizedPath root =
      validatePath cwd userPath root := by
  obtain ⟨nul, absolute, inside, same⟩ := validatePath_valid valid
  have normal := PosixPath.normal_normalize absolute
  have fixed := PosixPath.normalize_of_normal normal
  have relative := PosixPath.isAbsolute_normal normal
  have nul' : '\x00' ∉ PosixPath.normalize userPath.toList := by
    intro member
    rcases PosixPath.mem_normalize member with given | here | slash
    · exact nul given
    · exact absurd here (by decide)
    · exact absurd slash (by decide)
  rw [same]
  unfold validatePath
  simp only [String.toList_ofList, fixed, nul, nul', absolute, relative, if_false, Bool.false_eq_true]

/-- A valid path stays in the workspace: segment by segment it never leaves the root, the text is
free of NUL as far as the root is, and it is accepted again as it is. -/
theorem valid_path_is_confined (valid : (validatePath cwd userPath root).isValid = true) :
    (∀ visited, PosixPath.segments root.toList <+: visited →
      visited <+: PosixPath.segments (fullPath root (validatePath cwd userPath root)).toList →
        PosixPath.walk [] (PosixPath.segments root.toList) <+: PosixPath.walk [] visited) ∧
      '\x00' ∉ (validatePath cwd userPath root).normalizedPath.toList ∧
      ('\x00' ∉ root.toList →
        '\x00' ∉ (fullPath root (validatePath cwd userPath root)).toList) ∧
      validatePath cwd (validatePath cwd userPath root).normalizedPath root =
        validatePath cwd userPath root := by
  obtain ⟨nul, absolute, inside, same⟩ := validatePath_valid valid
  have normal := PosixPath.normal_normalize absolute
  have down := PosixPath.no_dotdot normal inside
  have spelled : (fullPath root (validatePath cwd userPath root)).toList =
      root.toList ++ '/' :: PosixPath.normalize userPath.toList := by
    simp [fullPath, same]
  have clean : '\x00' ∉ PosixPath.normalize userPath.toList := by
    intro member
    rcases PosixPath.mem_normalize member with given | here | slash
    · exact nul given
    · exact absurd here (by decide)
    · exact absurd slash (by decide)
  refine ⟨?_, ?_, ?_, validatePath_normalized valid⟩
  · intro visited from_root within
    obtain ⟨below, rfl⟩ := from_root
    rw [spelled, PosixPath.segments_append] at within
    have taken : below <+: PosixPath.segments (PosixPath.normalize userPath.toList) :=
      (List.prefix_append_right_inj _).mp within
    rw [PosixPath.walk, PosixPath.walk, List.foldl_append]
    exact PosixPath.walk_descends _ (fun up => down (taken.subset up))
  · rw [same, String.toList_ofList]
    exact clean
  · intro rootClean member
    rw [spelled] at member
    rcases List.mem_append.mp member with inRoot | later
    · exact rootClean inRoot
    · rcases List.mem_cons.mp later with slash | inPath
      · exact absurd slash (by decide)
      · exact clean inPath

theorem odd_path_is_confined :
    (validatePath ['/'] "docs/../a//b/./" "/workspace").normalizedPath = "a/b/" ∧
      (∀ visited, PosixPath.segments "/workspace".toList <+: visited →
        visited <+: PosixPath.segments "/workspace/a/b/".toList →
          PosixPath.walk [] (PosixPath.segments "/workspace".toList) <+:
            PosixPath.walk [] visited) ∧
      '\x00' ∉ "/workspace/a/b/".toList := by
  have valid : (validatePath ['/'] "docs/../a//b/./" "/workspace").isValid = true := by decide
  have normal : (validatePath ['/'] "docs/../a//b/./" "/workspace").normalizedPath = "a/b/" := by
    decide
  have full : fullPath "/workspace" (validatePath ['/'] "docs/../a//b/./" "/workspace") =
      "/workspace/a/b/" := by
    rw [fullPath, normal]
    rfl
  obtain ⟨below, _, clean, _⟩ := valid_path_is_confined valid
  rw [full] at below clean
  exact ⟨normal, below, clean (by decide)⟩

end Minerva
