import Mathlib.Algebra.GroupWithZero.Nat
import Minerva.Library.JsText
import Minerva.Library.Utf16

namespace Minerva

abbrev Text := List Char

namespace Text

def trim (text : Text) : Text :=
  ((text.dropWhile jsWhitespace).reverse.dropWhile jsWhitespace).reverse

def joinLines (parts : List Text) : Text := ['\n'].intercalate parts

def lines (text : Text) : List Text := text.splitOn '\n'

def length16 (text : Text) : Nat := (Utf16.encode text).length

theorem none_of_any {text : Text} {p : Char → Bool} (none : text.any p = false) :
    ∀ c ∈ text, p c = false := by
  intro c member
  exact Bool.eq_false_iff.mpr (List.any_eq_false.mp none c member)

end Text

structure AgentIdentity where
  name : Text
  description : Text
  stance : Text
  rules : List Text
  rawContent : Text
  deriving DecidableEq

structure Skill where
  name : Text
  category : Text
  content : Text
  path : Text
  size : Nat
  deriving DecidableEq

structure PackMetadata where
  /-- the date in its ISO form -/
  loadedAt : Text
  skillCount : Nat
  totalSize : Nat
  deriving DecidableEq

structure AgentPack where
  path : Text
  identity : AgentIdentity
  skills : List Skill
  metadata : PackMetadata
  deriving DecidableEq

structure PromptSection where
  name : String
  content : Text
  order : Nat
  deriving DecidableEq

structure SystemPrompt where
  identity : Text
  skills : Text
  assemblyRules : Text
  fullPrompt : Text
  sections : List PromptSection
  deriving DecidableEq

inductive SkillOrdering where
  | alphabetical
  | category
  | size
  deriving DecidableEq

structure AssemblyRules where
  identityFirst : Bool
  includeSkillMetadata : Bool
  skillOrdering : SkillOrdering
  maxPromptLength : Nat

end Minerva
