import Mathlib.Data.List.Infix
import Mathlib.Tactic.IntervalCases
import Minerva.Library.JsText
import Minerva.Types.Run

namespace Minerva

abbrev WorkspaceId := String

def includes (text word : String) : Bool := decide (word.toList <:+: text.toList)

/-- A finite Number as far as messages and defaults read it: its decimal text, and whether it is
falsy. -/
structure JsNumber where
  text : String
  falsy : Bool
  written : ∀ c ∈ text.toList, c ∈ "0123456789.e+-".toList
  deriving DecidableEq

theorem digit_written (c : Char) (digit : c.isDigit = true) :
    c ∈ "0123456789.e+-".toList := by
  have low : 48 ≤ c.toNat := (Char.isDigit_iff_toNat.mp digit).1
  have high : c.toNat ≤ 57 := (Char.isDigit_iff_toNat.mp digit).2
  have same : c = Char.ofNat c.toNat := (Char.ofNat_toNat c).symm
  generalize c.toNat = n at low high same
  subst same
  interval_cases n <;> decide

def JsNumber.ofNat (n : Nat) : JsNumber where
  text := toString n
  falsy := n = 0
  written := by
    have decimal : ∀ d ∈ Nat.toDigits 10 n, d.isDigit = true := fun d inside =>
      Nat.isDigit_of_mem_toDigits (by decide) (by decide) inside
    intro c member
    have spelled : (toString n).toList = Nat.toDigits 10 n := Nat.toList_repr
    rw [spelled] at member
    exact digit_written c (decimal c member)

/-- `SandboxError` and those of its subclasses that the tools can meet. -/
inductive SandboxError where
  | workspaceNotFound (workspaceId : WorkspaceId)
  | workspaceCreation (message : String) (userId : Option UserId)
  | pathTraversal (attemptedPath reason : String) (workspaceId : WorkspaceId)
  | fileTooLarge (path : String) (size maxSize : JsNumber) (workspaceId : WorkspaceId)
  | commandExecution (message : String) (exitCode : Int) (stdout stderr : String)
      (workspaceId : WorkspaceId)
  | commandTimeout (command : String) (timeoutMs : JsNumber) (workspaceId : WorkspaceId)
  deriving DecidableEq

namespace SandboxError

def message : SandboxError → String
  | .workspaceNotFound workspaceId => "Workspace not found: " ++ workspaceId
  | .workspaceCreation message _ => message
  | .pathTraversal attemptedPath reason _ =>
    "Path traversal detected: " ++ attemptedPath ++ " - " ++ reason
  | .fileTooLarge path size maxSize _ =>
    "File too large: " ++ path ++ " (" ++ size.text ++ " bytes, max " ++ maxSize.text ++ " bytes)"
  | .commandExecution message _ _ _ _ => message
  | .commandTimeout command timeoutMs _ =>
    "Command timed out after " ++ timeoutMs.text ++ "ms: " ++ command

def code : SandboxError → String
  | .workspaceNotFound _ => "WORKSPACE_NOT_FOUND"
  | .workspaceCreation _ _ => "WORKSPACE_CREATION_FAILED"
  | .pathTraversal _ _ _ => "PATH_TRAVERSAL_DETECTED"
  | .fileTooLarge _ _ _ _ => "FILE_TOO_LARGE"
  | .commandExecution _ _ _ _ _ => "COMMAND_EXECUTION_FAILED"
  | .commandTimeout _ _ _ => "COMMAND_TIMEOUT"

section Messages

variable (workspaceId : WorkspaceId)

@[simp] theorem message_workspaceNotFound :
    (workspaceNotFound workspaceId).message = "Workspace not found: " ++ workspaceId := rfl

@[simp] theorem message_workspaceCreation (message : String) (userId : Option UserId) :
    (workspaceCreation message userId).message = message := rfl

@[simp] theorem message_pathTraversal (attemptedPath reason : String) :
    (pathTraversal attemptedPath reason workspaceId).message =
      "Path traversal detected: " ++ attemptedPath ++ " - " ++ reason := rfl

@[simp] theorem message_fileTooLarge (path : String) (size maxSize : JsNumber) :
    (fileTooLarge path size maxSize workspaceId).message =
      "File too large: " ++ path ++ " (" ++ size.text ++ " bytes, max " ++ maxSize.text ++
        " bytes)" := rfl

@[simp] theorem message_commandExecution (message stdout stderr : String) (exitCode : Int) :
    (commandExecution message exitCode stdout stderr workspaceId).message = message := rfl

@[simp] theorem message_commandTimeout (command : String) (timeoutMs : JsNumber) :
    (commandTimeout command timeoutMs workspaceId).message =
      "Command timed out after " ++ timeoutMs.text ++ "ms: " ++ command := rfl

end Messages

end SandboxError

end Minerva
