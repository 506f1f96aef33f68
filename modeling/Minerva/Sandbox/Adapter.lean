import Minerva.Sandbox.Filesystem

namespace Minerva

/-- An error in the session: a timeout is thrown on, anything else becomes output. -/
def sessionFailed (workspaceId : WorkspaceId) (command : String) (timeoutMs : JsNumber)
    (error : ThrownValue) : ChunkStream :=
  if error.isError then
    match error.message.searched "error.message" with
    | .error thrown => ⟨[], .threw thrown⟩
    | .ok message =>
      if includes message "timeout" then
        ⟨[], .threw (SandboxError.commandTimeout command timeoutMs workspaceId).thrown⟩
      else ⟨[.stderr message, .exit 1], .done⟩
  else ⟨[.stderr "Unknown error", .exit 1], .done⟩

def executeStreaming (w : DaytonaWorld) (workspaceId : WorkspaceId) (command : String)
    (timeoutMs : Option JsNumber) : ChunkStream :=
  let timeoutMs := ((timeoutMs.filter (fun n => !n.falsy))).getD (.ofNat 300000)
  match w.createSession workspaceId with
  | some error => sessionFailed workspaceId command timeoutMs error
  | none =>
    match w.executeSessionCommand workspaceId command with
    | .rejected error => sessionFailed workspaceId command timeoutMs error
    | .result output exitCode =>
      ⟨((output.filter (fun output => output ≠ "")).map ExecutionChunk.stdout).toList ++
        [.exit (exitCode.getD 0)], .done⟩

def JsValue.asNumber : JsValue → Option JsNumber
  | .number value => some value
  | _ => none

namespace DaytonaWorld

def getSandbox (w : DaytonaWorld) (workspaceId : WorkspaceId) : Option DaytonaWorld :=
  if workspaceId ∈ w.sandboxes then some w
  else if w.found workspaceId then some { w with sandboxes := w.sandboxes ++ [workspaceId] }
  else none

theorem getSandbox_keeps {w next : DaytonaWorld} {workspaceId : WorkspaceId}
    (found : w.getSandbox workspaceId = some next) :
    next.createSession = w.createSession ∧
      next.executeSessionCommand = w.executeSessionCommand ∧ next.files = w.files ∧
      next.noFile = w.noFile := by
  unfold getSandbox at found
  split at found
  · cases found
    exact ⟨rfl, rfl, rfl, rfl⟩
  · split at found
    · cases found
      exact ⟨rfl, rfl, rfl, rfl⟩
    · cases found

end DaytonaWorld

def notAString : ThrownValue := .typeError "The argument must be of type string"

def daytonaSandboxAdapter (service : FilesystemService) : ISandboxAdapter DaytonaWorld where
  readFile w workspaceId path _ :=
    match w.getSandbox workspaceId with
    | none => (w, .rejected (SandboxError.workspaceNotFound workspaceId).thrown)
    | some w =>
      match path with
      | .string userPath => (w, service.readFile w workspaceId userPath)
      | _ => (w, .rejected notAString)
  writeFile w workspaceId path content encoding :=
    match w.getSandbox workspaceId with
    | none => (w, .rejected (SandboxError.workspaceNotFound workspaceId).thrown)
    | some w =>
      match path, content with
      | .string userPath, .string content => service.writeFile w workspaceId userPath content encoding
      | _, _ => (w, .rejected notAString)
  execute w workspaceId command options :=
    match w.getSandbox workspaceId with
    | none => (w, ⟨[], .threw (SandboxError.workspaceNotFound workspaceId).thrown⟩)
    | some w => (w, executeStreaming w workspaceId command.text options.timeoutMs.asNumber)

end Minerva
