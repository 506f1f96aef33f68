import Minerva.Library.Base64
import Minerva.Library.Utf8
import Minerva.Sandbox.Security
import Minerva.Tools.Registry

namespace Minerva

abbrev Bytes := List UInt8

inductive CommandReply where
  | result (output : Option String) (exitCode : Option Int)
  | rejected (error : ThrownValue)

/-- What the services see of Daytona, and the cache of sandboxes that the adapter keeps. -/
structure DaytonaWorld where
  sandboxes : List WorkspaceId
  /-- what `client.getWorkspace` finds -/
  found : WorkspaceId → Bool
  files : WorkspaceId → String → Option Bytes
  /-- what `fs.downloadFile` throws for a file that is not there -/
  noFile : WorkspaceId → String → ThrownValue
  /-- what `process.createSession` throws, if it does -/
  createSession : WorkspaceId → Option ThrownValue
  executeSessionCommand : WorkspaceId → String → CommandReply

/-- `blob.text()`: the bytes decoded as UTF-8, without a byte order mark. -/
def blobText (bytes : Bytes) : String :=
  match Utf8.decode bytes with
  | '\uFEFF' :: text => String.ofList text
  | text => String.ofList text

/-- `new File([content])` -/
def fileBytes (content : String) : Bytes := Utf8.encode content.toList

/-- `Buffer.byteLength(content, 'base64')` -/
def base64ByteLength (content : String) : Nat :=
  let units := Utf16.encode content.toList
  let bytes := units.length
  let bytes := if units[bytes - 1]? = some '='.toNat then bytes - 1 else bytes
  -- the second test is at the place that the first one has left
  let bytes := if 1 < bytes ∧ units[bytes - 1]? = some '='.toNat then bytes - 1 else bytes
  bytes * 3 / 4

/-- `Buffer.byteLength(content, encoding)` for the encodings that the write tool lets through. -/
def byteLength (content : String) (encoding : JsValue) : Nat :=
  if encoding.text = "base64" then base64ByteLength content else (fileBytes content).length

structure FilesystemService where
  maxFileSize : Nat
  /-- the working directory of the process -/
  cwd : List Char

def FilesystemService.default : FilesystemService := ⟨10 * 1024 * 1024, ['/']⟩

namespace FilesystemService

variable (service : FilesystemService)

def locate (userPath : String) (workspaceId : WorkspaceId) : Except SandboxError String :=
  let validation := validatePath service.cwd userPath getWorkspaceRoot
  if validation.isValid then .ok (fullPath getWorkspaceRoot validation)
  else .error (.pathTraversal userPath (validation.error.getD "Invalid path") workspaceId)

def readFile (w : DaytonaWorld) (workspaceId : WorkspaceId) (userPath : String) : Promise String :=
  match service.locate userPath workspaceId with
  | .error error => .rejected error.thrown
  | .ok path =>
    match w.files workspaceId path with
    | none => .rejected (w.noFile workspaceId path)
    | some bytes =>
      if bytes.length > service.maxFileSize then
        .rejected (SandboxError.fileTooLarge userPath (.ofNat bytes.length)
          (.ofNat service.maxFileSize) workspaceId).thrown
      else .resolved (blobText bytes)

/-- The encoding decides the size that is checked, and nothing else. -/
def writeFile (w : DaytonaWorld) (workspaceId : WorkspaceId) (userPath content : String)
    (encoding : JsValue) : DaytonaWorld × Promise Unit :=
  match service.locate userPath workspaceId with
  | .error error => (w, .rejected error.thrown)
  | .ok path =>
    let contentSize := byteLength content encoding
    if contentSize > service.maxFileSize then
      (w, .rejected (SandboxError.fileTooLarge userPath (.ofNat contentSize)
        (.ofNat service.maxFileSize) workspaceId).thrown)
    else
      ({ w with
        files := Function.update w.files workspaceId
          (Function.update (w.files workspaceId) path (some (fileBytes content))) }, .resolved ())

variable {w : DaytonaWorld} {workspaceId : WorkspaceId} {userPath content : String}

theorem readFile_resolved (resolved : service.readFile w workspaceId userPath = .resolved content) :
    ∃ path bytes, service.locate userPath workspaceId = .ok path ∧
      w.files workspaceId path = some bytes ∧ content = blobText bytes := by
  unfold readFile at resolved
  cases located : service.locate userPath workspaceId with
  | error error => simp [located] at resolved
  | ok path =>
      rw [located] at resolved
      simp only at resolved
      cases file : w.files workspaceId path with
      | none => simp [file] at resolved
      | some bytes =>
          rw [file] at resolved
          simp only at resolved
          split at resolved
          · cases resolved
          · injection resolved with same
            exact ⟨path, bytes, rfl, file, same.symm⟩

theorem writeFile_resolved {encoding : JsValue}
    (resolved : (service.writeFile w workspaceId userPath content encoding).2 = .resolved ()) :
    ∃ path, service.locate userPath workspaceId = .ok path ∧
      (service.writeFile w workspaceId userPath content encoding).1.files workspaceId =
        Function.update (w.files workspaceId) path (some (fileBytes content)) := by
  unfold writeFile at resolved ⊢
  cases located : service.locate userPath workspaceId with
  | error error => simp [located] at resolved
  | ok path =>
      rw [located] at resolved
      simp only at resolved ⊢
      split at resolved
      · cases resolved
      · next small =>
          rw [if_neg small]
          exact ⟨path, rfl, Function.update_self _ _ _⟩

end FilesystemService

end Minerva
