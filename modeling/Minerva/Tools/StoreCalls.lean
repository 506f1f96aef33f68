import Minerva.Library.Server
import Minerva.Library.Transition
import Minerva.Sandbox.Adapter

/-! Calls of the read and write tools side by side. The file system of a sandbox is taken to be a
map from paths to bytes, in which each request takes effect at one instant before its reply. -/

namespace Minerva

abbrev SandboxFiles := WorkspaceId → String → Option Bytes

inductive StoreRequest where
  | getFileDetails (workspaceId : WorkspaceId) (path : String)
  | downloadFile (workspaceId : WorkspaceId) (path : String)
  | uploadFile (workspaceId : WorkspaceId) (path : String) (bytes : Bytes)
  /-- what anything else, such as a command, does to a file -/
  | alter (workspaceId : WorkspaceId) (path : String) (file : Option Bytes)

inductive StoreReply where
  | details (size : Option Nat)
  | file (bytes : Option Bytes)
  | done

namespace StoreRequest

def put (files : SandboxFiles) (workspaceId : WorkspaceId) (path : String) (file : Option Bytes) :
    SandboxFiles :=
  Function.update files workspaceId (Function.update (files workspaceId) path file)

def serve (files : SandboxFiles) : StoreRequest → SandboxFiles × StoreReply
  | .getFileDetails workspaceId path =>
    (files, .details ((files workspaceId path).map List.length))
  | .downloadFile workspaceId path => (files, .file (files workspaceId path))
  | .uploadFile workspaceId path bytes => (put files workspaceId path (some bytes), .done)
  | .alter workspaceId path file => (put files workspaceId path file, .done)

/-- A call asks for one of these at most. -/
def decisive : StoreRequest → Bool
  | .getFileDetails _ _ => false
  | _ => true

end StoreRequest

/-- The files as they are assumed to answer: `uploadFile` writes what `downloadFile` returns. -/
def sandboxFiles (files : SandboxFiles) (request : Option Nat × StoreRequest) :
    SandboxFiles × StoreReply :=
  request.2.serve files

inductive FileTool where
  | read
  | write
  deriving DecidableEq

namespace FileTool

def name : FileTool → String
  | .read => "read"
  | .write => "write"

def startArgs (params : JsValue) : FileTool → List (String × JsValue)
  | .read => [("path", param params "path"),
    ("encoding", (param params "encoding").orElse (.string "utf-8")),
    ("limit", param params "limit")]
  | .write => [("path", param params "path"),
    ("encoding", (param params "encoding").orElse (.string "utf-8")),
    ("append", (param params "append").orElse (.bool false))]

end FileTool

/-- Where a call stands; `number` is that of the request it awaits. -/
inductive FileStage where
  /-- in `getSandbox`; `cached` tells whether the sandbox was in the cache -/
  | locating (workspaceId : WorkspaceId) (cached : Bool)
  | inspecting (number : Nat) (workspaceId : WorkspaceId) (path : String)
  | downloading (number : Nat) (workspaceId : WorkspaceId) (path : String)
  | uploading (number : Nat)
  | settled (outcome : Except ThrownValue ToolResult)

def FileStage.awaited : FileStage → Option Nat
  | .inspecting number _ _ => some number
  | .downloading number _ _ => some number
  | .uploading number => some number
  | _ => none

structure StoreCall where
  tool : FileTool
  toolCallId : String
  params : JsValue
  context : Option ToolContext
  startTime : Int
  stage : FileStage
  events : List ToolEvent

namespace StoreCall

def encoding (call : StoreCall) : JsValue :=
  (param call.params "encoding").orElse (.string "utf-8")

def fail (call : StoreCall) (now : Int) (error : ToolResult) : StoreCall :=
  { call with
    stage := .settled (.ok error)
    events := call.events ++
      [.finish call.toolCallId call.tool.name (.inl error) true (now - call.startTime)] }

def succeed (call : StoreCall) (now : Int) (data : ToolData) : StoreCall :=
  { call with
    stage := .settled (.ok (createSuccessResult data))
    events := call.events ++
      [.finish call.toolCallId call.tool.name (.inr data) false (now - call.startTime)] }

def caught (call : StoreCall) (now : Int) (error : ThrownValue) : StoreCall :=
  match mapErrorToToolError error with
  | .ok toolError =>
    call.fail now (createErrorResult toolError.code toolError.message toolError.details)
  | .error thrown => { call with stage := .settled (.error thrown) }

def execute (sandboxes : List WorkspaceId) (now : Int) (tool : FileTool) (toolCallId : String)
    (params : JsValue) (context : Option ToolContext) : StoreCall :=
  let call (stage : FileStage) : StoreCall := ⟨tool, toolCallId, params, context, now, stage, []⟩
  let refuse (message : JsValue) : StoreCall :=
    let error := createErrorResult .validationError message none
    (call (.settled (.ok error))).fail now error
  match workspaceOf context with
  | none => refuse (.string "No workspace context available")
  | some workspaceId =>
    match params.member "path" with
    | .error error => refuse error.message
    | .ok value =>
      if !value.truthy then refuse (.string "Path is required")
      else
        { call (.locating workspaceId (decide (workspaceId ∈ sandboxes))) with
          events := [.start toolCallId tool.name (tool.startArgs params)] }

abbrev Turn := StoreCall × Option StoreRequest

variable (service : FilesystemService)

/-- `getSandbox` has an answer, and `FilesystemService` runs up to its first request. -/
def located (call : StoreCall) (now : Int) (next : Nat) (workspaceId : WorkspaceId)
    (available : Bool) : Turn :=
  if !available then (call.caught now (SandboxError.workspaceNotFound workspaceId).thrown, none)
  else
    match call.tool with
    | .read =>
      match param call.params "path" with
      | .string userPath =>
        match service.locate userPath workspaceId with
        | .error error => (call.caught now error.thrown, none)
        | .ok path =>
          ({ call with stage := .inspecting next workspaceId path },
            some (.getFileDetails workspaceId path))
      | _ => (call.caught now notAString, none)
    | .write =>
      match param call.params "path", param call.params "content" with
      | .string userPath, .string content =>
        match service.locate userPath workspaceId with
        | .error error => (call.caught now error.thrown, none)
        | .ok path =>
          let contentSize := byteLength content call.encoding
          if contentSize > service.maxFileSize then
            (call.caught now (SandboxError.fileTooLarge userPath (.ofNat contentSize)
              (.ofNat service.maxFileSize) workspaceId).thrown, none)
          else
            ({ call with stage := .uploading next },
              some (.uploadFile workspaceId path (fileBytes content)))
      | _, _ => (call.caught now notAString, none)

def download (call : StoreCall) (next : Nat) (workspaceId : WorkspaceId) (path : String) : Turn :=
  ({ call with stage := .downloading next workspaceId path },
    some (.downloadFile workspaceId path))

/-- A reply has come. `noFile` is what `downloadFile` throws for a file that is not there. -/
def replied (noFile : WorkspaceId → String → ThrownValue) (call : StoreCall) (now : Int)
    (next : Nat) (reply : StoreReply) : Option Turn :=
  match call.stage, reply with
  | .inspecting _ workspaceId path, .details size =>
    match size.filter (fun size => size > service.maxFileSize) with
    | some size =>
      some (call.caught now (SandboxError.fileTooLarge (param call.params "path").text (.ofNat size)
        (.ofNat service.maxFileSize) workspaceId).thrown, none)
    | none => some (call.download next workspaceId path)
  | .downloading _ workspaceId path, .file bytes =>
    match bytes with
    | none => some (call.caught now (noFile workspaceId path), none)
    | some bytes =>
      let content := blobText bytes
      some (call.succeed now (.read content (jsLength content) call.encoding false), none)
  | .uploading _, .done =>
    match contentLength (param call.params "content") with
    | .error error => some (call.caught now error, none)
    | .ok bytesWritten =>
      some (call.succeed now (.write (param call.params "path") bytesWritten call.encoding), none)
  | _, _ => none

/-- A request has been rejected, whether or not it has had or will have its effect. -/
def rejected (call : StoreCall) (now : Int) (next : Nat) (error : ThrownValue) : Option Turn :=
  match call.stage with
  -- the file is read without a look at its size
  | .inspecting _ workspaceId path => some (call.download next workspaceId path)
  | .downloading _ _ _ => some (call.caught now error, none)
  | .uploading _ => some (call.caught now error, none)
  | _ => none

end StoreCall

structure StoreCalls where
  server : Server SandboxFiles (Option Nat × StoreRequest) StoreReply
  calls : EsMap Nat StoreCall
  sandboxes : List WorkspaceId
  now : Int

namespace StoreCalls

inductive Label where
  | call (id : Nat) (tool : FileTool) (toolCallId : String) (params : JsValue)
      (context : Option ToolContext)
  | located (id : Nat) (found : Bool)
  | serve (number : Nat)
  | receive (id : Nat)
  | reject (id : Nat) (error : ThrownValue)
  | alter (workspaceId : WorkspaceId) (path : String) (file : Option Bytes)
  | recache (sandboxes : List WorkspaceId)
  | tick (elapsed : Nat)

def init (files : SandboxFiles) (now : Int) : StoreCalls := ⟨.init files, .empty, [], now⟩

def advance (s : StoreCalls) (id : Nat) (turn : StoreCall.Turn) : StoreCalls :=
  { s with
    server := match turn.2 with
      | none => s.server
      | some request => s.server.send (some id, request)
    calls := s.calls.set id turn.1 }

variable (service : FilesystemService) (noFile : WorkspaceId → String → ThrownValue)

def step (s : StoreCalls) : Label → Option StoreCalls
  | .call id tool toolCallId params context =>
    match s.calls.get id with
    | some _ => none
    | none => some { s with
        calls := s.calls.set id (.execute s.sandboxes s.now tool toolCallId params context) }
  | .located id found =>
    (s.calls.get id).bind (fun call =>
      match call.stage with
      | .locating workspaceId cached =>
        some { s.advance id (call.located service s.now s.server.next workspaceId (cached || found))
          with sandboxes := if !cached && found then workspaceId :: s.sandboxes else s.sandboxes }
      | _ => none)
  | .serve number =>
    (s.server.serve sandboxFiles number).map (fun server => { s with server })
  | .receive id =>
    (s.calls.get id).bind (fun call =>
      (call.stage.awaited.bind s.server.replies.get).bind (fun reply =>
        (call.replied service noFile s.now s.server.next reply).map (s.advance id)))
  | .reject id error =>
    (s.calls.get id).bind (fun call =>
      (call.rejected s.now s.server.next error).map (s.advance id))
  | .alter workspaceId path file =>
    some { s with server := s.server.send (none, .alter workspaceId path file) }
  | .recache sandboxes => some { s with sandboxes }
  | .tick elapsed => some { s with now := s.now + elapsed }

end StoreCalls

end Minerva
