import Minerva.Library.EsMap
import Minerva.Library.Utf16
import Minerva.Tools.Types

/-! The read, write and bash tools, and the registry that builds them from a sandbox adapter.
`ω` is the world that the adapter acts on. -/

namespace Minerva

inductive ExecutionChunk where
  | stdout (data : String)
  | stderr (data : String)
  | exit (code : Int)
  deriving DecidableEq

inductive ChunksEnd where
  | done
  | threw (error : ThrownValue)
  /-- nothing more comes -/
  | pending

/-- What an async generator of chunks yields up to the point where it ends, or where its reader
stops. -/
structure ChunkStream where
  chunks : List ExecutionChunk
  ends : ChunksEnd

structure BashOptions where
  timeoutMs : JsValue
  workingDir : JsValue
  env : JsValue

/-- `ISandboxAdapter`, as far as the tools call it. -/
structure ISandboxAdapter (ω : Type) where
  readFile : ω → WorkspaceId → (path encoding : JsValue) → ω × Promise String
  writeFile : ω → WorkspaceId → (path content encoding : JsValue) → ω × Promise Unit
  execute : ω → WorkspaceId → (command : JsValue) → BashOptions → ω × ChunkStream

/-- What a call depends on besides its parameters: the abort signal as each chunk arrives, and the
readings of the clock. -/
structure CallSite where
  toolCallId : String
  aborted : Nat → Bool
  clock : Nat → Int

variable {ω : Type}

structure AgentTool (ω : Type) where
  name : String
  label : String
  description : String
  execute : ω → JsValue → CallSite → Option ToolContext →
    ω × List ToolEvent × Promise ToolResult

/-- How the part of a call ends that runs inside its `try` block. -/
inductive BodyEnd where
  | done (data : ToolData) (isError : Bool)
  | cancelled
  | threw (error : ThrownValue)
  | pending

/-- Which reading of the clock a result is reported with: `bash` has read it once more. -/
def readings : ToolResult ⊕ ToolData → Nat
  | .inr (.bash _ _ _ _ _) => 2
  | _ => 1

def finishEvent (name : String) (site : CallSite) (result : ToolResult ⊕ ToolData)
    (isError : Bool) : ToolEvent :=
  .finish site.toolCallId name result isError (site.clock (readings result) - site.clock 0)

def failWith (name : String) (site : CallSite) (events : List ToolEvent) (error : ToolResult) :
    List ToolEvent × Promise ToolResult :=
  (events ++ [finishEvent name site (.inl error) true], .resolved error)

def conclude (name : String) (site : CallSite) (events : List ToolEvent) :
    BodyEnd → List ToolEvent × Promise ToolResult
  | .done data isError =>
    (events ++ [finishEvent name site (.inr data) isError], .resolved (createSuccessResult data))
  | .cancelled =>
    failWith name site events
      (createErrorResult .cancelled (.string "Command was cancelled") none)
  | .threw error =>
    match mapErrorToToolError error with
    | .ok toolError =>
      failWith name site events
        (createErrorResult toolError.code toolError.message toolError.details)
    -- thrown in the `catch` block, where nothing catches it
    | .error thrown => (events, .rejected thrown)
  | .pending => (events, .pending)

/-- `context?.workspaceId`, if it is there and not empty. -/
def workspaceOf (context : Option ToolContext) : Option WorkspaceId :=
  (context.map ToolContext.workspaceId).filter (fun workspaceId => workspaceId ≠ "")

/-- The frame of all three tools: the checks of the context and of the one required parameter, the
start event, and the end event with its result. -/
def executeTool (name required missing : String) (startArgs : JsValue → List (String × JsValue))
    (body : ω → WorkspaceId → JsValue → CallSite → ω × List ToolEvent × BodyEnd)
    (w : ω) (params : JsValue) (site : CallSite) (context : Option ToolContext) :
    ω × List ToolEvent × Promise ToolResult :=
  match workspaceOf context with
  | none =>
    (w, failWith name site []
      (createErrorResult .validationError (.string "No workspace context available") none))
  | some workspaceId =>
    match params.member required with
    | .error error =>
      (w, failWith name site [] (createErrorResult .validationError error.message none))
    | .ok value =>
      if !value.truthy then
        (w, failWith name site [] (createErrorResult .validationError (.string missing) none))
      else
        let (w, updates, ends) := body w workspaceId params site
        (w, conclude name site (.start site.toolCallId name (startArgs params) :: updates) ends)

def param (params : JsValue) (name : String) : JsValue :=
  match params.member name with
  | .ok value => value
  | .error _ => .undefined

def jsLength (text : String) : Nat := (Utf16.encode text.toList).length

def readBody (readFileFn : ω → WorkspaceId → (path encoding limit : JsValue) → ω × Promise String)
    (w : ω) (workspaceId : WorkspaceId) (params : JsValue) (_ : CallSite) :
    ω × List ToolEvent × BodyEnd :=
  let encoding := (param params "encoding").orElse (.string "utf-8")
  match readFileFn w workspaceId (param params "path") encoding (param params "limit") with
  | (w, .resolved content) => (w, [], .done (.read content (jsLength content) encoding false) false)
  | (w, .rejected error) => (w, [], .threw error)
  | (w, .pending) => (w, [], .pending)

def createReadTool
    (readFileFn : ω → WorkspaceId → (path encoding limit : JsValue) → ω × Promise String) :
    AgentTool ω where
  name := "read"
  label := "Read File"
  description := "Read contents of a file in the sandbox workspace"
  execute := executeTool "read" "path" "Path is required"
    (fun params => [("path", param params "path"),
      ("encoding", (param params "encoding").orElse (.string "utf-8")),
      ("limit", param params "limit")])
    (readBody readFileFn)

def contentLength (content : JsValue) : Except ThrownValue JsValue :=
  match content with
  | .string text => .ok (.number (.ofNat (jsLength text)))
  | content => content.member "length"

def writeBody
    (writeFileFn : ω → WorkspaceId → (path content encoding append : JsValue) → ω × Promise Unit)
    (w : ω) (workspaceId : WorkspaceId) (params : JsValue) (_ : CallSite) :
    ω × List ToolEvent × BodyEnd :=
  let encoding := (param params "encoding").orElse (.string "utf-8")
  let content := param params "content"
  match writeFileFn w workspaceId (param params "path") content encoding
    ((param params "append").orElse (.bool false)) with
  | (w, .resolved _) =>
    match contentLength content with
    | .ok bytesWritten => (w, [], .done (.write (param params "path") bytesWritten encoding) false)
    | .error error => (w, [], .threw error)
  | (w, .rejected error) => (w, [], .threw error)
  | (w, .pending) => (w, [], .pending)

def createWriteTool
    (writeFileFn : ω → WorkspaceId → (path content encoding append : JsValue) → ω × Promise Unit) :
    AgentTool ω where
  name := "write"
  label := "Write File"
  description := "Write content to a file in the sandbox workspace"
  execute := executeTool "write" "path" "Path is required"
    (fun params => [("path", param params "path"),
      ("encoding", (param params "encoding").orElse (.string "utf-8")),
      ("append", (param params "append").orElse (.bool false))])
    (writeBody writeFileFn)

structure BashOutput where
  stdoutChunks : List String
  stderrChunks : List String
  exitCode : Int

/-- The loop over the chunks; false if it stopped at a chunk that came after an abort. -/
def readChunks (site : CallSite) :
    Nat → List ExecutionChunk → BashOutput → List ToolEvent → List ToolEvent × BashOutput × Bool
  | _, [], output, events => (events, output, true)
  | index, chunk :: rest, output, events =>
    if site.aborted index then (events, output, false)
    else
      match chunk with
      | .stdout data =>
        readChunks site (index + 1) rest
          { output with stdoutChunks := output.stdoutChunks ++ [data] }
          (events ++ [.update site.toolCallId "bash" "stdout" data])
      | .stderr data =>
        readChunks site (index + 1) rest
          { output with stderrChunks := output.stderrChunks ++ [data] }
          (events ++ [.update site.toolCallId "bash" "stderr" data])
      | .exit code => readChunks site (index + 1) rest { output with exitCode := code } events

def bashBody (executeFn : ω → WorkspaceId → (command : JsValue) → BashOptions → ω × ChunkStream)
    (w : ω) (workspaceId : WorkspaceId) (params : JsValue) (site : CallSite) :
    ω × List ToolEvent × BodyEnd :=
  let options : BashOptions :=
    ⟨(param params "timeout").orElse (.number (.ofNat 60000)), param params "cwd",
      param params "env"⟩
  let (w, stream) := executeFn w workspaceId (param params "command") options
  match readChunks site 0 stream.chunks ⟨[], [], 0⟩ [] with
  | (updates, _, false) => (w, updates, .cancelled)
  | (updates, output, true) =>
    match stream.ends with
    | .done =>
      (w, updates, .done (.bash (String.join output.stdoutChunks) (String.join output.stderrChunks)
        output.exitCode (site.clock 1 - site.clock 0) false) (output.exitCode ≠ 0))
    | .threw error => (w, updates, .threw error)
    | .pending => (w, updates, .pending)

def createBashTool
    (executeFn : ω → WorkspaceId → (command : JsValue) → BashOptions → ω × ChunkStream) :
    AgentTool ω where
  name := "bash"
  label := "Execute Command"
  description := "Execute a bash command in the sandbox and stream output"
  execute := executeTool "bash" "command" "Command is required"
    (fun params => [("command", param params "command"), ("cwd", param params "cwd"),
      ("timeout", (param params "timeout").orElse (.number (.ofNat 60000))),
      ("env", param params "env")])
    (bashBody executeFn)

structure ToolRegistry (ω : Type) where
  tools : EsMap String (AgentTool ω)

/-- The closures pass on what the adapter is asked for: `limit` and `append` are not. -/
def createToolRegistry (adapter : ISandboxAdapter ω) : ToolRegistry ω where
  tools := ((EsMap.empty.set "read" (createReadTool (fun w workspaceId path encoding _ =>
      adapter.readFile w workspaceId path (encoding.orElse (.string "utf-8"))))).set
    "write" (createWriteTool (fun w workspaceId path content encoding _ =>
      adapter.writeFile w workspaceId path content (encoding.orElse (.string "utf-8"))))).set
    "bash" (createBashTool adapter.execute)

namespace ToolRegistry

def getTool (registry : ToolRegistry ω) (name : String) : Option (AgentTool ω) :=
  registry.tools.get name

theorem getTool_read (adapter : ISandboxAdapter ω) :
    (createToolRegistry adapter).getTool "read" =
      some (createReadTool (fun w workspaceId path encoding _ =>
        adapter.readFile w workspaceId path (encoding.orElse (.string "utf-8")))) := by
  simp [createToolRegistry, getTool, EsMap.get_set]

theorem getTool_write (adapter : ISandboxAdapter ω) :
    (createToolRegistry adapter).getTool "write" =
      some (createWriteTool (fun w workspaceId path content encoding _ =>
        adapter.writeFile w workspaceId path content (encoding.orElse (.string "utf-8")))) := by
  simp [createToolRegistry, getTool, EsMap.get_set]

theorem getTool_bash (adapter : ISandboxAdapter ω) :
    (createToolRegistry adapter).getTool "bash" = some (createBashTool adapter.execute) := by
  simp [createToolRegistry, getTool]

def getAllTools (registry : ToolRegistry ω) : List (AgentTool ω) := registry.tools.values

def getToolNames (registry : ToolRegistry ω) : List String := registry.tools.keys

end ToolRegistry

end Minerva
