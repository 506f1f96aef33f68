import Mathlib.Tactic.MkIffOfInductiveProp
import Minerva.Tools.Bash

namespace Minerva

inductive ToolContent where
  /-- the text `JSON.stringify(data ?? null, null, 2)` -/
  | json (data : Option ToolData)
  | text (message : JsValue)

structure AgentToolResult where
  content : ToolContent
  details : Option ToolData ⊕ Option ToolError

variable {ω : Type}

structure PiAgentTool (ω : Type) where
  name : String
  label : String
  description : String
  /-- besides the result, the calls of `onUpdate` -/
  execute : ω → JsValue → CallSite → ω × List (String × String) × Promise AgentToolResult

/-- What `onUpdate` gets of the events of a tool: the emitter drops the others. -/
def forwarded : ToolEvent → Option (String × String)
  | .update _ _ kind data => some (kind, data)
  | _ => none

def agentToolResult (result : ToolResult) : AgentToolResult :=
  if result.success then ⟨.json result.data, .inl result.data⟩
  else ⟨.text (((result.error.map ToolError.message).getD .undefined).orElse
    (.string "Unknown tool error")), .inr result.error⟩

def piAgentTool (context : ToolContext) (tool : AgentTool ω) : PiAgentTool ω where
  name := tool.name
  label := tool.label
  description := tool.description
  execute w params site :=
    match tool.execute w params site (some context) with
    | (w, events, .resolved result) => (w, events.filterMap forwarded, .resolved (agentToolResult result))
    | (w, events, .rejected error) => (w, events.filterMap forwarded, .rejected error)
    | (w, events, .pending) => (w, events.filterMap forwarded, .pending)

def createPiAgentTools (adapter : ISandboxAdapter ω) (context : ToolContext) :
    List (PiAgentTool ω) :=
  (createToolRegistry adapter).getAllTools.map (piAgentTool context)

/-- Whether the call ends with an exception; pi-agent-core reports it as `isError`. -/
def Promise.rejects {α : Type} : Promise α → Prop
  | .rejected _ => True
  | _ => False

def Promise.fails : Promise ToolResult → Prop
  | .resolved result => result.success = false
  | _ => False

def requiredParam (name : String) : String := if name = "bash" then "command" else "path"

/-- A chunk arrives after an abort, or the stream throws when all its chunks are read. -/
def StreamFails (site : CallSite) (stream : ChunkStream) : Prop :=
  (∃ index < stream.chunks.length, site.aborted index = true) ∨
    ∃ error, stream.ends = .threw error

/-- The inputs on which a call of the tool of this name fails. -/
@[mk_iff] inductive CallFails (adapter : ISandboxAdapter ω) (context : ToolContext) (w : ω)
    (params : JsValue) (site : CallSite) : String → Prop
  | noWorkspace (name : String) (missing : context.workspaceId = "") :
      CallFails adapter context w params site name
  | noParam (name : String) (missing : (param params (requiredParam name)).truthy = false) :
      CallFails adapter context w params site name
  | read (error : ThrownValue)
      (rejected : (adapter.readFile w context.workspaceId (param params "path")
        ((param params "encoding").orElse (.string "utf-8"))).2 = .rejected error) :
      CallFails adapter context w params site "read"
  | write (error : ThrownValue)
      (rejected : (adapter.writeFile w context.workspaceId (param params "path")
        (param params "content") ((param params "encoding").orElse (.string "utf-8"))).2 =
          .rejected error) :
      CallFails adapter context w params site "write"
  /-- the content has no `length`, which the tool finds out after it has written -/
  | contentless (error : ThrownValue)
      (written : (adapter.writeFile w context.workspaceId (param params "path")
        (param params "content") ((param params "encoding").orElse (.string "utf-8"))).2 =
          .resolved ())
      (unreadable : contentLength (param params "content") = .error error) :
      CallFails adapter context w params site "write"
  | bash (interrupted : StreamFails site (adapter.execute w context.workspaceId
      (param params "command")
      ⟨(param params "timeout").orElse (.number (.ofNat 60000)), param params "cwd",
        param params "env"⟩).2) :
      CallFails adapter context w params site "bash"

theorem getAllTools_eq (adapter : ISandboxAdapter ω) :
    (createToolRegistry adapter).getAllTools =
      [createReadTool (fun w workspaceId path encoding _ =>
          adapter.readFile w workspaceId path (encoding.orElse (.string "utf-8"))),
        createWriteTool (fun w workspaceId path content encoding _ =>
          adapter.writeFile w workspaceId path content (encoding.orElse (.string "utf-8"))),
        createBashTool adapter.execute] := rfl

@[simp] theorem orElse_orElse (value : JsValue) (text : String) :
    (value.orElse (.string text)).orElse (.string text) = value.orElse (.string text) := by
  cases value <;> rfl

def BodyEnd.fails : BodyEnd → Prop
  | .cancelled => True
  | .threw _ => True
  | _ => False

/-- The call has come to an end, and to no result with `success = true`. -/
def Promise.misses (outcome : Promise ToolResult) : Prop := outcome.fails ∨ outcome.rejects

theorem conclude_misses_iff (name : String) (site : CallSite) (events : List ToolEvent)
    (ends : BodyEnd) : (conclude name site events ends).2.misses ↔ ends.fails := by
  cases ends with
  | done data isError =>
      simp [conclude, Promise.misses, Promise.fails, Promise.rejects, BodyEnd.fails,
        createSuccessResult]
  | cancelled => exact iff_of_true (.inl rfl) trivial
  | threw error =>
      refine iff_of_true ?_ trivial
      simp only [conclude]
      cases mapErrorToToolError error with
      | ok toolError => exact .inl rfl
      | error thrown => exact .inr trivial
  | pending => simp [conclude, Promise.misses, Promise.fails, Promise.rejects, BodyEnd.fails]

theorem failWith_misses (name : String) (site : CallSite) (code : ToolErrorCode)
    (message : JsValue) : (failWith name site [] (createErrorResult code message none)).2.misses :=
  .inl rfl

section Frame

variable (name required missing : String) (startArgs : JsValue → List (String × JsValue))
  (body : ω → WorkspaceId → JsValue → CallSite → ω × List ToolEvent × BodyEnd)
  (w : ω) (params : JsValue) (site : CallSite) (context : ToolContext)

theorem executeTool_misses_iff :
    (executeTool name required missing startArgs body w params site (some context)).2.2.misses ↔
      context.workspaceId = "" ∨ (param params required).truthy = false ∨
        (body w context.workspaceId params site).2.2.fails := by
  unfold executeTool
  by_cases noWorkspace : context.workspaceId = ""
  · have missing : workspaceOf (some context) = none := by simp [workspaceOf, noWorkspace]
    simp only [missing, noWorkspace, true_or, iff_true]
    exact failWith_misses _ _ _ _
  · have found : workspaceOf (some context) = some context.workspaceId := by
      simp [workspaceOf, noWorkspace]
    simp only [found, noWorkspace, false_or, param]
    cases access : params.member required with
    | error error =>
        simp only [JsValue.truthy, true_or, iff_true]
        exact failWith_misses _ _ _ _
    | ok value =>
        cases given : value.truthy with
        | false =>
            simp only [given, Bool.not_false, if_true, true_or, iff_true]
            exact failWith_misses _ _ _ _
        | true =>
            simp only [given, Bool.not_true, Bool.false_eq_true, if_false, Bool.true_eq_false,
              false_or]
            exact conclude_misses_iff _ _ _ _

end Frame

theorem readChunks_stops_iff (site : CallSite) (chunks : List ExecutionChunk) :
    (readChunks site 0 chunks ⟨[], [], 0⟩ []).2.2 = false ↔
      ∃ index < chunks.length, site.aborted index = true := by
  rcases quiet_or_first site chunks.length with quiet | ⟨index, inside, aborted, first⟩
  · rw [readChunks_whole site chunks quiet]
    constructor
    · intro stopped
      cases stopped
    · rintro ⟨index, inside, aborted⟩
      rw [quiet index inside] at aborted
      cases aborted
  · rw [readChunks_aborted site chunks index inside aborted first]
    exact ⟨fun _ => ⟨index, inside, aborted⟩, fun _ => rfl⟩

theorem readBody_fails_iff
    (readFileFn : ω → WorkspaceId → (path encoding limit : JsValue) → ω × Promise String)
    (w : ω) (workspaceId : WorkspaceId) (params : JsValue) (site : CallSite) :
    (readBody readFileFn w workspaceId params site).2.2.fails ↔
      ∃ error, (readFileFn w workspaceId (param params "path")
        ((param params "encoding").orElse (.string "utf-8")) (param params "limit")).2 =
          .rejected error := by
  unfold readBody
  simp only
  generalize readFileFn w workspaceId _ _ _ = answer
  obtain ⟨w', outcome⟩ := answer
  cases outcome <;> simp [BodyEnd.fails]

theorem writeBody_fails_iff
    (writeFileFn : ω → WorkspaceId → (path content encoding append : JsValue) → ω × Promise Unit)
    (w : ω) (workspaceId : WorkspaceId) (params : JsValue) (site : CallSite) :
    (writeBody writeFileFn w workspaceId params site).2.2.fails ↔
      (∃ error, (writeFileFn w workspaceId (param params "path") (param params "content")
        ((param params "encoding").orElse (.string "utf-8"))
        ((param params "append").orElse (.bool false))).2 = .rejected error) ∨
      ((writeFileFn w workspaceId (param params "path") (param params "content")
        ((param params "encoding").orElse (.string "utf-8"))
        ((param params "append").orElse (.bool false))).2 = .resolved () ∧
          ∃ error, contentLength (param params "content") = .error error) := by
  unfold writeBody
  simp only
  generalize writeFileFn w workspaceId _ _ _ _ = answer
  obtain ⟨w', outcome⟩ := answer
  cases outcome with
  | resolved value =>
      cases measured : contentLength (param params "content") <;> simp [BodyEnd.fails]
  | rejected error => simp [BodyEnd.fails]
  | pending => simp [BodyEnd.fails]

theorem bashBody_fails_iff
    (executeFn : ω → WorkspaceId → (command : JsValue) → BashOptions → ω × ChunkStream)
    (w : ω) (workspaceId : WorkspaceId) (params : JsValue) (site : CallSite) :
    (bashBody executeFn w workspaceId params site).2.2.fails ↔
      StreamFails site (executeFn w workspaceId (param params "command")
        ⟨(param params "timeout").orElse (.number (.ofNat 60000)), param params "cwd",
          param params "env"⟩).2 := by
  unfold bashBody StreamFails
  simp only
  generalize executeFn w workspaceId _ _ = answer
  obtain ⟨w', stream⟩ := answer
  rw [← readChunks_stops_iff]
  cases read : readChunks site 0 stream.chunks ⟨[], [], 0⟩ [] with
  | mk updates rest =>
      obtain ⟨output, whole⟩ := rest
      cases whole with
      | false => simp [BodyEnd.fails]
      | true => cases ends : stream.ends <;> simp [BodyEnd.fails]

theorem piAgentTool_rejects_iff (context : ToolContext) (tool : AgentTool ω) (w : ω)
    (params : JsValue) (site : CallSite) :
    ((piAgentTool context tool).execute w params site).2.2.rejects ↔
      (tool.execute w params site (some context)).2.2.rejects := by
  simp only [piAgentTool]
  generalize tool.execute w params site (some context) = run
  obtain ⟨w', events, outcome⟩ := run
  cases outcome <;> rfl

section Tools

variable (adapter : ISandboxAdapter ω) (context : ToolContext) {tool : AgentTool ω}

/-- A tool of the registry has no success on the inputs of `CallFails`, and on no others where it
ends. -/
theorem listed_misses_iff (listed : tool ∈ (createToolRegistry adapter).getAllTools) (w : ω)
    (params : JsValue) (site : CallSite) :
    (tool.execute w params site (some context)).2.2.misses ↔
      CallFails adapter context w params site tool.name := by
  rw [getAllTools_eq] at listed
  simp only [List.mem_cons, List.not_mem_nil, or_false] at listed
  rcases listed with rfl | rfl | rfl
  · rw [createReadTool, executeTool_misses_iff, readBody_fails_iff]
    simp [callFails_iff, requiredParam]
  · rw [createWriteTool, executeTool_misses_iff, writeBody_fails_iff]
    simp [callFails_iff, requiredParam]
  · rw [createBashTool, executeTool_misses_iff, bashBody_fails_iff]
    simp [callFails_iff, requiredParam]

theorem Promise.not_both (outcome : Promise ToolResult) : ¬(outcome.fails ∧ outcome.rejects) := by
  cases outcome <;> simp [Promise.fails, Promise.rejects]

/-- The pi-agent tool rejects only where the tool itself does, which has then returned no result: it
rejects exactly on failures on those inputs alone on which the call does not fail. -/
theorem failure_rejects_iff (listed : tool ∈ (createToolRegistry adapter).getAllTools) (w : ω)
    (params : JsValue) (site : CallSite) :
    (((piAgentTool context tool).execute w params site).2.2.rejects ↔
        (tool.execute w params site (some context)).2.2.fails) ↔
      ¬CallFails adapter context w params site tool.name := by
  have apart := Promise.not_both (tool.execute w params site (some context)).2.2
  rw [piAgentTool_rejects_iff, ← listed_misses_iff adapter context listed, Promise.misses]
  tauto

def deadAdapter : ISandboxAdapter Unit where
  readFile _ workspaceId _ _ := ((), .rejected (SandboxError.workspaceNotFound workspaceId).thrown)
  writeFile _ workspaceId _ _ _ := ((), .rejected (SandboxError.workspaceNotFound workspaceId).thrown)
  execute _ workspaceId _ _ :=
    ((), ⟨[], .threw (SandboxError.workspaceNotFound workspaceId).thrown⟩)

def echoAdapter : ISandboxAdapter Unit where
  readFile _ _ _ _ := ((), .resolved "content")
  writeFile _ _ _ _ _ := ((), .resolved ())
  execute _ _ command _ :=
    match command with
    | .string text => ((), ⟨[.stdout text, .exit 0], .done⟩)
    | _ => ((), ⟨[.exit 1], .done⟩)

def callContext : ToolContext := ⟨"ws-1", "run_0_a", "alice"⟩

def callSite : CallSite := ⟨"call-1", fun _ => false, fun _ => 0⟩

def readTool (adapter : ISandboxAdapter Unit) : AgentTool Unit :=
  createReadTool (fun w workspaceId path encoding _ =>
    adapter.readFile w workspaceId path (encoding.orElse (.string "utf-8")))

theorem readTool_listed (adapter : ISandboxAdapter Unit) :
    readTool adapter ∈ (createToolRegistry adapter).getAllTools := by
  rw [getAllTools_eq]
  exact List.mem_cons_self

theorem successful_read_is_reported :
    ((piAgentTool callContext (readTool echoAdapter)).execute ()
        (.object [("path", .string "a.txt")]) callSite).2.2.rejects ↔
      ((readTool echoAdapter).execute () (.object [("path", .string "a.txt")]) callSite
        (some callContext)).2.2.fails := by
  refine (failure_rejects_iff echoAdapter callContext (readTool_listed echoAdapter) ()
    (.object [("path", .string "a.txt")]) callSite).mpr ?_
  intro fails
  have missed := (listed_misses_iff echoAdapter callContext (readTool_listed echoAdapter) ()
    (.object [("path", .string "a.txt")]) callSite).mpr fails
  rcases missed with failed | rejected
  · exact absurd failed Bool.noConfusion
  · exact rejected

/-- A read that fails resolves, with the message of the error as content. -/
theorem failed_read_resolves :
    ¬∀ (adapter : ISandboxAdapter Unit) (context : ToolContext) (tool : AgentTool Unit),
      tool ∈ (createToolRegistry adapter).getAllTools → ∀ params site,
        (((piAgentTool context tool).execute () params site).2.2.rejects ↔
          (tool.execute () params site (some context)).2.2.fails) := by
  intro always
  have reported := always deadAdapter callContext (readTool deadAdapter)
    (readTool_listed deadAdapter) (.object [("path", .string "a.txt")]) callSite
  exact reported.mpr rfl

end Tools

end Minerva
