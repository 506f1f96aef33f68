import Mathlib.Data.List.Find
import Minerva.Library.Joined
import Minerva.Sandbox.Adapter

namespace Minerva

/-- The words that `mapErrorToToolError` looks for, in the order of its tests. -/
def codeWords : List (ToolErrorCode × List String) :=
  [(.fileNotFound, ["not found", "ENOENT"]), (.permissionDenied, ["permission", "EACCES"]),
    (.timeout, ["timeout", "ETIMEDOUT"]), (.cancelled, ["cancelled", "abort"])]

def wordClass (texts : List String) : ToolErrorCode :=
  ((codeWords.find? (fun group =>
    group.2.any (fun word => texts.any (fun text => includes text word)))).map Prod.fst).getD
      .unknownError

namespace SandboxError

/-- The error with another path or command of the user in it. -/
def withUserText : SandboxError → String → SandboxError
  | .pathTraversal _ reason workspaceId, text => .pathTraversal text reason workspaceId
  | .fileTooLarge _ size maxSize workspaceId, text => .fileTooLarge text size maxSize workspaceId
  | .commandTimeout _ timeoutMs workspaceId, text => .commandTimeout text timeoutMs workspaceId
  | error, _ => error

/-- The texts in the message that can hold a word: what the user gave, and what the class adds. -/
def spoken : SandboxError → List String
  | .workspaceNotFound workspaceId => ["not found", workspaceId]
  | .workspaceCreation message _ => [message]
  | .pathTraversal attemptedPath reason _ => [attemptedPath, reason]
  | .fileTooLarge path _ _ _ => [path]
  | .commandExecution message _ _ _ _ => [message]
  | .commandTimeout command _ _ => [command]

end SandboxError

/-- A word that no message of the sandbox can form across the borders of its parts. -/
structure Solid (word : List Char) : Prop where
  filled : word ≠ []
  starts : word.head? ≠ some ' '
  ends : word.getLast? ≠ some ' '
  colon : ':' ∉ word
  dash : '-' ∉ word
  bracket : '(' ∉ word

theorem codeWords_solid : ∀ group ∈ codeWords, ∀ word ∈ group.2, Solid word.toList := by
  have solid : ∀ group ∈ codeWords, ∀ word ∈ group.2, word.toList ≠ [] ∧
      word.toList.head? ≠ some ' ' ∧ word.toList.getLast? ≠ some ' ' ∧ ':' ∉ word.toList ∧
      '-' ∉ word.toList ∧ '(' ∉ word.toList := by decide
  intro group member word listed
  obtain ⟨filled, starts, ends, colon, dash, bracket⟩ := solid group member word listed
  exact ⟨filled, starts, ends, colon, dash, bracket⟩

theorem includes_iff (text word : String) :
    includes text word = true ↔ word.toList <:+: text.toList := by
  simp [includes]

namespace Solid

variable {word : List Char} (solid : Solid word) (text : List Char)

include solid

theorem spaced : word <:+: ' ' :: text ↔ word <:+: text :=
  Joined.infix_cons_of_starts solid.filled solid.starts

theorem spaced_end : word <:+: text ++ [' '] ↔ word <:+: text :=
  Joined.infix_append_of_ends solid.filled solid.ends

theorem after_colon {label : List Char} (absent : ¬word <:+: label) :
    word <:+: label ++ ':' :: ' ' :: text ↔ word <:+: text := by
  rw [Joined.infix_split solid.colon, solid.spaced]
  simp [absent]

end Solid

theorem sizes_say_nothing (size maxSize : JsNumber) : ∀ group ∈ codeWords, ∀ word ∈ group.2,
    ¬word.toList <:+: size.text.toList ++ " bytes, max ".toList ++ maxSize.text.toList ++
      " bytes)".toList := by
  intro group member word listed
  have letter : ∀ group ∈ codeWords, ∀ word ∈ group.2, word.toList.any (fun c =>
      c ∉ "0123456789.e+-".toList ∧ c ∉ " bytes, max ".toList ∧ c ∉ " bytes)".toList) = true := by
    decide
  obtain ⟨c, inside, own⟩ := List.any_eq_true.mp (letter group member word listed)
  obtain ⟨number, middle, last⟩ := of_decide_eq_true own
  apply Joined.not_infix_of_not_mem inside
  simp only [List.mem_append, not_or]
  exact ⟨⟨⟨fun digit => number (size.written c digit), middle⟩,
    fun digit => number (maxSize.written c digit)⟩, last⟩

theorem not_found_unsaid (timeoutMs : JsNumber) : ¬"not found".toList <:+:
    "Command timed out after ".toList ++ timeoutMs.text.toList ++ "ms".toList := by
  have parts : "Command timed out after ".toList ++ timeoutMs.text.toList ++ "ms".toList =
      "Comm".toList ++ 'a' :: ("nd timed out ".toList ++ 'a' ::
        ("fter ".toList ++ timeoutMs.text.toList ++ "ms".toList)) := by simp
  have last : ¬"not found".toList <:+: "fter ".toList ++ timeoutMs.text.toList ++ "ms".toList := by
    have letter : 'o' ∈ "not found".toList := by decide
    apply Joined.not_infix_of_not_mem letter
    simp only [List.mem_append, not_or]
    exact ⟨⟨by decide, fun digit => absurd (timeoutMs.written 'o' digit) (by decide)⟩, by decide⟩
  rw [parts, Joined.infix_split (by decide), Joined.infix_split (by decide)]
  rintro (first | second | third)
  · exact absurd first (by decide)
  · exact absurd second (by decide)
  · exact last third

theorem timeout_unsaid (timeoutMs : JsNumber) : ¬"timeout".toList <:+:
    "Command timed out after ".toList ++ timeoutMs.text.toList ++ "ms".toList := by
  have parts : "Command timed out after ".toList ++ timeoutMs.text.toList ++ "ms".toList =
      "Command".toList ++ ' ' :: ("timed".toList ++ ' ' :: ("out".toList ++ ' ' ::
        ("after".toList ++ ' ' :: (timeoutMs.text.toList ++ "ms".toList)))) := by simp
  have last : ¬"timeout".toList <:+: timeoutMs.text.toList ++ "ms".toList := by
    have letter : 'o' ∈ "timeout".toList := by decide
    apply Joined.not_infix_of_not_mem letter
    simp only [List.mem_append, not_or]
    exact ⟨fun digit => absurd (timeoutMs.written 'o' digit) (by decide), by decide⟩
  rw [parts, Joined.infix_split (by decide), Joined.infix_split (by decide),
    Joined.infix_split (by decide), Joined.infix_split (by decide)]
  rintro (first | second | third | fourth | fifth)
  · exact absurd first (by decide)
  · exact absurd second (by decide)
  · exact absurd third (by decide)
  · exact absurd fourth (by decide)
  · exact last fifth

theorem timeout_says_nothing (timeoutMs : JsNumber) : ∀ group ∈ codeWords, ∀ word ∈ group.2,
    ¬word.toList <:+: "Command timed out after ".toList ++ timeoutMs.text.toList ++
      "ms".toList := by
  intro group member word listed
  have letter : ∀ group ∈ codeWords, ∀ word ∈ group.2, word = "not found" ∨ word = "timeout" ∨
      word.toList.any (fun c => c ∉ "Command timed out after ".toList ∧
        c ∉ "0123456789.e+-".toList ∧ c ∉ "ms".toList) = true := by decide
  rcases letter group member word listed with rfl | rfl | named
  · exact not_found_unsaid timeoutMs
  · exact timeout_unsaid timeoutMs
  · obtain ⟨c, inside, own⟩ := List.any_eq_true.mp named
    obtain ⟨before, number, after⟩ := of_decide_eq_true own
    apply Joined.not_infix_of_not_mem inside
    simp only [List.mem_append, not_or]
    exact ⟨⟨before, fun digit => number (timeoutMs.written c digit)⟩, after⟩

theorem message_includes_iff (error : SandboxError) (group : ToolErrorCode × List String)
    (member : group ∈ codeWords) (word : String) (listed : word ∈ group.2) :
    word.toList <:+: error.message.toList ↔
      ∃ text ∈ error.spoken, word.toList <:+: text.toList := by
  have solid := codeWords_solid group member word listed
  cases error with
  | workspaceNotFound workspaceId =>
      have label : ∀ group ∈ codeWords, ∀ word ∈ group.2,
          (word.toList <:+: "Workspace not found".toList ↔
            word.toList <:+: "not found".toList) := by decide
      have parts : (SandboxError.workspaceNotFound workspaceId).message.toList =
          "Workspace not found".toList ++ ':' :: ' ' :: workspaceId.toList := by
        simp
      calc
        _ ↔ word.toList <:+: "Workspace not found".toList ∨
            word.toList <:+: ' ' :: workspaceId.toList := by
          rw [parts, Joined.infix_split solid.colon]
        _ ↔ word.toList <:+: "not found".toList ∨ word.toList <:+: workspaceId.toList :=
          or_congr (label group member word listed) (solid.spaced workspaceId.toList)
        _ ↔ _ := by simp only [SandboxError.spoken, List.mem_cons, List.not_mem_nil, or_false,
          exists_eq_or_imp, exists_eq_left]
  | workspaceCreation message userId => simp [SandboxError.spoken]
  | pathTraversal attemptedPath reason workspaceId =>
      have label : ∀ group ∈ codeWords, ∀ word ∈ group.2,
          ¬word.toList <:+: "Path traversal detected".toList := by decide
      have parts : (SandboxError.pathTraversal attemptedPath reason workspaceId).message.toList =
          "Path traversal detected".toList ++ ':' :: ' ' ::
            (attemptedPath.toList ++ [' '] ++ '-' :: ' ' :: reason.toList) := by
        simp
      calc
        _ ↔ word.toList <:+: attemptedPath.toList ++ [' '] ++ '-' :: ' ' :: reason.toList := by
          rw [parts, solid.after_colon _ (label group member word listed)]
        _ ↔ word.toList <:+: attemptedPath.toList ++ [' '] ∨
            word.toList <:+: ' ' :: reason.toList := Joined.infix_split solid.dash
        _ ↔ word.toList <:+: attemptedPath.toList ∨ word.toList <:+: reason.toList :=
          or_congr (solid.spaced_end attemptedPath.toList) (solid.spaced reason.toList)
        _ ↔ _ := by simp [SandboxError.spoken]
  | fileTooLarge path size maxSize workspaceId =>
      have label : ∀ group ∈ codeWords, ∀ word ∈ group.2,
          ¬word.toList <:+: "File too large".toList := by decide
      have parts : (SandboxError.fileTooLarge path size maxSize workspaceId).message.toList =
          "File too large".toList ++ ':' :: ' ' :: (path.toList ++ [' '] ++ '(' ::
            (size.text.toList ++ " bytes, max ".toList ++ maxSize.text.toList ++
              " bytes)".toList)) := by
        simp
      have silent := sizes_say_nothing size maxSize group member word listed
      calc
        _ ↔ word.toList <:+: path.toList ++ [' '] ++ '(' :: (size.text.toList ++
            " bytes, max ".toList ++ maxSize.text.toList ++ " bytes)".toList) := by
          rw [parts, solid.after_colon _ (label group member word listed)]
        _ ↔ word.toList <:+: path.toList ++ [' '] ∨ word.toList <:+: size.text.toList ++
            " bytes, max ".toList ++ maxSize.text.toList ++ " bytes)".toList :=
          Joined.infix_split solid.bracket
        _ ↔ word.toList <:+: path.toList ∨ False :=
          or_congr (solid.spaced_end path.toList) (iff_false_intro silent)
        _ ↔ _ := by simp [SandboxError.spoken]
  | commandExecution message exitCode stdout stderr workspaceId =>
      simp [SandboxError.spoken]
  | commandTimeout command timeoutMs workspaceId =>
      have parts : (SandboxError.commandTimeout command timeoutMs workspaceId).message.toList =
          "Command timed out after ".toList ++ timeoutMs.text.toList ++ "ms".toList ++
            ':' :: ' ' :: command.toList := by
        simp
      calc
        _ ↔ word.toList <:+: command.toList := by
          rw [parts, solid.after_colon command.toList
            (timeout_says_nothing timeoutMs group member word listed)]
        _ ↔ _ := by simp [SandboxError.spoken]

theorem message_any_iff (error : SandboxError) (group : ToolErrorCode × List String)
    (member : group ∈ codeWords) :
    group.2.any (fun word => includes error.message word) =
      group.2.any (fun word => error.spoken.any (fun text => includes text word)) := by
  rw [Bool.eq_iff_iff]
  simp only [List.any_eq_true, includes_iff]
  constructor
  · rintro ⟨word, listed, inside⟩
    exact ⟨word, listed, (message_includes_iff error group member word listed).mp inside⟩
  · rintro ⟨word, listed, inside⟩
    exact ⟨word, listed, (message_includes_iff error group member word listed).mpr inside⟩

/-- No error of the sandbox has a code that the mapping accepts: all go by their words. -/
theorem code_eq_wordClass (error : SandboxError) :
    (mapErrorToToolError error.thrown).map ToolError.code = .ok (wordClass error.spoken) := by
  have unaccepted : (some error.code).bind acceptedCode = none := by
    cases error <;> rfl
  have tested : (mapErrorToToolError error.thrown).map ToolError.code =
      .ok (((codeWords.find? (fun group =>
        group.2.any (fun word => includes error.message word))).map Prod.fst).getD
          .unknownError) := by
    simp only [mapErrorToToolError, SandboxError.thrown, unaccepted, ThrownValue.errorMessage,
      JsValue.searched, codeWords, List.find?_cons, List.any_cons, List.any_nil, Bool.or_false,
      if_true]
    cases includes error.message "not found" || includes error.message "ENOENT" <;>
      cases includes error.message "permission" || includes error.message "EACCES" <;>
      cases includes error.message "timeout" || includes error.message "ETIMEDOUT" <;>
      cases includes error.message "cancelled" || includes error.message "abort" <;> rfl
  have same : codeWords.find? (fun group =>
      group.2.any (fun word => includes error.message word)) =
      codeWords.find? (fun group =>
        group.2.any (fun word => error.spoken.any (fun text => includes text word))) :=
    List.find?_congr (fun group member => message_any_iff error group member)
  rw [tested, same]
  rfl

/-- The command names a timeout, and nothing that is tested for earlier. -/
def NamesTimeout (command : String) : Prop :=
  (includes command "timeout" = true ∨ includes command "ETIMEDOUT" = true) ∧
    ∀ word ∈ ["not found", "ENOENT", "permission", "EACCES"], includes command word = false

theorem wordClass_timeout_iff (command : String) :
    wordClass [command] = .timeout ↔ NamesTimeout command := by
  simp only [wordClass, codeWords, NamesTimeout, List.find?_cons, List.any_cons, List.any_nil,
    Bool.or_false, List.mem_cons, List.not_mem_nil, or_false, forall_eq_or_imp, forall_eq,
    List.find?_nil]
  cases includes command "not found" <;> cases includes command "ENOENT" <;>
    cases includes command "permission" <;> cases includes command "EACCES" <;>
    cases includes command "timeout" <;> cases includes command "ETIMEDOUT" <;>
    cases includes command "cancelled" <;> cases includes command "abort" <;> decide

def Promise.errorCode : Promise ToolResult → Option ToolErrorCode
  | .resolved result => result.error.map ToolError.code
  | _ => none

/-- The command of a bash call fails in its session with a timeout error. -/
structure TimesOut (w : DaytonaWorld) (workspaceId : WorkspaceId) (command : String) : Prop where
  named : workspaceId ≠ ""
  found : (w.getSandbox workspaceId).isSome
  session : w.createSession workspaceId = none
  fails : ∃ error message, w.executeSessionCommand workspaceId command = .rejected error ∧
    error.isError = true ∧ error.message = .string message ∧ includes message "timeout" = true

theorem timed_out_stream (service : FilesystemService) {w : DaytonaWorld}
    {workspaceId : WorkspaceId} {command : String} (out : TimesOut w workspaceId command)
    (options : BashOptions) : ∃ timeoutMs,
      ((daytonaSandboxAdapter service).execute w workspaceId (.string command) options).2 =
        ⟨[], .threw (SandboxError.commandTimeout command timeoutMs workspaceId).thrown⟩ := by
  obtain ⟨next, found⟩ := Option.isSome_iff_exists.mp out.found
  obtain ⟨session, reply, -, -⟩ := DaytonaWorld.getSandbox_keeps found
  obtain ⟨error, message, rejected, isError, text, timeout⟩ := out.fails
  refine ⟨(options.timeoutMs.asNumber.filter (fun n => !n.falsy)).getD (.ofNat 300000), ?_⟩
  simp [daytonaSandboxAdapter, found, executeStreaming, session, out.session, reply, rejected,
    sessionFailed, isError, text, JsValue.searched, timeout, JsValue.text]

theorem member_of_param {params : JsValue} {name text : String}
    (given : param params name = .string text) : params.member name = .ok (.string text) := by
  unfold param at given
  cases access : params.member name with
  | error error => simp [access] at given
  | ok value => simpa [access] using given

theorem executeTool_errorCode {ω : Type} (name required missing : String)
    (startArgs : JsValue → List (String × JsValue))
    (body : ω → WorkspaceId → JsValue → CallSite → ω × List ToolEvent × BodyEnd) (w : ω)
    {params value : JsValue} (site : CallSite) {context : ToolContext}
    (named : context.workspaceId ≠ "") (given : params.member required = .ok value)
    (filled : value.truthy = true) {error : ThrownValue} {code : ToolErrorCode}
    (threw : (body w context.workspaceId params site).2.2 = .threw error)
    (mapped : (mapErrorToToolError error).map ToolError.code = .ok code) :
    (executeTool name required missing startArgs body w params site (some context)).2.2.errorCode =
      some code := by
  have workspace : workspaceOf (some context) = some context.workspaceId := by
    simp [workspaceOf, named]
  unfold executeTool
  rw [workspace]
  simp only [given, filled, Bool.not_true, Bool.false_eq_true, if_false, threw, conclude]
  cases maps : mapErrorToToolError error with
  | ok toolError =>
      rw [maps] at mapped
      cases mapped
      rfl
  | error thrown =>
      rw [maps] at mapped
      cases mapped

theorem bashBody_threw {ω : Type}
    (executeFn : ω → WorkspaceId → (command : JsValue) → BashOptions → ω × ChunkStream) (w : ω)
    (workspaceId : WorkspaceId) (params : JsValue) (site : CallSite) {error : ThrownValue}
    (stream : (executeFn w workspaceId (param params "command")
      ⟨(param params "timeout").orElse (.number (.ofNat 60000)), param params "cwd",
        param params "env"⟩).2 = ⟨[], .threw error⟩) :
    (bashBody executeFn w workspaceId params site).2.2 = .threw error := by
  unfold bashBody
  simp only [stream, readChunks]

theorem timed_out_code (service : FilesystemService) {w : DaytonaWorld} {context : ToolContext}
    {command : String} (out : TimesOut w context.workspaceId command) {params : JsValue}
    (given : param params "command" = .string command) (filled : command ≠ "") (site : CallSite) :
    ((createBashTool (daytonaSandboxAdapter service).execute).execute w params site
      (some context)).2.2.errorCode = some (wordClass [command]) := by
  obtain ⟨timeoutMs, stream⟩ := timed_out_stream service out
    ⟨(param params "timeout").orElse (.number (.ofNat 60000)), param params "cwd",
      param params "env"⟩
  rw [← given] at stream
  have truthy : (JsValue.string command).truthy = true := by simpa [JsValue.truthy] using filled
  have threw := bashBody_threw _ w context.workspaceId params site stream
  have reported := executeTool_errorCode "bash" "command" "Command is required"
    (fun params => [("command", param params "command"), ("cwd", param params "cwd"),
      ("timeout", (param params "timeout").orElse (.number (.ofNat 60000))),
      ("env", param params "env")]) _ w site out.named (member_of_param given) truthy threw
    (code_eq_wordClass _)
  exact reported

/-- The code of a timed out command is TIMEOUT exactly if the command itself names one, and two
errors of one class have the same code exactly if the texts of the user are of one class. -/
theorem classification_iff (service : FilesystemService) (tool : AgentTool DaytonaWorld)
    (w : DaytonaWorld) (context : ToolContext) (command : String) (params : JsValue)
    (site : CallSite) (error : SandboxError) (text other : String) :
    ((createToolRegistry (daytonaSandboxAdapter service)).getTool "bash" = some tool →
      TimesOut w context.workspaceId command → param params "command" = .string command →
      command ≠ "" →
        ((tool.execute w params site (some context)).2.2.errorCode = some .timeout ↔
          NamesTimeout command)) ∧
      ((mapErrorToToolError (error.withUserText text).thrown).map ToolError.code =
          (mapErrorToToolError (error.withUserText other).thrown).map ToolError.code ↔
        wordClass (error.withUserText text).spoken =
          wordClass (error.withUserText other).spoken) := by
  constructor
  · intro listed out given filled
    rw [ToolRegistry.getTool_bash, Option.some_inj] at listed
    subst listed
    rw [timed_out_code service out given filled site, Option.some_inj]
    exact wordClass_timeout_iff command
  · rw [code_eq_wordClass, code_eq_wordClass, Except.ok.injEq]

def slowWorld : DaytonaWorld where
  sandboxes := []
  found _ := true
  files _ _ := none
  noFile _ _ := .error "no such file"
  createSession _ := none
  executeSessionCommand _ _ := .rejected (.error "Request timeout")

theorem slow_times_out (command : String) : TimesOut slowWorld "ws-1" command where
  named := by decide
  found := rfl
  session := rfl
  fails := by
    have timeout : includes "Request timeout" "timeout" = true :=
      (includes_iff _ _).mpr (by decide)
    exact ⟨.error "Request timeout", "Request timeout", rfl, rfl, rfl, timeout⟩

def slowContext : ToolContext := ⟨"ws-1", "run_0_a", "alice"⟩

def slowSite : CallSite := ⟨"call-1", fun _ => false, fun _ => 0⟩

def commandParams (command : String) : JsValue := .object [("command", .string command)]

theorem commandParams_command (command : String) :
    param (commandParams command) "command" = .string command := by
  simp [param, commandParams, JsValue.member]

theorem timeout_command_named : NamesTimeout "timeout 5 make" := by
  unfold NamesTimeout
  decide +kernel

theorem named_timeout_is_reported :
    ((createBashTool (daytonaSandboxAdapter .default).execute).execute slowWorld
        (commandParams "timeout 5 make") slowSite (some slowContext)).2.2.errorCode =
          some .timeout := by
  have both := classification_iff .default
    (createBashTool (daytonaSandboxAdapter .default).execute) slowWorld slowContext
    "timeout 5 make" (commandParams "timeout 5 make") slowSite (.workspaceNotFound "ws-1") "" ""
  have reported := both.1 (ToolRegistry.getTool_bash _) (slow_times_out _)
    (commandParams_command _) (by decide)
  exact reported.mpr timeout_command_named

/-- `sleep 100` that times out is an unknown error. -/
theorem timeout_is_unknown :
    ¬((∀ (service : FilesystemService) (tool : AgentTool DaytonaWorld),
        (createToolRegistry (daytonaSandboxAdapter service)).getTool "bash" = some tool →
        ∀ (w : DaytonaWorld) (context : ToolContext) (command : String),
          TimesOut w context.workspaceId command →
          ∀ params, param params "command" = .string command → command ≠ "" → ∀ site,
            (tool.execute w params site (some context)).2.2.errorCode = some .timeout) ∧
      ∀ (error : SandboxError) (text other : String),
        (mapErrorToToolError (error.withUserText text).thrown).map ToolError.code =
          (mapErrorToToolError (error.withUserText other).thrown).map ToolError.code) := by
  rintro ⟨always, -⟩
  have reported := always .default _ (ToolRegistry.getTool_bash _) slowWorld slowContext "sleep 100"
    (slow_times_out _) (commandParams _) (commandParams_command _) (by decide) slowSite
  have code : ((createBashTool (daytonaSandboxAdapter .default).execute).execute slowWorld
      (commandParams "sleep 100") slowSite (some slowContext)).2.2.errorCode =
        some (wordClass ["sleep 100"]) :=
    timed_out_code .default (slow_times_out "sleep 100") (commandParams_command _) (by decide)
      slowSite
  have unknown : wordClass ["sleep 100"] = .unknownError := by decide +kernel
  rw [code, unknown] at reported
  exact absurd reported (by decide)

end Minerva
