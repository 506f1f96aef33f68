import Minerva.Sandbox.Adapter
import Minerva.Sandbox.ByteStore

namespace Minerva

inductive FileRequest where
  | write (path content : String) (encoding : Option Encoding) (append : Option Bool)
  | read (path : String) (encoding : Option Encoding)

structure FileCall where
  site : CallSite
  request : FileRequest

namespace FileRequest

def tool : FileRequest → String
  | .write _ _ _ _ => "write"
  | .read _ _ => "read"

def encodingField (encoding : Option Encoding) : List (String × JsValue) :=
  (encoding.map (fun encoding => ("encoding", encoding.value))).toList

def params : FileRequest → JsValue
  | .write path content encoding append =>
    .object ([("path", .string path), ("content", .string content)] ++ encodingField encoding ++
      (append.map (fun append => ("append", JsValue.bool append))).toList)
  | .read path encoding => .object (("path", .string path) :: encodingField encoding)

end FileRequest

section Calls

variable {ω : Type}

def ToolRegistry.issue (registry : ToolRegistry ω) (context : ToolContext) (w : ω)
    (call : FileCall) : ω × Option (Promise ToolResult) :=
  match registry.getTool call.request.tool with
  | none => (w, none)
  | some tool =>
    let (w, _, outcome) := tool.execute w call.request.params call.site (some context)
    (w, some outcome)

def ToolRegistry.issueAll (registry : ToolRegistry ω) (context : ToolContext) :
    ω → List FileCall → List (Option (Promise ToolResult))
  | _, [] => []
  | w, call :: rest =>
    let (w, outcome) := registry.issue context w call
    outcome :: registry.issueAll context w rest

def succeeded : Option (Promise ToolResult) → Bool
  | some (.resolved result) => result.success
  | _ => false

def contentOf : Option (Promise ToolResult) → Option String
  | some (.resolved ⟨_, some (.read content _ _ _), _⟩) => some content
  | _ => none

theorem executeTool_succeeded (name required missing : String)
    (startArgs : JsValue → List (String × JsValue))
    (body : ω → WorkspaceId → JsValue → CallSite → ω × List ToolEvent × BodyEnd) (w : ω)
    (params : JsValue) (site : CallSite) (context : ToolContext)
    (success : succeeded (some (executeTool name required missing startArgs body w params site
      (some context)).2.2) = true) :
    (executeTool name required missing startArgs body w params site (some context)).1 =
        (body w context.workspaceId params site).1 ∧
      ∃ data isError, (body w context.workspaceId params site).2.2 = .done data isError ∧
        (executeTool name required missing startArgs body w params site (some context)).2.2 =
          .resolved (createSuccessResult data) := by
  unfold executeTool at success ⊢
  by_cases noWorkspace : context.workspaceId = ""
  · have unnamed : workspaceOf (some context) = none := by simp [workspaceOf, noWorkspace]
    rw [unnamed] at success
    exact absurd success Bool.noConfusion
  · have named : workspaceOf (some context) = some context.workspaceId := by
      simp [workspaceOf, noWorkspace]
    rw [named] at success ⊢
    simp only at success ⊢
    cases access : params.member required with
    | error error =>
        rw [access] at success
        exact absurd success Bool.noConfusion
    | ok value =>
        rw [access] at success
        simp only at success ⊢
        cases given : value.truthy with
        | false =>
            rw [given] at success
            exact absurd success Bool.noConfusion
        | true =>
            simp only [given, Bool.not_true, Bool.false_eq_true, if_false] at success ⊢
            refine ⟨trivial, ?_⟩
            generalize (body w context.workspaceId params site).2.2 = ends at success ⊢
            cases ends with
            | done data isError => exact ⟨data, isError, rfl, rfl⟩
            | cancelled => exact absurd success Bool.noConfusion
            | threw error =>
                simp only [conclude] at success
                cases mapped : mapErrorToToolError error with
                | ok toolError =>
                    rw [mapped] at success
                    exact absurd success Bool.noConfusion
                | error thrown =>
                    rw [mapped] at success
                    exact absurd success Bool.noConfusion
            | pending => exact absurd success Bool.noConfusion

end Calls

section Specs

variable (service : FilesystemService) (context : ToolContext) (w : DaytonaWorld) (site : CallSite)

/-- A read through the registry that succeeds: its answer, and the files it leaves. -/
theorem issue_read {path : String} {encoding : Option Encoding}
    (success : succeeded ((createToolRegistry (daytonaSandboxAdapter service)).issue context w
      ⟨site, .read path encoding⟩).2 = true) :
    ∃ located bytes, service.locate path context.workspaceId = .ok located ∧
      w.files context.workspaceId located = some bytes ∧
      contentOf ((createToolRegistry (daytonaSandboxAdapter service)).issue context w
        ⟨site, .read path encoding⟩).2 = some (blobText bytes) ∧
      ((createToolRegistry (daytonaSandboxAdapter service)).issue context w
        ⟨site, .read path encoding⟩).1.files = w.files := by
  have given : param (FileRequest.read path encoding).params "path" = .string path := by
    simp [param, FileRequest.params, JsValue.member]
  unfold ToolRegistry.issue at success ⊢
  simp only [FileRequest.tool, ToolRegistry.getTool_read] at success ⊢
  obtain ⟨kept, data, isError, ended, answer⟩ := executeTool_succeeded _ _ _ _ _ _ _ _ _ success
  rw [createReadTool, kept, answer]
  unfold readBody at ended ⊢
  simp only [given, daytonaSandboxAdapter] at ended ⊢
  cases sandbox : w.getSandbox context.workspaceId with
  | none => simp [sandbox] at ended
  | some next =>
      obtain ⟨-, -, files, -⟩ := DaytonaWorld.getSandbox_keeps sandbox
      simp only [sandbox] at ended ⊢
      cases read : service.readFile next context.workspaceId path with
      | resolved content =>
          obtain ⟨located, bytes, found, file, shown⟩ := service.readFile_resolved read
          rw [files] at file
          simp only [read, BodyEnd.done.injEq] at ended ⊢
          obtain ⟨rfl, -⟩ := ended
          refine ⟨located, bytes, found, file, ?_, files⟩
          rw [shown]
          rfl
      | rejected error => simp [read] at ended
      | pending => simp [read] at ended

/-- A write through the registry that succeeds: neither the encoding nor `append` decides what is
stored. -/
theorem issue_write {path content : String} {encoding : Option Encoding} {append : Option Bool}
    (success : succeeded ((createToolRegistry (daytonaSandboxAdapter service)).issue context w
      ⟨site, .write path content encoding append⟩).2 = true) :
    ∃ located, service.locate path context.workspaceId = .ok located ∧
      contentOf ((createToolRegistry (daytonaSandboxAdapter service)).issue context w
        ⟨site, .write path content encoding append⟩).2 = none ∧
      ((createToolRegistry (daytonaSandboxAdapter service)).issue context w
        ⟨site, .write path content encoding append⟩).1.files context.workspaceId =
        Function.update (w.files context.workspaceId) located (some (fileBytes content)) := by
  have path_given : param (FileRequest.write path content encoding append).params "path" =
      .string path := by
    simp [param, FileRequest.params, JsValue.member]
  have content_given : param (FileRequest.write path content encoding append).params "content" =
      .string content := by
    simp [param, FileRequest.params, JsValue.member, List.lookup_cons]
  unfold ToolRegistry.issue at success ⊢
  simp only [FileRequest.tool, ToolRegistry.getTool_write] at success ⊢
  obtain ⟨kept, data, isError, ended, answer⟩ := executeTool_succeeded _ _ _ _ _ _ _ _ _ success
  rw [createWriteTool, kept, answer]
  unfold writeBody at ended ⊢
  simp only [path_given, content_given, daytonaSandboxAdapter, contentLength] at ended ⊢
  cases sandbox : w.getSandbox context.workspaceId with
  | none => simp [sandbox] at ended
  | some next =>
      obtain ⟨-, -, files, -⟩ := DaytonaWorld.getSandbox_keeps sandbox
      simp only [sandbox] at ended ⊢
      generalize asked : ((param (FileRequest.write path content encoding append).params
        "encoding").orElse (.string "utf-8")).orElse (.string "utf-8") = kind at ended ⊢
      have stored := @FilesystemService.writeFile_resolved service next context.workspaceId path
        content kind
      generalize service.writeFile next context.workspaceId path content kind = outcome
        at ended stored ⊢
      obtain ⟨after, outcome⟩ := outcome
      cases outcome with
      | resolved value =>
          obtain ⟨located, found, written⟩ := stored rfl
          simp only [BodyEnd.done.injEq] at ended ⊢
          obtain ⟨rfl, -⟩ := ended
          rw [files] at written
          exact ⟨located, found, rfl, written⟩
      | rejected error => simp at ended
      | pending => simp at ended

end Specs

section Runs

variable (locate : String → Option String)

/-- The answers of the reference model; `locate` says which file a path of the user names. -/
def referenceAnswers : ByteStore → List FileRequest → List (Option String)
  | _, [] => []
  | store, .read path encoding :: rest =>
    (locate path).bind (fun located => store.read located (encoding.getD .utf8)) ::
      referenceAnswers store rest
  | store, .write path content encoding append :: rest =>
    none :: referenceAnswers (match locate path with
      | none => store
      | some located =>
        store.write located content (encoding.getD .utf8) (append.getD false)) rest

abbrev Histories := String → Option FileHistory

namespace Histories

def reference (histories : Histories) : ByteStore :=
  fun path => (histories path).map FileHistory.reference

def stored (histories : Histories) : String → Option Bytes :=
  fun path => (histories path).map FileHistory.stored

def initial (files : String → Option Bytes) : Histories :=
  fun path => (files path).map FileHistory.initial

def write (histories : Histories) (path content : String) (encoding : Encoding) (append : Bool) :
    Histories :=
  Function.update histories path
    (some (.written (histories.reference.prior path append) encoding content))

theorem reference_write (histories : Histories) (path content : String) (encoding : Encoding)
    (append : Bool) : (histories.write path content encoding append).reference =
      histories.reference.write path content encoding append := by
  funext other
  by_cases same : other = path
  · subst same
    simp [reference, write, ByteStore.write, FileHistory.reference]
  · simp [reference, write, ByteStore.write, same]

theorem stored_write (histories : Histories) (path content : String) (encoding : Encoding)
    (append : Bool) : (histories.write path content encoding append).stored =
      Function.update histories.stored path (some (fileBytes content)) := by
  funext other
  by_cases same : other = path
  · subst same
    simp [stored, write, FileHistory.stored]
  · simp [stored, write, same]

@[simp] theorem reference_initial (files : String → Option Bytes) :
    (initial files).reference = files := by
  funext path
  simp [reference, initial, Function.comp_def, FileHistory.reference]

@[simp] theorem stored_initial (files : String → Option Bytes) :
    (initial files).stored = files := by
  funext path
  simp [stored, initial, Function.comp_def, FileHistory.stored]

end Histories

/-- Every read of the sequence meets a file whose history it shows. -/
def ReadsShown : Histories → List FileRequest → Prop
  | _, [] => True
  | histories, .read path encoding :: rest =>
    (∀ located ∈ locate path, ∀ history ∈ histories located,
      history.Shows (encoding.getD .utf8)) ∧ ReadsShown histories rest
  | histories, .write path content encoding append :: rest =>
    ReadsShown (match locate path with
      | none => histories
      | some located =>
        histories.write located content (encoding.getD .utf8) (append.getD false)) rest

end Runs

section Refinement

variable (service : FilesystemService) (context : ToolContext)

def FilesystemService.locate? (path : String) : Option String :=
  (service.locate path context.workspaceId).toOption

theorem answers_agree_iff (histories : Histories) (w : DaytonaWorld)
    (files : w.files context.workspaceId = histories.stored) (calls : List FileCall)
    (success : ∀ outcome ∈ (createToolRegistry (daytonaSandboxAdapter service)).issueAll context w
      calls, succeeded outcome = true) :
    ((createToolRegistry (daytonaSandboxAdapter service)).issueAll context w calls).map contentOf =
        referenceAnswers (service.locate? context) histories.reference
          (calls.map FileCall.request) ↔
      ReadsShown (service.locate? context) histories (calls.map FileCall.request) := by
  induction calls generalizing histories w with
  | nil => simp [ToolRegistry.issueAll, referenceAnswers, ReadsShown]
  | cons call rest ih =>
      obtain ⟨site, request⟩ := call
      simp only [ToolRegistry.issueAll, List.forall_mem_cons] at success
      obtain ⟨first, others⟩ := success
      simp only [ToolRegistry.issueAll, List.map_cons]
      cases request with
      | read path encoding =>
          obtain ⟨located, bytes, found, file, answer, kept⟩ := issue_read service context w site first
          have names : service.locate? context path = some located := by
            simp [FilesystemService.locate?, found, Except.toOption]
          have later := ih histories _ (by rw [kept, files]) others
          rw [files] at file
          obtain ⟨history, past, rfl⟩ := Option.map_eq_some_iff.mp file
          have shows := history.shows_iff (encoding.getD .utf8)
          rw [referenceAnswers, ReadsShown, List.cons_eq_cons, later, answer, names]
          simp [ByteStore.read, Histories.reference, past, ← shows]
      | write path content encoding append =>
          obtain ⟨located, found, answer, written⟩ := issue_write service context w site first
          have names : service.locate? context path = some located := by
            simp [FilesystemService.locate?, found, Except.toOption]
          have later := ih (histories.write located content (encoding.getD .utf8)
            (append.getD false)) _ (by rw [written, Histories.stored_write, files]) others
          rw [referenceAnswers, ReadsShown, List.cons_eq_cons, answer, names]
          simp only [true_and]
          rw [← Histories.reference_write, later]

/-- In a sequence of calls that succeed the reads answer as the reference model does exactly if each
of them meets a file whose history it shows. -/
theorem reads_agree_iff (w : DaytonaWorld) (calls : List FileCall)
    (success : ∀ outcome ∈ (createToolRegistry (daytonaSandboxAdapter service)).issueAll context w
      calls, succeeded outcome = true) :
    ((createToolRegistry (daytonaSandboxAdapter service)).issueAll context w calls).map contentOf =
        referenceAnswers (service.locate? context) (w.files context.workspaceId)
          (calls.map FileCall.request) ↔
      ReadsShown (service.locate? context) (.initial (w.files context.workspaceId))
        (calls.map FileCall.request) := by
  have agree := answers_agree_iff service context (.initial (w.files context.workspaceId)) w
    (Histories.stored_initial _).symm calls success
  rwa [Histories.reference_initial] at agree

end Refinement

def emptySandbox : DaytonaWorld where
  sandboxes := ["ws-1"]
  found _ := true
  files _ _ := none
  noFile _ _ := .error "no such file"
  createSession _ := none
  executeSessionCommand _ _ := .result none none

def fileContext : ToolContext := ⟨"ws-1", "run_0_a", "alice"⟩

def fileCalls (requests : List FileRequest) : List FileCall :=
  requests.map (fun request => ⟨⟨"call-1", fun _ => false, fun _ => 0⟩, request⟩)

def outcomesOf (requests : List FileRequest) : List (Option (Promise ToolResult)) :=
  (createToolRegistry (daytonaSandboxAdapter .default)).issueAll fileContext emptySandbox
    (fileCalls requests)

theorem overwritten_file_is_read :
    (outcomesOf [.write "a.txt" "one" none none, .write "./a.txt" "two" (some .utf8) (some false),
      .read "a.txt" none]).map contentOf =
        referenceAnswers (FilesystemService.default.locate? fileContext) (fun _ => none)
          [.write "a.txt" "one" none none, .write "./a.txt" "two" (some .utf8) (some false),
            .read "a.txt" none] := by
  have agree := reads_agree_iff .default fileContext emptySandbox
    (fileCalls [.write "a.txt" "one" none none,
      .write "./a.txt" "two" (some .utf8) (some false), .read "a.txt" none]) (by decide +kernel)
  refine agree.mpr ?_
  have names : FilesystemService.default.locate? fileContext "a.txt" = some "/workspace/a.txt" ∧
      FilesystemService.default.locate? fileContext "./a.txt" = some "/workspace/a.txt" := by
    decide +kernel
  simp [fileCalls, ReadsShown, names, Histories.write, ByteStore.prior, FileHistory.Shows]

/-- Text that is appended replaces what was there. -/
theorem appended_text_replaces :
    ¬∀ (service : FilesystemService) (context : ToolContext) (w : DaytonaWorld)
      (calls : List FileCall),
      (∀ outcome ∈ (createToolRegistry (daytonaSandboxAdapter service)).issueAll context w calls,
        succeeded outcome = true) →
      ((createToolRegistry (daytonaSandboxAdapter service)).issueAll context w calls).map contentOf =
        referenceAnswers (service.locate? context) (w.files context.workspaceId)
          (calls.map FileCall.request) := by
  intro always
  have same := always .default fileContext emptySandbox
    (fileCalls [.write "a.txt" "a" none none, .write "a.txt" "b" none (some true),
      .read "a.txt" none]) (by decide +kernel)
  exact absurd same (by decide +kernel)

end Minerva
