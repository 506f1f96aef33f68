import Minerva.Tools.BashSessions

namespace Minerva

namespace BashCall

variable {call : BashCall} {now : Int} {next : BashCall × List SessionRequest}
  (service : FilesystemService)

def started (call : BashCall) : ToolEvent :=
  .start call.toolCallId "bash" [("command", param call.params "command"),
    ("cwd", param call.params "cwd"),
    ("timeout", (param call.params "timeout").orElse (.number (.ofNat 60000))),
    ("env", param call.params "env")]

def options (call : BashCall) : BashOptions :=
  ⟨(param call.params "timeout").orElse (.number (.ofNat 60000)), param call.params "cwd",
    param call.params "env"⟩

/-- The tool runs alone, and its call has these events and this result. Its signal has aborted only
if that of the call has. -/
def RanAlone (call : BashCall) (events : List ToolEvent)
    (outcome : Except ThrownValue ToolResult) : Prop :=
  ∃ (w : DaytonaWorld) (site : CallSite), site.toolCallId = call.toolCallId ∧
    site.clock 0 = call.startTime ∧
    (call.aborted = false → ∀ index, site.aborted index = false) ∧
    ((createBashTool (daytonaSandboxAdapter service).execute).execute w call.params site
      call.context).2 = (events, .settled outcome)

def Accepted (call : BashCall) (workspaceId : WorkspaceId) : Prop :=
  workspaceOf call.context = some workspaceId ∧
    ∃ value, call.params.member "command" = .ok value ∧ value.truthy = true

def Streams (call : BashCall) (workspaceId : WorkspaceId) (stream : ChunkStream) : Prop :=
  ∃ w, ((daytonaSandboxAdapter service).execute w workspaceId (param call.params "command")
    call.options).2 = stream

structure Read (call : BashCall) (chunks : List ExecutionChunk) : Prop where
  output : call.output = chunks.foldl BashOutput.add ⟨[], [], 0⟩
  events : call.events =
    call.started :: chunks.filterMap (ExecutionChunk.update call.toolCallId)

/-- What a call that ran alone may have come to here. -/
def Explained (call : BashCall) : Prop :=
  match call.stage with
  | .locating workspaceId _ => call.Accepted workspaceId ∧ call.Read []
  | .creating session => call.Accepted session.workspaceId ∧ call.Read []
  | .executing session => call.Accepted session.workspaceId ∧ call.Read []
  | .yielding session chunk left => call.Accepted session.workspaceId ∧
    ∃ chunks, call.Read chunks ∧
      call.Streams service session.workspaceId ⟨chunks ++ chunk :: left.chunks, left.ends⟩
  | .deleting session ends => call.Accepted session.workspaceId ∧
    ∃ chunks, call.Read chunks ∧ call.Streams service session.workspaceId ⟨chunks, ends⟩
  | .returning _ error => call.RanAlone service call.events (.ok error)
  | .settled outcome => call.RanAlone service call.events outcome

def bodyEnd (site : CallSite) (output : BashOutput) : ChunksEnd → BodyEnd
  | .done => .done (.bash (String.join output.stdoutChunks) (String.join output.stderrChunks)
      output.exitCode (site.clock 1 - site.clock 0) false) (output.exitCode ≠ 0)
  | .threw error => .threw error
  | .pending => .pending

theorem execute_whole {workspaceId : WorkspaceId} {stream : ChunkStream} {w : DaytonaWorld}
    (accepted : call.Accepted workspaceId)
    (streams : ((daytonaSandboxAdapter service).execute w workspaceId (param call.params "command")
      call.options).2 = stream) (site : CallSite) (own : site.toolCallId = call.toolCallId)
    (quiet : ∀ index < stream.chunks.length, site.aborted index = false) :
    ((createBashTool (daytonaSandboxAdapter service).execute).execute w call.params site
      call.context).2 = conclude "bash" site
        (call.started :: stream.chunks.filterMap (ExecutionChunk.update call.toolCallId))
        (bodyEnd site (stream.chunks.foldl BashOutput.add ⟨[], [], 0⟩) stream.ends) := by
  obtain ⟨located, value, given, truthy⟩ := accepted
  have asked : ((daytonaSandboxAdapter service).execute w workspaceId (param call.params "command")
      ⟨(param call.params "timeout").orElse (.number (.ofNat 60000)), param call.params "cwd",
        param call.params "env"⟩).2 = stream := streams
  simp only [createBashTool, executeTool, located, given, truthy, Bool.not_true,
    Bool.false_eq_true, if_false, bashBody, asked, readChunks_whole site stream.chunks quiet, own]
  cases stream.ends with
  | done => rfl
  | threw error => rfl
  | pending => rfl

theorem execute_aborted {workspaceId : WorkspaceId} {stream : ChunkStream} {w : DaytonaWorld}
    (accepted : call.Accepted workspaceId)
    (streams : ((daytonaSandboxAdapter service).execute w workspaceId (param call.params "command")
      call.options).2 = stream) (site : CallSite) (own : site.toolCallId = call.toolCallId)
    (index : Nat) (inside : index < stream.chunks.length) (here : site.aborted index = true)
    (first : ∀ earlier < index, site.aborted earlier = false) :
    ((createBashTool (daytonaSandboxAdapter service).execute).execute w call.params site
      call.context).2 = conclude "bash" site (call.started ::
        (stream.chunks.take index).filterMap (ExecutionChunk.update call.toolCallId))
        .cancelled := by
  obtain ⟨located, value, given, truthy⟩ := accepted
  have asked : ((daytonaSandboxAdapter service).execute w workspaceId (param call.params "command")
      ⟨(param call.params "timeout").orElse (.number (.ofNat 60000)), param call.params "cwd",
        param call.params "env"⟩).2 = stream := streams
  simp only [createBashTool, executeTool, located, given, truthy, Bool.not_true,
    Bool.false_eq_true, if_false, bashBody, asked,
    readChunks_aborted site stream.chunks index inside here first, own]
  rfl

/-- The call as it is seen when it ends without having been aborted. -/
def site (call : BashCall) (now : Int) : CallSite where
  toolCallId := call.toolCallId
  aborted _ := false
  clock n := if n = 0 then call.startTime else now

theorem caught_explained {workspaceId : WorkspaceId} {chunks : List ExecutionChunk}
    {error : ThrownValue} (accepted : call.Accepted workspaceId) (read : call.Read chunks)
    (streams : call.Streams service workspaceId ⟨chunks, .threw error⟩) :
    (call.caught now error).Explained service := by
  obtain ⟨w, yields⟩ := streams
  have whole := execute_whole service accepted yields (call.site now) rfl
    (fun _ _ => rfl)
  unfold caught
  cases mapped : mapErrorToToolError error with
  | ok toolError =>
      refine ⟨w, call.site now, rfl, rfl, fun _ _ => rfl, whole.trans ?_⟩
      show _ = (call.events ++ _, _)
      rw [read.events]
      simp only [bodyEnd, conclude, mapped]
      rfl
  | error thrown =>
      refine ⟨w, call.site now, rfl, rfl, fun _ _ => rfl, whole.trans ?_⟩
      show _ = (call.events, _)
      rw [read.events]
      simp only [bodyEnd, conclude, mapped]
      rfl

theorem ended_explained {workspaceId : WorkspaceId} {chunks : List ExecutionChunk}
    {ends : ChunksEnd} {after : BashCall} (accepted : call.Accepted workspaceId)
    (read : call.Read chunks) (streams : call.Streams service workspaceId ⟨chunks, ends⟩)
    (ended : call.ended now ends = some after) : after.Explained service := by
  cases ends with
  | pending => cases ended
  | threw error =>
      cases ended
      exact caught_explained service accepted read streams
  | done =>
      cases ended
      obtain ⟨w, yields⟩ := streams
      refine ⟨w, call.site now, rfl, rfl, fun _ _ => rfl, ?_⟩
      have whole := execute_whole service accepted yields (call.site now) rfl
        (fun _ _ => rfl)
      refine whole.trans ?_
      rw [← read.output, ← read.events]
      rfl

theorem cancelled_explained {session : DaytonaSession} {chunks : List ExecutionChunk}
    {chunk : ExecutionChunk} {left : ChunkStream} (accepted : call.Accepted session.workspaceId)
    (read : call.Read chunks)
    (streams : call.Streams service session.workspaceId ⟨chunks ++ chunk :: left.chunks, left.ends⟩)
    (aborted : call.aborted = true) :
    (call.fail now (createErrorResult .cancelled (.string "Command was cancelled") none)
      (.returning session (createErrorResult .cancelled (.string "Command was cancelled") none))).Explained
        service := by
  obtain ⟨w, yields⟩ := streams
  refine ⟨w, { call.site now with aborted := fun index => decide (chunks.length ≤ index) }, rfl, rfl,
    ?_, ?_⟩
  · intro quiet
    cases aborted.symm.trans quiet
  · have cut := execute_aborted service accepted yields
      { call.site now with aborted := fun index => decide (chunks.length ≤ index) } rfl
      chunks.length (by simp) (by simp) (by simp)
    refine cut.trans ?_
    rw [List.take_left', ← read.events]
    · rfl
    · rfl

theorem proceed_explained {session : DaytonaSession} {chunks : List ExecutionChunk} {left : ChunkStream}
    (accepted : call.Accepted session.workspaceId) (read : call.Read chunks)
    (streams : call.Streams service session.workspaceId ⟨chunks ++ left.chunks, left.ends⟩) :
    (call.proceed session left).1.Explained service := by
  obtain ⟨rest, ends⟩ := left
  cases rest with
  | nil =>
      rw [List.append_nil] at streams
      exact ⟨accepted, chunks, ⟨read.output, read.events⟩, streams⟩
  | cons chunk rest => exact ⟨accepted, chunks, ⟨read.output, read.events⟩, streams⟩

theorem Read.snoc {chunks : List ExecutionChunk} (read : call.Read chunks) (chunk : ExecutionChunk) :
    (call.gather chunk).Read (chunks ++ [chunk]) where
  output := by
    rw [List.foldl_append, ← read.output]
    rfl
  events := by
    show call.events ++ _ = call.started :: _
    rw [read.events, List.filterMap_append, List.cons_append]
    cases chunk <;> rfl

def answering (found : Bool) (created : Option ThrownValue) (reply : CommandReply) : DaytonaWorld :=
  ⟨[], fun _ => found, fun _ _ => none, fun _ _ => notAString, fun _ => created, fun _ _ => reply⟩

theorem streams_failed (workspaceId : WorkspaceId) (error : ThrownValue) :
    call.Streams service workspaceId
      (Minerva.sessionFailed workspaceId call.command call.timeoutMs error) := by
  refine ⟨answering true (some error) (.result none none), ?_⟩
  simp only [daytonaSandboxAdapter, answering, DaytonaWorld.getSandbox, List.not_mem_nil, if_false,
    if_true, executeStreaming]
  rfl

theorem Explained.turn {turn : BashTurn} (before : call.Explained service)
    (turns : Turns call now turn next) : next.1.Explained service := by
  cases turns with
  | locates workspaceId cached found random sessionId stage =>
      simp only [Explained, stage] at before
      obtain ⟨accepted, read⟩ := before
      exact ⟨accepted, read.output, read.events⟩
  | lost workspaceId cached found random stage =>
      simp only [Explained, stage] at before
      obtain ⟨accepted, read⟩ := before
      apply caught_explained service accepted read
      exact ⟨answering false none (.result none none), by simp [daytonaSandboxAdapter, answering,
        DaytonaWorld.getSandbox]⟩
  | creates session stage =>
      simp only [Explained, stage] at before
      obtain ⟨accepted, read⟩ := before
      exact ⟨accepted, read.output, read.events⟩
  | refuses session error stage =>
      simp only [Explained, stage] at before
      exact proceed_explained service before.1 before.2
        (streams_failed service session.workspaceId error)
  | fails session error stage =>
      simp only [Explained, stage] at before
      exact proceed_explained service before.1 before.2
        (streams_failed service session.workspaceId error)
  | executes session output exitCode stage =>
      simp only [Explained, stage] at before
      apply proceed_explained service before.1 before.2
      exact ⟨answering true none (.result output exitCode), by simp [daytonaSandboxAdapter, answering,
        DaytonaWorld.getSandbox, executeStreaming]⟩
  | ends session ends reply after stage ended =>
      simp only [Explained, stage] at before
      obtain ⟨accepted, chunks, read, streams⟩ := before
      exact ended_explained service accepted read streams ended
  | returns session error reply stage =>
      simp only [Explained, stage] at before
      exact before
  | cancels session chunk left stage aborted =>
      simp only [Explained, stage] at before
      obtain ⟨accepted, chunks, read, streams⟩ := before
      exact cancelled_explained service accepted read streams aborted
  | reads session chunk left stage quiet =>
      simp only [Explained, stage] at before
      obtain ⟨accepted, chunks, read, streams⟩ := before
      have accepted' : (call.gather chunk).Accepted session.workspaceId := accepted
      apply proceed_explained service accepted' (read.snoc chunk)
      rw [List.append_assoc]
      exact streams

theorem Explained.abort (before : call.Explained service) :
    Explained service { call with aborted := true } := by
  have alone {events : List ToolEvent} {outcome : Except ThrownValue ToolResult}
      (ran : call.RanAlone service events outcome) :
      RanAlone service { call with aborted := true } events outcome := by
    obtain ⟨w, site, own, starts, -, same⟩ := ran
    refine ⟨w, site, own, starts, ?_, same⟩
    rintro ⟨⟩
  unfold Explained at before ⊢
  split at before <;> rename_i stage <;> simp only [stage]
  · exact ⟨before.1, before.2.output, before.2.events⟩
  · exact ⟨before.1, before.2.output, before.2.events⟩
  · exact ⟨before.1, before.2.output, before.2.events⟩
  · obtain ⟨accepted, chunks, read, streams⟩ := before
    exact ⟨accepted, chunks, ⟨read.output, read.events⟩, streams⟩
  · obtain ⟨accepted, chunks, read, streams⟩ := before
    exact ⟨accepted, chunks, ⟨read.output, read.events⟩, streams⟩
  · exact alone before
  · exact alone before

theorem execute_explained (sandboxes : List WorkspaceId) (now : Int) (toolCallId : String)
    (params : JsValue) (context : Option ToolContext) :
    (execute sandboxes now toolCallId params context).Explained service := by
  unfold execute
  split
  · rename_i unlocated
    refine ⟨answering true none (.result none none), ⟨toolCallId, fun _ => false, fun _ => now⟩, rfl,
      rfl, fun _ _ => rfl, ?_⟩
    simp [createBashTool, executeTool, unlocated, failWith, finishEvent, fail, finished,
      Promise.settled]
  · rename_i workspaceId located
    split
    · rename_i error missing
      refine ⟨answering true none (.result none none), ⟨toolCallId, fun _ => false, fun _ => now⟩,
        rfl, rfl, fun _ _ => rfl, ?_⟩
      simp [createBashTool, executeTool, located, missing, failWith, finishEvent, fail, finished,
        Promise.settled]
    · rename_i value given
      split
      · rename_i empty
        refine ⟨answering true none (.result none none), ⟨toolCallId, fun _ => false, fun _ => now⟩,
          rfl, rfl, fun _ _ => rfl, ?_⟩
        simp [createBashTool, executeTool, located, given, empty, failWith, finishEvent, fail, finished,
          Promise.settled]
      · rename_i present
        refine ⟨⟨located, value, given, by simpa using present⟩, rfl, rfl⟩

end BashCall

namespace BashCalls

/-- Whatever calls of the bash tool run side by side, in whatever order their turns come and
whatever Daytona answers: the events and the outcome of a call that has settled are those of a call
of the tool that runs alone, with the same parameters and context, in some state of Daytona, and
with a signal that aborts only if that of the call did. -/
theorem settled_calls_refine (service : FilesystemService) (now : Int) (s : BashCalls)
    (reached : Transition.Reach step Transition.Free (init now) s) (id : Nat) (call : BashCall)
    (outcome : Except ThrownValue ToolResult) (found : s.calls.get id = some call)
    (settled : call.stage = .settled outcome) :
    ∃ (w : DaytonaWorld) (site : CallSite), site.toolCallId = call.toolCallId ∧
      site.clock 0 = call.startTime ∧
      (call.aborted = false → ∀ index, site.aborted index = false) ∧
      ((createBashTool (daytonaSandboxAdapter service).execute).execute w call.params site
        call.context).2 = (call.events, .settled outcome) := by
  have explained := each_call (fun call _ => call.Explained service)
    (BashCall.execute_explained service)
    (fun _ _ _ _ _ before turned => before.turn service turned)
    (fun _ _ before => before.abort service) reached id call found
  simp only [BashCall.Explained, settled] at explained
  exact explained

theorem finished_call_refines : ∃ (call : BashCall) (outcome : Except ThrownValue ToolResult)
    (w : DaytonaWorld) (site : CallSite), call.events.length = 3 ∧ site.toolCallId = "call-1" ∧
      (∀ index, site.aborted index = false) ∧
      ((createBashTool (daytonaSandboxAdapter .default).execute).execute w call.params site
        call.context).2 = (call.events, .settled outcome) := by
  have ran : (Transition.exec (Transition.guarded step Transition.Free) (init 0)
      sideBySideLabels).map (fun s => (s.calls.get 0).map (fun call =>
        (call.left, call.events.length, call.toolCallId, call.aborted))) =
      some (some (0, 3, "call-1", false)) := by decide +kernel
  obtain ⟨s, reached, observed⟩ := Transition.reach_of_observed _ _ ran
  obtain ⟨call, found, fields⟩ := Option.map_eq_some_iff.mp observed
  obtain ⟨none, rest⟩ := Prod.mk.inj fields
  obtain ⟨length, rest⟩ := Prod.mk.inj rest
  obtain ⟨named, quiet⟩ := Prod.mk.inj rest
  obtain ⟨outcome, settled⟩ := BashCall.settled_of_left none
  obtain ⟨w, site, own, -, unaborted, same⟩ := settled_calls_refine .default 0 s reached 0 call
    outcome found settled
  exact ⟨call, outcome, w, site, length, own.trans named, unaborted quiet, same⟩

end BashCalls

end Minerva
