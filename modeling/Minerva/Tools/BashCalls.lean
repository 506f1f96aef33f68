import Minerva.Library.Potential
import Minerva.Sandbox.Adapter
import Minerva.Tools.Bash

namespace Minerva

structure DaytonaSession where
  workspaceId : WorkspaceId
  sessionId : String
  deriving DecidableEq

inductive SessionRequest where
  | createSession (session : DaytonaSession)
  /-- the timeout is passed on in whole seconds -/
  | executeSessionCommand (session : DaytonaSession) (command : String) (timeoutMs : JsNumber)
  | deleteSession (session : DaytonaSession)
  deriving DecidableEq

inductive SessionReply where
  | created
  | result (output : Option String) (exitCode : Option Int)
  | deleted
  | rejected (error : ThrownValue)

inductive SessionMessage where
  | asks (request : SessionRequest)
  | answers (reply : SessionReply)

inductive BashStage where
  /-- in `getSandbox`; `cached` tells whether the sandbox was in the cache -/
  | locating (workspaceId : WorkspaceId) (cached : Bool)
  | creating (session : DaytonaSession)
  | executing (session : DaytonaSession)
  /-- the generator has yielded a chunk, and `left` is what it has left -/
  | yielding (session : DaytonaSession) (chunk : ExecutionChunk) (left : ChunkStream)
  /-- in the `finally` block, after which the generator ends -/
  | deleting (session : DaytonaSession) (ends : ChunksEnd)
  /-- in the `finally` block, to which `return` in the loop has led -/
  | returning (session : DaytonaSession) (error : ToolResult)
  | settled (outcome : Except ThrownValue ToolResult)

def BashStage.left : BashStage → Nat
  | .locating _ _ => 6
  | .creating _ => 5
  | .executing _ => 4
  | .yielding _ _ left => left.chunks.length + 2
  | .deleting _ _ => 1
  | .returning _ _ => 1
  | .settled _ => 0

/-- The generator does not stop for good before it has ended. -/
def BashStage.Flows : BashStage → Prop
  | .yielding _ _ left => left.ends ≠ .pending
  | .deleting _ ends => ends ≠ .pending
  | _ => True

structure BashCall where
  toolCallId : String
  params : JsValue
  context : Option ToolContext
  startTime : Int
  /-- `signal.aborted` -/
  aborted : Bool
  stage : BashStage
  output : BashOutput
  events : List ToolEvent

inductive BashTurn where
  /-- whether Daytona has found the sandbox, and the random part of the session's id -/
  | located (found : Bool) (random : String)
  | replied (reply : SessionReply)
  | read

def BashTurn.messages (turn : BashTurn) (requests : List SessionRequest) : List SessionMessage :=
  (match turn with
    | .replied reply => [.answers reply]
    | _ => []) ++ requests.map .asks

namespace BashCall

def command (call : BashCall) : String := (param call.params "command").text

def timeoutMs (call : BashCall) : JsNumber :=
  ((((param call.params "timeout").orElse (.number (.ofNat 60000))).asNumber).filter
    (fun n => !n.falsy)).getD (.ofNat 300000)

def finished (call : BashCall) (now : Int) (result : ToolResult ⊕ ToolData) (isError : Bool) :
    ToolEvent :=
  .finish call.toolCallId "bash" result isError (now - call.startTime)

def fail (call : BashCall) (now : Int) (error : ToolResult) (stage : BashStage) : BashCall :=
  { call with stage, events := call.events ++ [call.finished now (.inl error) true] }

/-- The `catch` block of the tool. -/
def caught (call : BashCall) (now : Int) (error : ThrownValue) : BashCall :=
  match mapErrorToToolError error with
  | .ok toolError =>
    let result := createErrorResult toolError.code toolError.message toolError.details
    call.fail now result (.settled (.ok result))
  | .error thrown => { call with stage := .settled (.error thrown) }

/-- The part of a call that runs at once. -/
def execute (sandboxes : List WorkspaceId) (now : Int) (toolCallId : String) (params : JsValue)
    (context : Option ToolContext) : BashCall :=
  let call (stage : BashStage) : BashCall :=
    ⟨toolCallId, params, context, now, false, stage, ⟨[], [], 0⟩, []⟩
  let refuse (message : JsValue) : BashCall :=
    let error := createErrorResult .validationError message none
    (call (.settled (.ok error))).fail now error (.settled (.ok error))
  match workspaceOf context with
  | none => refuse (.string "No workspace context available")
  | some workspaceId =>
    match params.member "command" with
    | .error error => refuse error.message
    | .ok value =>
      if !value.truthy then refuse (.string "Command is required")
      else
        { call (.locating workspaceId (decide (workspaceId ∈ sandboxes))) with
          events := [.start toolCallId "bash" [("command", param params "command"),
            ("cwd", param params "cwd"),
            ("timeout", (param params "timeout").orElse (.number (.ofNat 60000))),
            ("env", param params "env")]] }

/-- The generator goes on to its next `yield`, or to its `finally` block. -/
def proceed (call : BashCall) (session : DaytonaSession) (left : ChunkStream) :
    BashCall × List SessionRequest :=
  match left.chunks with
  | [] => ({ call with stage := .deleting session left.ends }, [.deleteSession session])
  | chunk :: chunks =>
    ({ call with stage := .yielding session chunk ⟨chunks, left.ends⟩ }, [])

/-- The `catch` block of `executeStreaming`. -/
def sessionFailed (call : BashCall) (session : DaytonaSession) (error : ThrownValue) :
    BashCall × List SessionRequest :=
  call.proceed session
    (Minerva.sessionFailed session.workspaceId call.command call.timeoutMs error)

def gather (call : BashCall) (chunk : ExecutionChunk) : BashCall :=
  { call with
    output := call.output.add chunk
    events := call.events ++ (chunk.update call.toolCallId).toList }

def ended (call : BashCall) (now : Int) : ChunksEnd → Option BashCall
  | .done =>
    let data := ToolData.bash (String.join call.output.stdoutChunks)
      (String.join call.output.stderrChunks) call.output.exitCode (now - call.startTime) false
    let isError := decide (call.output.exitCode ≠ 0)
    some { call with
      stage := .settled (.ok (createSuccessResult data))
      events := call.events ++ [call.finished now (.inr data) isError] }
  | .threw error => some (call.caught now error)
  | .pending => none

def turn (call : BashCall) (now : Int) : BashTurn → Option (BashCall × List SessionRequest)
  | .located found random =>
    match call.stage with
    | .locating workspaceId cached =>
      if cached || found then
        let session := ⟨workspaceId, "exec-" ++ toString now ++ "-" ++ random⟩
        some ({ call with stage := .creating session }, [.createSession session])
      else some (call.caught now (SandboxError.workspaceNotFound workspaceId).thrown, [])
    | _ => none
  | .replied reply =>
    match call.stage, reply with
    | .creating session, .created =>
      some ({ call with stage := .executing session },
        [.executeSessionCommand session call.command call.timeoutMs])
    | .creating session, .rejected error => some (call.sessionFailed session error)
    | .executing session, .result output exitCode =>
      some (call.proceed session
        ⟨((output.filter (fun output => output ≠ "")).map ExecutionChunk.stdout).toList ++
          [.exit (exitCode.getD 0)], .done⟩)
    | .executing session, .rejected error => some (call.sessionFailed session error)
    -- an error in the `finally` block is ignored
    | .deleting _ ends, .deleted => (call.ended now ends).map (fun call => (call, []))
    | .deleting _ ends, .rejected _ => (call.ended now ends).map (fun call => (call, []))
    | .returning _ error, .deleted => some ({ call with stage := .settled (.ok error) }, [])
    | .returning _ error, .rejected _ => some ({ call with stage := .settled (.ok error) }, [])
    | _, _ => none
  | .read =>
    match call.stage with
    | .yielding session chunk left =>
      if call.aborted then
        let error := createErrorResult .cancelled (.string "Command was cancelled") none
        some (call.fail now error (.returning session error), [.deleteSession session])
      else some ((call.gather chunk).proceed session left)
    | _ => none

def fetched (call : BashCall) : BashTurn → Option WorkspaceId
  | .located found _ =>
    match call.stage with
    | .locating workspaceId cached => if !cached && found then some workspaceId else none
    | _ => none
  | _ => none

def left (call : BashCall) : Nat := call.stage.left

end BashCall

/-- The calls of a process, the cache of its adapter and what has passed between each call and
Daytona. -/
structure BashCalls where
  sandboxes : List WorkspaceId
  calls : EsMap Nat BashCall
  messages : List (Nat × SessionMessage)
  now : Int

namespace BashCalls

inductive Label where
  | call (id : Nat) (toolCallId : String) (params : JsValue) (context : Option ToolContext)
  | turn (id : Nat) (turn : BashTurn)
  | abort (id : Nat)
  /-- the cache is changed by something else -/
  | recache (sandboxes : List WorkspaceId)
  | tick (elapsed : Nat)

def init (now : Int) : BashCalls := ⟨[], .empty, [], now⟩

def step (s : BashCalls) : Label → Option BashCalls
  | .call id toolCallId params context =>
    match s.calls.get id with
    | some _ => none
    | none =>
      some { s with calls := s.calls.set id (.execute s.sandboxes s.now toolCallId params context) }
  | .turn id turn =>
    (s.calls.get id).bind (fun call => (call.turn s.now turn).map (fun next =>
      { s with
        sandboxes := (call.fetched turn).toList ++ s.sandboxes
        calls := s.calls.set id next.1
        messages := s.messages ++ (turn.messages next.2).map (fun message => (id, message)) }))
  | .abort id =>
    (s.calls.get id).map (fun call =>
      { s with calls := s.calls.set id { call with aborted := true } })
  | .recache sandboxes => some { s with sandboxes }
  | .tick elapsed => some { s with now := s.now + elapsed }

def messagesOf (s : BashCalls) (id : Nat) : List SessionMessage :=
  s.messages.filterMap (fun message => if message.1 = id then some message.2 else none)

def Label.takenBy (id : Nat) : Label → Bool
  | .turn other _ => decide (other = id)
  | _ => false

def turnsOf (id : Nat) (labels : List Label) : Nat := labels.countP (Label.takenBy id)

end BashCalls

namespace BashCall

inductive Turns (call : BashCall) (now : Int) :
    BashTurn → BashCall × List SessionRequest → Prop
  | locates (workspaceId : WorkspaceId) (cached found : Bool) (random sessionId : String) :
      call.stage = .locating workspaceId cached → Turns call now (.located found random)
        ({ call with stage := .creating ⟨workspaceId, sessionId⟩ },
          [.createSession ⟨workspaceId, sessionId⟩])
  | lost (workspaceId : WorkspaceId) (cached found : Bool) (random : String) :
      call.stage = .locating workspaceId cached → Turns call now (.located found random)
        (call.caught now (SandboxError.workspaceNotFound workspaceId).thrown, [])
  | creates (session : DaytonaSession) : call.stage = .creating session →
      Turns call now (.replied .created) ({ call with stage := .executing session },
        [.executeSessionCommand session call.command call.timeoutMs])
  | refuses (session : DaytonaSession) (error : ThrownValue) : call.stage = .creating session →
      Turns call now (.replied (.rejected error)) (call.sessionFailed session error)
  | fails (session : DaytonaSession) (error : ThrownValue) : call.stage = .executing session →
      Turns call now (.replied (.rejected error)) (call.sessionFailed session error)
  | executes (session : DaytonaSession) (output : Option String) (exitCode : Option Int) :
      call.stage = .executing session →
        Turns call now (.replied (.result output exitCode)) (call.proceed session
          ⟨((output.filter (fun output => output ≠ "")).map ExecutionChunk.stdout).toList ++
            [.exit (exitCode.getD 0)], .done⟩)
  | ends (session : DaytonaSession) (ends : ChunksEnd) (reply : SessionReply) (next : BashCall) :
      call.stage = .deleting session ends → call.ended now ends = some next →
        Turns call now (.replied reply) (next, [])
  | returns (session : DaytonaSession) (error : ToolResult) (reply : SessionReply) :
      call.stage = .returning session error →
        Turns call now (.replied reply) ({ call with stage := .settled (.ok error) }, [])
  | cancels (session : DaytonaSession) (chunk : ExecutionChunk) (left : ChunkStream) :
      call.stage = .yielding session chunk left → call.aborted = true → Turns call now .read
        (call.fail now (createErrorResult .cancelled (.string "Command was cancelled") none)
          (.returning session (createErrorResult .cancelled (.string "Command was cancelled") none)),
          [.deleteSession session])
  | reads (session : DaytonaSession) (chunk : ExecutionChunk) (left : ChunkStream) :
      call.stage = .yielding session chunk left → call.aborted = false → Turns call now .read
        ((call.gather chunk).proceed session left)

variable {call : BashCall} {now : Int} {next : BashCall × List SessionRequest}

theorem turns_of_turn {turn : BashTurn} (goes : call.turn now turn = some next) :
    Turns call now turn next := by
  cases turn with
  | located found random =>
      simp only [BashCall.turn] at goes
      split at goes
      · rename_i workspaceId cached stage
        split at goes
        · cases goes
          exact .locates workspaceId cached found random _ stage
        · cases goes
          exact .lost workspaceId cached found random stage
      · cases goes
  | replied reply =>
      simp only [BashCall.turn] at goes
      split at goes
      · rename_i session stage
        cases goes
        exact .creates session stage
      · rename_i session error stage
        cases goes
        exact .refuses session error stage
      · rename_i session output exitCode stage
        cases goes
        exact .executes session output exitCode stage
      · rename_i session error stage
        cases goes
        exact .fails session error stage
      · rename_i session ends stage
        obtain ⟨after, ended, rfl⟩ := Option.map_eq_some_iff.mp goes
        exact .ends session ends _ after stage ended
      · rename_i session ends error stage
        obtain ⟨after, ended, rfl⟩ := Option.map_eq_some_iff.mp goes
        exact .ends session ends _ after stage ended
      · rename_i session error stage
        cases goes
        exact .returns session error _ stage
      · rename_i session error _ stage
        cases goes
        exact .returns session error _ stage
      · cases goes
  | read =>
      simp only [BashCall.turn] at goes
      split at goes
      · rename_i session chunk left stage
        split at goes
        · rename_i aborted
          cases goes
          exact .cancels session chunk left stage aborted
        · rename_i quiet
          cases goes
          exact .reads session chunk left stage (by simpa using quiet)
      · cases goes

end BashCall

namespace BashCalls

variable {s s' : BashCalls} {id : Nat}

theorem messagesOf_turn {passed : List SessionMessage}
    (more : s'.messages = s.messages ++ passed.map (fun message => (id, message))) (other : Nat) :
    s'.messagesOf other =
      if other = id then s.messagesOf other ++ passed else s.messagesOf other := by
  unfold messagesOf
  rw [more, List.filterMap_append, List.filterMap_map]
  split
  · rename_i same
    subst same
    congr 1
    simp
  · rename_i different
    have none : passed.filterMap ((fun message : Nat × SessionMessage =>
        if message.1 = other then some message.2 else none) ∘ fun message => (id, message)) = [] := by
      apply List.filterMap_eq_nil_iff.mpr
      intro message member
      exact if_neg (Ne.symm different)
    rw [none, List.append_nil]

inductive Steps (s : BashCalls) : Label → BashCalls → Prop
  | begins (id : Nat) (toolCallId : String) (params : JsValue) (context : Option ToolContext) :
      s.calls.get id = none → Steps s (.call id toolCallId params context)
        { s with calls := s.calls.set id (.execute s.sandboxes s.now toolCallId params context) }
  | turns (id : Nat) (turn : BashTurn) (call : BashCall) (next : BashCall × List SessionRequest)
      (sandboxes : List WorkspaceId) : s.calls.get id = some call →
        call.Turns s.now turn next → Steps s (.turn id turn)
          { s with
            sandboxes
            calls := s.calls.set id next.1
            messages := s.messages ++ (turn.messages next.2).map (fun message => (id, message)) }
  | aborts (id : Nat) (call : BashCall) : s.calls.get id = some call → Steps s (.abort id)
      { s with calls := s.calls.set id { call with aborted := true } }
  | passes (label : Label) (sandboxes : List WorkspaceId) (now : Int) :
      (∀ id turn, label ≠ .turn id turn) → Steps s label { s with sandboxes, now }

theorem steps_of_step {label : Label} (moved : s.step label = some s') : Steps s label s' := by
  cases label with
  | call id toolCallId params context =>
      simp only [step] at moved
      split at moved
      · cases moved
      · rename_i free
        cases moved
        exact .begins id toolCallId params context free
  | turn id turn =>
      obtain ⟨call, found, goes⟩ := Option.bind_eq_some_iff.mp moved
      obtain ⟨next, turned, rfl⟩ := Option.map_eq_some_iff.mp goes
      exact .turns id turn call next _ found (BashCall.turns_of_turn turned)
  | abort id =>
      obtain ⟨call, found, rfl⟩ := Option.map_eq_some_iff.mp moved
      exact .aborts id call found
  | recache sandboxes =>
      cases moved
      exact .passes _ sandboxes s.now (by simp)
  | tick elapsed =>
      cases moved
      exact .passes _ s.sandboxes _ (by simp)

/-- What holds of a call and of its messages when it begins, and is kept by its own turns and by an
abort, holds of all calls, whatever the others do. -/
theorem each_call (P : BashCall → List SessionMessage → Prop)
    (begins : ∀ sandboxes now toolCallId params context,
      P (.execute sandboxes now toolCallId params context) [])
    (turns : ∀ call now turn next passed, P call passed → call.Turns now turn next →
      P next.1 (passed ++ turn.messages next.2))
    (aborts : ∀ call passed, P call passed → P { call with aborted := true } passed) {now : Int}
    (reached : Transition.Reach step Transition.Free (init now) s) :
    ∀ id call, s.calls.get id = some call → P call (s.messagesOf id) := by
  have both := reached.invariant (fun s =>
    (∀ id call, s.calls.get id = some call → P call (s.messagesOf id)) ∧
      ∀ id, s.calls.get id = none → s.messagesOf id = []) ?_ ?_
  · exact both.1
  · constructor
    · intro id call found
      cases found
    · intro id free
      rfl
  · rintro s label s' - ⟨holds, silent⟩ moved
    cases steps_of_step moved with
    | begins id toolCallId params context free =>
        constructor
        · intro other call found
          rcases EsMap.get_set_cases s.calls id found with ⟨rfl, rfl⟩ | ⟨-, earlier⟩
          · have nothing : s.messagesOf other = [] := silent other free
            show P _ (s.messagesOf other)
            rw [nothing]
            exact begins _ _ _ _ _
          · exact holds other call earlier
        · intro other free
          rw [EsMap.get_set] at free
          split at free
          · cases free
          · exact silent other free
    | turns id turn call next sandboxes found turned =>
        constructor
        · intro other after found'
          rw [@messagesOf_turn s _ id (turn.messages next.2) rfl other]
          rcases EsMap.get_set_cases s.calls id found' with ⟨rfl, rfl⟩ | ⟨different, earlier⟩
          · rw [if_pos rfl]
            exact turns call _ turn next _ (holds other call found) turned
          · rw [if_neg different]
            exact holds other after earlier
        · intro other free
          rw [EsMap.get_set] at free
          split at free
          · cases free
          · rename_i different
            rw [@messagesOf_turn s _ id (turn.messages next.2) rfl other, if_neg different]
            exact silent other free
    | aborts id call found =>
        constructor
        · intro other after found'
          rcases EsMap.get_set_cases s.calls id found' with ⟨rfl, rfl⟩ | ⟨-, earlier⟩
          · exact aborts call _ (holds other call found)
          · exact holds other after earlier
        · intro other free
          rw [EsMap.get_set] at free
          split at free
          · cases free
          · exact silent other free
    | passes label sandboxes now other => exact ⟨holds, silent⟩

/-- Two calls side by side: the command of the first runs to its end, and the second, whose session
is not created, is aborted. -/
def sideBySideLabels : List Label :=
  [.call 0 "call-1" (.object [("command", .string "make")]) (some ⟨"ws-1", "run_0_a", "alice"⟩),
    .call 1 "call-2" (.object [("command", .string "ls")]) (some ⟨"ws-1", "run_0_a", "alice"⟩),
    .turn 0 (.located true "a"), .turn 1 (.located true "b"), .turn 0 (.replied .created),
    .turn 1 (.replied (.rejected (.error "no session"))),
    .turn 0 (.replied (.result (some "done") (some 2))), .abort 1, .turn 0 .read, .turn 1 .read,
    .turn 1 (.replied .deleted), .turn 0 .read, .turn 0 (.replied (.rejected (.error "gone")))]

end BashCalls

end Minerva
