import Minerva.Library.JsText
import Minerva.Services.Calls
import Mathlib.Data.Finset.Basic

/-! `RunExecutionService` over `RunManager`. Every promise that the service has started is a
task, suspended inside of a `RunManager` call or at an `await` of its own; the collaborators
outside of the repository answer through replies. A turn of a task runs to its next `await`. -/

namespace Minerva

structure CreateRunRequestBody where
  agentPackId : Option String
  prompt : Option String
  maxDurationMs : Option Int

structure CancelRunRequestBody where
  reason : Option String

/-- What `executeRun` catches: an `Error` with its message, or anything else as text. -/
inductive Thrown where
  | error (message : String)
  | other (text : String)

def RunError.message : RunError → String
  | .runNotFound runId => "Run not found: " ++ runId
  | .invalidStateTransition runId fromState toState =>
    "Invalid state transition for run " ++ runId ++ ": " ++ fromState.value ++ " -> " ++
      toState.value
  | .typeError => "Cannot read properties of null"

/-- `toLowerCase`, as far as the letters of the searched words go: besides A to Z only the
Kelvin sign and the dotted capital I turn into text with an ASCII letter. -/
def jsLower (text : String) : List Char :=
  text.toList.flatMap (fun c =>
    if c = 'K' then ['k'] else if c = 'İ' then ['i', '̇'] else [c.toLower])

def includesAny (text : List Char) (words : List String) : Bool :=
  words.any (fun word => decide (word.toList <:+: text))

def enhanceProviderError : Thrown → String
  | .other text => text
  | .error original =>
    let message := jsLower original
    if includesAny message ["rate limit", "too many requests", "429"] then
      "Rate limit exceeded. Please wait before retrying. Original error: " ++ original
    else if includesAny message
        ["authentication", "unauthorized", "401", "invalid api key", "api key invalid"] then
      "Authentication failed. Please check your API key configuration. Original error: " ++ original
    else if includesAny message ["timeout", "etimedout", "econnreset"] then
      "Request timed out. The provider may be experiencing high load or " ++
        "the request may be too large. Original error: " ++ original
    else if includesAny message ["quota", "exceeded", "billing"] then
      "API quota exceeded. Please check your billing and usage limits. Original error: " ++ original
    else original

/-- The orchestrator events with their payloads; instants are in milliseconds. -/
inductive RunEvent where
  | runQueued (queuePosition : Nat)
  | runStarted (startedAt : Int) (sandboxId : String)
  | runCompleted (completedAt : Int) (durationMs : Int)
  | runFailed (failedAt : Int) (error : String)
  | runCancelled (cancelledAt : Int) (reason : String)
  | runTimedOut (timedOutAt : Int) (timeoutDurationMs : Int)

def RunEvent.announces : RunEvent → Option RunState
  | .runQueued _ => none
  | .runStarted _ _ => none
  | .runCompleted _ _ => some .completed
  | .runFailed _ _ => some .failed
  | .runCancelled _ _ => some .cancelled
  | .runTimedOut _ _ => some .timedOut

/-- What the service does to its collaborators, in order. -/
inductive Observation where
  | executed (runId : RunId)
  | prompted (runId : RunId)
  | agentAborted (runId : RunId)
  | broadcast (runId : RunId) (event : RunEvent)
  | agentEvent (runId : RunId) (event : Json)
  | closed (runId : RunId)

structure RunExecutionService where
  runManager : RunManager
  processingUsers : Finset UserId
  terminalEvents : Finset RunId
  now : Int
  log : List Observation

/-- The continuation of a method of the service after the `RunManager` call it awaits. The flag
of an execution is `abortListenerInstalled`, where it is not a constant of the place. -/
inductive Frame where
  | createRun
  | cancelRun (reason : Option String)
  | acquire (userId : UserId)
  | start (userId : UserId) (run : Run) (workspaceId : String)
  | complete (userId : UserId) (run : Run) (listening : Bool)
  | fail (userId : UserId) (run : Run) (agent listening : Bool)
  | timeout

/-- The places of `executeRun` outside of the `RunManager` calls that have parts of their own;
`agent` says whether the agent has been constructed. -/
inductive ExecPc where
  | checkingHealth
  | importing
  | provisioning
  | loadingPack (signal : Option Nat)
  | prompting (listening : Bool)
  | finished (listening : Bool) (messages : List Json) (latestRun : Option Run)
  | caught (agent listening : Bool) (error : Thrown) (latestRun : Option Run)

inductive Task where
  | calling (frame : Frame) (call : Call)
  | cancelRequested (runId : RunId) (owner : OwnerPrincipal) (reason : Option String)
      (run : Option Run)
  | executing (userId : UserId) (run : Run) (pc : ExecPc)
  /-- `executeRun` has returned, its loop has not gone on yet -/
  | executed (userId : UserId)
  | executeFailed (userId : UserId)

inductive Reply where
  | health (healthy : Bool) (provider error : String)
  | imported
  | workspace (id : String)
  | pack
  | prompted (messages : List Json)
  | rejected (error : Thrown)
  /-- thrown between the construction of the agent and the installation of its listener -/
  | agentRejected (error : Thrown)

abbrev Outcome := RunExecutionService × Option Task

namespace RunExecutionService

def init (config : RunManagerConfig) (now : Int) : RunExecutionService :=
  ⟨RunManager.init config, ∅, ∅, now, []⟩

def note (s : RunExecutionService) (observation : Observation) : RunExecutionService :=
  { s with log := s.log ++ [observation] }

def broadcastOrchestratorEvent (s : RunExecutionService) (runId : RunId) (event : RunEvent) :
    RunExecutionService :=
  s.note (.broadcast runId event)

def emitTerminalOnce (s : RunExecutionService) (runId : RunId) (event : RunEvent) :
    RunExecutionService :=
  if runId ∈ s.terminalEvents then s
  else
    { s with terminalEvents := insert runId s.terminalEvents }.broadcastOrchestratorEvent runId event

def computeDurationMs (run : Run) : Int :=
  match run.startedAt, run.completedAt with
  | some startedAt, some completedAt => completedAt - startedAt
  | _, _ => 0

def abortListener (s : RunExecutionService) (abort : Abort) : RunExecutionService :=
  let s := s.note (.agentAborted abort.listener.runId)
  if abort.reason = "timeout" then
    s.emitTerminalOnce abort.listener.runId (.runTimedOut s.now abort.listener.maxDurationMs)
  else s.emitTerminalOnce abort.listener.runId (.runCancelled s.now abort.reason)

/-- One turn of `processUserQueue` into `acquireNextRun`. -/
def acquireNext (s : RunExecutionService) (userId : UserId) : Outcome :=
  (s, some (.calling (.acquire userId)
    (.acquireNextRun userId (s.runManager.acquireNextRun userId))))

def processUserQueue (s : RunExecutionService) (userId : UserId) : Outcome :=
  if userId ∈ s.processingUsers then (s, none)
  else { s with processingUsers := insert userId s.processingUsers }.acquireNext userId

/-- The `finally` of `processUserQueue`. -/
def leaveUserQueue (s : RunExecutionService) (userId : UserId) : Outcome :=
  ({ s with processingUsers := s.processingUsers.erase userId }, none)

def executeRun (s : RunExecutionService) (userId : UserId) (run : Run) : Outcome :=
  (s.note (.executed run.id), some (.executing userId run .checkingHealth))

/-- The `finally` of `executeRun`. -/
def finish (s : RunExecutionService) (run : Run) (agent listening : Bool) : RunExecutionService :=
  if !listening && agent then s.note (.agentAborted run.id) else s

def exit (s : RunExecutionService) (userId : UserId) (run : Run) (agent listening : Bool) : Outcome :=
  (s.finish run agent listening, some (.executed userId))

/-- Into the `catch` block of `executeRun`, up to the read of the run. -/
def enterCatch (s : RunExecutionService) (userId : UserId) (run : Run) (agent listening : Bool)
    (error : Thrown) : Outcome :=
  (s, some (.executing userId run (.caught agent listening error (s.runManager.getRun run.id))))

def closeRun (s : RunExecutionService) (runId : RunId) : RunExecutionService :=
  s.note (.closed runId)

def forgetTerminal (s : RunExecutionService) (runId : RunId) : RunExecutionService :=
  { s with terminalEvents := s.terminalEvents.erase runId }

/-- The `RunManager` call of a task has resolved. Only `acquireNextRun` and `timeoutRun` resolve
without a run. -/
def resolved (s : RunExecutionService) : Frame → Option Run → Outcome
  | .createRun, some run =>
    (s.broadcastOrchestratorEvent run.id (.runQueued (run.queuePosition.getD 0))).processUserQueue
      run.userId
  | .cancelRun reason, some cancelled =>
    if cancelled.state = .cancelled then
      (s.emitTerminalOnce cancelled.id
        (.runCancelled (cancelled.completedAt.getD s.now) (reason.getD "cancelled")), none)
    else (s, none)
  | .acquire userId, none => s.leaveUserQueue userId
  | .acquire userId, some nextRun => s.executeRun userId nextRun
  | .start userId run workspaceId, some startedRun =>
    let s := s.broadcastOrchestratorEvent run.id
      (.runStarted (startedRun.startedAt.getD s.now) workspaceId)
    let signal := (s.runManager.cancellationRegistry.get run.id).map CancellationContext.signal
    (s, some (.executing userId run (.loadingPack signal)))
  | .complete userId run listening, some completedRun =>
    let s := s.emitTerminalOnce run.id
      (.runCompleted (completedRun.completedAt.getD s.now) (computeDurationMs completedRun))
    ((s.closeRun run.id).forgetTerminal run.id).exit userId run true listening
  | .fail userId run agent listening, some failedRun =>
    let s := s.emitTerminalOnce run.id
      (.runFailed (failedRun.completedAt.getD s.now)
        (failedRun.error.getD "Unknown execution failure"))
    ((s.closeRun run.id).forgetTerminal run.id).exit userId run agent listening
  | _, _ => (s, none)

def rejected (s : RunExecutionService) : Frame → RunError → Outcome
  | .acquire userId, _ => s.leaveUserQueue userId
  | .start userId run _, error => s.enterCatch userId run false false (.error error.message)
  | .complete userId run listening, error =>
    s.enterCatch userId run true listening (.error error.message)
  | .fail userId run agent listening, _ =>
    (s.finish run agent listening, some (.executeFailed userId))
  | _, _ => (s, none)

def startPrompt (s : RunExecutionService) (userId : UserId) (run : Run) : Option Nat → Outcome
  | none => (s.note (.prompted run.id), some (.executing userId run (.prompting false)))
  | some signal =>
    let m := s.runManager
    let cancellationRegistry :=
      m.cancellationRegistry.addAbortListener ⟨run.id, run.maxDurationMs⟩ signal
    ({ s with runManager := { m with cancellationRegistry } }.note (.prompted run.id),
      some (.executing userId run (.prompting true)))

/-- A collaborator answers; none for an answer that the place does not wait for. -/
def replied (s : RunExecutionService) (userId : UserId) (run : Run) : ExecPc → Reply → Option Outcome
  | .checkingHealth, .health healthy provider error =>
    if healthy then some (s, some (.executing userId run .importing))
    else some (s.enterCatch userId run false false
      (.error ("Provider " ++ provider ++ " is not available: " ++ error)))
  | .importing, .imported => some (s, some (.executing userId run .provisioning))
  | .provisioning, .workspace id =>
    some (s, some (.calling (.start userId run id)
      (.startRun run.id (s.runManager.startRun run.id))))
  | .loadingPack signal, .pack => some (s.startPrompt userId run signal)
  | .loadingPack _, .agentRejected error => some (s.enterCatch userId run true false error)
  | .prompting listening, .prompted messages =>
    some (s, some (.executing userId run
      (.finished listening messages (s.runManager.getRun run.id))))
  | .checkingHealth, .rejected error => some (s.enterCatch userId run false false error)
  | .importing, .rejected error => some (s.enterCatch userId run false false error)
  | .provisioning, .rejected error => some (s.enterCatch userId run false false error)
  | .loadingPack _, .rejected error => some (s.enterCatch userId run false false error)
  | .prompting listening, .rejected error => some (s.enterCatch userId run true listening error)
  | _, _ => none

def executeResume (s : RunExecutionService) (userId : UserId) (run : Run) : ExecPc → Option Outcome
  | .finished listening _ none =>
    some (s.enterCatch userId run true listening
      (.error ("Run '" ++ run.id ++ "' disappeared during execution")))
  | .finished listening messages (some latestRun) =>
    if latestRun.state = .cancelled ∨ latestRun.state = .timedOut then
      some (((s.closeRun run.id).forgetTerminal run.id).exit userId run true listening)
    else
      some (s, some (.calling (.complete userId run listening)
        (.completeRun run.id (some messages) (s.runManager.completeRun run.id))))
  | .caught agent listening error (some latestRun) =>
    if latestRun.state = .cancelled ∨ latestRun.state = .timedOut then
      some ((s.forgetTerminal run.id).exit userId run agent listening)
    else
      some (s, some (.calling (.fail userId run agent listening)
        (.failRun run.id (enhanceProviderError error) (s.runManager.failRun run.id))))
  | .caught agent listening _ none =>
    some ((s.forgetTerminal run.id).exit userId run agent listening)
  | _ => none

/-- The stores after a turn of a call, and the `abort` events of the turn delivered. -/
def delivered (s : RunExecutionService) (turn : Turn Call (Option Run)) : RunExecutionService :=
  turn.aborts.foldl abortListener { s with runManager := turn.manager }

/-- A task goes on after an `await`; none where it waits for a collaborator. -/
def resume (s : RunExecutionService) (random : String) : Task → Option Outcome
  | .calling frame call =>
    let turn := call.resume s.runManager s.now random
    let s := s.delivered turn
    match turn.progress with
    | .await call => some (s, some (.calling frame call))
    | .resolve run => some (s.resolved frame run)
    | .reject error => some (s.rejected frame error)
  -- `assertOwner` answers like a missing run
  | .cancelRequested _ _ _ none => some (s, none)
  | .cancelRequested runId owner reason (some run) =>
    if sameOwnerPrincipal run.owner owner then
      some (s, some (.calling (.cancelRun reason)
        (.cancelRun runId reason (s.runManager.cancelRun runId))))
    else some (s, none)
  | .executing userId run pc => s.executeResume userId run pc
  | .executed userId => some (s.acquireNext userId)
  | .executeFailed userId => some (s.leaveUserQueue userId)

/-- `createRun` up to its first `await`; a request without prompt or pack is rejected at once. -/
def createRun (s : RunExecutionService) (random : String) (owner : OwnerPrincipal)
    (body : CreateRunRequestBody) : Outcome :=
  match truthy (body.prompt.map jsTrim), truthy (body.agentPackId.map jsTrim) with
  | some prompt, some agentPackId =>
    let (runManager, pc) := s.runManager.createRun s.now random
      { owner := some owner, userId := none, agentPackId, prompt
        maxDurationMs := body.maxDurationMs }
    ({ s with runManager }, some (.calling .createRun (.createRun pc)))
  | _, _ => (s, none)

/-- `cancelRun` up to the read of the run. -/
def cancelRun (s : RunExecutionService) (runId : RunId) (owner : OwnerPrincipal)
    (body : Option CancelRunRequestBody) : Outcome :=
  (s, some (.cancelRequested runId owner (body.bind CancelRunRequestBody.reason)
    (s.runManager.getRun runId)))

end RunExecutionService

end Minerva
