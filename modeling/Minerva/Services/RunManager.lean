import Minerva.Services.Cancellation
import Minerva.Services.Lease
import Minerva.Services.Queue
import Minerva.Services.Timeout

/-! `RunManager`, cut at its `await`s. A method is a first part that runs when it is called
and a `Resume` part for each place where it can be suspended; between two parts any other
code of the process may run. The in-memory stores act when they are called, so the effect of
an awaited store call belongs to the part that makes the call. A part that only settles the
method's promise changes nothing, and its caller goes on in the same turn. -/

namespace Minerva

inductive RunError where
  | runNotFound (runId : RunId)
  | invalidStateTransition (runId : RunId) (fromState toState : RunState)
  /-- a field is read off the `null` that `getById` answered -/
  | typeError
  deriving DecidableEq

structure InMemoryRunRepository where
  runs : EsMap RunId Run

namespace InMemoryRunRepository

def empty : InMemoryRunRepository := ⟨.empty⟩

def create (repo : InMemoryRunRepository) (run : Run) : InMemoryRunRepository :=
  ⟨repo.runs.set run.id run⟩

def getById (repo : InMemoryRunRepository) (runId : RunId) : Option Run := repo.runs.get runId

def getByUserId (repo : InMemoryRunRepository) (userId : UserId) : List Run :=
  repo.runs.values.filter (fun run => run.userId = userId)

/-- `Object.assign(run, updates)`; none stands for the rejection with `RunNotFoundError`. -/
def update (repo : InMemoryRunRepository) (runId : RunId) (updates : Run → Run) :
    Option InMemoryRunRepository :=
  match repo.runs.get runId with
  | none => none
  | some run => some ⟨repo.runs.set runId (updates run)⟩

end InMemoryRunRepository

structure RunManagerConfig where
  defaultTimeoutMs : Int
  maxTimeoutMs : Int
  leaseTtlMs : Int

def RunManagerConfig.default : RunManagerConfig :=
  ⟨DEFAULT_RUN_TIMEOUT_MS, MAX_RUN_TIMEOUT_MS, DEFAULT_LEASE_TTL_MS⟩

/-- The callback that `startRun` hands to the timeout manager. -/
inductive TimeoutCallback where
  | timeoutRun

structure RunManager where
  repo : InMemoryRunRepository
  queue : InMemoryRunQueue
  leaseManager : InMemoryLeaseManager
  cancellationRegistry : InMemoryCancellationRegistry
  timeoutManager : InMemoryTimeoutManager TimeoutCallback
  config : RunManagerConfig

inductive Progress (π α : Type) where
  | await (pc : π)
  | resolve (value : α)
  | reject (error : RunError)

def Progress.map {π ρ α : Type} (wrap : π → ρ) : Progress π α → Progress ρ α
  | .await pc => .await (wrap pc)
  | .resolve value => .resolve value
  | .reject error => .reject error

/-- One part of a method: the stores after it and the abort events it delivered. -/
structure Turn (π α : Type) where
  manager : RunManager
  aborts : List Abort
  progress : Progress π α

def Turn.map {π ρ α : Type} (wrap : π → ρ) (turn : Turn π α) : Turn ρ α :=
  ⟨turn.manager, turn.aborts, turn.progress.map wrap⟩

def truthy (text : Option String) : Option String := text.filter (fun s => s ≠ "")

structure TransitionMetadata where
  error : Option String
  finalMessages : Option (List Json)

inductive CreatePc where
  | persisted (run : Run)
  | enqueued (run : Run) (position : Nat)
  | updated (run : Run)

inductive TransitionPc where
  | loaded (run : Option Run)
  | updated
  | reloaded (run : Run)

inductive AcquirePc where
  | peeked (nextRunId : Option RunId)
  | leased (nextRunId : RunId) (lease : Option Lease)
  | dequeued (nextRunId : RunId) (lease : Lease)
  | updated (nextRunId : RunId)
  | reloaded (nextRunId : RunId) (run : Option Run)

inductive StartPc where
  | transition (pc : TransitionPc)
  | started (run : Run)

/-- The tail that `cancelRun` and `timeoutRun` share, from the awaited lease release on. -/
inductive AbandonPc where
  | released (run : Run)
  | transition (run : Run) (pc : TransitionPc)

inductive CancelPc where
  | loaded (run : Option Run)
  | removed (run : Run)
  | abandoning (pc : AbandonPc)

inductive TimeoutPc where
  | loaded (run : Option Run)
  | abandoning (pc : AbandonPc)

inductive EndPc where
  | loaded (run : Option Run)
  | released
  | transition (pc : TransitionPc)

namespace RunManager

def init (config : RunManagerConfig) : RunManager :=
  ⟨.empty, .empty, .empty, .empty, .empty, config⟩

def getRun (m : RunManager) (runId : RunId) : Option Run := m.repo.getById runId

def stateOf (m : RunManager) (runId : RunId) : Option RunState := (m.getRun runId).map Run.state

def newRunId (now : Int) (random : String) : RunId := "run_" ++ toString now ++ "_" ++ random

theorem newRunId_ne (now : Int) (random : String) : newRunId now random ≠ "" := by
  intro empty
  have short : ("run_" : String).toList.length ≤ (newRunId now random).toList.length := by
    simp only [newRunId, String.toList_append, List.length_append]
    omega
  rw [empty] at short
  exact absurd short (by decide)

def newRun (config : RunManagerConfig) (now : Int) (random : String) (input : CreateRunInput) :
    Run :=
  let maxDurationMs := min (input.maxDurationMs.getD config.defaultTimeoutMs) config.maxTimeoutMs
  let owner := input.owner.getD
    (legacyOwnerPrincipalFromUserId (input.userId.getD "anonymous"))
  { id := newRunId now random
    owner
    userId := ownerKeyFromPrincipal owner
    state := .queued
    queuePosition := none
    leaseToken := none
    leaseExpiresAt := none
    createdAt := now
    startedAt := none
    completedAt := none
    maxDurationMs
    agentPackId := input.agentPackId
    prompt := input.prompt
    error := none
    finalMessages := none }

def createRun (m : RunManager) (now : Int) (random : String) (input : CreateRunInput) :
    RunManager × CreatePc :=
  let run := newRun m.config now random input
  ({ m with repo := m.repo.create run }, .persisted run)

def createRunResume (m : RunManager) : CreatePc → Turn CreatePc Run
  | .persisted run =>
    let (queue, position) := m.queue.enqueue run.id run.userId
    ⟨{ m with queue }, [], .await (.enqueued run position)⟩
  | .enqueued run position =>
    let run := { run with queuePosition := some position }
    match m.repo.update run.id (fun stored => { stored with queuePosition := some position }) with
    | none => ⟨m, [], .reject (.runNotFound run.id)⟩
    | some repo => ⟨{ m with repo }, [], .await (.updated run)⟩
  | .updated run => ⟨m, [], .resolve run⟩

/-- The `updates` object of `transitionState`, built from the validated snapshot `run`. -/
def transitionUpdates (run : Run) (newState : RunState) (now : Int)
    (metadata : TransitionMetadata) (stored : Run) : Run :=
  { stored with
    state := newState
    startedAt :=
      if newState = .running ∧ run.startedAt = none then some now else stored.startedAt
    completedAt := if isTerminalState newState then some now else stored.completedAt
    queuePosition := if isTerminalState newState then none else stored.queuePosition
    error := (truthy metadata.error).or stored.error
    finalMessages := metadata.finalMessages.or stored.finalMessages }

def transitionState (m : RunManager) (runId : RunId) : TransitionPc := .loaded (m.repo.getById runId)

def transitionStateResume (m : RunManager) (now : Int) (runId : RunId) (newState : RunState)
    (metadata : TransitionMetadata) : TransitionPc → Turn TransitionPc Run
  | .loaded none => ⟨m, [], .reject (.runNotFound runId)⟩
  | .loaded (some run) =>
    if isValidStateTransition run.state newState then
      let timeoutManager :=
        if isTerminalState newState then (m.timeoutManager.clear runId).1 else m.timeoutManager
      match m.repo.update runId (transitionUpdates run newState now metadata) with
      | none => ⟨{ m with timeoutManager }, [], .reject (.runNotFound runId)⟩
      | some repo => ⟨{ m with timeoutManager, repo }, [], .await .updated⟩
    else ⟨m, [], .reject (.invalidStateTransition runId run.state newState)⟩
  | .updated =>
    match m.repo.getById runId with
    | none => ⟨m, [], .reject .typeError⟩
    | some run => ⟨m, [], .await (.reloaded run)⟩
  | .reloaded run => ⟨m, [], .resolve run⟩

def acquireNextRun (m : RunManager) (userId : UserId) : AcquirePc := .peeked (m.queue.peek userId)

/-- The updates that `acquireNextRun` writes, without a look at the stored state. -/
def leasedUpdates (now : Int) (lease : Lease) (stored : Run) : Run :=
  { stored with
    state := .leased
    leaseToken := some lease.token
    leaseExpiresAt := some lease.expiresAt
    queuePosition := none
    startedAt := some now }

def acquireNextRunResume (m : RunManager) (now : Int) (random : String) (userId : UserId) :
    AcquirePc → Turn AcquirePc (Option Run)
  | .peeked none => ⟨m, [], .resolve none⟩
  | .peeked (some nextRunId) =>
    -- `if (!nextRunId)`: an empty id is falsy too
    if nextRunId = "" then ⟨m, [], .resolve none⟩
    else
      let (leaseManager, lease) :=
        m.leaseManager.acquire now random userId nextRunId m.config.leaseTtlMs
      ⟨{ m with leaseManager }, [], .await (.leased nextRunId lease)⟩
  | .leased _ none => ⟨m, [], .resolve none⟩
  | .leased nextRunId (some lease) =>
    ⟨{ m with queue := (m.queue.dequeue userId).1 }, [], .await (.dequeued nextRunId lease)⟩
  | .dequeued nextRunId lease =>
    match m.repo.update nextRunId (leasedUpdates now lease) with
    | none => ⟨m, [], .reject (.runNotFound nextRunId)⟩
    | some repo => ⟨{ m with repo }, [], .await (.updated nextRunId)⟩
  | .updated nextRunId => ⟨m, [], .await (.reloaded nextRunId (m.repo.getById nextRunId))⟩
  | .reloaded _ run => ⟨m, [], .resolve run⟩

def startRun (m : RunManager) (runId : RunId) : StartPc := .transition (m.transitionState runId)

def startRunResume (m : RunManager) (now : Int) (runId : RunId) : StartPc → Turn StartPc Run
  | .transition pc =>
    let turn := m.transitionStateResume now runId .running ⟨none, none⟩ pc
    match turn.progress with
    | .await pc => ⟨turn.manager, turn.aborts, .await (.transition pc)⟩
    | .reject error => ⟨turn.manager, turn.aborts, .reject error⟩
    | .resolve run =>
      let m := turn.manager
      let cancellationRegistry := m.cancellationRegistry.create runId
      let timeoutManager :=
        (m.timeoutManager.schedule now runId run.maxDurationMs TimeoutCallback.timeoutRun).1
      ⟨{ m with cancellationRegistry, timeoutManager }, turn.aborts, .await (.started run)⟩
  | .started run => ⟨m, [], .resolve run⟩

def signal (m : RunManager) (runId : RunId) (reason : String) (run : Run) : Turn AbandonPc Run :=
  let (cancellationRegistry, aborts) := m.cancellationRegistry.cancel runId (some reason)
  let m := { m with cancellationRegistry }
  ⟨m, aborts, .await (.transition run (m.transitionState runId))⟩

/-- Release the lease of the snapshot `run` if it has one, else signal at once. -/
def abandon (m : RunManager) (runId : RunId) (reason : String) (run : Run) : Turn AbandonPc Run :=
  match truthy run.leaseToken with
  | none => m.signal runId reason run
  | some leaseToken =>
    ⟨{ m with leaseManager := m.leaseManager.release leaseToken }, [], .await (.released run)⟩

def abandonResume (m : RunManager) (now : Int) (runId : RunId) (reason : String)
    (newState : RunState) (error : Run → String) : AbandonPc → Turn AbandonPc Run
  | .released run => m.signal runId reason run
  | .transition run pc =>
    (m.transitionStateResume now runId newState ⟨some (error run), none⟩ pc).map (.transition run)

def cancelRun (m : RunManager) (runId : RunId) : CancelPc := .loaded (m.repo.getById runId)

def cancelRunResume (m : RunManager) (now : Int) (runId : RunId) (reason : Option String) :
    CancelPc → Turn CancelPc Run
  | .loaded none => ⟨m, [], .reject (.runNotFound runId)⟩
  | .loaded (some run) =>
    if isTerminalState run.state then ⟨m, [], .resolve run⟩
    else if run.state = .queued then
      ⟨{ m with queue := (m.queue.remove runId).1 }, [], .await (.removed run)⟩
    else (m.abandon runId (reason.getD "user_cancelled") run).map .abandoning
  | .removed run => (m.abandon runId (reason.getD "user_cancelled") run).map .abandoning
  | .abandoning pc =>
    (m.abandonResume now runId (reason.getD "user_cancelled") .cancelled
      (fun _ => reason.getD "cancelled") pc).map .abandoning

def timeoutRun (m : RunManager) (runId : RunId) : TimeoutPc := .loaded (m.repo.getById runId)

def timeoutRunResume (m : RunManager) (now : Int) (runId : RunId) :
    TimeoutPc → Turn TimeoutPc (Option Run)
  | .loaded none => ⟨m, [], .resolve none⟩
  | .loaded (some run) =>
    if isTerminalState run.state then ⟨m, [], .resolve none⟩
    else settle (m.abandon runId "timeout" run)
  | .abandoning pc =>
    settle (m.abandonResume now runId "timeout" .timedOut
      (fun run => "Run exceeded maximum duration of " ++ toString run.maxDurationMs ++ "ms") pc)
where
  settle (turn : Turn AbandonPc Run) : Turn TimeoutPc (Option Run) :=
    match turn.progress with
    | .await pc => ⟨turn.manager, turn.aborts, .await (.abandoning pc)⟩
    | .resolve _ => ⟨turn.manager, turn.aborts, .resolve none⟩
    | .reject error => ⟨turn.manager, turn.aborts, .reject error⟩

def endRun (m : RunManager) (runId : RunId) : EndPc := .loaded (m.repo.getById runId)

def forget (m : RunManager) (runId : RunId) : Turn EndPc Run :=
  let m := { m with cancellationRegistry := m.cancellationRegistry.remove runId }
  ⟨m, [], .await (.transition (m.transitionState runId))⟩

def endRunResume (m : RunManager) (now : Int) (runId : RunId) (newState : RunState)
    (metadata : TransitionMetadata) : EndPc → Turn EndPc Run
  | .loaded none => ⟨m, [], .reject (.runNotFound runId)⟩
  | .loaded (some run) =>
    match truthy run.leaseToken with
    | none => m.forget runId
    | some leaseToken =>
      ⟨{ m with leaseManager := m.leaseManager.release leaseToken }, [], .await .released⟩
  | .released => m.forget runId
  | .transition pc => (m.transitionStateResume now runId newState metadata pc).map .transition

def completeRun (m : RunManager) (runId : RunId) : EndPc := m.endRun runId

def completeRunResume (m : RunManager) (now : Int) (runId : RunId)
    (finalMessages : Option (List Json)) (pc : EndPc) : Turn EndPc Run :=
  m.endRunResume now runId .completed ⟨none, finalMessages⟩ pc

def failRun (m : RunManager) (runId : RunId) : EndPc := m.endRun runId

/-- `error` is the message of the error, or the text of anything else that was thrown. -/
def failRunResume (m : RunManager) (now : Int) (runId : RunId) (error : String) (pc : EndPc) :
    Turn EndPc Run :=
  m.endRunResume now runId .failed ⟨some error, none⟩ pc

end RunManager

end Minerva
