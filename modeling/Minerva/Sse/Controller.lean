import Minerva.Library.JsText
import Minerva.Library.Transition
import Minerva.Services.RunManager
import Minerva.Sse.Service

/-! `SSEController` over `SSEService`: the HTTP responses of the open streams, the intervals that
serve them, and the events that the rest of the program broadcasts. -/

namespace Minerva

inductive Chunk where
  | event (envelope : SSEEventEnvelope)
  | keepAlive

structure Response where
  chunks : List Chunk
  writableEnded : Bool

structure Responses where
  table : EsMap StreamId Response

namespace Responses

def empty : Responses := ⟨.empty⟩

def start (responses : Responses) (id : StreamId) : Responses :=
  ⟨responses.table.set id ⟨[], false⟩⟩

/-- `res.write`; nothing gets through after `end`. -/
def send (responses : Responses) (id : StreamId) (chunk : Chunk) : Responses :=
  match responses.table.get id with
  | none => responses
  | some response =>
    if response.writableEnded then responses
    else ⟨responses.table.set id { response with chunks := response.chunks ++ [chunk] }⟩

def finish (responses : Responses) (id : StreamId) : Responses :=
  match responses.table.get id with
  | none => responses
  | some response => ⟨responses.table.set id { response with writableEnded := true }⟩

def isOpen (responses : Responses) (id : StreamId) : Bool :=
  (responses.table.get id).any (fun response => !response.writableEnded)

def write (responses : Responses) (id : StreamId) (event : SSEEventEnvelope) : Responses :=
  responses.send id (.event event)

instance : SSEStreams Responses where
  isOpen responses id := some (responses.isOpen id)
  write responses id event := (responses.write id event, true)
  close responses id := (responses.finish id, true)

end Responses

def Chunk.envelope : Chunk → Option SSEEventEnvelope
  | .event envelope => some envelope
  | .keepAlive => none

def Responses.events (responses : Responses) (id : StreamId) : List SSEEventEnvelope :=
  ((responses.table.get id).map (fun response => response.chunks.filterMap Chunk.envelope)).getD []

/-- What the closures of one `streamEvents` request hold: the two intervals and the reads of the
run that `checkRunState` has started. -/
structure Connection where
  runId : RunId
  cleanup : Cleanup
  keepAliveTimer : Bool
  checkRunState : Bool
  checks : Nat

structure StreamServer where
  service : SSEService
  responses : Responses
  connections : EsMap StreamId Connection
  now : Int

namespace StreamServer

inductive Label where
  /-- a request, from the answer of its `getRun` on -/
  | streamEvents (id : StreamId) (runId : RunId) (owner : OwnerPrincipal) (run : Option Run)
      (replayFrom lastEventId : Option String)
  | disconnect (id : StreamId)
  | keepAlive (id : StreamId)
  | checkRunState (id : StreamId)
  /-- the answer to a read of `checkRunState` -/
  | checked (id : StreamId) (currentRun : Option Run)
  | broadcastAgentEvent (runId : RunId) (agentEvent : AgentEvent)
  | broadcastOrchestratorEvent (runId : RunId) (type : SSEEventType) (payload : Json)
  | closeRun (runId : RunId)
  | tick (elapsed : Nat)

def init (now : Int) : StreamServer := ⟨.init, .empty, .empty, now⟩

/-- The replay position: none for `null`, and `some none` for `NaN`. -/
def startSeq (replayFrom lastEventId : Option String) : Option (Option Int) :=
  (truthy (replayFrom.or lastEventId)).map parseInt

def replay (w : StreamServer) : Option (Option Int) → List SSEEventEnvelope
  | some (some seq) => w.service.getBufferedEventsFrom seq
  | _ => []

def replayPayload (startSeq : Option (Option Int)) : Json :=
  match startSeq with
  | some (some seq) => .num seq
  | _ => .null

/-- The response is opened, the buffered events are replayed and `stream_connected` is sent. -/
def openStream (w : StreamServer) (id : StreamId) (runId : RunId) (run : Run)
    (startSeq : Option (Option Int)) : StreamServer :=
  let (service, cleanup) := w.service.registerStream runId id
  let responses := w.responses.start id
  let responses := (w.replay startSeq).foldl (fun responses event => responses.write id event)
    responses
  let (service, connectedEvent) := service.createEnvelope w.now runId .streamConnected
    (.obj [("run_state", .str run.state.value), ("replay_from", replayPayload startSeq)])
  { w with
    service
    responses := responses.write id connectedEvent
    connections := w.connections.set id
      { runId, cleanup, keepAliveTimer := true, checkRunState := true, checks := 0 } }

/-- `streamEvents` after its read of the run; a run that is missing or not the owner's is answered
with `NotFoundException`. -/
def streamEvents (w : StreamServer) (id : StreamId) (runId : RunId) (owner : OwnerPrincipal)
    (run : Option Run) (replayFrom lastEventId : Option String) : StreamServer :=
  match run with
  | none => w
  | some run =>
    if sameOwnerPrincipal run.owner owner then
      w.openStream id runId run (startSeq replayFrom lastEventId)
    else w

/-- The `cleanup` of a connection, with its intervals cleared. -/
def leave (w : StreamServer) (id : StreamId) (connection : Connection) : StreamServer :=
  let (streamController, responses, _) :=
    w.service.streamController.cleanup w.responses connection.cleanup
  { w with
    service := { w.service with streamController }
    responses
    connections := w.connections.set id
      { connection with keepAliveTimer := false, checkRunState := false } }

def serve (w : StreamServer) (served : SSEService × Responses) : StreamServer :=
  { w with service := served.1, responses := served.2 }

def step (w : StreamServer) : Label → Option StreamServer
  | .streamEvents id runId owner run replayFrom lastEventId =>
    if w.responses.table.has id then none
    else some (w.streamEvents id runId owner run replayFrom lastEventId)
  | .disconnect id => (w.connections.get id).map (w.leave id)
  | .keepAlive id =>
    match w.connections.get id with
    | none => none
    | some connection =>
      if connection.keepAliveTimer = false then none
      else if w.responses.isOpen id then
        some { w with responses := w.responses.send id .keepAlive }
      else
        some { w with connections := w.connections.set id { connection with keepAliveTimer := false } }
  | .checkRunState id =>
    match w.connections.get id with
    | none => none
    | some connection =>
      if connection.checkRunState = false then none
      else
        some { w with
          connections := w.connections.set id { connection with checks := connection.checks + 1 } }
  | .checked id currentRun =>
    match w.connections.get id with
    | none => none
    | some connection =>
      if connection.checks = 0 then none
      else
        let connection := { connection with checks := connection.checks - 1 }
        if currentRun.any (fun run => isTerminalState run.state) then some (w.leave id connection)
        else some { w with connections := w.connections.set id connection }
  | .broadcastAgentEvent runId agentEvent =>
    some (w.serve (w.service.broadcastAgentEvent w.responses w.now runId agentEvent))
  | .broadcastOrchestratorEvent runId type payload =>
    some (w.serve (w.service.broadcastOrchestratorEvent w.responses w.now runId type payload))
  | .closeRun runId => some (w.serve (w.service.closeRun w.responses runId))
  | .tick elapsed => some { w with now := w.now + elapsed }

inductive Steps (w : StreamServer) : Label → StreamServer → Prop
  | refuses {id : StreamId} {runId : RunId} {owner : OwnerPrincipal} {run : Option Run}
      {replayFrom lastEventId : Option String}
      (denied : run.any (fun run => sameOwnerPrincipal run.owner owner) = false) :
      Steps w (.streamEvents id runId owner run replayFrom lastEventId) w
  | opens {id : StreamId} {runId : RunId} {owner : OwnerPrincipal} {run : Run}
      {replayFrom lastEventId : Option String} (unused : w.responses.table.has id = false)
      (own : sameOwnerPrincipal run.owner owner = true) :
      Steps w (.streamEvents id runId owner (some run) replayFrom lastEventId)
        (w.openStream id runId run (startSeq replayFrom lastEventId))
  | disconnects {id : StreamId} {connection : Connection}
      (found : w.connections.get id = some connection) :
      Steps w (.disconnect id) (w.leave id connection)
  | keepsAlive {id : StreamId} :
      Steps w (.keepAlive id) { w with responses := w.responses.send id .keepAlive }
  | silences {id : StreamId} {connection : Connection}
      (found : w.connections.get id = some connection) :
      Steps w (.keepAlive id)
        { w with connections := w.connections.set id { connection with keepAliveTimer := false } }
  | checks {id : StreamId} {connection : Connection}
      (found : w.connections.get id = some connection) :
      Steps w (.checkRunState id)
        { w with
          connections := w.connections.set id { connection with checks := connection.checks + 1 } }
  | ends {id : StreamId} {connection : Connection} {run : Run}
      (found : w.connections.get id = some connection) (terminal : isTerminalState run.state = true) :
      Steps w (.checked id (some run))
        (w.leave id { connection with checks := connection.checks - 1 })
  | goesOn {id : StreamId} {connection : Connection} {currentRun : Option Run}
      (found : w.connections.get id = some connection) :
      Steps w (.checked id currentRun)
        { w with
          connections := w.connections.set id { connection with checks := connection.checks - 1 } }
  | broadcastsAgentEvent {runId : RunId} {agentEvent : AgentEvent} :
      Steps w (.broadcastAgentEvent runId agentEvent)
        (w.serve (w.service.broadcastAgentEvent w.responses w.now runId agentEvent))
  | broadcastsOrchestratorEvent {runId : RunId} {type : SSEEventType} {payload : Json} :
      Steps w (.broadcastOrchestratorEvent runId type payload)
        (w.serve (w.service.broadcastOrchestratorEvent w.responses w.now runId type payload))
  | closes {runId : RunId} :
      Steps w (.closeRun runId) (w.serve (w.service.closeRun w.responses runId))
  | ticks {elapsed : Nat} : Steps w (.tick elapsed) { w with now := w.now + elapsed }

theorem steps_of_step {w w' : StreamServer} {label : Label} (moved : w.step label = some w') :
    Steps w label w' := by
  cases label with
  | streamEvents id runId owner run replayFrom lastEventId =>
      simp only [step] at moved
      split at moved
      · cases moved
      · rename_i unused
        cases moved
        cases run with
        | none => exact .refuses rfl
        | some run =>
            simp only [streamEvents]
            split
            · exact .opens (by simpa using unused) ‹_›
            · rename_i denied
              exact .refuses (by simpa using denied)
  | disconnect id =>
      obtain ⟨connection, found, rfl⟩ := Option.map_eq_some_iff.mp moved
      exact .disconnects found
  | keepAlive id =>
      simp only [step] at moved
      split at moved
      · cases moved
      · rename_i connection found
        split at moved
        · cases moved
        · split at moved <;> cases moved
          · exact .keepsAlive
          · exact .silences found
  | checkRunState id =>
      simp only [step] at moved
      split at moved
      · cases moved
      · rename_i connection found
        split at moved <;> cases moved
        exact .checks found
  | checked id currentRun =>
      simp only [step] at moved
      split at moved
      · cases moved
      · rename_i connection found
        split at moved
        · cases moved
        · split at moved
          · rename_i terminal
            cases moved
            cases currentRun with
            | none => cases terminal
            | some run => exact .ends found terminal
          · cases moved
            exact .goesOn found
  | broadcastAgentEvent runId agentEvent =>
      cases moved
      exact .broadcastsAgentEvent
  | broadcastOrchestratorEvent runId type payload =>
      cases moved
      exact .broadcastsOrchestratorEvent
  | closeRun runId =>
      cases moved
      exact .closes
  | tick elapsed =>
      cases moved
      exact .ticks

end StreamServer

end Minerva
