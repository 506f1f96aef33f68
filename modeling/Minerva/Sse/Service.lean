import Minerva.Sse.Buffer
import Minerva.Sse.Mapper
import Minerva.Sse.Stream

/-! `SSEService`: numbering, buffering and fan-out of the events of all runs. The streams that it
writes to are the host's. -/

namespace Minerva

structure SSEService where
  sequencer : MemoryEventSequencer
  streamController : MemorySSEStreamController
  eventBuffer : BoundedEventBuffer

namespace SSEService

def init : SSEService := ⟨.empty, .empty, .empty 1000⟩

def registerStream (s : SSEService) (runId : RunId) (stream : StreamId) : SSEService × Cleanup :=
  let (streamController, cleanup) := s.streamController.register runId stream
  ({ s with streamController }, cleanup)

def getBufferedEventsFrom (s : SSEService) (seq : Int) : List SSEEventEnvelope :=
  s.eventBuffer.getFrom seq

/-- Create a custom envelope, as for connection events: it is numbered but not buffered. -/
def createEnvelope (s : SSEService) (now : Int) (runId : RunId) (type : SSEEventType)
    (payload : Json) : SSEService × SSEEventEnvelope :=
  let (sequencer, envelope) := s.sequencer.create now runId type payload
  ({ s with sequencer }, envelope)

variable {ω : Type} [SSEStreams ω]

def broadcast (s : SSEService) (host : ω) (runId : RunId) (event : SSEEventEnvelope) :
    SSEService × ω :=
  let s := { s with eventBuffer := s.eventBuffer.push event }
  let (streamController, host) := s.streamController.broadcast host runId event
  ({ s with streamController }, host)

def broadcastAgentEvent (s : SSEService) (host : ω) (now : Int) (runId : RunId)
    (agentEvent : AgentEvent) : SSEService × ω :=
  let (sequencer, envelope) := s.sequencer.map now agentEvent runId
  let s := { s with sequencer }
  match envelope with
  | some envelope => s.broadcast host runId envelope
  | none => (s, host)

def broadcastOrchestratorEvent (s : SSEService) (host : ω) (now : Int) (runId : RunId)
    (type : SSEEventType) (payload : Json) : SSEService × ω :=
  let (sequencer, envelope) := s.sequencer.mapOrchestratorEvent now runId type payload
  { s with sequencer }.broadcast host runId envelope

def closeRun (s : SSEService) (host : ω) (runId : RunId) : SSEService × ω :=
  let (streamController, host) := s.streamController.closeRun host runId
  (⟨s.sequencer.cleanup runId, streamController, s.eventBuffer.clear runId⟩, host)

end SSEService

end Minerva
