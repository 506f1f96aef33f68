import Minerva.Sse.Attached

namespace Minerva

structure SSEService.Vacant (s : SSEService) (runId : RunId) : Prop where
  buffer : s.eventBuffer.buffers.get runId = none
  counter : s.sequencer.counters.get runId = none
  streams : s.streamController.streams.get runId = none

def StreamServer.Label.about : StreamServer.Label → Option RunId
  | .streamEvents _ runId owner run _ _ =>
    if run.any (fun run => sameOwnerPrincipal run.owner owner) then some runId else none
  | .broadcastAgentEvent runId _ => some runId
  | .broadcastOrchestratorEvent runId _ _ => some runId
  | .disconnect _ => none
  | .keepAlive _ => none
  | .checkRunState _ => none
  | .checked _ _ => none
  | .closeRun _ => none
  | .tick _ => none

namespace MemorySSEStreamController

variable {ω : Type} [SSEStreams ω] {c : MemorySSEStreamController} {runId : RunId}

theorem absent_remove (absent : c.streams.get runId = none) (other : RunId) (set : Nat)
    (gone : List StreamId) : (c.remove other set gone).streams.get runId = none := by
  rw [streams_remove]
  split
  · rfl
  · exact absent

theorem absent_broadcast (absent : c.streams.get runId = none) (host : ω) (other : RunId)
    (event : SSEEventEnvelope) : (c.broadcast host other event).1.streams.get runId = none := by
  unfold MemorySSEStreamController.broadcast
  split
  · exact absent
  · exact absent_remove absent _ _ _

theorem absent_register (absent : c.streams.get runId = none) {other : RunId}
    (different : other ≠ runId) (stream : StreamId) :
    (c.register other stream).1.streams.get runId = none := by
  have entries : (c.setFor other).1.streams.get runId = none := by
    unfold MemorySSEStreamController.setFor
    split
    · exact absent
    · exact (EsMap.get_set_of_ne _ _ _ _ (Ne.symm different)).trans absent
  exact entries

end MemorySSEStreamController

theorem MemoryEventSequencer.absent_next {sequencer : MemoryEventSequencer} {runId other : RunId}
    (absent : sequencer.counters.get runId = none) (different : other ≠ runId) :
    (sequencer.next other).1.counters.get runId = none :=
  (EsMap.get_set_of_ne _ _ _ _ (Ne.symm different)).trans absent

namespace SSEService

open MemorySSEStreamController

variable {ω : Type} [SSEStreams ω] {s : SSEService} {runId other : RunId}

theorem Vacant.broadcast (vacant : s.Vacant runId) (host : ω) {event : SSEEventEnvelope}
    (own : event.runId = other) (different : other ≠ runId) :
    (s.broadcast host other event).1.Vacant runId where
  buffer := by
    subst own
    exact (EsMap.get_set_of_ne _ _ _ _ (Ne.symm different)).trans vacant.buffer
  counter := vacant.counter
  streams := absent_broadcast vacant.streams host other event

theorem Vacant.draw (vacant : s.Vacant runId) (different : other ≠ runId) :
    ({ s with sequencer := (s.sequencer.next other).1 } : SSEService).Vacant runId where
  buffer := vacant.buffer
  counter := MemoryEventSequencer.absent_next vacant.counter different
  streams := vacant.streams

theorem Vacant.broadcastAgentEvent (vacant : s.Vacant runId) (host : ω) (now : Int)
    (different : other ≠ runId) (agentEvent : AgentEvent) :
    (s.broadcastAgentEvent host now other agentEvent).1.Vacant runId := by
  unfold SSEService.broadcastAgentEvent MemoryEventSequencer.map
  cases agentEvent.mapped with
  | none => exact vacant.draw different
  | some mapped => exact (vacant.draw different).broadcast host rfl different

theorem Vacant.broadcastOrchestratorEvent (vacant : s.Vacant runId) (host : ω) (now : Int)
    (different : other ≠ runId) (type : SSEEventType) (payload : Json) :
    (s.broadcastOrchestratorEvent host now other type payload).1.Vacant runId :=
  (vacant.draw different).broadcast host rfl different

theorem Vacant.closeRun (vacant : s.Vacant runId) (host : ω) (other : RunId) :
    (s.closeRun host other).1.Vacant runId where
  buffer := by
    refine (EsMap.get_delete _ _ _).trans ?_
    split
    · rfl
    · exact vacant.buffer
  counter := by
    refine (EsMap.get_delete _ _ _).trans ?_
    split
    · rfl
    · exact vacant.counter
  streams := by
    refine (streams_closeRun _ host other runId).trans ?_
    split
    · rfl
    · exact vacant.streams

theorem vacant_closeRun (s : SSEService) (host : ω) (runId : RunId) :
    (s.closeRun host runId).1.Vacant runId where
  buffer := EsMap.get_delete_self _ _
  counter := EsMap.get_delete_self _ _
  streams := by
    refine (streams_closeRun _ host runId runId).trans ?_
    rw [if_pos rfl]

end SSEService

namespace StreamServer

variable {w w' : StreamServer} {label : Label} {runId : RunId}

theorem vacant_openStream (vacant : w.service.Vacant runId) {other : RunId}
    (different : other ≠ runId) (id : StreamId) (run : Run) (startSeq : Option (Option Int)) :
    (w.openStream id other run startSeq).service.Vacant runId where
  buffer := vacant.buffer
  counter := MemoryEventSequencer.absent_next vacant.counter different
  streams := MemorySSEStreamController.absent_register vacant.streams different id

theorem vacant_leave (vacant : w.service.Vacant runId) (id : StreamId) (connection : Connection) :
    (w.leave id connection).service.Vacant runId where
  buffer := vacant.buffer
  counter := vacant.counter
  streams := by
    rw [leave_controller]
    exact MemorySSEStreamController.absent_remove vacant.streams _ _ _

theorem vacant_step (moved : w.step label = some w') (vacant : w.service.Vacant runId)
    (different : label.about ≠ some runId) : w'.service.Vacant runId := by
  have apart {other : RunId} (about : label.about = some other) : other ≠ runId := by
    rintro rfl
    exact different about
  cases steps_of_step moved with
  | refuses denied => exact vacant
  | opens unused own => exact vacant_openStream vacant (apart (if_pos own)) _ _ _
  | disconnects found => exact vacant_leave vacant _ _
  | keepsAlive => exact vacant
  | silences found => exact vacant
  | checks found => exact vacant
  | ends found terminal => exact vacant_leave vacant _ _
  | goesOn found => exact vacant
  | broadcastsAgentEvent => exact vacant.broadcastAgentEvent _ _ (apart rfl) _
  | broadcastsOrchestratorEvent => exact vacant.broadcastOrchestratorEvent _ _ (apart rfl) _ _
  | closes => exact vacant.closeRun _ _
  | ticks => exact vacant

end StreamServer

end Minerva
