import Minerva.Library.Window
import Minerva.Sse.Resume

namespace Minerva

namespace BoundedEventBuffer

theorem getAllForRun_push_window (buffer : BoundedEventBuffer) (event : SSEEventEnvelope)
    (runId : RunId) :
    (buffer.push event).getAllForRun runId =
      if runId = event.runId then
        Window.push buffer.maxSize (buffer.getAllForRun runId) event
      else buffer.getAllForRun runId := by
  by_cases same : runId = event.runId
  · subst same
    rw [if_pos rfl]
    exact congrArg (fun events => events.getD []) (EsMap.get_set_self buffer.buffers event.runId _)
  · rw [if_neg same]
    exact congrArg (fun events => events.getD [])
      (EsMap.get_set_of_ne buffer.buffers event.runId runId _ same)

theorem getAllForRun_clear (buffer : BoundedEventBuffer) (cleared runId : RunId) :
    (buffer.clear cleared).getAllForRun runId =
      if runId = cleared then [] else buffer.getAllForRun runId := by
  simp only [clear, getAllForRun, EsMap.get_delete]
  split <;> rfl

end BoundedEventBuffer

inductive BroadcastCall where
  | broadcastAgentEvent (now : Int) (runId : RunId) (agentEvent : AgentEvent)
  | broadcastOrchestratorEvent (now : Int) (runId : RunId) (type : SSEEventType) (payload : Json)
  | createEnvelope (now : Int) (runId : RunId) (type : SSEEventType) (payload : Json)
  | closeRun (runId : RunId)

/-- The service with the streams that it writes to, and what was broadcast for each run since the
run was closed last. -/
structure BroadcastHistory (ω : Type) where
  service : SSEService
  host : ω
  log : RunId → List SSEEventEnvelope

namespace BroadcastHistory

variable {ω : Type}

def init (host : ω) : BroadcastHistory ω := ⟨.init, host, fun _ => []⟩

def noted (s : BroadcastHistory ω) (runId : RunId) (envelope : Option SSEEventEnvelope) :
    RunId → List SSEEventEnvelope :=
  Function.update s.log runId (s.log runId ++ envelope.toList)

def after [SSEStreams ω] (s : BroadcastHistory ω) : BroadcastCall → BroadcastHistory ω
  | .broadcastAgentEvent now runId agentEvent =>
    let (service, host) := s.service.broadcastAgentEvent s.host now runId agentEvent
    ⟨service, host, s.noted runId (s.service.sequencer.map now agentEvent runId).2⟩
  | .broadcastOrchestratorEvent now runId type payload =>
    let (service, host) := s.service.broadcastOrchestratorEvent s.host now runId type payload
    ⟨service, host,
      s.noted runId (some (s.service.sequencer.mapOrchestratorEvent now runId type payload).2)⟩
  | .createEnvelope now runId type payload =>
    { s with service := (s.service.createEnvelope now runId type payload).1 }
  | .closeRun runId =>
    let (service, host) := s.service.closeRun s.host runId
    ⟨service, host, Function.update s.log runId []⟩

/-- The buffers, the counters and the log agree. -/
structure Windowed (s : BroadcastHistory ω) : Prop where
  size : s.service.eventBuffer.maxSize = 1000
  window : ∀ runId, s.service.eventBuffer.getAllForRun runId = (s.log runId).rtake 1000
  own : ∀ runId, ∀ event ∈ s.log runId, event.runId = runId
  rising : ∀ runId, (s.log runId).Pairwise (fun a b => a.seq < b.seq)
  numbered : ∀ runId, ∀ event ∈ s.log runId,
    event.seq ≤ s.service.sequencer.current runId

variable {s : BroadcastHistory ω}

theorem windowed_init (host : ω) : (init host).Windowed where
  size := rfl
  window _ := (List.rtake_nil 1000).symm
  own _ _ member := absurd member List.not_mem_nil
  rising _ := List.Pairwise.nil
  numbered _ _ member := absurd member List.not_mem_nil

theorem noted_some (s : BroadcastHistory ω) (runId : RunId) (event : SSEEventEnvelope)
    (other : RunId) :
    s.noted runId (some event) other =
      if other = runId then s.log other ++ [event] else s.log other := by
  unfold noted
  by_cases same : other = runId
  · subst same
    rw [Function.update_self, if_pos rfl]
    rfl
  · rw [Function.update_of_ne same, if_neg same]

theorem mem_noted_some {runId other : RunId} {event given : SSEEventEnvelope} :
    given ∈ s.noted runId (some event) other ↔
      given ∈ s.log other ∨ (other = runId ∧ given = event) := by
  rw [noted_some]
  split
  · next same => simp [same]
  · next apart => simp [apart]

theorem noted_none (s : BroadcastHistory ω) (runId : RunId) : s.noted runId none = s.log := by
  unfold noted
  rw [Option.toList_none, List.append_nil, Function.update_eq_self]

theorem Windowed.drawn (windowed : s.Windowed) (drawn runId : RunId) :
    ∀ event ∈ s.log runId, event.seq ≤ (s.service.sequencer.next drawn).1.current runId := by
  intro event member
  have before := windowed.numbered runId event member
  rw [MemoryEventSequencer.current_next]
  split
  · exact Nat.le_succ_of_le before
  · exact before

theorem Windowed.skips (windowed : s.Windowed) {service : SSEService} (host : ω) (runId : RunId)
    (sequencer : service.sequencer = (s.service.sequencer.next runId).1)
    (eventBuffer : service.eventBuffer = s.service.eventBuffer) :
    Windowed (⟨service, host, s.log⟩ : BroadcastHistory ω) where
  size := eventBuffer ▸ windowed.size
  window other := eventBuffer ▸ windowed.window other
  own := windowed.own
  rising := windowed.rising
  numbered other := sequencer ▸ windowed.drawn runId other

theorem Windowed.airs (windowed : s.Windowed) {service : SSEService} (host : ω) {runId : RunId}
    {event : SSEEventEnvelope} (about : event.runId = runId)
    (number : event.seq = s.service.sequencer.current runId + 1)
    (sequencer : service.sequencer = (s.service.sequencer.next runId).1)
    (eventBuffer : service.eventBuffer = s.service.eventBuffer.push event) :
    Windowed (⟨service, host, s.noted runId (some event)⟩ : BroadcastHistory ω) := by
  constructor
  case size => exact eventBuffer ▸ windowed.size
  case window =>
    intro other
    simp only [eventBuffer, noted_some]
    rw [BoundedEventBuffer.getAllForRun_push_window, about, windowed.size]
    split
    · rw [windowed.window, Window.push_rtake]
    · exact windowed.window other
  case own =>
    intro other given member
    rcases mem_noted_some.mp member with earlier | ⟨same, latest⟩
    · exact windowed.own other given earlier
    · rw [latest, same, about]
  case rising =>
    intro other
    simp only [noted_some]
    split
    · next same =>
        rw [List.pairwise_append]
        refine ⟨windowed.rising other, List.pairwise_singleton _ _, ?_⟩
        intro earlier member latest last
        rw [List.mem_singleton.mp last, number, ← same]
        exact Nat.lt_succ_of_le (windowed.numbered other earlier member)
    · exact windowed.rising other
  case numbered =>
    intro other given member
    simp only [sequencer]
    rcases mem_noted_some.mp member with earlier | ⟨same, latest⟩
    · exact windowed.drawn runId other given earlier
    · rw [latest, number, MemoryEventSequencer.current_next, if_pos same, same]

theorem Windowed.closeRun (windowed : s.Windowed) {service : SSEService} (host : ω) (runId : RunId)
    (sequencer : service.sequencer = s.service.sequencer.cleanup runId)
    (eventBuffer : service.eventBuffer = s.service.eventBuffer.clear runId) :
    Windowed (⟨service, host, Function.update s.log runId []⟩ : BroadcastHistory ω) := by
  have log (other : RunId) : Function.update s.log runId [] other =
      if other = runId then [] else s.log other := Function.update_apply _ _ _ _
  constructor
  case size => exact eventBuffer ▸ windowed.size
  case window =>
    intro other
    simp only [eventBuffer, log, BoundedEventBuffer.getAllForRun_clear]
    split
    · rfl
    · exact windowed.window other
  case own =>
    intro other given member
    simp only [log] at member
    split at member
    · exact absurd member List.not_mem_nil
    · exact windowed.own other given member
  case rising =>
    intro other
    simp only [log]
    split
    · exact List.Pairwise.nil
    · exact windowed.rising other
  case numbered =>
    intro other given member
    simp only [log] at member
    simp only [sequencer, MemoryEventSequencer.current_cleanup]
    split at member
    · exact absurd member List.not_mem_nil
    · next apart =>
        rw [if_neg apart]
        exact windowed.numbered other given member

variable [SSEStreams ω]

theorem Windowed.after (windowed : s.Windowed) (call : BroadcastCall) :
    (s.after call).Windowed := by
  cases call with
  | broadcastAgentEvent now runId agentEvent =>
      simp only [BroadcastHistory.after, SSEService.broadcastAgentEvent, MemoryEventSequencer.map]
      cases agentEvent.mapped with
      | none =>
          rw [Option.map_none, noted_none]
          exact windowed.skips _ runId rfl rfl
      | some place => exact windowed.airs _ rfl rfl rfl rfl
  | broadcastOrchestratorEvent now runId type payload => exact windowed.airs _ rfl rfl rfl rfl
  | createEnvelope now runId type payload => exact windowed.skips s.host runId rfl rfl
  | closeRun runId => exact windowed.closeRun _ runId rfl rfl

theorem windowed_foldl (host : ω) (calls : List BroadcastCall) :
    (calls.foldl BroadcastHistory.after (init host)).Windowed :=
  List.foldlRecOn calls BroadcastHistory.after (windowed_init host)
    fun _ windowed call _ => windowed.after call

/-- What a client can get replayed, against all that was broadcast. -/
structure ReplaysWindow (s : BroadcastHistory ω) : Prop where
  latest : ∀ runId, s.service.eventBuffer.getAllForRun runId <:+ s.log runId ∧
    (s.service.eventBuffer.getAllForRun runId).length = min (s.log runId).length 1000
  rising : ∀ runId, (s.service.eventBuffer.getAllForRun runId).Pairwise (fun a b => a.seq < b.seq)
  mem_iff : ∀ seq event, event ∈ s.service.getBufferedEventsFrom seq ↔
    seq ≤ event.seq ∧ ∃ runId, event ∈ s.service.eventBuffer.getAllForRun runId
  once : ∀ seq, (s.service.getBufferedEventsFrom seq).Nodup
  ordered : ∀ seq, (s.service.getBufferedEventsFrom seq).Pairwise (fun a b => a.seq ≤ b.seq)
  in_run : ∀ seq runId,
    (s.service.getBufferedEventsFrom seq).filter (fun event => event.runId = runId) =
      (s.service.eventBuffer.getAllForRun runId).filter (fun event => seq ≤ event.seq)

/-- After any calls, the buffer of each run holds the last 1000 events that were broadcast for the
run since it was closed last, and a replay merges the buffers by their numbers. -/
theorem replay_buffer_is_window (host : ω) (calls : List BroadcastCall) :
    (calls.foldl BroadcastHistory.after (init host)).ReplaysWindow := by
  have windowed := windowed_foldl host calls
  generalize calls.foldl BroadcastHistory.after (init host) = s at windowed
  have suffix (runId : RunId) : s.service.eventBuffer.getAllForRun runId <:+ s.log runId := by
    rw [windowed.window]
    exact Window.rtake_suffix 1000 (s.log runId)
  have filed : s.service.eventBuffer.Filed := fun runId event member =>
    windowed.own runId event ((suffix runId).subset member)
  have rising (runId : RunId) :
      (s.service.eventBuffer.getAllForRun runId).Pairwise (fun a b => a.seq < b.seq) :=
    (windowed.rising runId).sublist (suffix runId).sublist
  have in_run (seq : Int) (runId : RunId) :=
    BoundedEventBuffer.getFrom_own filed runId seq (rising runId)
  constructor
  case latest =>
    intro runId
    refine ⟨suffix runId, ?_⟩
    rw [windowed.window, Window.length_rtake]
  case rising => exact rising
  case mem_iff => exact BoundedEventBuffer.mem_getFrom s.service.eventBuffer
  case once =>
    intro seq
    apply Window.nodup_of_parts SSEEventEnvelope.runId
    intro runId
    rw [SSEService.getBufferedEventsFrom, in_run]
    exact ((rising runId).imp (fun less same => Nat.ne_of_lt less (congrArg _ same))).filter _
  case ordered =>
    intro seq
    exact List.pairwise_insertionSort (fun a b : SSEEventEnvelope => a.seq ≤ b.seq) _
  case in_run => exact in_run

end BroadcastHistory

end Minerva
