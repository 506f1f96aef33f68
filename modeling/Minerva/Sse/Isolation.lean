import Minerva.Sse.Controller

/-! Isolation of the streams: live events reach the streams of their own run only, and what a
client is replayed comes from the buffers of all runs. -/

namespace Minerva

namespace MemorySSEStreamController

/-- No two runs share a `Set`, and the streams of a run are its own. -/
structure Separate (c : MemorySSEStreamController) (mine : RunId → StreamId → Prop) : Prop where
  fresh : ∀ runId set, c.streams.get runId = some set → set < c.nextSet
  injective : ∀ runId runId' set, c.streams.get runId = some set →
    c.streams.get runId' = some set → runId = runId'
  members : ∀ runId set, c.streams.get runId = some set → ∀ stream ∈ c.members set,
    mine runId stream

variable {c c' : MemorySSEStreamController} {mine : RunId → StreamId → Prop}

theorem Separate.shrinks (separate : c.Separate mine)
    (streams : ∀ runId set, c'.streams.get runId = some set → c.streams.get runId = some set)
    (members : ∀ set, ∀ stream ∈ c'.members set, stream ∈ c.members set)
    (same : c'.nextSet = c.nextSet) : c'.Separate mine := by
  constructor
  · intro runId set found
    rw [same]
    exact separate.fresh runId set (streams runId set found)
  · intro runId runId' set found found'
    exact separate.injective runId runId' set (streams runId set found) (streams runId' set found')
  · intro runId set found stream member
    exact separate.members runId set (streams runId set found) stream (members set stream member)

theorem Separate.mono {more : RunId → StreamId → Prop} (separate : c.Separate mine)
    (weaken : ∀ runId stream, mine runId stream → more runId stream) : c.Separate more where
  fresh := separate.fresh
  injective := separate.injective
  members := fun runId set found stream member =>
    weaken runId stream (separate.members runId set found stream member)

theorem mem_add {members : List StreamId} {stream other : StreamId}
    (member : other ∈ add members stream) : other ∈ members ∨ other = stream := by
  unfold add at member
  split at member
  · exact .inl member
  · simpa using member

theorem mem_members_set {set : Nat} {members : List StreamId} {other : Nat} {stream : StreamId}
    (member : stream ∈ ({ c with sets := c.sets.set set members } :
      MemorySSEStreamController).members other) :
    (other = set ∧ stream ∈ members) ∨ stream ∈ c.members other := by
  simp only [MemorySSEStreamController.members, EsMap.get_set] at member
  split at member
  · rename_i same
    exact .inl ⟨same, member⟩
  · exact .inr member

theorem Separate.setFor (separate : c.Separate mine) (runId : RunId) :
    (c.setFor runId).1.Separate mine ∧
      (c.setFor runId).1.streams.get runId = some (c.setFor runId).2 := by
  unfold MemorySSEStreamController.setFor
  split
  · rename_i set found
    exact ⟨separate, found⟩
  · refine ⟨⟨?_, ?_, ?_⟩, EsMap.get_set_self _ _ _⟩
    · intro other set found
      rcases EsMap.get_set_cases c.streams runId found with ⟨-, rfl⟩ | ⟨-, earlier⟩
      · exact Nat.lt_succ_self _
      · exact Nat.lt_succ_of_lt (separate.fresh other set earlier)
    · intro first second set found found'
      rcases EsMap.get_set_cases c.streams runId found with ⟨same, rfl⟩ | ⟨-, earlier⟩
      · rcases EsMap.get_set_cases c.streams runId found' with ⟨same', -⟩ | ⟨-, earlier'⟩
        · exact same.trans same'.symm
        · exact absurd (separate.fresh second _ earlier') (Nat.lt_irrefl _)
      · rcases EsMap.get_set_cases c.streams runId found' with ⟨-, rfl⟩ | ⟨-, earlier'⟩
        · exact absurd (separate.fresh first _ earlier) (Nat.lt_irrefl _)
        · exact separate.injective first second set earlier earlier'
    · intro other set found stream member
      simp only [MemorySSEStreamController.members, EsMap.get_set] at found member
      split at found
      · cases found
        rw [if_pos rfl] at member
        cases member
      · have older := separate.fresh other set found
        rw [if_neg (Nat.ne_of_lt older)] at member
        exact separate.members other set found stream member

theorem Separate.register (separate : c.Separate mine) {runId : RunId} {stream : StreamId}
    (own : mine runId stream) : (c.register runId stream).1.Separate mine := by
  obtain ⟨separate', place⟩ := separate.setFor runId
  unfold MemorySSEStreamController.register
  generalize c.setFor runId = after at separate' place
  obtain ⟨c', set⟩ := after
  refine ⟨separate'.fresh, separate'.injective, ?_⟩
  intro other set' found stream' member
  rcases mem_members_set member with ⟨same, added⟩ | earlier
  · subst same
    have sole : other = runId := separate'.injective other runId set' found place
    subst sole
    rcases mem_add added with earlier | latest
    · exact separate'.members other set' found stream' earlier
    · rw [latest]
      exact own
  · exact separate'.members other set' found stream' earlier

theorem Separate.remove (separate : c.Separate mine) (runId : RunId) (set : Nat)
    (gone : List StreamId) : (c.remove runId set gone).Separate mine := by
  have members : ∀ other, ∀ stream ∈ ({ c with
      sets := c.sets.set set ((c.members set).filter (fun stream => stream ∉ gone)) } :
        MemorySSEStreamController).members other, stream ∈ c.members other := by
    intro other stream member
    rcases mem_members_set member with ⟨rfl, kept⟩ | earlier
    · exact (List.mem_filter.mp kept).1
    · exact earlier
  unfold MemorySSEStreamController.remove
  simp only
  split
  · apply separate.shrinks
    · intro other set' found
      exact (EsMap.get_of_get_delete _ _ found).2
    · exact members
    · rfl
  · apply separate.shrinks
    · intro other set' found
      exact found
    · exact members
    · rfl

variable {ω : Type} [SSEStreams ω]

theorem Separate.cleanup (separate : c.Separate mine) (host : ω) (k : Cleanup) :
    (c.cleanup host k).1.Separate mine := by
  unfold MemorySSEStreamController.cleanup
  split <;> exact separate.remove k.runId k.runStreams [k.stream]

theorem Separate.broadcast (separate : c.Separate mine) (host : ω) (runId : RunId)
    (event : SSEEventEnvelope) : (c.broadcast host runId event).1.Separate mine := by
  unfold MemorySSEStreamController.broadcast
  split
  · exact separate
  · exact separate.remove runId _ _

theorem Separate.closeRun (separate : c.Separate mine) (host : ω) (runId : RunId) :
    (c.closeRun host runId).1.Separate mine := by
  unfold MemorySSEStreamController.closeRun
  split
  · exact separate
  · apply separate.shrinks
    · intro other set found
      exact (EsMap.get_of_get_delete _ _ found).2
    · intro set stream member
      exact member
    · rfl

end MemorySSEStreamController

/-- Responses get new events only where `P` lets them. -/
structure Grows (P : StreamId → SSEEventEnvelope → Prop) (before after : Responses) : Prop where
  kept : ∀ id, before.table.has id = true → after.table.has id = true
  old : ∀ id, ∀ event ∈ before.events id, event ∈ after.events id
  new : ∀ id, ∀ event ∈ after.events id, event ∈ before.events id ∨ P id event

namespace Grows

variable {P Q : StreamId → SSEEventEnvelope → Prop} {a b c : Responses}

theorem refl (a : Responses) : Grows P a a :=
  ⟨fun _ has => has, fun _ _ member => member, fun _ _ member => .inl member⟩

theorem trans (first : Grows P a b) (second : Grows P b c) : Grows P a c where
  kept := fun id has => second.kept id (first.kept id has)
  old := fun id event member => second.old id event (first.old id event member)
  new := by
    intro id event member
    rcases second.new id event member with earlier | allowed
    · exact first.new id event earlier
    · exact .inr allowed

theorem set {id : StreamId} {response response' : Response} (found : a.table.get id = some response)
    (continues : ∃ more, response'.chunks = response.chunks ++ more ∧
      ∀ event, .event event ∈ more → P id event) : Grows P a ⟨a.table.set id response'⟩ := by
  obtain ⟨more, chunks, allowed⟩ := continues
  have here : (Responses.mk (a.table.set id response')).events id =
      a.events id ++ more.filterMap Chunk.envelope := by
    simp [Responses.events, found, chunks]
  have other {id' : StreamId} (different : id' ≠ id) :
      (Responses.mk (a.table.set id response')).events id' = a.events id' := by
    simp [Responses.events, EsMap.get_set, different]
  constructor
  · intro id' has
    simp only [EsMap.has, EsMap.get_set]
    split
    · rfl
    · exact has
  · intro id' event member
    by_cases same : id' = id
    · subst same
      rw [here]
      exact List.mem_append_left _ member
    · rw [other same]
      exact member
  · intro id' event member
    by_cases same : id' = id
    · subst same
      rw [here] at member
      rcases List.mem_append.mp member with earlier | latest
      · exact .inl earlier
      · obtain ⟨chunk, added, named⟩ := List.mem_filterMap.mp latest
        cases chunk <;> cases named
        exact .inr (allowed event added)
    · rw [other same] at member
      exact .inl member

theorem send (a : Responses) (id : StreamId) (chunk : Chunk)
    (allowed : ∀ event, chunk = .event event → P id event) : Grows P a (a.send id chunk) := by
  unfold Responses.send
  split
  · exact refl a
  · rename_i response found
    split
    · exact refl a
    · refine set found ⟨[chunk], rfl, ?_⟩
      intro event member
      exact allowed event (List.mem_singleton.mp member).symm

theorem write (a : Responses) (id : StreamId) {event : SSEEventEnvelope} (allowed : P id event) :
    Grows P a (a.write id event) := by
  apply send
  rintro event' ⟨⟩
  exact allowed

theorem finish (a : Responses) (id : StreamId) : Grows P a (a.finish id) := by
  unfold Responses.finish
  split
  · exact refl a
  · rename_i response found
    exact set found ⟨[], by simp, by simp⟩

theorem closes (a : Responses) (streams : List StreamId) :
    Grows P a (streams.foldl MemorySSEStreamController.closeQuietly a) := by
  induction streams generalizing a with
  | nil => exact refl a
  | cons stream rest ih => exact (finish a stream).trans (ih _)

theorem deliver {event : SSEEventEnvelope} (streams : List StreamId) (a : Responses)
    (deadStreams : List StreamId) (allowed : ∀ stream ∈ streams, P stream event) :
    Grows P a (streams.foldl (MemorySSEStreamController.deliver event) (a, deadStreams)).1 := by
  induction streams generalizing a deadStreams with
  | nil => exact refl a
  | cons stream rest ih =>
      have later : ∀ stream ∈ rest, P stream event :=
        fun other member => allowed other (List.mem_cons_of_mem _ member)
      rw [List.foldl_cons]
      simp only [MemorySSEStreamController.deliver, SSEStreams.isOpen]
      split
      · exact (write a stream (allowed stream (by simp))).trans (ih _ _ later)
      · exact ih _ _ later

end Grows

namespace BoundedEventBuffer

def Filed (buffer : BoundedEventBuffer) : Prop :=
  ∀ runId, ∀ event ∈ buffer.getAllForRun runId, event.runId = runId

theorem Filed.push {buffer : BoundedEventBuffer} (filed : buffer.Filed) (event : SSEEventEnvelope) :
    (buffer.push event).Filed := by
  intro runId other member
  simp only [BoundedEventBuffer.push, getAllForRun, EsMap.get_set] at member
  split at member
  · rename_i same
    have pushed : other ∈ buffer.getAllForRun event.runId ++ [event] := by
      have kept : other ∈ if (buffer.getAllForRun event.runId ++ [event]).length > buffer.maxSize
          then (buffer.getAllForRun event.runId ++ [event]).tail
          else buffer.getAllForRun event.runId ++ [event] := member
      by_cases full : (buffer.getAllForRun event.runId ++ [event]).length > buffer.maxSize
      · rw [if_pos full] at kept
        exact List.mem_of_mem_tail kept
      · rw [if_neg full] at kept
        exact kept
    rcases List.mem_append.mp pushed with earlier | latest
    · rw [same]
      exact filed event.runId other earlier
    · rw [List.mem_singleton.mp latest, same]
  · exact filed runId other member

theorem Filed.clear {buffer : BoundedEventBuffer} (filed : buffer.Filed) (runId : RunId) :
    (buffer.clear runId).Filed := by
  intro other event member
  simp only [BoundedEventBuffer.clear, getAllForRun, EsMap.get_delete] at member
  split at member
  · cases member
  · exact filed other event member

theorem mem_getFrom (buffer : BoundedEventBuffer) (seq : Int) (event : SSEEventEnvelope) :
    event ∈ buffer.getFrom seq ↔ seq ≤ event.seq ∧ ∃ runId, event ∈ buffer.getAllForRun runId := by
  have buffered : event ∈ buffer.buffers.values.flatten ↔
      ∃ runId, event ∈ buffer.getAllForRun runId := by
    simp only [List.mem_flatten, EsMap.mem_values_iff]
    constructor
    · rintro ⟨events, ⟨runId, found⟩, member⟩
      refine ⟨runId, ?_⟩
      rw [getAllForRun, found]
      exact member
    · rintro ⟨runId, member⟩
      unfold getAllForRun at member
      cases found : buffer.buffers.get runId with
      | none =>
          rw [found] at member
          cases member
      | some events =>
          rw [found] at member
          exact ⟨events, ⟨runId, found⟩, member⟩
  rw [getFrom, List.mem_insertionSort, List.mem_filter, buffered, decide_eq_true_iff, and_comm]

end BoundedEventBuffer

structure Serves (mine : RunId → StreamId → Prop) (s : SSEService) (host : Responses)
    (served : SSEService × Responses) : Prop where
  separate : s.streamController.Separate mine → served.1.streamController.Separate mine
  filed : s.eventBuffer.Filed → served.1.eventBuffer.Filed
  grows : s.streamController.Separate mine →
    Grows (fun id event => mine event.runId id) host served.2

namespace SSEService

variable {mine : RunId → StreamId → Prop} {s : SSEService} {host : Responses}

theorem broadcast_serves {event : SSEEventEnvelope} {runId : RunId} (about : event.runId = runId) :
    Serves mine s host (s.broadcast host runId event) := by
  refine ⟨?_, ?_, ?_⟩
  · intro separate
    exact separate.broadcast host runId event
  · intro filed
    exact filed.push event
  · intro separate
    simp only [broadcast, MemorySSEStreamController.broadcast]
    split
    · exact .refl host
    · rename_i set found
      refine (Grows.deliver _ host [] ?_).trans (.closes _ _)
      intro stream member
      rw [about]
      exact separate.members runId set found stream member

theorem broadcastAgentEvent_serves (now : Int) (runId : RunId) (agentEvent : AgentEvent) :
    Serves mine s host (s.broadcastAgentEvent host now runId agentEvent) := by
  unfold broadcastAgentEvent MemoryEventSequencer.map
  cases mapped : agentEvent.mapped with
  | none => exact ⟨fun separate => separate, fun filed => filed, fun _ => .refl host⟩
  | some place =>
      let numbered : SSEService := { s with sequencer := (s.sequencer.next runId).1 }
      have serves : Serves mine numbered host (numbered.broadcast host runId
          ⟨place.1, runId, now, (s.sequencer.next runId).2, place.2⟩) := broadcast_serves rfl
      exact ⟨serves.separate, serves.filed, serves.grows⟩

theorem broadcastOrchestratorEvent_serves (now : Int) (runId : RunId) (type : SSEEventType)
    (payload : Json) :
    Serves mine s host (s.broadcastOrchestratorEvent host now runId type payload) := by
  let numbered : SSEService := { s with sequencer := (s.sequencer.next runId).1 }
  have serves : Serves mine numbered host (numbered.broadcast host runId
      ⟨type, runId, now, (s.sequencer.next runId).2, payload⟩) := broadcast_serves rfl
  exact ⟨serves.separate, serves.filed, serves.grows⟩

theorem closeRun_serves (runId : RunId) : Serves mine s host (s.closeRun host runId) := by
  refine ⟨?_, ?_, ?_⟩
  · intro separate
    exact separate.closeRun host runId
  · intro filed
    exact filed.clear runId
  · intro separate
    simp only [closeRun, MemorySSEStreamController.closeRun]
    split
    · exact .refl host
    · exact .closes host _

end SSEService

theorem Responses.write_open {responses : Responses} {id : StreamId} {chunks : List Chunk}
    (found : responses.table.get id = some ⟨chunks, false⟩) (event : SSEEventEnvelope) :
    (responses.write id event).table.get id = some ⟨chunks ++ [.event event], false⟩ := by
  rw [write, send, found]
  exact EsMap.get_set_self _ _ _

theorem Responses.write_other (responses : Responses) {id other : StreamId} (different : other ≠ id)
    (event : SSEEventEnvelope) :
    (responses.write id event).table.get other = responses.table.get other := by
  unfold write send
  split
  · rfl
  · split
    · rfl
    · exact EsMap.get_set_of_ne _ _ _ _ different

theorem Responses.replay_open (events : List SSEEventEnvelope) {responses : Responses}
    {id : StreamId} {chunks : List Chunk}
    (found : responses.table.get id = some ⟨chunks, false⟩) :
    (events.foldl (fun responses event => responses.write id event) responses).table.get id =
      some ⟨chunks ++ events.map .event, false⟩ := by
  induction events generalizing responses chunks with
  | nil => simpa using found
  | cons event rest ih =>
      rw [List.foldl_cons, ih (write_open found event)]
      simp

theorem Responses.replay_other (events : List SSEEventEnvelope) (responses : Responses)
    {id other : StreamId} (different : other ≠ id) :
    (events.foldl (fun responses event => responses.write id event) responses).table.get other =
      responses.table.get other := by
  induction events generalizing responses with
  | nil => rfl
  | cons event rest ih => rw [List.foldl_cons, ih, write_other _ different]

namespace StreamServer

variable {w w' : StreamServer}

def Mine (w : StreamServer) (runId : RunId) (id : StreamId) : Prop :=
  ∃ connection, w.connections.get id = some connection ∧ connection.runId = runId

theorem Mine.same {runId other : RunId} {id : StreamId} (mine : w.Mine runId id)
    (mine' : w.Mine other id) : runId = other := by
  obtain ⟨connection, found, own⟩ := mine
  obtain ⟨connection', found', own'⟩ := mine'
  rw [found] at found'
  cases found'
  exact own.symm.trans own'

structure Isolated (w : StreamServer) : Prop where
  separate : w.service.streamController.Separate w.Mine
  filed : w.service.eventBuffer.Filed
  answered : ∀ runId id, w.Mine runId id → w.responses.table.has id = true

/-- A step that opens no stream: the streams stay with their runs, and what is written to one is
about its run. -/
structure Flows (w w' : StreamServer) : Prop where
  mine : ∀ runId id, w'.Mine runId id ↔ w.Mine runId id
  separate : w.service.streamController.Separate w.Mine →
    w'.service.streamController.Separate w.Mine
  filed : w.service.eventBuffer.Filed → w'.service.eventBuffer.Filed
  grows : w.service.streamController.Separate w.Mine →
    Grows (fun id event => w.Mine event.runId id) w.responses w'.responses

theorem Isolated.flows (isolated : w.Isolated) (flows : w.Flows w') : w'.Isolated := by
  have grows := flows.grows isolated.separate
  refine ⟨?_, flows.filed isolated.filed, ?_⟩
  · exact (flows.separate isolated.separate).mono (fun runId id owned => (flows.mine runId id).mpr owned)
  · intro runId id owned
    exact grows.kept id (isolated.answered runId id ((flows.mine runId id).mp owned))

theorem mine_set {id : StreamId} {connection connection' : Connection}
    (found : w.connections.get id = some connection) (same : connection'.runId = connection.runId)
    (connections : w'.connections = w.connections.set id connection') (runId : RunId)
    (other : StreamId) : w'.Mine runId other ↔ w.Mine runId other := by
  unfold Mine
  rw [connections]
  by_cases here : other = id
  · subst here
    simp [found, same]
  · simp [EsMap.get_set, here]

theorem leave_flows {id : StreamId} {connection connection' : Connection}
    (found : w.connections.get id = some connection) (same : connection'.runId = connection.runId) :
    w.Flows (w.leave id connection') := by
  have kept : ({ connection' with keepAliveTimer := false, checkRunState := false } :
      Connection).runId = connection.runId := same
  refine ⟨mine_set found kept rfl, ?_, fun filed => filed, ?_⟩
  · intro separate
    exact separate.cleanup w.responses connection'.cleanup
  · intro separate
    simp only [leave, MemorySSEStreamController.cleanup, SSEStreams.isOpen]
    split
    · exact .refl _
    · exact .finish _ _
    · exact .refl _

theorem serve_flows {served : SSEService × Responses}
    (serves : Serves w.Mine w.service w.responses served) : w.Flows (w.serve served) :=
  ⟨fun _ _ => Iff.rfl, serves.separate, serves.filed, serves.grows⟩

theorem note_flows {id : StreamId} {connection connection' : Connection}
    (found : w.connections.get id = some connection) (same : connection'.runId = connection.runId) :
    w.Flows { w with connections := w.connections.set id connection' } :=
  ⟨mine_set found same rfl, fun separate => separate, fun filed => filed, fun _ => .refl _⟩

theorem step_cases {label : Label} (moved : w.step label = some w') :
    (∃ id runId run seq, w.responses.table.has id = false ∧ w' = w.openStream id runId run seq) ∨
      w.Flows w' := by
  have same : w.Flows w :=
    ⟨fun _ _ => Iff.rfl, fun separate => separate, fun filed => filed, fun _ => .refl _⟩
  cases steps_of_step moved with
  | refuses denied => exact .inr same
  | opens unused own => exact .inl ⟨_, _, _, _, unused, rfl⟩
  | disconnects found => exact .inr (leave_flows found rfl)
  | keepsAlive =>
      right
      refine ⟨fun _ _ => Iff.rfl, fun separate => separate, fun filed => filed, ?_⟩
      intro separate
      exact .send _ _ _ (by rintro event ⟨⟩)
  | silences found => exact .inr (note_flows found rfl)
  | checks found => exact .inr (note_flows found rfl)
  | ends found terminal => exact .inr (leave_flows found rfl)
  | goesOn found => exact .inr (note_flows found rfl)
  | broadcastsAgentEvent =>
      exact .inr (serve_flows (SSEService.broadcastAgentEvent_serves w.now _ _))
  | broadcastsOrchestratorEvent =>
      exact .inr (serve_flows (SSEService.broadcastOrchestratorEvent_serves w.now _ _ _))
  | closes => exact .inr (serve_flows (SSEService.closeRun_serves _))
  | ticks =>
      exact .inr
        ⟨fun _ _ => Iff.rfl, fun separate => separate, fun filed => filed, fun _ => .refl _⟩

section Opened

variable {id : StreamId} {runId : RunId} {run : Run} {seq : Option (Option Int)}

theorem open_other {other : StreamId} (different : other ≠ id) :
    (w.openStream id runId run seq).responses.table.get other = w.responses.table.get other := by
  refine (Responses.write_other _ different _).trans ?_
  refine (Responses.replay_other _ _ different).trans ?_
  exact EsMap.get_set_of_ne _ _ _ _ different

structure Connects (w : StreamServer) (runId : RunId) (event : SSEEventEnvelope) : Prop where
  own : event.runId = runId
  type : event.type = .streamConnected
  seq : event.seq = w.service.sequencer.current runId + 1

theorem open_response (w : StreamServer) (id : StreamId) (runId : RunId) (run : Run)
    (seq : Option (Option Int)) : ∃ connected : SSEEventEnvelope, w.Connects runId connected ∧
      (w.openStream id runId run seq).responses.table.get id =
        some ⟨(w.replay seq).map .event ++ [.event connected], false⟩ := by
  have started : (w.responses.start id).table.get id = some ⟨[], false⟩ := EsMap.get_set_self _ _ _
  have replayed := Responses.replay_open (w.replay seq) started
  let connected := ((w.service.registerStream runId id).1.createEnvelope w.now runId
    .streamConnected (.obj [("run_state", .str run.state.value),
      ("replay_from", replayPayload seq)])).2
  exact ⟨connected, ⟨rfl, rfl, rfl⟩, Responses.write_open replayed connected⟩

theorem events_of_chunks (events : List SSEEventEnvelope) :
    (events.map Chunk.event).filterMap Chunk.envelope = events := by
  induction events with
  | nil => rfl
  | cons event rest ih => simp [Chunk.envelope, ih]

theorem open_events (w : StreamServer) (id : StreamId) (runId : RunId) (run : Run)
    (seq : Option (Option Int)) : ∃ connected : SSEEventEnvelope, w.Connects runId connected ∧
      (w.openStream id runId run seq).responses.events id = w.replay seq ++ [connected] := by
  obtain ⟨connected, connects, found⟩ := open_response w id runId run seq
  refine ⟨connected, connects, ?_⟩
  rw [Responses.events, found, Option.map_some, Option.getD_some, List.filterMap_append,
    events_of_chunks]
  rfl

theorem open_mine (other : RunId) (id' : StreamId) :
    (w.openStream id runId run seq).Mine other id' ↔
      if id' = id then other = runId else w.Mine other id' := by
  unfold Mine
  have connections : (w.openStream id runId run seq).connections = w.connections.set id
      ⟨runId, (w.service.registerStream runId id).2, true, true, 0⟩ := rfl
  rw [connections]
  split
  · rename_i here
    subst here
    simp [eq_comm]
  · rename_i here
    simp [EsMap.get_set, here]

theorem Isolated.opens (isolated : w.Isolated) (unused : w.responses.table.has id = false) :
    (w.openStream id runId run seq).Isolated := by
  have absent (other : RunId) : ¬w.Mine other id := by
    intro mine
    rw [isolated.answered other id mine] at unused
    cases unused
  refine ⟨?_, isolated.filed, ?_⟩
  · refine MemorySSEStreamController.Separate.register ?_ ?_
    · refine isolated.separate.mono ?_
      intro other id' mine
      rw [open_mine, if_neg]
      · exact mine
      · rintro rfl
        exact absent other mine
    · rw [open_mine, if_pos rfl]
  · intro other id' mine
    by_cases here : id' = id
    · subst here
      obtain ⟨connected, -, found⟩ := open_response w id' runId run seq
      rw [EsMap.has, found]
      rfl
    · rw [open_mine, if_neg here] at mine
      rw [EsMap.has, open_other here]
      exact isolated.answered other id' mine

end Opened

theorem isolated_of_reach {now : Int}
    (reached : Transition.Reach step Transition.Free (init now) w) : w.Isolated := by
  apply reached.invariant Isolated
  · refine ⟨⟨?_, ?_, ?_⟩, ?_, ?_⟩
    · intro runId set found
      cases found
    · intro runId runId' set found
      cases found
    · intro runId set found
      cases found
    · intro runId event member
      cases member
    · rintro runId id ⟨connection, found, -⟩
      cases found
  · intro s label u _ isolated moved
    rcases step_cases moved with ⟨id, runId, run, seq, unused, rfl⟩ | flows
    · exact isolated.opens unused
    · exact isolated.flows flows

/-- Whatever happens after a stream has been opened, it gets events of its own run only. -/
theorem later_events {id : StreamId} {runId : RunId} (isolated : w.Isolated)
    (mine : w.Mine runId id) (later : Transition.Reach step Transition.Free w w') :
    (∀ event ∈ w.responses.events id, event ∈ w'.responses.events id) ∧
      ∀ event ∈ w'.responses.events id, event ∈ w.responses.events id ∨ event.runId = runId := by
  have held := later.invariant (fun u => u.Isolated ∧ u.Mine runId id ∧
    (∀ event ∈ w.responses.events id, event ∈ u.responses.events id) ∧
      ∀ event ∈ u.responses.events id, event ∈ w.responses.events id ∨ event.runId = runId)
    ⟨isolated, mine, fun _ member => member, fun _ member => .inl member⟩
    (by
      rintro s label u - ⟨isolated, mine, old, new⟩ moved
      rcases step_cases moved with ⟨id', runId', run, seq, unused, rfl⟩ | flows
      · have different : id ≠ id' := by
          rintro rfl
          rw [isolated.answered runId id mine] at unused
          cases unused
        have same : (s.openStream id' runId' run seq).responses.events id = s.responses.events id := by
          rw [Responses.events, open_other different]
          rfl
        rw [same]
        refine ⟨isolated.opens unused, ?_, old, new⟩
        rw [open_mine, if_neg different]
        exact mine
      · have grows := flows.grows isolated.separate
        refine ⟨isolated.flows flows, (flows.mine runId id).mpr mine, ?_, ?_⟩
        · intro event member
          exact grows.old id event (old event member)
        · intro event member
          rcases grows.new id event member with earlier | owned
          · exact new event earlier
          · exact .inr (owned.same mine))
  exact held.2.2

/-- A stream that the owner of a run opens for it carries events of that run only, then and at any
later time, exactly if the replay position leaves out every buffered event of every other run. -/
theorem stream_is_isolated_iff (now : Int) (w w' later : StreamServer)
    (reached : Transition.Reach step Transition.Free (init now) w) (id : StreamId) (runId : RunId)
    (owner : OwnerPrincipal) (run : Run) (replayFrom lastEventId : Option String)
    (accepted : sameOwnerPrincipal run.owner owner = true)
    (opened : w.step (.streamEvents id runId owner (some run) replayFrom lastEventId) = some w')
    (goes : Transition.Reach step Transition.Free w' later) :
    (∀ event ∈ later.responses.events id, event.runId = runId) ↔
      ∀ seq, startSeq replayFrom lastEventId = some (some seq) → ∀ other, other ≠ runId →
        ∀ event ∈ w.service.eventBuffer.getAllForRun other, (event.seq : Int) < seq := by
  have isolated := isolated_of_reach reached
  simp only [step] at opened
  split at opened
  · cases opened
  · rename_i unused
    simp only [streamEvents, if_pos accepted] at opened
    cases opened
    obtain ⟨connected, connects, events⟩ :=
      open_events w id runId run (startSeq replayFrom lastEventId)
    obtain ⟨old, new⟩ := later_events (isolated.opens (by simpa using unused))
      ((open_mine runId id).mpr (by rw [if_pos rfl])) goes
    rw [events] at old new
    have replayed : (∀ event ∈ later.responses.events id, event.runId = runId) ↔
        ∀ event ∈ w.replay (startSeq replayFrom lastEventId), event.runId = runId := by
      constructor
      · intro all event member
        exact all event (old event (List.mem_append_left _ member))
      · intro all event member
        rcases new event member with first | own'
        · rcases List.mem_append.mp first with replayed | latest
          · exact all event replayed
          · rw [List.mem_singleton.mp latest]
            exact connects.own
        · exact own'
    rw [replayed]
    constructor
    · intro all seq position other different event member
      by_contra late
      have drawn : event ∈ w.replay (startSeq replayFrom lastEventId) := by
        rw [position]
        exact (BoundedEventBuffer.mem_getFrom _ seq event).mpr ⟨not_lt.mp late, other, member⟩
      have owned := all event drawn
      rw [isolated.filed other event member] at owned
      exact different owned
    · intro early event member
      cases position : startSeq replayFrom lastEventId with
      | none =>
          rw [position] at member
          cases member
      | some seq =>
          rw [position] at member
          cases seq with
          | none => cases member
          | some seq =>
              obtain ⟨late, other, buffered⟩ := (BoundedEventBuffer.mem_getFrom _ seq event).mp member
              have filed := isolated.filed other event buffered
              rw [filed]
              by_contra different
              have below := early seq position other different event buffered
              omega

def streamedRun : Run :=
  RunManager.newRun .default 0 "a" ⟨some ⟨"acme", "alice"⟩, none, "pack", "hello", none⟩

def queuedLabels : List Label :=
  [.broadcastOrchestratorEvent "run_0_a" .runQueued .null,
    .broadcastOrchestratorEvent "run_0_b" .runQueued .null,
    .broadcastOrchestratorEvent "run_0_a" .runStarted .null]

theorem late_replay_is_isolated :
    ∃ w : StreamServer, (w.responses.events 0).map SSEEventEnvelope.seq = [2, 3] ∧
      ∀ event ∈ w.responses.events 0, event.runId = "run_0_a" := by
  have ran : (Transition.exec (Transition.guarded step Transition.Free) (init 0) queuedLabels).map
      (fun w => (decide (∀ entry ∈ w.service.eventBuffer.buffers.entries, entry.1 ≠ "run_0_a" →
          ∀ event ∈ entry.2, (event.seq : Int) < 2),
        (w.step (.streamEvents 0 "run_0_a" ⟨"acme", "alice"⟩ (some streamedRun) none (some "2"))).map
          (fun w' => (w'.responses.events 0).map SSEEventEnvelope.seq))) =
      some (true, some [2, 3]) := by decide +kernel
  obtain ⟨w, reached, observed⟩ := Transition.reach_of_observed _ _ ran
  obtain ⟨below, opened⟩ := Prod.mk.inj observed
  obtain ⟨w', moved, events⟩ := Option.map_eq_some_iff.mp opened
  have early := (EsMap.forall_entries_iff _ (fun (other : RunId) (events : List SSEEventEnvelope) =>
    other ≠ "run_0_a" → ∀ event ∈ events, (event.seq : Int) < 2)).mp (of_decide_eq_true below)
  refine ⟨w', events, (stream_is_isolated_iff 0 w w' w' reached 0 "run_0_a" ⟨"acme", "alice"⟩
    streamedRun none (some "2") rfl moved .refl).mpr ?_⟩
  intro seq position other different event member
  have two : startSeq none (some "2") = some (some 2) := by decide +kernel
  rw [two] at position
  cases position
  unfold BoundedEventBuffer.getAllForRun at member
  cases found : w.service.eventBuffer.buffers.get other with
  | none =>
      rw [found] at member
      cases member
  | some events =>
      rw [found] at member
      exact early other events found different event member

/-- A client that asks for a replay from the start gets the events of another owner's run. -/
theorem replay_leaks_other_runs :
    ¬∀ w : StreamServer, Transition.Reach step Transition.Free (init 0) w →
      ∀ id runId owner run replayFrom lastEventId w', sameOwnerPrincipal run.owner owner = true →
        w.step (.streamEvents id runId owner (some run) replayFrom lastEventId) = some w' →
          ∀ event ∈ w'.responses.events id, event.runId = runId := by
  intro always
  have ran : (Transition.exec (Transition.guarded step Transition.Free) (init 0) queuedLabels).map
      (fun w =>
        (w.step (.streamEvents 0 "run_0_a" ⟨"acme", "alice"⟩ (some streamedRun) (some "0") none)).map
          (fun w' => (w'.responses.events 0).map SSEEventEnvelope.runId)) =
      some (some ["run_0_a", "run_0_b", "run_0_a", "run_0_a"]) := by decide +kernel
  obtain ⟨w, reached, observed⟩ := Transition.reach_of_observed _ _ ran
  obtain ⟨w', moved, events⟩ := Option.map_eq_some_iff.mp observed
  have own := always w reached 0 "run_0_a" ⟨"acme", "alice"⟩ streamedRun (some "0") none w' rfl moved
  have leaked : "run_0_b" ∈ (w'.responses.events 0).map SSEEventEnvelope.runId := by
    rw [events]
    simp
  obtain ⟨event, member, other⟩ := List.mem_map.mp leaked
  rw [own event member] at other
  exact absurd other (by decide)

end StreamServer

end Minerva
