import Minerva.Sse.Fanout
import Minerva.Sse.Sequence

namespace Minerva

namespace Responses

theorem apart (id : StreamId) :
    MemorySSEStreamController.Apart (fun responses : Responses => responses.table.get id) id := by
  constructor
  · intro responses other event different
    exact write_other responses (Ne.symm different) event
  · intro responses other different
    simp only [SSEStreams.close, finish]
    split
    · rfl
    · exact EsMap.get_set_of_ne _ _ _ _ (Ne.symm different)

theorem finish_other (responses : Responses) {id other : StreamId} (different : other ≠ id) :
    (responses.finish id).table.get other = responses.table.get other :=
  (apart other).close responses id (Ne.symm different)

theorem events_congr {responses responses' : Responses} {id : StreamId}
    (same : responses'.table.get id = responses.table.get id) :
    responses'.events id = responses.events id := by
  rw [events, same, events]

theorem events_finish (responses : Responses) (id other : StreamId) :
    (responses.finish id).events other = responses.events other := by
  by_cases same : other = id
  · subst same
    unfold finish
    split
    · rfl
    · rename_i response found
      rw [events, EsMap.get_set_self, events, found]
      rfl
  · exact events_congr (finish_other responses same)

end Responses

namespace StreamServer

variable {w w' : StreamServer}

/-- The client and the poll of the run have not ended the connection of a stream. -/
def Live (w : StreamServer) (runId : RunId) (id : StreamId) : Prop :=
  ∃ connection, w.connections.get id = some connection ∧ connection.runId = runId ∧
    connection.checkRunState = true

instance (w : StreamServer) (runId : RunId) (id : StreamId) : Decidable (w.Live runId id) :=
  decidable_of_iff (∃ connection ∈ w.connections.get id, connection.runId = runId ∧
    connection.checkRunState = true) Iff.rfl

/-- The run stays open: it is not closed, a poll does not read a terminal state, and a client ends
a connection of the run only once. Lifecycle events have the types of lifecycle events. -/
def Open (runId : RunId) (w : StreamServer) : Label → Prop
  | .disconnect id => ∀ connection ∈ w.connections.get id, connection.runId = runId →
      connection.checkRunState = true
  | .checked id currentRun => ∀ connection ∈ w.connections.get id, connection.runId = runId →
      ∀ run ∈ currentRun, isTerminalState run.state = false
  | .broadcastOrchestratorEvent _ type _ => type ≠ .streamConnected
  | .closeRun about => about ≠ runId
  | _ => True

instance (runId : RunId) (w : StreamServer) : ∀ label, Decidable (Open runId w label)
  | .disconnect id => inferInstanceAs (Decidable (∀ connection ∈ w.connections.get id,
      connection.runId = runId → connection.checkRunState = true))
  | .checked id currentRun => inferInstanceAs (Decidable (∀ connection ∈ w.connections.get id,
      connection.runId = runId → ∀ run ∈ currentRun, isTerminalState run.state = false))
  | .broadcastOrchestratorEvent _ type _ => inferInstanceAs (Decidable (type ≠ .streamConnected))
  | .closeRun about => inferInstanceAs (Decidable (about ≠ runId))
  | .streamEvents .. | .keepAlive _ | .checkRunState _ | .broadcastAgentEvent _ _ | .tick _ =>
      instDecidableTrue

instance (id : StreamId) : ∀ label : Label, Decidable (label ≠ .disconnect id)
  | .disconnect other => decidable_of_iff (other ≠ id) (by simp)
  | .streamEvents .. | .keepAlive _ | .checkRunState _ | .checked _ _ | .broadcastAgentEvent _ _
  | .broadcastOrchestratorEvent .. | .closeRun _ | .tick _ => isTrue nofun

inductive Effect (w : StreamServer) : Label → StreamServer → Prop
  | opens {id : StreamId} {runId : RunId} {owner : OwnerPrincipal} {run : Run}
      {replayFrom lastEventId : Option String} (unused : w.responses.table.has id = false) :
      Effect w (.streamEvents id runId owner (some run) replayFrom lastEventId)
        (w.openStream id runId run (startSeq replayFrom lastEventId))
  | leaves {label : Label} {id : StreamId} {connection : Connection} {checks : Nat}
      (found : w.connections.get id = some connection)
      (ends : label = .disconnect id ∨ ∃ run, isTerminalState run.state = true ∧
        label = .checked id (some run)) :
      Effect w label (w.leave id { connection with checks })
  | notes {label : Label} {id : StreamId} {connection : Connection} {keepAliveTimer : Bool}
      {checks : Nat} (found : w.connections.get id = some connection)
      (quiet : w.airs label = none) (stays : ∀ id, label ≠ .disconnect id) :
      Effect w label
        { w with connections := w.connections.set id { connection with keepAliveTimer, checks } }
  | keepsAlive {id : StreamId} :
      Effect w (.keepAlive id) { w with responses := w.responses.send id .keepAlive }
  | airs {label : Label} {event : SSEEventEnvelope} (airs : w.airs label = some event) :
      Effect w label (w.serve (({ w.service with
        sequencer := (w.service.sequencer.next event.runId).1 } : SSEService).broadcast w.responses
          event.runId event))
  | closes {runId : RunId} :
      Effect w (.closeRun runId) (w.serve (w.service.closeRun w.responses runId))
  /-- Only the counters and the clock may move. -/
  | rests {label : Label} {sequencer : MemoryEventSequencer} {now : Int}
      (quiet : w.airs label = none) (stays : ∀ id, label ≠ .disconnect id) :
      Effect w label { w with service := { w.service with sequencer }, now }

theorem step_effect {label : Label} (moved : w.step label = some w') : Effect w label w' := by
  cases steps_of_step moved with
  | refuses denied => exact .rests rfl (by rintro _ ⟨⟩)
  | opens unused own => exact .opens unused
  | disconnects found => exact .leaves found (.inl rfl)
  | keepsAlive => exact .keepsAlive
  | silences found => exact .notes found rfl (by rintro _ ⟨⟩)
  | checks found => exact .notes found rfl (by rintro _ ⟨⟩)
  | ends found terminal => exact .leaves found (.inr ⟨_, terminal, rfl⟩)
  | goesOn found => exact .notes found rfl (by rintro _ ⟨⟩)
  | @broadcastsAgentEvent runId agentEvent =>
      cases mapped : agentEvent.mapped with
      | none =>
          have quiet : w.airs (.broadcastAgentEvent runId agentEvent) = none := by
            simp [StreamServer.airs, MemoryEventSequencer.map, mapped]
          have skipped : w.service.broadcastAgentEvent w.responses w.now runId agentEvent =
              ({ w.service with sequencer := (w.service.sequencer.next runId).1 }, w.responses) := by
            simp [SSEService.broadcastAgentEvent, MemoryEventSequencer.map, mapped]
          rw [skipped]
          exact .rests quiet (by rintro _ ⟨⟩)
      | some place =>
          have airs : ∃ event, w.airs (.broadcastAgentEvent runId agentEvent) = some event := by
            simp [StreamServer.airs, MemoryEventSequencer.map, mapped]
          obtain ⟨event, airs⟩ := airs
          rw [step_of_airs airs moved]
          exact .airs airs
  | @broadcastsOrchestratorEvent runId type payload =>
      have airs : w.airs (.broadcastOrchestratorEvent runId type payload) =
          some (w.service.sequencer.mapOrchestratorEvent w.now runId type payload).2 := rfl
      rw [step_of_airs airs moved]
      exact .airs airs
  | closes => exact .closes
  | ticks => exact .rests rfl (by rintro _ ⟨⟩)

open MemorySSEStreamController

/-- The stream is in the `Set` of its run, which its connection holds, and its response is open. -/
structure Attached (w : StreamServer) (runId : RunId) (id : StreamId) : Prop where
  member : id ∈ w.service.streamController.connections runId
  own : ∀ connection, w.connections.get id = some connection →
    w.service.streamController.streams.get runId = some connection.cleanup.runStreams
  isOpen : ∃ chunks, w.responses.table.get id = some ⟨chunks, false⟩

structure Linked (runId : RunId) (w : StreamServer) : Prop where
  isolated : w.Isolated
  distinct : w.service.streamController.Distinct
  named : ∀ id connection, w.connections.get id = some connection →
    (connection.cleanup.runId = connection.runId ∧ connection.cleanup.stream = id) ∧
      w.service.streamController.Holds connection.cleanup
  live : ∀ id, w.Live runId id → w.Attached runId id

structure Follows (runId : RunId) (id : StreamId) (heard : List SSEEventEnvelope)
    (w w' : StreamServer) : Prop where
  attached : w'.Attached runId id
  heard : w'.responses.events id = w.responses.events id ++ heard

variable {runId : RunId} {id : StreamId}

theorem Live.mine (live : w.Live runId id) : w.Mine runId id := by
  obtain ⟨connection, found, own, -⟩ := live
  exact ⟨connection, found, own⟩

theorem streams_kept {c c' : MemorySSEStreamController} (member : id ∈ c'.connections runId)
    (goes : ∀ set, c'.streams.get runId = some set → c.streams.get runId = some set) :
    c'.streams.get runId = c.streams.get runId := by
  obtain ⟨set, found, -⟩ := mem_connections_iff.mp member
  rw [found, goes set found]

theorem open_follows (linked : w.Linked runId) (live : w.Live runId id) {id' : StreamId}
    (unused : w.responses.table.has id' = false) (about : RunId) (run : Run)
    (seq : Option (Option Int)) : Follows runId id [] w (w.openStream id' about run seq) := by
  have attached := linked.live id live
  have different : id ≠ id' := by
    rintro rfl
    rw [linked.isolated.answered runId id live.mine] at unused
    cases unused
  have response : (w.openStream id' about run seq).responses.table.get id =
      w.responses.table.get id := open_other different
  refine ⟨⟨?_, ?_, ?_⟩, ?_⟩
  · exact connected_register linked.isolated.separate attached.member about id'
  · intro connection found
    have found' : w.connections.get id = some connection := by
      rw [← found]
      exact (EsMap.get_set_of_ne _ _ _ _ different).symm
    obtain ⟨set, -, streams, -, place⟩ := register_eq w.service.streamController about id'
    refine (streams runId).trans ?_
    have present := attached.own connection found'
    split
    · rename_i same
      subst same
      rcases place with ⟨here, -⟩ | ⟨missing, -, -⟩
      · rw [← here, present]
      · rw [present] at missing
        cases missing
    · exact present
  · obtain ⟨chunks, isOpen⟩ := attached.isOpen
    exact ⟨chunks, response.trans isOpen⟩
  · rw [Responses.events_congr response, List.append_nil]

theorem leave_responses (w : StreamServer) (id : StreamId) (connection : Connection) :
    (w.leave id connection).responses = w.responses ∨
      (w.leave id connection).responses = w.responses.finish connection.cleanup.stream := by
  simp only [leave, MemorySSEStreamController.cleanup]
  split
  · exact .inl rfl
  · exact .inr rfl
  · exact .inl rfl

theorem leave_controller (w : StreamServer) (id : StreamId) (connection : Connection) :
    (w.leave id connection).service.streamController = w.service.streamController.remove
      connection.cleanup.runId connection.cleanup.runStreams [connection.cleanup.stream] :=
  cleanup_controller _ _ _

theorem leave_follows (linked : w.Linked runId) (live : w.Live runId id) {id' : StreamId}
    (different : id ≠ id') {connection : Connection} {checks : Nat}
    (found : w.connections.get id' = some connection)
    (own : connection.runId = runId → connection.checkRunState = true) :
    Follows runId id [] w (w.leave id' { connection with checks }) := by
  have attached := linked.live id live
  obtain ⟨⟨run, stream⟩, -⟩ := linked.named id' connection found
  have elsewhere : id ∉ [connection.cleanup.stream] := by
    rw [stream, List.mem_singleton]
    exact different
  have member : id ∈ (w.leave id' { connection with checks }).service.streamController.connections
      runId := by
    rw [leave_controller]
    apply connected_remove attached.member (fun _ => elsewhere)
    intro same
    rw [run] at same
    exact .inl ((linked.live id' ⟨connection, found, same, own same⟩).own connection found)
  have response : (w.leave id' { connection with checks }).responses.table.get id =
      w.responses.table.get id := by
    rcases leave_responses w id' { connection with checks } with same | finished
    · rw [same]
    · rw [finished]
      apply Responses.finish_other
      rw [stream]
      exact different
  have streams : (w.leave id' { connection with checks }).service.streamController.streams.get
      runId = w.service.streamController.streams.get runId := by
    apply streams_kept member
    intro set
    rw [leave_controller, streams_remove]
    split
    · exact nofun
    · exact fun same => same
  refine ⟨⟨member, ?_, ?_⟩, ?_⟩
  · intro connection' found'
    rw [streams]
    apply attached.own
    rw [← found']
    exact (EsMap.get_set_of_ne _ _ _ _ different).symm
  · rw [response]
    exact attached.isOpen
  · rw [Responses.events_congr response, List.append_nil]

theorem Attached.serves (attached : w.Attached runId id)
    (connections : w'.connections = w.connections)
    (member : id ∈ w'.service.streamController.connections runId)
    (goes : ∀ set, w'.service.streamController.streams.get runId = some set →
      w.service.streamController.streams.get runId = some set)
    (isOpen : ∃ chunks, w'.responses.table.get id = some ⟨chunks, false⟩) :
    w'.Attached runId id := by
  refine ⟨member, ?_, isOpen⟩
  intro connection found
  rw [connections] at found
  rw [streams_kept member goes]
  exact attached.own connection found

theorem broadcast_goes (c : MemorySSEStreamController) (host : Responses) (about : RunId)
    (event : SSEEventEnvelope) (set : Nat)
    (found : (c.broadcast host about event).1.streams.get runId = some set) :
    c.streams.get runId = some set := by
  unfold MemorySSEStreamController.broadcast at found
  split at found
  · exact found
  · simp only [streams_remove] at found
    split at found
    · cases found
    · exact found

theorem broadcast_follows (linked : w.Linked runId) (live : w.Live runId id)
    (sequencer : MemoryEventSequencer) (event : SSEEventEnvelope) :
    Follows runId id ([event].filter (fun event => event.runId = runId)) w
      (w.serve (({ w.service with sequencer } : SSEService).broadcast w.responses event.runId
        event)) := by
  have attached := linked.live id live
  obtain ⟨chunks, isOpen⟩ := attached.isOpen
  by_cases same : event.runId = runId
  · obtain ⟨set, found, inside⟩ := mem_connections_iff.mp attached.member
    obtain ⟨member, turn, before, after⟩ := broadcast_member (Responses.apart id) event
      found (linked.distinct set) inside w.responses (by
        intro turn view
        have here : turn.table.get id = some ⟨chunks, false⟩ := view.trans isOpen
        refine ⟨?_, rfl⟩
        simp [SSEStreams.isOpen, Responses.isOpen, here])
    have taken := Responses.write_open (before.trans isOpen) event
    have response : (w.service.streamController.broadcast w.responses runId event).2.table.get id =
        some ⟨chunks ++ [.event event], false⟩ := after.trans taken
    subst same
    refine ⟨attached.serves rfl member (broadcast_goes _ _ _ _) ⟨_, response⟩, ?_⟩
    have heard : (w.service.streamController.broadcast w.responses event.runId event).2.events id =
        w.responses.events id ++ [event] := by
      rw [Responses.events, response, Responses.events, isOpen]
      simp [Chunk.envelope]
    rw [List.filter_cons_of_pos (by simp)]
    exact heard
  · have absent : id ∉ w.service.streamController.connections event.runId := by
      intro inside
      obtain ⟨set, found, member⟩ := mem_connections_iff.mp inside
      exact same ((linked.isolated.separate.members _ _ found id member).same live.mine)
    have response : (w.service.streamController.broadcast w.responses event.runId
        event).2.table.get id = w.responses.table.get id :=
      broadcast_others (Responses.apart id) absent w.responses
    have member := connected_broadcast linked.isolated.separate attached.member same
      w.responses event
    refine ⟨attached.serves rfl member (broadcast_goes _ _ _ _) ⟨chunks, response.trans isOpen⟩, ?_⟩
    rw [List.filter_cons_of_neg (by simpa using same), List.filter_nil, List.append_nil]
    exact Responses.events_congr response

theorem closeRun_follows (linked : w.Linked runId) (live : w.Live runId id) {about : RunId}
    (different : about ≠ runId) :
    Follows runId id [] w (w.serve (w.service.closeRun w.responses about)) := by
  have attached := linked.live id live
  obtain ⟨chunks, isOpen⟩ := attached.isOpen
  have absent : id ∉ w.service.streamController.connections about := by
    intro inside
    obtain ⟨set, found, member⟩ := mem_connections_iff.mp inside
    exact different ((linked.isolated.separate.members _ _ found id member).same live.mine)
  have response : (w.service.streamController.closeRun w.responses about).2.table.get id =
      w.responses.table.get id := closeRun_others (Responses.apart id) absent w.responses
  have member := connected_closeRun attached.member different w.responses
  refine ⟨attached.serves rfl member ?_ ⟨chunks, response.trans isOpen⟩, ?_⟩
  · intro set found
    have kept : (w.service.streamController.closeRun w.responses about).1.streams.get runId =
        some set := found
    rw [streams_closeRun, if_neg (Ne.symm different)] at kept
    exact kept
  · rw [List.append_nil]
    exact Responses.events_congr response

def airedFor (w : StreamServer) (runId : RunId) (label : Label) : List SSEEventEnvelope :=
  (w.airs label).toList.filter (fun event => event.runId = runId)

theorem leaves_other {label : Label} {id' : StreamId} {connection : Connection}
    (found : w.connections.get id' = some connection) (live : w.Live runId id)
    (opened : w.Open runId label) (stays : label ≠ .disconnect id)
    (ends : label = .disconnect id' ∨ ∃ run, isTerminalState run.state = true ∧
      label = .checked id' (some run)) :
    id ≠ id' ∧ (connection.runId = runId → connection.checkRunState = true) := by
  rcases ends with rfl | ⟨run, terminal, rfl⟩
  · refine ⟨?_, opened connection found⟩
    rintro rfl
    exact stays rfl
  · have elsewhere : ∀ connection' ∈ w.connections.get id', connection'.runId ≠ runId := by
      intro connection' found' own
      have running := opened connection' found' own run rfl
      rw [running] at terminal
      cases terminal
    refine ⟨?_, fun own => absurd own (elsewhere connection found)⟩
    rintro rfl
    obtain ⟨connection', found', own, -⟩ := live
    exact elsewhere connection' found' own

theorem live_follows {label : Label} (linked : w.Linked runId) (live : w.Live runId id)
    (opened : w.Open runId label) (stays : label ≠ .disconnect id) (effect : Effect w label w') :
    Follows runId id (w.airedFor runId label) w w' := by
  have attached := linked.live id live
  cases effect with
  | opens unused => exact open_follows linked live unused _ _ _
  | leaves found ends =>
      obtain ⟨different, own⟩ := leaves_other found live opened stays ends
      rcases ends with rfl | ⟨run, terminal, rfl⟩
      · exact leave_follows linked live different found own
      · exact leave_follows linked live different found own
  | @notes _ id' connection keepAliveTimer checks found quiet _ =>
      rw [airedFor, quiet]
      refine ⟨⟨attached.member, ?_, attached.isOpen⟩, (List.append_nil _).symm⟩
      intro connection' found'
      rcases EsMap.get_set_cases w.connections id' found' with ⟨rfl, rfl⟩ | ⟨-, earlier⟩
      · exact attached.own connection found
      · exact attached.own connection' earlier
  | @keepsAlive id' =>
      obtain ⟨chunks, isOpen⟩ := attached.isOpen
      by_cases same : id = id'
      · subst same
        have sent : (w.responses.send id .keepAlive).table.get id =
            some ⟨chunks ++ [.keepAlive], false⟩ := by
          rw [Responses.send, isOpen]
          exact EsMap.get_set_self _ _ _
        refine ⟨⟨attached.member, attached.own, _, sent⟩, ?_⟩
        rw [Responses.events, sent, Responses.events, isOpen]
        simp [Chunk.envelope, airedFor, airs]
      · have other : (w.responses.send id' .keepAlive).table.get id = w.responses.table.get id := by
          unfold Responses.send
          split
          · rfl
          · split
            · rfl
            · exact EsMap.get_set_of_ne _ _ _ _ same
        refine ⟨⟨attached.member, attached.own, chunks, other.trans isOpen⟩, ?_⟩
        rw [Responses.events_congr other]
        exact (List.append_nil _).symm
  | airs aired =>
      rw [airedFor, aired]
      exact broadcast_follows linked live _ _
  | closes => exact closeRun_follows linked live opened
  | rests quiet _ =>
      rw [airedFor, quiet]
      exact ⟨⟨attached.member, attached.own, attached.isOpen⟩, (List.append_nil _).symm⟩

theorem live_stays {label : Label} (linked : w.Linked runId) (live : w.Live runId id)
    (opened : w.Open runId label) (stays : label ≠ .disconnect id) (effect : Effect w label w') :
    w'.Live runId id := by
  obtain ⟨connection, found, own, running⟩ := live
  cases effect with
  | @opens id' _ _ _ _ _ unused =>
      have different : id ≠ id' := by
        rintro rfl
        rw [linked.isolated.answered runId id ⟨connection, found, own⟩] at unused
        cases unused
      exact ⟨connection, (EsMap.get_set_of_ne _ _ _ _ different).trans found, own, running⟩
  | leaves found' ends =>
      obtain ⟨different, -⟩ := leaves_other found' ⟨connection, found, own, running⟩ opened stays ends
      exact ⟨connection, (EsMap.get_set_of_ne _ _ _ _ different).trans found, own, running⟩
  | @notes _ id' connection' keepAliveTimer checks found' _ _ =>
      by_cases same : id = id'
      · subst same
        rw [found] at found'
        cases found'
        exact ⟨_, EsMap.get_set_self _ _ _, own, running⟩
      · exact ⟨connection, (EsMap.get_set_of_ne _ _ _ _ same).trans found, own, running⟩
  | keepsAlive => exact ⟨connection, found, own, running⟩
  | airs _ => exact ⟨connection, found, own, running⟩
  | closes => exact ⟨connection, found, own, running⟩
  | rests _ _ => exact ⟨connection, found, own, running⟩

theorem live_before {label : Label} (effect : Effect w label w') (live : w'.Live runId id) :
    (∃ run seq, w' = w.openStream id runId run seq ∧ w.responses.table.has id = false) ∨
      w.Live runId id ∧ label ≠ .disconnect id := by
  obtain ⟨connection, found, own, running⟩ := live
  cases effect with
  | @opens id' about owner run _ _ unused =>
      rcases EsMap.get_set_cases w.connections id' found with ⟨rfl, rfl⟩ | ⟨-, earlier⟩
      · subst own
        exact .inl ⟨run, _, rfl, unused⟩
      · exact .inr ⟨⟨connection, earlier, own, running⟩, nofun⟩
  | @leaves _ id' connection' checks found' ends =>
      rcases EsMap.get_set_cases w.connections id' found with ⟨rfl, rfl⟩ | ⟨different, earlier⟩
      · cases running
      · refine .inr ⟨⟨connection, earlier, own, running⟩, ?_⟩
        rintro rfl
        rcases ends with same | ⟨run, -, impossible⟩
        · cases same
          exact different rfl
        · cases impossible
  | @notes _ id' connection' keepAliveTimer checks found' quiet stays =>
      refine .inr ⟨?_, stays id⟩
      rcases EsMap.get_set_cases w.connections id' found with ⟨rfl, rfl⟩ | ⟨-, earlier⟩
      · exact ⟨connection', found', own, running⟩
      · exact ⟨connection, earlier, own, running⟩
  | keepsAlive => exact .inr ⟨⟨connection, found, own, running⟩, nofun⟩
  | airs aired =>
      refine .inr ⟨⟨connection, found, own, running⟩, ?_⟩
      rintro rfl
      cases aired
  | closes => exact .inr ⟨⟨connection, found, own, running⟩, nofun⟩
  | rests _ stays => exact .inr ⟨⟨connection, found, own, running⟩, stays id⟩

theorem opened_attached (w : StreamServer) (id : StreamId) (runId : RunId) (run : Run)
    (seq : Option (Option Int)) : (w.openStream id runId run seq).Attached runId id := by
  obtain ⟨connected, -, response⟩ := open_response w id runId run seq
  obtain ⟨set, cleanup, streams, -, -⟩ := register_eq w.service.streamController runId id
  refine ⟨register_connected w.service.streamController runId id, ?_, _, response⟩
  intro connection found
  have here := found.symm.trans (EsMap.get_set_self w.connections id _)
  cases here
  have own : (w.service.streamController.register runId id).2.runStreams = set := by rw [cleanup]
  exact (streams runId).trans (by rw [if_pos rfl]; exact congrArg some own.symm)

theorem connections_step {label : Label} (effect : Effect w label w')
    (isolated : w.Isolated) (named : ∀ id connection, w.connections.get id = some connection →
      (connection.cleanup.runId = connection.runId ∧ connection.cleanup.stream = id) ∧
        w.service.streamController.Holds connection.cleanup) :
    ∀ id connection, w'.connections.get id = some connection →
      (connection.cleanup.runId = connection.runId ∧ connection.cleanup.stream = id) ∧
        w'.service.streamController.Holds connection.cleanup := by
  intro id connection found
  cases effect with
  | @opens id' about _ run _ _ _ =>
      rcases EsMap.get_set_cases w.connections id' found with ⟨rfl, rfl⟩ | ⟨-, earlier⟩
      · obtain ⟨set, cleanup, -⟩ := register_eq w.service.streamController about id
        refine ⟨?_, register_holds isolated.separate about id⟩
        show (w.service.streamController.register about id).2.runId = about ∧
          (w.service.streamController.register about id).2.stream = id
        rw [cleanup]
        exact ⟨rfl, rfl⟩
      · obtain ⟨own, holds⟩ := named id connection earlier
        exact ⟨own, holds.register about id'⟩
  | @leaves _ id' connection' checks found' _ =>
      rw [leave_controller]
      rcases EsMap.get_set_cases w.connections id' found with ⟨rfl, rfl⟩ | ⟨-, earlier⟩
      · obtain ⟨own, holds⟩ := named id connection' found'
        exact ⟨own, holds.remove _ _ _⟩
      · obtain ⟨own, holds⟩ := named id connection earlier
        exact ⟨own, holds.remove _ _ _⟩
  | @notes _ id' connection' keepAliveTimer checks found' _ _ =>
      rcases EsMap.get_set_cases w.connections id' found with ⟨rfl, rfl⟩ | ⟨-, earlier⟩
      · exact named id connection' found'
      · exact named id connection earlier
  | keepsAlive => exact named id connection found
  | airs aired =>
      obtain ⟨own, holds⟩ := named id connection found
      exact ⟨own, holds.broadcast w.responses _ _⟩
  | closes =>
      obtain ⟨own, holds⟩ := named id connection found
      exact ⟨own, holds.closeRun w.responses _⟩
  | rests _ _ => exact named id connection found

theorem distinct_step {label : Label} (effect : Effect w label w')
    (distinct : w.service.streamController.Distinct) :
    w'.service.streamController.Distinct := by
  cases effect with
  | opens _ => exact distinct.register _ _
  | leaves _ _ =>
      rw [leave_controller]
      exact distinct.remove _ _ _
  | notes _ _ _ => exact distinct
  | keepsAlive => exact distinct
  | airs _ => exact distinct.broadcast w.responses _ _
  | closes => exact distinct.closeRun w.responses _
  | rests _ _ => exact distinct

theorem linked_step {label : Label} (linked : w.Linked runId) (opened : w.Open runId label)
    (moved : w.step label = some w') : w'.Linked runId := by
  have effect := step_effect moved
  refine ⟨?_, distinct_step effect linked.distinct, connections_step effect linked.isolated
    linked.named, ?_⟩
  · rcases step_cases moved with ⟨id, about, run, seq, unused, rfl⟩ | flows
    · exact linked.isolated.opens unused
    · exact linked.isolated.flows flows
  · intro id live
    rcases live_before effect live with ⟨run, seq, rfl, -⟩ | ⟨before, stays⟩
    · exact opened_attached w id runId run seq
    · exact (live_follows linked before opened stays effect).attached

theorem init_linked (now : Int) (runId : RunId) : (init now).Linked runId where
  isolated := isolated_of_reach .refl
  distinct := fun _ => List.nodup_nil
  named := (fun _ _ found => by cases found)
  live := (fun _ ⟨_, found, _⟩ => by cases found)

end StreamServer

end Minerva
