import Minerva.Sse.Attached

/-! A client of an open run that reconnects with the number of the last event that it has received: what
it gets over its two connections. -/

namespace Minerva

namespace BoundedEventBuffer

/-- A replay keeps the order of the events of one run, which its own buffer has by their numbers. -/
theorem getFrom_own {buffer : BoundedEventBuffer} (filed : buffer.Filed) (runId : RunId) (seq : Int)
    (sorted : (buffer.getAllForRun runId).Pairwise (fun a b => a.seq < b.seq)) :
    (buffer.getFrom seq).filter (fun event => event.runId = runId) =
      (buffer.getAllForRun runId).filter (fun event => seq ≤ event.seq) := by
  let listed := buffer.buffers.values.flatten.filter (fun event => decide (seq ≤ event.seq))
  have own : listed.filter (fun event => event.runId = runId) =
      (buffer.getAllForRun runId).filter (fun event => seq ≤ event.seq) := by
    rw [List.filter_comm, EsMap.filter_values_flatten buffer.buffers runId
      SSEEventEnvelope.runId filed]
    rfl
  have ordered : (listed.filter (fun event => event.runId = runId)).Pairwise
      (fun a b => a.seq ≤ b.seq) := by
    rw [own]
    exact (sorted.filter _).imp Nat.le_of_lt
  have inside := List.sublist_insertionSort ordered (List.filter_sublist (l := listed))
  have kept := inside.filter (fun event => event.runId = runId)
  rw [List.filter_filter] at kept
  simp only [Bool.and_self] at kept
  rw [← own]
  refine (kept.eq_of_length ?_).symm
  exact ((List.perm_insertionSort _ listed).filter _).length_eq.symm

theorem getAllForRun_push (buffer : BoundedEventBuffer) (event : SSEEventEnvelope) (runId : RunId)
    (room : (buffer.getAllForRun runId ++
      [event].filter (fun event => event.runId = runId)).length ≤ buffer.maxSize) :
    (buffer.push event).getAllForRun runId =
      buffer.getAllForRun runId ++ [event].filter (fun event => event.runId = runId) := by
  by_cases same : event.runId = runId
  · subst same
    rw [List.filter_cons_of_pos (by simp), List.filter_nil] at room ⊢
    have pushed : (buffer.push event).getAllForRun event.runId =
        if (buffer.getAllForRun event.runId ++ [event]).length > buffer.maxSize
        then (buffer.getAllForRun event.runId ++ [event]).tail
        else buffer.getAllForRun event.runId ++ [event] :=
      congrArg (fun events => events.getD []) (EsMap.get_set_self buffer.buffers event.runId _)
    rw [pushed, if_neg (Nat.not_lt.mpr room)]
  · rw [List.filter_cons_of_neg (by simpa using same), List.filter_nil, List.append_nil]
    simp only [getAllForRun, push]
    rw [EsMap.get_set_of_ne _ _ _ _ (Ne.symm same)]

end BoundedEventBuffer

namespace StreamServer

open Transition (Path)

variable {w w' : StreamServer} {runId : RunId} {id : StreamId}

/-- The response of a stream has ended with some chunks. -/
def Ended (w : StreamServer) (id : StreamId) (chunks : List Chunk) : Prop :=
  w.responses.table.get id = some ⟨chunks, true⟩

theorem send_ended {responses : Responses} {chunks : List Chunk} (other : StreamId) (chunk : Chunk)
    (ended : responses.table.get id = some ⟨chunks, true⟩) :
    (responses.send other chunk).table.get id = some ⟨chunks, true⟩ := by
  unfold Responses.send
  split
  · exact ended
  · split
    · exact ended
    · rename_i response found running
      by_cases same : id = other
      · subst same
        rw [ended] at found
        cases found
        exact absurd rfl running
      · exact (EsMap.get_set_of_ne _ _ _ _ same).trans ended

theorem finish_ended {responses : Responses} {chunks : List Chunk} (other : StreamId)
    (ended : responses.table.get id = some ⟨chunks, true⟩) :
    (responses.finish other).table.get id = some ⟨chunks, true⟩ := by
  by_cases same : id = other
  · subst same
    rw [Responses.finish, ended]
    exact EsMap.get_set_self _ _ _
  · exact (Responses.finish_other responses same).trans ended

theorem ended_step {label : Label} {chunks : List Chunk} (ended : w.Ended id chunks)
    (effect : Effect w label w') : w'.Ended id chunks := by
  unfold Ended at ended ⊢
  have write : ∀ (host : Responses) (other : StreamId) (event : SSEEventEnvelope),
      host.table.get id = some ⟨chunks, true⟩ →
        (SSEStreams.write host other event).1.table.get id = some ⟨chunks, true⟩ :=
    fun host other event ended => send_ended other (.event event) ended
  have close : ∀ (host : Responses) (other : StreamId),
      host.table.get id = some ⟨chunks, true⟩ →
        (SSEStreams.close host other).1.table.get id = some ⟨chunks, true⟩ :=
    fun host other ended => finish_ended other ended
  cases effect with
  | @opens id' _ _ _ _ _ unused =>
      have different : id ≠ id' := by
        rintro rfl
        rw [EsMap.has, ended] at unused
        cases unused
      exact (open_other different).trans ended
  | @leaves _ id' connection checks _ _ =>
      rcases leave_responses w id' { connection with checks } with same | finished
      · rw [same]
        exact ended
      · rw [finished]
        exact finish_ended _ ended
  | notes _ _ _ => exact ended
  | keepsAlive => exact send_ended _ _ ended
  | airs _ => exact MemorySSEStreamController.broadcast_keeps _ write close _ _ _ _ ended
  | closes => exact MemorySSEStreamController.closeRun_keeps _ close _ _ _ ended
  | rests _ _ => exact ended

theorem leave_ended (linked : w.Linked runId) (live : w.Live runId id)
    (moved : w.step (.disconnect id) = some w') :
    ∃ chunks, w'.Ended id chunks ∧ w'.responses.events id = w.responses.events id := by
  obtain ⟨connection, found, rfl⟩ := Option.map_eq_some_iff.mp moved
  obtain ⟨chunks, isOpen⟩ := (linked.live id live).isOpen
  obtain ⟨⟨-, stream⟩, -⟩ := linked.named id connection found
  have finished : (w.leave id connection).responses = w.responses.finish id := by
    simp only [leave, MemorySSEStreamController.cleanup, stream, SSEStreams.isOpen,
      Responses.isOpen, isOpen]
    rfl
  refine ⟨chunks, ?_, ?_⟩
  · unfold Ended
    rw [finished, Responses.finish, isOpen]
    exact EsMap.get_set_self _ _ _
  · rw [finished, Responses.events_finish]

def broadcasts (w : StreamServer) (runId : RunId) (labels : List Label) : List SSEEventEnvelope :=
  (w.aired labels).filter (fun event => event.runId = runId)

theorem broadcasts_cons {label : Label} {rest : List Label} (moved : w.step label = some w') :
    w.broadcasts runId (label :: rest) = w.airedFor runId label ++ w'.broadcasts runId rest := by
  rw [broadcasts, aired_cons moved, List.filter_append]
  rfl

theorem events_of_ended {labels : List Label} {chunks : List Chunk} (ended : w.Ended id chunks)
    (path : Path step (Open runId) w labels w') : w'.responses.events id = w.responses.events id := by
  have later := path.invariant (fun w => w.Ended id chunks) ended
    (fun _ _ _ _ ended moved => ended_step ended (step_effect moved))
  exact Responses.events_congr (later.trans ended.symm)

theorem events_of_live {labels : List Label} (linked : w.Linked runId) (live : w.Live runId id)
    (path : Path step (fun w label => w.Open runId label ∧ label ≠ .disconnect id) w labels w') :
    w'.responses.events id = w.responses.events id ++ w.broadcasts runId labels := by
  induction path with
  | nil => exact (List.append_nil _).symm
  | cons meets moved _ ih =>
      obtain ⟨opened, stays⟩ := meets
      have effect := step_effect moved
      have later := ih (linked_step linked opened moved) (live_stays linked live opened stays effect)
      rw [later, (live_follows linked live opened stays effect).heard, broadcasts_cons moved,
        List.append_assoc]

theorem events_prefix {labels : List Label} (linked : w.Linked runId) (live : w.Live runId id)
    (path : Path step (Open runId) w labels w') :
    ∃ heard, w'.responses.events id = w.responses.events id ++ heard ∧
      heard <+: w.broadcasts runId labels := by
  induction path with
  | nil => exact ⟨[], (List.append_nil _).symm, List.nil_prefix⟩
  | @cons s t u label rest opened moved path ih =>
      by_cases leaves : label = .disconnect id
      · subst leaves
        obtain ⟨chunks, ended, same⟩ := leave_ended linked live moved
        refine ⟨[], ?_, List.nil_prefix⟩
        rw [events_of_ended ended path, same, List.append_nil]
      · have effect := step_effect moved
        obtain ⟨heard, later, upTo⟩ := ih (linked_step linked opened moved)
          (live_stays linked live opened leaves effect)
        refine ⟨s.airedFor runId label ++ heard, ?_, ?_⟩
        · rw [later, (live_follows linked live opened leaves effect).heard, List.append_assoc]
        · rw [broadcasts_cons moved]
          exact (List.prefix_append_right_inj _).mpr upTo

theorem buffer_step {label : Label} (opened : w.Open runId label) (effect : Effect w label w')
    (room : (w.service.eventBuffer.getAllForRun runId ++ w.airedFor runId label).length ≤
      w.service.eventBuffer.maxSize) :
    w'.service.eventBuffer.getAllForRun runId =
        w.service.eventBuffer.getAllForRun runId ++ w.airedFor runId label ∧
      w'.service.eventBuffer.maxSize = w.service.eventBuffer.maxSize := by
  cases effect with
  | opens _ => exact ⟨(List.append_nil _).symm, rfl⟩
  | leaves _ ends => rcases ends with rfl | ⟨run, -, rfl⟩ <;> exact ⟨(List.append_nil _).symm, rfl⟩
  | notes _ quiet _ =>
      rw [airedFor, quiet]
      exact ⟨(List.append_nil _).symm, rfl⟩
  | keepsAlive => exact ⟨(List.append_nil _).symm, rfl⟩
  | airs aired =>
      rw [airedFor, aired] at room ⊢
      exact ⟨BoundedEventBuffer.getAllForRun_push _ _ _ room, rfl⟩
  | closes =>
      refine ⟨?_, rfl⟩
      refine Eq.trans ?_ (List.append_nil _).symm
      exact congrArg (fun events : Option (List SSEEventEnvelope) => events.getD [])
        (EsMap.get_delete_of_ne w.service.eventBuffer.buffers _ _ (Ne.symm opened))
  | rests quiet _ =>
      rw [airedFor, quiet]
      exact ⟨(List.append_nil _).symm, rfl⟩

theorem buffer_of_path {labels : List Label} (path : Path step (Open runId) w labels w')
    (room : (w.service.eventBuffer.getAllForRun runId ++ w.broadcasts runId labels).length ≤
      w.service.eventBuffer.maxSize) :
    w'.service.eventBuffer.getAllForRun runId =
        w.service.eventBuffer.getAllForRun runId ++ w.broadcasts runId labels ∧
      w'.service.eventBuffer.maxSize = w.service.eventBuffer.maxSize := by
  induction path with
  | nil => exact ⟨(List.append_nil _).symm, rfl⟩
  | cons opened moved _ ih =>
      rw [broadcasts_cons moved, ← List.append_assoc] at room ⊢
      obtain ⟨pushed, size⟩ := buffer_step opened (step_effect moved)
        (Nat.le_trans (by simp) room)
      rw [← pushed, ← size] at room
      obtain ⟨filled, size'⟩ := ih room
      exact ⟨filled.trans (by rw [pushed]), size'.trans size⟩

theorem current_of_path {labels : List Label} (path : Path step (Open runId) w labels w') :
    w'.service.sequencer.current runId = (labels.filterMap (Label.use runId)).foldl
      Numbering.Use.advance (w.service.sequencer.current runId) := by
  induction path with
  | nil => rfl
  | @cons s t u label rest _ moved _ ih =>
      rw [ih, step_current moved runId]
      cases use : label.use runId with
      | none => simp [use]
      | some use' => simp [use]

theorem use_eq_reset {label : Label} (use : label.use runId = some .reset) :
    label = .closeRun runId := by
  cases label with
  | streamEvents id about owner run replayFrom lastEventId =>
      simp only [Label.use] at use
      split at use <;> cases use
  | broadcastAgentEvent about agentEvent =>
      simp only [Label.use] at use
      split at use
      · split at use <;> cases use
      · cases use
  | broadcastOrchestratorEvent about type payload =>
      simp only [Label.use] at use
      split at use <;> cases use
  | closeRun about =>
      simp only [Label.use] at use
      split at use
      · rename_i same
        rw [same]
      · cases use
  | _ => cases use

theorem seqs_of_path {labels : List Label} (path : Path step (Open runId) w labels w') :
    (w.broadcasts runId labels).Pairwise (fun a b => a.seq < b.seq) ∧
      ∀ event ∈ w.broadcasts runId labels, w.service.sequencer.current runId < event.seq ∧
        event.seq ≤ w'.service.sequencer.current runId := by
  have kept : .reset ∉ labels.filterMap (Label.use runId) := by
    intro reset
    obtain ⟨label, member, use⟩ := List.mem_filterMap.mp reset
    have closes := use_eq_reset use
    exact path.forall_labels (fun label => label ≠ .closeRun runId)
      (by rintro w _ opened rfl; exact opened rfl) label member closes
  obtain ⟨sorted, bounded⟩ := Numbering.published_increasing (w.service.sequencer.current runId) _ kept
  rw [← current_of_path path] at bounded
  rw [← airedSeqs_eq_published runId labels path.exec_eq] at sorted bounded
  refine ⟨List.pairwise_map.mp sorted, ?_⟩
  intro event member
  exact bounded event.seq (List.mem_map_of_mem member)

theorem linked_of_path {now : Int} {labels : List Label}
    (path : Path step (Open runId) (init now) labels w) : w.Linked runId :=
  path.invariant (Linked runId) (init_linked now runId)
    (fun _ _ _ opened linked moved => linked_step linked opened moved)

theorem mapped_type {agentEvent : AgentEvent} {place : SSEEventType × Json}
    (mapped : agentEvent.mapped = some place) : place.1 ≠ .streamConnected := by
  unfold AgentEvent.mapped at mapped
  split at mapped <;> cases mapped <;> exact nofun

theorem airs_type {label : Label} {event : SSEEventEnvelope} (opened : w.Open runId label)
    (airs : w.airs label = some event) : event.type ≠ .streamConnected := by
  cases label with
  | broadcastAgentEvent about agentEvent =>
      simp only [StreamServer.airs, MemoryEventSequencer.map, Option.map_eq_some_iff] at airs
      obtain ⟨place, mapped, rfl⟩ := airs
      exact mapped_type mapped
  | broadcastOrchestratorEvent about type payload =>
      cases airs
      exact opened
  | _ => cases airs

theorem type_of_path {labels : List Label} (path : Path step (Open runId) w labels w') :
    ∀ event ∈ w.broadcasts runId labels, event.type ≠ .streamConnected := by
  induction path with
  | nil => exact fun _ member => absurd member List.not_mem_nil
  | cons opened moved _ ih =>
      intro event member
      rw [broadcasts_cons moved] at member
      rcases List.mem_append.mp member with here | later
      · have airs := Option.mem_toList.mp (List.mem_filter.mp here).1
        exact airs_type opened airs
      · exact ih event later

def ofRun (runId : RunId) (received : List SSEEventEnvelope) : List SSEEventEnvelope :=
  (received.filter (fun event => event.runId = runId)).filter
    (fun event => event.type ≠ .streamConnected)

theorem ofRun_append (runId : RunId) (first second : List SSEEventEnvelope) :
    ofRun runId (first ++ second) = ofRun runId first ++ ofRun runId second := by
  simp [ofRun]

theorem ofRun_connected {connected : SSEEventEnvelope} (connects : w.Connects runId connected) :
    ofRun runId [connected] = [] := by
  simp [ofRun, connects.own, connects.type]

theorem ofRun_eq_self {events : List SSEEventEnvelope} (own : ∀ event ∈ events, event.runId = runId)
    (types : ∀ event ∈ events, event.type ≠ .streamConnected) : ofRun runId events = events := by
  have first : events.filter (fun event => event.runId = runId) = events :=
    List.filter_eq_self.mpr (by simpa using own)
  rw [ofRun, first]
  exact List.filter_eq_self.mpr (by simpa using types)

theorem broadcasts_own (w : StreamServer) (labels : List Label) :
    ∀ event ∈ w.broadcasts runId labels, event.runId = runId := by
  intro event member
  simpa using (List.mem_filter.mp member).2

theorem startSeq_toString (n : Nat) : startSeq none (some (toString n)) = some (some (n : Int)) := by
  have kept : truthy (some (toString n)) = some (toString n) := by
    rw [truthy, Option.filter_some, if_pos (by simp)]
  rw [startSeq, Option.none_or, kept, Option.map_some, parseInt_toString]

theorem streamEvents_opens {owner : OwnerPrincipal} {run : Run} {replayFrom lastEventId : Option String}
    (accepted : sameOwnerPrincipal run.owner owner = true)
    (moved : w.step (.streamEvents id runId owner (some run) replayFrom lastEventId) = some w') :
    w' = w.openStream id runId run (startSeq replayFrom lastEventId) := by
  simp only [step, streamEvents, if_pos accepted] at moved
  split at moved
  · cases moved
  · exact (Option.some.inj moved).symm

/-- What a client receives on a connection that it opens with the number of an event of the run and
keeps: the buffered events of the run from that event on, and the later ones. -/
theorem resumed_events {labels : List Label} {w₂ w₃ w₄ : StreamServer} (linked : w₂.Linked runId)
    (sorted : (w₂.service.eventBuffer.getAllForRun runId).Pairwise (fun a b => a.seq < b.seq))
    (types : ∀ event ∈ w₂.service.eventBuffer.getAllForRun runId, event.type ≠ .streamConnected)
    {owner : OwnerPrincipal} {run : Run} (accepted : sameOwnerPrincipal run.owner owner = true)
    {n : Nat} (reconnects : w₂.step (.streamEvents id runId owner (some run) none
      (some (toString n))) = some w₃)
    (after : Path step (fun w label => w.Open runId label ∧ label ≠ .disconnect id) w₃ labels w₄) :
    ofRun runId (w₄.responses.events id) =
      (w₂.service.eventBuffer.getAllForRun runId).filter (fun event => n ≤ event.seq) ++
        w₃.broadcasts runId labels := by
  have linked₃ := linked_step linked (by exact trivial) reconnects
  have opens := streamEvents_opens accepted reconnects
  rw [startSeq_toString] at opens
  have live : w₃.Live runId id := by
    rw [opens]
    exact ⟨_, EsMap.get_set_self _ _ _, rfl, rfl⟩
  obtain ⟨connected, connects, events⟩ := open_events w₂ id runId run (some (some (n : Int)))
  have replayed : ofRun runId (w₂.replay (some (some (n : Int)))) =
      (w₂.service.eventBuffer.getAllForRun runId).filter (fun event => n ≤ event.seq) := by
    have own := BoundedEventBuffer.getFrom_own linked.isolated.filed runId (n : Int) sorted
    rw [ofRun, replay, SSEService.getBufferedEventsFrom, own]
    have kept : ∀ event ∈ (w₂.service.eventBuffer.getAllForRun runId).filter
        (fun event => (n : Int) ≤ event.seq), event.type ≠ .streamConnected :=
      fun event member => types event (List.mem_filter.mp member).1
    rw [List.filter_eq_self.mpr (by simpa using kept)]
    simp
  have path := after.mono (fun _ _ meets => meets.1)
  rw [events_of_live linked₃ live after, ofRun_append, opens, events, ofRun_append, replayed,
    ofRun_connected connects, List.append_nil, ← opens,
    ofRun_eq_self (broadcasts_own w₃ labels) (type_of_path path)]

/-- An open run at the moment of a reconnection: what its buffer holds and what the first connection
has been sent. -/
structure Interrupted (w : StreamServer) (runId : RunId) (id : StreamId)
    (connected : SSEEventEnvelope) (older newer heard : List SSEEventEnvelope) : Prop where
  linked : w.Linked runId
  buffered : w.service.eventBuffer.getAllForRun runId = older ++ newer
  sorted : (older ++ newer).Pairwise (fun a b => a.seq < b.seq)
  early : ∀ event ∈ older, event.seq < connected.seq
  late : ∀ event ∈ newer, connected.seq < event.seq
  types : ∀ event ∈ older ++ newer, event.type ≠ .streamConnected
  own : ∀ event ∈ newer, event.runId = runId
  connects : connected.runId = runId ∧ connected.type = .streamConnected
  events : w.responses.events id = connected :: heard
  upTo : heard <+: newer

theorem interrupted (now : Int) {labels₀ labels₁ : List Label} {w₀ w₁ w₂ : StreamServer}
    {owner : OwnerPrincipal} {run : Run} (before : Path step (Open runId) (init now) labels₀ w₀)
    (accepted : sameOwnerPrincipal run.owner owner = true)
    (connects : w₀.step (.streamEvents id runId owner (some run) none none) = some w₁)
    (between : Path step (Open runId) w₁ labels₁ w₂)
    (fits : ((init now).broadcasts runId labels₀ ++ w₁.broadcasts runId labels₁).length ≤ 1000) :
    ∃ connected heard, Interrupted w₂ runId id connected ((init now).broadcasts runId labels₀)
      (w₁.broadcasts runId labels₁) heard := by
  have linked₀ := linked_of_path before
  have linked₁ := linked_step linked₀ (by exact trivial) connects
  have drawn := step_current connects runId
  have opens := streamEvents_opens accepted connects
  obtain ⟨connected, opening, events₁⟩ := open_events w₀ id runId run (startSeq none none)
  rw [← opens] at events₁
  have live : w₁.Live runId id := by
    rw [opens]
    exact ⟨_, EsMap.get_set_self _ _ _, rfl, rfl⟩
  obtain ⟨heard, sent, upTo⟩ := events_prefix linked₁ live between
  have empty : (init now).service.eventBuffer.getAllForRun runId = [] := rfl
  have size : (init now).service.eventBuffer.maxSize = 1000 := rfl
  obtain ⟨filled₀, size₀⟩ := buffer_of_path before (by
    simp only [empty, size, List.nil_append, List.length_append] at fits ⊢
    omega)
  rw [empty, List.nil_append] at filled₀
  have kept : w₁.service.eventBuffer = w₀.service.eventBuffer := by rw [opens]; rfl
  obtain ⟨filled, -⟩ := buffer_of_path between (by rw [kept, filled₀, size₀, size]; exact fits)
  obtain ⟨sorted₀, bounded₀⟩ := seqs_of_path before
  obtain ⟨sorted₁, bounded₁⟩ := seqs_of_path between
  have early : ∀ event ∈ (init now).broadcasts runId labels₀, event.seq < connected.seq := by
    intro event member
    rw [opening.seq]
    exact Nat.lt_succ_of_le (bounded₀ event member).2
  have counter : w₁.service.sequencer.current runId = connected.seq := by
    simpa [Label.use, accepted, Numbering.Use.advance, opening.seq] using drawn
  have late : ∀ event ∈ w₁.broadcasts runId labels₁, connected.seq < event.seq := by
    intro event member
    rw [← counter]
    exact (bounded₁ event member).1
  refine ⟨connected, heard, ?_⟩
  constructor
  · exact between.invariant (Linked runId) linked₁
      (fun _ _ _ opened linked moved => linked_step linked opened moved)
  · rw [filled, kept, filled₀]
  · refine List.pairwise_append.mpr ⟨sorted₀, sorted₁, ?_⟩
    intro a first b second
    exact Nat.lt_trans (early a first) (late b second)
  · exact early
  · exact late
  · intro event member
    rcases List.mem_append.mp member with first | second
    · exact type_of_path before event first
    · exact type_of_path between event second
  · exact broadcasts_own w₁ labels₁
  · exact ⟨opening.own, opening.type⟩
  · rw [sent, events₁]
    rfl
  · exact upTo

theorem filter_from {older later : List SSEEventEnvelope} {seq : Nat}
    (below : ∀ event ∈ older, event.seq < seq) (onwards : ∀ event ∈ later, seq ≤ event.seq) :
    (older ++ later).filter (fun event => seq ≤ event.seq) = later := by
  have gone : older.filter (fun event => seq ≤ event.seq) = [] := by
    rw [List.filter_eq_nil_iff]
    intro event member
    have less := below event member
    simp only [decide_eq_true_iff]
    omega
  have kept : later.filter (fun event => seq ≤ event.seq) = later := by
    rw [List.filter_eq_self]
    intro event member
    exact decide_eq_true (onwards event member)
  rw [List.filter_append, gone, kept, List.nil_append]

theorem filter_from_item {older later : List SSEEventEnvelope} {last : SSEEventEnvelope}
    (sorted : (older ++ last :: later).Pairwise (fun a b => a.seq < b.seq)) :
    (older ++ last :: later).filter (fun event => last.seq ≤ event.seq) = last :: later := by
  obtain ⟨-, after, across⟩ := List.pairwise_append.mp sorted
  apply filter_from
  · intro event member
    exact across event member last List.mem_cons_self
  · intro event member
    rcases List.mem_cons.mp member with rfl | further
    · exact Nat.le_refl _
    · exact Nat.le_of_lt ((List.pairwise_cons.mp after).1 event further)

/-- Over two connections of an open run, the second one opened with the number of the last event that was
received on the first, a client gets the events that were broadcast in the meantime once each and in order
exactly if it had not yet received any of them. -/
theorem resume_is_exact_iff (now : Int) (runId : RunId) (labels₀ labels₁ labels₂ : List Label)
    (w₀ w₁ w₂ w₃ w₄ : StreamServer) (id₁ id₂ : StreamId) (owner₁ owner₂ : OwnerPrincipal)
    (run₁ run₂ : Run) (before : Path step (Open runId) (init now) labels₀ w₀)
    (accepted₁ : sameOwnerPrincipal run₁.owner owner₁ = true)
    (connects : w₀.step (.streamEvents id₁ runId owner₁ (some run₁) none none) = some w₁)
    (between : Path step (Open runId) w₁ labels₁ w₂) (count : Nat) (last : SSEEventEnvelope)
    (received : ((w₂.responses.events id₁).take count).getLast? = some last)
    (accepted₂ : sameOwnerPrincipal run₂.owner owner₂ = true)
    (reconnects : w₂.step (.streamEvents id₂ runId owner₂ (some run₂) none
      (some (toString last.seq))) = some w₃)
    (after : Path step (fun w label => w.Open runId label ∧ label ≠ .disconnect id₂) w₃ labels₂ w₄)
    (fits : ((init now).broadcasts runId labels₀ ++ w₁.broadcasts runId labels₁).length ≤ 1000) :
    ofRun runId ((w₂.responses.events id₁).take count ++ w₄.responses.events id₂) =
        w₁.broadcasts runId labels₁ ++ w₃.broadcasts runId labels₂ ↔
      last.type = .streamConnected := by
  obtain ⟨connected, heard, held⟩ := interrupted now before accepted₁ connects between fits
  have resumed := resumed_events held.linked (by rw [held.buffered]; exact held.sorted)
    (by rw [held.buffered]; exact held.types) accepted₂ reconnects after
  rw [held.buffered] at resumed
  rw [ofRun_append, resumed, ← List.append_assoc, List.append_left_inj]
  rw [held.events] at received ⊢
  generalize (init now).broadcasts runId labels₀ = older at held
  generalize w₁.broadcasts runId labels₁ = newer at held
  have nothing : ofRun runId [connected] = [] := by
    simp [ofRun, held.connects.1, held.connects.2]
  cases count with
  | zero => cases received
  | succ count =>
      rw [List.take_succ_cons] at received ⊢
      have upTo : heard.take count <+: newer := (List.take_prefix count heard).trans held.upTo
      generalize heard.take count = part at received upTo
      obtain ⟨rest, rfl⟩ := upTo
      have taken : ofRun runId (connected :: part) = part := by
        have own : ofRun runId part = part := ofRun_eq_self
          (fun event member => held.own event (List.mem_append_left _ member))
          (fun event member => held.types event
            (List.mem_append_right _ (List.mem_append_left _ member)))
        rw [← List.singleton_append, ofRun_append, nothing, own, List.nil_append]
      rw [taken]
      rcases List.eq_nil_or_concat' part with rfl | ⟨earlier, event, rfl⟩
      · -- only the connection event has been received
        have same : connected = last := Option.some.inj received
        subst same
        refine iff_of_true ?_ held.connects.2
        rw [List.nil_append, List.nil_append]
        exact filter_from held.early (fun event member => Nat.le_of_lt (held.late event member))
      · -- the last event is replayed
        rw [← List.cons_append, List.getLast?_concat] at received
        have same : event = last := Option.some.inj received
        subst same
        have split : older ++ (earlier ++ [event] ++ rest) = (older ++ earlier) ++ event :: rest := by
          simp
        have sorted := held.sorted
        rw [split] at sorted ⊢
        rw [filter_from_item sorted]
        refine iff_of_false ?_ (held.types event (by simp))
        intro twice
        have lengths := congrArg List.length twice
        simp only [List.length_append, List.length_cons, List.length_nil] at lengths
        omega

def aliceConnects (id : StreamId) (lastEventId : Option String) : Label :=
  .streamEvents id "run_0_a" ⟨"acme", "alice"⟩ (some streamedRun) none lastEventId

def runQueued : List Label := [.broadcastOrchestratorEvent "run_0_a" .runQueued .null]

def runStarted : List Label := [.broadcastOrchestratorEvent "run_0_a" .runStarted .null]

def runCompleted : List Label := [.broadcastOrchestratorEvent "run_0_a" .runCompleted .null]

/-- The servers of a run during which alice connects and comes back with a `Last-Event-ID`. -/
def comesBack (lastEventId : String) :
    Option (StreamServer × StreamServer × StreamServer × StreamServer × StreamServer) :=
  (Transition.exec (Transition.guarded step (Open "run_0_a")) (init 0) runQueued).bind fun w₀ =>
    (w₀.step (aliceConnects 0 none)).bind fun w₁ =>
      (Transition.exec (Transition.guarded step (Open "run_0_a")) w₁ runStarted).bind fun w₂ =>
        (w₂.step (aliceConnects 1 (some lastEventId))).bind fun w₃ =>
          (Transition.exec (Transition.guarded step (fun w label => w.Open "run_0_a" label ∧
            label ≠ .disconnect 1)) w₃ runCompleted).map fun w₄ => (w₀, w₁, w₂, w₃, w₄)

theorem comesBack_eq {lastEventId : String} {w₀ w₁ w₂ w₃ w₄ : StreamServer}
    (ran : comesBack lastEventId = some (w₀, w₁, w₂, w₃, w₄)) :
    Path step (Open "run_0_a") (init 0) runQueued w₀ ∧
      w₀.step (aliceConnects 0 none) = some w₁ ∧ Path step (Open "run_0_a") w₁ runStarted w₂ ∧
      w₂.step (aliceConnects 1 (some lastEventId)) = some w₃ ∧
      Path step (fun w label => w.Open "run_0_a" label ∧ label ≠ .disconnect 1) w₃ runCompleted
        w₄ := by
  simp only [comesBack, Option.bind_eq_some_iff, Option.map_eq_some_iff] at ran
  obtain ⟨_, before, _, connects, _, between, _, reconnects, _, after, same⟩ := ran
  cases same
  exact ⟨Transition.path_of_exec _ before, connects, Transition.path_of_exec _ between, reconnects,
    Transition.path_of_exec _ after⟩

theorem unserved_client_resumes :
    ∃ w₁ w₂ w₃ w₄ : StreamServer, (w₁.broadcasts "run_0_a" runStarted).map SSEEventEnvelope.seq = [3] ∧
      ofRun "run_0_a" ((w₂.responses.events 0).take 1 ++ w₄.responses.events 1) =
        w₁.broadcasts "run_0_a" runStarted ++ w₃.broadcasts "run_0_a" runCompleted := by
  have ran : (comesBack "2").map (fun (_, w₁, w₂, _, _) =>
      ((w₁.broadcasts "run_0_a" runStarted).map SSEEventEnvelope.seq,
        ((w₂.responses.events 0).take 1).getLast?.map (fun last => (last.type, last.seq)),
        decide (((init 0).broadcasts "run_0_a" runQueued ++
          w₁.broadcasts "run_0_a" runStarted).length ≤ 1000))) =
      some ([3], some (.streamConnected, 2), true) := by decide +kernel
  obtain ⟨⟨w₀, w₁, w₂, w₃, w₄⟩, ran, observed⟩ := Option.map_eq_some_iff.mp ran
  obtain ⟨numbers, observed⟩ := Prod.mk.inj observed
  obtain ⟨received, fits⟩ := Prod.mk.inj observed
  obtain ⟨last, received, place⟩ := Option.map_eq_some_iff.mp received
  obtain ⟨type, seq⟩ := Prod.mk.inj place
  obtain ⟨before, connects, between, reconnects, after⟩ := comesBack_eq ran
  have header : toString last.seq = "2" := by rw [seq]; decide
  rw [← header] at reconnects
  exact ⟨w₁, w₂, w₃, w₄, numbers, (resume_is_exact_iff 0 "run_0_a" runQueued runStarted runCompleted
    w₀ w₁ w₂ w₃ w₄ 0 1 ⟨"acme", "alice"⟩ ⟨"acme", "alice"⟩ streamedRun streamedRun before rfl connects
    between 1 last received rfl reconnects after (of_decide_eq_true fits)).mpr type⟩

/-- The event that a client has received last is sent to it again. -/
theorem resume_repeats_an_event :
    ¬∀ (labels₀ labels₁ labels₂ : List Label) (w₀ w₁ w₂ w₃ w₄ : StreamServer) (runId : RunId)
      (id₁ id₂ : StreamId) (owner : OwnerPrincipal) (run : Run) (count : Nat)
      (last : SSEEventEnvelope), sameOwnerPrincipal run.owner owner = true →
        Path step (Open runId) (init 0) labels₀ w₀ →
        w₀.step (.streamEvents id₁ runId owner (some run) none none) = some w₁ →
        Path step (Open runId) w₁ labels₁ w₂ →
        ((w₂.responses.events id₁).take count).getLast? = some last →
        w₂.step (.streamEvents id₂ runId owner (some run) none (some (toString last.seq))) = some w₃ →
        Path step (fun w label => w.Open runId label ∧ label ≠ .disconnect id₂) w₃ labels₂ w₄ →
        ((init 0).broadcasts runId labels₀ ++ w₁.broadcasts runId labels₁).length ≤ 1000 →
        ofRun runId ((w₂.responses.events id₁).take count ++ w₄.responses.events id₂) =
          w₁.broadcasts runId labels₁ ++ w₃.broadcasts runId labels₂ := by
  intro always
  have ran : (comesBack "3").map (fun (_, w₁, w₂, w₃, w₄) =>
      ((ofRun "run_0_a" ((w₂.responses.events 0).take 2 ++ w₄.responses.events 1)).map
          SSEEventEnvelope.seq,
        (w₁.broadcasts "run_0_a" runStarted ++ w₃.broadcasts "run_0_a" runCompleted).map
          SSEEventEnvelope.seq,
        ((w₂.responses.events 0).take 2).getLast?.map SSEEventEnvelope.seq,
        decide (((init 0).broadcasts "run_0_a" runQueued ++
          w₁.broadcasts "run_0_a" runStarted).length ≤ 1000))) =
      some ([3, 3, 5], [3, 5], some 3, true) := by decide +kernel
  obtain ⟨⟨w₀, w₁, w₂, w₃, w₄⟩, ran, observed⟩ := Option.map_eq_some_iff.mp ran
  obtain ⟨twice, observed⟩ := Prod.mk.inj observed
  obtain ⟨once, observed⟩ := Prod.mk.inj observed
  obtain ⟨received, fits⟩ := Prod.mk.inj observed
  obtain ⟨last, received, seq⟩ := Option.map_eq_some_iff.mp received
  obtain ⟨before, connects, between, reconnects, after⟩ := comesBack_eq ran
  have header : toString last.seq = "3" := by rw [seq]; decide
  rw [← header] at reconnects
  have equal := always runQueued runStarted runCompleted w₀ w₁ w₂ w₃ w₄ "run_0_a" 0 1
    ⟨"acme", "alice"⟩ streamedRun 2 last rfl before connects between received reconnects after
    (of_decide_eq_true fits)
  rw [equal, once] at twice
  exact absurd twice (by decide)

end StreamServer

end Minerva
