import Minerva.Sse.Registry

/-! `broadcast` with the errors that the methods of a stream throw: all of them are caught, and no
stream suffers from another one. -/

namespace Minerva

namespace MemorySSEStreamController

/-- What the controller does to itself and to the streams; it may throw. -/
abbrev Attempt (ω α : Type) : Type := EStateM Unit (MemorySSEStreamController × ω) α

namespace Attempt

section Rules

variable {ω α β : Type} {s s' : MemorySSEStreamController × ω} {a : α}

theorem bind_ok {first : Attempt ω α} (returned : first.run s = .ok a s')
    (next : α → Attempt ω β) : (first >>= next).run s = (next a).run s' := by
  change EStateM.bind first next s = next a s'
  unfold EStateM.bind
  rw [show first s = .ok a s' from returned]

theorem bind_error {first : Attempt ω α} (threw : first.run s = .error () s')
    (next : α → Attempt ω β) : (first >>= next).run s = .error () s' := by
  change EStateM.bind first next s = .error () s'
  unfold EStateM.bind
  rw [show first s = .error () s' from threw]

theorem catch_ok {body : Attempt ω α} (returned : body.run s = .ok a s')
    (handler : Unit → Attempt ω α) : (tryCatch body handler).run s = .ok a s' := by
  change EStateM.tryCatch body handler s = .ok a s'
  unfold EStateM.tryCatch
  rw [show body s = .ok a s' from returned]

theorem catch_error {body : Attempt ω α} (threw : body.run s = .error () s')
    (handler : Unit → Attempt ω α) : (tryCatch body handler).run s = (handler ()).run s' := by
  change EStateM.tryCatch body handler s = handler () s'
  unfold EStateM.tryCatch
  rw [show body s = .error () s' from threw]
  rfl

end Rules

variable {ω : Type} [SSEStreams ω]

def isOpen (stream : StreamId) : Attempt ω Bool := fun (c, host) =>
  match SSEStreams.isOpen host stream with
  | some answer => .ok answer (c, host)
  | none => .error () (c, host)

def write (stream : StreamId) (event : SSEEventEnvelope) : Attempt ω Unit := fun (c, host) =>
  let (host, returned) := SSEStreams.write host stream event
  if returned then .ok () (c, host) else .error () (c, host)

def close (stream : StreamId) : Attempt ω Unit := fun (c, host) =>
  let (host, returned) := SSEStreams.close host stream
  if returned then .ok () (c, host) else .error () (c, host)

def delete (runStreams : Nat) (stream : StreamId) : Attempt ω Unit := fun (c, host) =>
  .ok () ({ c with
    sets := c.sets.set runStreams ((c.members runStreams).filter (fun other => other ≠ stream)) },
    host)

def deleteRun (runId : RunId) : Attempt ω Unit := fun (c, host) =>
  .ok () ({ c with streams := c.streams.delete runId }, host)

def offer (event : SSEEventEnvelope) (deadStreams : List StreamId) (stream : StreamId) :
    Attempt ω (List StreamId) :=
  tryCatch
    (do
      if ← isOpen stream then
        write stream event
        pure deadStreams
      else pure (deadStreams ++ [stream]))
    -- Stream error - mark for cleanup
    (fun _ => pure (deadStreams ++ [stream]))

def dispose (runStreams : Nat) (dead : StreamId) : Attempt ω Unit := do
  delete runStreams dead
  -- Ignore close errors
  tryCatch (close dead) (fun _ => pure ())

def broadcast (runId : RunId) (event : SSEEventEnvelope) : Attempt ω Unit := do
  let (c, _) ← get
  match c.streams.get runId with
  | none => pure ()
  | some runStreams =>
    let deadStreams ← (c.members runStreams).foldlM (offer event) []
    deadStreams.forM (dispose runStreams)
    let (c, _) ← get
    if c.members runStreams = [] then deleteRun runId

structure Same (c c' : MemorySSEStreamController) : Prop where
  streams : c.streams = c'.streams
  members : ∀ set, c.members set = c'.members set

theorem Same.connections {c c' : MemorySSEStreamController} (same : Same c c') (runId : RunId) :
    c.connections runId = c'.connections runId := by
  unfold MemorySSEStreamController.connections
  rw [same.streams]
  cases c'.streams.get runId with
  | none => rfl
  | some set => exact same.members set

variable (c : MemorySSEStreamController) (host : ω) (event : SSEEventEnvelope)

/-- Whatever the stream throws, the round ends well, with the stream served or marked. -/
theorem offer_returns (deadStreams : List StreamId) (stream : StreamId) :
    (offer event deadStreams stream).run (c, host) =
      .ok (deliver event (host, deadStreams) stream).2
        (c, (deliver event (host, deadStreams) stream).1) := by
  cases answer : SSEStreams.isOpen host stream with
  | none =>
      have threw : (isOpen stream).run (c, host) = .error () (c, host) := by
        simp only [EStateM.run, isOpen, answer]
      have marked : deliver event (host, deadStreams) stream = (host, deadStreams ++ [stream]) := by
        simp only [deliver, answer]
      rw [marked]
      exact catch_error (bind_error threw _) _
  | some answered =>
      have asked : (isOpen stream).run (c, host) = .ok answered (c, host) := by
        simp only [EStateM.run, isOpen, answer]
      cases answered with
      | false =>
          have marked : deliver event (host, deadStreams) stream =
              (host, deadStreams ++ [stream]) := by
            simp only [deliver, answer]
          rw [marked]
          refine catch_ok ?_ _
          exact bind_ok asked _
      | true =>
          cases wrote : (SSEStreams.write host stream event).2 with
          | false =>
              have threw : (write stream event).run (c, host) =
                  .error () (c, (SSEStreams.write host stream event).1) := by
                simp only [EStateM.run, write, wrote, Bool.false_eq_true, if_false]
              have marked : deliver event (host, deadStreams) stream =
                  ((SSEStreams.write host stream event).1, deadStreams ++ [stream]) := by
                simp only [deliver, answer, wrote, Bool.false_eq_true, if_false]
              rw [marked]
              exact catch_error ((bind_ok asked _).trans (bind_error threw fun _ => _)) _
          | true =>
              have returned : (write stream event).run (c, host) =
                  .ok () (c, (SSEStreams.write host stream event).1) := by
                simp only [EStateM.run, write, wrote, if_true]
              have served : deliver event (host, deadStreams) stream =
                  ((SSEStreams.write host stream event).1, deadStreams) := by
                simp only [deliver, answer, wrote, if_true]
              rw [served]
              exact catch_ok ((bind_ok asked _).trans (bind_ok returned fun _ => pure deadStreams)) _

theorem offers_return (streams : List StreamId) (deadStreams : List StreamId) :
    (streams.foldlM (offer event) deadStreams).run (c, host) =
      .ok (streams.foldl (deliver event) (host, deadStreams)).2
        (c, (streams.foldl (deliver event) (host, deadStreams)).1) := by
  induction streams generalizing host deadStreams with
  | nil => rfl
  | cons stream rest ih =>
      rw [List.foldlM_cons, List.foldl_cons]
      exact (bind_ok (offer_returns c host event deadStreams stream) _).trans (ih _ _)

theorem dispose_returns (runStreams : Nat) (dead : StreamId) :
    (dispose runStreams dead).run (c, host) =
      .ok () ({ c with
        sets := c.sets.set runStreams ((c.members runStreams).filter (fun other => other ≠ dead)) },
        closeQuietly host dead) := by
  have deleted : (delete runStreams dead).run (c, host) = .ok () ({ c with
      sets := c.sets.set runStreams ((c.members runStreams).filter (fun other => other ≠ dead)) },
      host) := rfl
  refine (bind_ok deleted _).trans ?_
  cases closed : (SSEStreams.close host dead).2 with
  | false =>
      have threw (c : MemorySSEStreamController) : (close dead).run (c, host) =
          .error () (c, (SSEStreams.close host dead).1) := by
        simp only [EStateM.run, close, closed, Bool.false_eq_true, if_false]
      exact catch_error (threw _) _
  | true =>
      have returned (c : MemorySSEStreamController) : (close dead).run (c, host) =
          .ok () (c, (SSEStreams.close host dead).1) := by
        simp only [EStateM.run, close, closed, if_true]
      exact catch_ok (returned _) _

theorem disposals_return (runStreams : Nat) (deadStreams : List StreamId) :
    ∃ c', (deadStreams.forM (dispose runStreams)).run (c, host) =
        .ok () (c', deadStreams.foldl closeQuietly host) ∧
      c'.streams = c.streams ∧
      ∀ set, c'.members set =
        if set = runStreams then
          (c.members runStreams).filter (fun stream => stream ∉ deadStreams)
        else c.members set := by
  induction deadStreams generalizing c host with
  | nil =>
      refine ⟨c, rfl, rfl, ?_⟩
      intro set
      split
      · next same => simp [same]
      · rfl
  | cons dead rest ih =>
      obtain ⟨c', disposed, streams, members⟩ := ih { c with
        sets := c.sets.set runStreams ((c.members runStreams).filter (fun other => other ≠ dead)) }
        (closeQuietly host dead)
      refine ⟨c', (bind_ok (dispose_returns c host runStreams dead) _).trans disposed, streams, ?_⟩
      intro set
      rw [members, members_set, members_set, if_pos rfl, List.filter_filter]
      by_cases same : set = runStreams
      · simp only [if_pos same]
        congr 1
        funext stream
        simp [Bool.and_comm]
      · simp only [if_neg same]

/-- No error leaves `broadcast`, and it does what it does with all errors caught. -/
theorem broadcast_returns (runId : RunId) :
    ∃ c', (broadcast runId event).run (c, host) =
        .ok () (c', (c.broadcast host runId event).2) ∧
      Same c' (c.broadcast host runId event).1 := by
  have got : (get : Attempt ω _).run (c, host) = .ok (c, host) (c, host) := rfl
  unfold broadcast MemorySSEStreamController.broadcast
  rw [bind_ok got]
  simp only
  cases found : c.streams.get runId with
  | none => exact ⟨c, rfl, rfl, fun _ => rfl⟩
  | some runStreams =>
      simp only
      obtain ⟨c', disposed, streams, members⟩ := disposals_return c
        ((c.members runStreams).foldl (deliver event) (host, [])).1 runStreams
        ((c.members runStreams).foldl (deliver event) (host, [])).2
      have again (host : ω) : (get : Attempt ω _).run (c', host) = .ok (c', host) (c', host) := rfl
      rw [bind_ok (offers_return c host event (c.members runStreams) []), bind_ok disposed,
        bind_ok (again _)]
      simp only
      have left := members runStreams
      rw [if_pos rfl] at left
      have removed (set : Nat) : c'.members set = (c.remove runId runStreams
          ((c.members runStreams).foldl (deliver event) (host, [])).2).members set := by
        rw [members, members_remove]
      by_cases empty : c'.members runStreams = []
      · rw [if_pos empty]
        refine ⟨_, rfl, ?_, removed⟩
        rw [left] at empty
        unfold MemorySSEStreamController.remove
        simp only
        rw [if_pos empty]
        exact congrArg (fun table => table.delete runId) streams
      · rw [if_neg empty]
        refine ⟨_, rfl, ?_, removed⟩
        rw [left] at empty
        unfold MemorySSEStreamController.remove
        simp only
        rw [if_neg empty]
        exact streams

end Attempt

end MemorySSEStreamController

section Behaviours

open MemorySSEStreamController

variable {σ : Type} [SSEStream σ] {streams : Streams σ} {event : SSEEventEnvelope} {id : StreamId}

def Streams.takes (streams : Streams σ) (event : SSEEventEnvelope) (id : StreamId) : Bool :=
  SSEStream.isOpen (streams.state id) = some true && (SSEStream.write (streams.state id) event).2

structure FaultIsolated (c : MemorySSEStreamController) (streams : Streams σ) (runId : RunId)
    (event : SSEEventEnvelope) (c' : MemorySSEStreamController) (streams' : Streams σ) : Prop where
  /-- one write, and nothing else -/
  delivered : ∀ id ∈ c.connections runId, streams.takes event id = true →
    streams'.received id = streams.received id ++ [event] ∧
      streams'.state id = (SSEStream.write (streams.state id) event).1
  refused : ∀ id ∈ c.connections runId, streams.takes event id = false →
    streams'.received id = streams.received id
  spared : ∀ id, id ∉ c.connections runId →
    streams'.received id = streams.received id ∧ streams'.state id = streams.state id
  stays : c'.connections runId = (c.connections runId).filter (streams.takes event)
  others : ∀ other, other ≠ runId → c'.connections other = c.connections other

theorem deliver_own (event : SSEEventEnvelope) (turn : Streams σ × List StreamId)
    (state : turn.1.state id = streams.state id) (received : turn.1.received id = streams.received id)
    (unmarked : id ∉ turn.2) :
    (id ∈ (deliver event turn id).2 ↔ streams.takes event id = false) ∧
      (deliver event turn id).1.received id =
        streams.received id ++ (if streams.takes event id then [event] else []) ∧
      (streams.takes event id = true →
        (deliver event turn id).1.state id = (SSEStream.write (streams.state id) event).1) := by
  obtain ⟨host, deadStreams⟩ := turn
  simp only at state received unmarked
  have asked : SSEStreams.isOpen host id = SSEStream.isOpen (streams.state id) :=
    congrArg SSEStream.isOpen state
  unfold deliver Streams.takes
  simp only [asked]
  cases answer : SSEStream.isOpen (streams.state id) with
  | none => simp [received]
  | some answered =>
      cases answered with
      | false => simp [received]
      | true =>
          simp only [SSEStreams.write, Streams.write, state]
          cases (SSEStream.write (streams.state id) event).2 with
          | false => simp [received]
          | true => simp [received, unmarked]

theorem closes_keep_received (deadStreams : List StreamId) (streams : Streams σ) :
    (deadStreams.foldl closeQuietly streams).received = streams.received := by
  induction deadStreams generalizing streams with
  | nil => rfl
  | cons dead rest ih => exact ih (closeQuietly streams dead)

variable {c : MemorySSEStreamController} {runId : RunId}

theorem broadcast_own (streams : Streams σ) (event : SSEEventEnvelope) (distinct : c.Distinct)
    {set : Nat} (found : c.streams.get runId = some set)
    (member : id ∈ c.members set) :
    (id ∈ ((c.members set).foldl (deliver event) (streams, [])).2 ↔
        streams.takes event id = false) ∧
      (c.broadcast streams runId event).2.received id =
        streams.received id ++ (if streams.takes event id then [event] else []) ∧
      (streams.takes event id = true → (c.broadcast streams runId event).2.state id =
        (SSEStream.write (streams.state id) event).1) := by
  obtain ⟨turn, before, unmarked, after, marked⟩ :=
    deliver_member (Streams.apart id) event (c.members set) (distinct set) member (streams, [])
  obtain ⟨state, received⟩ := Prod.mk.inj before
  obtain ⟨state', received'⟩ := Prod.mk.inj after
  have fresh : id ∉ turn.2 := fun here => List.not_mem_nil (unmarked.mp here)
  obtain ⟨dead, got, wrote⟩ := deliver_own event turn state received fresh
  rw [← marked] at dead
  unfold MemorySSEStreamController.broadcast
  rw [found]
  simp only
  refine ⟨dead, ?_, ?_⟩
  · rw [closes_keep_received, received', got]
  · intro takes
    have spared : id ∉ ((c.members set).foldl (deliver event) (streams, [])).2 := by
      intro here
      rw [dead.mp here] at takes
      cases takes
    have kept := closeQuietly_others (Streams.apart id) _ spared
      ((c.members set).foldl (deliver event) (streams, [])).1
    rw [(Prod.mk.inj kept).1, state', wrote takes]

theorem connections_broadcast {mine : RunId → StreamId → Prop} (separate : c.Separate mine)
    (distinct : c.Distinct) (streams : Streams σ) (event : SSEEventEnvelope) (runId other : RunId) :
    (c.broadcast streams runId event).1.connections other =
      if other = runId then (c.connections runId).filter (streams.takes event)
      else c.connections other := by
  cases found : c.streams.get runId with
  | none =>
      have empty : c.connections runId = [] := by
        unfold MemorySSEStreamController.connections
        rw [found]
        rfl
      have unchanged : (c.broadcast streams runId event).1 = c := by
        unfold MemorySSEStreamController.broadcast
        rw [found]
      rw [unchanged, empty]
      split
      · next same => rw [same, empty, List.filter_nil]
      · rfl
  | some set =>
      have own : c.connections runId = c.members set := by
        unfold MemorySSEStreamController.connections
        rw [found]
        rfl
      have left : (c.members set).filter (fun stream =>
          stream ∉ ((c.members set).foldl (deliver event) (streams, [])).2) =
            (c.members set).filter (streams.takes event) := by
        apply List.filter_congr
        intro id member
        have dead := (broadcast_own streams event distinct found member).1
        cases takes : streams.takes event id with
        | false => simp [dead.mpr takes]
        | true => simp [dead, takes]
      have after : (c.broadcast streams runId event).1 = c.remove runId set
          ((c.members set).foldl (deliver event) (streams, [])).2 := by
        unfold MemorySSEStreamController.broadcast
        rw [found]
      rw [after, own]
      unfold MemorySSEStreamController.connections
      rw [streams_remove]
      by_cases same : other = runId
      · subst same
        rw [if_pos rfl]
        split
        · next emptied =>
            rw [← left]
            exact (List.filter_eq_nil_iff.mpr fun id member => by
              simpa using emptied.2 id member).symm
        · rw [found, Option.map_some, Option.getD_some, members_remove, if_pos rfl, left]
      · rw [if_neg fun both => same both.1, if_neg same]
        cases place : c.streams.get other with
        | none => rfl
        | some set' =>
            have apart : set' ≠ set := by
              rintro rfl
              exact same (separate.injective other runId set' place found)
            rw [Option.map_some, Option.map_some, members_remove, if_neg apart]

/-- In every state that calls lead to, and whatever the streams do, `broadcast` returns, every
stream of the run that takes the event gets it once, and only the others of the run go. -/
theorem broadcast_is_fault_isolated {start : Streams σ} {w : Registry σ}
    (reached : Transition.Reach Registry.step Transition.Free (Registry.start start) w)
    (streams : Streams σ) (runId : RunId) (event : SSEEventEnvelope) :
    ∃ c' streams', (Attempt.broadcast runId event).run (w.controller, streams) =
        .ok () (c', streams') ∧
      FaultIsolated w.controller streams runId event c' streams' := by
  have sound : w.Sound := reached.invariant Registry.Sound (Registry.start_sound start)
    fun _ _ _ _ sound moved => Registry.step_sound sound moved
  obtain ⟨c', returned, same⟩ := Attempt.broadcast_returns w.controller streams event runId
  have left (other : RunId) := (same.connections other).trans
    (connections_broadcast sound.separate sound.distinct streams event runId other)
  refine ⟨c', _, returned, ?_⟩
  constructor
  case delivered =>
    intro id member takes
    obtain ⟨set, found, inside⟩ := mem_connections_iff.mp member
    obtain ⟨_, received, state⟩ := broadcast_own streams event
      sound.distinct found inside
    rw [if_pos takes] at received
    exact ⟨received, state takes⟩
  case refused =>
    intro id member takes
    obtain ⟨set, found, inside⟩ := mem_connections_iff.mp member
    obtain ⟨_, received, _⟩ := broadcast_own streams event
      sound.distinct found inside
    rw [if_neg (by simp [takes]), List.append_nil] at received
    exact received
  case spared =>
    intro id absent
    have kept : (fun streams : Streams σ => (streams.state id, streams.received id))
        (w.controller.broadcast streams runId event).2 =
          (streams.state id, streams.received id) :=
      broadcast_others (Streams.apart id) absent streams
    exact ⟨(Prod.mk.inj kept).2, (Prod.mk.inj kept).1⟩
  case stays =>
    rw [left, if_pos rfl]
  case others =>
    intro other apart
    rw [left, if_neg apart]

end Behaviours

structure FaultySSEStream where
  isOpen : Option Bool
  writes : Bool
  closes : Bool

instance : SSEStream FaultySSEStream where
  isOpen stream := stream.isOpen
  write stream _ := (stream, stream.writes)
  close stream := (stream, stream.closes)

/-- An open stream, a closed one, one that throws on every write and one that throws everywhere. -/
def mixedStreams : Streams FaultySSEStream where
  state
    | 1 => ⟨some false, true, false⟩
    | 2 => ⟨some true, false, true⟩
    | 3 => ⟨none, false, false⟩
    | _ => ⟨some true, true, true⟩
  received _ := []

theorem open_stream_is_served_among_faulty :
    ∃ w c' streams', (MemorySSEStreamController.Attempt.broadcast "run_0_a"
        Registry.startedEvent).run (w, mixedStreams) = .ok () (c', streams') ∧
      w.connections "run_0_a" = [2, 0, 3, 1] ∧ c'.connections "run_0_a" = [0] ∧
      streams'.received 0 = [Registry.startedEvent] ∧ c'.connections "run_0_b" = [4] := by
  have ran : (Transition.exec (Transition.guarded Registry.step Transition.Free)
      (Registry.start mixedStreams) [.register "run_0_a" 2, .register "run_0_a" 0,
        .register "run_0_b" 4, .register "run_0_a" 3, .register "run_0_a" 1]).map
      (fun w => (w.controller.connections "run_0_a", w.controller.connections "run_0_b")) =
        some ([2, 0, 3, 1], [4]) := by decide
  obtain ⟨w, reached, observed⟩ := Transition.reach_of_observed _ _ ran
  obtain ⟨here, there⟩ := Prod.mk.inj observed
  obtain ⟨c', streams', returned, isolated⟩ := broadcast_is_fault_isolated reached mixedStreams
    "run_0_a" Registry.startedEvent
  have served := isolated.delivered 0 (by rw [here]; decide) rfl
  refine ⟨w.controller, c', streams', returned, here, ?_, served.1, ?_⟩
  · rw [isolated.stays, here]
    decide
  · rw [isolated.others "run_0_b" (by decide), there]

end Minerva
