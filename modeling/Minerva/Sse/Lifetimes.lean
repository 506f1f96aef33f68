import Minerva.Sse.Attached

namespace Minerva

namespace StreamServer

open MemorySSEStreamController

variable {w w' : StreamServer} {label : Label} {id : StreamId}

def Ends (w : StreamServer) (id : StreamId) (label : Label) : Prop :=
  label = .disconnect id ∨
    (∃ run, isTerminalState run.state = true ∧ label = .checked id (some run)) ∨
    ∃ connection, w.connections.get id = some connection ∧ label = .closeRun connection.runId

inductive Fate (w : StreamServer) (id : StreamId) (label : Label) : Option Response → Prop
  | same : Fate w id label (w.responses.table.get id)
  | opens {runId : RunId} {owner : OwnerPrincipal} {run : Run}
      {replayFrom lastEventId : Option String} {chunks : List Chunk}
      (opened : label = .streamEvents id runId owner (some run) replayFrom lastEventId) :
      Fate w id label (some ⟨chunks, false⟩)
  | grows {chunks : List Chunk} (chunk : Chunk)
      (isOpen : w.responses.table.get id = some ⟨chunks, false⟩) :
      Fate w id label (some ⟨chunks ++ [chunk], false⟩)
  | ends {response : Response} (found : w.responses.table.get id = some response)
      (reason : w.Ends id label) : Fate w id label (some { response with writableEnded := true })

structure Kept (w : StreamServer) : Prop where
  isolated : w.Isolated
  distinct : w.service.streamController.Distinct
  named : ∀ id connection, w.connections.get id = some connection →
    (connection.cleanup.runId = connection.runId ∧ connection.cleanup.stream = id) ∧
      w.service.streamController.Holds connection.cleanup

theorem Kept.registered (kept : w.Kept) {runId : RunId}
    (member : id ∈ w.service.streamController.connections runId) :
    ∃ connection response, w.connections.get id = some connection ∧ connection.runId = runId ∧
      w.responses.table.get id = some response := by
  obtain ⟨set, found, inside⟩ := mem_connections_iff.mp member
  have mine := kept.isolated.separate.members runId set found id inside
  have answered := kept.isolated.answered runId id mine
  obtain ⟨connection, stored, own⟩ := mine
  obtain ⟨response, here⟩ := Option.isSome_iff_exists.mp answered
  exact ⟨connection, response, stored, own, here⟩

theorem send_other (responses : Responses) {other : StreamId} (different : other ≠ id)
    (chunk : Chunk) : (responses.send id chunk).table.get other = responses.table.get other := by
  unfold Responses.send
  split
  · rfl
  · split
    · rfl
    · exact EsMap.get_set_of_ne _ _ _ _ different

theorem fate_send (label : Label) (chunk : Chunk) :
    w.Fate id label ((w.responses.send id chunk).table.get id) := by
  unfold Responses.send
  split
  · exact .same
  · rename_i response found
    obtain ⟨chunks, writableEnded⟩ := response
    split
    · exact .same
    · rename_i going
      rw [Bool.not_eq_true] at going
      cases going
      rw [EsMap.get_set_self]
      exact .grows chunk found

theorem leave_closes_response {connection : Connection} {response : Response}
    (found : w.responses.table.get connection.cleanup.stream = some response) :
    (w.leave id connection).responses.table.get connection.cleanup.stream =
      some { response with writableEnded := true } := by
  obtain ⟨chunks, writableEnded⟩ := response
  simp only [leave, MemorySSEStreamController.cleanup, SSEStreams.isOpen, Responses.isOpen, found]
  cases writableEnded with
  | true => exact found
  | false =>
      simp only [Option.any_some, Bool.not_false, closeQuietly, SSEStreams.close, Responses.finish,
        found]
      exact EsMap.get_set_self _ _ _

theorem fate_broadcast (kept : w.Kept) (label : Label) (event : SSEEventEnvelope) :
    w.Fate id label ((w.service.streamController.broadcast w.responses event.runId
      event).2.table.get id) := by
  by_cases member : id ∈ w.service.streamController.connections event.runId
  · obtain ⟨-, ⟨chunks, writableEnded⟩, -, -, found⟩ := kept.registered member
    cases writableEnded with
    | true =>
        have still := broadcast_keeps
          (fun responses : Responses => responses.table.get id = some ⟨chunks, true⟩) ?_ ?_
          w.service.streamController w.responses event.runId event found
        · rw [still, ← found]
          exact .same
        · intro responses other event ended
          by_cases same : other = id
          · subst same
            simp only [SSEStreams.write, Responses.write, Responses.send, ended, if_true]
          · exact ((Responses.apart id).write responses other event same).trans ended
        · intro responses other ended
          by_cases same : other = id
          · subst same
            simp only [SSEStreams.close, Responses.finish, ended, EsMap.get_set_self]
          · exact ((Responses.apart id).close responses other same).trans ended
    | false =>
        obtain ⟨set, stored, inside⟩ := mem_connections_iff.mp member
        obtain ⟨-, turn, before, after⟩ := broadcast_member (Responses.apart id) event stored
          (kept.distinct set) inside w.responses (by
            intro turn view
            have here : turn.table.get id = some ⟨chunks, false⟩ := view.trans found
            exact ⟨by simp [SSEStreams.isOpen, Responses.isOpen, here], rfl⟩)
        rw [after.trans (Responses.write_open (before.trans found) event)]
        exact .grows (.event event) found
  · rw [broadcast_others (Responses.apart id) member w.responses]
    exact .same

theorem fate_closeRun (kept : w.Kept) (runId : RunId) :
    w.Fate id (.closeRun runId) ((w.service.streamController.closeRun w.responses
      runId).2.table.get id) := by
  by_cases member : id ∈ w.service.streamController.connections runId
  · obtain ⟨connection, response, stored, rfl, found⟩ := kept.registered member
    have closed := closeRun_keeps (fun responses : Responses =>
      responses.table.get id = some response ∨
        responses.table.get id = some { response with writableEnded := true }) ?_
      w.service.streamController w.responses connection.runId (.inl found)
    · rcases closed with same | ended
      · rw [same, ← found]
        exact .same
      · rw [ended]
        exact .ends found (.inr (.inr ⟨connection, stored, rfl⟩))
    · intro responses other holds
      by_cases same : other = id
      · subst same
        right
        rcases holds with here | here <;>
          simp only [SSEStreams.close, Responses.finish, here, EsMap.get_set_self]
      · have unseen := (Responses.apart id).close responses other same
        rw [unseen]
        exact holds
  · rw [closeRun_others (Responses.apart id) member w.responses]
    exact .same

theorem fate_of_effect (kept : w.Kept) (effect : Effect w label w') (id : StreamId) :
    w.Fate id label (w'.responses.table.get id) := by
  cases effect with
  | @opens id' runId owner run replayFrom lastEventId unused =>
      by_cases same : id = id'
      · subst same
        obtain ⟨connected, -, opened⟩ := open_response w id runId run _
        rw [opened]
        exact .opens rfl
      · rw [open_other same]
        exact .same
  | @leaves _ id' connection checks found ends =>
      have stream : ({ connection with checks } : Connection).cleanup.stream = id' :=
        (kept.named id' connection found).1.2
      by_cases same : id = id'
      · subst same
        have answered := kept.isolated.answered connection.runId id ⟨connection, found, rfl⟩
        obtain ⟨response, here⟩ := Option.isSome_iff_exists.mp answered
        have ended := @leave_closes_response w id { connection with checks } response
          (by rw [stream]; exact here)
        rw [stream] at ended
        rw [ended]
        apply Fate.ends here
        rcases ends with rfl | ⟨run, terminal, rfl⟩
        · exact .inl rfl
        · exact .inr (.inl ⟨run, terminal, rfl⟩)
      · have unseen : (w.leave id' { connection with checks }).responses.table.get id =
            w.responses.table.get id := by
          rcases leave_responses w id' { connection with checks } with whole | finished
          · rw [whole]
          · rw [finished, stream]
            exact Responses.finish_other w.responses same
        rw [unseen]
        exact .same
  | notes found quiet stays => exact .same
  | @keepsAlive id' =>
      by_cases same : id = id'
      · subst same
        exact fate_send _ _
      · rw [send_other w.responses same]
        exact .same
  | airs aired => exact fate_broadcast kept label _
  | closes => exact fate_closeRun kept _
  | rests quiet stays => exact .same

theorem Kept.step (kept : w.Kept) (moved : w.step label = some w') : w'.Kept := by
  have effect := step_effect moved
  refine ⟨?_, distinct_step effect kept.distinct, connections_step effect kept.isolated kept.named⟩
  rcases step_cases moved with ⟨id, about, run, seq, unused, rfl⟩ | flows
  · exact kept.isolated.opens unused
  · exact kept.isolated.flows flows

/-- As long as a response is open its connection polls the run; the keep-alive goes no longer. -/
structure Polls (connection : Connection) (response : Response) : Prop where
  poll : response.writableEnded = false → connection.checkRunState = true
  keepAlive : connection.keepAliveTimer = true → connection.checkRunState = true

structure Attended (w : StreamServer) : Prop where
  kept : w.Kept
  polled : ∀ id response, w.responses.table.get id = some response →
    ∃ connection, w.connections.get id = some connection ∧ Polls connection response

theorem Attended.init (now : Int) : (init now).Attended where
  kept := ⟨isolated_of_reach .refl, fun _ => List.nodup_nil, by rintro id connection ⟨⟩⟩
  polled := by rintro id response ⟨⟩

/-- What a step leaves of the intervals of a connection: it clears none but the keep-alive, or both
and has ended the response. -/
def Keeps (w' : StreamServer) (id : StreamId) (before after : Connection) : Prop :=
  after.runId = before.runId ∧
    (after.checkRunState = before.checkRunState ∧
        (after.keepAliveTimer = true → before.keepAliveTimer = true) ∨
      after.keepAliveTimer = false ∧ after.checkRunState = false ∧
        ∃ chunks, w'.responses.table.get id = some ⟨chunks, true⟩)

theorem leave_keeps (kept : w.Kept) {left : StreamId} {connection before : Connection} {checks : Nat}
    (found : w.connections.get left = some connection)
    (here : w.connections.get id = some before) :
    ∃ after, (w.leave left { connection with checks }).connections.get id = some after ∧
      Keeps (w.leave left { connection with checks }) id before after := by
  by_cases same : id = left
  · subst same
    cases found.symm.trans here
    obtain ⟨response, answered⟩ := Option.isSome_iff_exists.mp
      (kept.isolated.answered connection.runId id ⟨connection, found, rfl⟩)
    have stream := (kept.named id connection found).1.2
    have ended := @leave_closes_response w id { connection with checks } response
      (by rw [stream]; exact answered)
    rw [stream] at ended
    exact ⟨_, EsMap.get_set_self _ _ _, rfl, .inr ⟨rfl, rfl, response.chunks, ended⟩⟩
  · refine ⟨before, ?_, rfl, .inl ⟨rfl, fun going => going⟩⟩
    exact (EsMap.get_set_of_ne _ _ _ _ same).trans here

theorem note_keeps {noted : StreamId} {connection before : Connection} {keepAliveTimer : Bool}
    {checks : Nat} (quieter : keepAliveTimer = true → connection.keepAliveTimer = true)
    (found : w.connections.get noted = some connection)
    (here : w.connections.get id = some before) (w' : StreamServer) :
    ∃ after, (w.connections.set noted { connection with keepAliveTimer, checks }).get id =
      some after ∧ Keeps w' id before after := by
  by_cases same : id = noted
  · subst same
    cases found.symm.trans here
    exact ⟨_, EsMap.get_set_self _ _ _, rfl, .inl ⟨rfl, quieter⟩⟩
  · exact ⟨before, (EsMap.get_set_of_ne _ _ _ _ same).trans here, rfl, .inl ⟨rfl, fun going => going⟩⟩

theorem keeps_of_step (kept : w.Kept) (moved : w.step label = some w') {before : Connection}
    (here : w.connections.get id = some before) :
    ∃ after, w'.connections.get id = some after ∧ Keeps w' id before after := by
  have unchanged (connections : w'.connections = w.connections) :
      ∃ after, w'.connections.get id = some after ∧ Keeps w' id before after :=
    ⟨before, by rw [connections, here], rfl, .inl ⟨rfl, fun going => going⟩⟩
  cases steps_of_step moved with
  | @opens id' _ _ _ _ _ unused own =>
      have different : id ≠ id' := by
        rintro rfl
        rw [kept.isolated.answered before.runId id ⟨before, here, rfl⟩] at unused
        cases unused
      refine ⟨before, ?_, rfl, .inl ⟨rfl, fun going => going⟩⟩
      exact (EsMap.get_set_of_ne _ _ _ _ different).trans here
  | disconnects found => exact leave_keeps kept found here
  | ends found terminal => exact leave_keeps kept found here
  | silences found => exact note_keeps (by rintro ⟨⟩) found here _
  | checks found => exact note_keeps (fun going => going) found here _
  | goesOn found => exact note_keeps (fun going => going) found here _
  | _ => exact unchanged rfl

theorem Attended.step (attended : w.Attended) (moved : w.step label = some w') : w'.Attended := by
  refine ⟨attended.kept.step moved, ?_⟩
  -- a response that is still open was open before
  have stays (id : StreamId) (before response : Response)
      (here : w.responses.table.get id = some before)
      (found : w'.responses.table.get id = some response)
      (going : response.writableEnded = false → before.writableEnded = false) :
      ∃ connection, w'.connections.get id = some connection ∧ Polls connection response := by
    obtain ⟨connection, stored, polled⟩ := attended.polled id before here
    obtain ⟨after, stored', -, still | ⟨silent, -, chunks, ended⟩⟩ :=
      keeps_of_step attended.kept moved stored
    · refine ⟨after, stored', ?_, ?_⟩
      · intro isOpen
        rw [still.1]
        exact polled.poll (going isOpen)
      · intro armed
        rw [still.1]
        exact polled.keepAlive (still.2 armed)
    · refine ⟨after, stored', ?_, ?_⟩
      · intro isOpen
        cases found.symm.trans ended
        cases isOpen
      · intro armed
        cases silent.symm.trans armed
  intro id response found
  have fate := fate_of_effect attended.kept (step_effect moved) id
  generalize here : w'.responses.table.get id = now at fate
  cases fate with
  | same => exact stays id response response (here.symm.trans found) found (fun going => going)
  | grows chunk isOpen =>
      exact stays id _ response isOpen found (fun _ => rfl)
  | ends earlier reason =>
      apply stays id _ response earlier found
      intro isOpen
      cases here.symm.trans found
      cases isOpen
  | opens opened =>
      subst opened
      cases steps_of_step moved with
      | opens unused own =>
          exact ⟨_, EsMap.get_set_self _ _ _, fun _ => rfl, fun _ => rfl⟩
      | refuses denied =>
          obtain ⟨connection, stored, polled⟩ := attended.polled id response found
          exact ⟨connection, stored, polled.poll, polled.keepAlive⟩

theorem attended_of_reach {now : Int}
    (reached : Transition.Reach step Transition.Free (init now) w) : w.Attended := by
  apply reached.invariant Attended (Attended.init now)
  intro s label u _ attended moved
  exact attended.step moved

theorem ended_before (attended : w.Attended) (moved : w.step label = some w')
    {connection : Connection} {chunks : List Chunk}
    (found : w'.connections.get id = some connection)
    (ended : w'.responses.table.get id = some ⟨chunks, true⟩) :
    ∃ before, w.connections.get id = some before ∧ before.runId = connection.runId ∧
      (w.responses.table.get id = some ⟨chunks, true⟩ ∨ w.Ends id label) := by
  have known (response : Response) (here : w.responses.table.get id = some response) :
      ∃ before, w.connections.get id = some before ∧ before.runId = connection.runId := by
    obtain ⟨before, stored, -⟩ := attended.polled id response here
    obtain ⟨after, stored', own, -⟩ := keeps_of_step attended.kept moved stored
    cases found.symm.trans stored'
    exact ⟨before, stored, own.symm⟩
  have fate := fate_of_effect attended.kept (step_effect moved) id
  generalize here : w'.responses.table.get id = now at fate
  cases fate with
  | same =>
      obtain ⟨before, stored, own⟩ := known _ (here.symm.trans ended)
      exact ⟨before, stored, own, .inl (here.symm.trans ended)⟩
  | opens opened => cases here.symm.trans ended
  | grows chunk isOpen => cases here.symm.trans ended
  | ends earlier reason =>
      obtain ⟨before, stored, own⟩ := known _ earlier
      exact ⟨before, stored, own, .inr reason⟩

theorem ended_stays (kept : w.Kept) (moved : w.step label = some w') {chunks : List Chunk}
    (ended : w.responses.table.get id = some ⟨chunks, true⟩) :
    w'.responses.table.get id = some ⟨chunks, true⟩ := by
  have fate := fate_of_effect kept (step_effect moved) id
  generalize here : w'.responses.table.get id = now at fate
  cases fate with
  | same => exact ended
  | @opens runId owner run replayFrom lastEventId chunks' opened =>
      subst opened
      cases steps_of_step moved with
      | refuses denied => exact here.symm.trans ended
      | opens unused own =>
          rw [EsMap.has, ended] at unused
          cases unused
  | grows chunk isOpen => cases ended.symm.trans isOpen
  | ends earlier reason =>
      cases ended.symm.trans earlier
      rfl

def Gone (w : StreamServer) (id : StreamId) : Prop :=
  ∃ connection chunks, w.connections.get id = some connection ∧
    connection.checkRunState = false ∧ connection.keepAliveTimer = false ∧
    w.responses.table.get id = some ⟨chunks, true⟩

theorem Gone.step (gone : w.Gone id) (kept : w.Kept) (moved : w.step label = some w') :
    w'.Gone id := by
  obtain ⟨connection, chunks, found, unpolled, silent, ended⟩ := gone
  have ended' := ended_stays kept moved ended
  obtain ⟨after, stored, -, still | ⟨silent', unpolled', -⟩⟩ := keeps_of_step kept moved found
  · refine ⟨after, chunks, stored, still.1.trans unpolled, ?_, ended'⟩
    cases armed : after.keepAliveTimer with
    | false => rfl
    | true => cases silent.symm.trans (still.2 armed)
  · exact ⟨after, chunks, stored, unpolled', silent', ended'⟩

theorem gone_of_reach (reached : Transition.Reach step Transition.Free w w') (gone : w.Gone id)
    (attended : w.Attended) : w'.Attended ∧ w'.Gone id := by
  apply reached.invariant (fun w => w.Attended ∧ w.Gone id) ⟨attended, gone⟩
  rintro s label u - ⟨attended, gone⟩ moved
  exact ⟨attended.step moved, gone.step attended.kept moved⟩

theorem gone_of_checked (kept : w.Kept) {run : Run} (terminal : isTerminalState run.state = true)
    (moved : w.step (.checked id (some run)) = some w') : w'.Gone id := by
  simp only [step] at moved
  split at moved
  · cases moved
  · rename_i connection found
    split at moved
    · cases moved
    · rw [Option.any_some, terminal, if_pos rfl] at moved
      cases moved
      obtain ⟨response, answered⟩ := Option.isSome_iff_exists.mp
        (kept.isolated.answered connection.runId id ⟨connection, found, rfl⟩)
      have stream := (kept.named id connection found).1.2
      have ended := @leave_closes_response w id
        { connection with checks := connection.checks - 1 } response
        (by rw [stream]; exact answered)
      rw [stream] at ended
      exact ⟨_, response.chunks, EsMap.get_set_self _ _ _, rfl, rfl, ended⟩

def checks (w : StreamServer) (id : StreamId) : Nat :=
  ((w.connections.get id).map Connection.checks).getD 0

def Label.asked (id : StreamId) : Label → Nat
  | .checkRunState other => if other = id then 1 else 0
  | _ => 0

def Label.answered (id : StreamId) : Label → Nat
  | .checked other _ => if other = id then 1 else 0
  | _ => 0

theorem checks_of_found {connection : Connection} (found : w.connections.get id = some connection) :
    w.checks id = connection.checks := by
  rw [checks, found]
  rfl

theorem found_of_checks (waiting : 0 < w.checks id) :
    ∃ connection, w.connections.get id = some connection := by
  cases found : w.connections.get id with
  | none =>
      rw [checks, found] at waiting
      exact absurd waiting (Nat.lt_irrefl 0)
  | some connection => exact ⟨connection, rfl⟩

theorem checks_set {connections : EsMap StreamId Connection} {noted : StreamId}
    {connection : Connection} (same : w'.connections = connections.set noted connection)
    (id : StreamId) : w'.checks id =
      if id = noted then connection.checks else ((connections.get id).map Connection.checks).getD 0 := by
  rw [checks, same, EsMap.get_set]
  split <;> rfl

theorem checks_step (kept : w.Kept) (moved : w.step label = some w') (id : StreamId) :
    w'.checks id + label.answered id = w.checks id + label.asked id := by
  have unchanged (connections : w'.connections = w.connections) (unasked : label.asked id = 0)
      (unanswered : label.answered id = 0) :
      w'.checks id + label.answered id = w.checks id + label.asked id := by
    rw [checks, connections, unasked, unanswered]
    rfl
  have noted {other : StreamId} {after : Connection} {before : Nat} (waits : w.checks other = before)
      (set : w'.connections = w.connections.set other after)
      (counts : id = other → after.checks + label.answered id = before + label.asked id)
      (quiet : id ≠ other → label.answered id = label.asked id) :
      w'.checks id + label.answered id = w.checks id + label.asked id := by
    rw [checks_set set]
    by_cases same : id = other
    · subst same
      rw [if_pos rfl, counts rfl, waits]
    · rw [if_neg same, quiet same]
      rfl
  cases label with
  | streamEvents other runId owner run replayFrom lastEventId =>
      cases steps_of_step moved with
      | refuses denied => exact unchanged rfl rfl rfl
      | opens unused own =>
          have absent : w.connections.get other = none := by
            by_contra present
            obtain ⟨connection, found⟩ := Option.ne_none_iff_exists'.mp present
            rw [kept.isolated.answered connection.runId other ⟨connection, found, rfl⟩] at unused
            cases unused
          have none : w.checks other = 0 := by
            rw [checks, absent]
            rfl
          exact noted none rfl (fun _ => rfl) (fun _ => rfl)
  | disconnect other =>
      obtain ⟨connection, found, rfl⟩ := Option.map_eq_some_iff.mp moved
      exact noted (checks_of_found found) rfl (fun _ => rfl) (fun _ => rfl)
  | keepAlive other =>
      cases steps_of_step moved with
      | keepsAlive => exact unchanged rfl rfl rfl
      | silences found => exact noted (checks_of_found found) rfl (fun _ => rfl) (fun _ => rfl)
  | checkRunState other =>
      cases steps_of_step moved with
      | checks found =>
          refine noted (checks_of_found found) rfl ?_ ?_
          · rintro rfl
            simp [Label.answered, Label.asked]
          · intro different
            simp [Label.answered, Label.asked, Ne.symm different]
  | checked other currentRun =>
      simp only [step] at moved
      split at moved
      · cases moved
      · rename_i connection found
        split at moved
        · cases moved
        · rename_i waiting
          have counts : id = other →
              connection.checks - 1 + Label.answered id (.checked other currentRun) =
                connection.checks + Label.asked id (.checked other currentRun) := by
            rintro rfl
            simp only [Label.answered, Label.asked, if_true]
            omega
          have quiet : id ≠ other → Label.answered id (.checked other currentRun) =
              Label.asked id (.checked other currentRun) := by
            intro different
            simp [Label.answered, Label.asked, Ne.symm different]
          split at moved <;> cases moved
          · exact noted (checks_of_found found) rfl counts quiet
          · exact noted (checks_of_found found) rfl counts quiet
  | broadcastAgentEvent runId agentEvent =>
      cases moved
      exact unchanged rfl rfl rfl
  | broadcastOrchestratorEvent runId type payload =>
      cases moved
      exact unchanged rfl rfl rfl
  | closeRun runId =>
      cases moved
      exact unchanged rfl rfl rfl
  | tick elapsed =>
      cases moved
      exact unchanged rfl rfl rfl

end StreamServer

end Minerva
