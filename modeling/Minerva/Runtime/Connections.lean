import Minerva.Runtime.Closing
import Minerva.Runtime.Release
import Minerva.Sse.Lifetimes

namespace Minerva

theorem Runtime.log_grows {w w' : Runtime} {label : Label} (fresh : w.FreshRun label)
    (moved : w.step label = some w') :
    ∃ more, w'.service.log = w.service.log ++ more := by
  rcases step_cases fresh moved with ⟨id, moves⟩ | passes
  · rcases moves.move.log with ⟨more, grown, -⟩ | ⟨-, run, -, -, grown⟩
    · exact ⟨more, grown⟩
    · exact ⟨[.prompted run.id], grown⟩
  · cases passes with
    | tick elapsed => exact ⟨[], (List.append_nil _).symm⟩
    | agentEvent id event userId run listening prompting => exact ⟨_, rfl⟩

namespace Orchestrator

variable {w w' : Orchestrator} {label : Label} {config : RunManagerConfig} {start : Int}
  {id : StreamId}

def Sees (id : StreamId) (runId : RunId) (w : Orchestrator) (label : Label) : Prop :=
  label = .checkRunState id ∧
    ∃ state, w.runtime.stateOf runId = some state ∧ isTerminalState state = true

/-- The client has left, the poll has read a terminal state, or the service has closed the run. -/
def Excused (config : RunManagerConfig) (start : Int) (w : Orchestrator) (id : StreamId)
    (runId : RunId) : Prop :=
  Transition.Occurred step FreshRun (init config start)
      (fun s label => label = .disconnect id ∨ Sees id runId s label) w ∨
    .closed runId ∈ w.runtime.service.log

def reading (w : Orchestrator) (id : StreamId) : List (Option Run) := (w.reads.get id).getD []

/-- The reads of the polls are those that the connections wait for, and what has ended has been
excused. -/
structure Accounted (config : RunManagerConfig) (start : Int) (w : Orchestrator) : Prop where
  counted : ∀ id, (w.reading id).length = w.streams.checks id
  seen : ∀ id connection run, w.streams.connections.get id = some connection →
    some run ∈ w.reading id → isTerminalState run.state = true →
    Transition.Occurred step FreshRun (init config start) (Sees id connection.runId) w
  excused : ∀ id connection chunks, w.streams.connections.get id = some connection →
    w.streams.responses.table.get id = some ⟨chunks, true⟩ →
    w.Excused config start id connection.runId

theorem Accounted.init (config : RunManagerConfig) (start : Int) :
    (init config start).Accounted config start where
  counted := fun _ => rfl
  seen := by rintro id connection run ⟨⟩
  excused := by rintro id connection chunks ⟨⟩

theorem Excused.next {runId : RunId} (excused : w.Excused config start id runId)
    (fresh : w.FreshRun label) (moved : w.step label = some w')
    (grown : ∃ more, w'.runtime.service.log = w.runtime.service.log ++ more) :
    w'.Excused config start id runId := by
  rcases excused with occurred | closed
  · exact .inl (occurred.next fresh moved)
  · obtain ⟨more, grown⟩ := grown
    right
    rw [grown]
    exact List.mem_append_left _ closed

theorem attended_of_reach (reached : Transition.Reach step FreshRun (init config start) w) :
    w.streams.Attended :=
  StreamServer.attended_of_reach (streams_of_reach reached).1

@[simp] theorem observe_connections (streams : StreamServer) (observation : Observation) :
    (observe streams observation).connections = streams.connections := by
  cases observation <;> rfl

@[simp] theorem foldl_observe_connections (log : List Observation) (streams : StreamServer) :
    (log.foldl observe streams).connections = streams.connections := by
  induction log generalizing streams with
  | nil => rfl
  | cons observation rest ih => rw [List.foldl_cons, ih, observe_connections]

theorem observe_ended {streams : StreamServer} (attended : streams.Attended)
    (observation : Observation) {connection : Connection} {chunks : List Chunk}
    (found : streams.connections.get id = some connection)
    (ended : (observe streams observation).responses.table.get id = some ⟨chunks, true⟩) :
    streams.responses.table.get id = some ⟨chunks, true⟩ ∨ observation = .closed connection.runId := by
  unfold observe at ended
  cases called : observation.call with
  | none =>
      rw [called] at ended
      exact .inl ended
  | some label =>
      rw [called, Option.bind_some] at ended
      cases moved : streams.step label with
      | none =>
          rw [moved] at ended
          exact .inl ended
      | some after =>
          rw [moved, Option.getD_some] at ended
          obtain ⟨now, stored, -⟩ := StreamServer.keeps_of_step attended.kept moved found
          obtain ⟨before, here, own, earlier | reason⟩ :=
            StreamServer.ended_before attended moved stored ended
          · exact .inl earlier
          · right
            rcases reason with rfl | ⟨run, -, rfl⟩ | ⟨closing, held, rfl⟩
            · cases observation <;> cases called
            · cases observation <;> cases called
            · cases found.symm.trans held
              cases observation <;> cases called
              rfl

theorem foldl_observe_ended (log : List Observation) {streams : StreamServer}
    (attended : streams.Attended) {connection : Connection} {chunks : List Chunk}
    (found : streams.connections.get id = some connection)
    (ended : (log.foldl observe streams).responses.table.get id = some ⟨chunks, true⟩) :
    streams.responses.table.get id = some ⟨chunks, true⟩ ∨ .closed connection.runId ∈ log := by
  induction log generalizing streams with
  | nil => exact .inl ended
  | cons observation rest ih =>
      have attended' : (observe streams observation).Attended :=
        ((observe_runs streams observation).1).invariant StreamServer.Attended attended
          (fun _ _ _ _ attended moved => attended.step moved)
      rcases ih attended' (by rw [observe_connections, found]) ended with earlier | closed
      · rcases observe_ended attended observation found earlier with before | rfl
        · exact .inl before
        · exact .inr List.mem_cons_self
      · exact .inr (List.mem_cons_of_mem _ closed)

theorem Accounted.turn (accounted : w.Accounted config start)
    (attended : w.streams.Attended) {label : Runtime.Label} {runtime : Runtime}
    (fresh : w.FreshRun (.runtime label)) (turned : w.runtime.step label = some runtime)
    (moved : w.step (.runtime label) = some (w.follow runtime)) :
    (w.follow runtime).Accounted config start := by
  obtain ⟨more, grown⟩ := Runtime.log_grows fresh turned
  have connections : (w.follow runtime).streams.connections = w.streams.connections :=
    foldl_observe_connections _ _
  refine ⟨?_, ?_, ?_⟩
  · intro id
    rw [StreamServer.checks, connections]
    exact accounted.counted id
  · rw [connections]
    intro id connection run found member terminal
    exact (accounted.seen id connection run found member terminal).next fresh moved
  · rw [connections]
    intro id connection chunks found ended
    have drop : runtime.service.log.drop w.runtime.service.log.length = more := by
      rw [grown, List.drop_left]
    have attended' : StreamServer.Attended { w.streams with now := runtime.service.now } :=
      ⟨⟨⟨attended.kept.isolated.separate, attended.kept.isolated.filed,
        attended.kept.isolated.answered⟩, attended.kept.distinct, attended.kept.named⟩,
        attended.polled⟩
    rcases foldl_observe_ended _ attended' found ended with earlier | closed
    · exact (accounted.excused id connection chunks found earlier).next fresh moved ⟨more, grown⟩
    · rw [drop] at closed
      right
      show Observation.closed connection.runId ∈ runtime.service.log
      rw [grown]
      exact List.mem_append_right _ closed

def Label.answersTo (id : StreamId) : Label → Bool
  | .checked other => other = id
  | _ => false

inductive Reads (w : Orchestrator) (id : StreamId) (label : Label) (served : StreamServer.Label) :
    List (Option Run) → Prop
  | same (quiet : served.answered id = served.asked id) (elsewhere : label.answersTo id = false) :
      Reads w id label served (w.reading id)
  | asks (connection : Connection) (asked : label = .checkRunState id)
      (same : served = .checkRunState id) (found : w.streams.connections.get id = some connection) :
      Reads w id label served
        (w.reading id ++ [w.runtime.service.runManager.getRun connection.runId])
  | answers (currentRun : Option Run) (rest : List (Option Run)) (answered : label = .checked id)
      (same : served = .checked id currentRun) (first : w.reading id = currentRun :: rest) :
      Reads w id label served rest

structure Serves (w : Orchestrator) (label : Label) (served : StreamServer.Label)
    (w' : Orchestrator) : Prop where
  same : w'.runtime = w.runtime
  streams : w.streams.step served = some w'.streams
  reads : ∀ id, Reads w id label served (w'.reading id)
  leaves : ∀ id, served = .disconnect id → label = .disconnect id
  closes : ∀ runId, served ≠ .closeRun runId

theorem reading_set {reads : List (Option Run)} {other : StreamId} {t : Orchestrator}
    (set : t.reads = w.reads.set other reads) (id : StreamId) :
    t.reading id = if id = other then reads else w.reading id := by
  rw [reading, set, EsMap.get_set]
  split <;> rfl

theorem Serves.aside {t : Orchestrator} {served : StreamServer.Label}
    (goes : t.serve served = some w') (same : t.runtime = w.runtime)
    (streams : t.streams = w.streams) (reads : t.reads = w.reads)
    (quiet : ∀ id, served.answered id = served.asked id)
    (elsewhere : ∀ id, label.answersTo id = false)
    (leaves : ∀ id, served = .disconnect id → label = .disconnect id)
    (closes : ∀ runId, served ≠ .closeRun runId) : Serves w label served w' := by
  obtain ⟨runtime, step⟩ := served_of_serve goes same streams
  obtain ⟨after, -, rfl⟩ := Option.map_eq_some_iff.mp goes
  refine ⟨runtime, step, ?_, leaves, closes⟩
  intro id
  have unread : Orchestrator.reading { t with streams := after } id = w.reading id := by
    rw [Orchestrator.reading, reads, Orchestrator.reading]
  rw [unread]
  exact .same (quiet id) (elsewhere id)

theorem serves_of_step (moved : w.step label = some w') :
    (∃ turn runtime, label = .runtime turn ∧ w.runtime.step turn = some runtime ∧
        w' = w.follow runtime) ∨
      (∃ requests, (∀ id, label.answersTo id = false) ∧ w' = { w with requests }) ∨
      ∃ served, Serves w label served w' := by
  cases label with
  | runtime turn =>
      obtain ⟨runtime, step, rfl⟩ := Option.map_eq_some_iff.mp moved
      exact .inl ⟨turn, runtime, rfl, step, rfl⟩
  | streamEvents id runId owner replayFrom lastEventId =>
      simp only [step] at moved
      split at moved <;> cases moved
      exact .inr (.inl ⟨_, fun _ => rfl, rfl⟩)
  | connect id =>
      simp only [step] at moved
      split at moved
      · cases moved
      · exact .inr (.inr ⟨_, .aside moved rfl rfl rfl (fun _ => rfl) (fun _ => rfl) (by simp)
          (by simp)⟩)
  | disconnect id =>
      exact .inr (.inr ⟨_, .aside moved rfl rfl rfl (fun _ => rfl) (fun _ => rfl) (by simp)
        (by simp)⟩)
  | keepAlive id =>
      exact .inr (.inr ⟨_, .aside moved rfl rfl rfl (fun _ => rfl) (fun _ => rfl) (by simp)
        (by simp)⟩)
  | checkRunState id =>
      simp only [step] at moved
      split at moved
      · cases moved
      · rename_i connection found
        obtain ⟨runtime, step⟩ := served_of_serve (w := w) moved rfl rfl
        obtain ⟨after, -, rfl⟩ := Option.map_eq_some_iff.mp moved
        refine .inr (.inr ⟨_, runtime, step, ?_, by simp, by simp⟩)
        intro other
        rw [reading_set (w := w) rfl]
        split
        · rename_i same
          subst same
          exact .asks connection rfl rfl found
        · rename_i different
          apply Reads.same _ rfl
          simp [StreamServer.Label.answered, StreamServer.Label.asked, Ne.symm different]
  | checked id =>
      simp only [step] at moved
      split at moved
      · rename_i currentRun rest found
        obtain ⟨runtime, step⟩ := served_of_serve (w := w) moved rfl rfl
        obtain ⟨after, -, rfl⟩ := Option.map_eq_some_iff.mp moved
        refine .inr (.inr ⟨_, runtime, step, ?_, by simp, by simp⟩)
        intro other
        rw [reading_set (w := w) rfl]
        split
        · rename_i same
          subst same
          exact .answers currentRun rest rfl rfl (by rw [reading, found, Option.getD_some])
        · rename_i different
          apply Reads.same
          · simp [StreamServer.Label.answered, StreamServer.Label.asked, Ne.symm different]
          · simp [Label.answersTo, Ne.symm different]
      · cases moved

namespace Serves

variable {served : StreamServer.Label}

theorem answers (serves : Serves w label served w') {run : Option Run}
    (same : served = .checked id run) : w.reading id = run :: w'.reading id := by
  have reads := serves.reads id
  generalize w'.reading id = after at reads
  subst same
  cases reads with
  | same quiet elsewhere => simp [StreamServer.Label.answered, StreamServer.Label.asked] at quiet
  | asks connection asked same found => cases same
  | answers currentRun rest answered same first =>
      cases same
      exact first

theorem counts (serves : Serves w label served w') (id : StreamId) :
    (w'.reading id).length + served.answered id = (w.reading id).length + served.asked id := by
  have reads := serves.reads id
  generalize w'.reading id = after at reads
  cases reads with
  | same quiet elsewhere => rw [quiet]
  | asks connection asked same found =>
      subst same
      simp [StreamServer.Label.answered, StreamServer.Label.asked]
  | answers currentRun rest answered same first =>
      subst same
      simp [StreamServer.Label.answered, StreamServer.Label.asked, first]

theorem kept (serves : Serves w label served w') {run : Run} (member : some run ∈ w'.reading id) :
    some run ∈ w.reading id ∨ label = .checkRunState id ∧ ∃ connection,
      w.streams.connections.get id = some connection ∧
        w.runtime.service.runManager.getRun connection.runId = some run := by
  have reads := serves.reads id
  generalize w'.reading id = after at reads member
  cases reads with
  | same quiet elsewhere => exact .inl member
  | asks connection asked same found =>
      rcases List.mem_append.mp member with earlier | now
      · exact .inl earlier
      · rw [List.mem_singleton] at now
        exact .inr ⟨asked, connection, found, now.symm⟩
  | answers currentRun rest answered same first =>
      rw [first]
      exact .inl (List.mem_cons_of_mem _ member)

end Serves

theorem Accounted.ended (accounted : w.Accounted config start) (attended : w.streams.Attended)
    (reached : Transition.Reach step FreshRun (Orchestrator.init config start) w)
    (fresh : w.FreshRun label) (moved : w.step label = some w') {served : StreamServer.Label}
    (serves : Serves w label served w') {connection : Connection} {chunks : List Chunk}
    (found : w'.streams.connections.get id = some connection)
    (ended : w'.streams.responses.table.get id = some ⟨chunks, true⟩) :
    w'.Excused config start id connection.runId := by
  obtain ⟨before, stored, own, earlier | reason⟩ :=
    StreamServer.ended_before attended serves.streams found ended
  · rw [← own]
    exact (accounted.excused id before chunks stored earlier).next fresh moved
      ⟨[], by rw [serves.same, List.append_nil]⟩
  · rcases reason with rfl | ⟨run, terminal, rfl⟩ | ⟨closing, -, rfl⟩
    · exact .inl (.of_step reached fresh moved (.inl (serves.leaves id rfl)))
    · have listed : some run ∈ w.reading id := by
        rw [serves.answers rfl]
        exact List.mem_cons_self
      have seen := accounted.seen id before run stored listed terminal
      rw [own] at seen
      exact .inl ((seen.next fresh moved).mono (fun _ _ sees => .inr sees))
    · exact absurd rfl (serves.closes closing.runId)

theorem Accounted.step (accounted : w.Accounted config start) (attended : w.streams.Attended)
    (reached : Transition.Reach step FreshRun (Orchestrator.init config start) w)
    (fresh : w.FreshRun label) (moved : w.step label = some w') : w'.Accounted config start := by
  rcases serves_of_step moved with ⟨turn, runtime, rfl, turned, rfl⟩ | ⟨requests, -, rfl⟩ |
    ⟨served, serves⟩
  · exact accounted.turn attended fresh turned moved
  · refine ⟨accounted.counted, ?_, ?_⟩
    · intro id connection run found member terminal
      exact (accounted.seen id connection run found member terminal).next fresh moved
    · intro id connection chunks found ended
      exact (accounted.excused id connection chunks found ended).next fresh moved
        ⟨[], (List.append_nil _).symm⟩
  · refine ⟨?_, ?_, ?_⟩
    · intro id
      have asked := serves.counts id
      have waits := StreamServer.checks_step attended.kept serves.streams id
      have counted := accounted.counted id
      omega
    · intro id connection run found member terminal
      -- whoever waits for a read has had its connection before
      have known : ∃ before, w.streams.connections.get id = some before ∧
          before.runId = connection.runId ∧
            (some run ∈ w.reading id ∨ Sees id before.runId w label) := by
        rcases serves.kept member with earlier | ⟨rfl, before, stored, current⟩
        · have waiting : 0 < w.streams.checks id := by
            rw [← accounted.counted id]
            exact List.length_pos_of_mem earlier
          obtain ⟨before, stored⟩ := StreamServer.found_of_checks waiting
          obtain ⟨after, stored', own, -⟩ :=
            StreamServer.keeps_of_step attended.kept serves.streams stored
          cases found.symm.trans stored'
          exact ⟨before, stored, own.symm, .inl earlier⟩
        · obtain ⟨after, stored', own, -⟩ :=
            StreamServer.keeps_of_step attended.kept serves.streams stored
          cases found.symm.trans stored'
          refine ⟨before, stored, own.symm, .inr ⟨rfl, run.state, ?_, terminal⟩⟩
          rw [Runtime.stateOf, RunManager.stateOf, current, Option.map_some]
      obtain ⟨before, stored, own, earlier | sees⟩ := known
      · have seen := accounted.seen id before run stored earlier terminal
        rw [own] at seen
        exact seen.next fresh moved
      · rw [own] at sees
        exact .of_step reached fresh moved sees
    · intro id connection chunks found ended
      exact accounted.ended attended reached fresh moved serves found ended

theorem accounted_of_reach (reached : Transition.Reach step FreshRun (init config start) w) :
    w.Accounted config start := by
  induction reached with
  | refl => exact Accounted.init config start
  | next earlier fresh moved ih => exact ih.step (attended_of_reach earlier) earlier fresh moved

/-- However the service, its clients and the polls of their connections are interleaved: a response
that is open is still polled for the end of its run, and one that has ended was ended by its client,
after a poll that found the run stored as terminal, or when the execution of the run was over. -/
theorem responses_end_for_a_reason (config : RunManagerConfig) (start : Int) (w : Orchestrator)
    (reached : Transition.Reach step FreshRun (init config start) w) (id : StreamId)
    (response : Response) (found : w.streams.responses.table.get id = some response) :
    ∃ connection, w.streams.connections.get id = some connection ∧
      (response.writableEnded = false → connection.checkRunState = true) ∧
      (response.writableEnded = true →
        Transition.Occurred step FreshRun (init config start)
          (fun s label => label = .disconnect id ∨ Sees id connection.runId s label) w ∨
        w.runtime.Finished connection.runId) := by
  obtain ⟨connection, stored, polls⟩ := (attended_of_reach reached).polled id response found
  refine ⟨connection, stored, polls.poll, ?_⟩
  intro ended
  obtain ⟨chunks, writableEnded⟩ := response
  cases ended
  rcases (accounted_of_reach reached).excused id connection chunks stored found with left | closed
  · exact .inl left
  · exact .inr (Runtime.closed_runs_are_finished (fun _ _ fresh => fresh)
      (runtime_of_reach (fun _ _ fresh => fresh) reached) connection.runId closed)

/-- The response of the client that is connected to a cancelled run ends with the execution. -/
theorem closed_response_has_a_reason :
    ∃ (w : Orchestrator) (chunks : List Chunk),
      w.streams.responses.table.get 0 = some ⟨chunks, true⟩ ∧
      ∃ connection, w.streams.connections.get 0 = some connection ∧
        (Transition.Occurred step FreshRun (init .default 0)
          (fun s label => label = .disconnect 0 ∨ Sees 0 connection.runId s label) w ∨
        w.runtime.Finished connection.runId) := by
  have ran : (Transition.exec (Transition.guarded step FreshRun) (init .default 0)
      cancelledLabels).map (fun w =>
        (w.streams.responses.table.get 0).map Response.writableEnded) = some (some true) := by
    decide +kernel
  obtain ⟨w, reached, observed⟩ := Transition.reach_of_observed _ _ ran
  obtain ⟨⟨chunks, writableEnded⟩, found, ended⟩ := Option.map_eq_some_iff.mp observed
  cases ended
  obtain ⟨connection, stored, -, reason⟩ :=
    responses_end_for_a_reason .default 0 w reached 0 ⟨chunks, true⟩ found
  exact ⟨w, chunks, found, connection, stored, reason rfl⟩

theorem streams_of_step (fresh : w.FreshRun label) (moved : w.step label = some w')
    (clock : w.streams.now = w.runtime.service.now) :
    Transition.Reach StreamServer.step Transition.Free w.streams w'.streams := by
  rcases serves_of_step moved with ⟨turn, runtime, rfl, turned, rfl⟩ | ⟨requests, -, rfl⟩ |
    ⟨served, serves⟩
  · obtain ⟨elapsed, passes⟩ := Runtime.now_of_step fresh turned
    have ticked : w.streams.step (.tick elapsed) =
        some { w.streams with now := runtime.service.now } := by
      rw [passes, ← clock]
      rfl
    exact (Transition.Reach.refl.next trivial ticked).trans (foldl_observe_runs _ _).1
  · exact .refl
  · exact Transition.Reach.refl.next trivial serves.streams

/-- The poll waits for a read that has found its run in a terminal state, as the read after `n`
others. -/
def Due (w : Orchestrator) (id : StreamId) (n : Nat) : Prop :=
  ∃ before run rest, w.reading id = before ++ some run :: rest ∧ before.length = n ∧
    isTerminalState run.state = true

theorem Due.step {n : Nat} (due : w.Due id n) (attended : w.streams.Attended)
    (moved : w.step label = some w') :
    w'.streams.Gone id ∨ if label.answersTo id then 0 < n ∧ w'.Due id (n - 1) else w'.Due id n := by
  obtain ⟨before, run, rest, waiting, rfl, terminal⟩ := due
  rcases serves_of_step moved with ⟨turn, runtime, rfl, turned, rfl⟩ | ⟨requests, elsewhere, rfl⟩ |
    ⟨served, serves⟩
  · exact .inr ⟨before, run, rest, waiting, rfl, terminal⟩
  · rw [elsewhere id]
    exact .inr ⟨before, run, rest, waiting, rfl, terminal⟩
  · have reads := serves.reads id
    generalize now : w'.reading id = after at reads
    cases reads with
    | same quiet elsewhere =>
        rw [elsewhere]
        exact .inr ⟨before, run, rest, now.trans waiting, rfl, terminal⟩
    | asks connection asked same found =>
        subst asked
        refine .inr ⟨before, run, rest ++ [w.runtime.service.runManager.getRun connection.runId], ?_,
          rfl, terminal⟩
        rw [now, waiting, List.append_assoc, List.cons_append]
    | answers currentRun left answered same first =>
        subst answered same
        cases before with
        | nil =>
            rw [waiting] at first
            cases first
            exact .inl (StreamServer.gone_of_checked attended.kept terminal serves.streams)
        | cons earlier more =>
            rw [waiting] at first
            cases first
            simp only [Label.answersTo, decide_true, if_true]
            exact .inr ⟨Nat.succ_pos _, more, run, rest, now, rfl, terminal⟩

theorem Due.answerable {n : Nat} (due : w.Due id n) (accounted : w.Accounted config start) :
    w.step (.checked id) ≠ none := by
  obtain ⟨before, run, rest, waiting, -, -⟩ := due
  have counted := accounted.counted id
  obtain ⟨first, more, here⟩ : ∃ first more, w.reads.get id = some (first :: more) := by
    cases found : w.reads.get id with
    | none =>
        rw [reading, found] at waiting
        simp at waiting
    | some reads =>
        rw [reading, found, Option.getD_some] at waiting
        cases reads with
        | nil => simp at waiting
        | cons first more => exact ⟨first, more, rfl⟩
  have some_reads : w.reading id = first :: more := by rw [reading, here, Option.getD_some]
  rw [some_reads, List.length_cons] at counted
  obtain ⟨connection, found⟩ :=
    StreamServer.found_of_checks (Nat.lt_of_lt_of_eq (Nat.succ_pos _) counted)
  have checks : connection.checks ≠ 0 := by
    rw [← StreamServer.checks_of_found found, ← counted]
    exact Nat.succ_ne_zero _
  have goes : w.streams.step (.checked id first) ≠ none := by
    simp only [StreamServer.step, found, if_neg checks]
    split <;> simp
  obtain ⟨after, moved⟩ := Option.ne_none_iff_exists'.mp goes
  simp [Orchestrator.step, here, serve, moved]

theorem Due.path {n : Nat} {labels : List Label} (due : w.Due id n)
    (path : Transition.Path Orchestrator.step FreshRun w labels w')
    (reached : Transition.Reach Orchestrator.step FreshRun (init config start) w) :
    Transition.Reach Orchestrator.step FreshRun (init config start) w' ∧
      (w'.streams.Gone id ∨
        ∃ left, w'.Due id left ∧ left + (labels.filter (Label.answersTo id)).length = n) := by
  -- a connection that is gone stays gone
  have gone {s t : Orchestrator} {labels : List Label}
      (reached : Transition.Reach Orchestrator.step FreshRun (init config start) s)
      (path : Transition.Path Orchestrator.step FreshRun s labels t) (closed : s.streams.Gone id) :
      Transition.Reach Orchestrator.step FreshRun (init config start) t ∧ t.streams.Gone id := by
    apply path.invariant (fun s => Transition.Reach Orchestrator.step FreshRun (init config start) s ∧
      s.streams.Gone id) ⟨reached, closed⟩
    rintro s label u fresh ⟨reached, closed⟩ moved
    exact ⟨reached.next fresh moved, (StreamServer.gone_of_reach
      (streams_of_step fresh moved (streams_of_reach reached).2) closed
      (attended_of_reach reached)).2⟩
  induction path generalizing n with
  | nil => exact ⟨reached, .inr ⟨n, due, rfl⟩⟩
  | @cons s t u label rest fresh moved path ih =>
      have later := reached.next fresh moved
      rcases due.step (attended_of_reach reached) moved with closed | due'
      · obtain ⟨reached', closed'⟩ := gone later path closed
        exact ⟨reached', .inl closed'⟩
      · rw [List.filter_cons]
        split at due'
        · rename_i answers
          obtain ⟨reached', closed | ⟨left, due, counted⟩⟩ := ih due'.2 later
          · exact ⟨reached', .inl closed⟩
          · refine ⟨reached', .inr ⟨left, due, ?_⟩⟩
            rw [if_pos answers, List.length_cons]
            omega
        · rename_i elsewhere
          rw [if_neg elsewhere]
          exact ih due' later

/-- From every reachable state in which an open response belongs to a run that is stored as
terminal: its poll can read the run, and whatever happens from then on, once this read and the ones
before it are answered, the response has been ended and its connection cleaned up; until then the
next answer can come. -/
theorem responses_end_with_their_run (config : RunManagerConfig) (start : Int) (w : Orchestrator)
    (reached : Transition.Reach step FreshRun (init config start) w) (id : StreamId)
    (chunks : List Chunk) (found : w.streams.responses.table.get id = some ⟨chunks, false⟩)
    (connection : Connection) (stored : w.streams.connections.get id = some connection)
    (state : RunState) (ended : w.runtime.stateOf connection.runId = some state)
    (terminal : isTerminalState state = true) :
    ∃ polled, w.step (.checkRunState id) = some polled ∧
      ∀ labels w', Transition.Path step FreshRun polled labels w' →
        (w'.streams.Gone id ∨ w'.step (.checked id) ≠ none) ∧
          ((w.reading id).length < (labels.filter (Label.answersTo id)).length →
            w'.streams.Gone id) := by
  obtain ⟨known, same, polls⟩ := (attended_of_reach reached).polled id _ found
  cases stored.symm.trans same
  obtain ⟨run, current, rfl⟩ := Option.map_eq_some_iff.mp ended
  have goes : w.streams.step (.checkRunState id) ≠ none := by
    simp [StreamServer.step, stored, polls.poll rfl]
  obtain ⟨after, asked⟩ := Option.ne_none_iff_exists'.mp goes
  have moved : w.step (.checkRunState id) = some { w with
      streams := after
      reads := w.reads.set id (w.reading id ++ [some run]) } := by
    simp only [step, stored, current, serve, asked, Option.map_some]
    rfl
  have later := reached.next (show w.FreshRun (.checkRunState id) from trivial) moved
  refine ⟨_, moved, ?_⟩
  intro labels w' path
  have due : Due { w with
      streams := after
      reads := w.reads.set id (w.reading id ++ [some run]) } id (w.reading id).length :=
    ⟨w.reading id, run, [], by rw [reading, EsMap.get_set_self, Option.getD_some], rfl, terminal⟩
  obtain ⟨reached', gone | ⟨left, due', counted⟩⟩ := due.path path later
  · exact ⟨.inl gone, fun _ => gone⟩
  · refine ⟨.inr (due'.answerable (accounted_of_reach reached')), ?_⟩
    intro enough
    omega

/-- The run is cancelled while its agent works and a client watches it. -/
theorem watched_run_is_polled :
    ∃ w : Orchestrator, w.runtime.stateOf "run_0_a" = some .cancelled ∧
      ∃ polled, w.step (.checkRunState 0) = some polled ∧
        ∀ labels w', Transition.Path step FreshRun polled labels w' →
          (w.reading 0).length < (labels.filter (Label.answersTo 0)).length →
          w'.streams.Gone 0 := by
  have ran : (Transition.exec (Transition.guarded step FreshRun) (init .default 0)
      (cancelledLabels.take 26)).map (fun w => (w.runtime.stateOf "run_0_a",
        (w.streams.responses.table.get 0).map Response.writableEnded,
        (w.streams.connections.get 0).map Connection.runId)) =
      some (some .cancelled, some false, some "run_0_a") := by decide +kernel
  obtain ⟨w, reached, observed⟩ := Transition.reach_of_observed _ _ ran
  simp only [Prod.mk.injEq] at observed
  obtain ⟨cancelled, isOpen, own⟩ := observed
  obtain ⟨⟨chunks, writableEnded⟩, found, going⟩ := Option.map_eq_some_iff.mp isOpen
  cases going
  obtain ⟨connection, stored, same⟩ := Option.map_eq_some_iff.mp own
  obtain ⟨polled, moved, later⟩ := responses_end_with_their_run .default 0 w reached 0 chunks found
    connection stored .cancelled (by rw [same]; exact cancelled) rfl
  exact ⟨w, cancelled, polled, moved, fun labels w' path => (later labels w' path).2⟩

end Orchestrator

end Minerva
