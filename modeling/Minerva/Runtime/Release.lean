import Minerva.Runtime.Endings
import Minerva.Runtime.Orchestrator
import Minerva.Runtime.TerminalOnce
import Minerva.Sse.Vacancy

/-! What is kept for a run is released with the end of its execution: by `closeRun` and the
`terminalEvents.delete` after it. -/

namespace Minerva

def Call.tells : Call → Option RunId
  | .createRun (.updated run) => some run.id
  | call => (call.answers.filter (fun run => run.state = .cancelled)).map Run.id

namespace Runtime

instance (w : Runtime) (runId : RunId) : Decidable (w.Finished runId) :=
  decidable_of_iff (runId ∈ w.service.executions ∧
      ∀ task ∈ w.tasks.values, ∀ run ∈ task.runs, run.id ≠ runId) <| by
    constructor
    · rintro ⟨member, idle⟩
      refine ⟨member, ?_⟩
      intro id task run found runs
      exact idle task ((EsMap.mem_values_iff _ _).mpr ⟨id, found⟩) run runs
    · rintro ⟨member, idle⟩
      refine ⟨member, ?_⟩
      intro task listed run runs
      obtain ⟨id, found⟩ := (EsMap.mem_values_iff _ _).mp listed
      exact idle id task run found runs

/-- The turn of a task does not leave its run unclosed, ends no QUEUED run, and speaks of no run
whose execution is over. -/
def Tidies (w : Runtime) (task : Task) : Prop :=
  task.abandons = none ∧ ∀ call ∈ task.call,
    (∀ write ∈ call.write, isTerminalState write.2 = true → w.stateOf write.1 ≠ some .queued) ∧
    (∀ runId ∈ call.tells, ¬w.Finished runId) ∧
    ∀ cancelled ∈ call.cancels,
      w.service.runManager.cancellationRegistry.hears cancelled.1 = true →
        ¬w.Finished cancelled.1

instance (w : Runtime) (task : Task) : Decidable (w.Tidies task) :=
  inferInstanceAs (Decidable (_ ∧ ∀ call ∈ task.call, _ ∧ _ ∧ _))

def Tidy (w : Runtime) (label : Label) : Prop :=
  w.FreshRun label ∧ ∀ task ∈ w.turning label, w.Tidies task

instance (w : Runtime) (label : Label) : Decidable (w.Tidy label) :=
  inferInstanceAs (Decidable (_ ∧ ∀ task ∈ w.turning label, _))

def Begun (w : Runtime) : Prop :=
  ∀ runId, w.service.runManager.Ended runId → runId ∈ w.service.executions ∨
    ∃ id call userId, w.pending id = some call ∧ call.marked = some (userId, runId)

variable {w w' : Runtime} {label : Label} {id : Nat}

theorem Moves.begun (moves : w.Moves label id w') (serial : w.Serial)
    (tidies : ∀ task, w.tasks.get id = some task → w.Tidies task) (held : w.Begun) : w'.Begun := by
  have kept {runId : RunId} (begun : runId ∈ w.service.executions ∨
      ∃ id call userId, w.pending id = some call ∧ call.marked = some (userId, runId)) :
      runId ∈ w'.service.executions ∨
        ∃ id call userId, w'.pending id = some call ∧ call.marked = some (userId, runId) := by
    rcases begun with member | ⟨id', call, userId, pending, marked⟩
    · exact .inl ((moves.runs serial).subset member)
    · exact serial.marking moves pending marked
  rintro runId ⟨state, stored, terminal⟩
  rcases moves.move.stateOf runId with same | ⟨-, created⟩ |
    ⟨frame, call, before, newState, found, earlier, writes, after⟩
  · exact kept (held runId ⟨state, same ▸ stored, terminal⟩)
  · rw [created] at stored
    cases stored
    cases terminal
  · rw [after] at stored
    cases stored
    have waiting := ((tidies _ found).2 call rfl).1 (runId, state) writes terminal
    cases ended : isTerminalState before with
    | true => exact kept (held runId ⟨before, earlier, ended⟩)
    | false =>
        have active : isActiveState before = true := by
          apply active_of_live before _ ended
          rintro rfl
          exact waiting earlier
        exact kept (serial.executions.active runId before earlier active)

theorem Passes.begun (passes : w.Passes label w') (held : w.Begun) : w'.Begun := by
  obtain ⟨manager, -, -, -⟩ := passes.stores
  unfold Begun
  rw [manager, passes.executions, passes.pending]
  exact held

/-- What the run of the service by itself keeps. -/
structure Tended (w : Runtime) : Prop where
  serial : w.Serial
  owned : w.service.runManager.cancellationRegistry.Owned
  begun : w.Begun

theorem tended_of_reach {config : RunManagerConfig} {now : Int} {w : Runtime}
    (reached : Transition.Reach step Tidy (init config now) w) : w.Tended := by
  apply reached.invariant Tended
  · refine ⟨Serial.init config now, ?_, ?_⟩
    · intro runId context found
      cases found
    · rintro runId ⟨state, stored, -⟩
      cases stored
  · intro s label u tidy held moved
    rcases step_turns tidy.1 moved with ⟨id, moves, turns⟩ | passes
    · refine ⟨moves.serial held.serial, moves.owned held.owned, ?_⟩
      apply moves.begun held.serial _ held.begun
      intro task found
      exact tidy.2 task (turns ▸ found)
    · refine ⟨passes.serial held.serial, ?_, passes.begun held.begun⟩
      rw [passes.stores.1]
      exact held.owned

theorem Tended.finished (tended : w.Tended) (quiet : w.Quiescent) {runId : RunId}
    (ended : w.service.runManager.Ended runId) : w.Finished runId := by
  have idle := (EsMap.entries_eq_nil_iff _).mp quiet
  rcases tended.begun runId ended with member | ⟨id, call, userId, pending, -⟩
  · refine ⟨member, ?_⟩
    intro id task run found
    rw [idle id] at found
    cases found
  · rw [Runtime.pending, idle id] at pending
    cases pending

theorem Finished.before {runId : RunId} (finished : w'.Finished runId) (serial : w.Serial)
    (moves : w.Moves label id w') : w.Finished runId ∨ ∃ task run, w.tasks.get id = some task ∧
      task.runs = some run ∧ run.id = runId ∧ (w'.tasks.get id).bind Task.runs = none := by
  have earlier (member : runId ∈ w.service.executions)
      (here : ∀ task run, w.tasks.get id = some task → task.runs = some run → run.id ≠ runId) :
      w.Finished runId := by
    refine ⟨member, ?_⟩
    intro id' task run found runs
    by_cases same : id' = id
    · subst same
      exact here task run found runs
    · rw [← moves.other same] at found
      exact finished.2 id' task run found runs
  cases moves.runs serial with
  | outside before after quiet =>
      left
      apply earlier (quiet ▸ finished.1)
      intro task run found runs
      rw [found, Option.bind_some, runs] at before
      cases before
  | begins userId call random run was answers now heard =>
      left
      have other := finished.2 id _ run now rfl
      have member := finished.1
      rw [heard, List.mem_append, List.mem_singleton] at member
      apply earlier (member.resolve_right (Ne.symm other))
      intro task run' found runs
      rw [was] at found
      cases found
      cases runs
  | goes old new run was now ran runs loop sound quiet =>
      left
      apply earlier (quiet ▸ finished.1)
      intro task run' found runs'
      rw [was] at found
      cases found
      rw [ran] at runs'
      cases runs'
      exact finished.2 id new run now runs
  | exits old run was ran after ended quiet =>
      by_cases own : run.id = runId
      · exact .inr ⟨old, run, was, ran, own, after⟩
      · left
        apply earlier (quiet ▸ finished.1)
        intro task run' found runs'
        rw [was] at found
        cases found
        rw [ran] at runs'
        cases runs'
        exact own

theorem Moves.mute (moves : w.Moves label id w') (tended : w.Tended)
    (tidies : ∀ task, w.tasks.get id = some task → w.Tidies task) {runId : RunId}
    (finished : w.Finished runId) : Mute runId w.service w'.service := by
  have fits (frame : Frame) (call : Call) (found : w.tasks.get id = some (.calling frame call)) :
      frame.Fits call := tended.serial.loops.fits id frame call found
  rcases moves.move.mute fits tended.owned runId with speaks | mute
  · cases speaks with
    | executes task run was runs own => exact absurd own (finished.2 id task run was runs)
    | creates run was own =>
        subst own
        exact absurd finished (((tidies _ was).2 _ rfl).2.1 run.id rfl)
    | confirms reason call run was answers own state =>
        subst own
        refine absurd finished (((tidies _ was).2 call rfl).2.1 run.id ?_)
        cases call with
        | cancelRun runId reason pc =>
            change ((Call.cancelRun runId reason pc).answers.filter _).map Run.id = some run.id
            rw [answers]
            simp [state]
        | _ => cases answers
    | aborts frame call reason was cancels hears =>
        exact absurd finished (((tidies _ was).2 call rfl).2.2 (runId, reason) cancels hears)
  · exact mute

end Runtime

namespace Orchestrator

variable {w w' : Orchestrator} {runId : RunId}

/-- Nothing is kept for a run. -/
structure Released (w : Orchestrator) (runId : RunId) : Prop where
  events : w.streams.service.eventBuffer.getAllForRun runId = []
  counter : w.streams.service.sequencer.counters.get runId = none
  streams : w.streams.service.streamController.getConnectionCount runId = 0
  mark : runId ∉ w.runtime.service.terminalEvents

/-- No client is connected to a run whose execution is over. -/
def Tidy (w : Orchestrator) : Label → Prop
  | .runtime label => w.runtime.Tidy label
  | .connect id => ∀ request ∈ w.requests.get id, request.accepted = true →
      ¬w.runtime.Finished request.runId
  | _ => True

instance (w : Orchestrator) : ∀ label, Decidable (w.Tidy label)
  | .runtime label => inferInstanceAs (Decidable (w.runtime.Tidy label))
  | .connect id => inferInstanceAs (Decidable (∀ request ∈ w.requests.get id, _ → _))
  | .streamEvents _ _ _ _ _ | .disconnect _ | .keepAlive _ | .checkRunState _ | .checked _ =>
      instDecidableTrue

theorem vacant_observe {streams : StreamServer} {observation : Observation}
    (other : observation.about ≠ some runId) (vacant : streams.service.Vacant runId) :
    (observe streams observation).service.Vacant runId := by
  have about : ∀ label, observation.call = some label → label.about ≠ some runId := by
    intro label called
    cases observation <;> cases called
    · exact other
    · exact other
    · simp [StreamServer.Label.about]
  unfold observe
  cases called : observation.call with
  | none => exact vacant
  | some label =>
      cases moved : streams.step label with
      | none =>
          rw [Option.bind_some, moved]
          exact vacant
      | some after =>
          rw [Option.bind_some, moved]
          exact StreamServer.vacant_step moved vacant (about label called)

theorem vacant_foldl_observe {log : List Observation} {streams : StreamServer}
    (silent : ∀ observation ∈ log, observation.about ≠ some runId)
    (vacant : streams.service.Vacant runId) :
    (log.foldl observe streams).service.Vacant runId := by
  induction log generalizing streams with
  | nil => exact vacant
  | cons observation rest ih =>
      apply ih (fun later member => silent later (List.mem_cons_of_mem _ member))
      exact vacant_observe (silent observation (by simp)) vacant

theorem follow_streams {runtime : Runtime} {more : List Observation}
    (grown : runtime.service.log = w.runtime.service.log ++ more) :
    (w.follow runtime).streams =
      more.foldl observe { w.streams with now := runtime.service.now } := by
  simp only [follow, grown, List.drop_left]

theorem vacant_of_mute {runtime : Runtime} (mute : Mute runId w.runtime.service runtime.service)
    (vacant : w.streams.service.Vacant runId) :
    (w.follow runtime).streams.service.Vacant runId := by
  obtain ⟨more, grown, silent⟩ := mute.log
  rw [follow_streams grown]
  exact vacant_foldl_observe silent vacant

theorem vacant_of_seals {runtime : Runtime} (seals : Seals runId w.runtime.service runtime.service) :
    (w.follow runtime).streams.service.Vacant runId := by
  obtain ⟨before, after, grown, silent⟩ := seals.log
  rw [follow_streams grown, List.foldl_append, List.foldl_cons]
  exact vacant_foldl_observe silent (SSEService.vacant_closeRun _ _ runId)

/-- What is over is released. -/
def Clean (w : Orchestrator) : Prop :=
  ∀ runId, w.runtime.Finished runId →
    w.streams.service.Vacant runId ∧ runId ∉ w.runtime.service.terminalEvents

theorem Clean.turn (clean : w.Clean) (tended : w.runtime.Tended) {label : Runtime.Label}
    {runtime : Runtime} (tidy : w.runtime.Tidy label) (moved : w.runtime.step label = some runtime) :
    (w.follow runtime).Clean := by
  intro runId finished
  rcases Runtime.step_turns tidy.1 moved with ⟨id, moves, turns⟩ | passes
  · have tidies : ∀ task, w.runtime.tasks.get id = some task → w.runtime.Tidies task :=
      fun task found => tidy.2 task (turns ▸ found)
    rcases Runtime.Finished.before finished tended.serial moves with earlier |
      ⟨task, run, found, runs, rfl, past⟩
    · obtain ⟨vacant, unmarked⟩ := clean runId earlier
      have mute := moves.mute tended tidies earlier
      exact ⟨vacant_of_mute mute vacant, fun marked => unmarked (mute.marks marked)⟩
    · have seals := tended.serial.seals moves found runs past (tidies task found).1
      exact ⟨vacant_of_seals seals, seals.marks⟩
  · obtain ⟨-, tasks, -, marks⟩ := passes.stores
    have earlier : w.runtime.Finished runId := by
      unfold Runtime.Finished at finished ⊢
      rw [← passes.executions, ← tasks]
      exact finished
    obtain ⟨vacant, unmarked⟩ := clean runId earlier
    refine ⟨?_, fun marked => unmarked (marks ▸ marked)⟩
    cases passes with
    | tick elapsed => exact vacant_of_mute ⟨⟨[], by simp, by simp⟩, id⟩ vacant
    | agentEvent id event userId run listening prompting =>
        have other := earlier.2 id _ run prompting rfl
        exact vacant_of_mute (.note (by simpa [Observation.about] using other)) vacant

theorem Clean.step (clean : w.Clean) (tended : w.runtime.Tended) {label : Label}
    (tidy : w.Tidy label) (moved : w.step label = some w') : w'.Clean := by
  cases steps_of_step moved with
  | turns label runtime turned => exact clean.turn tended tidy turned
  | reads label requests => exact clean
  | serves label served w' same step timeless about =>
      intro runId finished
      rw [same] at finished ⊢
      obtain ⟨vacant, unmarked⟩ := clean runId finished
      refine ⟨StreamServer.vacant_step step vacant ?_, unmarked⟩
      intro own
      obtain ⟨id, request, rfl, found, accepted, rfl⟩ := about runId own
      exact tidy request found accepted finished

theorem clean_of_reach {config : RunManagerConfig} {now : Int}
    (reached : Transition.Reach step Tidy (init config now) w) : w.Clean := by
  apply reached.invariant_given (fun w => w.runtime.Tended) Clean
  · intro s earlier
    exact Runtime.tended_of_reach (runtime_of_reach (fun _ _ tidy => tidy) earlier)
  · intro runId finished
    cases finished.1
  · intro s label u tidy tended clean moved
    exact clean.step tended tidy moved

theorem released_of_vacant (vacant : w.streams.service.Vacant runId)
    (unmarked : runId ∉ w.runtime.service.terminalEvents) : w.Released runId where
  events := by
    rw [BoundedEventBuffer.getAllForRun, vacant.buffer]
    rfl
  counter := vacant.counter
  streams := by
    rw [MemorySSEStreamController.getConnectionCount, MemorySSEStreamController.connections,
      vacant.streams]
    rfl
  mark := unmarked

/-- As long as no QUEUED run is ended, no execution ends without `closeRun` and nothing is said of a
run whose execution is over, nothing is kept in a quiescent state for a run that has ended. -/
theorem ended_runs_are_released (config : RunManagerConfig) (now : Int) (w : Orchestrator)
    (reached : Transition.Reach step Tidy (init config now) w) (quiet : w.Quiescent) (runId : RunId)
    (state : RunState) (stored : w.runtime.stateOf runId = some state)
    (terminal : isTerminalState state = true) : w.Released runId := by
  have tended := Runtime.tended_of_reach (runtime_of_reach (fun _ _ tidy => tidy) reached)
  have finished := tended.finished quiet.1 ⟨state, stored, terminal⟩
  obtain ⟨vacant, unmarked⟩ := clean_of_reach reached runId finished
  exact released_of_vacant vacant unmarked

def cancelledLabels : List Label :=
  Runtime.promptedLabels.map .runtime ++
    [.streamEvents 0 "run_0_a" ⟨"acme", "alice"⟩ none none, .connect 0,
      .runtime (.cancelRun 1 "run_0_a" ⟨"acme", "alice"⟩ none)] ++
    List.replicate 6 (.runtime (.resume 1 "")) ++ .runtime (.reply 0 (.prompted [])) ::
    List.replicate 3 (.runtime (.resume 0 ""))

theorem cancelled_run_is_released :
    ∃ w : Orchestrator, w.Quiescent ∧ w.runtime.stateOf "run_0_a" = some .cancelled ∧
      w.Released "run_0_a" := by
  have ran : (Transition.exec (Transition.guarded step Tidy) (init .default 0)
      cancelledLabels).map (fun w => (w.runtime.tasks.entries.length, w.requests.entries.length,
        w.runtime.stateOf "run_0_a")) = some (0, 0, some .cancelled) := by decide +kernel
  obtain ⟨w, reached, observed⟩ := Transition.reach_of_observed _ _ ran
  simp only [Prod.mk.injEq] at observed
  obtain ⟨idle, served, stored⟩ := observed
  have quiet : w.Quiescent :=
    ⟨List.eq_nil_of_length_eq_zero idle, List.eq_nil_of_length_eq_zero served⟩
  exact ⟨w, quiet, stored,
    ended_runs_are_released .default 0 w reached quiet "run_0_a" .cancelled stored rfl⟩

def cancelledWhileQueuedLabels : List Runtime.Label :=
  Runtime.promptedLabels ++
    [.createRun 1 "b" ⟨"acme", "alice"⟩ ⟨some "pack", some "again", none⟩,
      .resume 1 "", .resume 1 "", .resume 1 "",
      .cancelRun 2 "run_0_b" ⟨"acme", "alice"⟩ none] ++
    List.replicate 6 (.resume 2 "") ++ .reply 0 (.prompted []) ::
    List.replicate 8 (.resume 0 "")

/-- The events of a run that is cancelled in the queue stay in the buffer for good. -/
theorem queued_run_is_kept :
    ¬∀ w : Orchestrator, Transition.Reach step FreshRun (init .default 0) w → w.Quiescent →
      ∀ runId state, w.runtime.stateOf runId = some state → isTerminalState state = true →
        w.Released runId := by
  intro always
  have ran : (Transition.exec (Transition.guarded step FreshRun) (init .default 0)
      (cancelledWhileQueuedLabels.map .runtime)).map (fun w => (w.runtime.tasks.entries.length,
        w.requests.entries.length, w.runtime.stateOf "run_0_b",
        (w.streams.service.eventBuffer.getAllForRun "run_0_b").length)) =
      some (0, 0, some .cancelled, 2) := by decide +kernel
  obtain ⟨w, reached, observed⟩ := Transition.reach_of_observed _ _ ran
  simp only [Prod.mk.injEq] at observed
  obtain ⟨idle, served, stored, buffered⟩ := observed
  have quiet : w.Quiescent :=
    ⟨List.eq_nil_of_length_eq_zero idle, List.eq_nil_of_length_eq_zero served⟩
  have released := always w reached quiet "run_0_b" .cancelled stored rfl
  rw [released.events] at buffered
  exact absurd buffered (by decide)

end Orchestrator

end Minerva
