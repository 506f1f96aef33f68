import Minerva.Runtime.Logs
import Minerva.Runtime.Loops
import Minerva.Services.Acquired

namespace Minerva

def Observation.executes : Observation → Option RunId
  | .executed runId => some runId
  | _ => none

def RunExecutionService.executions (s : RunExecutionService) : List RunId :=
  s.log.filterMap Observation.executes

/-- What a call that ends a run knows about it; `ended` says that it is stored as ended. -/
def EndPc.Sound (ended : Prop) : EndPc → Prop
  | .loaded run => run ≠ none
  | .released => True
  | .transition (.loaded run) => ∃ snapshot, run = some snapshot ∧ snapshot.state ≠ .queued ∧
      (isTerminalState snapshot.state = true → ended)
  | .transition .updated => ended
  | .transition (.reloaded _) => ended

def ExecPc.Sound (ended : Prop) : ExecPc → Prop
  | .finished _ _ latestRun => ∃ latest, latestRun = some latest ∧
      (isTerminalState latest.state = true → ended)
  | .caught _ _ _ latestRun => ∃ latest, latestRun = some latest ∧
      (isTerminalState latest.state = true → ended)
  | _ => True

def Task.Sound (ended : RunId → Prop) : Task → Prop
  | .calling (.complete _ run _) (.completeRun _ _ pc) => pc.Sound (ended run.id)
  | .calling (.fail _ run _ _) (.failRun _ _ pc) => pc.Sound (ended run.id)
  | .executing _ run pc => pc.Sound (ended run.id)
  | _ => True

theorem EndPc.Sound.mono {before after : Prop} {pc : EndPc} (sound : pc.Sound before)
    (later : before → after) : pc.Sound after := by
  cases pc with
  | loaded run => exact sound
  | released => trivial
  | transition pc =>
      cases pc with
      | loaded run =>
          obtain ⟨snapshot, read, started, terminal⟩ := sound
          exact ⟨snapshot, read, started, fun past => later (terminal past)⟩
      | updated => exact later sound
      | reloaded run => exact later sound

theorem ExecPc.Sound.mono {before after : Prop} {pc : ExecPc} (sound : pc.Sound before)
    (later : before → after) : pc.Sound after := by
  cases pc with
  | finished listening messages latestRun =>
      obtain ⟨latest, read, terminal⟩ := sound
      exact ⟨latest, read, fun past => later (terminal past)⟩
  | caught agent listening error latestRun =>
      obtain ⟨latest, read, terminal⟩ := sound
      exact ⟨latest, read, fun past => later (terminal past)⟩
  | _ => trivial

theorem Task.Sound.mono {before after : RunId → Prop} {task : Task} (sound : task.Sound before)
    (later : ∀ run, task.runs = some run → before run.id → after run.id) : task.Sound after := by
  unfold Task.Sound at sound ⊢
  split
  · exact EndPc.Sound.mono sound (later _ rfl)
  · exact EndPc.Sound.mono sound (later _ rfl)
  · exact ExecPc.Sound.mono sound (later _ rfl)
  · trivial

section

variable {m : RunManager} {now : Int} {runId : RunId} {newState : RunState}
  {metadata : TransitionMetadata} {pc : EndPc}

theorem EndPc.Sound.await (sound : pc.Sound (m.Ended runId)) (left : m.Left runId)
    (terminal : isTerminalState newState = true)
    (kept : m.Ended runId → (m.endRunResume now runId newState metadata pc).manager.Ended runId)
    {pc' : EndPc} (awaits : (m.endRunResume now runId newState metadata pc).progress = .await pc') :
    pc'.Sound ((m.endRunResume now runId newState metadata pc).manager.Ended runId) := by
  rcases Call.end_await awaits with ⟨run, rfl, -, rfl⟩ | ⟨-, rfl⟩ | ⟨inner, next, rfl, rfl, step⟩
  · trivial
  · obtain ⟨stored, found, started⟩ := left.getRun
    exact ⟨stored, found, started, fun past => kept (RunManager.ended_of_getRun found past)⟩
  · rcases Call.transition_await step with ⟨run, stored, rfl, valid, found, rfl⟩ |
      ⟨stored, rfl, found, rfl⟩
    · have state : m.stateOf runId = some stored.state := by
        rw [RunManager.stateOf, found]
        rfl
      exact ⟨newState, Call.transition_writes m now runId newState metadata run stored.state valid
        state, terminal⟩
    · exact kept sound

theorem EndPc.Sound.resolve (sound : pc.Sound (m.Ended runId)) {run : Run}
    (answers : (m.endRunResume now runId newState metadata pc).progress = .resolve run) :
    m.Ended runId := by
  have last := Call.end_resolve answers
  subst last
  exact sound

theorem EndPc.Sound.reject (sound : pc.Sound (m.Ended runId)) (left : m.Left runId)
    {error : RunError}
    (throws : (m.endRunResume now runId .failed metadata pc).progress = .reject error) :
    m.Ended runId := by
  rcases Call.end_reject throws with rfl | rfl | missing | ⟨run, rfl, invalid⟩
  · exact absurd rfl sound
  · obtain ⟨snapshot, impossible, -⟩ := sound
    cases impossible
  · obtain ⟨stored, found, -⟩ := left.getRun
    rw [missing] at found
    cases found
  · obtain ⟨snapshot, same, started, past⟩ := sound
    cases same
    apply past
    cases state : run.state <;> simp_all [isValidStateTransition, validStateTransitions,
      isTerminalState]

end

namespace RunExecutionService

@[simp] theorem note_executions (s : RunExecutionService) (observation : Observation) :
    (s.note observation).executions = s.executions ++ observation.executes.toList := by
  unfold executions note
  rw [List.filterMap_append]
  cases observation <;> rfl

@[simp] theorem broadcast_executions (s : RunExecutionService) (runId : RunId) (event : RunEvent) :
    (s.broadcastOrchestratorEvent runId event).executions = s.executions := by
  simp [broadcastOrchestratorEvent, Observation.executes]

@[simp] theorem processUserQueue_executions (s : RunExecutionService) (userId : UserId) :
    (s.processUserQueue userId).1.executions = s.executions := by
  unfold processUserQueue
  split <;> rfl

@[simp] theorem emitTerminalOnce_executions (s : RunExecutionService) (runId : RunId)
    (event : RunEvent) : (s.emitTerminalOnce runId event).executions = s.executions := by
  unfold emitTerminalOnce
  split
  · rfl
  · exact broadcast_executions _ _ _

@[simp] theorem closeRun_executions (s : RunExecutionService) (runId : RunId) :
    (s.closeRun runId).executions = s.executions := by
  simp [closeRun, Observation.executes]

@[simp] theorem forgetTerminal_executions (s : RunExecutionService) (runId : RunId) :
    (s.forgetTerminal runId).executions = s.executions := rfl

@[simp] theorem finish_executions (s : RunExecutionService) (run : Run) (agent listening : Bool) :
    (s.finish run agent listening).executions = s.executions := by
  unfold finish
  split <;> simp [Observation.executes]

theorem foldl_abortListener_executions (aborts : List Abort) (s : RunExecutionService) :
    (aborts.foldl abortListener s).executions = s.executions := by
  have logs : Logs (fun observation => observation.executes = none) s
      (aborts.foldl abortListener s) := by
    apply Logs.foldl_abortListener
    intro abort member observation noted
    rcases noted with rfl | ⟨event, -, rfl⟩ <;> rfl
  exact logs.filterMap (fun _ silent => silent)

@[simp] theorem delivered_executions (s : RunExecutionService) (turn : Turn Call (Option Run)) :
    (s.delivered turn).executions = s.executions :=
  foldl_abortListener_executions turn.aborts { s with runManager := turn.manager }

theorem replied_sound {s : RunExecutionService} {userId : UserId} {run : Run} {pc : ExecPc}
    {reply : Reply} {outcome : Outcome} (left : s.runManager.Left run.id)
    (answer : s.replied userId run pc reply = some outcome) :
    outcome.1.executions = s.executions ∧
      ∀ task, outcome.2 = some task → task.Sound outcome.1.runManager.Ended := by
  have read := left.read
  cases replied_cases answer with
  | imports =>
      refine ⟨rfl, ?_⟩
      rintro task ⟨⟩
      trivial
  | provisions =>
      refine ⟨rfl, ?_⟩
      rintro task ⟨⟩
      trivial
  | starts workspaceId =>
      refine ⟨rfl, ?_⟩
      rintro task ⟨⟩
      trivial
  | prompts signal was pack =>
      cases signal with
      | none =>
          refine ⟨by simp [startPrompt, Observation.executes], ?_⟩
          rintro task ⟨⟩
          trivial
      | some signal =>
          refine ⟨by simp [startPrompt, Observation.executes]; rfl, ?_⟩
          rintro task ⟨⟩
          trivial
  | finishes listening messages =>
      refine ⟨rfl, ?_⟩
      rintro task ⟨⟩
      exact read
  | throws agent listening error =>
      refine ⟨rfl, ?_⟩
      rintro task ⟨⟩
      exact read

theorem executeResume_sound {s : RunExecutionService} {userId : UserId} {run : Run} {pc : ExecPc}
    {outcome : Outcome} (left : s.runManager.Left run.id)
    (sound : pc.Sound (s.runManager.Ended run.id))
    (goes : s.executeResume userId run pc = some outcome) :
    outcome.1.executions = s.executions ∧
      ((∃ task, outcome.2 = some task ∧ task.runs = some run ∧ task.loop = some userId ∧
          task.Sound s.runManager.Ended) ∨
        outcome.2 = some (.executed userId) ∧ s.runManager.Ended run.id) := by
  obtain ⟨stored, found, -⟩ := left.getRun
  have present : s.runManager.getRun run.id ≠ none := by simp [found]
  have past {state : RunState} (either : state = .cancelled ∨ state = .timedOut) :
      isTerminalState state = true := by
    rcases either with rfl | rfl <;> rfl
  cases executeResume_cases goes with
  | vanishes listening messages error =>
      obtain ⟨latest, impossible, -⟩ := sound
      cases impossible
  | closes listening messages latestRun stopped =>
      obtain ⟨latest, same, terminal⟩ := sound
      cases same
      exact ⟨by simp [exit], .inr ⟨rfl, terminal (past stopped)⟩⟩
  | completes listening messages latestRun going => exact ⟨rfl, .inl ⟨_, rfl, rfl, rfl, present⟩⟩
  | leaves agent listening error latestRun stopped =>
      obtain ⟨latest, same, terminal⟩ := sound
      exact ⟨by simp [exit], .inr ⟨rfl, terminal (past (stopped latest same))⟩⟩
  | fails agent listening error latestRun going => exact ⟨rfl, .inl ⟨_, rfl, rfl, rfl, present⟩⟩

end RunExecutionService

inductive RunsMove (s : RunExecutionService) (old : Option Task) (s' : RunExecutionService)
    (new : Option Task) : Prop
  | outside (before : old.bind Task.runs = none) (after : new.bind Task.runs = none)
      (quiet : s'.executions = s.executions)
  | begins (userId : UserId) (call : Call) (random : String) (run : Run)
      (was : old = some (.calling (.acquire userId) call))
      (answers : (call.resume s.runManager s.now random).progress = .resolve (some run))
      (now : new = some (.executing userId run .checkingHealth))
      (heard : s'.executions = s.executions ++ [run.id])
  | goes (task task' : Task) (run : Run) (was : old = some task) (now : new = some task')
      (ran : task.runs = some run) (runs : task'.runs = some run) (loop : task'.loop = task.loop)
      (sound : task'.Sound s'.runManager.Ended) (quiet : s'.executions = s.executions)
  | exits (task : Task) (run : Run) (was : old = some task) (ran : task.runs = some run)
      (after : new.bind Task.runs = none) (ended : s'.runManager.Ended run.id)
      (quiet : s'.executions = s.executions)

theorem Call.ends_terminal {call : Call} {runId id : RunId} {newState : RunState}
    (ends : call.ends = some runId) (writes : call.write = some (id, newState)) :
    isTerminalState newState = true := by
  rcases Call.write_eq_some writes with ⟨userId, lease, rfl, -⟩ | ⟨run, inside, -⟩
  · cases ends
  · unfold Call.transition at inside
    split at inside <;> cases inside
    · cases ends
    · rfl
    · rfl
    · rfl
    · rfl

def Frame.ends : Frame → Option Run
  | .complete _ run _ => some run
  | .fail _ run _ _ => some run
  | _ => none

theorem Frame.Fits.ends {frame : Frame} {call : Call} {runId : RunId} (fits : frame.Fits call)
    (ends : call.ends = some runId) : ∃ run, frame.ends = some run ∧ run.id = runId := by
  cases call <;> cases ends <;> cases frame <;> simp only [Frame.Fits] at fits
  · exact ⟨_, rfl, fits⟩
  · exact ⟨_, rfl, fits⟩

theorem Frame.runs_of_ends {frame : Frame} {call : Call} {run : Run} (ends : frame.ends = some run) :
    (Task.calling frame call).runs = some run := by
  cases frame <;> cases ends <;> rfl

theorem Frame.Fits.ending {frame : Frame} {call : Call} {run : Run} (fits : frame.Fits call)
    (ends : frame.ends = some run) :
    ∃ pc newState metadata wrap, call.ends = some run.id ∧ isTerminalState newState = true ∧
      (∀ userId agent listening, frame = .fail userId run agent listening → newState = .failed) ∧
      (∀ m now random, call.resume m now random =
        Call.settle wrap some (m.endRunResume now run.id newState metadata pc)) ∧
      (∀ ended, Task.Sound ended (.calling frame call) ↔ pc.Sound (ended run.id)) ∧
      ∀ ended pc', Task.Sound ended (.calling frame (wrap pc')) ↔ pc'.Sound (ended run.id) := by
  cases frame with
  | complete userId completed listening =>
      cases ends
      cases call <;> simp only [Frame.Fits] at fits
      subst fits
      rename_i finalMessages pc
      refine ⟨pc, .completed, ⟨none, finalMessages⟩, .completeRun run.id finalMessages, rfl, rfl, ?_,
        fun _ _ _ => rfl, fun _ => Iff.rfl, fun _ _ => Iff.rfl⟩
      intro user agent listens same
      cases same
  | fail userId failed agent listening =>
      cases ends
      cases call <;> simp only [Frame.Fits] at fits
      subst fits
      rename_i error pc
      exact ⟨pc, .failed, ⟨some error, none⟩, .failRun run.id error, rfl, rfl, fun _ _ _ _ => rfl,
        fun _ _ _ => rfl, fun _ => Iff.rfl, fun _ _ => Iff.rfl⟩
  | _ => cases ends

theorem Frame.Fits.ends_turn {m : RunManager} {frame : Frame} {call : Call} {run : Run}
    (fits : frame.Fits call) (ends : frame.ends = some run)
    (sound : Task.Sound m.Ended (.calling frame call)) (left : m.Left run.id) (now : Int)
    (random : String) :
    (∀ next, (call.resume m now random).progress = .await next →
        Task.Sound (call.resume m now random).manager.Ended (.calling frame next)) ∧
      (∀ answer, (call.resume m now random).progress = .resolve answer →
        (call.resume m now random).manager.Ended run.id) ∧
      ∀ userId agent listening error, frame = .fail userId run agent listening →
        (call.resume m now random).progress = .reject error →
          (call.resume m now random).manager.Ended run.id := by
  obtain ⟨pc, newState, metadata, wrap, ending, terminal, failing, turn, before, after⟩ :=
    fits.ending ends
  have kept : m.Ended run.id → (call.resume m now random).manager.Ended run.id :=
    Call.ended_resume now random call (fun _ writes => Call.ends_terminal ending writes)
  rw [turn, Call.settle_manager] at kept ⊢
  have known := (before _).mp sound
  refine ⟨?_, ?_, ?_⟩
  · intro next goes
    obtain ⟨pc', awaits, rfl⟩ := (Call.settle_await _ _ _ _).mp goes
    exact (after _ _).mpr (known.await left terminal kept awaits)
  · intro answer resolves
    obtain ⟨run', answers, -⟩ := (Call.settle_resolve _ _ _ _).mp resolves
    exact kept (known.resolve answers)
  · intro userId agent listening error fails rejects
    have throws := (Call.settle_reject _ _ _ _).mp rejects
    have target := failing userId agent listening fails
    subst target
    exact kept (known.reject left throws)

theorem Move.runs {s s' : RunExecutionService} {old new : Option Task} (move : Move s old s' new)
    (fits : ∀ frame call, old = some (.calling frame call) → frame.Fits call)
    (sound : ∀ task, old = some task → task.Sound s.runManager.Ended)
    (left : ∀ task run, old = some task → task.runs = some run → s.runManager.Left run.id) :
    RunsMove s old s' new := by
  cases move with
  | declined => exact .outside rfl rfl rfl
  | created random input fresh => exact .outside rfl rfl rfl
  | requested runId owner reason => exact .outside rfl rfl rfl
  | fired timer runId timeoutManager due => exact .outside rfl rfl rfl
  | refused runId owner reason run => exact .outside rfl rfl rfl
  | cancelling runId owner reason run => exact .outside rfl rfl rfl
  | awaits frame call next random goes =>
      have quiet := s.delivered_executions (call.resume s.runManager s.now random)
      have fit := fits frame call rfl
      have known := sound _ rfl
      cases frame with
      | start userId run workspaceId => exact .goes _ _ run rfl rfl rfl rfl rfl trivial quiet
      | complete userId run listening =>
          have after := (fit.ends_turn rfl known (left _ run rfl rfl) s.now random).1 next goes
          rw [← s.delivered_runManager] at after
          exact .goes _ _ run rfl rfl rfl rfl rfl after quiet
      | fail userId run agent listening =>
          have after := (fit.ends_turn rfl known (left _ run rfl rfl) s.now random).1 next goes
          rw [← s.delivered_runManager] at after
          exact .goes _ _ run rfl rfl rfl rfl rfl after quiet
      | _ => exact .outside rfl rfl quiet
  | resolves frame call random run answers =>
      have quiet := s.delivered_executions (call.resume s.runManager s.now random)
      have manager := s.delivered_runManager (call.resume s.runManager s.now random)
      have fit := fits frame call rfl
      have known := sound _ rfl
      generalize s.delivered (call.resume s.runManager s.now random) = t at quiet manager
      cases frame with
      | createRun =>
          cases run with
          | none => exact .outside rfl rfl quiet
          | some run =>
              refine .outside rfl ?_ (by simpa [RunExecutionService.resolved] using quiet)
              simp only [RunExecutionService.resolved, RunExecutionService.processUserQueue]
              split <;> rfl
      | cancelRun reason =>
          cases run with
          | none => exact .outside rfl rfl quiet
          | some run =>
              simp only [RunExecutionService.resolved]
              split <;> exact .outside rfl rfl (by simpa using quiet)
      | acquire userId =>
          cases run with
          | none => exact .outside rfl rfl quiet
          | some run =>
              refine .begins userId call random run rfl answers rfl ?_
              simp [RunExecutionService.resolved, RunExecutionService.executeRun, quiet,
                Observation.executes]
      | start userId started workspaceId =>
          cases run with
          | none => exact absurd answers (fit.answers (by simp) (by simp))
          | some run =>
              refine .goes _ _ started rfl rfl rfl rfl rfl trivial ?_
              simpa [RunExecutionService.resolved] using quiet
      | complete userId completed listening =>
          have past := (fit.ends_turn rfl known (left _ completed rfl rfl) s.now random).2.1 run
            answers
          cases run with
          | none => exact absurd answers (fit.answers (by simp) (by simp))
          | some run =>
              refine .exits _ completed rfl rfl rfl ?_ ?_
              · rw [RunExecutionService.resolved_manager, manager]
                exact past
              · simpa [RunExecutionService.resolved, RunExecutionService.exit] using quiet
      | fail userId failed agent listening =>
          have past := (fit.ends_turn rfl known (left _ failed rfl rfl) s.now random).2.1 run answers
          cases run with
          | none => exact absurd answers (fit.answers (by simp) (by simp))
          | some run =>
              refine .exits _ failed rfl rfl rfl ?_ ?_
              · rw [RunExecutionService.resolved_manager, manager]
                exact past
              · simpa [RunExecutionService.resolved, RunExecutionService.exit] using quiet
      | timeout => exact .outside rfl rfl quiet
  | rejects frame call random error throws =>
      have quiet := s.delivered_executions (call.resume s.runManager s.now random)
      have manager := s.delivered_runManager (call.resume s.runManager s.now random)
      have fit := fits frame call rfl
      have known := sound _ rfl
      have read {run : Run} (stays : s.runManager.Left run.id) :=
        (Call.left_resume s.now random call stays).read
      rw [← manager] at read
      generalize s.delivered (call.resume s.runManager s.now random) = t at quiet manager read
      cases frame with
      | start userId run workspaceId =>
          exact .goes _ _ run rfl rfl rfl rfl rfl (read (left _ run rfl rfl)) quiet
      | complete userId run listening =>
          exact .goes _ _ run rfl rfl rfl rfl rfl (read (left _ run rfl rfl)) quiet
      | fail userId run agent listening =>
          have past := (fit.ends_turn rfl known (left _ run rfl rfl) s.now random).2.2 userId agent
            listening error rfl throws
          refine .exits _ run rfl rfl rfl ?_ ?_
          · rw [RunExecutionService.rejected_manager, manager]
            exact past
          · simpa [RunExecutionService.rejected] using quiet
      | _ => exact .outside rfl rfl quiet
  | replied userId run pc reply outcome answer =>
      obtain ⟨-, task, after, loop, runs⟩ := RunExecutionService.replied_task answer
      obtain ⟨quiet, known⟩ := RunExecutionService.replied_sound (left _ run rfl rfl) answer
      exact .goes _ task run rfl after rfl runs loop (known task after) quiet
  | continued userId run pc outcome goes =>
      obtain ⟨quiet, ⟨task, after, runs, loop, known⟩ | ⟨after, ended⟩⟩ :=
        RunExecutionService.executeResume_sound (left _ run rfl rfl) (sound _ rfl) goes
      · refine .goes _ task run rfl after rfl runs loop ?_ quiet
        rw [RunExecutionService.executeResume_manager goes]
        exact known
      · refine .exits _ run rfl rfl ?_ ?_ quiet
        · rw [after]
          rfl
        · rw [RunExecutionService.executeResume_manager goes]
          exact ended
  | again userId => exact .outside rfl rfl rfl
  | died userId => exact .outside rfl rfl rfl

end Minerva
