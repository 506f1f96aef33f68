import Minerva.Runtime.LeftBehind
import Minerva.Services.Remaining

/-! The service comes to rest: every request is paid for with a bounded number of turns, whatever
the order of the turns, and where nothing is left to do every run has ended. -/

namespace Minerva

/-- The turns that a continuation adds at most to those of the call that it awaits. A run that is
acquired is counted separately. -/
def Frame.rest : Frame → Nat
  | .createRun => 5
  | .cancelRun _ => 0
  | .acquire _ => 0
  | .start _ _ _ => 20
  | .complete _ _ _ => 12
  | .fail _ _ _ _ => 6
  | .timeout => 0

def ExecPc.budget : ExecPc → Nat
  | .checkingHealth => 33
  | .importing => 32
  | .provisioning => 31
  | .loadingPack _ => 20
  | .prompting _ => 19
  | .finished _ _ _ => 18
  | .caught _ _ _ _ => 12

namespace Task

/-- The turns that a task has left at most, with those of a timeout that it may still arm. -/
def budget : Task → Nat
  | .calling frame call => call.turns + 6 * call.arms + frame.rest
  | .cancelRequested _ _ _ _ => 7
  | .executing _ _ pc => pc.budget
  | .executed _ => 6
  | .executeFailed _ => 1

def cost (task : Option Task) : Nat := (task.map budget).getD 0

/-- A task that a run depends on: the loop of its user, a call that carries the run, or a
`createRun` that is about to wake the loop. -/
def Holds (task : Task) (runId : RunId) (userId : UserId) : Prop :=
  task.loop = some userId ∨
    ∃ call, task.call = some call ∧ (call.Carries runId ∨ call.wakes = some userId)

theorem budget_pos (task : Task) : 0 < task.budget := by
  cases task with
  | calling frame call =>
      have left := call.turns_pos
      simp only [budget]
      omega
  | executing userId run pc => cases pc <;> exact Nat.succ_pos _
  | _ => exact Nat.succ_pos _

end Task

namespace RunExecutionService

theorem resolved_cost (s : RunExecutionService) (frame : Frame) (run : Option Run) :
    Task.cost (s.resolved frame run).2 ≤ frame.rest ∨
      ∃ userId nextRun, frame = .acquire userId ∧
        (s.resolved frame run).2 = some (.executing userId nextRun .checkingHealth) := by
  unfold resolved
  split
  · left
    unfold processUserQueue
    split
    · exact Nat.zero_le _
    · exact Nat.le_refl 5
  · left
    split <;> exact Nat.zero_le _
  · exact .inl (Nat.zero_le _)
  · exact .inr ⟨_, _, rfl, rfl⟩
  · exact .inl (Nat.le_refl 20)
  · exact .inl (Nat.le_add_right 6 6)
  · exact .inl (Nat.le_refl 6)
  · exact .inl (Nat.zero_le _)

theorem rejected_cost (s : RunExecutionService) (frame : Frame) (error : RunError) :
    Task.cost (s.rejected frame error).2 ≤ frame.rest := by
  unfold rejected
  split
  · exact Nat.zero_le _
  · exact Nat.le_add_right 12 8
  · exact Nat.le_refl 12
  · exact Nat.le_add_right 1 5
  · exact Nat.zero_le _

theorem createRun_cost (s : RunExecutionService) (random : String) (owner : OwnerPrincipal)
    (body : CreateRunRequestBody) :
    Task.cost (s.createRun random owner body).2 ≤ 8 ∧
      (s.createRun random owner body).1.runManager.timeoutManager = s.runManager.timeoutManager ∧
      (s.createRun random owner body).1.runManager.repo.runs.size ≤ s.runManager.repo.runs.size + 1 ∧
      (s.createRun random owner body).1.executions = s.executions := by
  unfold createRun
  split
  · exact ⟨Nat.le_refl 8, rfl, EsMap.size_set_le _ _ _, rfl⟩
  · exact ⟨Nat.zero_le 8, rfl, Nat.le_add_right _ 1, rfl⟩

theorem replied_cost {s : RunExecutionService} {userId : UserId} {run : Run} {pc : ExecPc}
    {reply : Reply} {outcome : Outcome} (answer : s.replied userId run pc reply = some outcome) :
    Task.cost outcome.2 + 1 ≤ pc.budget := by
  unfold replied at answer
  split at answer
  · split at answer <;> cases answer
    · exact Nat.le_refl 33
    · exact Nat.le_add_right 13 20
  · cases answer
    exact Nat.le_refl 32
  · cases answer
    exact Nat.le_refl 31
  · rename_i signal
    cases answer
    cases signal <;> exact Nat.le_refl 20
  · cases answer
    exact Nat.le_add_right 13 7
  · cases answer
    exact Nat.le_refl 19
  all_goals cases answer
  all_goals simp [enterCatch, Task.cost, Task.budget, ExecPc.budget]

theorem executeResume_cost {s : RunExecutionService} {userId : UserId} {run : Run} {pc : ExecPc}
    {outcome : Outcome} (goes : s.executeResume userId run pc = some outcome) :
    Task.cost outcome.2 + 1 ≤ pc.budget := by
  cases executeResume_cases goes with
  | vanishes listening messages error => exact Nat.le_add_right 13 5
  | closes listening messages latestRun stopped => exact Nat.le_add_right 7 11
  | completes listening messages latestRun going => exact Nat.le_refl 18
  | leaves agent listening error latestRun stopped => exact Nat.le_add_right 7 5
  | fails agent listening error latestRun going => exact Nat.le_refl 12

end RunExecutionService

theorem Move.cost {s s' : RunExecutionService} {task : Task} {new : Option Task}
    (move : Move s (some task) s' new) :
    s'.runManager.repo.runs.size = s.runManager.repo.runs.size ∧
      (Task.cost new + 6 * s'.runManager.timeoutManager.timers.size + 1 ≤
          task.budget + 6 * s.runManager.timeoutManager.timers.size ∨
        (∃ userId call run, task = .calling (.acquire userId) call ∧
            new = some (.executing userId run .checkingHealth)) ∧
          Task.cost new + 6 * s'.runManager.timeoutManager.timers.size + 1 ≤
            task.budget + 6 * s.runManager.timeoutManager.timers.size + 33) := by
  -- a turn that leaves the stores alone
  have still {cost budget : Nat} (left : cost + 1 ≤ budget) (manager : s'.runManager = s.runManager) :
      cost + 6 * s'.runManager.timeoutManager.timers.size + 1 ≤
        budget + 6 * s.runManager.timeoutManager.timers.size := by
    rw [manager]
    omega
  -- the last turn of a call
  have settled {frame : Frame} {call : Call} {random : String} (cost : Nat)
      (manager : s'.runManager = (call.resume s.runManager s.now random).manager)
      (left : cost ≤ frame.rest) :
      cost + 6 * s'.runManager.timeoutManager.timers.size + 1 ≤
        (Task.calling frame call).budget + 6 * s.runManager.timeoutManager.timers.size := by
    have armed := call.resume_timers_size s.runManager s.now random
    have more := call.turns_pos
    rw [manager, Task.budget]
    omega
  cases move with
  | refused runId owner reason run => exact ⟨rfl, .inl (still (Nat.le_add_left 1 6) rfl)⟩
  | cancelling runId owner reason run => exact ⟨rfl, .inl (still (Nat.le_refl 7) rfl)⟩
  | awaits frame call next random goes =>
      have pending : Call.pending (call.resume s.runManager s.now random) = some next := by
        rw [Call.pending, goes]
      have fewer := Call.turns_next pending
      have armed := call.resume_timers_size s.runManager s.now random
      rw [pending, Option.map_some, Option.getD_some] at armed
      refine ⟨?_, .inl ?_⟩
      · rw [RunExecutionService.delivered_runManager, Call.resume_runs_size]
      · rw [RunExecutionService.delivered_runManager]
        simp only [Task.cost, Task.budget, Option.map_some, Option.getD_some]
        omega
  | resolves frame call random run answers =>
      have manager : ((s.delivered (call.resume s.runManager s.now random)).resolved frame
          run).1.runManager = (call.resume s.runManager s.now random).manager := by
        rw [RunExecutionService.resolved_manager, RunExecutionService.delivered_runManager]
      refine ⟨by rw [manager, Call.resume_runs_size], ?_⟩
      rcases RunExecutionService.resolved_cost
          (s.delivered (call.resume s.runManager s.now random)) frame run with
        left | ⟨userId, nextRun, rfl, acquired⟩
      · exact .inl (settled _ manager left)
      · right
        refine ⟨⟨userId, call, nextRun, rfl, acquired⟩, ?_⟩
        have rest := settled 0 manager (Nat.zero_le (Frame.acquire userId).rest)
        rw [acquired]
        simp only [Task.cost, Task.budget, ExecPc.budget, Option.map_some, Option.getD_some] at rest ⊢
        omega
  | rejects frame call random error throws =>
      have manager : ((s.delivered (call.resume s.runManager s.now random)).rejected frame
          error).1.runManager = (call.resume s.runManager s.now random).manager := by
        rw [RunExecutionService.rejected_manager, RunExecutionService.delivered_runManager]
      have left := RunExecutionService.rejected_cost
        (s.delivered (call.resume s.runManager s.now random)) frame error
      exact ⟨by rw [manager, Call.resume_runs_size], .inl (settled _ manager left)⟩
  | replied userId run pc reply outcome answer =>
      have left := RunExecutionService.replied_cost answer
      rcases RunExecutionService.replied_manager answer with ⟨manager, -⟩ | ⟨signal, -, -, manager, -⟩
      · exact ⟨by rw [manager], .inl (still left manager)⟩
      · rw [manager]
        refine ⟨rfl, .inl ?_⟩
        simp only [Task.budget]
        omega
  | continued userId run pc outcome goes =>
      have manager := RunExecutionService.executeResume_manager goes
      exact ⟨by rw [manager], .inl (still (RunExecutionService.executeResume_cost goes) manager)⟩
  | again userId => exact ⟨rfl, .inl (still (Nat.le_refl 6) rfl)⟩
  | died userId => exact ⟨rfl, .inl (still (Nat.le_refl 1) rfl)⟩

theorem RunsMove.length_le {s s' : RunExecutionService} {old new : Option Task}
    (move : RunsMove s old s' new) : s.executions.length ≤ s'.executions.length := by
  cases move with
  | outside before after quiet => rw [quiet]
  | begins userId call random run was answers now heard =>
      rw [heard, List.length_append]
      exact Nat.le_add_right _ _
  | goes task task' run was now ran runs loop sound quiet => rw [quiet]
  | exits task run was ran after ended quiet => rw [quiet]

theorem RunsMove.length_acquired {s s' : RunExecutionService} {userId : UserId} {call : Call}
    {task : Task} {run : Run}
    (move : RunsMove s (some (.calling (.acquire userId) call)) s' (some task))
    (runs : task.runs = some run) : s'.executions.length = s.executions.length + 1 := by
  cases move with
  | outside before after quiet =>
      rw [Option.bind_some, runs] at after
      cases after
  | begins userId call random run was answers now heard => simp [heard]
  | goes task task' run was now ran runs loop sound quiet =>
      cases was
      cases ran
  | exits task run was ran after ended quiet =>
      cases was
      cases ran

namespace Runtime

def Label.turn : Label → Bool
  | .fire _ _ => true
  | .resume _ _ => true
  | .reply _ _ => true
  | _ => false

def Label.allowance : Label → Nat
  | .createRun _ _ _ _ => 41
  | .cancelRun _ _ _ _ => 7
  | _ => 0

def unexecuted (w : Runtime) : Nat :=
  w.service.runManager.repo.runs.size - w.service.executions.length

def potential (w : Runtime) : Nat :=
  w.tasks.total Task.budget + 6 * w.service.runManager.timeoutManager.timers.size +
    33 * w.unexecuted

variable {w w' : Runtime} {label : Label} {id : Nat}

theorem total_store (w : Runtime) (id : Nat) (outcome : Outcome) :
    (w.store id outcome).tasks.total Task.budget + Task.cost (w.tasks.get id) =
      w.tasks.total Task.budget + Task.cost outcome.2 := by
  obtain ⟨service, task⟩ := outcome
  cases task with
  | none => exact w.tasks.total_delete Task.budget id
  | some task => exact w.tasks.total_set Task.budget id task

theorem Serial.executions_le (serial : w.Serial) :
    w.service.executions.length ≤ w.service.runManager.repo.runs.size := by
  apply EsMap.length_le_size serial.executions.once
  intro runId executed
  obtain ⟨run, found, -⟩ := (serial.executions.left runId executed).getRun
  rw [show w.service.runManager.repo.runs.get runId = some run from found]
  exact Option.some_ne_none run

theorem Serial.turn_pays (serial : w.Serial) {outcome : Outcome} {task : Task}
    (moves : w.Moves label id (w.store id outcome)) (found : w.tasks.get id = some task) :
    (w.store id outcome).potential + 1 ≤ w.potential := by
  have total := w.total_store id outcome
  have left : (w.store id outcome).tasks.get id = outcome.2 := by
    rw [get_store, Function.update_self]
  obtain ⟨runs, timers⟩ := (found ▸ left ▸ moves.move : Move w.service (some task)
    (w.store id outcome).service outcome.2).cost
  have more := serial.executions_le
  have more' := (moves.serial serial).executions_le
  have budget : Task.cost (w.tasks.get id) = task.budget := by
    rw [found]
    rfl
  have executed := moves.runs serial
  rw [found, left] at executed
  have longer := executed.length_le
  simp only [potential, unexecuted]
  rcases timers with kept | ⟨⟨userId, call, run, rfl, acquired⟩, kept⟩
  · omega
  · rw [acquired] at executed
    have heard := executed.length_acquired rfl
    omega

theorem potential_spawned (free : w.tasks.get id = none) (outcome : Outcome)
    (heard : outcome.1.executions = w.service.executions) :
    (w.store id outcome).potential =
      w.tasks.total Task.budget + Task.cost outcome.2 +
        6 * outcome.1.runManager.timeoutManager.timers.size +
          33 * (outcome.1.runManager.repo.runs.size - w.service.executions.length) := by
  have total := w.total_store id outcome
  have nothing : Task.cost (w.tasks.get id) = 0 := by
    rw [free]
    rfl
  rw [potential, unexecuted, store_service, heard]
  omega

/-- A turn takes one from the potential at least, a request adds what it pays for at most, and
nothing else changes it. -/
theorem Serial.step_pays (serial : w.Serial) (fresh : w.FreshRun label)
    (moved : w.step label = some w') :
    (if label.turn then 1 else 0) + w'.potential ≤ label.allowance + w.potential := by
  -- a task that goes on
  have turn {id : Nat} {task : Task} {outcome : Outcome} (found : w.tasks.get id = some task)
      (move : Move w.service (some task) outcome.1 outcome.2)
      (resumed : w.resumed label = (w.pending id).map (id, ·)) :
      1 + (w.store id outcome).potential ≤ w.potential := by
    rw [← found] at move
    have pays := serial.turn_pays (moves_store move resumed) found
    omega
  cases steps_of_step moved with
  | creates id random owner body free =>
      obtain ⟨cost, timers, runs, heard⟩ := w.service.createRun_cost random owner body
      rw [potential_spawned free _ heard, timers, potential, unexecuted]
      simp only [Label.turn, Label.allowance, Bool.false_eq_true, if_false]
      omega
  | requests id runId owner body free =>
      have cost : Task.cost (w.service.cancelRun runId owner body).2 = 7 := rfl
      rw [potential_spawned free _ rfl, cost, potential, unexecuted]
      simp only [Label.turn, Label.allowance, Bool.false_eq_true, if_false,
        RunExecutionService.cancelRun]
      omega
  | fires id timer runId timeoutManager free due =>
      have fired : timeoutManager.timers.size + 1 =
          w.service.runManager.timeoutManager.timers.size :=
        InMemoryTimeoutManager.size_fire due
      rw [potential_spawned free _ rfl, potential, unexecuted]
      simp only [Label.turn, Label.allowance, if_true, Task.cost, Task.budget, Call.turns,
        RunManager.timeoutRun, TimeoutPc.turns, Call.arms, Frame.rest, Option.map_some,
        Option.getD_some]
      omega
  | resumes id random task outcome found goes =>
      simpa [Label.turn, Label.allowance] using turn found (resume_move goes) rfl
  | replies id reply userId run pc outcome found answer =>
      have resumed : w.resumed (.reply id reply) = (w.pending id).map (id, ·) := by
        simp [Runtime.resumed, pending, found, Task.call]
      simpa [Label.turn, Label.allowance] using
        turn found (.replied userId run pc reply outcome answer) resumed
  | passes _ _ passing =>
      cases passing with
      | tick elapsed => exact Nat.le_refl _
      | agentEvent id event userId run listening prompting =>
          have silent : (w.service.note (.agentEvent run.id event)).executions =
              w.service.executions := by simp [Observation.executes]
          simp only [potential, unexecuted, silent, Label.turn, Label.allowance,
            Bool.false_eq_true, if_false]
          exact Nat.le_refl _

theorem task_goes_on {task : Task} (found : w.tasks.get id = some task) :
    ∃ label, label.turn = true ∧ w.turning label = some task ∧ w.step label ≠ none := by
  have resumes (goes : ∀ s : RunExecutionService, s.resume "" task ≠ none) :
      ∃ label, Label.turn label = true ∧ w.turning label = some task ∧ w.step label ≠ none := by
    refine ⟨.resume id "", rfl, found, ?_⟩
    simpa [step, found] using goes w.service
  have replies {userId : UserId} {run : Run} {pc : ExecPc} (at_ : task = .executing userId run pc)
      (hears : ∀ s : RunExecutionService,
        s.replied userId run pc (.rejected (.error "")) ≠ none) :
      ∃ label, Label.turn label = true ∧ w.turning label = some task ∧ w.step label ≠ none := by
    refine ⟨.reply id (.rejected (.error "")), rfl, found, ?_⟩
    subst at_
    simpa [step, found] using hears w.service
  cases task with
  | calling frame call =>
      apply resumes
      intro s
      simp only [RunExecutionService.resume]
      split <;> simp
  | cancelRequested runId owner reason run =>
      apply resumes
      intro s
      cases run with
      | none => simp [RunExecutionService.resume]
      | some run =>
          simp only [RunExecutionService.resume]
          split <;> simp
  | executing userId run pc =>
      cases pc with
      | finished listening messages latestRun =>
          apply resumes
          intro s
          cases latestRun with
          | none => simp [RunExecutionService.resume, RunExecutionService.executeResume]
          | some latestRun =>
              simp only [RunExecutionService.resume, RunExecutionService.executeResume]
              split <;> simp
      | caught agent listening error latestRun =>
          apply resumes
          intro s
          cases latestRun with
          | none => simp [RunExecutionService.resume, RunExecutionService.executeResume]
          | some latestRun =>
              simp only [RunExecutionService.resume, RunExecutionService.executeResume]
              split <;> simp
      | _ =>
          apply replies rfl
          intro s
          simp [RunExecutionService.replied]
  | executed userId =>
      apply resumes
      intro s
      simp [RunExecutionService.resume]
  | executeFailed userId =>
      apply resumes
      intro s
      simp [RunExecutionService.resume]

theorem quiescent_of_still (still : ∀ label, label.turn = true → w.step label = none) :
    w.Quiescent := by
  rw [Quiescent, EsMap.entries_eq_nil_iff]
  intro id
  cases found : w.tasks.get id with
  | none => rfl
  | some task =>
      obtain ⟨label, turn, -, goes⟩ := task_goes_on found
      exact absurd (still label turn) goes

theorem quiescent_of_potential (none_left : w.potential = 0) : w.Quiescent := by
  rw [Quiescent, EsMap.entries_eq_nil_iff]
  intro id
  cases found : w.tasks.get id with
  | none => rfl
  | some task =>
      have more := task.budget_pos
      have inside := EsMap.measure_le_total Task.budget found
      rw [potential] at none_left
      omega

def Unasked (_ : Runtime) (label : Label) : Prop := label.allowance = 0

theorem Unasked.fresh (unasked : w.Unasked label) : w.FreshRun label := by
  cases label with
  | createRun id random owner body => cases unasked
  | _ =>
      rintro runId ⟨⟩

theorem turn_unasked (turn : label.turn = true) : w.Unasked label := by
  cases label <;> first | rfl | cases turn

/-- In every run of the service the turns are paid for by the requests, forty-one for each
`createRun` and seven for each `cancelRun`, in whatever order they are taken. -/
theorem turns_are_paid_for (config : RunManagerConfig) (now : Int) (w : Runtime)
    (labels : List Label) (path : Transition.Path step FreshRun (init config now) labels w) :
    labels.countP Label.turn + w.potential ≤ (labels.map Label.allowance).sum := by
  have start : (init config now).potential = 0 := rfl
  have paid := path.potential potential Label.turn Label.allowance Serial (Serial.init config now)
    (fun _ _ _ fresh serial moved => serial.step fresh moved)
    (fun _ _ _ fresh serial moved => serial.step_pays fresh moved)
  omega

theorem completed_run_is_paid_for :
    ∃ w : Runtime, w.stateOf "run_0_a" = some .completed ∧ completedLabels.countP Label.turn = 25 ∧
      25 + w.potential ≤ 41 := by
  have ran : (Transition.exec (Transition.guarded step FreshRun) (init .default 0)
      completedLabels).map (fun w => w.stateOf "run_0_a") = some (some .completed) := by
    decide +kernel
  obtain ⟨w, path, completed⟩ := Option.map_eq_some_iff.mp ran
  have counted : completedLabels.countP Label.turn = 25 := by decide +kernel
  have paid := turns_are_paid_for .default 0 w completedLabels (Transition.path_of_exec _ path)
  rw [counted] at paid
  exact ⟨w, completed, counted, paid⟩

theorem path_potential (serial : w.Serial) {labels : List Label}
    (path : Transition.Path step Unasked w labels w') :
    labels.countP Label.turn + w'.potential ≤ w.potential := by
  have paid := path.potential potential Label.turn (fun _ => 0) Serial serial
    (fun _ _ _ unasked serial moved => serial.step unasked.fresh moved)
    (fun s label u unasked serial moved => by
      have pays := serial.step_pays unasked.fresh moved
      rw [unasked] at pays
      exact pays)
  simpa using paid

/-- From every reachable state the service comes to rest unless there are new requests: it can,
and it does after a bounded number of turns in whatever order they are taken. -/
theorem service_comes_to_rest (config : RunManagerConfig) (now : Int) (w : Runtime)
    (reached : Transition.Reach step FreshRun (init config now) w) :
    (∃ labels w', Transition.Path step Unasked w labels w' ∧ w'.Quiescent) ∧
      ∀ labels w', Transition.Path step Unasked w labels w' →
        labels.countP Label.turn ≤ w.potential ∧
          (labels.countP Label.turn = w.potential ∨
            (∀ label, label.turn = true → w'.step label = none) → w'.Quiescent) := by
  have serial : w.Serial := serial_of_reach (fun _ _ fresh => fresh) reached
  have keep (s : Runtime) (label : Label) (u : Runtime) (unasked : s.Unasked label)
      (serial : s.Serial) (moved : s.step label = some u) : u.Serial :=
    serial.step unasked.fresh moved
  constructor
  · apply Transition.exists_path_to_rest potential Serial keep _ w serial
    intro s serial busy
    have task : ∃ label, Label.turn label = true ∧ s.step label ≠ none := by
      by_contra still
      apply busy
      apply quiescent_of_still
      intro label turn
      by_contra goes
      exact still ⟨label, turn, goes⟩
    obtain ⟨label, turn, goes⟩ := task
    obtain ⟨u, moved⟩ := Option.ne_none_iff_exists'.mp goes
    have unasked : s.Unasked label := turn_unasked turn
    have pays := serial.step_pays unasked.fresh moved
    rw [if_pos turn, unasked] at pays
    exact ⟨label, u, unasked, moved, by omega⟩
  · intro labels w' path
    have paid := path_potential serial path
    refine ⟨by omega, ?_⟩
    rintro (all | still)
    · exact quiescent_of_potential (by omega)
    · exact quiescent_of_still still

theorem started_run_comes_to_rest :
    ∃ w : Runtime, w.stateOf "run_0_a" = some .running ∧
      ∃ labels w', Transition.Path step Unasked w labels w' ∧ w'.Quiescent := by
  have ran : (Transition.exec (Transition.guarded step FreshRun) (init .default 0)
      startedLabels).map (fun w => w.stateOf "run_0_a") = some (some .running) := by decide +kernel
  obtain ⟨w, reached, running⟩ := Transition.reach_of_observed _ _ ran
  exact ⟨w, running, (service_comes_to_rest .default 0 w reached).1⟩

/-- A run that has not ended is in the hands of a task. -/
theorem Attending.in_hands (held : w.Attending) (serial : w.Serial) {runId : RunId} {run : Run}
    (found : w.service.runManager.getRun runId = some run)
    (live : isTerminalState run.state = false) :
    ∃ id task, w.tasks.get id = some task ∧ task.Holds runId run.userId := by
  have inside {id : Nat} {call : Call} (pending : w.pending id = some call)
      (about : call.Carries runId ∨ call.wakes = some run.userId) :
      ∃ id task, w.tasks.get id = some task ∧ task.Holds runId run.userId := by
    obtain ⟨frame, got⟩ := (w.pending_eq_some id call).mp pending
    exact ⟨id, _, got, .inr ⟨call, rfl, about⟩⟩
  cases active : isActiveState run.state with
  | true =>
      obtain ⟨id, task, got, loop, -⟩ := serial.holder found active
      exact ⟨id, task, got, .inl loop⟩
  | false =>
      have waits : run.state = .queued := by
        cases state : run.state <;> simp_all [isTerminalState, isActiveState]
      have state : w.service.runManager.stateOf runId = some .queued := by
        rw [RunManager.stateOf, found, ← waits]
        rfl
      have user : w.service.runManager.userOf runId = some run.userId := by
        rw [RunManager.userOf, found]
        rfl
      rcases held.waiting runId run.userId state user with member | ⟨id, call, pending, carries⟩
      · have filled : w.service.runManager.queue.peek run.userId ≠ none := by
          rw [InMemoryRunQueue.peek_eq_head]
          intro nothing
          rw [List.head?_eq_none_iff.mp nothing] at member
          cases member
        rcases held.attended run.userId filled with ⟨id, task, got, loop, -⟩ |
          ⟨id, call, pending, wakes⟩
        · exact ⟨id, task, got, .inl loop⟩
        · exact inside pending (.inr wakes)
      · exact inside pending (.inl carries)

/-- The label is no request and loses no loop. -/
def Calm (w : Runtime) (label : Label) : Prop := w.Unasked label ∧ w.LoopKept label

instance (w : Runtime) (label : Label) : Decidable (w.Calm label) :=
  inferInstanceAs (Decidable (label.allowance = 0 ∧ w.LoopKept label))

/-- Where no loop is lost, every run that has been requested ends after a bounded number of turns:
until then the task that holds it has a turn to take, and turns are left. -/
theorem requested_runs_end (config : RunManagerConfig) (now : Int) (w w' : Runtime)
    (labels : List Label) (reached : Transition.Reach step KeepsLoops (init config now) w)
    (path : Transition.Path step Calm w labels w') :
    ∀ runId run, w'.service.runManager.getRun runId = some run →
      isTerminalState run.state = true ∨
        labels.countP Label.turn < w.potential ∧
          ∃ id task label, w'.tasks.get id = some task ∧ task.Holds runId run.userId ∧
            label.turn = true ∧ w'.turning label = some task ∧ w'.step label ≠ none := by
  intro runId run found
  cases live : isTerminalState run.state with
  | true => exact .inl rfl
  | false =>
      right
      have kept : Transition.Path step KeepsLoops w labels w' :=
        path.mono (fun _ _ calm => ⟨calm.1.fresh, calm.2⟩)
      have ends := kept.reach reached
      have serial : w'.Serial := serial_of_reach (fun _ _ keeps => keeps.1) ends
      obtain ⟨id, task, got, holds⟩ := (attending_of_reach ends).in_hands serial found live
      obtain ⟨label, turn, turning, goes⟩ := task_goes_on got
      have bound := path_potential (serial_of_reach (fun _ _ keeps => keeps.1) reached)
        (path.mono (fun _ _ calm => calm.1))
      have inside := EsMap.measure_le_total Task.budget got
      have more := task.budget_pos
      rw [potential] at bound
      exact ⟨by omega, id, task, label, got, holds, turn, turning, goes⟩

theorem prompted_run_goes_on :
    ∃ w w' : Runtime, w.stateOf "run_0_a" = some .running ∧ w'.stateOf "run_0_a" = some .running ∧
      2 < w.potential ∧ ∃ id task label, w'.tasks.get id = some task ∧
        task.Holds "run_0_a" "acme:alice" ∧ w'.turning label = some task ∧ w'.step label ≠ none := by
  have ran : (Transition.exec (Transition.guarded step KeepsLoops) (init .default 0)
      startedLabels).map (fun w => (w.stateOf "run_0_a",
        (Transition.exec (Transition.guarded step Calm) w [.resume 0 "", .reply 0 .pack]).map
          (fun w' => (w'.service.runManager.getRun "run_0_a").map
            (fun run => (run.state, run.userId))))) =
      some (some .running, some (some (.running, "acme:alice"))) := by decide +kernel
  obtain ⟨w, reached, observed⟩ := Transition.reach_of_observed _ _ ran
  obtain ⟨running, continued⟩ := Prod.mk.inj observed
  obtain ⟨w', path, stored⟩ := Option.map_eq_some_iff.mp continued
  obtain ⟨run, found, same⟩ := Option.map_eq_some_iff.mp stored
  obtain ⟨state, user⟩ := Prod.mk.inj same
  have state' : w'.stateOf "run_0_a" = some .running := by
    rw [Runtime.stateOf, RunManager.stateOf, found, Option.map_some, state]
  rcases requested_runs_end .default 0 w w' _ reached (Transition.path_of_exec _ path) "run_0_a" run
    found with ended | ⟨turns, id, task, label, got, holds, -, turning, goes⟩
  · rw [state] at ended
    cases ended
  · rw [user] at holds
    exact ⟨w, w', running, state', turns, id, task, label, got, holds, turning, goes⟩

end Runtime

end Minerva
