import Minerva.Runtime.Executions

/-! One execution and one active run of each user, under every interleaving of the service: a
user's loop goes on only when `executeRun` is over, and then the run has ended for good. -/

namespace Minerva

theorem Move.stateOf {s s' : RunExecutionService} {old new : Option Task} (move : Move s old s' new)
    (runId : RunId) :
    s'.runManager.stateOf runId = s.runManager.stateOf runId ∨
      (s.runManager.stateOf runId = none ∧ s'.runManager.stateOf runId = some .queued) ∨
      ∃ frame call before newState, old = some (.calling frame call) ∧
        s.runManager.stateOf runId = some before ∧ call.write = some (runId, newState) ∧
        s'.runManager.stateOf runId = some newState := by
  have stores := move.stores
  generalize s'.runManager = after at stores
  cases stores with
  | kept => exact .inl rfl
  | created random input fresh =>
      rcases Call.start_getRun s.runManager s.now (.createRun random input) runId with same |
        ⟨random', input', made, rfl, new⟩
      · left
        simp only [RunManager.stateOf]
        rw [same]
      · cases made
        right
        left
        refine ⟨fresh, ?_⟩
        simp only [RunManager.stateOf]
        rw [new]
        rfl
  | fired timeoutManager => exact .inl rfl
  | resumed frame call random was =>
      rcases (Call.resume_effect s.runManager s.now random call).stateOf runId with same |
        ⟨before, newState, stored, writes, after⟩
      · exact .inl same
      · exact .inr (.inr ⟨frame, call, before, newState, was, stored, writes, after⟩)
  | listened userId run pc signal was => exact .inl rfl

theorem Move.calling {s s' : RunExecutionService} {frame : Frame} {call : Call} {new : Option Task}
    (move : Move s (some (.calling frame call)) s' new) :
    ∃ random, s'.runManager = (call.resume s.runManager s.now random).manager ∧
      (∀ next, Call.pending (call.resume s.runManager s.now random) = some next →
        new = some (.calling frame next)) ∧
      ∀ run, (call.resume s.runManager s.now random).progress = .resolve run →
        s' = ((s.delivered (call.resume s.runManager s.now random)).resolved frame run).1 := by
  cases move with
  | awaits _ _ next random goes =>
      refine ⟨random, s.delivered_runManager _, ?_, ?_⟩
      · intro next' same
        rw [Call.pending, goes] at same
        cases same
        rfl
      · intro run answers
        rw [goes] at answers
        cases answers
  | resolves _ _ random run answers =>
      refine ⟨random, ?_, ?_, ?_⟩
      · rw [RunExecutionService.resolved_manager, RunExecutionService.delivered_runManager]
      · intro next same
        rw [Call.pending, answers] at same
        cases same
      · intro run' same
        rw [answers] at same
        cases same
        rfl
  | rejects _ _ random error throws =>
      refine ⟨random, ?_, ?_, ?_⟩
      · rw [RunExecutionService.rejected_manager, RunExecutionService.delivered_runManager]
      · intro next same
        rw [Call.pending, throws] at same
        cases same
      · intro run answers
        rw [throws] at answers
        cases answers

theorem Task.sound_of_idle {ended : RunId → Prop} {task : Task} (idle : task.runs = none) :
    task.Sound ended := by
  unfold Task.Sound
  split
  · cases idle
  · cases idle
  · cases idle
  · trivial

theorem RunsMove.subset {s s' : RunExecutionService} {old new : Option Task}
    (runs : RunsMove s old s' new) {runId : RunId} (member : runId ∈ s.executions) :
    runId ∈ s'.executions := by
  cases runs with
  | outside before after quiet =>
      rw [quiet]
      exact member
  | begins userId call random run was answers now heard =>
      rw [heard]
      exact List.mem_append_left _ member
  | goes task task' run was now ran runs loop sound quiet =>
      rw [quiet]
      exact member
  | exits task run was ran after ended quiet =>
      rw [quiet]
      exact member

namespace Runtime

structure Executions (w : Runtime) : Prop where
  mine : ∀ id task run, w.tasks.get id = some task → task.runs = some run →
    task.loop = some run.userId ∧ run.id ∈ w.service.executions ∧
      w.service.runManager.userOf run.id = some run.userId
  gone : ∀ runId ∈ w.service.executions, Gone w.service.runManager w.pending runId
  once : w.service.executions.Nodup
  left : ∀ runId ∈ w.service.executions, w.service.runManager.Left runId
  marked : MarkedLeft w.service.runManager w.pending
  sound : ∀ id task, w.tasks.get id = some task → task.Sound w.service.runManager.Ended
  handled : ∀ runId ∈ w.service.executions, w.service.runManager.Ended runId ∨
    ∃ id task run, w.tasks.get id = some task ∧ task.runs = some run ∧ run.id = runId
  active : ∀ runId state, w.service.runManager.stateOf runId = some state →
    isActiveState state = true → runId ∈ w.service.executions ∨
      ∃ id call userId, w.pending id = some call ∧ call.marked = some (userId, runId)

/-- The invariant of the running service. -/
structure Serial (w : Runtime) : Prop where
  loops : w.Loops
  queues : Queues w.service.runManager w.pending
  executions : w.Executions

variable {w w' : Runtime} {label : Label} {id : Nat}

namespace Moves

theorem goes (moves : w.Moves label id w') {frame : Frame} {call : Call}
    (was : w.tasks.get id = some (.calling frame call)) :
    ∃ random, w'.service.runManager =
        (call.resume w.service.runManager w.service.now random).manager ∧
      (∀ next, Call.pending (call.resume w.service.runManager w.service.now random) = some next →
        w'.pending id = some next) ∧
      ∀ run, (call.resume w.service.runManager w.service.now random).progress = .resolve run →
        w'.service = ((w.service.delivered (call.resume w.service.runManager w.service.now
          random)).resolved frame run).1 := by
  have move := moves.move
  rw [was] at move
  obtain ⟨random, manager, awaits, answers⟩ := move.calling
  refine ⟨random, manager, ?_, answers⟩
  intro next still
  exact (w'.pending_eq_some id next).mpr ⟨frame, awaits next still⟩

theorem gone (moves : w.Moves label id w') {runId : RunId}
    (held : Gone w.service.runManager w.pending runId) :
    Gone w'.service.runManager w'.pending runId := by
  apply moves.keeps (fun m p => Gone m p runId) held
  · intro call m' p' resumed step
    exact step.gone held
  · intro m p m' p' step earlier
    exact step.gone earlier

theorem left (moves : w.Moves label id w') {runId : RunId}
    (held : w.service.runManager.Left runId) : w'.service.runManager.Left runId := by
  apply moves.keeps (fun m _ => m.Left runId) held
  · intro call m' p' resumed step
    exact step.left held
  · intro m p m' p' step earlier
    exact step.left earlier

theorem userOf (moves : w.Moves label id w') {runId : RunId} {userId : UserId}
    (held : w.service.runManager.userOf runId = some userId) :
    w'.service.runManager.userOf runId = some userId := by
  apply moves.keeps (fun m _ => m.userOf runId = some userId) held
  · intro call m' p' resumed step
    exact step.userOf held
  · intro m p m' p' step earlier
    exact step.userOf earlier

theorem markedLeft (moves : w.Moves label id w')
    (held : MarkedLeft w.service.runManager w.pending) :
    MarkedLeft w'.service.runManager w'.pending := by
  apply moves.keeps MarkedLeft held
  · intro call m' p' resumed step
    exact step.markedLeft held
  · intro m p m' p' step earlier
    exact step.markedLeft earlier

theorem runs (moves : w.Moves label id w') (serial : w.Serial) :
    RunsMove w.service (w.tasks.get id) w'.service (w'.tasks.get id) := by
  apply moves.move.runs
  · intro frame call found
    exact serial.loops.fits id frame call found
  · intro task found
    exact serial.executions.sound id task found
  · intro task run found runs
    exact serial.executions.left _ (serial.executions.mine id task run found runs).2.1

end Moves

theorem Serial.acquiring (serial : w.Serial) {userId : UserId} {call : Call}
    (found : w.tasks.get id = some (.calling (.acquire userId) call)) :
    ∃ pc, call = .acquireNextRun userId pc ∧ w.pending id = some (.acquireNextRun userId pc) := by
  have fit := serial.loops.fits id _ call found
  have pending := (w.pending_eq_some id call).mpr ⟨_, found⟩
  cases call <;> simp only [Frame.Fits] at fit
  subst fit
  exact ⟨_, rfl, pending⟩

theorem Serial.acquired (serial : w.Serial) {userId : UserId} {call : Call} {random : String}
    {run : Run} (found : w.tasks.get id = some (.calling (.acquire userId) call))
    (answers : (call.resume w.service.runManager w.service.now random).progress =
      .resolve (some run)) :
    run.userId = userId ∧
      w.pending id = some (.acquireNextRun userId (.reloaded run.id (some run))) := by
  obtain ⟨pc, rfl, pending⟩ := serial.acquiring found
  obtain ⟨runId, rfl⟩ := Call.acquire_answer answers
  obtain ⟨stored, same, own, mine⟩ := serial.queues.named.answers id userId runId _ pending
  cases same
  rw [own]
  exact ⟨mine, pending⟩

theorem Serial.ended (serial : w.Serial) (moves : w.Moves label id w') {runId : RunId}
    (member : runId ∈ w.service.executions) (ended : w.service.runManager.Ended runId) :
    w'.service.runManager.Ended runId ∨
      ∃ task run, w.tasks.get id = some task ∧ task.runs = some run ∧ run.id = runId := by
  obtain ⟨state, stored, terminal⟩ := ended
  rcases moves.move.stateOf runId with same | ⟨missing, -⟩ |
    ⟨frame, call, before, newState, found, -, writes, after⟩
  · exact .inl ⟨state, same.trans stored, terminal⟩
  · rw [missing] at stored
    cases stored
  · rcases Call.write_target writes with ⟨rfl, userId, taken⟩ | ⟨rfl, pc, rfl⟩ | past
    · have pending := (w.pending_eq_some id call).mpr ⟨frame, found⟩
      exact absurd (.inr taken) ((serial.executions.gone runId member).free id call userId pending)
    · right
      have fit := serial.loops.fits id frame _ found
      cases frame <;> simp only [Frame.Fits] at fit
      exact ⟨_, _, found, rfl, fit⟩
    · exact .inl ⟨newState, after, past⟩

theorem Serial.sole (serial : w.Serial) {id' : Nat} {task task' : Task} {run run' : Run}
    (found : w.tasks.get id = some task) (found' : w.tasks.get id' = some task')
    (runs : task.runs = some run) (runs' : task'.runs = some run') (same : run.id = run'.id) :
    id = id' := by
  obtain ⟨loop, -, user⟩ := serial.executions.mine id task run found runs
  obtain ⟨loop', -, user'⟩ := serial.executions.mine id' task' run' found' runs'
  rw [same, user'] at user
  rw [Option.some.inj user] at loop'
  exact serial.loops.single id id' task task' run.userId found found' loop loop'

/-- A step executes no run, or one that has not been executed before and that is gone from the
queues. -/
theorem Serial.executes (serial : w.Serial) (moves : w.Moves label id w') :
    w'.service.executions = w.service.executions ∨
      ∃ task run, w'.tasks.get id = some task ∧ task.runs = some run ∧
        w'.service.executions = w.service.executions ++ [run.id] ∧
        run.id ∉ w.service.executions ∧ w'.service.runManager.Left run.id ∧
        Gone w'.service.runManager w'.pending run.id := by
  cases moves.runs serial with
  | outside before after quiet => exact .inl quiet
  | goes task task' run was now ran runs loop sound quiet => exact .inl quiet
  | exits task run was ran after ended quiet => exact .inl quiet
  | begins userId call random run was answers now heard =>
      obtain ⟨-, pending⟩ := serial.acquired was answers
      obtain ⟨frame, found⟩ := (w.pending_eq_some id _).mp pending
      rw [was] at found
      cases found
      refine .inr ⟨_, run, now, rfl, heard, ?_, ?_, ?_⟩
      · intro member
        exact (serial.executions.gone run.id member).free id _ userId pending (.inr rfl)
      · exact moves.left (serial.executions.marked id _ userId run.id pending rfl)
      · obtain ⟨random', manager, -, -⟩ := moves.goes was
        have same : w'.service.runManager = w.service.runManager := manager
        rw [moves.pending, now, same]
        exact gone_of_answer serial.queues.lanes serial.queues.fronts serial.loops.oneAcquires
          pending

theorem Serial.goes_on (serial : w.Serial) (moves : w.Moves label id w') {task : Task} {run : Run}
    (found : w.tasks.get id = some task) (runs : task.runs = some run) :
    (∃ task', w'.tasks.get id = some task' ∧ task'.runs = some run) ∨
      w'.service.runManager.Ended run.id := by
  cases moves.runs serial with
  | outside before after quiet =>
      rw [found, Option.bind_some, runs] at before
      cases before
  | begins userId call random acquired was answers now heard =>
      rw [found] at was
      cases was
      cases runs
  | goes old new run' was now ran runs' loop sound quiet =>
      rw [found] at was
      cases was
      rw [runs] at ran
      cases ran
      exact .inl ⟨new, now, runs'⟩
  | exits old run' was ran after ended quiet =>
      rw [found] at was
      cases was
      rw [runs] at ran
      cases ran
      exact .inr ended

theorem Serial.mine_after (serial : w.Serial) (moves : w.Moves label id w') {id' : Nat} {task : Task}
    {run : Run} (found : w'.tasks.get id' = some task) (ran : task.runs = some run) :
    task.loop = some run.userId ∧ run.id ∈ w'.service.executions ∧
      w'.service.runManager.userOf run.id = some run.userId := by
  have held := serial.executions
  have runs := moves.runs serial
  by_cases here : id' = id
  · subst here
    cases runs with
    | outside before after quiet =>
        rw [found] at after
        rw [Option.bind_some, ran] at after
        cases after
    | begins userId call random acquired was answers now heard =>
        obtain ⟨mine, pending⟩ := serial.acquired was answers
        rw [found] at now
        cases now
        cases ran
        rw [mine, heard]
        refine ⟨rfl, by simp, moves.userOf ?_⟩
        exact (serial.queues.lanes.named id' _ userId run.id pending (.inr rfl)).1
    | goes task' task'' run' was now ran' runs' loop sound quiet =>
        rw [found] at now
        cases now
        rw [ran] at runs'
        cases runs'
        obtain ⟨mine, member, user⟩ := held.mine id' task' run was ran'
        rw [quiet, loop]
        exact ⟨mine, member, moves.userOf user⟩
    | exits task' run' was ran' after ended quiet =>
        rw [found] at after
        rw [Option.bind_some, ran] at after
        cases after
  · rw [moves.other here] at found
    obtain ⟨mine, member, user⟩ := held.mine id' task run found ran
    exact ⟨mine, runs.subset member, moves.userOf user⟩

theorem Serial.sound_after (serial : w.Serial) (moves : w.Moves label id w') {id' : Nat}
    {task : Task} (found : w'.tasks.get id' = some task) :
    task.Sound w'.service.runManager.Ended := by
  have held := serial.executions
  by_cases here : id' = id
  · subst here
    cases moves.runs serial with
    | outside before after quiet =>
        rw [found, Option.bind_some] at after
        exact Task.sound_of_idle after
    | begins userId call random acquired was answers now heard =>
        rw [found] at now
        cases now
        trivial
    | goes old new run was now ran runs' loop sound quiet =>
        rw [found] at now
        cases now
        exact sound
    | exits old run was ran after ended quiet =>
        rw [found, Option.bind_some] at after
        exact Task.sound_of_idle after
  · rw [moves.other here] at found
    apply (held.sound id' task found).mono
    intro run ran ended
    have member := (held.mine id' task run found ran).2.1
    rcases serial.ended moves member ended with still | ⟨task', run', found', ran', same⟩
    · exact still
    · exact absurd (serial.sole found found' ran ran' same.symm) here

theorem Serial.handled_after (serial : w.Serial) (moves : w.Moves label id w') {runId : RunId}
    (member : runId ∈ w'.service.executions) : w'.service.runManager.Ended runId ∨
      ∃ id task run, w'.tasks.get id = some task ∧ task.runs = some run ∧ run.id = runId := by
  have running {task : Task} {run : Run} (found : w.tasks.get id = some task)
      (ran : task.runs = some run) (same : run.id = runId) :
      w'.service.runManager.Ended runId ∨ ∃ id task run, w'.tasks.get id = some task ∧
        task.runs = some run ∧ run.id = runId := by
    rcases serial.goes_on moves found ran with ⟨task', now, still⟩ | ended
    · exact .inr ⟨id, task', run, now, still, same⟩
    · exact .inl (same ▸ ended)
  have before (earlier : runId ∈ w.service.executions) :
      w'.service.runManager.Ended runId ∨ ∃ id task run, w'.tasks.get id = some task ∧
        task.runs = some run ∧ run.id = runId := by
    rcases serial.executions.handled runId earlier with ended | ⟨id', task, run, found, ran, same⟩
    · rcases serial.ended moves earlier ended with still | ⟨task, run, found, ran, same⟩
      · exact .inl still
      · exact running found ran same
    · by_cases here : id' = id
      · subst here
        exact running found ran same
      · rw [← moves.other here] at found
        exact .inr ⟨id', task, run, found, ran, same⟩
  rcases serial.executes moves with quiet | ⟨task, run, now, runs', heard, fresh, left, gone⟩
  · exact before (quiet ▸ member)
  · rw [heard] at member
    rcases List.mem_append.mp member with earlier | latest
    · exact before earlier
    · cases List.mem_singleton.mp latest
      exact .inr ⟨id, task, run, now, runs', rfl⟩

theorem Serial.marking (serial : w.Serial) (moves : w.Moves label id w') {id' : Nat} {call : Call}
    {userId : UserId} {runId : RunId} (found : w.pending id' = some call)
    (marked : call.marked = some (userId, runId)) :
    runId ∈ w'.service.executions ∨
      ∃ id call userId, w'.pending id = some call ∧ call.marked = some (userId, runId) := by
  by_cases here : id' = id
  · subst here
    obtain ⟨frame, task⟩ := (w.pending_eq_some id' call).mp found
    obtain ⟨random, -, goes, answers⟩ := moves.goes task
    rcases Call.marked_next marked with ⟨next, awaits, still⟩ | ⟨run, rfl⟩
    · exact .inr ⟨id', next, userId, goes next awaits, still⟩
    · obtain ⟨acquired, rfl, own, -⟩ := serial.queues.named.answers id' userId runId run found
      have fit := serial.loops.fits id' frame _ task
      cases frame <;> simp only [Frame.Fits] at fit
      left
      rw [answers (some acquired) rfl]
      simp [RunExecutionService.resolved, RunExecutionService.executeRun, Observation.executes, own]
  · right
    exact ⟨id', call, userId, (moves.pending_other here).trans found, marked⟩

theorem Serial.active_after (serial : w.Serial) (moves : w.Moves label id w') {runId : RunId}
    {state : RunState} (stored : w'.service.runManager.stateOf runId = some state)
    (active : isActiveState state = true) : runId ∈ w'.service.executions ∨
      ∃ id call userId, w'.pending id = some call ∧ call.marked = some (userId, runId) := by
  have held := serial.executions
  have runs := moves.runs serial
  rcases moves.move.stateOf runId with same | ⟨-, created⟩ |
    ⟨frame, call, before, newState, found, earlier, writes, after⟩
  · rw [same] at stored
    rcases held.active runId state stored active with member | ⟨id', call, userId, got, marked⟩
    · exact .inl (runs.subset member)
    · exact serial.marking moves got marked
  · rw [created] at stored
    cases stored
    cases active
  · rw [after] at stored
    cases stored
    rcases Call.write_target writes with ⟨rfl, userId, taken⟩ | ⟨rfl, pc, rfl⟩ | ended
    · obtain ⟨random, -, goes, -⟩ := moves.goes found
      obtain ⟨user, next, awaits, marked⟩ := Call.marked_of_write w.service.now random earlier writes
      exact .inr ⟨id, next, user, goes next awaits, marked⟩
    · have fit := serial.loops.fits id frame _ found
      cases frame <;> simp only [Frame.Fits] at fit
      subst fit
      exact .inl (runs.subset (held.mine id _ _ found rfl).2.1)
    · rw [active_not_terminal state active] at ended
      cases ended

theorem Moves.executions (moves : w.Moves label id w') (serial : w.Serial) : w'.Executions := by
  have held := serial.executions
  have executed := serial.executes moves
  constructor
  · intro id' task run found ran
    exact serial.mine_after moves found ran
  · intro runId member
    rcases executed with quiet | ⟨task, run, now, runs', heard, fresh, left, gone⟩
    · exact moves.gone (held.gone runId (quiet ▸ member))
    · rw [heard] at member
      rcases List.mem_append.mp member with earlier | latest
      · exact moves.gone (held.gone runId earlier)
      · cases List.mem_singleton.mp latest
        exact gone
  · rcases executed with quiet | ⟨task, run, now, runs', heard, fresh, left, gone⟩
    · exact quiet ▸ held.once
    · rw [heard]
      apply List.Nodup.append held.once (List.nodup_singleton run.id)
      rintro other earlier latest
      cases List.mem_singleton.mp latest
      exact fresh earlier
  · intro runId member
    rcases executed with quiet | ⟨task, run, now, runs', heard, fresh, left, gone⟩
    · exact moves.left (held.left runId (quiet ▸ member))
    · rw [heard] at member
      rcases List.mem_append.mp member with earlier | latest
      · exact moves.left (held.left runId earlier)
      · cases List.mem_singleton.mp latest
        exact left
  · exact moves.markedLeft held.marked
  · intro id' task found
    exact serial.sound_after moves found
  · intro runId member
    exact serial.handled_after moves member
  · intro runId state stored active
    exact serial.active_after moves stored active

theorem Moves.serial (moves : w.Moves label id w') (serial : w.Serial) : w'.Serial :=
  ⟨moves.loops serial.loops, moves.queues serial.loops serial.queues, moves.executions serial⟩

theorem Passes.executions (passes : w.Passes label w') :
    w'.service.executions = w.service.executions := by
  cases passes with
  | tick elapsed => rfl
  | agentEvent id event userId run listening prompting =>
      rw [RunExecutionService.note_executions]
      exact List.append_nil _

theorem Passes.serial (passes : w.Passes label w') (serial : w.Serial) : w'.Serial := by
  obtain ⟨manager, tasks, -, -⟩ := passes.stores
  have pending := passes.pending
  have heard := passes.executions
  have held := serial.executions
  refine ⟨passes.loops serial.loops, ?_, ?_⟩
  · rw [manager, pending]
    exact serial.queues
  · constructor <;> simp only [manager, tasks, pending, heard]
    · exact held.mine
    · exact held.gone
    · exact held.once
    · exact held.left
    · exact held.marked
    · exact held.sound
    · exact held.handled
    · exact held.active

theorem Serial.step (serial : w.Serial) (fresh : w.FreshRun label)
    (moved : w.step label = some w') : w'.Serial := by
  rcases step_cases fresh moved with ⟨id, moves⟩ | passes
  · exact moves.serial serial
  · exact passes.serial serial

theorem Serial.init (config : RunManagerConfig) (now : Int) : (Runtime.init config now).Serial where
  loops := Loops.init config now
  queues := Queues.init config
  executions := by
    constructor
    · intro id task run found
      cases found
    · intro runId member
      cases member
    · exact List.nodup_nil
    · intro runId member
      cases member
    · intro id call userId runId found
      cases found
    · intro id task found
      cases found
    · intro runId member
      cases member
    · intro runId state stored
      cases stored

theorem serial_of_reach {ok : Runtime → Label → Prop} {config : RunManagerConfig} {now : Int}
    {w : Runtime} (fresh : ∀ w label, ok w label → w.FreshRun label)
    (reached : Transition.Reach step ok (init config now) w) : w.Serial := by
  apply reached.invariant Serial (Serial.init config now)
  intro s label u meets serial moved
  rcases step_cases (fresh s label meets) moved with ⟨id, moves⟩ | passes
  · exact moves.serial serial
  · exact passes.serial serial

/-- The loop of its user holds an active run. -/
theorem Serial.holder (serial : w.Serial) {runId : RunId} {run : Run}
    (found : w.service.runManager.getRun runId = some run) (active : isActiveState run.state = true) :
    ∃ id task, w.tasks.get id = some task ∧ task.loop = some run.userId ∧
      ((∃ executed, task.runs = some executed ∧ executed.id = runId) ∨
        ∃ call, task = .calling (.acquire run.userId) call ∧
          call.marked = some (run.userId, runId)) := by
  have stored : w.service.runManager.stateOf runId = some run.state := by
    rw [RunManager.stateOf, found]
    rfl
  have user : w.service.runManager.userOf runId = some run.userId := by
    rw [RunManager.userOf, found]
    rfl
  rcases serial.executions.active runId run.state stored active with member |
    ⟨id, call, userId, pending, marked⟩
  · rcases serial.executions.handled runId member with ⟨state, same, terminal⟩ |
      ⟨id, task, executed, got, runs, same⟩
    · rw [stored] at same
      cases same
      rw [active_not_terminal _ active] at terminal
      cases terminal
    · obtain ⟨loop, -, mine⟩ := serial.executions.mine id task executed got runs
      rw [same, user] at mine
      rw [← Option.some.inj mine] at loop
      exact ⟨id, task, got, loop, .inl ⟨executed, runs, same⟩⟩
  · have taken := Call.took_of_marked marked
    have mine := (serial.queues.lanes.named id call userId runId pending (.inr taken)).1
    rw [user] at mine
    cases mine
    have task := serial.loops.loop_of_acquires pending (Call.Names.acquires (.inr taken))
    exact ⟨id, _, task, rfl, .inr ⟨call, rfl, marked⟩⟩

/-- In every reachable state one `executeRun` of a user is in progress at most and one run of a
user is LEASED or RUNNING at most, and `executeRun` has been called once for a run at most. -/
theorem runs_are_serialized (config : RunManagerConfig) (now : Int) (w : Runtime)
    (reached : Transition.Reach step FreshRun (init config now) w) :
    (∀ id id' task task' run run', w.tasks.get id = some task → w.tasks.get id' = some task' →
        task.runs = some run → task'.runs = some run' → run.userId = run'.userId → id = id') ∧
      (∀ runId runId' run run', w.service.runManager.getRun runId = some run →
        w.service.runManager.getRun runId' = some run' → isActiveState run.state = true →
          isActiveState run'.state = true → run.userId = run'.userId → runId = runId') ∧
      w.service.executions.Nodup := by
  have serial := serial_of_reach (fun _ _ fresh => fresh) reached
  refine ⟨?_, ?_, serial.executions.once⟩
  · intro id id' task task' run run' found found' runs runs' same
    have loop := (serial.executions.mine id task run found runs).1
    have loop' := (serial.executions.mine id' task' run' found' runs').1
    rw [same] at loop
    exact serial.loops.single id id' task task' _ found found' loop loop'
  · intro runId runId' run run' found found' active active' same
    obtain ⟨id, task, got, loop, holds⟩ := serial.holder found active
    obtain ⟨id', task', got', loop', holds'⟩ := serial.holder found' active'
    rw [same] at loop
    have one := serial.loops.single id id' task task' _ got got' loop loop'
    subst one
    rw [got] at got'
    cases got'
    rcases holds with ⟨executed, runs, here⟩ | ⟨call, rfl, marked⟩
    · rcases holds' with ⟨executed', runs', here'⟩ | ⟨call, rfl, -⟩
      · rw [runs] at runs'
        cases runs'
        exact here.symm.trans here'
      · cases runs
    · rcases holds' with ⟨executed, runs, -⟩ | ⟨call', same', marked'⟩
      · cases runs
      · obtain ⟨-, calls⟩ := Task.calling.inj same'
        rw [← calls, marked] at marked'
        exact (Prod.mk.inj (Option.some.inj marked')).2

def startedLabels : List Label :=
  [.createRun 0 "a" ⟨"acme", "alice"⟩ ⟨some "pack", some "hello", none⟩,
    .resume 0 "", .resume 0 "", .resume 0 "",
    .resume 0 "t", .resume 0 "", .resume 0 "", .resume 0 "", .resume 0 "",
    .reply 0 (.health true "openai" ""), .reply 0 .imported, .reply 0 (.workspace "ws"),
    .resume 0 "", .resume 0 "", .resume 0 ""]

def promptedLabels : List Label := startedLabels ++ [.resume 0 "", .reply 0 .pack]

def completedLabels : List Label :=
  promptedLabels ++ .reply 0 (.prompted []) :: List.replicate 8 (.resume 0 "")

/-- A second run of Alice is created while the first one runs. -/
def waitingLabels : List Label :=
  startedLabels ++
    [.createRun 1 "b" ⟨"acme", "alice"⟩ ⟨some "pack", some "hello again", none⟩,
      .resume 1 "", .resume 1 "", .resume 1 ""]

theorem started_run_is_alone :
    ∃ w : Runtime, w.service.executions = ["run_0_a"] ∧ w.stateOf "run_0_a" = some .running ∧
      w.stateOf "run_0_b" = some .queued ∧
      ∀ runId run, w.service.runManager.getRun runId = some run → isActiveState run.state = true →
        run.userId = "acme:alice" → runId = "run_0_a" := by
  have ran : (Transition.exec (Transition.guarded step FreshRun) (init .default 0)
      waitingLabels).map (fun w => (w.service.executions, w.stateOf "run_0_b",
        (w.service.runManager.getRun "run_0_a").map (fun run => (run.state, run.userId)))) =
      some (["run_0_a"], some .queued, some (.running, "acme:alice")) := by decide +kernel
  obtain ⟨w, reached, observed⟩ := Transition.reach_of_observed _ _ ran
  obtain ⟨executions, both⟩ := Prod.mk.inj observed
  obtain ⟨waits, stored⟩ := Prod.mk.inj both
  obtain ⟨run, found, same⟩ := Option.map_eq_some_iff.mp stored
  obtain ⟨running, user⟩ := Prod.mk.inj same
  refine ⟨w, executions, ?_, waits, ?_⟩
  · rw [stateOf, RunManager.stateOf, found, ← running]
    rfl
  · intro runId run' found' active mine
    have alone := (runs_are_serialized .default 0 w reached).2.1
    exact alone runId "run_0_a" run' run found' found active (by rw [running]; rfl)
      (mine.trans user.symm)

end Runtime

end Minerva
