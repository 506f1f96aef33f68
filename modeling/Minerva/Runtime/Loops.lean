import Minerva.Runtime.Turns
import Minerva.Services.QueuedRuns

/-! The `processUserQueue` loops: `processingUsers` lets one loop of a user run at a time, so the
queues are worked on by one `acquireNextRun` of a user at a time. -/

namespace Minerva

namespace Call

theorem resolves_without_run {m : RunManager} {now : Int} {random : String} {call : Call}
    (answers : (call.resume m now random).progress = .resolve none) :
    (∃ userId pc, call = .acquireNextRun userId pc) ∨ ∃ runId pc, call = .timeoutRun runId pc := by
  cases call <;> simp only [resume, settle_resolve, reduceCtorEq, and_false, exists_false] at answers
  · exact .inl ⟨_, _, rfl⟩
  · exact .inr ⟨_, _, rfl⟩

end Call

namespace RunExecutionService

theorem replied_task {s : RunExecutionService} {userId : UserId} {run : Run} {pc : ExecPc}
    {reply : Reply} {outcome : Outcome} (answer : s.replied userId run pc reply = some outcome) :
    outcome.1.processingUsers = s.processingUsers ∧
      ∃ task, outcome.2 = some task ∧ task.loop = some userId ∧ task.runs = some run := by
  cases replied_cases answer with
  | imports => exact ⟨rfl, _, rfl, rfl, rfl⟩
  | provisions => exact ⟨rfl, _, rfl, rfl, rfl⟩
  | starts workspaceId => exact ⟨rfl, _, rfl, rfl, rfl⟩
  | prompts signal was pack => cases signal <;> exact ⟨rfl, _, rfl, rfl, rfl⟩
  | finishes listening messages => exact ⟨rfl, _, rfl, rfl, rfl⟩
  | throws agent listening error => exact ⟨rfl, _, rfl, rfl, rfl⟩

theorem executeResume_task {s : RunExecutionService} {userId : UserId} {run : Run} {pc : ExecPc}
    {outcome : Outcome} (goes : s.executeResume userId run pc = some outcome) :
    outcome.1.processingUsers = s.processingUsers ∧
      ∃ task, outcome.2 = some task ∧ task.loop = some userId ∧
        (task.runs = some run ∨ task = .executed userId) := by
  cases executeResume_cases goes with
  | vanishes listening messages error => exact ⟨rfl, _, rfl, rfl, .inl rfl⟩
  | closes listening messages latestRun stopped =>
      exact ⟨by simp [exit, forgetTerminal, closeRun, note], _, rfl, rfl, .inr rfl⟩
  | completes listening messages latestRun going => exact ⟨rfl, _, rfl, rfl, .inl rfl⟩
  | leaves agent listening error latestRun stopped =>
      exact ⟨by simp [exit, forgetTerminal], _, rfl, rfl, .inr rfl⟩
  | fails agent listening error latestRun going => exact ⟨rfl, _, rfl, rfl, .inl rfl⟩

end RunExecutionService

theorem Frame.Fits.answers {frame : Frame} {call : Call} (fits : frame.Fits call)
    (loop : ∀ userId, frame ≠ .acquire userId) (timer : frame ≠ .timeout) {m : RunManager}
    {now : Int} {random : String} : (call.resume m now random).progress ≠ .resolve none := by
  intro answered
  rcases Call.resolves_without_run answered with ⟨userId, pc, rfl⟩ | ⟨runId, pc, rfl⟩ <;>
    cases frame <;> simp only [Frame.Fits] at fits
  · exact loop _ rfl
  · exact timer rfl

inductive LoopMove (users : Finset UserId) (loop : Option UserId) :
    Option UserId → Finset UserId → Prop
  | stays : LoopMove users loop loop users
  | enters (userId : UserId) (outside : loop = none) (free : userId ∉ users) :
      LoopMove users loop (some userId) (insert userId users)
  | leaves (userId : UserId) (inside : loop = some userId) :
      LoopMove users loop none (users.erase userId)

theorem Move.loop {s s' : RunExecutionService} {old new : Option Task} (move : Move s old s' new)
    (fits : ∀ frame call, old = some (.calling frame call) → frame.Fits call) :
    LoopMove s.processingUsers (old.bind Task.loop) (new.bind Task.loop) s'.processingUsers := by
  cases move with
  | declined => exact .stays
  | created random input fresh => exact .stays
  | requested runId owner reason => exact .stays
  | fired timer runId timeoutManager due => exact .stays
  | refused runId owner reason run => exact .stays
  | cancelling runId owner reason run => exact .stays
  | awaits frame call next random goes =>
      rw [RunExecutionService.delivered_processingUsers]
      cases frame <;> exact .stays
  | resolves frame call random run answers =>
      have users := s.delivered_processingUsers (call.resume s.runManager s.now random)
      rw [← users]
      generalize s.delivered (call.resume s.runManager s.now random) = t
      have fit := fits frame call rfl
      cases run with
      | none =>
          cases frame with
          | acquire userId => exact .leaves userId rfl
          | timeout => exact .stays
          | _ => exact absurd answers (fit.answers (by simp) (by simp))
      | some run =>
          cases frame with
          | createRun =>
              simp only [RunExecutionService.resolved, RunExecutionService.processUserQueue]
              split
              · exact .stays
              · rename_i free
                exact .enters run.userId rfl free
          | cancelRun reason =>
              simp only [RunExecutionService.resolved]
              split
              · rw [RunExecutionService.emitTerminalOnce_processingUsers]
                exact .stays
              · exact .stays
          | acquire userId => exact .stays
          | start userId started workspaceId => exact .stays
          | complete userId completed listening =>
              simp only [RunExecutionService.resolved, RunExecutionService.exit,
                RunExecutionService.finish_processingUsers, RunExecutionService.forgetTerminal,
                RunExecutionService.closeRun, RunExecutionService.note,
                RunExecutionService.emitTerminalOnce_processingUsers]
              exact .stays
          | fail userId failed agent listening =>
              simp only [RunExecutionService.resolved, RunExecutionService.exit,
                RunExecutionService.finish_processingUsers, RunExecutionService.forgetTerminal,
                RunExecutionService.closeRun, RunExecutionService.note,
                RunExecutionService.emitTerminalOnce_processingUsers]
              exact .stays
          | timeout => exact .stays
  | rejects frame call random error throws =>
      have users := s.delivered_processingUsers (call.resume s.runManager s.now random)
      rw [← users]
      cases frame with
      | acquire userId => exact .leaves userId rfl
      | fail userId run agent listening =>
          simp only [RunExecutionService.rejected, RunExecutionService.finish_processingUsers]
          exact .stays
      | _ => exact .stays
  | replied userId run pc reply outcome answer =>
      obtain ⟨users, task, left, loop, -⟩ := RunExecutionService.replied_task answer
      rw [users, left, Option.bind_some, Option.bind_some, loop]
      exact .stays
  | continued userId run pc outcome goes =>
      obtain ⟨users, task, left, loop, -⟩ := RunExecutionService.executeResume_task goes
      rw [users, left, Option.bind_some, Option.bind_some, loop]
      exact .stays
  | again userId => exact .stays
  | died userId => exact .leaves userId rfl

theorem Move.fits {s s' : RunExecutionService} {old new : Option Task} (move : Move s old s' new)
    (fits : ∀ frame call, old = some (.calling frame call) → frame.Fits call) :
    ∀ frame call, new = some (.calling frame call) → frame.Fits call := by
  have begun {m : RunManager} {now : Int} {next : Option Task} (begins : Begins m now next) :
      ∀ frame call, next = some (.calling frame call) → frame.Fits call := by
    intro frame call left
    cases begins with
    | nothing => cases left
    | own task outside =>
        cases left
        cases outside
    | calls frame request silent fit =>
        cases left
        exact fit
  cases move with
  | declined =>
      intro frame call left
      cases left
  | created random input fresh =>
      intro frame call left
      cases left
      trivial
  | requested runId owner reason =>
      intro frame call left
      cases left
  | fired timer runId timeoutManager due =>
      intro frame call left
      cases left
      trivial
  | refused runId owner reason run =>
      intro frame call left
      cases left
  | cancelling runId owner reason run =>
      intro frame call left
      cases left
      rfl
  | awaits frame call next random goes =>
      intro frame' call' left
      cases left
      apply (fits frame call rfl).same_method
      exact Call.pending_same_method s.runManager s.now random call next (by rw [Call.pending, goes])
  | resolves frame call random run answers =>
      exact begun (RunExecutionService.resolved_begins _ frame run)
  | rejects frame call random error throws =>
      exact begun (RunExecutionService.rejected_begins _ frame error)
  | replied userId run pc reply outcome answer =>
      rcases RunExecutionService.replied_manager answer with ⟨-, begins⟩ | ⟨signal, -, -, -, left⟩
      · exact begun begins
      · intro frame call impossible
        rw [left] at impossible
        cases impossible
  | continued userId run pc outcome goes =>
      exact begun (RunExecutionService.executeResume_begins goes)
  | again userId => exact begun (RunExecutionService.acquireNext_begins s userId)
  | died userId =>
      intro frame call left
      cases left

namespace Runtime

/-- A user is in `processingUsers` while one task is its loop. -/
structure Loops (w : Runtime) : Prop where
  fits : ∀ id frame call, w.tasks.get id = some (.calling frame call) → frame.Fits call
  single : ∀ id id' task task' userId, w.tasks.get id = some task → w.tasks.get id' = some task' →
    task.loop = some userId → task'.loop = some userId → id = id'
  processing : ∀ id task userId, w.tasks.get id = some task → task.loop = some userId →
    userId ∈ w.service.processingUsers
  looping : ∀ userId, userId ∈ w.service.processingUsers →
    ∃ id task, w.tasks.get id = some task ∧ task.loop = some userId

variable {w w' : Runtime} {label : Label} {id : Nat}

theorem Moves.other (moves : w.Moves label id w') {other : Nat} (different : other ≠ id) :
    w'.tasks.get other = w.tasks.get other := by
  rw [moves.tasks, Function.update_of_ne different]

theorem Moves.pending_other (moves : w.Moves label id w') {other : Nat} (different : other ≠ id) :
    w'.pending other = w.pending other := by
  rw [moves.pending, Function.update_of_ne different]

theorem Loops.init (config : RunManagerConfig) (now : Int) : Loops (Runtime.init config now) where
  fits := by
    intro id frame call found
    cases found
  single := by
    intro id id' task task' userId found
    cases found
  processing := by
    intro id task userId found
    cases found
  looping := by
    intro userId member
    cases member

theorem Moves.loops (moves : w.Moves label id w') (loops : Loops w) : Loops w' := by
  have fits : ∀ frame call, w.tasks.get id = some (.calling frame call) → frame.Fits call :=
    fun frame call found => loops.fits id frame call found
  -- the loop that the moved task is afterwards, and what the step makes of `processingUsers`
  have step := moves.move.loop fits
  generalize users : w'.service.processingUsers = after at step
  generalize loop : (w'.tasks.get id).bind Task.loop = looped at step
  have mine {task : Task} {userId : UserId} (found : w'.tasks.get id = some task)
      (here : task.loop = some userId) : looped = some userId := by
    rw [← loop, found]
    exact here
  have inside {userId : UserId} (here : (w.tasks.get id).bind Task.loop = some userId) :
      ∃ task, w.tasks.get id = some task ∧ task.loop = some userId :=
    Option.bind_eq_some_iff.mp here
  have elsewhere {other : Nat} {task : Task} {userId : UserId} (different : other ≠ id)
      (found : w'.tasks.get other = some task) (here : task.loop = some userId) :
      looped ≠ some userId ∧ userId ∈ after := by
    rw [moves.other different] at found
    have member := loops.processing other task userId found here
    cases step with
    | stays =>
        refine ⟨?_, member⟩
        intro same
        obtain ⟨old, got, this⟩ := inside same
        exact different (loops.single other id task old userId found got here this)
    | enters entered outside free =>
        refine ⟨?_, Finset.mem_insert_of_mem member⟩
        intro same
        cases same
        exact free member
    | leaves left before =>
        refine ⟨by simp, Finset.mem_erase.mpr ⟨?_, member⟩⟩
        rintro rfl
        obtain ⟨old, got, this⟩ := inside before
        exact different (loops.single other id task old userId found got here this)
  constructor
  · intro other frame call found
    by_cases same : other = id
    · subst same
      exact moves.move.fits fits frame call found
    · rw [moves.other same] at found
      exact loops.fits other frame call found
  · have apart : Keyed.Apart Task.loop w.tasks.get := loops.single
    apply apart.change id (fun other different => moves.other different)
    intro task userId found here other task' found' here'
    by_contra different
    rw [← moves.other different] at found'
    exact (elsewhere different found' here').1 (mine found here)
  · intro other task userId found here
    rw [users]
    by_cases same : other = id
    · subst same
      have this := mine found here
      cases step with
      | stays =>
          obtain ⟨old, got, before⟩ := inside this
          exact loops.processing other old userId got before
      | enters entered outside free =>
          cases this
          exact Finset.mem_insert_self userId _
      | leaves left before => cases this
    · exact (elsewhere same found here).2
  · intro userId member
    rw [users] at member
    -- a loop that is not the moved one is still there
    have still (earlier : userId ∈ w.service.processingUsers)
        (apart : (w.tasks.get id).bind Task.loop ≠ some userId) :
        ∃ other task, w'.tasks.get other = some task ∧ task.loop = some userId := by
      obtain ⟨other, task, found, here⟩ := loops.looping userId earlier
      have different : other ≠ id := by
        rintro rfl
        exact apart (Option.bind_eq_some_iff.mpr ⟨task, found, here⟩)
      exact ⟨other, task, (moves.other different).trans found, here⟩
    have now (same : looped = some userId) :
        ∃ other task, w'.tasks.get other = some task ∧ task.loop = some userId := by
      rw [← loop] at same
      obtain ⟨task, found, here⟩ := Option.bind_eq_some_iff.mp same
      exact ⟨id, task, found, here⟩
    cases step with
    | stays =>
        by_cases same : (w.tasks.get id).bind Task.loop = some userId
        · exact now same
        · exact still member same
    | enters entered outside free =>
        rcases Finset.mem_insert.mp member with rfl | earlier
        · exact now rfl
        · apply still earlier
          rw [outside]
          simp
    | leaves left before =>
        obtain ⟨different, earlier⟩ := Finset.mem_erase.mp member
        apply still earlier
        rw [before]
        intro same
        exact different (Option.some.inj same).symm

theorem Passes.loops (passes : w.Passes label w') (loops : Loops w) : Loops w' := by
  obtain ⟨-, tasks, users, -⟩ := passes.stores
  refine ⟨?_, ?_, ?_, ?_⟩ <;> rw [tasks] <;> try rw [users]
  · exact loops.fits
  · exact loops.single
  · exact loops.processing
  · exact loops.looping

theorem pending_eq_some (w : Runtime) (id : Nat) (call : Call) :
    w.pending id = some call ↔ ∃ frame, w.tasks.get id = some (.calling frame call) := by
  simp only [pending, Option.bind_eq_some_iff]
  constructor
  · rintro ⟨task, found, inside⟩
    cases task with
    | calling frame call' =>
        cases inside
        exact ⟨frame, found⟩
    | _ => cases inside
  · rintro ⟨frame, found⟩
    exact ⟨_, found, rfl⟩

theorem Moves.resumes (moves : w.Moves label id w') {frame : Frame} {call : Call}
    (found : w.tasks.get id = some (.calling frame call)) : w.resumed label = some (id, call) := by
  rw [moves.resumed, (w.pending_eq_some id call).mpr ⟨frame, found⟩]
  rfl

theorem Moves.calls (moves : w.Moves label id w') {call : Call}
    (resumed : w.resumed label = some (id, call)) :
    ∃ frame, w.tasks.get id = some (.calling frame call) := by
  rw [moves.resumed] at resumed
  obtain ⟨call', pending, same⟩ := Option.map_eq_some_iff.mp resumed
  cases same
  exact (w.pending_eq_some id call).mp pending

theorem Quiescent.pending (quiet : w.Quiescent) (id : Nat) : w.pending id = none := by
  have none := (w.tasks.entries_eq_nil_iff).mp quiet id
  rw [Runtime.pending, none]
  rfl

theorem Loops.loop_of_acquires (loops : Loops w) {call : Call} {userId : UserId}
    (found : w.pending id = some call) (acquires : call.acquires = some userId) :
    w.tasks.get id = some (.calling (.acquire userId) call) := by
  obtain ⟨frame, task⟩ := (w.pending_eq_some id call).mp found
  have fit := loops.fits id frame call task
  cases call <;> cases acquires
  cases frame <;> simp only [Frame.Fits] at fit
  rw [fit] at task
  exact task

theorem Loops.oneAcquires (loops : Loops w) : OneAcquires w.pending := by
  intro id id' call call' userId found found' acquires acquires'
  exact loops.single id id' _ _ userId (loops.loop_of_acquires found acquires)
    (loops.loop_of_acquires found' acquires') rfl rfl

end Runtime

structure Queues (m : RunManager) (p : Pending) : Prop where
  lanes : Lanes m p
  fronts : Fronts m p
  named : Named m p

theorem Queues.init (config : RunManagerConfig) :
    Queues (RunManager.init config) (fun _ => none) where
  lanes := Lanes.init config
  fronts := Fronts.init config
  named := by
    refine ⟨?_, ?_, ?_⟩
    · intro runId run found
      cases found
    · intro id userId runId lease found
      cases found
    · intro id userId runId run found
      cases found

theorem CallStep.queues {now : Int} {m m' : RunManager} {p p' : Pending}
    {resumed : Option (Nat × Call)} (step : CallStep now m p resumed m' p') (queues : Queues m p)
    (one : ∀ resuming, resumed = some resuming → OneAcquires p) : Queues m' p' :=
  ⟨step.lanes queues.lanes, step.fronts queues.lanes one queues.fronts,
    step.named queues.lanes queues.named⟩

theorem Runtime.Moves.queues {w w' : Runtime} {label : Label} {id : Nat}
    (moves : w.Moves label id w') (loops : w.Loops)
    (queues : Queues w.service.runManager w.pending) :
    Queues w'.service.runManager w'.pending := by
  apply moves.keeps Queues queues
  · intro call m' p' resumed step
    exact step.queues queues (fun _ _ => loops.oneAcquires)
  · intro m p m' p' step held
    exact step.queues held (by simp)

end Minerva
