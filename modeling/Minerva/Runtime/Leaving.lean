import Minerva.Runtime.Serialization

namespace Minerva

def CreatePc.run : CreatePc → Run
  | .persisted run => run
  | .enqueued run _ => run
  | .updated run => run

namespace Call

def wakes : Call → Option UserId
  | .createRun (.enqueued run _) => some run.userId
  | .createRun (.updated run) => some run.userId
  | _ => none

def rouses : Call → Option UserId
  | .createRun (.updated run) => some run.userId
  | _ => none

/-- The run that `failRun` is about to refuse to fail. -/
def misses : Call → Option RunId
  | .failRun runId _ (.transition (.loaded (some run))) =>
    if isValidStateTransition run.state .failed then none else some runId
  | _ => none

theorem wakes_next {m : RunManager} (now : Int) (random : String) {pc : CreatePc} {userId : UserId}
    (wakes : (Call.createRun pc).wakes = some userId) (stored : m.getRun pc.run.id ≠ none) :
    (∃ next, pending ((Call.createRun pc).resume m now random) = some next ∧
        next.wakes = some userId) ∨
      ∃ run, pc = .updated run ∧ run.userId = userId := by
  cases pc with
  | persisted run => cases wakes
  | enqueued run position =>
      left
      cases found : m.repo.runs.get run.id with
      | none => exact absurd found stored
      | some earlier =>
          refine ⟨.createRun (.updated { run with queuePosition := some position }), ?_, wakes⟩
          simp [resume, RunManager.createRunResume, InMemoryRunRepository.update, found,
            pending_settle]
  | updated run => exact .inr ⟨run, rfl, Option.some.inj wakes⟩

end Call

theorem Move.woken {s s' : RunExecutionService} {run : Run} {new : Option Task}
    (move : Move s (some (.calling .createRun (.createRun (.updated run)))) s' new)
    (free : run.userId ∉ s.processingUsers) :
    new = some (.calling (.acquire run.userId)
      (.acquireNextRun run.userId (s.runManager.acquireNextRun run.userId))) := by
  cases move with
  | awaits frame call next random goes => cases goes
  | rejects frame call random error throws => cases throws
  | resolves frame call random answer answers =>
      cases answers
      simp only [RunExecutionService.resolved, RunExecutionService.processUserQueue]
      split
      · rename_i member
        exact absurd member free
      · rfl

/-- The stored runs and the runs in creation, as far as a loop depends on them. -/
structure Creating (m : RunManager) (p : Pending) : Prop where
  named : ∀ runId run, m.getRun runId = some run → runId ≠ ""
  stored : ∀ id pc, p id = some (.createRun pc) → ∃ userId, m.userOf pc.run.id = some userId

theorem Creating.init (config : RunManagerConfig) :
    Creating (RunManager.init config) (fun _ => none) where
  named := by
    intro runId run found
    cases found
  stored := by
    intro id pc found
    cases found

theorem CallStep.creating {now : Int} {m m' : RunManager} {p p' : Pending}
    {resumed : Option (Nat × Call)} (step : CallStep now m p resumed m' p')
    (creating : Creating m p) : Creating m' p' := by
  constructor
  · apply step.stored (fun runId _ => runId ≠ "")
    · intro random input
      exact RunManager.newRunId_ne now random
    · intro runId run position named
      exact named
    · intro runId lease run named
      exact named
    · intro runId run newState metadata stored named
      exact named
    · exact creating.named
  · intro id' pc found
    generalize here : Call.createRun pc = call at found
    cases step.origin found with
    | stays _ _ _ found' other =>
        subst here
        obtain ⟨userId, user⟩ := creating.stored id' pc found'
        exact ⟨userId, step.userOf user⟩
    | begins request free fresh =>
        cases request with
        | createRun random input =>
            cases here
            refine ⟨(RunManager.newRun m.config now random input).userId, ?_⟩
            simp [Call.start, RunManager.createRun, CreatePc.run, RunManager.userOf,
              RunManager.getRun, InMemoryRunRepository.create, InMemoryRunRepository.getById]
        | _ => cases here
    | goes call random _ got goes =>
        subst here
        obtain ⟨before, rfl, awaits⟩ := Call.pending_createRun goes
        obtain ⟨userId, user⟩ := creating.stored id' before got
        refine ⟨userId, step.userOf ?_⟩
        rcases Call.create_await awaits with ⟨run, position, rfl, rfl⟩ | ⟨run, position, rfl, rfl⟩
        · exact user
        · exact user
    | fires runId timeoutManager free => cases here

namespace Task

/-- The user whose loop a task is, where the loop is about to leave `processingUsers`: nothing was
queued, the lease was refused, or `executeRun` has thrown. -/
def leaving : Task → Option UserId
  | .calling (.acquire userId) (.acquireNextRun _ (.peeked none)) => some userId
  | .calling (.acquire userId) (.acquireNextRun _ (.leased _ none)) => some userId
  | .executeFailed userId => some userId
  | _ => none

theorem leaving_of_runs {task : Task} {run : Run} (runs : task.runs = some run) :
    task.leaving = none := by
  unfold leaving
  split
  · cases runs
  · cases runs
  · cases runs
  · rfl

theorem loop_of_leaving {task : Task} {userId : UserId} (leaving : task.leaving = some userId) :
    task.loop = some userId := by
  unfold Task.leaving at leaving
  split at leaving
  · exact leaving
  · exact leaving
  · exact leaving
  · cases leaving

end Task

namespace Runtime

variable {w w' : Runtime} {label : Label} {id : Nat}

inductive Ends (w : Runtime) (label : Label) (id : Nat) (userId : UserId) : Prop
  | empty (nothing : w.service.runManager.queue.peek userId = none)
  | refused (call : Call) (runId : RunId) (resumed : w.resumed label = some (id, call))
      (asks : call.leases = some (userId, runId))
      (held : (w.service.runManager.leaseManager.isActive w.service.now userId).2 = true)
  | failed (call : Call) (run : Run) (resumed : w.resumed label = some (id, call))
      (misses : call.misses = some run.id)
      (user : w.service.runManager.userOf run.id = some userId)

theorem Serial.acquires (serial : w.Serial) (creating : Creating w.service.runManager w.pending)
    {userId : UserId} {call : Call}
    (found : w.tasks.get id = some (.calling (.acquire userId) call))
    (staying : (Task.calling (.acquire userId) call).leaving = none) (random : String) :
    (∃ next, (call.resume w.service.runManager w.service.now random).progress = .await next ∧
        (Task.calling (.acquire userId) next).leaving = none) ∨
      (∃ run, (call.resume w.service.runManager w.service.now random).progress =
        .resolve (some run)) ∨
      ∃ runId, call.leases = some (userId, runId) ∧
        (w.service.runManager.leaseManager.isActive w.service.now userId).2 = true := by
  obtain ⟨pc, rfl, pending⟩ := serial.acquiring found
  have lanes := serial.queues.lanes
  cases progress : (w.service.runManager.acquireNextRunResume w.service.now random userId
      pc).progress with
  | await next =>
      have goes : ((Call.acquireNextRun userId pc).resume w.service.runManager w.service.now
          random).progress = .await (.acquireNextRun userId next) :=
        (Call.settle_await _ _ _ _).mpr ⟨next, progress, rfl⟩
      rcases Call.acquire_await progress with ⟨runId, rfl, -, rfl⟩ | ⟨runId, lease, rfl, rfl⟩ |
        ⟨runId, lease, stored, rfl, -, rfl⟩ | ⟨runId, rfl, rfl⟩
      · cases granted : (w.service.runManager.leaseManager.acquire w.service.now random userId runId
            w.service.runManager.config.leaseTtlMs).2 with
        | none =>
            have held := InMemoryLeaseManager.active_of_refused granted
            exact .inr (.inr ⟨runId, rfl, held⟩)
        | some lease =>
            rw [granted] at goes
            exact .inl ⟨_, goes, rfl⟩
      · exact .inl ⟨_, goes, rfl⟩
      · exact .inl ⟨_, goes, rfl⟩
      · exact .inl ⟨_, goes, rfl⟩
  | resolve answer =>
      rcases Call.acquire_resolve progress with ⟨runId, rfl⟩ | ⟨-, rfl | rfl | ⟨runId, rfl⟩⟩
      · obtain ⟨stored, rfl, -⟩ := serial.queues.named.answers id userId runId answer pending
        exact .inr (.inl ⟨stored, (Call.settle_resolve _ _ _ _).mpr ⟨_, progress, rfl⟩⟩)
      · cases staying
      · -- an empty id is in no lane
        have user := (lanes.named id _ userId "" pending (.inl rfl)).1
        obtain ⟨stored, found', -⟩ := Option.map_eq_some_iff.mp user
        exact absurd rfl (creating.named "" stored found')
      · cases staying
  | reject error =>
      obtain ⟨runId, lease, rfl, missing⟩ := Call.acquire_reject progress
      have user := (lanes.named id _ userId runId pending (.inr rfl)).1
      rw [RunManager.userOf, missing] at user
      cases user

theorem Serial.fails (serial : w.Serial) {userId : UserId} {run : Run} {agent listening : Bool}
    {call : Call} {random : String} {error : RunError}
    (found : w.tasks.get id = some (.calling (.fail userId run agent listening) call))
    (throws : (call.resume w.service.runManager w.service.now random).progress = .reject error) :
    call.misses = some run.id ∧ w.service.runManager.userOf run.id = some userId := by
  have sound := serial.executions.sound id _ found
  obtain ⟨mine, member, user⟩ := serial.executions.mine id _ run found rfl
  have left := serial.executions.left run.id member
  have fit := serial.loops.fits id _ call found
  cases mine
  cases call <;> simp only [Frame.Fits] at fit
  subst fit
  refine ⟨?_, user⟩
  have rejects := (Call.settle_reject _ _ _ _).mp throws
  rcases Call.end_reject rejects with rfl | rfl | missing | ⟨read, rfl, invalid⟩
  · exact absurd rfl sound
  · obtain ⟨snapshot, impossible, -⟩ := sound
    cases impossible
  · obtain ⟨stored, found', -⟩ := left.getRun
    rw [missing] at found'
    cases found'
  · simp [Call.misses, invalid]

/-- A loop that is not leaving goes on, or its turn is one of those that bring it to its end. -/
theorem Moves.loop_goes (moves : w.Moves label id w') (serial : w.Serial)
    (creating : Creating w.service.runManager w.pending) {task : Task} {userId : UserId}
    (found : w.tasks.get id = some task) (loop : task.loop = some userId)
    (staying : task.leaving = none) :
    (∃ task', w'.tasks.get id = some task' ∧ task'.loop = some userId ∧ task'.leaving = none) ∨
      w.Ends label id userId := by
  have move := moves.move
  have fits (frame : Frame) (call : Call) (was : task = .calling frame call) : frame.Fits call :=
    serial.loops.fits id frame call (by rw [found, was])
  rw [found] at move
  generalize w'.service = after at move
  generalize w'.tasks.get id = new at move
  cases move with
  | refused runId owner reason run => cases loop
  | cancelling runId owner reason run => cases loop
  | awaits frame call next random goes =>
      cases frame with
      | acquire looping =>
          cases loop
          rcases serial.acquires creating found staying random with ⟨next', goes', still⟩ |
            ⟨run, answers⟩ | ⟨runId, asks, held⟩
          · rw [goes] at goes'
            cases goes'
            exact .inl ⟨_, rfl, rfl, still⟩
          · rw [goes] at answers
            cases answers
          · exact .inr (.refused call runId (moves.resumes found) asks held)
      | _ => exact .inl ⟨_, rfl, loop, rfl⟩
  | resolves frame call random run answers =>
      have fit := fits frame call rfl
      cases frame with
      | acquire looping =>
          cases loop
          rcases serial.acquires creating found staying random with ⟨next, goes, -⟩ |
            ⟨last, answers'⟩ | ⟨runId, asks, held⟩
          · rw [answers] at goes
            cases goes
          · rw [answers] at answers'
            cases answers'
            exact .inl ⟨_, rfl, rfl, rfl⟩
          · exact .inr (.refused call runId (moves.resumes found) asks held)
      | start looping started workspaceId =>
          cases run with
          | none => exact absurd answers (fit.answers (by simp) (by simp))
          | some run => exact .inl ⟨_, rfl, loop, rfl⟩
      | complete looping completed listening =>
          cases run with
          | none => exact absurd answers (fit.answers (by simp) (by simp))
          | some run => exact .inl ⟨_, rfl, loop, rfl⟩
      | fail looping failed agent listening =>
          cases run with
          | none => exact absurd answers (fit.answers (by simp) (by simp))
          | some run => exact .inl ⟨_, rfl, loop, rfl⟩
      | _ => cases loop
  | rejects frame call random error throws =>
      cases frame with
      | acquire looping =>
          cases loop
          rcases serial.acquires creating found staying random with ⟨next, goes, -⟩ |
            ⟨last, answers⟩ | ⟨runId, asks, held⟩
          · rw [throws] at goes
            cases goes
          · rw [throws] at answers
            cases answers
          · exact .inr (.refused call runId (moves.resumes found) asks held)
      | start looping started workspaceId => exact .inl ⟨_, rfl, loop, rfl⟩
      | complete looping completed listening => exact .inl ⟨_, rfl, loop, rfl⟩
      | fail looping failed agent listening =>
          cases loop
          obtain ⟨misses, user⟩ := serial.fails found throws
          exact .inr (.failed call failed (moves.resumes found) misses user)
      | _ => cases loop
  | replied executing run pc reply outcome answer =>
      obtain ⟨-, task', left, loops, runs⟩ := RunExecutionService.replied_task answer
      cases loop
      exact .inl ⟨task', left, loops, Task.leaving_of_runs runs⟩
  | continued executing run pc outcome goes =>
      obtain ⟨-, task', left, loops, after⟩ := RunExecutionService.executeResume_task goes
      cases loop
      refine .inl ⟨task', left, loops, ?_⟩
      rcases after with runs | rfl
      · exact Task.leaving_of_runs runs
      · rfl
  | again looping =>
      cases loop
      cases peeked : w.service.runManager.queue.peek userId with
      | none => exact .inr (.empty peeked)
      | some runId =>
          refine .inl ⟨_, rfl, rfl, ?_⟩
          simp only [RunManager.acquireNextRun, peeked]
          rfl
  | died looping => cases staying

end Runtime

end Minerva
