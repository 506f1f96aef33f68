import Minerva.Runtime.RunExecution
import Minerva.Services.Queued

/-! The running service: its tasks, interleaved at their `await`s, with the collaborators'
answers, the timers and the clock. -/

namespace Minerva

structure Runtime where
  service : RunExecutionService
  tasks : EsMap Nat Task

namespace Task

def call : Task → Option Call
  | .calling _ call => some call
  | _ => none

def loop : Task → Option UserId
  | .calling (.acquire userId) _ => some userId
  | .calling (.start userId _ _) _ => some userId
  | .calling (.complete userId _ _) _ => some userId
  | .calling (.fail userId _ _ _) _ => some userId
  | .executing userId _ _ => some userId
  | .executed userId => some userId
  | .executeFailed userId => some userId
  | _ => none

def runs : Task → Option Run
  | .calling (.start _ run _) _ => some run
  | .calling (.complete _ run _) _ => some run
  | .calling (.fail _ run _ _) _ => some run
  | .executing _ run _ => some run
  | _ => none

end Task

namespace Runtime

inductive Label where
  | createRun (id : Nat) (random : String) (owner : OwnerPrincipal) (body : CreateRunRequestBody)
  | cancelRun (id : Nat) (runId : RunId) (owner : OwnerPrincipal)
      (body : Option CancelRunRequestBody)
  | fire (id timer : Nat)
  | resume (id : Nat) (random : String)
  | reply (id : Nat) (reply : Reply)
  | agentEvent (id : Nat) (event : Json)
  | tick (elapsed : Nat)

def init (config : RunManagerConfig) (now : Int) : Runtime :=
  ⟨RunExecutionService.init config now, .empty⟩

def store (w : Runtime) (id : Nat) : Outcome → Runtime
  | (service, none) => ⟨service, w.tasks.delete id⟩
  | (service, some task) => ⟨service, w.tasks.set id task⟩

def spawn (w : Runtime) (id : Nat) (outcome : Outcome) : Option Runtime :=
  if w.tasks.has id then none else some (w.store id outcome)

def step (w : Runtime) : Label → Option Runtime
  | .createRun id random owner body => w.spawn id (w.service.createRun random owner body)
  | .cancelRun id runId owner body => w.spawn id (w.service.cancelRun runId owner body)
  | .fire id timer =>
    let m := w.service.runManager
    match m.timeoutManager.fire w.service.now timer with
    | none => none
    | some (runId, .timeoutRun, timeoutManager) =>
      let m := { m with timeoutManager }
      w.spawn id ({ w.service with runManager := m },
        some (.calling .timeout (.timeoutRun runId (m.timeoutRun runId))))
  | .resume id random =>
    match w.tasks.get id with
    | none => none
    | some task => (w.service.resume random task).map (w.store id)
  | .reply id reply =>
    match w.tasks.get id with
    | some (.executing userId run pc) => (w.service.replied userId run pc reply).map (w.store id)
    | _ => none
  | .agentEvent id event =>
    match w.tasks.get id with
    | some (.executing _ run (.prompting _)) =>
      some { w with service := w.service.note (.agentEvent run.id event) }
    | _ => none
  | .tick elapsed =>
    some { w with service := { w.service with now := w.service.now + elapsed } }

def stateOf (w : Runtime) (runId : RunId) : Option RunState := w.service.runManager.stateOf runId

def pending (w : Runtime) : Pending := fun id => (w.tasks.get id).bind Task.call

def resumed (w : Runtime) : Label → Option (Nat × Call)
  | .resume id _ => (w.pending id).map (id, ·)
  | _ => none

/-- The task that a label lets go on. -/
def turning (w : Runtime) : Label → Option Task
  | .resume id _ => w.tasks.get id
  | .reply id _ => w.tasks.get id
  | _ => none

def created (w : Runtime) : Label → Option RunId
  | .createRun _ random _ _ => some (RunManager.newRunId w.service.now random)
  | _ => none

def FreshRun (w : Runtime) (label : Label) : Prop :=
  ∀ runId ∈ w.created label, w.stateOf runId = none

instance (w : Runtime) (label : Label) : Decidable (w.FreshRun label) :=
  inferInstanceAs (Decidable (∀ runId ∈ w.created label, _))

def Quiescent (w : Runtime) : Prop := w.tasks.entries = []

end Runtime

/-- What one turn of the service makes of one task; none stands for a task that is not there. -/
inductive Move (s : RunExecutionService) :
    Option Task → RunExecutionService → Option Task → Prop
  | declined : Move s none s none
  | created (random : String) (input : CreateRunInput)
      (fresh : s.runManager.stateOf (RunManager.newRunId s.now random) = none) :
      Move s none
        { s with runManager := (Call.start s.runManager s.now (.createRun random input)).1 }
        (some (.calling .createRun
          (Call.start s.runManager s.now (.createRun random input)).2))
  | requested (runId : RunId) (owner : OwnerPrincipal) (reason : Option String) :
      Move s none s (some (.cancelRequested runId owner reason (s.runManager.getRun runId)))
  | fired (timer : Nat) (runId : RunId) (timeoutManager : InMemoryTimeoutManager TimeoutCallback)
      (due : s.runManager.timeoutManager.fire s.now timer =
        some (runId, .timeoutRun, timeoutManager)) :
      Move s none { s with runManager := { s.runManager with timeoutManager } }
        (some (.calling .timeout (.timeoutRun runId (s.runManager.timeoutRun runId))))
  | refused (runId : RunId) (owner : OwnerPrincipal) (reason : Option String) (run : Option Run) :
      Move s (some (.cancelRequested runId owner reason run)) s none
  | cancelling (runId : RunId) (owner : OwnerPrincipal) (reason : Option String) (run : Run) :
      Move s (some (.cancelRequested runId owner reason (some run))) s
        (some (.calling (.cancelRun reason)
          (Call.start s.runManager s.now (.cancelRun runId reason)).2))
  | awaits (frame : Frame) (call next : Call) (random : String)
      (goes : (call.resume s.runManager s.now random).progress = .await next) :
      Move s (some (.calling frame call)) (s.delivered (call.resume s.runManager s.now random))
        (some (.calling frame next))
  | resolves (frame : Frame) (call : Call) (random : String) (run : Option Run)
      (answers : (call.resume s.runManager s.now random).progress = .resolve run) :
      Move s (some (.calling frame call))
        ((s.delivered (call.resume s.runManager s.now random)).resolved frame run).1
        ((s.delivered (call.resume s.runManager s.now random)).resolved frame run).2
  | rejects (frame : Frame) (call : Call) (random : String) (error : RunError)
      (throws : (call.resume s.runManager s.now random).progress = .reject error) :
      Move s (some (.calling frame call))
        ((s.delivered (call.resume s.runManager s.now random)).rejected frame error).1
        ((s.delivered (call.resume s.runManager s.now random)).rejected frame error).2
  | replied (userId : UserId) (run : Run) (pc : ExecPc) (reply : Reply) (outcome : Outcome)
      (answer : s.replied userId run pc reply = some outcome) :
      Move s (some (.executing userId run pc)) outcome.1 outcome.2
  | continued (userId : UserId) (run : Run) (pc : ExecPc) (outcome : Outcome)
      (goes : s.executeResume userId run pc = some outcome) :
      Move s (some (.executing userId run pc)) outcome.1 outcome.2
  | again (userId : UserId) :
      Move s (some (.executed userId)) (s.acquireNext userId).1 (s.acquireNext userId).2
  | died (userId : UserId) :
      Move s (some (.executeFailed userId)) (s.leaveUserQueue userId).1
        (s.leaveUserQueue userId).2

namespace Runtime

theorem get_store (w : Runtime) (id : Nat) (outcome : Outcome) :
    (w.store id outcome).tasks.get = Function.update w.tasks.get id outcome.2 := by
  obtain ⟨service, task⟩ := outcome
  funext other
  cases task with
  | none => simp only [store, EsMap.get_delete, Function.update_apply]
  | some task => simp only [store, EsMap.get_set, Function.update_apply]

@[simp] theorem store_service (w : Runtime) (id : Nat) (outcome : Outcome) :
    (w.store id outcome).service = outcome.1 := by
  obtain ⟨service, task⟩ := outcome
  cases task <;> rfl

structure Moves (w : Runtime) (label : Label) (id : Nat) (w' : Runtime) : Prop where
  move : Move w.service (w.tasks.get id) w'.service (w'.tasks.get id)
  tasks : w'.tasks.get = Function.update w.tasks.get id (w'.tasks.get id)
  resumed : w.resumed label = (w.pending id).map (id, ·)

inductive Passes (w : Runtime) : Label → Runtime → Prop
  | tick (elapsed : Nat) : Passes w (.tick elapsed)
      { w with service := { w.service with now := w.service.now + elapsed } }
  | agentEvent (id : Nat) (event : Json) (userId : UserId) (run : Run) (listening : Bool)
      (prompting : w.tasks.get id = some (.executing userId run (.prompting listening))) :
      Passes w (.agentEvent id event)
        { w with service := w.service.note (.agentEvent run.id event) }

theorem spawn_eq_some {w w' : Runtime} {id : Nat} {outcome : Outcome}
    (spawned : w.spawn id outcome = some w') :
    w.tasks.get id = none ∧ w' = w.store id outcome := by
  unfold spawn at spawned
  split at spawned
  · cases spawned
  · rename_i free
    cases spawned
    exact ⟨by simpa [EsMap.has] using free, rfl⟩

theorem moves_store {w : Runtime} {label : Label} {id : Nat} {outcome : Outcome}
    (move : Move w.service (w.tasks.get id) outcome.1 outcome.2)
    (resumed : w.resumed label = (w.pending id).map (id, ·)) :
    w.Moves label id (w.store id outcome) := by
  have here : (w.store id outcome).tasks.get id = outcome.2 := by
    rw [get_store, Function.update_self]
  constructor
  · rw [here, store_service]
    exact move
  · rw [here, get_store]
  · exact resumed

theorem resume_move {s : RunExecutionService} {random : String} {task : Task} {outcome : Outcome}
    (goes : s.resume random task = some outcome) : Move s (some task) outcome.1 outcome.2 := by
  cases task with
  | calling frame call =>
      simp only [RunExecutionService.resume] at goes
      split at goes <;> cases goes
      · rename_i next awaits
        exact .awaits frame call next random awaits
      · rename_i run answers
        exact .resolves frame call random run answers
      · rename_i error throws
        exact .rejects frame call random error throws
  | cancelRequested runId owner reason run =>
      cases run with
      | none =>
          cases goes
          exact .refused runId owner reason none
      | some run =>
          simp only [RunExecutionService.resume] at goes
          split at goes <;> cases goes
          · exact .cancelling runId owner reason run
          · exact .refused runId owner reason (some run)
  | executing userId run pc => exact .continued userId run pc outcome goes
  | executed userId =>
      cases goes
      exact .again userId
  | executeFailed userId =>
      cases goes
      exact .died userId

/-- Every step moves one task in one of the listed ways, or passes. -/
theorem step_turns {w w' : Runtime} {label : Label} (fresh : w.FreshRun label)
    (moved : w.step label = some w') :
    (∃ id, w.Moves label id w' ∧ w.tasks.get id = w.turning label) ∨ w.Passes label w' := by
  cases label with
  | createRun id random owner body =>
      obtain ⟨free, rfl⟩ := spawn_eq_some moved
      refine .inl ⟨id, moves_store ?_ (by simp [resumed, pending, free]), free⟩
      rw [free]
      unfold RunExecutionService.createRun
      split
      · rename_i prompt agentPackId _ _
        exact .created random
          { owner := some owner, userId := none, agentPackId, prompt
            maxDurationMs := body.maxDurationMs } (fresh _ rfl)
      · exact .declined
  | cancelRun id runId owner body =>
      obtain ⟨free, rfl⟩ := spawn_eq_some moved
      refine .inl ⟨id, moves_store ?_ (by simp [resumed, pending, free]), free⟩
      rw [free]
      exact .requested runId owner (body.bind CancelRunRequestBody.reason)
  | fire id timer =>
      simp only [step] at moved
      split at moved
      · cases moved
      · rename_i runId timeoutManager due
        obtain ⟨free, rfl⟩ := spawn_eq_some moved
        refine .inl ⟨id, moves_store ?_ (by simp [resumed, pending, free]), free⟩
        rw [free]
        exact .fired timer runId timeoutManager due
  | resume id random =>
      simp only [step] at moved
      split at moved
      · cases moved
      · rename_i task found
        obtain ⟨outcome, goes, rfl⟩ := Option.map_eq_some_iff.mp moved
        refine .inl ⟨id, moves_store ?_ rfl, rfl⟩
        rw [found]
        exact resume_move goes
  | reply id reply =>
      simp only [step] at moved
      split at moved
      · rename_i userId run pc found
        obtain ⟨outcome, answer, rfl⟩ := Option.map_eq_some_iff.mp moved
        refine .inl ⟨id, moves_store ?_ (by simp [resumed, pending, found, Task.call]), rfl⟩
        rw [found]
        exact .replied userId run pc reply outcome answer
      · cases moved
  | agentEvent id event =>
      simp only [step] at moved
      split at moved
      · rename_i userId run listening found
        cases moved
        exact .inr (.agentEvent id event userId run listening found)
      · cases moved
  | tick elapsed =>
      cases moved
      exact .inr (.tick elapsed)

theorem step_cases {w w' : Runtime} {label : Label} (fresh : w.FreshRun label)
    (moved : w.step label = some w') : (∃ id, w.Moves label id w') ∨ w.Passes label w' := by
  rcases step_turns fresh moved with ⟨id, moves, -⟩ | passes
  · exact .inl ⟨id, moves⟩
  · exact .inr passes

inductive Steps (w : Runtime) : Label → Runtime → Prop
  | creates (id : Nat) (random : String) (owner : OwnerPrincipal) (body : CreateRunRequestBody)
      (free : w.tasks.get id = none) :
      Steps w (.createRun id random owner body) (w.store id (w.service.createRun random owner body))
  | requests (id : Nat) (runId : RunId) (owner : OwnerPrincipal) (body : Option CancelRunRequestBody)
      (free : w.tasks.get id = none) :
      Steps w (.cancelRun id runId owner body) (w.store id (w.service.cancelRun runId owner body))
  | fires (id timer : Nat) (runId : RunId)
      (timeoutManager : InMemoryTimeoutManager TimeoutCallback) (free : w.tasks.get id = none)
      (due : w.service.runManager.timeoutManager.fire w.service.now timer =
        some (runId, .timeoutRun, timeoutManager)) :
      Steps w (.fire id timer) (w.store id
        ({ w.service with runManager := { w.service.runManager with timeoutManager } },
          some (.calling .timeout (.timeoutRun runId (w.service.runManager.timeoutRun runId)))))
  | resumes (id : Nat) (random : String) (task : Task) (outcome : Outcome)
      (found : w.tasks.get id = some task) (goes : w.service.resume random task = some outcome) :
      Steps w (.resume id random) (w.store id outcome)
  | replies (id : Nat) (reply : Reply) (userId : UserId) (run : Run) (pc : ExecPc)
      (outcome : Outcome) (found : w.tasks.get id = some (.executing userId run pc))
      (answer : w.service.replied userId run pc reply = some outcome) :
      Steps w (.reply id reply) (w.store id outcome)
  | passes (label : Label) (w' : Runtime) (passing : w.Passes label w') : Steps w label w'

theorem steps_of_step {w w' : Runtime} {label : Label} (moved : w.step label = some w') :
    w.Steps label w' := by
  cases label with
  | createRun id random owner body =>
      obtain ⟨free, rfl⟩ := spawn_eq_some moved
      exact .creates id random owner body free
  | cancelRun id runId owner body =>
      obtain ⟨free, rfl⟩ := spawn_eq_some moved
      exact .requests id runId owner body free
  | fire id timer =>
      simp only [step] at moved
      split at moved
      · cases moved
      · rename_i runId timeoutManager due
        obtain ⟨free, rfl⟩ := spawn_eq_some moved
        exact .fires id timer runId timeoutManager free due
  | resume id random =>
      simp only [step] at moved
      split at moved
      · cases moved
      · rename_i task found
        obtain ⟨outcome, goes, rfl⟩ := Option.map_eq_some_iff.mp moved
        exact .resumes id random task outcome found goes
  | reply id reply =>
      simp only [step] at moved
      split at moved
      · rename_i userId run pc found
        obtain ⟨outcome, answer, rfl⟩ := Option.map_eq_some_iff.mp moved
        exact .replies id reply userId run pc outcome found answer
      · cases moved
  | agentEvent id event =>
      simp only [step] at moved
      split at moved
      · rename_i userId run listening found
        cases moved
        exact .passes _ _ (.agentEvent id event userId run listening found)
      · cases moved
  | tick elapsed =>
      cases moved
      exact .passes _ _ (.tick elapsed)

end Runtime

end Minerva
