import Minerva.Services.Rejections

/-! Sequences of operations that do not overlap: calls of `RunManager` and timers that fire, each
run to its end before the next one begins. -/

namespace Minerva

inductive Action where
  | call (request : Request)
  /-- the timer that is armed for the run fires -/
  | fire (runId : RunId)

/-- An operation with what its environment gives it: the random part of a lease token and the
readings of the clock in its parts. -/
structure Operation where
  action : Action
  random : String
  clock : Nat → Int

namespace Operation

/-- The stores after the timer of a run has fired, if there is one that is due. -/
def expire (m : RunManager) (now : Int) (runId : RunId) : Option (RunManager × RunId) :=
  match m.timeoutManager.timeouts.get runId with
  | none => none
  | some handle =>
    match m.timeoutManager.fire now handle.timer with
    | none => none
    | some (runId, .timeoutRun, timeoutManager) => some ({ m with timeoutManager }, runId)

/-- An operation from its beginning to its end; none where no timer is due. -/
def perform (m : RunManager) (op : Operation) : Option (RunManager × Settlement (Option Run)) :=
  match op.action with
  | .call request => Call.perform m op.random op.clock request
  | .fire runId =>
    match expire m (op.clock 0) runId with
    | none => none
    | some (m, runId) => m.performTimeout op.clock runId

end Operation

structure Entry where
  operation : Operation
  before : RunManager
  outcome : Settlement (Option Run)
  after : RunManager

/-- `RunManager` with all that has been done to it and the latest reading of the clock. -/
structure Session where
  manager : RunManager
  now : Int
  history : List Entry

namespace Session

def init (config : RunManagerConfig) (now : Int) : Session := ⟨RunManager.init config, now, []⟩

def step (s : Session) (op : Operation) : Option Session :=
  (op.perform s.manager).map (fun done =>
    ⟨done.1, op.clock longestCall, s.history ++ [⟨op, s.manager, done.2, done.1⟩]⟩)

end Session

def Operation.created (op : Operation) : Option RunId :=
  match op.action with
  | .call (.createRun random _) => some (RunManager.newRunId (op.clock 0) random)
  | _ => none

def Session.FreshRun (s : Session) (op : Operation) : Prop :=
  ∀ runId ∈ op.created, s.manager.stateOf runId = none

instance (s : Session) (op : Operation) : Decidable (s.FreshRun op) :=
  inferInstanceAs (Decidable (∀ runId ∈ op.created, _))

structure Sheet where
  run : Option Run
  timeout : Option TimeoutHandle
  due : Option Int
  context : Option CancellationContext

namespace RunManager

def sheet (m : RunManager) (runId : RunId) : Sheet :=
  ⟨m.getRun runId, m.timeoutManager.timeouts.get runId, m.timeoutManager.dueAt runId,
    m.cancellationRegistry.get runId⟩

variable {m : RunManager} {runId : RunId}

theorem sheet_released (m : RunManager) (run : Run) (id : RunId) :
    (m.released run).sheet id = m.sheet id := by
  unfold released
  split <;> rfl

theorem sheet_signalled (m : RunManager) (runId : RunId) (reason : String) (id : RunId) :
    (m.signalled runId reason).sheet id =
      if id = runId then
        { m.sheet id with
          context := (m.sheet id).context.map (fun context => (context.cancel (some reason)).1) }
      else m.sheet id := by
  simp only [sheet, signalled, InMemoryCancellationRegistry.get_cancel]
  split <;> rfl

theorem sheet_forgotten (m : RunManager) (runId id : RunId) :
    (m.forgotten runId).sheet id =
      if id = runId then { m.sheet id with context := none } else m.sheet id := by
  simp only [sheet, forgotten, InMemoryCancellationRegistry.get_remove]
  split <;> rfl

theorem sheet_set (m : RunManager) (runId : RunId) (run : Run) (id : RunId) :
    RunManager.sheet { m with repo := ⟨m.repo.runs.set runId run⟩ } id =
      if id = runId then { m.sheet id with run := some run } else m.sheet id := by
  simp only [sheet, getRun, InMemoryRunRepository.getById, EsMap.get_set]
  split <;> rfl

theorem sheet_cleared (m : RunManager) (armed : m.timeoutManager.Armed) (runId id : RunId) :
    RunManager.sheet { m with timeoutManager := (m.timeoutManager.clear runId).1 } id =
      if id = runId then { m.sheet id with timeout := none, due := none } else m.sheet id := by
  simp only [sheet, InMemoryTimeoutManager.timeouts_clear, armed.dueAt_clear]
  split <;> rfl

theorem sheet_moved (m : RunManager) (armed : m.timeoutManager.Armed) (now : Int) (runId : RunId)
    (newState : RunState) (metadata : TransitionMetadata) (run : Run) (id : RunId) :
    (m.moved now runId newState metadata run).sheet id =
      if id = runId then
        { run := some (transitionUpdates run newState now metadata run)
          timeout := if isTerminalState newState then none else (m.sheet id).timeout
          due := if isTerminalState newState then none else (m.sheet id).due
          context := (m.sheet id).context }
      else m.sheet id := by
  have stored := sheet_set
    { m with
      timeoutManager :=
        if isTerminalState newState then (m.timeoutManager.clear runId).1 else m.timeoutManager }
    runId (transitionUpdates run newState now metadata run) id
  unfold moved
  rw [stored]
  by_cases terminal : isTerminalState newState = true
  · simp only [terminal, if_true, sheet_cleared m armed]
    split <;> rfl
  · simp only [terminal, Bool.false_eq_true, if_false]

theorem sheet_begun (m : RunManager) (armed : m.timeoutManager.Armed) (now : Int) (runId : RunId)
    (run : Run) (id : RunId) :
    RunManager.sheet
        { m with
          cancellationRegistry := m.cancellationRegistry.create runId
          timeoutManager :=
            (m.timeoutManager.schedule now runId run.maxDurationMs TimeoutCallback.timeoutRun).1 } id =
      if id = runId then
        { m.sheet id with
          timeout := some ⟨runId, now, now + run.maxDurationMs, m.timeoutManager.nextTimer⟩
          due := some (now + timerDelay run.maxDurationMs)
          context := some ⟨m.cancellationRegistry.nextSignal, false, none, []⟩ }
      else m.sheet id := by
  simp only [sheet, InMemoryCancellationRegistry.get_create, armed.dueAt_schedule]
  by_cases same : id = runId
  · simp [same, InMemoryTimeoutManager.schedule, getRun]
  · simp [same, InMemoryTimeoutManager.schedule, getRun, EsMap.get_set,
      InMemoryTimeoutManager.timeouts_clear]

def createdRun (m : RunManager) (now : Int) (random : String) (input : CreateRunInput) : Run :=
  let run := newRun m.config now random input
  { run with queuePosition := some (m.queue.enqueue run.id run.userId).2 }

def enqueued (m : RunManager) (run : Run) : RunManager :=
  { m with
    queue := (m.queue.enqueue run.id run.userId).1
    repo := ⟨m.repo.runs.set run.id run⟩ }

theorem createNow_eq (m : RunManager) (now : Int) (random : String) (input : CreateRunInput) :
    m.createNow now random input =
      (m.enqueued (m.createdRun now random input), .ok (some (m.createdRun now random input))) :=
  rfl

theorem getRun_set (m : RunManager) (key : RunId) (run : Run) (id : RunId) :
    getRun { m with repo := ⟨m.repo.runs.set key run⟩ } id =
      if id = key then some run else m.getRun id :=
  EsMap.get_set _ _ _ _

theorem getRun_enqueued (m : RunManager) (run : Run) (id : RunId) :
    (m.enqueued run).getRun id = if id = run.id then some run else m.getRun id :=
  EsMap.get_set _ _ _ _

/-- The fields of a run that only `createRun` and `acquireNextRun` write. -/
def origin (m : RunManager) (runId : RunId) : Option (RunId × UserId × Int × Option String) :=
  (m.getRun runId).map (fun run => (run.id, run.userId, run.createdAt, run.leaseToken))

/-- What an operation leaves alone that neither creates, leases nor withdraws a run. -/
structure Frame (m m' : RunManager) : Prop where
  queue : m'.queue = m.queue
  config : m'.config = m.config
  origin : ∀ runId, m'.origin runId = m.origin runId

theorem Frame.refl (m : RunManager) : Frame m m := ⟨rfl, rfl, fun _ => rfl⟩

theorem Frame.trans {m₁ m₂ m₃ : RunManager} (first : Frame m₁ m₂) (second : Frame m₂ m₃) :
    Frame m₁ m₃ :=
  ⟨second.queue.trans first.queue, second.config.trans first.config,
    fun runId => (second.origin runId).trans (first.origin runId)⟩

theorem Frame.before {m m' : RunManager} (frame : Frame m m') {runId : RunId} {run' : Run}
    (found : m'.getRun runId = some run') : ∃ run, m.getRun runId = some run ∧
      run'.id = run.id ∧ run'.userId = run.userId ∧ run'.createdAt = run.createdAt ∧
        run'.leaseToken = run.leaseToken := by
  have same := frame.origin runId
  simp only [RunManager.origin, found, Option.map_some] at same
  obtain ⟨run, stored, fields⟩ := Option.map_eq_some_iff.mp same.symm
  simp only [Prod.mk.injEq] at fields
  exact ⟨run, stored, fields.1.symm, fields.2.1.symm, fields.2.2.1.symm, fields.2.2.2.symm⟩

theorem Frame.after {m m' : RunManager} (frame : Frame m m') {runId : RunId} {run : Run}
    (found : m.getRun runId = some run) : ∃ run', m'.getRun runId = some run' := by
  have same := frame.origin runId
  simp only [RunManager.origin, found, Option.map_some] at same
  obtain ⟨run', stored, -⟩ := Option.map_eq_some_iff.mp same
  exact ⟨run', stored⟩

theorem frame_released (m : RunManager) (run : Run) : Frame m (m.released run) := by
  unfold released
  split <;> exact ⟨rfl, rfl, fun _ => rfl⟩

theorem origin_set {m : RunManager} {runId : RunId} {run updated : Run}
    (found : m.getRun runId = some run)
    (same : (updated.id, updated.userId, updated.createdAt, updated.leaseToken) =
      (run.id, run.userId, run.createdAt, run.leaseToken)) (id : RunId) :
    origin { m with repo := ⟨m.repo.runs.set runId updated⟩ } id = m.origin id := by
  simp only [origin, getRun, InMemoryRunRepository.getById, EsMap.get_set] at found ⊢
  split
  · rename_i at_
    rw [at_, found]
    exact congrArg some same
  · rfl

theorem frame_moved {run : Run} (found : m.getRun runId = some run) (now : Int)
    (newState : RunState) (metadata : TransitionMetadata) :
    Frame m (m.moved now runId newState metadata run) := by
  refine ⟨rfl, rfl, fun id => ?_⟩
  have same : ((transitionUpdates run newState now metadata run).id,
      (transitionUpdates run newState now metadata run).userId,
      (transitionUpdates run newState now metadata run).createdAt,
      (transitionUpdates run newState now metadata run).leaseToken) =
      (run.id, run.userId, run.createdAt, run.leaseToken) := rfl
  exact origin_set found same id

theorem frame_transition (m : RunManager) (now : Int) (runId : RunId) (newState : RunState)
    (metadata : TransitionMetadata) :
    Frame m (m.transitionNow now runId newState metadata).1 := by
  unfold transitionNow
  cases found : m.getRun runId with
  | none => exact .refl m
  | some run =>
      by_cases valid : isValidStateTransition run.state newState = true
      · simp only [if_pos valid]
        exact frame_moved found now newState metadata
      · simp only [if_neg valid]
        exact .refl m

theorem frame_start (m : RunManager) (clock : Nat → Int) (runId : RunId) :
    Frame m (m.startNow clock runId).1 := by
  have moved := m.frame_transition (clock 1) runId .running ⟨none, none⟩
  unfold startNow
  generalize m.transitionNow (clock 1) runId .running ⟨none, none⟩ = done at moved ⊢
  obtain ⟨after, outcome⟩ := done
  cases outcome with
  | error cause => exact moved
  | ok run => exact moved.trans ⟨rfl, rfl, fun _ => rfl⟩

theorem frame_abandon (m : RunManager) (clock : Nat → Int) (part : Nat) (runId : RunId)
    (reason : String) (newState : RunState) (text : String) (run : Run) :
    Frame m (m.abandonNow clock part runId reason newState text run).1 := by
  have told : Frame (m.released run) ((m.released run).signalled runId reason) :=
    ⟨rfl, rfl, fun _ => rfl⟩
  exact ((m.frame_released run).trans told).trans (frame_transition _ _ _ _ _)

theorem frame_end (m : RunManager) (clock : Nat → Int) (runId : RunId) (newState : RunState)
    (metadata : TransitionMetadata) : Frame m (m.endNow clock runId newState metadata).1 := by
  unfold endNow
  cases m.getRun runId with
  | none => exact .refl m
  | some run =>
      have dropped : Frame (m.released run) ((m.released run).forgotten runId) :=
        ⟨rfl, rfl, fun _ => rfl⟩
      exact ((m.frame_released run).trans dropped).trans (frame_transition _ _ _ _ _)

theorem frame_timeout (m : RunManager) (clock : Nat → Int) (runId : RunId) :
    Frame m (m.timeoutNow clock runId).1 := by
  unfold timeoutNow
  cases m.getRun runId with
  | none => exact .refl m
  | some run =>
      by_cases terminal : isTerminalState run.state = true
      · simp only [if_pos terminal]
        exact .refl m
      · simp only [if_neg terminal]
        have kept := m.frame_abandon clock 1 runId "timeout" .timedOut
          ("Run exceeded maximum duration of " ++ toString run.maxDurationMs ++ "ms") run
        generalize m.abandonNow clock 1 runId "timeout" .timedOut
          ("Run exceeded maximum duration of " ++ toString run.maxDurationMs ++ "ms") run = done
          at kept ⊢
        obtain ⟨after, outcome⟩ := done
        cases outcome <;> exact kept

theorem cancel_cases (m : RunManager) (clock : Nat → Int) (runId : RunId)
    (reason : Option String) :
    (m.stateOf runId ≠ some .queued ∧ Frame m (m.cancelNow clock runId reason).1) ∨
      (m.stateOf runId = some .queued ∧
        Frame { m with queue := (m.queue.remove runId).1 } (m.cancelNow clock runId reason).1 ∧
        (m.cancelNow clock runId reason).1.stateOf runId = some .cancelled ∧
        ∃ run, (m.cancelNow clock runId reason).2 = .ok run) := by
  unfold cancelNow stateOf
  cases found : m.getRun runId with
  | none => exact .inl ⟨by simp, .refl m⟩
  | some run =>
      by_cases waiting : run.state = .queued
      · right
        have live : ¬isTerminalState run.state = true := by
          rw [waiting]
          decide
        simp only [if_neg live, if_pos waiting]
        refine ⟨by simp [waiting], frame_abandon _ _ _ _ _ _ _ _, ?_⟩
        rw [abandonNow_of_valid (m := { m with queue := (m.queue.remove runId).1 }) found
          (by rw [waiting]; rfl)]
        refine ⟨?_, _, rfl⟩
        simp [moved, getRun, InMemoryRunRepository.getById, transitionUpdates]
      · left
        refine ⟨by simpa using waiting, ?_⟩
        by_cases terminal : isTerminalState run.state = true
        · simp only [if_pos terminal]
          exact .refl m
        · simp only [if_neg terminal, if_neg waiting]
          exact frame_abandon _ _ _ _ _ _ _ _

/-- `acquireNextRun` answers with nothing and changes nothing, or it leases the head of the
queue; a head that is not stored would be lost. -/
theorem acquire_cases (m : RunManager) (random : String) (clock : Nat → Int) (userId : UserId) :
    m.acquireNow random clock userId = (m, .ok none) ∨
      ∃ nextRunId leaseManager lease,
        (m.queue.getUserRuns userId).head? = some nextRunId ∧
        m.leaseManager.acquire (clock 1) random userId nextRunId m.config.leaseTtlMs =
          (leaseManager, some lease) ∧
        ((m.getRun nextRunId = none ∧
          m.acquireNow random clock userId =
            ({ m with leaseManager, queue := (m.queue.dequeue userId).1 },
              .error (.runNotFound nextRunId))) ∨
        ∃ run, m.getRun nextRunId = some run ∧
          m.acquireNow random clock userId =
            ({ m with
                leaseManager
                queue := (m.queue.dequeue userId).1
                repo := ⟨m.repo.runs.set nextRunId (leasedUpdates (clock 3) lease run)⟩ },
              .ok (some (leasedUpdates (clock 3) lease run)))) := by
  unfold acquireNow
  rw [InMemoryRunQueue.peek_eq_head]
  cases front : (m.queue.getUserRuns userId).head? with
  | none => exact .inl rfl
  | some nextRunId =>
      by_cases unnamed : nextRunId = ""
      · exact .inl (by simp only [if_pos unnamed])
      · simp only [if_neg unnamed]
        rcases acquired : m.leaseManager.acquire (clock 1) random userId nextRunId
          m.config.leaseTtlMs with ⟨leaseManager, lease⟩
        cases lease with
        | none =>
            left
            rcases m.leaseManager.acquire_cases (clock 1) random userId nextRunId
              m.config.leaseTtlMs with ⟨held, -, -, refused⟩ | ⟨-, after, granted, -⟩
            · rw [acquired] at refused
              cases refused
              rfl
            · rw [acquired] at granted
              cases granted
        | some lease =>
            refine .inr ⟨nextRunId, leaseManager, lease, rfl, acquired, ?_⟩
            cases found : m.getRun nextRunId with
            | none =>
                refine .inl ⟨rfl, ?_⟩
                simp only [getRun] at found
                simp only [getRun, found]
            | some run =>
                refine .inr ⟨run, rfl, ?_⟩
                simp only [getRun] at found
                simp only [getRun, found]

end RunManager

theorem Operation.expire_eq_some {m m' : RunManager} {now : Int} {runId owner : RunId}
    (armed : m.timeoutManager.Armed) (expired : expire m now runId = some (m', owner)) :
    owner = runId ∧ m' = { m with timeoutManager := (m.timeoutManager.clear runId).1 } := by
  unfold expire at expired
  split at expired
  · cases expired
  · rename_i handle found
    split at expired
    · cases expired
    · rename_i id timeoutManager fired
      cases expired
      obtain ⟨rfl, rfl⟩ := armed.fire found fired
      exact ⟨rfl, rfl⟩

theorem Call.now_eq {done : RunManager × Settlement Run} {m' : RunManager}
    {outcome : Settlement (Option Run)} (ran : done.map id (.map some) = (m', outcome)) :
    done.1 = m' ∧ done.2.map some = outcome := by
  obtain ⟨after, result⟩ := done
  exact Prod.mk.inj ran

/-- An operation is the closed form of its call, or the timeout of the run whose timer fired. -/
theorem Operation.perform_cases {m m' : RunManager} {op : Operation}
    {outcome : Settlement (Option Run)} (done : op.perform m = some (m', outcome)) :
    (∃ request, op.action = .call request ∧
        Call.now m op.random op.clock request = (m', outcome)) ∨
      ∃ runId owner expired, op.action = .fire runId ∧
        expire m (op.clock 0) runId = some (expired, owner) ∧
        expired.timeoutNow op.clock owner = (m', outcome) := by
  unfold perform at done
  split at done
  · rename_i request called
    rw [Call.perform_eq, Option.some.injEq] at done
    exact .inl ⟨request, called, done⟩
  · rename_i runId fires
    split at done
    · cases done
    · rename_i expired owner due
      rw [timeout_parts, Option.some.injEq] at done
      exact .inr ⟨runId, owner, expired, fires, due, done⟩

theorem RunManager.armed_transition {m : RunManager} (armed : m.timeoutManager.Armed) (now : Int)
    (runId : RunId) (newState : RunState) (metadata : TransitionMetadata) :
    (m.transitionNow now runId newState metadata).1.timeoutManager.Armed := by
  unfold transitionNow
  split
  · exact armed
  · split
    · unfold moved
      dsimp only
      split
      · exact armed.clear runId
      · exact armed
    · exact armed

theorem RunManager.armed_abandon {m : RunManager} (armed : m.timeoutManager.Armed)
    (clock : Nat → Int) (part : Nat) (runId : RunId) (reason : String) (newState : RunState)
    (text : String) (run : Run) :
    (m.abandonNow clock part runId reason newState text run).1.timeoutManager.Armed := by
  apply armed_transition
  simpa [signalled] using armed

theorem RunManager.armed_start {m : RunManager} (armed : m.timeoutManager.Armed)
    (clock : Nat → Int) (runId : RunId) : (m.startNow clock runId).1.timeoutManager.Armed := by
  have moved := armed_transition armed (clock 1) runId .running ⟨none, none⟩
  unfold startNow
  generalize m.transitionNow (clock 1) runId .running ⟨none, none⟩ = done at moved ⊢
  obtain ⟨after, outcome⟩ := done
  cases outcome with
  | error cause => exact moved
  | ok run => exact moved.schedule _ _ _ _

theorem RunManager.armed_end {m : RunManager} (armed : m.timeoutManager.Armed) (clock : Nat → Int)
    (runId : RunId) (newState : RunState) (metadata : TransitionMetadata) :
    (m.endNow clock runId newState metadata).1.timeoutManager.Armed := by
  unfold endNow
  split
  · exact armed
  · apply armed_transition
    simpa [forgotten] using armed

theorem Operation.frame_expire {m expired : RunManager} {now : Int} {runId owner : RunId}
    (due : expire m now runId = some (expired, owner)) : RunManager.Frame m expired := by
  unfold expire at due
  split at due
  · cases due
  · split at due
    · cases due
    · cases due
      exact ⟨rfl, rfl, fun _ => rfl⟩

end Minerva
