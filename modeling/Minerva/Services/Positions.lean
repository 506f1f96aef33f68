import Minerva.Library.JsText
import Minerva.Services.Fifo

/-! The queue position that a QUEUED run carries and that the status API reports, against the place
of the run in its owner's queue. `createRun` writes it once; nothing writes it again when another
run leaves the queue. -/

namespace Minerva

namespace RunsController

/-- `GET /runs/:runId`, at the instant `now`. -/
def toRunResponse (now : Int) (run : Run) : Json :=
  let durationMs :=
    match run.startedAt with
    | none => 0
    | some startedAt => run.completedAt.getD now - startedAt
  .obj [("runId", .str run.id),
    ("tenantId", .str run.owner.tenantId),
    ("subjectId", .str run.owner.subjectId),
    ("state", .str run.state.value),
    ("createdAt", .str (toISOString run.createdAt)),
    ("startedAt", orNull (run.startedAt.map (fun time => .str (toISOString time)))),
    ("completedAt", orNull (run.completedAt.map (fun time => .str (toISOString time)))),
    ("queuePosition", orNull (run.queuePosition.map (fun position => .num position))),
    ("error", orNull (run.error.map .str)),
    ("durationMs", .num durationMs)]
where
  orNull (value : Option Json) : Json := value.getD .null

theorem toRunResponse_queuePosition (now : Int) (run : Run) :
    (toRunResponse now run).member "queuePosition" =
      some (toRunResponse.orNull (run.queuePosition.map (fun position => .num position))) := rfl

end RunsController

namespace RunManager

def waitingRun (m : RunManager) (runId : RunId) : Option Run :=
  (m.getRun runId).filter (fun run => run.state = .queued)

/-- Every QUEUED run carries its position in the queue, and the status API reports it. -/
def PositionsReal (m : RunManager) : Prop :=
  ∀ runId run, m.getRun runId = some run → run.state = .queued →
    run.queuePosition = m.queue.getPosition runId ∧
      ∀ now, (RunsController.toRunResponse now run).member "queuePosition" =
        some (RunsController.toRunResponse.orNull
          ((m.queue.getPosition runId).map (fun position => .num position)))

/-- No other run of the owner stands behind a run that the operation takes off the queue, and a
run that it creates has an owner with a key. -/
def KeepsPositions (m : RunManager) (op : Operation) : Prop :=
  match op.action with
  | .call (.createRun random input) => (newRun m.config (op.clock 0) random input).userId ≠ ""
  | .call (.acquireNextRun userId) =>
    -- refused while the owner's lease is active
    (m.leaseManager.isActive (op.clock 1) userId).2 = true ∨
      (m.queue.getUserRuns userId).length ≤ 1
  | .call (.cancelRun runId _) =>
    ∀ run ∈ m.waitingRun runId, (m.queue.getUserRuns run.userId).getLast? = some runId
  | _ => True

instance (m : RunManager) : (op : Operation) → Decidable (m.KeepsPositions op)
  | ⟨.call (.createRun _ _), _, _⟩ => inferInstanceAs (Decidable (_ ≠ _))
  | ⟨.call (.acquireNextRun _), _, _⟩ => inferInstanceAs (Decidable (_ ∨ _))
  | ⟨.call (.cancelRun runId _), _, _⟩ => inferInstanceAs (Decidable (∀ run ∈ m.waitingRun runId, _))
  | ⟨.call (.startRun _), _, _⟩ => instDecidableTrue
  | ⟨.call (.completeRun _ _), _, _⟩ => instDecidableTrue
  | ⟨.call (.failRun _ _), _, _⟩ => instDecidableTrue
  | ⟨.fire _, _, _⟩ => instDecidableTrue

variable {m m' : RunManager} {runId : RunId} {run : Run}

theorem waitingRun_eq_some :
    m.waitingRun runId = some run ↔ m.getRun runId = some run ∧ run.state = .queued := by
  simp [waitingRun, Option.filter_eq_some_iff]

theorem waitingRun_of_missing (missing : m.getRun runId = none) : m.waitingRun runId = none := by
  simp [waitingRun, missing]

theorem waitingRun_of_left (found : m.getRun runId = some run) (left : run.state ≠ .queued) :
    m.waitingRun runId = none := by
  simp [waitingRun, found, left, Option.filter]

theorem stateOf_eq_queued :
    m.stateOf runId = some .queued ↔ ∃ run, m.waitingRun runId = some run := by
  simp [waitingRun_eq_some, stateOf]

theorem waitingRun_congr (same : m'.repo = m.repo) : m'.waitingRun = m.waitingRun := by
  funext runId
  simp only [waitingRun, getRun, same]

theorem waitingRun_set (m : RunManager) (key : RunId) (run : Run) (id : RunId) :
    waitingRun { m with repo := ⟨m.repo.runs.set key run⟩ } id =
      if id = key then if run.state = .queued then some run else none else m.waitingRun id := by
  simp only [waitingRun, getRun_set]
  by_cases here : id = key
  · simp [here, Option.filter]
  · simp [here]

theorem positionsReal_iff :
    m.PositionsReal ↔
      ∀ runId run, m.waitingRun runId = some run → run.queuePosition = m.queue.getPosition runId := by
  constructor
  · intro real runId run waits
    obtain ⟨found, queued⟩ := waitingRun_eq_some.mp waits
    exact (real runId run found queued).1
  · intro real runId run found queued
    have same := real runId run (waitingRun_eq_some.mpr ⟨found, queued⟩)
    refine ⟨same, fun now => ?_⟩
    rw [RunsController.toRunResponse_queuePosition, same]

theorem waitingRun_transition (m : RunManager) (now : Int) (runId : RunId) (newState : RunState)
    (metadata : TransitionMetadata) (id : RunId) :
    (m.transitionNow now runId newState metadata).1.waitingRun id =
      if id = runId ∧ isValidStateTransition .queued newState = true then none
      else m.waitingRun id := by
  cases found : m.getRun runId with
  | none =>
      have same : (m.transitionNow now runId newState metadata).1 = m := by
        simp only [transitionNow, found]
      rw [same]
      split
      · rename_i leaves
        rw [leaves.1]
        exact waitingRun_of_missing found
      · rfl
  | some run =>
      by_cases valid : isValidStateTransition run.state newState = true
      · have away : newState ≠ .queued := by
          intro back
          rw [back, never_back_to_queued] at valid
          cases valid
        have after : (m.transitionNow now runId newState metadata).1.waitingRun id =
            if id = runId then none else m.waitingRun id := by
          rw [transitionNow_of_valid found valid]
          calc (m.moved now runId newState metadata run).waitingRun id
            _ = waitingRun { m with repo := ⟨m.repo.runs.set runId
                  (transitionUpdates run newState now metadata run)⟩ } id :=
                congrFun (waitingRun_congr rfl) id
            _ = if id = runId then if newState = .queued then _ else none else m.waitingRun id :=
                waitingRun_set m runId _ id
            _ = if id = runId then none else m.waitingRun id := by rw [if_neg away]
        rw [after]
        by_cases mine : id = runId
        · by_cases leaves : isValidStateTransition .queued newState = true
          · simp [mine, leaves]
          · have other : run.state ≠ .queued := by
              intro queued
              rw [queued] at valid
              exact leaves valid
            rw [if_pos mine, if_neg (fun both => leaves both.2), mine]
            exact (waitingRun_of_left found other).symm
        · simp [mine]
      · have same : (m.transitionNow now runId newState metadata).1 = m := by
          simp only [transitionNow, found, if_neg valid]
        rw [same]
        split
        · rename_i leaves
          obtain ⟨rfl, edge⟩ := leaves
          have other : run.state ≠ .queued := by
            intro queued
            rw [queued] at valid
            exact valid edge
          exact waitingRun_of_left found other
        · rfl

theorem waitingRun_released (m : RunManager) (run : Run) :
    (m.released run).waitingRun = m.waitingRun := by
  unfold released
  split <;> rfl

theorem waitingRun_transition_kept (m : RunManager) (now : Int) (runId : RunId)
    (newState : RunState) (metadata : TransitionMetadata)
    (refused : isValidStateTransition .queued newState = false) :
    (m.transitionNow now runId newState metadata).1.waitingRun = m.waitingRun := by
  funext id
  rw [waitingRun_transition, refused]
  simp

theorem waitingRun_start (m : RunManager) (clock : Nat → Int) (runId : RunId) :
    (m.startNow clock runId).1.waitingRun = m.waitingRun := by
  have moved := m.waitingRun_transition_kept (clock 1) runId .running ⟨none, none⟩ rfl
  unfold startNow
  generalize m.transitionNow (clock 1) runId .running ⟨none, none⟩ = done at moved ⊢
  obtain ⟨after, outcome⟩ := done
  cases outcome <;> exact moved

theorem waitingRun_end (m : RunManager) (clock : Nat → Int) (runId : RunId) {newState : RunState}
    (metadata : TransitionMetadata) (refused : isValidStateTransition .queued newState = false) :
    (m.endNow clock runId newState metadata).1.waitingRun = m.waitingRun := by
  unfold endNow
  cases m.getRun runId with
  | none => rfl
  | some run =>
      calc _ = ((m.released run).forgotten runId).waitingRun :=
            waitingRun_transition_kept _ _ _ _ _ refused
        _ = (m.released run).waitingRun := rfl
        _ = m.waitingRun := m.waitingRun_released run

theorem waitingRun_abandon (m : RunManager) (clock : Nat → Int) (part : Nat) (runId : RunId)
    (reason : String) (newState : RunState) (text : String) (run : Run) (id : RunId) :
    (m.abandonNow clock part runId reason newState text run).1.waitingRun id =
      if id = runId ∧ isValidStateTransition .queued newState = true then none
      else m.waitingRun id := by
  have before : ((m.released run).signalled runId reason).waitingRun = m.waitingRun :=
    m.waitingRun_released run
  unfold abandonNow
  rw [waitingRun_transition, before]

theorem waitingRun_timeout (m : RunManager) (clock : Nat → Int) (runId : RunId) :
    (m.timeoutNow clock runId).1.waitingRun = m.waitingRun := by
  cases found : m.getRun runId with
  | none => simp only [timeoutNow, found]
  | some run =>
      by_cases terminal : isTerminalState run.state = true
      · simp only [timeoutNow, found, if_pos terminal]
      · rw [timeoutNow_live found terminal]
        funext id
        have refused : isValidStateTransition .queued .timedOut = false := rfl
        rw [waitingRun_abandon, refused]
        simp

theorem waitingRun_cancel (m : RunManager) (clock : Nat → Int) (runId : RunId)
    (reason : Option String) (id : RunId) :
    (m.cancelNow clock runId reason).1.waitingRun id =
      if id = runId then none else m.waitingRun id := by
  have edge : isValidStateTransition .queued .cancelled = true := rfl
  have idle (away : m.waitingRun runId = none) :
      m.waitingRun id = if id = runId then none else m.waitingRun id := by
    by_cases mine : id = runId
    · rw [if_pos mine, mine, away]
    · rw [if_neg mine]
  cases found : m.getRun runId with
  | none =>
      simp only [cancelNow, found]
      exact idle (waitingRun_of_missing found)
  | some run =>
      by_cases terminal : isTerminalState run.state = true
      · simp only [cancelNow, found, if_pos terminal]
        apply idle (waitingRun_of_left found _)
        intro queued
        rw [queued] at terminal
        cases terminal
      · by_cases queued : run.state = .queued
        · simp only [cancelNow, found, if_neg terminal, if_pos queued]
          rw [waitingRun_abandon, edge]
          simp only [and_true]
          rfl
        · simp only [cancelNow, found, if_neg terminal, if_neg queued]
          rw [waitingRun_abandon, edge]
          simp only [and_true]

end RunManager

theorem Operation.waitingRun_expire {m expired : RunManager} {now : Int} {runId owner : RunId}
    (due : expire m now runId = some (expired, owner)) : expired.waitingRun = m.waitingRun := by
  unfold expire at due
  split at due
  · cases due
  · split at due
    · cases due
    · cases due
      rfl

inductive QueueStep (m : RunManager) (op : Operation) (m' : RunManager) : Prop
  | kept (queue : m'.queue = m.queue) (runs : m'.waitingRun = m.waitingRun)
      (keeps : m.KeepsPositions op)
  | created (run : Run) (named : run.id ≠ "") (fresh : m.waitingRun run.id = none)
      (position : run.queuePosition = some (m.queue.enqueue run.id run.userId).2)
      (queue : m'.queue = (m.queue.enqueue run.id run.userId).1)
      (runs : ∀ id, m'.waitingRun id = if id = run.id then some run else m.waitingRun id)
      (keeps : m.KeepsPositions op ↔ run.userId ≠ "")
  | leased (userId : UserId) (runId : RunId)
      (front : (m.queue.getUserRuns userId).head? = some runId)
      (queue : m'.queue = (m.queue.dequeue userId).1)
      (runs : ∀ id, m'.waitingRun id = if id = runId then none else m.waitingRun id)
      (keeps : m.KeepsPositions op ↔ (m.queue.getUserRuns userId).length ≤ 1)
  | withdrawn (runId : RunId) (run : Run) (waits : m.waitingRun runId = some run)
      (queue : m'.queue = (m.queue.remove runId).1)
      (runs : ∀ id, m'.waitingRun id = if id = runId then none else m.waitingRun id)
      (keeps : m.KeepsPositions op ↔ (m.queue.getUserRuns run.userId).getLast? = some runId)

/-- Every QUEUED run stands in its owner's queue at the position that it carries, and nobody else
stands in a queue. -/
structure Placed (m : RunManager) : Prop where
  indexed : m.queue.Indexed
  unnamed : m.waitingRun "" = none
  lined : ∀ userId runId, runId ∈ m.queue.getUserRuns userId →
    userId ≠ "" ∧ ∃ run, m.waitingRun runId = some run
  placed : ∀ runId run, m.waitingRun runId = some run → ∃ position,
    run.queuePosition = some position ∧ (m.queue.getUserRuns run.userId)[position]? = some runId

namespace Placed

variable {m m' : RunManager} {op : Operation} {runId : RunId} {userId : UserId} {run : Run}

theorem init (config : RunManagerConfig) : Placed (.init config) where
  indexed := .empty
  unnamed := rfl
  lined := by
    intro userId runId member
    cases member
  placed := by
    intro runId run waits
    cases waits

theorem of_index (placed : Placed m) {position : Nat}
    (here : (m.queue.getUserRuns userId)[position]? = some runId) :
    ∃ run, m.waitingRun runId = some run ∧ run.userId = userId ∧
      run.queuePosition = some position := by
  have member := List.mem_of_getElem? here
  obtain ⟨_, run, waits⟩ := placed.lined userId runId member
  obtain ⟨index, carries, there⟩ := placed.placed runId run waits
  have user := placed.indexed.same_user (List.mem_of_getElem? there) member
  refine ⟨run, waits, user, ?_⟩
  have distinct := placed.indexed.distinct userId
  obtain ⟨inside, _⟩ := List.getElem?_eq_some_iff.mp here
  have same := (List.getElem?_inj inside distinct).mp (here.trans (user ▸ there).symm)
  rw [carries, same]

theorem real (placed : Placed m) : m.PositionsReal := by
  apply RunManager.positionsReal_iff.mpr
  intro runId run waits
  obtain ⟨position, carries, here⟩ := placed.placed runId run waits
  have named := (placed.lined _ _ (List.mem_of_getElem? here)).1
  rw [carries, eq_comm]
  exact placed.indexed.getPosition_eq_some.mpr ⟨run.userId, named, here⟩

theorem named_of_mem (placed : Placed m) (member : runId ∈ m.queue.getUserRuns userId) :
    runId ≠ "" := by
  rintro rfl
  obtain ⟨_, run, waits⟩ := placed.lined userId "" member
  rw [placed.unnamed] at waits
  cases waits

theorem keeps_of_nothing (placed : Placed m) {random : String} {clock : Nat → Int}
    (nothing : m.acquireNow random clock userId = (m, .ok none)) :
    (m.leaseManager.isActive (clock 1) userId).2 = true ∨
      (m.queue.getUserRuns userId).length ≤ 1 := by
  cases line : m.queue.getUserRuns userId with
  | nil => exact .inr (Nat.zero_le 1)
  | cons head rest =>
      left
      have member : head ∈ m.queue.getUserRuns userId := by
        rw [line]
        exact List.mem_cons_self
      have named := placed.named_of_mem member
      have front : m.queue.peek userId = some head := by
        rw [m.queue.peek_eq_head, line]
        rfl
      rcases m.leaseManager.acquire_cases (clock 1) random userId head m.config.leaseTtlMs with
        ⟨held, found, live, _⟩ | ⟨_, after, granted, _⟩
      · have active : ¬held.expiresAt ≤ clock 1 := by omega
        simp [InMemoryLeaseManager.isActive, found, active]
      · unfold RunManager.acquireNow at nothing
        rw [front] at nothing
        simp only [if_neg named, granted] at nothing
        split at nothing
        · cases (Prod.mk.inj nothing).2
        · cases (Prod.mk.inj nothing).2

theorem acquire_step (placed : Placed m) (called : op.action = .call (.acquireNextRun userId))
    {outcome : Settlement (Option Run)}
    (ran : m.acquireNow op.random op.clock userId = (m', outcome)) : QueueStep m op m' := by
  have condition : m.KeepsPositions op ↔
      (m.leaseManager.isActive (op.clock 1) userId).2 = true ∨
        (m.queue.getUserRuns userId).length ≤ 1 := by
    simp only [RunManager.KeepsPositions, called]
  rcases m.acquire_cases op.random op.clock userId with
    nothing | ⟨nextRunId, leaseManager, lease, front, acquired, ⟨missing, _⟩ | ⟨run, _, took⟩⟩
  · have keeps := condition.mpr (placed.keeps_of_nothing nothing)
    rw [nothing] at ran
    rw [← (Prod.mk.inj ran).1]
    exact .kept rfl rfl keeps
  · -- who stands in a queue is stored
    obtain ⟨_, run, waits⟩ := placed.lined userId nextRunId (List.mem_of_mem_head? front)
    rw [RunManager.waitingRun_of_missing missing] at waits
    cases waits
  · have inactive := (InMemoryLeaseManager.inactive_of_acquire (congrArg Prod.snd acquired)).1
    rw [took] at ran
    rw [← (Prod.mk.inj ran).1]
    refine .leased userId nextRunId front rfl ?_ ?_
    · intro id
      have stored := m.waitingRun_set nextRunId (RunManager.leasedUpdates (op.clock 3) lease run) id
      have away : (RunManager.leasedUpdates (op.clock 3) lease run).state ≠ .queued := by
        intro same
        cases same
      rwa [if_neg away] at stored
    · rw [condition, inactive]
      simp

theorem cancel_step {reason : Option String}
    (called : op.action = .call (.cancelRun runId reason))
    (after : (m.cancelNow op.clock runId reason).1 = m') : QueueStep m op m' := by
  have condition : m.KeepsPositions op ↔
      ∀ run ∈ m.waitingRun runId, (m.queue.getUserRuns run.userId).getLast? = some runId := by
    simp only [RunManager.KeepsPositions, called]
  have runs := m.waitingRun_cancel op.clock runId reason
  rcases m.cancel_cases op.clock runId reason with ⟨away, frame⟩ | ⟨queued, frame, _⟩
  · have idle : m.waitingRun runId = none := by
      cases waits : m.waitingRun runId with
      | none => rfl
      | some run => exact absurd (RunManager.stateOf_eq_queued.mpr ⟨run, waits⟩) away
    rw [after] at runs frame
    refine .kept frame.queue ?_ (condition.mpr (by simp [idle]))
    funext id
    rw [runs]
    split
    · rename_i mine
      rw [mine, idle]
    · rfl
  · obtain ⟨run, waits⟩ := RunManager.stateOf_eq_queued.mp queued
    rw [after] at runs frame
    refine .withdrawn runId run waits frame.queue runs ?_
    rw [condition, waits]
    simp

theorem queueStep (placed : Placed m) (fresh : ∀ runId ∈ op.created, m.stateOf runId = none)
    {outcome : Settlement (Option Run)} (done : op.perform m = some (m', outcome)) :
    QueueStep m op m' := by
  rcases Operation.perform_cases done with ⟨request, called, ran⟩ |
    ⟨runId, owner, expired, fires, due, ran⟩
  · have framed (method : RunManager × Settlement Run)
        (ended : method.map id (.map some) = (m', outcome)) (frame : RunManager.Frame m method.1)
        (runs : method.1.waitingRun = m.waitingRun) (keeps : m.KeepsPositions op) :
        QueueStep m op m' := by
      have after := (Call.now_eq ended).1
      rw [after] at frame runs
      exact .kept frame.queue runs keeps
    cases request with
    | createRun random input =>
        rw [Call.now, RunManager.createNow_eq] at ran
        rw [← (Prod.mk.inj ran).1]
        have absent := fresh (RunManager.newRunId (op.clock 0) random)
          (by simp [Operation.created, called])
        refine .created (m.createdRun (op.clock 0) random input) (RunManager.newRunId_ne _ _)
          (RunManager.waitingRun_of_missing (Option.map_eq_none_iff.mp absent)) rfl rfl ?_ ?_
        · intro id
          exact m.waitingRun_set _ _ id
        · simp only [RunManager.KeepsPositions, called]
          rfl
    | acquireNextRun userId => exact placed.acquire_step called ran
    | startRun runId =>
        exact framed _ ran (m.frame_start _ _) (m.waitingRun_start _ _)
          (by simp only [RunManager.KeepsPositions, called])
    | cancelRun runId reason => exact cancel_step called (Call.now_eq ran).1
    | completeRun runId finalMessages =>
        exact framed _ ran (m.frame_end _ _ _ _) (m.waitingRun_end _ _ _ rfl)
          (by simp only [RunManager.KeepsPositions, called])
    | failRun runId error =>
        exact framed _ ran (m.frame_end _ _ _ _) (m.waitingRun_end _ _ _ rfl)
          (by simp only [RunManager.KeepsPositions, called])
  · have frame := (Operation.frame_expire due).trans (expired.frame_timeout op.clock owner)
    have runs := (expired.waitingRun_timeout op.clock owner).trans (Operation.waitingRun_expire due)
    rw [ran] at frame runs
    exact .kept frame.queue runs (by simp only [RunManager.KeepsPositions, fires])

theorem getUserRuns_withdraw (placed : Placed m) {position : Nat}
    (here : (m.queue.getUserRuns userId)[position]? = some runId) (user : UserId) :
    (m.queue.remove runId).1.getUserRuns user =
      if user = userId then (m.queue.getUserRuns userId).eraseIdx position
      else m.queue.getUserRuns user := by
  have member := List.mem_of_getElem? here
  have named := (placed.lined userId runId member).1
  have known := placed.indexed.indexed userId runId member
  have index := (InMemoryRunQueue.idxOf?_eq_some_of_nodup (placed.indexed.distinct userId)).mpr here
  rw [InMemoryRunQueue.getUserRuns_remove, known]
  by_cases mine : user = userId
  · subst mine
    rw [if_pos ⟨rfl, named⟩, if_pos rfl, List.erase_eq_eraseIdx, index]
  · rw [if_neg mine, if_neg (fun both => mine (Option.some.inj both.1).symm)]

theorem absent_of_idle (placed : Placed m) (idle : m.waitingRun runId = none) (userId : UserId) :
    runId ∉ m.queue.getUserRuns userId := by
  intro member
  obtain ⟨_, run, waits⟩ := placed.lined userId runId member
  rw [idle] at waits
  cases waits

theorem created (placed : Placed m) (named : run.id ≠ "") (fresh : m.waitingRun run.id = none)
    (position : run.queuePosition = some (m.queue.enqueue run.id run.userId).2)
    (queue : m'.queue = (m.queue.enqueue run.id run.userId).1)
    (runs : ∀ id, m'.waitingRun id = if id = run.id then some run else m.waitingRun id)
    (keyed : run.userId ≠ "") : Placed m' := by
  constructor
  · rw [queue]
    exact placed.indexed.enqueue run.id run.userId (placed.absent_of_idle fresh)
  · rw [runs, if_neg named.symm]
    exact placed.unnamed
  · intro userId runId member
    rw [queue, InMemoryRunQueue.mem_enqueue] at member
    rw [runs]
    rcases member with earlier | ⟨rfl, rfl⟩
    · obtain ⟨truthy, waiting, waits⟩ := placed.lined userId runId earlier
      refine ⟨truthy, ?_⟩
      split
      · exact ⟨run, rfl⟩
      · exact ⟨waiting, waits⟩
    · rw [if_pos rfl]
      exact ⟨keyed, run, rfl⟩
  · intro runId other waits
    rw [runs] at waits
    split at waits
    · rename_i mine
      cases waits
      refine ⟨_, position, ?_⟩
      rw [queue, InMemoryRunQueue.getUserRuns_enqueue, if_pos rfl, m.queue.enqueue_position, mine]
      simp
    · obtain ⟨place, carries, here⟩ := placed.placed runId other waits
      refine ⟨place, carries, ?_⟩
      rw [queue, InMemoryRunQueue.getUserRuns_enqueue]
      split
      · rename_i same
        rw [same] at here
        obtain ⟨inside, _⟩ := List.getElem?_eq_some_iff.mp here
        rwa [List.getElem?_append_left inside]
      · exact here

theorem left (placed : Placed m) (runId : RunId) (indexed : m'.queue.Indexed)
    (runs : ∀ id, m'.waitingRun id = if id = runId then none else m.waitingRun id)
    (fewer : ∀ user id, id ∈ m'.queue.getUserRuns user → id ≠ runId ∧ id ∈ m.queue.getUserRuns user)
    (stays : ∀ user (position : Nat) id, id ≠ runId →
      (m.queue.getUserRuns user)[position]? = some id →
      (m'.queue.getUserRuns user)[position]? = some id) : Placed m' := by
  constructor
  · exact indexed
  · rw [runs, placed.unnamed, ite_self]
  · intro user id member
    obtain ⟨other, earlier⟩ := fewer user id member
    rw [runs, if_neg other]
    exact placed.lined user id earlier
  · intro id run waits
    rw [runs] at waits
    split at waits
    · cases waits
    · rename_i other
      obtain ⟨position, carries, here⟩ := placed.placed id run waits
      exact ⟨position, carries, stays run.userId position id other here⟩

theorem leased (placed : Placed m) (front : (m.queue.getUserRuns userId).head? = some runId)
    (queue : m'.queue = (m.queue.dequeue userId).1)
    (runs : ∀ id, m'.waitingRun id = if id = runId then none else m.waitingRun id)
    (only : (m.queue.getUserRuns userId).length ≤ 1) : Placed m' := by
  obtain ⟨rest, line⟩ := List.head?_eq_some_iff.mp front
  have none_behind : rest = [] := by
    rw [line, List.length_cons] at only
    exact List.eq_nil_of_length_eq_zero (by omega)
  rw [none_behind] at line
  apply placed.left runId
  · rw [queue]
    exact placed.indexed.dequeue userId
  · exact runs
  · intro user id member
    rw [queue] at member
    refine ⟨?_, m.queue.mem_of_mem_dequeue id userId user member⟩
    rintro rfl
    exact placed.indexed.not_mem_dequeue front user member
  · intro user position id other here
    have elsewhere : user ≠ userId := by
      rintro rfl
      have member := List.mem_of_getElem? here
      rw [line] at member
      exact other (List.mem_singleton.mp member)
    rwa [queue, InMemoryRunQueue.getUserRuns_dequeue, if_neg elsewhere]

theorem withdrawn (placed : Placed m) (waits : m.waitingRun runId = some run)
    (queue : m'.queue = (m.queue.remove runId).1)
    (runs : ∀ id, m'.waitingRun id = if id = runId then none else m.waitingRun id)
    (last : (m.queue.getUserRuns run.userId).getLast? = some runId) : Placed m' := by
  obtain ⟨place, _, here⟩ := placed.placed runId run waits
  have named := (placed.lined _ _ (List.mem_of_getElem? here)).1
  have distinct := placed.indexed.distinct run.userId
  apply placed.left runId
  · rw [queue]
    exact placed.indexed.remove runId
  · exact runs
  · intro user id member
    rw [queue] at member
    have earlier := m.queue.mem_of_mem_remove runId id user member
    refine ⟨?_, earlier⟩
    rintro rfl
    exact placed.indexed.not_mem_remove (placed.lined user id earlier).1 member
  · intro user position id other at_
    rw [queue, placed.getUserRuns_withdraw here]
    by_cases mine : user = run.userId
    · subst mine
      rw [if_pos rfl]
      -- the removed run has the last index, so the other one has a smaller index
      rw [List.getLast?_eq_getElem?] at last
      obtain ⟨inside, _⟩ := List.getElem?_eq_some_iff.mp here
      obtain ⟨within, _⟩ := List.getElem?_eq_some_iff.mp at_
      have final := (List.getElem?_inj inside distinct).mp (here.trans last.symm)
      have apart : position ≠ place := by
        rintro rfl
        exact other (Option.some.inj (at_.symm.trans here))
      rwa [List.getElem?_eraseIdx_of_lt (by omega)]
    · rwa [if_neg mine]

theorem step (placed : Placed m) (moved : QueueStep m op m') (keeps : m.KeepsPositions op) :
    Placed m' := by
  cases moved with
  | kept queue runs _ =>
      constructor
      · rw [queue]
        exact placed.indexed
      · rw [runs]
        exact placed.unnamed
      · rw [queue, runs]
        exact placed.lined
      · rw [queue, runs]
        exact placed.placed
  | created run named fresh position queue runs condition =>
      exact placed.created named fresh position queue runs (condition.mp keeps)
  | leased userId runId front queue runs condition =>
      exact placed.leased front queue runs (condition.mp keeps)
  | withdrawn runId run waits queue runs condition =>
      exact placed.withdrawn waits queue runs (condition.mp keeps)

/-- A run that moves up in its queue carries its old position. -/
theorem not_real_of_shift (placed : Placed m) (position : Nat) {gone : RunId}
    (here : (m.queue.getUserRuns userId)[position + 1]? = some runId) (other : runId ≠ gone)
    (indexed : m'.queue.Indexed)
    (runs : ∀ id, m'.waitingRun id = if id = gone then none else m.waitingRun id)
    (there : (m'.queue.getUserRuns userId)[position]? = some runId) : ¬m'.PositionsReal := by
  intro real
  obtain ⟨run, waits, _, carries⟩ := placed.of_index here
  have named := (placed.lined userId runId (List.mem_of_getElem? here)).1
  have still : m'.waitingRun runId = some run := by
    rw [runs, if_neg other, waits]
  have reported := RunManager.positionsReal_iff.mp real runId run still
  rw [carries, indexed.getPosition_eq_some.mpr ⟨userId, named, there⟩] at reported
  have same := Option.some.inj reported
  omega

theorem keeps_of_real (placed : Placed m) (moved : QueueStep m op m') (real : m'.PositionsReal) :
    m.KeepsPositions op := by
  cases moved with
  | kept _ _ keeps => exact keeps
  | created run named fresh position queue runs condition =>
      apply condition.mpr
      have waits : m'.waitingRun run.id = some run := by
        rw [runs, if_pos rfl]
      have reported := RunManager.positionsReal_iff.mp real run.id run waits
      have indexed := placed.indexed.enqueue run.id run.userId (placed.absent_of_idle fresh)
      rw [position, queue, eq_comm, indexed.getPosition_eq_some] at reported
      obtain ⟨userId, keyed, here⟩ := reported
      have mine : run.id ∈ (m.queue.enqueue run.id run.userId).1.getUserRuns run.userId :=
        (m.queue.mem_enqueue _ _ _ _).mpr (.inr ⟨rfl, rfl⟩)
      rwa [indexed.same_user mine (List.mem_of_getElem? here)]
  | leased userId runId front queue runs condition =>
      apply condition.mpr
      by_contra many
      obtain ⟨rest, line⟩ := List.head?_eq_some_iff.mp front
      cases rest with
      | nil =>
          rw [line] at many
          exact many (Nat.le_refl 1)
      | cons second rest =>
          have distinct := placed.indexed.distinct userId
          rw [line] at distinct
          have other : second ≠ runId := by
            intro same
            exact (List.nodup_cons.mp distinct).1 (same ▸ List.mem_cons_self)
          refine placed.not_real_of_shift 0 (by rw [line]; rfl) other ?_ runs ?_ real
          · rw [queue]
            exact placed.indexed.dequeue userId
          · rw [queue, InMemoryRunQueue.getUserRuns_dequeue, if_pos rfl, line]
            rfl
  | withdrawn runId run waits queue runs condition =>
      apply condition.mpr
      by_contra middle
      obtain ⟨place, _, here⟩ := placed.placed runId run waits
      have distinct := placed.indexed.distinct run.userId
      obtain ⟨inside, _⟩ := List.getElem?_eq_some_iff.mp here
      have behind : place + 1 < (m.queue.getUserRuns run.userId).length := by
        by_contra final
        have ends : (m.queue.getUserRuns run.userId).length - 1 = place := by omega
        rw [List.getLast?_eq_getElem?, ends] at middle
        exact middle here
      have next := List.getElem?_eq_getElem behind
      have other : (m.queue.getUserRuns run.userId)[place + 1] ≠ runId := by
        intro same
        have twice := (List.getElem?_inj inside distinct).mp (here.trans (same ▸ next).symm)
        omega
      refine placed.not_real_of_shift place next other ?_ runs ?_ real
      · rw [queue]
        exact placed.indexed.remove runId
      · rw [queue, placed.getUserRuns_withdraw here, if_pos rfl,
          List.getElem?_eraseIdx_of_ge (Nat.le_refl _), next]

end Placed

namespace Session

def visited (s : Session) : List RunManager := s.history.map Entry.before ++ [s.manager]

theorem visited_next {s t : Session} {op : Operation} (moved : s.step op = some t) :
    t.visited = s.visited ++ [t.manager] ∧
      ∃ outcome, op.perform s.manager = some (t.manager, outcome) ∧
        t.history = s.history ++ [⟨op, s.manager, outcome, t.manager⟩] := by
  obtain ⟨⟨manager, outcome⟩, done, rfl⟩ := Option.map_eq_some_iff.mp moved
  exact ⟨by simp [visited], outcome, done, rfl⟩

/-- The stored queue positions are the real ones all along a session exactly if every operation
leaves nobody behind a run that it takes off a queue. -/
theorem positions_are_real_iff (config : RunManagerConfig) (now : Int) (s : Session)
    (reached : Transition.Reach step FreshRun (init config now) s) :
    (∀ m ∈ s.visited, m.PositionsReal) ↔
      ∀ entry ∈ s.history, entry.before.KeepsPositions entry.operation := by
  have both := reached.invariant
    (fun s => ((∀ m ∈ s.visited, m.PositionsReal) ↔
        ∀ entry ∈ s.history, entry.before.KeepsPositions entry.operation) ∧
      ((∀ m ∈ s.visited, m.PositionsReal) → Placed s.manager))
    (by
      have placed := Placed.init config
      refine ⟨?_, fun _ => placed⟩
      simpa [visited, init] using placed.real)
    (by
      rintro s op t fresh ⟨same, ready⟩ moved
      obtain ⟨visited, outcome, done, history⟩ := visited_next moved
      have all (P : RunManager → Prop) : (∀ m ∈ t.visited, P m) ↔
          (∀ m ∈ s.visited, P m) ∧ P t.manager := by
        rw [visited]
        simp [or_imp, forall_and]
      have each : (∀ entry ∈ t.history, entry.before.KeepsPositions entry.operation) ↔
          (∀ entry ∈ s.history, entry.before.KeepsPositions entry.operation) ∧
            s.manager.KeepsPositions op := by
        rw [history]
        simp [or_imp, forall_and]
      rw [all, each]
      constructor
      · rw [same]
        constructor
        · rintro ⟨before, real⟩
          have placed := ready (same.mpr before)
          exact ⟨before, placed.keeps_of_real (placed.queueStep fresh done) real⟩
        · rintro ⟨before, keeps⟩
          have placed := ready (same.mpr before)
          exact ⟨before, (placed.step (placed.queueStep fresh done) keeps).real⟩
      · rintro ⟨before, real⟩
        have placed := ready before
        have moves := placed.queueStep fresh done
        exact placed.step moves (placed.keeps_of_real moves real))
  exact both.1

/-- The last of two queued runs is cancelled, then the first one is leased and completed. -/
theorem last_cancelled_keeps_positions :
    ∃ s : Session, s.history.length = 6 ∧ ∀ m ∈ s.visited, m.PositionsReal := by
  have ran : (Transition.exec (Transition.guarded step FreshRun) (init .default 0)
      [.atZero "" (.createRun "a" ⟨some ⟨"acme", "alice"⟩, none, "pack", "one", none⟩),
        .atZero "" (.createRun "b" ⟨some ⟨"acme", "alice"⟩, none, "pack", "two", none⟩),
        .atZero "" (.cancelRun "run_0_b" none),
        .atZero "t" (.acquireNextRun "acme:alice"),
        .atZero "" (.startRun "run_0_a"),
        .atZero "" (.completeRun "run_0_a" none)]).map
        (fun s => (s.history.length,
          decide (∀ entry ∈ s.history, entry.before.KeepsPositions entry.operation))) =
      some (6, true) := by decide +kernel
  obtain ⟨s, reached, observed⟩ := Transition.reach_of_observed _ _ ran
  obtain ⟨length, keeps⟩ := Prod.mk.inj observed
  exact ⟨s, length, (positions_are_real_iff .default 0 s reached).mpr (of_decide_eq_true keeps)⟩

/-- Of two queued runs the first one is leased: the other one is at the head of the queue and
carries position 1. -/
theorem second_run_keeps_old_position :
    ¬∀ config now s, Transition.Reach step FreshRun (init config now) s →
      s.manager.PositionsReal := by
  intro always
  have ran : (Transition.exec (Transition.guarded step FreshRun) (init .default 0)
      [.atZero "" (.createRun "a" ⟨some ⟨"acme", "alice"⟩, none, "pack", "one", none⟩),
        .atZero "" (.createRun "b" ⟨some ⟨"acme", "alice"⟩, none, "pack", "two", none⟩),
        .atZero "t" (.acquireNextRun "acme:alice")]).map
        (fun s => ((s.manager.waitingRun "run_0_b").map Run.queuePosition,
          s.manager.queue.getPosition "run_0_b")) =
      some (some (some 1), some 0) := by decide +kernel
  obtain ⟨s, reached, observed⟩ := Transition.reach_of_observed _ _ ran
  obtain ⟨stored, position⟩ := Prod.mk.inj observed
  obtain ⟨run, waits, carries⟩ := Option.map_eq_some_iff.mp stored
  have real := RunManager.positionsReal_iff.mp (always .default 0 s reached) "run_0_b" run waits
  rw [carries, position] at real
  cases real

end Session

end Minerva
