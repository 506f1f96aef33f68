import Minerva.Services.QueuedRuns

namespace Minerva

def RunManager.Ended (m : RunManager) (runId : RunId) : Prop :=
  ∃ state, m.stateOf runId = some state ∧ isTerminalState state = true

def RunManager.Left (m : RunManager) (runId : RunId) : Prop :=
  ∃ state, m.stateOf runId = some state ∧ state ≠ .queued

namespace RunManager

theorem Left.getRun {m : RunManager} {runId : RunId} (left : m.Left runId) :
    ∃ run, m.getRun runId = some run ∧ run.state ≠ .queued := by
  obtain ⟨state, stored, started⟩ := left
  obtain ⟨run, found, rfl⟩ := Option.map_eq_some_iff.mp stored
  exact ⟨run, found, started⟩

theorem ended_of_getRun {m : RunManager} {runId : RunId} {run : Run}
    (found : m.getRun runId = some run) (terminal : isTerminalState run.state = true) :
    m.Ended runId := by
  refine ⟨run.state, ?_, terminal⟩
  rw [stateOf, found]
  rfl

theorem Left.read {m : RunManager} {runId : RunId} (left : m.Left runId) :
    ∃ latest, m.getRun runId = some latest ∧
      (isTerminalState latest.state = true → m.Ended runId) := by
  obtain ⟨run, found, -⟩ := left.getRun
  exact ⟨run, found, ended_of_getRun found⟩

end RunManager

def Call.marked : Call → Option (UserId × RunId)
  | .acquireNextRun userId (.updated nextRunId) => some (userId, nextRunId)
  | .acquireNextRun userId (.reloaded nextRunId _) => some (userId, nextRunId)
  | _ => none

namespace Call

theorem left_resume {m : RunManager} (now : Int) (random : String) (call : Call) {runId : RunId}
    (left : m.Left runId) : (call.resume m now random).manager.Left runId := by
  obtain ⟨state, stored, started⟩ := left
  rcases (resume_effect m now random call).stateOf runId with same | ⟨_, newState, -, writes, after⟩
  · exact ⟨state, same.trans stored, started⟩
  · exact ⟨newState, after, write_not_queued writes⟩

theorem ended_resume {m : RunManager} (now : Int) (random : String) (call : Call) {runId : RunId}
    (terminal : ∀ newState, call.write = some (runId, newState) → isTerminalState newState = true)
    (ended : m.Ended runId) : (call.resume m now random).manager.Ended runId := by
  obtain ⟨state, stored, past⟩ := ended
  rcases (resume_effect m now random call).stateOf runId with same | ⟨_, newState, -, writes, after⟩
  · exact ⟨state, same.trans stored, past⟩
  · exact ⟨newState, after, terminal newState writes⟩

theorem took_of_marked {call : Call} {marked : UserId × RunId} (marks : call.marked = some marked) :
    call.took = some marked := by
  unfold Call.marked at marks
  split at marks <;> cases marks <;> rfl

theorem marked_next {m : RunManager} {now : Int} {random : String} {call : Call} {userId : UserId}
    {runId : RunId} (marked : call.marked = some (userId, runId)) :
    (∃ next, pending (call.resume m now random) = some next ∧
        next.marked = some (userId, runId)) ∨
      ∃ run, call = .acquireNextRun userId (.reloaded runId run) := by
  unfold Call.marked at marked
  split at marked <;> cases marked
  · exact .inl ⟨_, rfl, rfl⟩
  · exact .inr ⟨_, rfl⟩

theorem marked_of_write {m : RunManager} (now : Int) (random : String) {call : Call}
    {runId : RunId} {state : RunState} (stored : m.stateOf runId = some state)
    (writes : call.write = some (runId, .leased)) :
    ∃ userId next, pending (call.resume m now random) = some next ∧
      next.marked = some (userId, runId) := by
  rcases write_eq_some writes with ⟨userId, lease, rfl, -⟩ | ⟨run, inside, -⟩
  · obtain ⟨run, found, -⟩ := Option.map_eq_some_iff.mp stored
    have got : m.repo.runs.get runId = some run := found
    refine ⟨userId, .acquireNextRun userId (.updated runId), ?_, rfl⟩
    simp [resume, RunManager.acquireNextRunResume, InMemoryRunRepository.update, got,
      pending_settle]
  · exact absurd rfl (target_not_leased inside)

theorem marked_before {m : RunManager} {now : Int} {random : String} {call next : Call}
    {userId : UserId} {runId : RunId} (goes : pending (call.resume m now random) = some next)
    (marked : next.marked = some (userId, runId)) :
    call.marked = some (userId, runId) ∨
      (call.write = some (runId, .leased) ∧ ∃ state, m.stateOf runId = some state) := by
  cases next <;> simp only [Call.marked, reduceCtorEq] at marked
  obtain ⟨before, rfl, awaits⟩ := pending_acquireNextRun goes
  rcases acquire_await awaits with ⟨id, rfl, -, rfl⟩ | ⟨id, lease, rfl, rfl⟩ |
    ⟨id, lease, stored, rfl, found, rfl⟩ | ⟨id, rfl, rfl⟩
  · cases marked
  · cases marked
  · cases marked
    right
    refine ⟨rfl, stored.state, ?_⟩
    rw [RunManager.stateOf, found]
    rfl
  · cases marked
    exact .inl rfl

theorem acquire_answer {m : RunManager} {now : Int} {random : String} {userId : UserId}
    {pc : AcquirePc} {run : Run}
    (answers : ((Call.acquireNextRun userId pc).resume m now random).progress =
      .resolve (some run)) : ∃ runId, pc = .reloaded runId (some run) := by
  obtain ⟨value, resolves, same⟩ := (settle_resolve _ _ _ _).mp answers
  cases same
  rcases acquire_resolve resolves with ⟨runId, rfl⟩ | ⟨impossible, -⟩
  · exact ⟨runId, rfl⟩
  · cases impossible

end Call

theorem CallStep.left {now : Int} {m m' : RunManager} {p p' : Pending}
    {resumed : Option (Nat × Call)} (step : CallStep now m p resumed m' p') {runId : RunId}
    (left : m.Left runId) : m'.Left runId := by
  cases resumed with
  | none =>
      obtain ⟨state, stored, started⟩ := left
      exact ⟨state, step.keeps_stateOf stored, started⟩
  | some resuming =>
      cases step with
      | resume id call random found => exact Call.left_resume now random call left

def MarkedLeft (m : RunManager) (p : Pending) : Prop :=
  ∀ id call userId runId, p id = some call → call.marked = some (userId, runId) → m.Left runId

theorem CallStep.markedLeft {now : Int} {m m' : RunManager} {p p' : Pending}
    {resumed : Option (Nat × Call)} (step : CallStep now m p resumed m' p')
    (held : MarkedLeft m p) : MarkedLeft m' p' := by
  intro id' call' userId runId found marked
  cases step.origin found with
  | stays _ _ _ found other => exact step.left (held id' call' userId runId found marked)
  | begins request free fresh => cases request <;> cases marked
  | goes before random _ got goes =>
      rcases Call.marked_before goes marked with earlier | ⟨writes, state, stored⟩
      · exact step.left (held id' before userId runId got earlier)
      · have written := Call.resume_writes m now random before runId state .leased writes stored
        exact ⟨.leased, written, by decide⟩
  | fires runId' timeoutManager free => cases marked

/-- The run is stored and no lane and no call can bring it to `acquireNextRun` again. -/
structure Gone (m : RunManager) (p : Pending) (runId : RunId) : Prop where
  stored : ∃ userId, m.userOf runId = some userId
  absent : ∀ userId, runId ∉ m.queue.getUserRuns userId
  created : ∀ id call run, p id = some call → call.creates = some run → run.id ≠ runId
  free : ∀ id call userId, p id = some call → ¬call.Names userId runId

theorem CallStep.gone {now : Int} {m m' : RunManager} {p p' : Pending}
    {resumed : Option (Nat × Call)} (step : CallStep now m p resumed m' p') {runId : RunId}
    (gone : Gone m p runId) : Gone m' p' runId := by
  obtain ⟨user, stored⟩ := gone.stored
  refine ⟨⟨user, step.userOf stored⟩, ?_, ?_, ?_⟩
  · intro userId member
    cases resumed with
    | none =>
        rw [step.keeps_queue] at member
        exact gone.absent userId member
    | some resuming =>
        cases step with
        | resume id call random found =>
            rw [Call.resume_queue] at member
            rcases Call.mem_queueAfter member with earlier | ⟨run, creates, same, -⟩
            · exact gone.absent userId earlier
            · exact gone.created id call run found creates same
  · intro id' call' run found creates
    cases step.origin found with
    | stays _ _ _ found other => exact gone.created id' call' run found creates
    | begins request free fresh =>
        obtain ⟨random, input, rfl, rfl⟩ := Call.creates_start creates
        rintro rfl
        exact RunManager.unused_of_stateOf (fresh random input rfl) stored
    | goes before random _ got goes =>
        rw [Call.next_creates goes] at creates
        cases creates
    | fires runId' timeoutManager free => cases creates
  · intro id' call' userId found names
    cases step.origin found with
    | stays _ _ _ found other => exact gone.free id' call' userId found names
    | begins request free fresh =>
        exact gone.absent userId (List.mem_of_mem_head? (Call.names_start names).2)
    | goes before random _ got goes =>
        exact gone.free id' before userId got (Call.names_next goes names)
    | fires runId' timeoutManager free =>
        rcases names with head | taken
        · cases head
        · cases taken

theorem gone_of_answer {m : RunManager} {p : Pending} (lanes : Lanes m p) (fronts : Fronts m p)
    (one : OneAcquires p) {id : Nat} {userId : UserId} {runId : RunId} {run : Option Run}
    (found : p id = some (.acquireNextRun userId (.reloaded runId run))) :
    Gone m (Function.update p id none) runId := by
  obtain ⟨user, apart⟩ := lanes.named id _ userId runId found (.inr rfl)
  have earlier {id' : Nat} {call : Call}
      (got : Function.update p id none id' = some call) : id' ≠ id ∧ p id' = some call := by
    rw [Function.update_apply] at got
    split at got
    · cases got
    · rename_i different
      exact ⟨different, got⟩
  have mine {other : UserId} (stored : m.userOf runId = some other) : other = userId := by
    rw [user] at stored
    exact (Option.some.inj stored).symm
  refine ⟨⟨userId, user⟩, ?_, ?_, ?_⟩
  · intro other member
    have same := mine (lanes.stored other runId member)
    subst same
    exact fronts.taken id _ other runId found rfl member
  · intro id' call created got creates
    exact apart id' call created (earlier got).2 creates
  · intro id' call other got names
    obtain ⟨different, before⟩ := earlier got
    have same := mine (lanes.named id' call other runId before names).1
    subst same
    exact different (one id' id call _ other before found names.acquires rfl)

end Minerva
