import Minerva.Services.Acquired

namespace Minerva

namespace Call

/-- The run that a call brings closer to RUNNING: one that it puts into a queue, takes out of one
up to the LEASED write, or has found LEASED and starts. -/
def advances : Call → Option RunId
  | .createRun (.persisted run) => some run.id
  | .acquireNextRun _ (.peeked (some nextRunId)) => some nextRunId
  | .acquireNextRun _ (.leased nextRunId (some _)) => some nextRunId
  | .acquireNextRun _ (.dequeued nextRunId _) => some nextRunId
  | .startRun runId (.transition (.loaded (some run))) =>
    if isValidStateTransition run.state .running then some runId else none
  | .startRun runId (.transition .updated) => some runId
  | .startRun runId (.transition (.reloaded _)) => some runId
  | .startRun runId (.started _) => some runId
  | _ => none

variable {m : RunManager} {now : Int} {random : String} {call next : Call} {runId : RunId}

theorem advances_of_creates {run : Run} (creates : call.creates = some run) :
    call.advances = some run.id := by
  unfold Call.creates at creates
  split at creates <;> cases creates
  rfl

theorem heads_of_advances {userId : UserId} {pc : AcquirePc}
    (advances : (Call.acquireNextRun userId pc).advances = some runId) :
    (Call.acquireNextRun userId pc).heads = some (userId, runId) ∨
      ∃ lease, pc = .dequeued runId lease := by
  cases pc with
  | peeked nextRunId =>
      cases nextRunId <;> cases advances
      exact .inl rfl
  | leased nextRunId lease =>
      cases lease <;> cases advances
      exact .inl rfl
  | dequeued nextRunId lease =>
      cases advances
      exact .inr ⟨lease, rfl⟩
  | _ => cases advances

theorem advances_next (goes : pending (call.resume m now random) = some next)
    (advances : next.advances = some runId) : call.advances = some runId := by
  cases next with
  | createRun pc =>
      obtain ⟨before, rfl, awaits⟩ := pending_createRun goes
      rcases create_await awaits with ⟨run, position, rfl, rfl⟩ | ⟨run, position, rfl, rfl⟩
      · cases advances
      · cases advances
  | acquireNextRun userId pc =>
      obtain ⟨before, rfl, awaits⟩ := pending_acquireNextRun goes
      rcases acquire_await awaits with ⟨id, rfl, -, asked⟩ | ⟨id, lease, rfl, rfl⟩ |
        ⟨id, lease, stored, rfl, -, rfl⟩ | ⟨id, rfl, rfl⟩
      · rcases heads_of_advances advances with head | ⟨lease, impossible⟩
        · cases next_heads goes head
          rfl
        · rw [asked] at impossible
          cases impossible
      · exact advances
      · cases advances
      · cases advances
  | startRun id pc =>
      obtain ⟨before, rfl, awaits⟩ := pending_startRun goes
      rcases start_await awaits with ⟨inner, after, rfl, rfl, step⟩ | ⟨run, rfl, rfl⟩
      · rcases transition_await step with ⟨run, stored, rfl, valid, -, rfl⟩ | ⟨stored, rfl, -, rfl⟩
        · cases advances
          exact if_pos valid
        · exact advances
      · exact advances
  | _ => cases advances

theorem advances_start {request : Request}
    (advances : (Call.start m now request).2.advances = some runId) :
    (∃ random input, request = .createRun random input ∧ runId = RunManager.newRunId now random) ∨
      (∃ userId, runId ∈ m.queue.getUserRuns userId) ∨ m.stateOf runId = some .leased := by
  cases request with
  | createRun random input =>
      cases advances
      exact .inl ⟨random, input, rfl, rfl⟩
  | acquireNextRun userId =>
      rcases heads_of_advances advances with head | ⟨lease, impossible⟩
      · have names : (Call.start m now (.acquireNextRun userId)).2.Names userId runId := .inl head
        exact .inr (.inl ⟨userId, List.mem_of_mem_head? (names_start names).2⟩)
      · cases impossible
  | startRun id =>
      right
      right
      simp only [start, RunManager.startRun, RunManager.transitionState] at advances
      cases found : m.repo.getById id with
      | none =>
          rw [found] at advances
          cases advances
      | some run =>
          rw [found] at advances
          simp only [Call.advances] at advances
          split at advances
          · rename_i valid
            cases advances
            rw [RunManager.stateOf, RunManager.getRun, found, ← leased_of_running run.state valid]
            rfl
          · cases advances
  | _ => cases advances

theorem advances_of_write {newState : RunState} (writes : call.write = some (runId, newState)) :
    call.advances = some runId ∨ isTerminalState newState = true := by
  rcases write_target writes with ⟨rfl, userId, taken⟩ | ⟨rfl, pc, rfl⟩ | past
  · rcases write_eq_some writes with ⟨user, lease, rfl, -⟩ | ⟨run, inside, -⟩
    · exact .inl rfl
    · exact absurd rfl (target_not_leased inside)
  · left
    rcases write_eq_some writes with ⟨user, lease, impossible, -⟩ | ⟨run, inside, valid⟩
    · cases impossible
    · cases pc with
      | transition pc =>
          cases inside
          exact if_pos valid
      | started run => cases inside
  · exact .inr past

end Call

structure Rests (m : RunManager) (p : Pending) (runId : RunId) : Prop where
  stored : ∃ userId, m.userOf runId = some userId
  absent : ∀ userId, runId ∉ m.queue.getUserRuns userId
  unleased : m.stateOf runId ≠ some .leased
  idle : ∀ id call, p id = some call → call.advances ≠ some runId

theorem CallStep.rests {now : Int} {m m' : RunManager} {p p' : Pending}
    {resumed : Option (Nat × Call)} (step : CallStep now m p resumed m' p') {runId : RunId}
    (rests : Rests m p runId) : Rests m' p' runId := by
  obtain ⟨user, stored⟩ := rests.stored
  have still : ∃ userId, m'.userOf runId = some userId := ⟨user, step.userOf stored⟩
  have foreign {random : String} (new : m.stateOf (RunManager.newRunId now random) = none) :
      runId ≠ RunManager.newRunId now random := by
    rintro rfl
    exact RunManager.unused_of_stateOf new stored
  refine ⟨still, ?_, ?_, ?_⟩
  · intro userId member
    cases resumed with
    | none =>
        rw [step.keeps_queue] at member
        exact rests.absent userId member
    | some resuming =>
        cases step with
        | resume id call random found =>
            rw [Call.resume_queue] at member
            rcases Call.mem_queueAfter member with earlier | ⟨run, creates, rfl, -⟩
            · exact rests.absent userId earlier
            · exact rests.idle id call found (Call.advances_of_creates creates)
  · intro leased
    cases step with
    | begin id request free fresh =>
        rcases Call.start_getRun m now request runId with same | ⟨random, input, made, new, -⟩
        · rw [RunManager.stateOf, same] at leased
          exact rests.unleased leased
        · exact foreign (fresh random input made) new
    | resume id call random found =>
        rcases (Call.resume_effect m now random call).stateOf runId with same |
          ⟨before, newState, -, writes, after⟩
        · exact rests.unleased (same.symm.trans leased)
        · rw [leased] at after
          cases after
          rcases Call.advances_of_write writes with advances | impossible
          · exact rests.idle id call found advances
          · cases impossible
    | fire id timer free runId' timeoutManager fired => exact rests.unleased leased
    | listen listener signal => exact rests.unleased leased
  · intro id' call' found advances
    cases step.origin found with
    | stays _ _ _ found other => exact rests.idle id' call' found advances
    | begins request free fresh =>
        rcases Call.advances_start advances with ⟨random, input, made, new⟩ | ⟨userId, member⟩ | leased
        · exact foreign (fresh random input made) new
        · exact rests.absent userId member
        · exact rests.unleased leased
    | goes before random _ got goes =>
        exact rests.idle id' before got (Call.advances_next goes advances)
    | fires runId' timeoutManager free => cases advances

/-- A run that has been acquired rests as soon as it is not LEASED and is not being started. -/
theorem Gone.rests {m : RunManager} {p : Pending} {runId : RunId} (gone : Gone m p runId)
    (unleased : m.stateOf runId ≠ some .leased)
    (unstarted : ∀ id pc, p id = some (.startRun runId pc) →
      (Call.startRun runId pc).advances = none) : Rests m p runId := by
  refine ⟨gone.stored, gone.absent, unleased, ?_⟩
  intro id call found advances
  cases call with
  | createRun pc =>
      cases pc with
      | persisted run => exact gone.created id _ run found rfl (Option.some.inj advances)
      | _ => cases advances
  | acquireNextRun userId pc =>
      rcases Call.heads_of_advances advances with head | ⟨lease, rfl⟩
      · exact gone.free id _ userId found (.inl head)
      · exact gone.free id _ userId found (.inr rfl)
  | startRun id' pc =>
      have same : id' = runId := by
        unfold Call.advances at advances
        split at advances <;> simp_all
      subst same
      rw [unstarted id pc found] at advances
      cases advances
  | _ => cases advances

end Minerva
