import Minerva.Services.Pool

namespace Minerva

namespace Call

def leases : Call → Option (UserId × RunId)
  | .acquireNextRun userId (.peeked (some nextRunId)) => some (userId, nextRunId)
  | _ => none

/-- The write that a call is bound to make, as long as it is resumed often enough. -/
def commits : Call → Option (RunId × RunState)
  | .acquireNextRun _ (.leased nextRunId (some _)) => some (nextRunId, .leased)
  | call => call.write

theorem commits_of_write {call : Call} {write : RunId × RunState}
    (writes : call.write = some write) : call.commits = some write := by
  unfold commits
  split
  · cases writes
  · exact writes

theorem write_of_transition {call : Call} {runId : RunId} {newState : RunState} {run : Run}
    (inside : call.transition = some (runId, newState, .loaded (some run)))
    (valid : isValidStateTransition run.state newState = true) :
    call.write = some (runId, newState) := by
  unfold write
  split
  · cases inside
  · rw [inside]
    exact if_pos valid

theorem Effect.field {m m' : RunManager} {now : Int} {random : String} {call : Call}
    (effect : Effect m now random call m') {α : Type} (field : Run → α)
    (positioned : ∀ run position, field { run with queuePosition := position } = field run)
    (leased : ∀ lease run, field (RunManager.leasedUpdates now lease run) = field run)
    (moved : ∀ run newState metadata stored,
      field (RunManager.transitionUpdates run newState now metadata stored) = field stored)
    (runId : RunId) : (m'.getRun runId).map field = (m.getRun runId).map field := by
  have written (id : RunId) (stored after : Run) (found : m.getRun id = some stored)
      (same : field after = field stored) :
      ((m.repo.runs.set id after).get runId).map field = (m.getRun runId).map field := by
    rw [EsMap.get_set]
    split
    · rename_i here
      subst here
      rw [found]
      exact congrArg some same
    · rfl
  cases effect with
  | position run stored position found => exact written _ _ _ found (positioned _ _)
  | leased userId nextRunId lease stored found => exact written _ _ _ found (leased _ _)
  | transition call id newState run stored metadata inside valid found =>
      exact written _ _ _ found (moved _ _ _ _)
  | _ => rfl

theorem Effect.stored {m m' : RunManager} {now : Int} {random : String} {call : Call}
    (effect : Effect m now random call m') (P : RunId → Run → Prop)
    (positioned : ∀ runId run position, P runId run →
      P runId { run with queuePosition := position })
    (leased : ∀ runId lease run, P runId run → P runId (RunManager.leasedUpdates now lease run))
    (moved : ∀ runId run newState metadata stored, P runId stored →
      P runId (RunManager.transitionUpdates run newState now metadata stored))
    (holds : ∀ runId run, m.getRun runId = some run → P runId run) :
    ∀ runId run, m'.getRun runId = some run → P runId run := by
  have written (id : RunId) (after : Run) (kept : P id after) :
      ∀ runId run, (m.repo.runs.set id after).get runId = some run → P runId run := by
    intro runId run found
    rcases EsMap.get_set_cases m.repo.runs id found with ⟨rfl, rfl⟩ | ⟨-, earlier⟩
    · exact kept
    · exact holds runId run earlier
  cases effect with
  | position run stored position found =>
      exact written _ _ (positioned _ _ _ (holds _ _ found))
  | leased userId nextRunId lease stored found =>
      exact written _ _ (leased _ _ _ (holds _ _ found))
  | transition call id newState run stored metadata inside valid found =>
      exact written _ _ (moved _ _ _ _ _ (holds _ _ found))
  | _ => exact holds

/-- A turn leaves the stored state of a run as it is, or makes the call's write. -/
theorem Effect.stateOf {m m' : RunManager} {now : Int} {random : String} {call : Call}
    (effect : Effect m now random call m') (runId : RunId) :
    m'.stateOf runId = m.stateOf runId ∨
      ∃ before newState, m.stateOf runId = some before ∧
        call.write = some (runId, newState) ∧ m'.stateOf runId = some newState := by
  have written (id : RunId) (stored after : Run) (found : m.getRun id = some stored)
      (writes : after.state = stored.state ∨ call.write = some (id, after.state)) :
      ((m.repo.runs.set id after).get runId).map Run.state = m.stateOf runId ∨
        ∃ before newState, m.stateOf runId = some before ∧
          call.write = some (runId, newState) ∧
          ((m.repo.runs.set id after).get runId).map Run.state = some newState := by
    rw [EsMap.get_set]
    by_cases here : runId = id
    · subst here
      rw [if_pos rfl, RunManager.stateOf, found]
      rcases writes with same | writes
      · left
        exact congrArg some same
      · right
        exact ⟨stored.state, after.state, rfl, writes, rfl⟩
    · left
      rw [if_neg here]
      rfl
  cases effect with
  | position run stored position found => exact written _ _ _ found (.inl rfl)
  | leased userId nextRunId lease stored found => exact written _ _ _ found (.inr rfl)
  | transition call id newState run stored metadata inside valid found =>
      exact written _ _ _ found (.inr (write_of_transition inside valid))
  | _ => exact .inl rfl

theorem Effect.stateOf_of_no_write {m m' : RunManager} {now : Int} {random : String} {call : Call}
    (effect : Effect m now random call m') (silent : call.write = none) (runId : RunId) :
    m'.stateOf runId = m.stateOf runId := by
  rcases effect.stateOf runId with same | ⟨before, newState, -, writes, -⟩
  · exact same
  · rw [silent] at writes
    cases writes

theorem write_eq_some {call : Call} {runId : RunId} {newState : RunState}
    (writes : call.write = some (runId, newState)) :
    (∃ userId lease, call = .acquireNextRun userId (.dequeued runId lease) ∧ newState = .leased) ∨
      ∃ run, call.transition = some (runId, newState, .loaded (some run)) ∧
        isValidStateTransition run.state newState = true := by
  unfold write at writes
  split at writes
  · cases writes
    exact .inl ⟨_, _, rfl, rfl⟩
  · split at writes
    · rename_i id target run inside
      split at writes
      · rename_i valid
        cases writes
        exact .inr ⟨run, inside, valid⟩
      · cases writes
    · cases writes

theorem target_not_leased {call : Call} {runId : RunId} {newState : RunState} {pc : TransitionPc}
    (inside : call.transition = some (runId, newState, pc)) : newState ≠ .leased := by
  unfold transition at inside
  split at inside <;> cases inside <;> decide

theorem commits_eq_some {call : Call} {runId : RunId} {newState : RunState}
    (bound : call.commits = some (runId, newState)) :
    (∃ userId lease, call = .acquireNextRun userId (.leased runId (some lease)) ∧
        newState = .leased) ∨ call.write = some (runId, newState) := by
  unfold commits at bound
  split at bound
  · cases bound
    exact .inl ⟨_, _, rfl, rfl⟩
  · exact .inr bound

theorem transition_writes (m : RunManager) (now : Int) (runId : RunId) (newState : RunState)
    (metadata : TransitionMetadata) (run : Run) (state : RunState)
    (valid : isValidStateTransition run.state newState = true)
    (stored : m.stateOf runId = some state) :
    (m.transitionStateResume now runId newState metadata
      (.loaded (some run))).manager.stateOf runId = some newState := by
  obtain ⟨held, found, -⟩ := Option.map_eq_some_iff.mp stored
  have got : m.repo.runs.get runId = some held := found
  simp only [RunManager.transitionStateResume, if_pos valid, InMemoryRunRepository.update, got,
    RunManager.stateOf, RunManager.getRun, InMemoryRunRepository.getById, EsMap.get_set_self,
    Option.map_some, RunManager.transitionUpdates]

theorem resume_writes (m : RunManager) (now : Int) (random : String) (call : Call) (runId : RunId)
    (state newState : RunState) (writes : call.write = some (runId, newState))
    (stored : m.stateOf runId = some state) :
    (call.resume m now random).manager.stateOf runId = some newState := by
  rcases write_eq_some writes with ⟨userId, lease, rfl, rfl⟩ | ⟨run, inside, valid⟩
  · obtain ⟨held, found, -⟩ := Option.map_eq_some_iff.mp stored
    have got : m.repo.runs.get runId = some held := found
    simp only [resume, settle_manager, RunManager.acquireNextRunResume,
      InMemoryRunRepository.update, got, RunManager.stateOf, RunManager.getRun,
      InMemoryRunRepository.getById, EsMap.get_set_self, Option.map_some, RunManager.leasedUpdates]
  · have made (metadata : TransitionMetadata) :=
      transition_writes m now runId newState metadata run state valid stored
    unfold transition at inside
    split at inside
    · cases inside
      simp only [resume, settle_manager, RunManager.startRunResume]
      have kept := made ⟨none, none⟩
      split
      · exact kept
      · exact kept
      · rename_i resolved
        have impossible := transition_resolves m now runId .running _ _ _ resolved
        cases impossible
    · cases inside
      exact (settle_manager _ _ _).symm ▸ made _
    · cases inside
      simp only [resume, settle_manager, RunManager.timeoutRunResume, timeout_settle_manager]
      exact made _
    · cases inside
      exact (settle_manager _ _ _).symm ▸ made _
    · cases inside
      exact (settle_manager _ _ _).symm ▸ made _
    · cases inside

theorem write_not_queued {call : Call} {runId : RunId} {newState : RunState}
    (writes : call.write = some (runId, newState)) : newState ≠ .queued := by
  rcases write_eq_some writes with ⟨userId, lease, rfl, rfl⟩ | ⟨run, inside, valid⟩
  · decide
  · rintro rfl
    rw [never_back_to_queued] at valid
    cases valid

theorem queued_before {m : RunManager} {now : Int} {random : String} {call : Call} {runId : RunId}
    (waits : (call.resume m now random).manager.stateOf runId = some .queued) :
    m.stateOf runId = some .queued ∧ ∀ newState, call.write ≠ some (runId, newState) := by
  have effect := resume_effect m now random call
  have before : m.stateOf runId = some .queued := by
    rcases effect.stateOf runId with same | ⟨before, newState, -, writes, after⟩
    · exact same.symm.trans waits
    · rw [waits] at after
      exact absurd (Option.some.inj after).symm (write_not_queued writes)
  refine ⟨before, ?_⟩
  intro newState writes
  have made := resume_writes m now random call runId .queued newState writes before
  rw [waits] at made
  exact write_not_queued writes (Option.some.inj made).symm

/-- A call becomes bound to a write by asking for a lease or by reading a state that the write
may follow; until it makes the write it stays bound to it. -/
theorem commits_next {m : RunManager} {now : Int} {random : String} {call next : Call}
    {runId : RunId} {newState : RunState}
    (goes : pending (call.resume m now random) = some next)
    (bound : next.commits = some (runId, newState)) :
    call.write = none ∧
      (call.commits = some (runId, newState) ∨
        (∃ state, m.stateOf runId = some state ∧
          isValidStateTransition state newState = true) ∨
        ∃ userId, call.leases = some (userId, runId) ∧
          (m.leaseManager.isActive now userId).2 = false ∧ newState = .leased) := by
  rcases commits_eq_some bound with ⟨userId, lease, rfl, rfl⟩ | writes
  · obtain ⟨before, rfl, awaits⟩ := pending_acquireNextRun goes
    rcases acquire_await awaits with ⟨id, rfl, -, leased⟩ | ⟨id, held, rfl, impossible⟩ |
      ⟨id, held, stored, rfl, -, impossible⟩ | ⟨id, rfl, impossible⟩
    · obtain ⟨rfl, granted⟩ := AcquirePc.leased.inj leased
      have free := (InMemoryLeaseManager.inactive_of_acquire granted.symm).1
      exact ⟨rfl, .inr (.inr ⟨userId, rfl, free, rfl⟩)⟩
    · cases impossible
    · cases impossible
    · cases impossible
  · rcases write_eq_some writes with ⟨userId, lease, rfl, rfl⟩ | ⟨run, inside, valid⟩
    · obtain ⟨before, rfl, awaits⟩ := pending_acquireNextRun goes
      rcases acquire_await awaits with ⟨id, rfl, -, impossible⟩ | ⟨id, held, rfl, dequeued⟩ |
        ⟨id, held, stored, rfl, -, impossible⟩ | ⟨id, rfl, impossible⟩
      · cases impossible
      · cases dequeued
        exact ⟨rfl, .inl rfl⟩
      · cases impossible
      · cases impossible
    · rcases transition_next goes inside with ⟨-, silent, read⟩ | ⟨before, metadata, -, awaits⟩
      · refine ⟨silent, .inr (.inl ⟨run.state, ?_, valid⟩)⟩
        have found : m.getRun runId = some run := (TransitionPc.loaded.inj read).symm
        rw [RunManager.stateOf, found]
        rfl
      · rcases transition_await awaits with ⟨_, _, _, _, _, impossible⟩ | ⟨_, _, _, impossible⟩
        · cases impossible
        · cases impossible

end Call

/-- What the calls in progress are bound to write still follows from what is stored. -/
def Consistent (m : RunManager) (p : Pending) : Prop :=
  ∀ id call runId newState, p id = some call → call.commits = some (runId, newState) →
    ∃ state, m.stateOf runId = some state ∧
      (state = newState ∨ isValidStateTransition state newState = true)

/-- The resumed call contradicts no other call: what it writes still lets the others make the
writes they are bound to, and it is given a lease only for a run that waits or is leased. -/
structure Uncontested (now : Int) (m : RunManager) (p : Pending) (resumed : Option (Nat × Call)) :
    Prop where
  writes : ∀ id call runId newState, resumed = some (id, call) →
    call.write = some (runId, newState) → ∀ id' other newState', id' ≠ id → p id' = some other →
      other.commits = some (runId, newState') →
        newState = newState' ∨ isValidStateTransition newState newState' = true
  leases : ∀ id call userId runId, resumed = some (id, call) →
    call.leases = some (userId, runId) → (m.leaseManager.isActive now userId).2 = false →
      m.stateOf runId = some .queued ∨ m.stateOf runId = some .leased

/-- The stored state of every run stays or follows an edge of the table. -/
def Conforms (before after : RunManager) : Prop :=
  ∀ runId state, before.stateOf runId = some state →
    ∃ state', after.stateOf runId = some state' ∧
      (state' = state ∨ isValidStateTransition state state' = true)

theorem Conforms.terminal {before after : RunManager} (conforms : Conforms before after)
    {runId : RunId} {state : RunState} (stored : before.stateOf runId = some state)
    (terminal : isTerminalState state = true) : after.stateOf runId = some state := by
  obtain ⟨state', stored', same | edge⟩ := conforms runId state stored
  · rw [stored', same]
  · rw [terminal_has_no_successor state state' terminal] at edge
    cases edge

theorem Consistent.init (config : RunManagerConfig) :
    Consistent (RunManager.init config) (fun _ => none) := by
  intro id call runId newState found
  cases found

theorem Call.start_getRun (m : RunManager) (now : Int) (request : Request) (runId : RunId) :
    (Call.start m now request).1.getRun runId = m.getRun runId ∨
      ∃ random input, request = .createRun random input ∧
        runId = RunManager.newRunId now random ∧
        (Call.start m now request).1.getRun runId =
          some (RunManager.newRun m.config now random input) := by
  cases request with
  | createRun random input =>
      simp only [start, RunManager.createRun, RunManager.getRun, InMemoryRunRepository.create,
        InMemoryRunRepository.getById, EsMap.get_set]
      split
      · rename_i here
        exact .inr ⟨random, input, rfl, here, rfl⟩
      · exact .inl rfl
  | _ => exact .inl rfl

theorem CallStep.keeps_stateOf {now : Int} {m m' : RunManager} {p p' : Pending}
    (step : CallStep now m p none m' p') {runId : RunId} {state : RunState}
    (stored : m.stateOf runId = some state) : m'.stateOf runId = some state := by
  cases step with
  | begin id request free fresh =>
      rcases Call.start_getRun m now request runId with same | ⟨random, input, rfl, rfl, -⟩
      · rw [RunManager.stateOf, same]
        exact stored
      · rw [fresh random input rfl] at stored
        cases stored
  | fire id timer free runId' timeoutManager fired => exact stored
  | listen listener signal => exact stored

theorem CallStep.stored {now : Int} {m m' : RunManager} {p p' : Pending}
    {resumed : Option (Nat × Call)} (step : CallStep now m p resumed m' p')
    (P : RunId → Run → Prop)
    (created : ∀ random input,
      P (RunManager.newRunId now random) (RunManager.newRun m.config now random input))
    (positioned : ∀ runId run position, P runId run →
      P runId { run with queuePosition := position })
    (leased : ∀ runId lease run, P runId run → P runId (RunManager.leasedUpdates now lease run))
    (moved : ∀ runId run newState metadata stored, P runId stored →
      P runId (RunManager.transitionUpdates run newState now metadata stored))
    (holds : ∀ runId run, m.getRun runId = some run → P runId run) :
    ∀ runId run, m'.getRun runId = some run → P runId run := by
  cases step with
  | begin id request free fresh =>
      intro runId run found
      rcases Call.start_getRun m now request runId with same | ⟨random, input, -, rfl, new⟩
      · exact holds runId run (same.symm.trans found)
      · rw [new] at found
        cases found
        exact created random input
  | resume id call random found =>
      exact (Call.resume_effect m now random call).stored P positioned leased moved holds
  | fire id timer free runId timeoutManager fired => exact holds
  | listen listener signal => exact holds

theorem CallStep.own_ids {now : Int} {m m' : RunManager} {p p' : Pending}
    {resumed : Option (Nat × Call)} (step : CallStep now m p resumed m' p')
    (own : ∀ runId run, m.getRun runId = some run → run.id = runId) :
    ∀ runId run, m'.getRun runId = some run → run.id = runId := by
  apply step.stored (fun runId run => run.id = runId)
  · intro random input
    rfl
  · intro runId run position same
    exact same
  · intro runId lease run same
    exact same
  · intro runId run newState metadata stored same
    exact same
  · exact own

theorem Call.commits_start (m : RunManager) (now : Int) (request : Request) (runId : RunId)
    (newState : RunState)
    (bound : (Call.start m now request).2.commits = some (runId, newState)) :
    ∃ state, (Call.start m now request).1.stateOf runId = some state ∧
      isValidStateTransition state newState = true := by
  rcases commits_eq_some bound with ⟨userId, lease, started, -⟩ | writes
  · cases request <;> cases started
  · rcases write_eq_some writes with ⟨userId, lease, started, -⟩ | ⟨run, inside, valid⟩
    · cases request <;> cases started
    · cases request with
      | startRun id =>
          have read : m.getRun runId = some run := by
            simp only [start, transition, RunManager.startRun, RunManager.transitionState,
              Option.some.injEq, Prod.mk.injEq, TransitionPc.loaded.injEq] at inside
            obtain ⟨rfl, -, read⟩ := inside
            exact read
          refine ⟨run.state, ?_, valid⟩
          simp only [start, RunManager.stateOf, read, Option.map_some]
      | _ => cases inside

/-- A step of uncontested calls keeps to the table and keeps the calls consistent. -/
theorem CallStep.conforms {now : Int} {m m' : RunManager} {p p' : Pending}
    {resumed : Option (Nat × Call)} (step : CallStep now m p resumed m' p')
    (calm : Uncontested now m p resumed) (consistent : Consistent m p) :
    Conforms m m' ∧ Consistent m' p' := by
  constructor
  · intro runId state stored
    cases resumed with
    | none => exact ⟨state, step.keeps_stateOf stored, .inl rfl⟩
    | some resuming =>
        cases step with
        | resume id call random found =>
            rcases (Call.resume_effect m now random call).stateOf runId with same |
              ⟨before, newState, earlier, writes, after⟩
            · exact ⟨state, same.trans stored, .inl rfl⟩
            · obtain ⟨known, stored', agrees⟩ :=
                consistent id call runId newState found (Call.commits_of_write writes)
              rw [stored] at stored'
              cases stored'
              refine ⟨newState, after, ?_⟩
              rcases agrees with same | edge
              · exact .inl same.symm
              · exact .inr edge
  · intro id' other runId newState found bound
    cases step.origin found with
    | stays _ _ _ found' elsewhere =>
        obtain ⟨state, stored, agrees⟩ := consistent id' other runId newState found' bound
        cases resumed with
        | none => exact ⟨state, step.keeps_stateOf stored, agrees⟩
        | some resuming =>
            cases step with
            | resume id call random got =>
                rcases (Call.resume_effect m now random call).stateOf runId with same |
                  ⟨before, written, -, writes, after⟩
                · exact ⟨state, same.trans stored, agrees⟩
                · have different : id' ≠ id := by
                    rintro rfl
                    exact elsewhere call rfl
                  exact ⟨written, after,
                    calm.writes id call runId written rfl writes id' other newState different found'
                      bound⟩
    | begins request free fresh =>
        obtain ⟨state, stored, valid⟩ := Call.commits_start m now request runId newState bound
        exact ⟨state, stored, .inr valid⟩
    | goes call random _ got goes =>
        -- the resumed call made no write, so what it read is still stored
        obtain ⟨silent, earlier | ⟨state, stored, valid⟩ | ⟨userId, asks, free, rfl⟩⟩ :=
          Call.commits_next goes bound
        · obtain ⟨state, stored, agrees⟩ := consistent id' call runId newState got earlier
          have kept := (Call.resume_effect m now random call).stateOf_of_no_write silent runId
          exact ⟨state, kept.trans stored, agrees⟩
        · have kept := (Call.resume_effect m now random call).stateOf_of_no_write silent runId
          exact ⟨state, kept.trans stored, .inr valid⟩
        · have kept := (Call.resume_effect m now random call).stateOf_of_no_write silent runId
          rcases calm.leases id' call userId runId rfl asks free with waits | leased
          · exact ⟨.queued, kept.trans waits, .inr (by decide)⟩
          · exact ⟨.leased, kept.trans leased, .inl rfl⟩
    | fires runId' timeoutManager free => cases bound

end Minerva
