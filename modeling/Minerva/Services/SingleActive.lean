import Minerva.Services.Leases

/-! One active run for each owner when the calls do not overlap: the lease of an owner names its
active run for as long as the run is active. -/

namespace Minerva

namespace Call

/-- The stored run as a call has read it last. -/
def reads : Call → Option (RunId × Run)
  | .cancelRun runId _ (.loaded (some run)) => some (runId, run)
  | .cancelRun runId _ (.removed run) => some (runId, run)
  | .timeoutRun runId (.loaded (some run)) => some (runId, run)
  | .completeRun runId _ (.loaded (some run)) => some (runId, run)
  | .failRun runId _ (.loaded (some run)) => some (runId, run)
  | call =>
    match call.transition with
    | some (runId, _, .loaded (some run)) => some (runId, run)
    | _ => none

/-- The run that a call is taking to a terminal state after it has given its lease back. -/
def leaving : Call → Option (RunId × RunState)
  | .cancelRun runId _ (.abandoning (.released _)) => some (runId, .cancelled)
  | .timeoutRun runId (.abandoning (.released _)) => some (runId, .timedOut)
  | .completeRun runId _ .released => some (runId, .completed)
  | .failRun runId _ .released => some (runId, .failed)
  | call => call.write.filter (fun write => isTerminalState write.2)

def Holds (call : Call) (userId : UserId) (runId : RunId) (lease : Lease) : Prop :=
  call = .acquireNextRun userId (.leased runId (some lease)) ∨
    call = .acquireNextRun userId (.dequeued runId lease)

theorem Effect.repo_of_no_write {m m' : RunManager} {now : Int} {random : String} {call : Call}
    (effect : Effect m now random call m') (silent : call.write = none)
    (created : ∀ pc, call ≠ .createRun pc) : m'.repo = m.repo := by
  cases effect with
  | position run stored position found => exact absurd rfl (created _)
  | leased userId nextRunId lease stored found => cases silent
  | transition call id newState run stored metadata inside valid found =>
      rw [write_of_transition inside valid] at silent
      cases silent
  | _ => rfl

theorem reads_of_transition {call : Call} {runId : RunId} {newState : RunState} {run : Run}
    (inside : call.transition = some (runId, newState, .loaded (some run))) :
    call.reads = some (runId, run) := by
  unfold reads
  split
  · cases inside
  · cases inside
  · cases inside
  · cases inside
  · cases inside
  · rw [inside]

theorem reads_eq_some {call : Call} {runId : RunId} {run : Run}
    (reads : call.reads = some (runId, run)) :
    (∃ reason, call = .cancelRun runId reason (.loaded (some run))) ∨
      (∃ reason, call = .cancelRun runId reason (.removed run)) ∨
      call = .timeoutRun runId (.loaded (some run)) ∨
      (∃ finalMessages, call = .completeRun runId finalMessages (.loaded (some run))) ∨
      (∃ error, call = .failRun runId error (.loaded (some run))) ∨
      ∃ newState, call.transition = some (runId, newState, .loaded (some run)) := by
  unfold Call.reads at reads
  split at reads
  · cases reads
    exact .inl ⟨_, rfl⟩
  · cases reads
    exact .inr (.inl ⟨_, rfl⟩)
  · cases reads
    exact .inr (.inr (.inl rfl))
  · cases reads
    exact .inr (.inr (.inr (.inl ⟨_, rfl⟩)))
  · cases reads
    exact .inr (.inr (.inr (.inr (.inl ⟨_, rfl⟩))))
  · split at reads
    · rename_i inside
      cases reads
      exact .inr (.inr (.inr (.inr (.inr ⟨_, inside⟩))))
    · cases reads

theorem next_reads {m : RunManager} {now : Int} {random : String} {call next : Call}
    {runId : RunId} {run : Run} (goes : pending (call.resume m now random) = some next)
    (reads : next.reads = some (runId, run)) :
    (call.reads = some (runId, run) ∨ m.getRun runId = some run) ∧
      (call.resume m now random).manager.repo = m.repo := by
  have effect := resume_effect m now random call
  have created (pc : CreatePc) (same : call = .createRun pc) : False := by
    subst same
    have method := pending_same_method m now random _ next goes
    cases next <;> simp only [SameMethod] at method
    cases reads
  rcases reads_eq_some reads with ⟨reason, rfl⟩ | ⟨reason, rfl⟩ | rfl | ⟨finalMessages, rfl⟩ |
    ⟨error, rfl⟩ | ⟨newState, inside⟩
  · obtain ⟨pc, rfl, awaits⟩ := pending_cancelRun goes
    rcases cancel_await awaits with ⟨_, -, -, impossible⟩ | ⟨_, _, -, impossible, -⟩ |
      ⟨_, _, -, impossible, -⟩ <;> cases impossible
  · obtain ⟨pc, rfl, awaits⟩ := pending_cancelRun goes
    rcases cancel_await awaits with ⟨before, rfl, waiting, same⟩ | ⟨_, _, -, impossible, -⟩ |
      ⟨_, _, -, impossible, -⟩
    · cases same
      exact ⟨.inl rfl, effect.repo_of_no_write rfl created⟩
    · cases impossible
    · cases impossible
  · obtain ⟨pc, rfl, awaits⟩ := pending_timeoutRun goes
    rcases timeout_await awaits with ⟨_, _, -, -, impossible, -⟩ | ⟨_, _, -, impossible, -⟩ <;>
      cases impossible
  · obtain ⟨pc, rfl, awaits⟩ := pending_completeRun goes
    rcases end_await awaits with ⟨_, -, -, impossible⟩ | ⟨-, impossible⟩ |
      ⟨_, _, -, impossible, -⟩ <;> cases impossible
  · obtain ⟨pc, rfl, awaits⟩ := pending_failRun goes
    rcases end_await awaits with ⟨_, -, -, impossible⟩ | ⟨-, impossible⟩ |
      ⟨_, _, -, impossible, -⟩ <;> cases impossible
  · rcases transition_next goes inside with ⟨-, silent, read⟩ | ⟨before, metadata, -, awaits⟩
    · exact ⟨.inr (TransitionPc.loaded.inj read).symm, effect.repo_of_no_write silent created⟩
    · rcases transition_await awaits with ⟨_, _, _, _, _, impossible⟩ | ⟨_, _, _, impossible⟩ <;>
        cases impossible

inductive Rewrites (call : Call) (runId : RunId) (before after : Run) : Prop
  | kept (state : after.state = before.state) (token : after.leaseToken = before.leaseToken)
  | marked (userId : UserId) (lease : Lease)
      (marks : call = .acquireNextRun userId (.dequeued runId lease))
      (state : after.state = .leased) (token : after.leaseToken = some lease.token)
  | moved (snapshot : Run)
      (inside : call.transition = some (runId, after.state, .loaded (some snapshot)))
      (valid : isValidStateTransition snapshot.state after.state = true)
      (token : after.leaseToken = before.leaseToken)

theorem Effect.before {m m' : RunManager} {now : Int} {random : String} {call : Call}
    (effect : Effect m now random call m') {runId : RunId} {after : Run}
    (found : m'.getRun runId = some after) :
    ∃ before, m.getRun runId = some before ∧ after.userId = before.userId ∧
      call.Rewrites runId before after := by
  have kept (same : m.getRun runId = some after) : ∃ before, m.getRun runId = some before ∧
      after.userId = before.userId ∧ call.Rewrites runId before after :=
    ⟨after, same, rfl, .kept rfl rfl⟩
  cases effect with
  | position run stored position held =>
      rcases EsMap.get_set_cases m.repo.runs _ found with ⟨rfl, rfl⟩ | ⟨-, earlier⟩
      · exact ⟨stored, held, rfl, .kept rfl rfl⟩
      · exact kept earlier
  | leased userId nextRunId lease stored held =>
      rcases EsMap.get_set_cases m.repo.runs _ found with ⟨rfl, rfl⟩ | ⟨-, earlier⟩
      · exact ⟨stored, held, rfl, .marked userId lease rfl rfl rfl⟩
      · exact kept earlier
  | transition call id newState run stored metadata inside valid held =>
      rcases EsMap.get_set_cases m.repo.runs _ found with ⟨rfl, rfl⟩ | ⟨-, earlier⟩
      · exact ⟨stored, held, rfl, .moved run inside valid rfl⟩
      · exact kept earlier
  | _ => exact kept found

theorem leases_of_write {call : Call} {write : RunId × RunState}
    (writes : call.write = some write) (l : InMemoryLeaseManager) (now : Int) (random : String)
    (ttlMs : Int) : call.leasesAfter l now random ttlMs = l := by
  obtain ⟨runId, newState⟩ := write
  rcases write_eq_some writes with ⟨userId, lease, rfl, -⟩ | ⟨run, inside, -⟩
  · rfl
  · unfold transition at inside
    split at inside <;> cases inside <;> rfl

theorem gives_next (m : RunManager) (now : Int) (random : String) {call : Call} {runId : RunId}
    {run : Run} {target : RunState} {token : String} (gives : call.gives = some (runId, run, target))
    (held : truthy run.leaseToken = some token) :
    call.reads = some (runId, run) ∧ isTerminalState target = true ∧ call.leaving = none ∧
      ∃ next, pending (call.resume m now random) = some next ∧
        next.leaving = some (runId, target) := by
  unfold Call.gives at gives
  split at gives
  · rename_i id reason run'
    split at gives
    · cases gives
    · rename_i neither
      cases gives
      refine ⟨rfl, rfl, rfl, .cancelRun runId reason (.abandoning (.released run)), ?_, rfl⟩
      have live : isTerminalState run.state = false := by
        cases terminal : isTerminalState run.state with
        | true => exact absurd (.inl terminal) neither
        | false => rfl
      have started : run.state ≠ .queued := fun waiting => neither (.inr waiting)
      simp [resume, RunManager.cancelRunResume, live, started, RunManager.abandon, held,
        pending_settle, Turn.map, Progress.map]
  · rename_i id reason run'
    cases gives
    refine ⟨rfl, rfl, rfl, .cancelRun runId reason (.abandoning (.released run)), ?_, rfl⟩
    simp [resume, RunManager.cancelRunResume, RunManager.abandon, held, pending_settle, Turn.map,
      Progress.map]
  · rename_i id run'
    split at gives
    · cases gives
    · rename_i live
      cases gives
      refine ⟨rfl, rfl, rfl, .timeoutRun runId (.abandoning (.released run)), ?_, rfl⟩
      simp [resume, RunManager.timeoutRunResume, live, RunManager.abandon, held, pending_settle,
        timeout_settle_await]
  · rename_i id finalMessages run'
    cases gives
    refine ⟨rfl, rfl, rfl, .completeRun runId finalMessages .released, ?_, rfl⟩
    simp [resume, RunManager.completeRunResume, RunManager.endRunResume, held, pending_settle]
  · rename_i id error run'
    cases gives
    refine ⟨rfl, rfl, rfl, .failRun runId error .released, ?_, rfl⟩
    simp [resume, RunManager.failRunResume, RunManager.endRunResume, held, pending_settle]
  · cases gives

theorem leaving_terminal {call : Call} {runId : RunId} {target : RunState}
    (leaving : call.leaving = some (runId, target)) : isTerminalState target = true := by
  unfold Call.leaving at leaving
  split at leaving
  · cases leaving
    rfl
  · cases leaving
    rfl
  · cases leaving
    rfl
  · cases leaving
    rfl
  · exact (Option.filter_eq_some_iff.mp leaving).2

theorem leaving_of_write {call : Call} {write : RunId × RunState}
    (writes : call.write = some write) :
    call.leaving = if isTerminalState write.2 then some write else none := by
  unfold Call.leaving
  split
  · cases writes
  · cases writes
  · cases writes
  · cases writes
  · rw [writes, Option.filter_some]

theorem leaving_next {m : RunManager} {now : Int} {random : String} {call : Call} {runId : RunId}
    {target : RunState} {run : Run} (leaving : call.leaving = some (runId, target))
    (found : m.getRun runId = some run)
    (valid : isValidStateTransition run.state target = true) :
    call.write = some (runId, target) ∨ ∃ next, pending (call.resume m now random) = some next ∧
      next.leaving = some (runId, target) := by
  have bound (next : Call)
      (inside : next.transition = some (runId, target, .loaded (m.getRun runId)))
      (apart : next.leaving = next.write.filter (fun write => isTerminalState write.2)) :
      next.leaving = some (runId, target) := by
    rw [found] at inside
    rw [apart, write_of_transition inside valid, Option.filter_some,
      leaving_terminal leaving, if_pos rfl]
  have terminal := leaving_terminal leaving
  unfold Call.leaving at leaving
  split at leaving
  · cases leaving
    exact .inr ⟨_, rfl, bound _ rfl rfl⟩
  · cases leaving
    exact .inr ⟨_, rfl, bound _ rfl rfl⟩
  · cases leaving
    exact .inr ⟨_, rfl, bound _ rfl rfl⟩
  · cases leaving
    exact .inr ⟨_, rfl, bound _ rfl rfl⟩
  · exact .inl (Option.filter_eq_some_iff.mp leaving).1

end Call

/-- The resumed call neither takes over the lease of an active run, nor reuses a token, nor
gives a lease back before a transition that the table does not have. -/
structure LeaseSafe (now : Int) (m : RunManager) (random : String) (call : Call) : Prop where
  expired : ∀ userId runId lease, call.leases = some (userId, runId) →
    m.leaseManager.leases.get userId = some lease → lease.expiresAt ≤ now →
      ∀ state, m.stateOf lease.runId = some state → isActiveState state = false
  token : ∀ userId runId, call.leases = some (userId, runId) →
    (m.leaseManager.isActive now userId).2 = false →
      m.leaseManager.tokenToUser.get (InMemoryLeaseManager.newToken now random) = none
  rejected : ∀ runId run target token, call.gives = some (runId, run, target) →
    truthy run.leaseToken = some token → (m.leaseManager.held token).isSome →
      isValidStateTransition run.state target = true

/-- The lease of an owner names its active run. -/
def Backed (m : RunManager) (runId : RunId) (run : Run) : Prop :=
  ∃ lease, m.leaseManager.leases.get run.userId = some lease ∧ lease.runId = runId ∧
    run.leaseToken = some lease.token

/-- Calls that do not overlap: an active run has the lease of its owner, until the one call in
progress has given it back to end the run. -/
structure Exclusive (m : RunManager) (p : Pending) : Prop where
  known : m.leaseManager.Known
  alone : ∀ id id' call call', p id = some call → p id' = some call' → id = id'
  fresh : ∀ runId run, m.getRun runId = some run → run.state = .queued → run.leaseToken = none
  read : ∀ id call runId run, p id = some call → call.reads = some (runId, run) →
    m.getRun runId = some run
  granted : ∀ id call userId runId lease, p id = some call → call.Holds userId runId lease →
    m.leaseManager.leases.get userId = some lease ∧ lease.runId = runId ∧
      m.userOf runId = some userId ∧ ∀ other run, m.getRun other = some run →
        isActiveState run.state = true → run.userId ≠ userId
  backed : ∀ runId run, m.getRun runId = some run → isActiveState run.state = true →
    Backed m runId run ∨ ∃ id call target, p id = some call ∧
      call.leaving = some (runId, target) ∧ isValidStateTransition run.state target = true
  single : ∀ runId runId' run run', m.getRun runId = some run → m.getRun runId' = some run' →
    isActiveState run.state = true → isActiveState run'.state = true →
      run.userId = run'.userId → runId = runId'

namespace Exclusive

variable {now : Int} {m : RunManager} {p : Pending} {random : String} {id : Nat} {call : Call}

theorem sole (held : Exclusive m p) (found : p id = some call) {id' : Nat} {other : Call}
    (found' : p id' = some other) : other = call := by
  have same := held.alone id id' call other found found'
  rw [same, found'] at found
  exact Option.some.inj found

theorem no_active (held : Exclusive m p) (found : p id = some call)
    (safe : LeaseSafe now m random call) {userId : UserId} {runId : RunId}
    (asks : call.leases = some (userId, runId))
    (inactive : (m.leaseManager.isActive now userId).2 = false) {other : RunId} {run : Run}
    (stored : m.getRun other = some run) (active : isActiveState run.state = true) :
    run.userId ≠ userId := by
  intro same
  rcases held.backed other run stored active with ⟨lease, leased, names, -⟩ |
    ⟨id', call', target, found', leaving, -⟩
  · rw [same] at leased
    have old := InMemoryLeaseManager.expired_of_inactive inactive leased
    have state : m.stateOf lease.runId = some run.state := by
      rw [names, RunManager.stateOf, stored]
      rfl
    rw [safe.expired userId runId lease asks leased old run.state state] at active
    cases active
  · rw [held.sole found found'] at leaving
    unfold Call.leases at asks
    split at asks
    · cases leaving
    · cases asks

theorem no_leaving (held : Exclusive m p) (found : p id = some call) (none : call.leaving = none)
    {runId : RunId} {run : Run} (stored : m.getRun runId = some run)
    (active : isActiveState run.state = true) : Backed m runId run := by
  rcases held.backed runId run stored active with backed | ⟨id', call', target, found', leaving, -⟩
  · exact backed
  · rw [held.sole found found', none] at leaving
    cases leaving

theorem given_lease (held : Exclusive m p) (now : Int) (random : String)
    (found : p id = some call) {leaver : RunId} {snapshot : Run} {target : RunState} {token : String}
    (gives : call.gives = some (leaver, snapshot, target))
    (has : truthy snapshot.leaseToken = some token)
    (valid : isValidStateTransition snapshot.state target = true) {userId : UserId} {lease : Lease}
    (leased : m.leaseManager.leases.get userId = some lease) (same : lease.token = token) :
    m.getRun leaver = some snapshot ∧ lease.runId = leaver := by
  obtain ⟨reads, -, stays, -⟩ := Call.gives_next m now random gives has
  have stored := held.read id call leaver snapshot found reads
  obtain ⟨tokened, -⟩ := Option.filter_eq_some_iff.mp has
  have started : snapshot.state ≠ .queued := by
    intro waiting
    rw [held.fresh leaver snapshot stored waiting] at tokened
    cases tokened
  have live : isTerminalState snapshot.state = false := by
    cases terminal : isTerminalState snapshot.state with
    | false => rfl
    | true =>
        rw [terminal_has_no_successor _ _ terminal] at valid
        cases valid
  obtain ⟨mine, leased', names, carries⟩ :=
    held.no_leaving found stays stored (active_of_live _ started live)
  rw [tokened, Option.some.injEq] at carries
  have here := held.known userId lease leased
  have there := held.known snapshot.userId mine leased'
  rw [same, carries, there] at here
  rw [← Option.some.inj here, leased'] at leased
  cases leased
  exact ⟨stored, names⟩

/-- A backed run stays backed in a turn that leaves it as it is, unless the turn gives its lease
back; then the call goes on to end the run. -/
theorem backed_after (held : Exclusive m p) (found : p id = some call)
    (safe : LeaseSafe now m random call) {runId : RunId} {run after : Run}
    (stored : m.getRun runId = some run) (active : isActiveState run.state = true)
    (user : after.userId = run.userId) (state : after.state = run.state)
    (token : after.leaseToken = run.leaseToken) (backed : Backed m runId run) :
    Backed (call.resume m now random).manager runId after ∨
      ∃ next target, Call.pending (call.resume m now random) = some next ∧
        next.leaving = some (runId, target) ∧
        isValidStateTransition after.state target = true := by
  obtain ⟨lease, leased, names, carries⟩ := backed
  have leases := Call.resume_leases m now random call
  have keep (same : (call.leasesAfter m.leaseManager now random m.config.leaseTtlMs).leases.get
      run.userId = some lease) : Backed (call.resume m now random).manager runId after := by
    refine ⟨lease, ?_, names, token.trans carries⟩
    rw [leases, user]
    exact same
  cases asks : call.leases with
  | some asked =>
      obtain ⟨userId, asking⟩ := asked
      left
      apply keep
      simp only [Call.leasesAfter, asks]
      split
      · exact leased
      · by_cases mine : run.userId = userId
        · cases inactive : (m.leaseManager.isActive now userId).2 with
          | false =>
              exact absurd mine (held.no_active found safe asks inactive stored active)
          | true =>
              rcases m.leaseManager.acquire_cases now random userId asking m.config.leaseTtlMs with
                ⟨-, -, -, refused⟩ | ⟨expired, -⟩
              · rw [refused]
                exact leased
              · rw [mine] at leased
                have old := expired lease leased
                simp [InMemoryLeaseManager.isActive, leased, old] at inactive
        · rw [InMemoryLeaseManager.get_acquire_of_ne _ _ _ _ _ _ _ mine]
          exact leased
  | none =>
      cases gives : call.gives with
      | none =>
          left
          apply keep
          simp only [Call.leasesAfter, asks, gives]
          exact leased
      | some given =>
          obtain ⟨leaver, snapshot, target⟩ := given
          cases has : truthy snapshot.leaseToken with
          | none =>
              left
              apply keep
              simp only [Call.leasesAfter, asks, gives, has]
              exact leased
          | some given =>
              have after_release : call.leasesAfter m.leaseManager now random m.config.leaseTtlMs =
                  m.leaseManager.release given := by
                simp only [Call.leasesAfter, asks, gives, has]
                rfl
              by_cases same : lease.token = given
              · cases place : m.leaseManager.held given with
                | none =>
                    left
                    apply keep
                    rw [after_release, InMemoryLeaseManager.release, place]
                    exact leased
                | some holder =>
                    -- the lease is the one of the run that the call ends
                    right
                    have valid := safe.rejected leaver snapshot target given gives has
                      (by rw [place]; rfl)
                    obtain ⟨read, owner⟩ := held.given_lease now random found gives has valid leased
                      same
                    obtain ⟨-, -, -, next, goes, leaving⟩ :=
                      Call.gives_next m now random gives has
                    rw [← owner, names, stored] at read
                    cases read
                    rw [← owner, names] at leaving
                    exact ⟨next, target, goes, leaving, by rw [state]; exact valid⟩
              · left
                apply keep
                rw [after_release]
                exact InMemoryLeaseManager.get_release_of_ne leased same

theorem active_before (held : Exclusive m p) (found : p id = some call) {runId : RunId}
    {after : Run} (stored : (call.resume m now random).manager.getRun runId = some after)
    (active : isActiveState after.state = true) :
    ∃ run, m.getRun runId = some run ∧ after.userId = run.userId ∧
      ((isActiveState run.state = true ∧ after.leaseToken = run.leaseToken) ∨
        ∃ userId lease, call = .acquireNextRun userId (.dequeued runId lease) ∧
          after.leaseToken = some lease.token) := by
  obtain ⟨run, before, user, rewrites⟩ := (Call.resume_effect m now random call).before stored
  refine ⟨run, before, user, ?_⟩
  cases rewrites with
  | kept state token =>
      rw [state] at active
      exact .inl ⟨active, token⟩
  | marked userId lease marks state token => exact .inr ⟨userId, lease, marks, token⟩
  | moved snapshot inside valid token =>
      left
      refine ⟨?_, token⟩
      have read := held.read id call runId snapshot found (Call.reads_of_transition inside)
      rw [before, Option.some.injEq] at read
      have apart := Call.target_not_leased inside
      rw [read]
      revert valid active apart
      cases snapshot.state <;> cases after.state <;> decide

theorem single_after (held : Exclusive m p) (found : p id = some call) {runId runId' : RunId}
    {after after' : Run} (stored : (call.resume m now random).manager.getRun runId = some after)
    (stored' : (call.resume m now random).manager.getRun runId' = some after')
    (active : isActiveState after.state = true) (active' : isActiveState after'.state = true)
    (same : after.userId = after'.userId) : runId = runId' := by
  -- a run that is being marked meets no active run of its owner
  have alone {first second : RunId} {one other : Run} {userId : UserId} {lease : Lease}
      (before : m.getRun first = some one) (before' : m.getRun second = some other)
      (active : isActiveState other.state = true)
      (marks : call = .acquireNextRun userId (.dequeued first lease))
      (same : one.userId = other.userId) : False := by
    obtain ⟨-, -, mine, nobody⟩ := held.granted id call userId first lease found (.inr marks)
    have owner : one.userId = userId := by
      rw [RunManager.userOf, before] at mine
      exact Option.some.inj mine
    exact nobody second other before' active (same.symm.trans owner)
  obtain ⟨run, before, user, origin⟩ := held.active_before found stored active
  obtain ⟨run', before', user', origin'⟩ := held.active_before found stored' active'
  have owners : run.userId = run'.userId := user.symm.trans (same.trans user')
  rcases origin with ⟨was, -⟩ | ⟨userId, lease, marks, -⟩
  · rcases origin' with ⟨was', -⟩ | ⟨userId', lease', marks', -⟩
    · exact held.single runId runId' run run' before before' was was' owners
    · exact (alone before' before was marks' owners.symm).elim
  · rcases origin' with ⟨was', -⟩ | ⟨userId', lease', marks', -⟩
    · exact (alone before before' was' marks owners).elim
    · rw [marks] at marks'
      cases marks'
      rfl

theorem backed_resume (held : Exclusive m p) (found : p id = some call)
    (safe : LeaseSafe now m random call) {runId : RunId} {after : Run}
    (stored : (call.resume m now random).manager.getRun runId = some after)
    (active : isActiveState after.state = true) :
    Backed (call.resume m now random).manager runId after ∨
      ∃ next target, Call.pending (call.resume m now random) = some next ∧
        next.leaving = some (runId, target) ∧
        isValidStateTransition after.state target = true := by
  have leases := Call.resume_leases m now random call
  obtain ⟨run, before, user, rewrites⟩ := (Call.resume_effect m now random call).before stored
  cases rewrites with
  | kept state token =>
      have was : isActiveState run.state = true := by rwa [state] at active
      rcases held.backed runId run before was with backed |
        ⟨id', call', target, found', leaving, valid⟩
      · exact held.backed_after found safe before was user state token backed
      · rw [held.sole found found'] at leaving
        rcases Call.leaving_next leaving before valid with writes | ⟨next, goes, still⟩
        · -- the write is made, so the run is no longer active
          have was' : m.stateOf runId = some run.state := by
            rw [RunManager.stateOf, before]
            rfl
          have made := Call.resume_writes m now random call runId run.state target writes was'
          rw [RunManager.stateOf, stored] at made
          have ended : after.state = target := Option.some.inj made
          have live := active_not_terminal after.state active
          rw [ended, Call.leaving_terminal leaving] at live
          cases live
        · exact .inr ⟨next, target, goes, still, by rw [state]; exact valid⟩
  | marked userId lease marks state token =>
      obtain ⟨leased, names, mine, -⟩ :=
        held.granted id call userId runId lease found (.inr marks)
      left
      refine ⟨lease, ?_, names, token⟩
      rw [RunManager.userOf, before] at mine
      rw [leases, user, Option.some.inj mine]
      subst marks
      exact leased
  | moved snapshot inside valid token =>
      have writes := Call.write_of_transition inside valid
      obtain ⟨run', before', -, origin⟩ := held.active_before found stored active
      rw [before] at before'
      cases before'
      rcases origin with ⟨was, -⟩ | ⟨userId, lease, marks, -⟩
      · left
        have stays : call.leaving = none := by
          have live := active_not_terminal after.state active
          rw [Call.leaving_of_write writes, live]
          rfl
        obtain ⟨lease, leased, names, carries⟩ := held.no_leaving found stays before was
        refine ⟨lease, ?_, names, token.trans carries⟩
        rw [leases, Call.leases_of_write writes, user]
        exact leased
      · rw [marks] at inside
        cases inside

theorem known_after (held : Exclusive m p) (safe : LeaseSafe now m random call) :
    (call.resume m now random).manager.leaseManager.Known := by
  rw [Call.resume_leases]
  unfold Call.leasesAfter
  split
  · rename_i userId runId asks
    split
    · exact held.known
    · exact held.known.acquire now random userId runId m.config.leaseTtlMs
        (safe.token userId runId asks)
  · split
    · rename_i runId run target gives
      cases truthy run.leaseToken with
      | none => exact held.known
      | some token => exact held.known.release token
    · exact held.known

theorem granted_after (held : Exclusive m p) (lanes : Lanes m p) (found : p id = some call)
    (safe : LeaseSafe now m random call) {next : Call} {userId : UserId} {runId : RunId}
    {lease : Lease} (goes : Call.pending (call.resume m now random) = some next)
    (holds : next.Holds userId runId lease) :
    let after := (call.resume m now random).manager
    after.leaseManager.leases.get userId = some lease ∧ lease.runId = runId ∧
      after.userOf runId = some userId ∧ ∀ other run, after.getRun other = some run →
        isActiveState run.state = true → run.userId ≠ userId := by
  have leases := Call.resume_leases m now random call
  have effect := Call.resume_effect m now random call
  rcases holds with rfl | rfl
  · obtain ⟨before, rfl, awaits⟩ := Call.pending_acquireNextRun goes
    rcases Call.acquire_await awaits with ⟨id', rfl, named, asked⟩ | ⟨_, _, rfl, impossible⟩ |
      ⟨_, _, _, rfl, -, impossible⟩ | ⟨_, rfl, impossible⟩
    · obtain ⟨rfl, granted⟩ := AcquirePc.leased.inj asked
      have inactive := (InMemoryLeaseManager.inactive_of_acquire granted.symm).1
      have repo := effect.repo_of_no_write rfl (by rintro pc ⟨⟩)
      have user := (lanes.named id _ userId runId found (.inl rfl)).1
      refine ⟨?_, ?_, ?_, ?_⟩
      · rw [leases]
        simp only [Call.leasesAfter, Call.leases, if_neg named]
        rcases m.leaseManager.acquire_cases now random userId runId m.config.leaseTtlMs with
          ⟨_, -, -, refused⟩ | ⟨-, after, acquired, stored, -⟩
        · rw [refused] at granted
          cases granted
        · rw [acquired] at granted ⊢
          cases granted
          rw [stored, EsMap.get_set_self]
      · exact (InMemoryLeaseManager.inactive_of_acquire granted.symm).2
      · rw [RunManager.userOf, RunManager.getRun, repo]
        exact user
      · intro other run stored active
        rw [RunManager.getRun, repo] at stored
        exact held.no_active found safe rfl inactive stored active
    · cases impossible
    · cases impossible
    · cases impossible
  · obtain ⟨before, rfl, awaits⟩ := Call.pending_acquireNextRun goes
    rcases Call.acquire_await awaits with ⟨_, rfl, -, impossible⟩ | ⟨_, _, rfl, dequeued⟩ |
      ⟨_, _, _, rfl, -, impossible⟩ | ⟨_, rfl, impossible⟩
    · cases impossible
    · cases dequeued
      have repo := effect.repo_of_no_write rfl (by rintro pc ⟨⟩)
      obtain ⟨leased, names, user, nobody⟩ :=
        held.granted id _ userId runId lease found (.inl rfl)
      refine ⟨?_, names, ?_, ?_⟩
      · rw [leases]
        exact leased
      · rw [RunManager.userOf, RunManager.getRun, repo]
        exact user
      · intro other run stored active
        rw [RunManager.getRun, repo] at stored
        exact nobody other run stored active
    · cases impossible
    · cases impossible

/-- Where no other call is in progress, what becomes of one call is the only one. -/
theorem only_after {p : Pending} {id id' : Nat} {next : Option Call} {other : Call}
    (quiet : ∀ id', id' ≠ id → p id' = none) (found : Function.update p id next id' = some other) :
    id' = id ∧ next = some other := by
  by_cases here : id' = id
  · subst here
    rw [Function.update_self] at found
    exact ⟨rfl, found⟩
  · rw [Function.update_of_ne here, quiet id' here] at found
    cases found

theorem resume (held : Exclusive m p) (lanes : Lanes m p) (found : p id = some call)
    (safe : LeaseSafe now m random call) :
    Exclusive (call.resume m now random).manager
      (Function.update p id (Call.pending (call.resume m now random))) := by
  -- the resumed call is the only one, so what is left of it is the only one too
  have only {id' : Nat} {other : Call}
      (found' : Function.update p id (Call.pending (call.resume m now random)) id' = some other) :
      id' = id ∧ Call.pending (call.resume m now random) = some other := by
    apply only_after _ found'
    intro id'' different
    cases got : p id'' with
    | none => rfl
    | some call' => exact absurd (held.alone id'' id call' call got found) different
  constructor
  · exact held.known_after safe
  · intro first second one other found' found''
    rw [(only found').1, (only found'').1]
  · intro runId after stored waiting
    obtain ⟨run, before, -, rewrites⟩ := (Call.resume_effect m now random call).before stored
    cases rewrites with
    | kept state token =>
        rw [token]
        exact held.fresh runId run before (state.symm.trans waiting)
    | marked userId lease marks state token =>
        rw [state] at waiting
        cases waiting
    | moved snapshot inside valid token =>
        rw [waiting, never_back_to_queued] at valid
        cases valid
  · intro id' next runId run found' reads
    obtain ⟨read, repo⟩ := Call.next_reads (only found').2 reads
    rw [RunManager.getRun, repo]
    rcases read with earlier | now'
    · exact held.read id call runId run found earlier
    · exact now'
  · intro id' next userId runId lease found' holds
    exact held.granted_after lanes found safe (only found').2 holds
  · intro runId after stored active
    rcases held.backed_resume found safe stored active with backed | ⟨next, target, goes, rest⟩
    · exact .inl backed
    · exact .inr ⟨id, next, target, (Function.update_self _ _ _).trans goes, rest⟩
  · intro runId runId' after after' stored stored' active active' same
    exact held.single_after found stored stored' active active' same

theorem reads_start {request : Request} {runId : RunId} {run : Run}
    (reads : (Call.start m now request).2.reads = some (runId, run)) :
    (Call.start m now request).1.getRun runId = some run := by
  have read (id : RunId) (call : Option Run → Call) (absent : (call none).reads = none)
      (present : ∀ stored, (call (some stored)).reads = some (id, stored))
      (started : (call (m.getRun id)).reads = some (runId, run)) : m.getRun runId = some run := by
    cases got : m.getRun id with
    | none =>
        rw [got, absent] at started
        cases started
    | some stored =>
        rw [got, present] at started
        cases started
        exact got
  cases request with
  | createRun random input => cases reads
  | acquireNextRun userId => cases reads
  | startRun id =>
      exact read id (fun run => .startRun id (.transition (.loaded run))) rfl (fun _ => rfl) reads
  | cancelRun id reason =>
      exact read id (fun run => .cancelRun id reason (.loaded run)) rfl (fun _ => rfl) reads
  | completeRun id finalMessages =>
      exact read id (fun run => .completeRun id finalMessages (.loaded run)) rfl (fun _ => rfl) reads
  | failRun id error =>
      exact read id (fun run => .failRun id error (.loaded run)) rfl (fun _ => rfl) reads

theorem begin (held : Exclusive m p) (quiet : ∀ id, p id = none) (id : Nat) (request : Request)
    (fresh : ∀ random input, request = .createRun random input →
      m.stateOf (RunManager.newRunId now random) = none) :
    Exclusive (Call.start m now request).1
      (Function.update p id (some (Call.start m now request).2)) := by
  have leases : (Call.start m now request).1.leaseManager = m.leaseManager := by
    cases request <;> rfl
  -- a stored run was stored before or is the new one, which waits and has no lease
  have before {runId : RunId} {run : Run}
      (stored : (Call.start m now request).1.getRun runId = some run) :
      m.getRun runId = some run ∨ (run.state = .queued ∧ run.leaseToken = none) := by
    rcases Call.start_getRun m now request runId with same | ⟨random, input, -, -, new⟩
    · exact .inl (same.symm.trans stored)
    · rw [new] at stored
      cases stored
      exact .inr ⟨rfl, rfl⟩
  have live {runId : RunId} {run : Run}
      (stored : (Call.start m now request).1.getRun runId = some run)
      (active : isActiveState run.state = true) : m.getRun runId = some run := by
    rcases before stored with earlier | ⟨waiting, -⟩
    · exact earlier
    · rw [waiting] at active
      cases active
  have only {id' : Nat} {other : Call}
      (found : Function.update p id (some (Call.start m now request).2) id' = some other) :
      id' = id ∧ (Call.start m now request).2 = other := by
    obtain ⟨here, same⟩ := only_after (fun id' _ => quiet id') found
    exact ⟨here, Option.some.inj same⟩
  constructor
  · rw [leases]
    exact held.known
  · intro first second one other found found'
    rw [(only found).1, (only found').1]
  · intro runId run stored waiting
    rcases before stored with earlier | ⟨-, none⟩
    · exact held.fresh runId run earlier waiting
    · exact none
  · intro id' call runId run found reads
    obtain ⟨-, rfl⟩ := only found
    exact reads_start reads
  · intro id' call userId runId lease found holds
    obtain ⟨-, rfl⟩ := only found
    cases request <;> rcases holds with same | same <;> cases same
  · intro runId run stored active
    rcases held.backed runId run (live stored active) active with ⟨lease, leased, rest⟩ |
      ⟨id', call, _, found, -⟩
    · refine .inl ⟨lease, ?_, rest⟩
      rw [leases]
      exact leased
    · rw [quiet id'] at found
      cases found
  · intro runId runId' run run' stored stored' active active'
    exact held.single runId runId' run run' (live stored active) (live stored' active') active
      active'

theorem fire (held : Exclusive m p) (quiet : ∀ id, p id = none) (id : Nat) (runId : RunId)
    (timeoutManager : InMemoryTimeoutManager TimeoutCallback) :
    Exclusive { m with timeoutManager }
      (Function.update p id (some (.timeoutRun runId (m.timeoutRun runId)))) := by
  have only {id' : Nat} {other : Call}
      (found : Function.update p id (some (.timeoutRun runId (m.timeoutRun runId))) id' =
        some other) : id' = id ∧ .timeoutRun runId (m.timeoutRun runId) = other := by
    obtain ⟨here, same⟩ := only_after (fun id' _ => quiet id') found
    exact ⟨here, Option.some.inj same⟩
  constructor
  · exact held.known
  · intro first second one other found found'
    rw [(only found).1, (only found').1]
  · exact held.fresh
  · intro id' call other run found reads
    obtain ⟨-, rfl⟩ := only found
    cases got : m.getRun runId with
    | none =>
        simp only [RunManager.timeoutRun] at reads
        rw [show m.repo.getById runId = none from got] at reads
        cases reads
    | some stored =>
        simp only [RunManager.timeoutRun] at reads
        rw [show m.repo.getById runId = some stored from got] at reads
        cases reads
        exact got
  · intro id' call userId other lease found holds
    obtain ⟨-, rfl⟩ := only found
    rcases holds with same | same <;> cases same
  · intro other run stored active
    rcases held.backed other run stored active with backed | ⟨id', call, _, found, -⟩
    · exact .inl backed
    · rw [quiet id'] at found
      cases found
  · exact held.single

end Exclusive

namespace Pool

def Label.starts : Label → Bool
  | .begin _ _ => true
  | .fire _ _ => true
  | _ => false

def Label.random : Label → String
  | .resume _ random => random
  | _ => ""

def FreshToken (p : Pool) (label : Label) : Prop :=
  ∀ resumed ∈ p.resumed label, ∀ asked ∈ resumed.2.leases,
    (p.manager.leaseManager.isActive p.now asked.1).2 = false →
      p.manager.leaseManager.tokenToUser.has
        (InMemoryLeaseManager.newToken p.now label.random) = false

instance (p : Pool) (label : Label) : Decidable (p.FreshToken label) :=
  inferInstanceAs (Decidable (∀ resumed ∈ p.resumed label, ∀ asked ∈ resumed.2.leases, _))

/-- Calls that do not overlap, with new run ids and lease tokens. -/
def Sequential (p : Pool) (label : Label) : Prop :=
  p.FreshRun label ∧ p.FreshToken label ∧
    (label.starts = true → p.calls.entries.isEmpty = true)

instance (p : Pool) (label : Label) : Decidable (p.Sequential label) :=
  inferInstanceAs (Decidable (_ ∧ _ ∧ (_ → _)))

/-- No lease ends before its run does: one that `acquireNextRun` finds expired belongs to no
active run, and one that is given back is followed by a transition that the table has. -/
def LeaseKept (p : Pool) (label : Label) : Prop :=
  ∀ resumed ∈ p.resumed label,
    (∀ asked ∈ resumed.2.leases, ∀ lease ∈ p.manager.leaseManager.leases.get asked.1,
      lease.expiresAt ≤ p.now →
        ∀ state ∈ p.manager.stateOf lease.runId, isActiveState state = false) ∧
    ∀ given ∈ resumed.2.gives, ∀ token ∈ truthy given.2.1.leaseToken,
      (p.manager.leaseManager.held token).isSome = true →
        isValidStateTransition given.2.1.state given.2.2 = true

instance (p : Pool) (label : Label) : Decidable (p.LeaseKept label) :=
  inferInstanceAs (Decidable (∀ resumed ∈ p.resumed label,
    (∀ asked ∈ resumed.2.leases, ∀ lease ∈ p.manager.leaseManager.leases.get asked.1, _) ∧
      ∀ given ∈ resumed.2.gives, ∀ token ∈ truthy given.2.1.leaseToken, _))

def KeepsLeases (p : Pool) (label : Label) : Prop := p.Sequential label ∧ p.LeaseKept label

instance (p : Pool) (label : Label) : Decidable (p.KeepsLeases label) :=
  inferInstanceAs (Decidable (_ ∧ _))

theorem KeepsLeases.safe {p : Pool} {id : Nat} {random : String} {call : Call}
    (keeps : p.KeepsLeases (.resume id random)) (found : p.calls.get id = some call) :
    LeaseSafe p.now p.manager random call := by
  have resumed : (id, call) ∈ p.resumed (.resume id random) := by
    simp [Pool.resumed, found]
  constructor
  · intro userId runId lease asks leased old state stored
    exact (keeps.2 (id, call) resumed).1 (userId, runId) asks lease leased old state stored
  · intro userId runId asks inactive
    have unused := keeps.1.2.1 (id, call) resumed (userId, runId) asks inactive
    simp only [EsMap.has, Option.isSome_eq_false_iff, Option.isNone_iff_eq_none] at unused
    exact unused
  · intro runId run target token gives has known
    exact (keeps.2 (id, call) resumed).2 (runId, run, target) gives token has known

theorem exclusive_step {p q : Pool} {label : Label} (keeps : p.KeepsLeases label)
    (lanes : Lanes p.manager p.calls.get) (held : Exclusive p.manager p.calls.get)
    (moved : p.step label = some q) : Exclusive q.manager q.calls.get := by
  have quiet (starts : label.starts = true) (id : Nat) : p.calls.get id = none :=
    (p.calls.entries_eq_nil_iff).mp (List.isEmpty_iff.mp (keeps.1.2.2 starts)) id
  cases label with
  | begin id request =>
      simp only [step] at moved
      split at moved
      · cases moved
      · cases moved
        rw [get_store, store_manager]
        apply held.begin (quiet rfl) id request
        rintro random input rfl
        exact keeps.1.1 _ rfl
  | resume id random =>
      simp only [step] at moved
      split at moved
      · cases moved
      · rename_i call found
        cases moved
        rw [get_store, store_manager]
        exact held.resume lanes found (keeps.safe found)
  | fire id timer =>
      simp only [step] at moved
      split at moved
      · cases moved
      · split at moved
        · cases moved
        · rename_i runId timeoutManager fired
          cases moved
          rw [get_store, store_manager]
          exact held.fire (quiet rfl) id runId timeoutManager
  | tick elapsed =>
      cases moved
      exact held

theorem exclusive_of_reach {config : RunManagerConfig} {now : Int} {p : Pool}
    (reached : Transition.Reach step KeepsLeases (init config now) p) :
    Lanes p.manager p.calls.get ∧ Exclusive p.manager p.calls.get := by
  apply reached.invariant (fun p => Lanes p.manager p.calls.get ∧ Exclusive p.manager p.calls.get)
  · refine ⟨Lanes.init config, InMemoryLeaseManager.known_empty, ?_, ?_, ?_, ?_, ?_, ?_⟩
    · intro id id' call call' found
      cases found
    · intro runId run stored
      cases stored
    · intro id call runId run found
      cases found
    · intro id call userId runId lease found
      cases found
    · intro runId run stored
      cases stored
    · intro runId runId' run run' stored
      cases stored
  · intro s label u keeps held moved
    refine ⟨?_, exclusive_step keeps held.1 held.2 moved⟩
    rcases step_callStep s u label keeps.1.1 moved with ⟨manager, calls⟩ | stepped
    · rw [manager, calls]
      exact held.1
    · exact stepped.lanes held.1

/-- At every point of a run of calls that keep their leases, an owner has at most one run that
is LEASED or RUNNING. -/
theorem one_active_run (config : RunManagerConfig) (now : Int) (p : Pool)
    (reached : Transition.Reach step KeepsLeases (init config now) p) :
    ∀ runId runId' run run', p.manager.getRun runId = some run →
      p.manager.getRun runId' = some run' → isActiveState run.state = true →
        isActiveState run'.state = true → run.userId = run'.userId → runId = runId' :=
  (exclusive_of_reach reached).2.single

def firstLeased : List Label :=
  [.begin 0 (.createRun "a" ⟨some ⟨"acme", "alice"⟩, none, "pack", "hello", none⟩),
    .resume 0 "", .resume 0 "", .resume 0 "",
    .begin 0 (.createRun "b" ⟨some ⟨"acme", "alice"⟩, none, "pack", "again", none⟩),
    .resume 0 "", .resume 0 "", .resume 0 "",
    .begin 0 (.acquireNextRun "acme:alice"),
    .resume 0 "t", .resume 0 "", .resume 0 "", .resume 0 "", .resume 0 ""]

def secondLeased : List Label :=
  [.begin 0 (.acquireNextRun "acme:alice"),
    .resume 0 "u", .resume 0 "", .resume 0 "", .resume 0 "", .resume 0 ""]

theorem second_run_alone :
    ∃ p : Pool, p.manager.stateOf "run_0_b" = some .leased ∧
      ∀ runId run, p.manager.getRun runId = some run → isActiveState run.state = true →
        run.userId = "acme:alice" → runId = "run_0_b" := by
  have ran : (Transition.exec (Transition.guarded step KeepsLeases) (init .default 0)
      (firstLeased ++ [.begin 0 (.cancelRun "run_0_a" none), .resume 0 "", .resume 0 "",
        .resume 0 "", .resume 0 "", .resume 0 ""] ++ secondLeased)).map
        (fun p => (p.manager.stateOf "run_0_b", p.manager.userOf "run_0_b")) =
      some (some .leased, some "acme:alice") := by decide +kernel
  obtain ⟨p, reached, observed⟩ := Transition.reach_of_observed _ _ ran
  obtain ⟨leased, user⟩ := Prod.mk.inj observed
  refine ⟨p, leased, ?_⟩
  intro runId run stored active same
  obtain ⟨other, stored', state⟩ := Option.map_eq_some_iff.mp leased
  have owner : other.userId = "acme:alice" := by
    rw [RunManager.userOf, stored'] at user
    exact Option.some.inj user
  have active' : isActiveState other.state = true := by
    rw [state]
    rfl
  exact one_active_run .default 0 p reached runId "run_0_b" run other stored stored' active active'
    (same.trans owner.symm)

/-- The lease of the first run runs out after 30 seconds, and the second run is leased too. -/
theorem both_runs_active :
    ¬∀ p : Pool, Transition.Reach step Sequential (init .default 0) p →
      ∀ runId runId' run run', p.manager.getRun runId = some run →
        p.manager.getRun runId' = some run' → isActiveState run.state = true →
          isActiveState run'.state = true → run.userId = run'.userId → runId = runId' := by
  intro always
  have ran : (Transition.exec (Transition.guarded step Sequential) (init .default 0)
      (firstLeased ++ [.tick 30000] ++ secondLeased)).map
        (fun p => ((p.manager.getRun "run_0_a").map (fun run => (run.state, run.userId)),
          (p.manager.getRun "run_0_b").map (fun run => (run.state, run.userId)))) =
      some (some (.leased, "acme:alice"), some (.leased, "acme:alice")) := by decide +kernel
  obtain ⟨p, reached, observed⟩ := Transition.reach_of_observed _ _ ran
  obtain ⟨first, second⟩ := Prod.mk.inj observed
  obtain ⟨run, stored, pair⟩ := Option.map_eq_some_iff.mp first
  obtain ⟨run', stored', pair'⟩ := Option.map_eq_some_iff.mp second
  obtain ⟨state, user⟩ := Prod.mk.inj pair
  obtain ⟨state', user'⟩ := Prod.mk.inj pair'
  have same := always p reached "run_0_a" "run_0_b" run run' stored stored' (by rw [state]; rfl)
    (by rw [state']; rfl) (user.trans user'.symm)
  revert same
  decide +kernel

end Pool

end Minerva
