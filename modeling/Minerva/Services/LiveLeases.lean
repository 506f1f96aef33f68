import Minerva.Services.Signals
import Minerva.Services.SingleActive

/-! An unexpired lease names an active run once the calls are done, as long as every call that
ends a run has caught the run's lease by the time it validates the ending. -/

namespace Minerva

deriving instance DecidableEq for Lease

namespace Call

/-- The ending that a call is about to validate. Its release of the lease is behind it. -/
def validates (call : Call) : Option (RunId × RunState) :=
  match call with
  | .cancelRun runId _ _ => call.cancels.map (fun _ => (runId, .cancelled))
  | .timeoutRun runId _ => call.cancels.map (fun _ => (runId, .timedOut))
  | .completeRun runId _ _ => call.forgets.map (fun _ => (runId, .completed))
  | .failRun runId _ _ => call.forgets.map (fun _ => (runId, .failed))
  | _ => none

def unmarked : Call → Option (UserId × RunId × Lease)
  | .acquireNextRun userId (.leased nextRunId (some lease)) => some (userId, nextRunId, lease)
  | .acquireNextRun userId (.dequeued nextRunId lease) => some (userId, nextRunId, lease)
  | _ => none

def marksWith : Call → Option (UserId × RunId × Lease)
  | .acquireNextRun userId (.dequeued nextRunId lease) => some (userId, nextRunId, lease)
  | _ => none

variable {m : RunManager} {now : Int} {random : String} {call next : Call} {runId : RunId}
  {newState : RunState}

theorem end_validates {metadata : TransitionMetadata} {before : EndPc} {run : Run}
    (awaits : (m.endRunResume now runId newState metadata before).progress =
      .await (.transition (.loaded (some run)))) :
    (∃ run, before = .loaded (some run) ∧ truthy run.leaseToken = none) ∨ before = .released := by
  rcases end_await awaits with ⟨_, -, -, impossible⟩ | ⟨place, -⟩ | ⟨inner, last, -, same, step⟩
  · cases impossible
  · exact place
  · cases same
    rcases transition_await step with ⟨_, _, -, -, -, impossible⟩ | ⟨_, -, -, impossible⟩
    · cases impossible
    · cases impossible

theorem validates_next (goes : pending (call.resume m now random) = some next)
    (writes : next.write = some (runId, newState)) (terminal : isTerminalState newState = true) :
    call.validates = some (runId, newState) := by
  rcases write_eq_some writes with ⟨userId, lease, rfl, rfl⟩ | ⟨run, inside, -⟩
  · cases terminal
  · have cancelled (either : newState = .cancelled ∨ newState = .timedOut) :
        ∃ reason, call.cancels = some (runId, reason) := dooms_next goes (dooms_of_write writes either)
    unfold transition at inside
    split at inside <;> cases inside
    · cases terminal
    · obtain ⟨reason, cancels⟩ := cancelled (.inl rfl)
      obtain ⟨pc, rfl, -⟩ := pending_cancelRun goes
      simp only [validates, cancels, Option.map_some]
    · obtain ⟨reason, cancels⟩ := cancelled (.inr rfl)
      obtain ⟨pc, rfl, -⟩ := pending_timeoutRun goes
      simp only [validates, cancels, Option.map_some]
    · obtain ⟨pc, rfl, awaits⟩ := pending_completeRun goes
      rcases end_validates awaits with ⟨before, rfl, token⟩ | rfl
      · simp only [validates, forgets, token, if_true, Option.map_some]
      · rfl
    · obtain ⟨pc, rfl, awaits⟩ := pending_failRun goes
      rcases end_validates awaits with ⟨before, rfl, token⟩ | rfl
      · simp only [validates, forgets, token, if_true, Option.map_some]
      · rfl

theorem unmarked_cases {userId : UserId} {lease : Lease}
    (holds : call.unmarked = some (userId, runId, lease)) :
    call = .acquireNextRun userId (.leased runId (some lease)) ∨
      call = .acquireNextRun userId (.dequeued runId lease) := by
  unfold unmarked at holds
  split at holds <;> cases holds
  · exact .inl rfl
  · exact .inr rfl

theorem lease_before (m : RunManager) (now : Int) (random : String) (call : Call)
    {userId : UserId} {lease : Lease}
    (found : (call.resume m now random).manager.leaseManager.leases.get userId = some lease) :
    m.leaseManager.leases.get userId = some lease ∨
      ∃ next, pending (call.resume m now random) = some next ∧
        next.unmarked = some (userId, lease.runId, lease) := by
  have leases := resume_leases m now random call
  rw [leases] at found
  unfold leasesAfter at found
  split at found
  · rename_i user asked asks
    by_cases falsy : asked = ""
    · rw [if_pos falsy] at found
      exact .inl found
    · rw [if_neg falsy] at found
      rcases m.leaseManager.acquire_cases now random user asked m.config.leaseTtlMs with
        ⟨held, -, -, refused⟩ | ⟨-, after, acquired, table, -⟩
      · rw [refused] at found
        exact .inl found
      · rw [acquired, table] at found
        rcases EsMap.get_set_cases _ user found with ⟨here, rfl⟩ | ⟨-, earlier⟩
        · right
          unfold Call.leases at asks
          split at asks <;> cases asks
          refine ⟨.acquireNextRun user (.leased asked
            (some ⟨asked, InMemoryLeaseManager.newToken now random, now,
              now + m.config.leaseTtlMs⟩)), ?_, by rw [here]; rfl⟩
          simp only [resume, pending_settle, RunManager.acquireNextRunResume, if_neg falsy]
          exact ⟨_, rfl, by rw [acquired]⟩
        · exact .inl earlier
  · split at found
    · rename_i run _ gives
      cases token : truthy run.leaseToken with
      | none =>
          rw [token] at found
          exact .inl found
      | some leaseToken =>
          rw [token] at found
          exact .inl (InMemoryLeaseManager.get_of_release found)
    · exact .inl found

theorem start_leases (m : RunManager) (now : Int) (request : Request) :
    (start m now request).1.leaseManager = m.leaseManager := by
  cases request <;> rfl

theorem start_writes (m : RunManager) (now : Int) (request : Request)
    (writes : (start m now request).2.write = some (runId, newState)) :
    isTerminalState newState = false := by
  rcases write_eq_some writes with ⟨userId, lease, started, -⟩ | ⟨run, inside, -⟩
  · cases request <;> cases started
  · cases request with
    | startRun id =>
        have target := congrArg (Option.map (fun place => place.2.1)) inside
        cases target
        rfl
    | _ => cases inside

end Call

structure Catches (m : RunManager) (now : Int) (p : Pending) (id : Nat) (call : Call) : Prop where
  validates : ∀ runId target state, call.validates = some (runId, target) →
    m.stateOf runId = some state → isValidStateTransition state target = true →
    ∀ userId lease, m.leaseManager.leases.get userId = some lease → lease.runId = runId →
      now < lease.expiresAt →
        ∃ id' other, p id' = some other ∧ other.unmarked = some (userId, runId, lease)
  marks : ∀ userId runId lease, call.marksWith = some (userId, runId, lease) →
    m.leaseManager.leases.get userId = some lease → now < lease.expiresAt →
    ∀ id' other newState, id' ≠ id → p id' = some other →
      other.write = some (runId, newState) → isTerminalState newState = false

/-- A run is LEASED or RUNNING, and no call is bound to end it. -/
structure Kept (m : RunManager) (p : Pending) (runId : RunId) : Prop where
  active : ∃ state, m.stateOf runId = some state ∧ isActiveState state = true
  unended : ∀ id call newState, p id = some call → call.write = some (runId, newState) →
    isTerminalState newState = false

/-- The run of an unexpired lease is still to be marked with it, or it is kept. -/
def Honoured (m : RunManager) (now : Int) (p : Pending) : Prop :=
  ∀ userId lease, m.leaseManager.leases.get userId = some lease → now < lease.expiresAt →
    (∃ id call, p id = some call ∧ call.unmarked = some (userId, lease.runId, lease)) ∨
      Kept m p lease.runId

theorem Honoured.later {m : RunManager} {now later : Int} {p : Pending}
    (honoured : Honoured m now p) (after : now ≤ later) : Honoured m later p := by
  intro userId lease found live
  exact honoured userId lease found (by omega)

theorem Honoured.init (config : RunManagerConfig) (now : Int) :
    Honoured (RunManager.init config) now (fun _ => none) := by
  intro userId lease found
  cases found

theorem Call.active_after {m : RunManager} {now : Int} {random : String} {call : Call}
    {runId : RunId} (active : ∃ state, m.stateOf runId = some state ∧ isActiveState state = true)
    (unended : ∀ newState, call.write = some (runId, newState) →
      isTerminalState newState = false) :
    ∃ state, (call.resume m now random).manager.stateOf runId = some state ∧
      isActiveState state = true := by
  obtain ⟨state, stored, live⟩ := active
  rcases (resume_effect m now random call).stateOf runId with same |
    ⟨before, newState, -, writes, after⟩
  · exact ⟨state, same.trans stored, live⟩
  · refine ⟨newState, after, ?_⟩
    apply active_of_live newState (write_not_queued writes) (unended newState writes)

theorem Lanes.marked {m : RunManager} {now : Int} {random : String} {p : Pending}
    (lanes : Lanes m p) {id : Nat} {userId : UserId} {runId : RunId} {lease : Lease}
    (found : p id = some (.acquireNextRun userId (.dequeued runId lease))) :
    (Call.resume m now random (.acquireNextRun userId (.dequeued runId lease))).manager.stateOf
      runId = some .leased := by
  obtain ⟨stored, -⟩ := lanes.named id _ userId runId found (.inr rfl)
  obtain ⟨run, held, -⟩ := Option.map_eq_some_iff.mp stored
  apply Call.resume_writes m now random _ runId run.state .leased rfl
  rw [RunManager.stateOf, held]
  rfl

section Resume

variable {m : RunManager} {now : Int} {p : Pending} {id : Nat} {call : Call}

/-- The granted lease is carried on until the run is marked with it. -/
theorem Honoured.carried (lanes : Lanes m p) (found : p id = some call)
    (catching : Catches m now p id call) (random : String) {userId : UserId} {lease : Lease}
    (stored : m.leaseManager.leases.get userId = some lease) (live : now < lease.expiresAt)
    (holds : call.unmarked = some (userId, lease.runId, lease)) :
    (∃ next, Call.pending (call.resume m now random) = some next ∧
        next.unmarked = some (userId, lease.runId, lease)) ∨
      Kept (call.resume m now random).manager
        (Function.update p id (Call.pending (call.resume m now random))) lease.runId := by
  rcases Call.unmarked_cases holds with rfl | rfl
  · exact .inl ⟨_, rfl, rfl⟩
  · right
    refine ⟨⟨.leased, lanes.marked found, rfl⟩, ?_⟩
    intro id' other newState found' writes
    rw [Function.update_apply] at found'
    split at found'
    · by_contra ending
      have terminal : isTerminalState newState = true := by simpa using ending
      cases Call.validates_next found' writes terminal
    · rename_i different
      exact catching.marks userId lease.runId lease rfl stored live id' other newState different
        found' writes

/-- A kept run stays kept, unless the resumed call validates its ending. -/
theorem Kept.resume {runId : RunId} (kept : Kept m p runId) (found : p id = some call)
    (random : String)
    (refused : ∀ target state, call.validates = some (runId, target) → m.stateOf runId = some state →
      isValidStateTransition state target = false) :
    Kept (call.resume m now random).manager
      (Function.update p id (Call.pending (call.resume m now random))) runId := by
  constructor
  · exact Call.active_after kept.active (fun newState => kept.unended id call newState found)
  · intro id' other newState found' writes
    rw [Function.update_apply] at found'
    split at found'
    · by_contra ending
      have terminal : isTerminalState newState = true := by simpa using ending
      have validated := Call.validates_next found' writes terminal
      obtain ⟨silent, earlier | ⟨state, stored, valid⟩ | ⟨userId, -, -, rfl⟩⟩ :=
        Call.commits_next found' (Call.commits_of_write writes)
      · rcases Call.commits_eq_some earlier with ⟨userId, lease, rfl, rfl⟩ | impossible
        · cases terminal
        · rw [silent] at impossible
          cases impossible
      · rw [refused newState state validated stored] at valid
        cases valid
      · cases terminal
    · exact kept.unended id' other newState found' writes

theorem Honoured.resume (honoured : Honoured m now p) (lanes : Lanes m p)
    (found : p id = some call) (catching : Catches m now p id call) (random : String) :
    Honoured (call.resume m now random).manager now
      (Function.update p id (Call.pending (call.resume m now random))) := by
  intro userId lease held_after live
  let after := Function.update p id (Call.pending (call.resume m now random))
  have own {next : Call} (goes : Call.pending (call.resume m now random) = some next) :
      after id = some next := (Function.update_self _ _ _).trans goes
  have others {id' : Nat} {other : Call} (found' : p id' = some other) (different : id' ≠ id) :
      after id' = some other := (Function.update_of_ne different _ _).trans found'
  rcases Call.lease_before m now random call held_after with stored | ⟨next, goes, holds⟩
  · -- the lease was there: its holder goes on, or its run is kept
    have held (id' : Nat) (other : Call) (found' : p id' = some other)
        (holds : other.unmarked = some (userId, lease.runId, lease)) :
        (∃ id'' other', after id'' = some other' ∧
            other'.unmarked = some (userId, lease.runId, lease)) ∨
          Kept (call.resume m now random).manager after lease.runId := by
      by_cases here : id' = id
      · subst here
        rw [found] at found'
        cases found'
        rcases Honoured.carried lanes found catching random stored live holds with
          ⟨next, goes, holds'⟩ | kept
        · exact .inl ⟨id', next, own goes, holds'⟩
        · exact .inr kept
      · exact .inl ⟨id', other, others found' here, holds⟩
    rcases honoured userId lease stored live with ⟨id', other, found', holds⟩ | kept
    · exact held id' other found' holds
    · by_cases caught : ∃ id' other, p id' = some other ∧
          other.unmarked = some (userId, lease.runId, lease)
      · obtain ⟨id', other, found', holds⟩ := caught
        exact held id' other found' holds
      · right
        apply kept.resume found random
        intro target state validated known
        by_contra valid
        apply caught
        apply catching.validates lease.runId target state validated known (by simpa using valid)
          userId lease stored rfl live
  · exact .inl ⟨id, next, own goes, holds⟩

end Resume

theorem CallStep.keeps_leases {now : Int} {m m' : RunManager} {p p' : Pending}
    (step : CallStep now m p none m' p') : m'.leaseManager.leases = m.leaseManager.leases := by
  cases step with
  | begin id request free fresh => rw [Call.start_leases]
  | fire id timer free runId timeoutManager fired => rfl
  | listen listener signal => rfl

theorem CallStep.honoured {now : Int} {m m' : RunManager} {p p' : Pending}
    {resumed : Option (Nat × Call)} (step : CallStep now m p resumed m' p') (lanes : Lanes m p)
    (catching : ∀ id call, resumed = some (id, call) → Catches m now p id call)
    (honoured : Honoured m now p) : Honoured m' now p' := by
  cases resumed with
  | some resuming =>
      cases step with
      | resume id call random found => exact honoured.resume lanes found (catching id call rfl) random
  | none =>
      intro userId lease found live
      rw [step.keeps_leases] at found
      rcases honoured userId lease found live with ⟨id', other, found', holds⟩ | kept
      · exact .inl ⟨id', other, step.remains found' (by simp), holds⟩
      · right
        constructor
        · obtain ⟨state, stored, active⟩ := kept.active
          exact ⟨state, step.keeps_stateOf stored, active⟩
        · intro id' other newState found' writes
          cases step.origin found' with
          | stays _ _ _ found' elsewhere => exact kept.unended id' other newState found' writes
          | begins request free fresh => exact Call.start_writes m now request writes
          | fires runId timeoutManager free => cases writes

namespace Pool

/-- A call that validates an ending leaves no unexpired lease on the run, but for one that an
acquiring call is still to mark the run with. -/
def LeavesNoLease (p : Pool) (call : Call) : Prop :=
  ∀ ending ∈ call.validates, ∀ state ∈ p.manager.stateOf ending.1,
    isValidStateTransition state ending.2 = true →
      ∀ entry ∈ p.manager.leaseManager.leases.entries,
        entry.2.runId = ending.1 → p.now < entry.2.expiresAt →
          ∃ other ∈ p.calls.values, other.unmarked = some (entry.1, ending.1, entry.2)

instance (p : Pool) (call : Call) : Decidable (p.LeavesNoLease call) :=
  inferInstanceAs (Decidable (∀ ending ∈ call.validates, ∀ state ∈ p.manager.stateOf ending.1,
    isValidStateTransition state ending.2 = true →
      ∀ entry ∈ p.manager.leaseManager.leases.entries, _ → _ →
        ∃ other ∈ p.calls.values, _))

/-- No other call is bound to end the run that the call `id` marks with an unexpired lease. -/
def MarksUnended (p : Pool) (id : Nat) (call : Call) : Prop :=
  ∀ marked ∈ call.marksWith, p.manager.leaseManager.leases.get marked.1 = some marked.2.2 →
    p.now < marked.2.2.expiresAt → ∀ other ∈ p.others id, ∀ write ∈ other.write,
      write.1 = marked.2.1 → isTerminalState write.2 = false

instance (p : Pool) (id : Nat) (call : Call) : Decidable (p.MarksUnended id call) :=
  inferInstanceAs (Decidable (∀ marked ∈ call.marksWith, _ → _ → ∀ other ∈ p.others id,
    ∀ write ∈ other.write, write.1 = marked.2.1 → _))

/-- Every lease is caught by the call that ends its run. -/
def LeaseCaught (p : Pool) (label : Label) : Prop :=
  p.FreshRun label ∧ ∀ resumed ∈ p.resumed label,
    p.LeavesNoLease resumed.2 ∧ p.MarksUnended resumed.1 resumed.2

instance (p : Pool) (label : Label) : Decidable (p.LeaseCaught label) :=
  inferInstanceAs (Decidable (_ ∧ ∀ resumed ∈ p.resumed label, _ ∧ _))

theorem LeaseCaught.catches {p : Pool} {label : Label} (caught : p.LeaseCaught label) (id : Nat)
    (call : Call) (resumed : p.resumed label = some (id, call)) :
    Catches p.manager p.now p.calls.get id call := by
  constructor
  · intro runId target state validated stored valid userId lease found named live
    have entry := (p.manager.leaseManager.leases.get_eq_some_iff userId lease).mp found
    obtain ⟨other, member, holds⟩ := (caught.2 (id, call) resumed).1 (runId, target) validated
      state stored valid (userId, lease) entry named live
    obtain ⟨id', found'⟩ := (p.calls.mem_values_iff other).mp member
    exact ⟨id', other, found', holds⟩
  · intro userId runId lease marks found live id' other newState different found' writes
    have member := (p.mem_others id other).mpr ⟨id', different, found'⟩
    exact (caught.2 (id, call) resumed).2 (userId, runId, lease) marks found live other member
      (runId, newState) writes rfl

theorem now_le_step (p q : Pool) (label : Label) (moved : p.step label = some q) :
    p.now ≤ q.now := by
  have kept (manager : RunManager) (id : Nat) (call : Option Call) :
      p.now ≤ (p.store manager id call).now := by
    apply Int.le_of_eq
    cases call <;> rfl
  cases label with
  | begin id request =>
      simp only [step] at moved
      split at moved <;> cases moved
      exact kept _ _ _
  | resume id random =>
      simp only [step] at moved
      split at moved <;> cases moved
      exact kept _ _ _
  | fire id timer =>
      simp only [step] at moved
      split at moved
      · cases moved
      · split at moved <;> cases moved
        exact kept _ _ _
  | tick elapsed =>
      cases moved
      show p.now ≤ p.now + elapsed
      omega

theorem honoured_of_reach {config : RunManagerConfig} {now : Int} {p : Pool}
    (reached : Transition.Reach step LeaseCaught (init config now) p) :
    Lanes p.manager p.calls.get ∧ Honoured p.manager p.now p.calls.get := by
  apply reached.invariant (fun p => Lanes p.manager p.calls.get ∧
    Honoured p.manager p.now p.calls.get) ⟨Lanes.init config, Honoured.init config now⟩
  rintro s label u caught ⟨lanes, honoured⟩ moved
  have later : s.now ≤ u.now := now_le_step s u label moved
  rcases step_callStep s u label caught.1 moved with ⟨manager, calls⟩ | stepped
  · rw [manager, calls]
    exact ⟨lanes, honoured.later later⟩
  · exact ⟨stepped.lanes lanes, (stepped.honoured lanes caught.catches honoured).later later⟩

/-- Whenever no call is in progress, the run that an unexpired lease names is LEASED or RUNNING:
in every run in which the calls that end a run have caught its lease. -/
theorem live_leases_name_active_runs (config : RunManagerConfig) (now : Int) (p : Pool)
    (reached : Transition.Reach step LeaseCaught (init config now) p) (quiet : p.Quiescent) :
    ∀ userId lease, p.manager.leaseManager.leases.get userId = some lease →
      p.now < lease.expiresAt →
        ∃ run, p.manager.getRun lease.runId = some run ∧ isActiveState run.state = true := by
  intro userId lease found live
  rcases (honoured_of_reach reached).2 userId lease found live with ⟨id, call, busy, -⟩ | kept
  · rw [(p.calls.entries_eq_nil_iff).mp quiet id] at busy
    cases busy
  · obtain ⟨state, stored, active⟩ := kept.active
    obtain ⟨run, held, rfl⟩ := Option.map_eq_some_iff.mp stored
    exact ⟨run, held, active⟩

theorem leased_run_is_active :
    ∃ p : Pool, (p.manager.leaseManager.leases.get "acme:alice").map Lease.runId =
        some "run_0_a" ∧
      ∀ userId lease, p.manager.leaseManager.leases.get userId = some lease →
        p.now < lease.expiresAt →
          ∃ run, p.manager.getRun lease.runId = some run ∧ isActiveState run.state = true := by
  have ran : (Transition.exec (Transition.guarded step LeaseCaught) (init .default 0)
      firstLeased).map (fun p => (p.calls.entries.isEmpty,
        (p.manager.leaseManager.leases.get "acme:alice").map Lease.runId)) =
      some (true, some "run_0_a") := by decide +kernel
  obtain ⟨p, reached, observed⟩ := Transition.reach_of_observed _ _ ran
  obtain ⟨quiet, leased⟩ := Prod.mk.inj observed
  exact ⟨p, leased, live_leases_name_active_runs .default 0 p reached (List.isEmpty_iff.mp quiet)⟩

/-- `cancelRun` reads the run before `acquireNextRun` marks it, and goes on with a snapshot
that carries no token. -/
def cancelledWhileLeased : List Label :=
  [.begin 0 (.createRun "a" ⟨some ⟨"acme", "alice"⟩, none, "pack", "hello", none⟩),
    .resume 0 "", .resume 0 "", .resume 0 "",
    .begin 0 (.acquireNextRun "acme:alice"), .resume 0 "t",
    .begin 1 (.cancelRun "run_0_a" none), .resume 1 "",
    .resume 0 "", .resume 0 "", .resume 0 "", .resume 0 "",
    .resume 1 "", .resume 1 "", .resume 1 "", .resume 1 ""]

/-- The lease of a cancelled run blocks its owner's lane. -/
theorem cancelled_run_keeps_the_lease :
    ¬∀ p : Pool, Transition.Reach step FreshRun (init .default 0) p → p.Quiescent →
      ∀ userId lease, p.manager.leaseManager.leases.get userId = some lease →
        p.now < lease.expiresAt →
          ∃ run, p.manager.getRun lease.runId = some run ∧ isActiveState run.state = true := by
  intro always
  have ran : (Transition.exec (Transition.guarded step FreshRun) (init .default 0)
      cancelledWhileLeased).map (fun p => (p.calls.entries.isEmpty,
        (p.manager.leaseManager.leases.get "acme:alice").map
          (fun lease => (lease.runId, decide (p.now < lease.expiresAt))),
        p.manager.stateOf "run_0_a")) =
      some (true, some ("run_0_a", true), some .cancelled) := by decide +kernel
  obtain ⟨p, reached, observed⟩ := Transition.reach_of_observed _ _ ran
  obtain ⟨quiet, rest⟩ := Prod.mk.inj observed
  obtain ⟨held, cancelled⟩ := Prod.mk.inj rest
  obtain ⟨lease, found, pair⟩ := Option.map_eq_some_iff.mp held
  obtain ⟨named, live⟩ := Prod.mk.inj pair
  obtain ⟨run, stored, active⟩ := always p reached (List.isEmpty_iff.mp quiet) "acme:alice" lease
    found (of_decide_eq_true live)
  rw [named] at stored
  rw [RunManager.stateOf, stored] at cancelled
  rw [Option.some.inj cancelled] at active
  cases active

end Pool

end Minerva
