import Minerva.Services.Queued

namespace Minerva

namespace Call

/-- The QUEUED run that a cancelling call has taken off its queue and not yet cancelled. -/
def abandons : Call → Option RunId
  | .cancelRun runId _ (.removed _) => some runId
  | .cancelRun runId _ (.abandoning (.released _)) => some runId
  | .cancelRun runId _ (.abandoning (.transition _ (.loaded (some run)))) =>
    if run.state = .queued then some runId else none
  | _ => none

def dequeues : Call → Option (UserId × RunId)
  | .acquireNextRun userId (.leased nextRunId (some _)) => some (userId, nextRunId)
  | _ => none

def marks : Call → Option RunId
  | .acquireNextRun _ (.dequeued nextRunId _) => some nextRunId
  | _ => none

theorem next_abandons {m : RunManager} {now : Int} {random : String} {call : Call} {runId : RunId}
    (abandoned : call.abandons = some runId) (waits : m.stateOf runId = some .queued)
    (silent : ∀ newState, call.write ≠ some (runId, newState)) :
    ∃ next, pending (call.resume m now random) = some next ∧ next.abandons = some runId := by
  obtain ⟨stored, found, queued⟩ := Option.map_eq_some_iff.mp waits
  -- `transitionState` has just read the QUEUED run
  have entered (run : Run) (reason : Option String) :
      (Call.cancelRun runId reason (.abandoning (.transition run
        (.loaded (m.getRun runId))))).abandons = some runId := by
    rw [found]
    exact if_pos queued
  unfold abandons at abandoned
  split at abandoned
  · rename_i id reason run
    cases abandoned
    cases token : truthy run.leaseToken with
    | none =>
        refine ⟨_, ?_, entered run reason⟩
        simp only [resume, RunManager.cancelRunResume, RunManager.abandon, token, pending_settle,
          Turn.map, Progress.map_await]
        exact ⟨_, ⟨_, rfl, rfl⟩, rfl⟩
    | some leaseToken =>
        refine ⟨.cancelRun runId reason (.abandoning (.released run)), ?_, rfl⟩
        simp only [resume, RunManager.cancelRunResume, RunManager.abandon, token, pending_settle,
          Turn.map, Progress.map_await]
        exact ⟨_, ⟨_, rfl, rfl⟩, rfl⟩
  · rename_i id reason run
    cases abandoned
    exact ⟨_, rfl, entered run reason⟩
  · rename_i id reason run snapshot
    split at abandoned
    · rename_i before
      cases abandoned
      have valid : isValidStateTransition snapshot.state .cancelled = true := by
        rw [before]
        rfl
      have writes := write_of_transition
        (show (Call.cancelRun runId reason (.abandoning (.transition run
          (.loaded (some snapshot))))).transition = some (runId, .cancelled, _) from rfl) valid
      exact absurd writes (silent .cancelled)
    · cases abandoned
  · cases abandoned

end Call

theorem Call.next_dequeues {m : RunManager} {now : Int} {random : String} {call next : Call}
    {userId : UserId} {runId : RunId} (goes : pending (call.resume m now random) = some next)
    (dequeues : next.dequeues = some (userId, runId)) :
    call.leases = some (userId, runId) ∧ (m.leaseManager.isActive now userId).2 = false := by
  unfold Call.dequeues at dequeues
  split at dequeues
  · cases dequeues
    rename_i lease
    obtain ⟨before, rfl, awaits⟩ := pending_acquireNextRun goes
    rcases acquire_await awaits with ⟨id, rfl, -, asked⟩ | ⟨id, held, rfl, impossible⟩ |
      ⟨id, held, stored, rfl, -, impossible⟩ | ⟨id, rfl, impossible⟩
    · obtain ⟨rfl, granted⟩ := AcquirePc.leased.inj asked
      exact ⟨rfl, (InMemoryLeaseManager.inactive_of_acquire granted.symm).1⟩
    · cases impossible
    · cases impossible
    · cases impossible
  · cases dequeues

/-- The resumed call does not part a leased run from the head of its lane: a lease is granted
only for a run that is still queued, and no run is removed between its lease and its dequeue. -/
structure Undisturbed (now : Int) (m : RunManager) (p : Pending) (resumed : Option (Nat × Call)) :
    Prop where
  leases : ∀ id call userId runId, resumed = some (id, call) →
    call.leases = some (userId, runId) → (m.leaseManager.isActive now userId).2 = false →
      runId ∈ m.queue.getUserRuns userId
  removes : ∀ id call runId, resumed = some (id, call) → call.removes = some runId →
    (m.queue.getPosition runId).isSome → ∀ id' other userId, p id' = some other →
      other.dequeues ≠ some (userId, runId)

def Call.Carries (call : Call) (runId : RunId) : Prop :=
  (∃ run, call.creates = some run ∧ run.id = runId) ∨ call.abandons = some runId ∨
    call.marks = some runId

/-- A call that dequeues takes off the run that it has leased, or finds the lane empty. -/
def Call.TakesOwn (q : InMemoryRunQueue) (call : Call) : Prop :=
  ∀ asked ∈ call.dequeues, ∀ head ∈ q.peek asked.1, head = asked.2

instance (q : InMemoryRunQueue) (call : Call) : Decidable (call.TakesOwn q) :=
  inferInstanceAs (Decidable (∀ asked ∈ call.dequeues, ∀ head ∈ q.peek asked.1, head = asked.2))

/-- Every QUEUED run is in its lane or carried by a call. -/
def Waiting (m : RunManager) (p : Pending) : Prop :=
  ∀ runId userId, m.stateOf runId = some .queued → m.userOf runId = some userId →
    runId ∈ m.queue.getUserRuns userId ∨ ∃ id call, p id = some call ∧ call.Carries runId

/-- A leased run waits at the head of its lane to be dequeued. -/
def Leading (m : RunManager) (p : Pending) : Prop :=
  ∀ id call userId runId, p id = some call → call.dequeues = some (userId, runId) →
    (m.queue.getUserRuns userId).head? = some runId

theorem Waiting.init (config : RunManagerConfig) :
    Waiting (RunManager.init config) (fun _ => none) := by
  intro runId userId waits
  cases waits

theorem Leading.init (config : RunManagerConfig) :
    Leading (RunManager.init config) (fun _ => none) := by
  intro id call userId runId found
  cases found

theorem Leading.takesOwn {m : RunManager} {p : Pending} (leading : Leading m p) {id : Nat}
    {call : Call} (found : p id = some call) : call.TakesOwn m.queue := by
  rintro ⟨userId, runId⟩ dequeues head front
  rw [InMemoryRunQueue.peek_eq_head, leading id call userId runId found dequeues] at front
  exact (Option.some.inj front).symm

theorem Call.heads_of_dequeues {call : Call} {userId : UserId} {runId : RunId}
    (dequeues : call.dequeues = some (userId, runId)) : call.heads = some (userId, runId) := by
  unfold Call.dequeues at dequeues
  split at dequeues <;> cases dequeues
  rfl

theorem Waiting.begin {now : Int} {m : RunManager} {p : Pending} (waiting : Waiting m p) (id : Nat)
    (request : Request) (free : p id = none) :
    Waiting (Call.start m now request).1
      (Function.update p id (some (Call.start m now request).2)) := by
  have queue := Call.start_queue m now request
  intro runId userId waits stored
  rw [queue]
  rcases Call.start_getRun m now request runId with same | ⟨random, input, rfl, rfl, new⟩
  · rw [RunManager.stateOf, same] at waits
    rw [RunManager.userOf, same] at stored
    rcases waiting runId userId waits stored with member | ⟨id', call, found, carries⟩
    · exact .inl member
    · have different : id' ≠ id := by
        rintro rfl
        rw [free] at found
        cases found
      exact .inr ⟨id', call, (Function.update_of_ne different _ _).trans found, carries⟩
  · exact .inr ⟨id, _, Function.update_self _ _ _, .inl ⟨_, rfl, rfl⟩⟩

theorem Call.lane_after {m : RunManager} {call : Call} (now : Int) (random : String)
    (takes : call.TakesOwn m.queue) {userId : UserId} {runId : RunId}
    (member : runId ∈ m.queue.getUserRuns userId) :
    runId ∈ (call.queueAfter m.queue).getUserRuns userId ∨
      ∃ next, Call.pending (call.resume m now random) = some next ∧ next.Carries runId := by
  unfold Call.queueAfter
  split
  · exact .inl ((m.queue.mem_enqueue _ _ _ _).mpr (.inl member))
  · rename_i user asked lease
    rw [InMemoryRunQueue.getUserRuns_dequeue]
    by_cases same : userId = user
    · subst same
      rw [if_pos rfl]
      have own := takes (userId, asked) rfl
      rw [InMemoryRunQueue.peek_eq_head] at own
      cases listed : m.queue.getUserRuns userId with
      | nil =>
          rw [listed] at member
          cases member
      | cons first rest =>
          rw [listed] at own member
          cases own first rfl
          rcases List.mem_cons.mp member with rfl | behind
          · exact .inr ⟨_, rfl, .inr (.inr rfl)⟩
          · exact .inl behind
    · rw [if_neg same]
      exact .inl member
  · rename_i removed reason run
    by_cases waiting : run.state = .queued
    · rw [if_pos waiting]
      by_cases here : runId = removed
      · subst here
        have awaits : Call.pending ((Call.cancelRun runId reason
            (.loaded (some run))).resume m now random) =
            some (.cancelRun runId reason (.removed run)) := by
          have live : isTerminalState RunState.queued = false := rfl
          simp [Call.resume, RunManager.cancelRunResume, live, waiting, Call.pending_settle]
        exact .inr ⟨_, awaits, .inr (.inl rfl)⟩
      · exact .inl (m.queue.mem_remove_of_ne removed runId userId here member)
    · rw [if_neg waiting]
      exact .inl member
  · exact .inl member

/-- A run that the resumed call carries and does not write is queued or carried on. -/
theorem Lanes.carried_after {now : Int} {m : RunManager} {p : Pending} (lanes : Lanes m p)
    {id : Nat} {call : Call} (random : String) (found : p id = some call) {userId : UserId}
    {runId : RunId} (user : m.userOf runId = some userId)
    (waited : m.stateOf runId = some .queued)
    (silent : ∀ newState, call.write ≠ some (runId, newState)) (carries : call.Carries runId) :
    runId ∈ (call.queueAfter m.queue).getUserRuns userId ∨
      ∃ next, Call.pending (call.resume m now random) = some next ∧ next.Carries runId := by
  rcases carries with ⟨run, creates, rfl⟩ | abandoned | marks
  · left
    have mine := (lanes.creating id call run found creates).1
    rw [user] at mine
    cases mine
    unfold Call.creates at creates
    split at creates
    · cases creates
      exact (m.queue.mem_enqueue _ _ _ _).mpr (.inr ⟨rfl, rfl⟩)
    · cases creates
  · obtain ⟨next, awaits, still⟩ := Call.next_abandons abandoned waited silent
    exact .inr ⟨next, awaits, .inr (.inl still)⟩
  · unfold Call.marks at marks
    split at marks
    · cases marks
      exact absurd rfl (silent .leased)
    · cases marks

theorem Waiting.resume {now : Int} {m : RunManager} {p : Pending} (waiting : Waiting m p)
    (lanes : Lanes m p) (id : Nat) (call : Call) (random : String) (found : p id = some call)
    (takes : call.TakesOwn m.queue) :
    Waiting (call.resume m now random).manager
      (Function.update p id (Call.pending (call.resume m now random))) := by
  have queue := Call.resume_queue m now random call
  intro runId userId waits stored
  obtain ⟨waited, silent⟩ := Call.queued_before waits
  have user : m.userOf runId = some userId := by
    have same := (Call.resume_effect m now random call).field Run.userId (fun _ _ => rfl)
      (fun _ _ => rfl) (fun _ _ _ _ => rfl) runId
    exact same.symm.trans stored
  -- the part of the resumed call: the run is in its lane or the call goes on with it
  have mine (after : runId ∈ (call.queueAfter m.queue).getUserRuns userId ∨
      ∃ next, Call.pending (call.resume m now random) = some next ∧ next.Carries runId) :
      runId ∈ (call.queueAfter m.queue).getUserRuns userId ∨ ∃ id' call',
        Function.update p id (Call.pending (call.resume m now random)) id' = some call' ∧
          call'.Carries runId := by
    rcases after with member | ⟨next, awaits, carries⟩
    · exact .inl member
    · exact .inr ⟨id, next, (Function.update_self _ _ _).trans awaits, carries⟩
  rw [queue]
  rcases waiting runId userId waited user with member | ⟨id', other, found', carries⟩
  · exact mine (Call.lane_after now random takes member)
  · by_cases here : id' = id
    · subst here
      rw [found] at found'
      cases found'
      exact mine (lanes.carried_after random found user waited silent carries)
    · exact .inr ⟨id', other, (Function.update_of_ne here _ _).trans found', carries⟩

theorem CallStep.waiting {now : Int} {m m' : RunManager} {p p' : Pending}
    {resumed : Option (Nat × Call)} (step : CallStep now m p resumed m' p') (lanes : Lanes m p)
    (takes : ∀ id call, resumed = some (id, call) → call.TakesOwn m.queue)
    (waiting : Waiting m p) : Waiting m' p' := by
  have whole := step
  cases step with
  | begin id request free fresh => exact waiting.begin id request free
  | resume id call random found => exact waiting.resume lanes id call random found (takes id call rfl)
  | fire id timer free runId timeoutManager fired =>
      intro runId' userId waits stored
      rcases waiting runId' userId waits stored with member | ⟨id', call, found, carries⟩
      · exact .inl member
      · exact .inr ⟨id', call, whole.remains found (by simp), carries⟩
  | listen listener signal => exact waiting

theorem CallStep.leading {now : Int} {m m' : RunManager} {p p' : Pending}
    {resumed : Option (Nat × Call)} (step : CallStep now m p resumed m' p') (lanes : Lanes m p)
    (one : ∀ resuming, resumed = some resuming → OneAcquires p) (fronts : Fronts m p)
    (calm : Undisturbed now m p resumed) (leading : Leading m p) : Leading m' p' := by
  intro id' other userId runId found dequeues
  cases step.origin found with
  | stays _ _ _ found' elsewhere =>
      have front := leading id' other userId runId found' dequeues
      cases resumed with
      | none =>
          rw [step.keeps_queue]
          exact front
      | some resuming =>
          cases step with
          | resume id call random got =>
              have different : id' ≠ id := by
                rintro rfl
                exact elsewhere call rfl
              rw [Call.resume_queue]
              rcases lanes.head_after (one _ rfl) different got found'
                (Call.heads_of_dequeues dequeues) front with still | ⟨removes, known⟩
              · exact still
              · exact absurd dequeues
                  (calm.removes id call runId rfl removes known id' other userId found')
  | begins request free fresh => cases request <;> cases dequeues
  | goes call random _ got goes =>
      obtain ⟨asks, inactive⟩ := Call.next_dequeues goes dequeues
      rw [Call.resume_queue, Call.queueAfter_of_leases _ asks]
      have member := calm.leases id' call userId runId rfl asks inactive
      rcases fronts.head id' call userId runId got (Call.heads_of_leases asks) with front | absent
      · exact front
      · exact absurd member absent
  | fires runId' timeoutManager free => cases dequeues

structure Named (m : RunManager) (p : Pending) : Prop where
  own : ∀ runId run, m.getRun runId = some run → run.id = runId
  leased : ∀ id userId runId lease, p id = some (.acquireNextRun userId (.leased runId (some lease))) →
    lease.runId = runId
  answers : ∀ id userId runId run, p id = some (.acquireNextRun userId (.reloaded runId run)) →
    ∃ stored, run = some stored ∧ stored.id = runId ∧ stored.userId = userId

theorem CallStep.named {now : Int} {m m' : RunManager} {p p' : Pending}
    {resumed : Option (Nat × Call)} (step : CallStep now m p resumed m' p') (lanes : Lanes m p)
    (named : Named m p) : Named m' p' := by
  refine ⟨step.own_ids named.own, ?_, ?_⟩
  · intro id' userId runId lease found
    generalize here : Call.acquireNextRun userId (.leased runId (some lease)) = call at found
    cases step.origin found with
    | stays _ _ _ found' other =>
        subst here
        exact named.leased id' userId runId lease found'
    | begins request free fresh => cases request <;> cases here
    | goes before random _ got goes =>
        subst here
        obtain ⟨before, rfl, awaits⟩ := Call.pending_acquireNextRun goes
        rcases Call.acquire_await awaits with ⟨_, rfl, -, asked⟩ | ⟨_, _, rfl, impossible⟩ |
          ⟨_, _, _, rfl, -, impossible⟩ | ⟨_, rfl, impossible⟩
        · obtain ⟨rfl, granted⟩ := AcquirePc.leased.inj asked
          exact (InMemoryLeaseManager.inactive_of_acquire granted.symm).2
        · cases impossible
        · cases impossible
        · cases impossible
    | fires runId' timeoutManager free => cases here
  · intro id' userId runId run found
    generalize here : Call.acquireNextRun userId (.reloaded runId run) = call at found
    cases step.origin found with
    | stays _ _ _ found' other =>
        subst here
        exact named.answers id' userId runId run found'
    | begins request free fresh => cases request <;> cases here
    | goes before random _ got goes =>
        subst here
        obtain ⟨before, rfl, awaits⟩ := Call.pending_acquireNextRun goes
        rcases Call.acquire_await awaits with ⟨_, rfl, -, impossible⟩ | ⟨_, _, rfl, impossible⟩ |
          ⟨_, _, _, rfl, -, impossible⟩ | ⟨_, rfl, read⟩
        · cases impossible
        · cases impossible
        · cases impossible
        · obtain ⟨rfl, rfl⟩ := AcquirePc.reloaded.inj read
          have user := (lanes.named id' _ userId runId got (.inr rfl)).1
          obtain ⟨stored, read, mine⟩ := Option.map_eq_some_iff.mp user
          exact ⟨stored, read, named.own runId stored read, mine⟩
    | fires runId' timeoutManager free => cases here

namespace Pool

def Label.acquires : Label → Option UserId
  | .begin _ (.acquireNextRun userId) => some userId
  | _ => none

def OneAtATime (p : Pool) (label : Label) : Prop :=
  ∀ userId ∈ label.acquires, ∀ call ∈ p.calls.values, call.acquires ≠ some userId

instance (p : Pool) (label : Label) : Decidable (p.OneAtATime label) :=
  inferInstanceAs (Decidable (∀ userId ∈ label.acquires, ∀ call ∈ p.calls.values, _))

/-- The calls that the law is about: new ids, and one `acquireNextRun` of a user at a time. -/
def Proper (p : Pool) (label : Label) : Prop := p.FreshRun label ∧ p.OneAtATime label

instance (p : Pool) (label : Label) : Decidable (p.Proper label) :=
  inferInstanceAs (Decidable (_ ∧ _))

/-- `cancelRun` takes no run off the queue between the moment `acquireNextRun` has seen it there
and the moment it dequeues: a lease that is not refused goes to a run that is still queued, and
no run that is found in its queue is removed while a lease for it waits to dequeue. -/
def HeadKept (p : Pool) (label : Label) : Prop :=
  ∀ resumed ∈ p.resumed label,
    (∀ asked ∈ resumed.2.leases, (p.manager.leaseManager.isActive p.now asked.1).2 = false →
      asked.2 ∈ p.manager.queue.getUserRuns asked.1) ∧
    ∀ runId ∈ resumed.2.removes, (p.manager.queue.getPosition runId).isSome →
      ∀ other ∈ p.others resumed.1, ∀ dequeued ∈ other.dequeues, dequeued.2 ≠ runId

instance (p : Pool) (label : Label) : Decidable (p.HeadKept label) :=
  inferInstanceAs (Decidable (∀ resumed ∈ p.resumed label, _ ∧ _))

def KeepsHeads (p : Pool) (label : Label) : Prop := p.Proper label ∧ p.HeadKept label

instance (p : Pool) (label : Label) : Decidable (p.KeepsHeads label) :=
  inferInstanceAs (Decidable (_ ∧ _))

theorem found_of_resumed {p : Pool} {label : Label} {id : Nat} {call : Call}
    (resumed : p.resumed label = some (id, call)) : p.calls.get id = some call := by
  cases label with
  | resume asked random =>
      obtain ⟨held, got, pair⟩ := Option.map_eq_some_iff.mp resumed
      cases pair
      exact got
  | begin asked request => cases resumed
  | fire asked timer => cases resumed
  | tick elapsed => cases resumed

theorem HeadKept.undisturbed {p : Pool} {label : Label} (kept : p.HeadKept label) :
    Undisturbed p.now p.manager p.calls.get (p.resumed label) := by
  constructor
  · intro id call userId runId resumed asks inactive
    exact (kept (id, call) resumed).1 (userId, runId) asks inactive
  · intro id call runId resumed removes known id' other userId found dequeues
    by_cases same : id' = id
    · -- a call that removes a run does not dequeue one
      rw [same, found_of_resumed resumed] at found
      cases found
      unfold Call.removes at removes
      split at removes
      · cases dequeues
      · cases removes
    · have member := (p.mem_others id other).mpr ⟨id', same, found⟩
      exact (kept (id, call) resumed).2 runId removes known other member (userId, runId) dequeues rfl

theorem oneAcquires_step {p q : Pool} {label : Label} (one : OneAcquires p.calls.get)
    (alone : p.OneAtATime label) (moved : p.step label = some q) : OneAcquires q.calls.get := by
  have apart : Keyed.Apart Call.acquires p.calls.get := one
  cases label with
  | begin id request =>
      simp only [step] at moved
      split at moved
      · cases moved
      · cases moved
        rw [get_store]
        apply apart.update
        intro call userId started mine id' other found theirs
        cases started
        cases request with
        | acquireNextRun user =>
            cases mine
            have member := (EsMap.mem_values_iff p.calls other).mpr ⟨id', found⟩
            exact absurd theirs (alone userId rfl other member)
        | _ => cases mine
  | resume id random =>
      simp only [step] at moved
      split at moved
      · cases moved
      · rename_i call got
        cases moved
        rw [get_store]
        apply apart.update_of_inherited got
        intro next userId goes mine
        have method := Call.pending_same_method _ _ _ _ _ goes
        cases next <;> cases mine
        cases call <;> simp only [Call.SameMethod] at method
        rw [method]
        rfl
  | fire id timer =>
      simp only [step] at moved
      split at moved
      · cases moved
      · split at moved
        · cases moved
        · cases moved
          rw [get_store]
          apply apart.update
          intro call userId started mine
          cases started
          cases mine
  | tick elapsed =>
      cases moved
      exact one

structure Queues (p : Pool) : Prop where
  lanes : Lanes p.manager p.calls.get
  one : OneAcquires p.calls.get
  fronts : Fronts p.manager p.calls.get
  waiting : Waiting p.manager p.calls.get
  leading : Leading p.manager p.calls.get
  named : Named p.manager p.calls.get

theorem queues_init (config : RunManagerConfig) (now : Int) : (init config now).Queues := by
  refine ⟨Lanes.init config, ?_, Fronts.init config, Waiting.init config, Leading.init config, ?_⟩
  · intro id id' call call' userId found
    cases found
  · refine ⟨?_, ?_, ?_⟩
    · intro runId run found
      cases found
    · intro id userId runId lease found
      cases found
    · intro id userId runId run found
      cases found

theorem Queues.next {p q : Pool} {label : Label} (queues : p.Queues) (meets : p.KeepsHeads label)
    (moved : p.step label = some q) : q.Queues := by
  have one := oneAcquires_step queues.one meets.1.2 moved
  rcases step_callStep p q label meets.1.1 moved with ⟨manager, calls⟩ | stepped
  · rw [calls] at one
    refine ⟨?_, ?_, ?_, ?_, ?_, ?_⟩ <;> rw [calls] <;> try rw [manager]
    · exact queues.lanes
    · exact one
    · exact queues.fronts
    · exact queues.waiting
    · exact queues.leading
    · exact queues.named
  · have calm := meets.2.undisturbed
    have takes : ∀ id call, p.resumed label = some (id, call) →
        call.TakesOwn p.manager.queue := by
      intro id call resumed
      exact queues.leading.takesOwn (found_of_resumed resumed)
    exact ⟨stepped.lanes queues.lanes, one,
      stepped.fronts queues.lanes (fun _ _ => queues.one) queues.fronts,
      stepped.waiting queues.lanes takes queues.waiting,
      stepped.leading queues.lanes (fun _ _ => queues.one) queues.fronts calm queues.leading,
      stepped.named queues.lanes queues.named⟩

theorem queues_of_reach {config : RunManagerConfig} {now : Int} {p : Pool}
    (reached : Transition.Reach step KeepsHeads (init config now) p) : p.Queues :=
  reached.invariant Queues (queues_init config now)
    (fun _ _ _ meets queues moved => queues.next meets moved)

/-- What a call of `acquireNextRun` does with runs. -/
inductive Deed where
  | leases (runId : RunId)
  | dequeues (runId : Option RunId)
  | returns (runId : Option RunId)
  deriving DecidableEq

def deed (p : Pool) (random : String) : Call → Option Deed
  | .acquireNextRun userId (.leased _ (some _)) =>
    some (.dequeues (p.manager.queue.dequeue userId).2)
  | .acquireNextRun userId pc =>
    match (p.manager.acquireNextRunResume p.now random userId pc).progress with
    | .await (.leased _ lease) => lease.map (fun lease => .leases lease.runId)
    | .resolve run => some (.returns (run.map Run.id))
    | _ => none
  | _ => none

def deedOf (p : Pool) (id : Nat) : Label → Option Deed
  | .resume other random => if other = id then (p.calls.get id).bind (p.deed random) else none
  | _ => none

/-- What the call named `id` does with runs along the labels, until it settles. -/
def deedsOf (id : Nat) : Pool → List Label → List Deed
  | _, [] => []
  | p, label :: rest =>
    match p.step label with
    | none => []
    | some q => (p.deedOf id label).toList ++ if q.calls.has id then deedsOf id q rest else []

/-- The run that is leased is the run that is dequeued and the run that is returned, as far as the
call has come; or no run is. -/
def OneRun (deeds : List Deed) : Prop :=
  deeds <+: [.returns none] ∨
    ∃ runId, deeds <+: [.leases runId, .dequeues (some runId), .returns (some runId)]

/-- What a call still has to do with runs. -/
def Owes : AcquirePc → List Deed → Prop
  | .peeked _, deeds => OneRun deeds
  | .leased _ none, deeds => deeds <+: [.returns none]
  | .leased runId (some _), deeds => deeds <+: [.dequeues (some runId), .returns (some runId)]
  | .dequeued runId _, deeds => deeds <+: [.returns (some runId)]
  | .updated runId, deeds => deeds <+: [.returns (some runId)]
  | .reloaded runId _, deeds => deeds <+: [.returns (some runId)]

theorem owes_nil (pc : AcquirePc) : Owes pc [] := by
  cases pc with
  | peeked nextRunId => exact .inl List.nil_prefix
  | leased runId lease => cases lease <;> exact List.nil_prefix
  | dequeued runId lease => exact List.nil_prefix
  | updated runId => exact List.nil_prefix
  | reloaded runId run => exact List.nil_prefix

/-- The next turn of a call settles it or takes it further: what it does then comes before what it
still has to do. -/
theorem Queues.turn_owes {p : Pool} (queues : p.Queues) {id : Nat} {userId : UserId}
    {pc : AcquirePc} (found : p.calls.get id = some (.acquireNextRun userId pc)) (random : String) :
    (Call.pending ((Call.acquireNextRun userId pc).resume p.manager p.now random) = none ∧
      Owes pc (p.deed random (.acquireNextRun userId pc)).toList) ∨
    ∃ next, Call.pending ((Call.acquireNextRun userId pc).resume p.manager p.now random) =
        some (.acquireNextRun userId next) ∧
      ∀ deeds, Owes next deeds →
        Owes pc ((p.deed random (.acquireNextRun userId pc)).toList ++ deeds) := by
  cases pc with
  | peeked nextRunId =>
      cases nextRunId with
      | none => exact .inl ⟨rfl, .inl (List.prefix_refl _)⟩
      | some runId =>
          by_cases unnamed : runId = ""
          · subst unnamed
            exact .inl ⟨rfl, .inl (List.prefix_refl _)⟩
          · right
            refine ⟨.leased runId (p.manager.leaseManager.acquire p.now random userId runId
              p.manager.config.leaseTtlMs).2, ?_, ?_⟩
            · simp [Call.resume, RunManager.acquireNextRunResume, unnamed, Call.pending_settle]
            · intro deeds owes
              simp only [deed, RunManager.acquireNextRunResume, if_neg unnamed]
              cases granted : (p.manager.leaseManager.acquire p.now random userId runId
                  p.manager.config.leaseTtlMs).2 with
              | none =>
                  rw [granted] at owes
                  exact .inl owes
              | some lease =>
                  rw [granted] at owes
                  have own := (InMemoryLeaseManager.inactive_of_acquire granted).2
                  refine .inr ⟨runId, ?_⟩
                  simp only [Option.map_some, Option.toList_some, List.singleton_append, own]
                  exact (List.prefix_cons_inj _).mpr owes
  | leased runId lease =>
      cases lease with
      | none => exact .inl ⟨rfl, List.prefix_refl _⟩
      | some lease =>
          refine .inr ⟨.dequeued runId lease, rfl, ?_⟩
          intro deeds owes
          have front : (p.manager.queue.dequeue userId).2 = some runId := by
            rw [InMemoryRunQueue.dequeue_result]
            exact queues.leading id _ userId runId found rfl
          simp only [deed, front, Option.toList_some, List.singleton_append]
          exact (List.prefix_cons_inj _).mpr owes
  | dequeued runId lease =>
      have user := (queues.lanes.named id _ userId runId found (.inr rfl)).1
      obtain ⟨stored, read, -⟩ := Option.map_eq_some_iff.mp user
      have known : p.manager.repo.runs.get runId = some stored := read
      refine .inr ⟨.updated runId, ?_, ?_⟩
      · simp [Call.resume, RunManager.acquireNextRunResume, InMemoryRunRepository.update, known,
          Call.pending_settle]
      · intro deeds owes
        simp only [deed, RunManager.acquireNextRunResume, InMemoryRunRepository.update, known]
        exact owes
  | updated runId => exact .inr ⟨.reloaded runId (p.manager.getRun runId), rfl, fun _ owes => owes⟩
  | reloaded runId run =>
      obtain ⟨stored, rfl, own, -⟩ := queues.named.answers id userId runId run found
      refine .inl ⟨rfl, ?_⟩
      simp only [deed, RunManager.acquireNextRunResume, Option.map_some, own]
      exact List.prefix_refl _

theorem calls_remain {p q : Pool} {label : Label} (moved : p.step label = some q) {id : Nat}
    {call : Call} (found : p.calls.get id = some call) (other : ∀ random, label ≠ .resume id random) :
    q.calls.get id = some call := by
  have busy {id' : Nat} (free : ¬p.calls.has id' = true) : id ≠ id' := by
    rintro rfl
    rw [p.free_of_not_has id free] at found
    cases found
  cases label with
  | begin id' request =>
      simp only [step] at moved
      split at moved
      · cases moved
      · rename_i free
        cases moved
        rw [get_store, Function.update_of_ne (busy free), found]
  | resume id' random =>
      simp only [step] at moved
      have different : id ≠ id' := by
        rintro rfl
        exact other random rfl
      split at moved
      · cases moved
      · cases moved
        rw [get_store, Function.update_of_ne different, found]
  | fire id' timer =>
      simp only [step] at moved
      split at moved
      · cases moved
      · rename_i free
        split at moved
        · cases moved
        · cases moved
          rw [get_store, Function.update_of_ne (busy free), found]
  | tick elapsed =>
      cases moved
      exact found

theorem Queues.owes {p q : Pool} {labels : List Label} (queues : p.Queues)
    (path : Transition.Path step KeepsHeads p labels q) {id : Nat} {userId : UserId}
    {pc : AcquirePc} (found : p.calls.get id = some (.acquireNextRun userId pc)) :
    Owes pc (p.deedsOf id labels) := by
  induction path generalizing pc with
  | nil => exact owes_nil pc
  | @cons p s q label rest meets moved path ih =>
      have next := queues.next meets moved
      simp only [deedsOf, moved]
      by_cases mine : ∃ random, label = .resume id random
      · obtain ⟨random, rfl⟩ := mine
        have calls : s.calls.get id = Call.pending
            ((Call.acquireNextRun userId pc).resume p.manager p.now random) := by
          simp only [step, found] at moved
          cases moved
          rw [get_store, Function.update_self]
        simp only [deedOf, if_true, found, Option.bind_some]
        rcases queues.turn_owes found random with ⟨settles, owes⟩ | ⟨pc', goes, owes⟩
        · rw [settles] at calls
          rw [if_neg (by simp [EsMap.has, calls]), List.append_nil]
          exact owes
        · rw [goes] at calls
          rw [if_pos (by simp [EsMap.has, calls])]
          exact owes _ (ih next calls)
      · have stays := calls_remain moved found (fun random same => mine ⟨random, same⟩)
        have idle : p.deedOf id label = none := by
          cases label with
          | resume id' random =>
              have different : id' ≠ id := by
                rintro rfl
                exact mine ⟨random, rfl⟩
              exact if_neg different
          | _ => rfl
        rw [idle, if_pos (by simp [EsMap.has, stays])]
        exact ih next stays

/-- When nothing is in progress every QUEUED run stands once in its lane, and the run that a call of
`acquireNextRun` dequeues is the run that it has leased and that it returns. -/
theorem no_queued_run_is_lost (config : RunManagerConfig) (now : Int) (p : Pool)
    (reached : Transition.Reach step KeepsHeads (init config now) p) :
    (p.Quiescent → ∀ runId run, p.manager.getRun runId = some run → run.state = .queued →
        (p.manager.queue.getUserRuns run.userId).count runId = 1) ∧
      ∀ id userId labels q,
        Transition.Path step KeepsHeads p (.begin id (.acquireNextRun userId) :: labels) q →
          OneRun (p.deedsOf id (.begin id (.acquireNextRun userId) :: labels)) := by
  have queues := queues_of_reach reached
  constructor
  · intro quiet runId run found waits
    have state : p.manager.stateOf runId = some .queued := by
      rw [RunManager.stateOf, found, ← waits]
      rfl
    have user : p.manager.userOf runId = some run.userId := by
      rw [RunManager.userOf, found]
      rfl
    rcases queues.waiting runId run.userId state user with member | ⟨id, call, got, -⟩
    · exact List.count_eq_one_of_mem (queues.lanes.queue.distinct run.userId) member
    · rw [(p.calls.entries_eq_nil_iff).mp quiet id] at got
      cases got
  · intro id userId labels q path
    cases path with
    | @cons _ s _ _ _ meets moved path =>
        have calls : s.calls.get id =
            some (.acquireNextRun userId (p.manager.acquireNextRun userId)) := by
          simp only [step] at moved
          split at moved
          · cases moved
          · cases moved
            rw [get_store, Function.update_self]
            rfl
        have owes := (queues.next meets moved).owes path calls
        simp only [deedsOf, moved]
        rw [if_pos (by simp [EsMap.has, calls])]
        exact owes

def peekedLabels : List Label :=
  [.begin 0 (.createRun "a" ⟨some ⟨"acme", "alice"⟩, none, "pack", "hello", none⟩),
    .resume 0 "", .resume 0 "", .resume 0 "",
    .begin 0 (.createRun "b" ⟨some ⟨"acme", "alice"⟩, none, "pack", "again", none⟩),
    .resume 0 "", .resume 0 "", .resume 0 "",
    .begin 1 (.acquireNextRun "acme:alice")]

def acquiredLabels : List Label :=
  [.resume 1 "t", .resume 1 "", .resume 1 "", .resume 1 "", .resume 1 ""]

/-- `cancelRun` takes the peeked run off the queue before it is leased. -/
def cancelledLabels : List Label :=
  [.begin 2 (.cancelRun "run_0_a" none), .resume 2 ""] ++ acquiredLabels ++
    [.resume 2 "", .resume 2 "", .resume 2 "", .resume 2 ""]

/-- The first run is leased, dequeued and returned, and the second one still waits in its lane. -/
theorem second_run_still_waits :
    ∃ p : Pool, ∃ q : Pool, ∃ run, q.manager.getRun "run_0_b" = some run ∧ run.state = .queued ∧
      (q.manager.queue.getUserRuns run.userId).count "run_0_b" = 1 ∧
      p.deedsOf 1 (.begin 1 (.acquireNextRun "acme:alice") :: acquiredLabels) =
        [.leases "run_0_a", .dequeues (some "run_0_a"), .returns (some "run_0_a")] ∧
      OneRun (p.deedsOf 1 (.begin 1 (.acquireNextRun "acme:alice") :: acquiredLabels)) := by
  have ran : (Transition.exec (Transition.guarded step KeepsHeads) (init .default 0)
      (peekedLabels.take 8)).map (fun p =>
        (p.deedsOf 1 (.begin 1 (.acquireNextRun "acme:alice") :: acquiredLabels),
          (Transition.exec (Transition.guarded step KeepsHeads) p
            (.begin 1 (.acquireNextRun "acme:alice") :: acquiredLabels)).map
              (fun q => (q.calls.entries.isEmpty, q.manager.stateOf "run_0_b")))) =
      some ([.leases "run_0_a", .dequeues (some "run_0_a"), .returns (some "run_0_a")],
        some (true, some .queued)) := by decide +kernel
  obtain ⟨p, reached, observed⟩ := Transition.reach_of_observed _ _ ran
  obtain ⟨deeds, continued⟩ := Prod.mk.inj observed
  obtain ⟨q, went, after⟩ := Option.map_eq_some_iff.mp continued
  obtain ⟨quiet, waits⟩ := Prod.mk.inj after
  obtain ⟨run, found, queued⟩ := Option.map_eq_some_iff.mp waits
  have one := (no_queued_run_is_lost .default 0 p reached).2 1 "acme:alice" acquiredLabels q
    (Transition.path_of_exec _ went)
  have kept := (no_queued_run_is_lost .default 0 q
    (reached.trans (Transition.reach_of_exec _ went))).1 (List.isEmpty_iff.mp quiet)
  exact ⟨p, q, run, found, queued, kept "run_0_b" run found queued, deeds, one⟩

/-- The second run is taken off the queue in the place of the first one and stays QUEUED. -/
theorem second_run_is_lost :
    ¬∀ p : Pool, Transition.Reach step Proper (init .default 0) p → p.Quiescent →
      ∀ runId run, p.manager.getRun runId = some run → run.state = .queued →
        (p.manager.queue.getUserRuns run.userId).count runId = 1 := by
  intro always
  have ran : (Transition.exec (Transition.guarded step Proper) (init .default 0)
      (peekedLabels ++ cancelledLabels)).map
        (fun p => (p.calls.entries.isEmpty, (p.manager.getRun "run_0_b").map
          (fun run => (run.state, p.manager.queue.getUserRuns run.userId)))) =
      some (true, some (.queued, [])) := by decide +kernel
  obtain ⟨p, reached, observed⟩ := Transition.reach_of_observed _ _ ran
  obtain ⟨quiet, waits⟩ := Prod.mk.inj observed
  obtain ⟨run, found, pair⟩ := Option.map_eq_some_iff.mp waits
  obtain ⟨queued, empty⟩ := Prod.mk.inj pair
  have kept := always p reached (List.isEmpty_iff.mp quiet) "run_0_b" run found queued
  rw [empty] at kept
  cases kept

end Pool

end Minerva
