import Minerva.Library.Keyed
import Minerva.Services.Writes

namespace Minerva

def RunManager.userOf (m : RunManager) (runId : RunId) : Option UserId :=
  (m.getRun runId).map Run.userId

namespace Call

/-- The run that an acquiring call has peeked but not yet taken off the queue. -/
def heads : Call → Option (UserId × RunId)
  | .acquireNextRun userId (.peeked (some nextRunId)) => some (userId, nextRunId)
  | .acquireNextRun userId (.leased nextRunId (some _)) => some (userId, nextRunId)
  | _ => none

/-- The run that an acquiring call works on after it has dequeued. -/
def took : Call → Option (UserId × RunId)
  | .acquireNextRun userId (.dequeued nextRunId _) => some (userId, nextRunId)
  | .acquireNextRun userId (.updated nextRunId) => some (userId, nextRunId)
  | .acquireNextRun userId (.reloaded nextRunId _) => some (userId, nextRunId)
  | _ => none

/-- The run that `createRun` has stored but not yet queued. -/
def creates : Call → Option Run
  | .createRun (.persisted run) => some run
  | _ => none

def removes : Call → Option RunId
  | .cancelRun runId _ (.loaded (some run)) => if run.state = .queued then some runId else none
  | _ => none

def queueAfter (q : InMemoryRunQueue) : Call → InMemoryRunQueue
  | .createRun (.persisted run) => (q.enqueue run.id run.userId).1
  | .acquireNextRun userId (.leased _ (some _)) => (q.dequeue userId).1
  | .cancelRun runId _ (.loaded (some run)) =>
    if run.state = .queued then (q.remove runId).1 else q
  | _ => q

theorem transition_queue (m : RunManager) (now : Int) (runId : RunId) (newState : RunState)
    (metadata : TransitionMetadata) (pc : TransitionPc) :
    (m.transitionStateResume now runId newState metadata pc).manager.queue = m.queue := by
  cases pc with
  | loaded run =>
      cases run with
      | none => rfl
      | some run =>
          simp only [RunManager.transitionStateResume]
          split
          · split <;> rfl
          · rfl
  | updated =>
      simp only [RunManager.transitionStateResume]
      split <;> rfl
  | reloaded run => rfl

theorem abandon_queue (m : RunManager) (runId : RunId) (reason : String) (run : Run) :
    (m.abandon runId reason run).manager.queue = m.queue := by
  unfold RunManager.abandon
  split <;> rfl

theorem abandon_resume_queue (m : RunManager) (now : Int) (runId : RunId) (reason : String)
    (newState : RunState) (error : Run → String) (pc : AbandonPc) :
    (m.abandonResume now runId reason newState error pc).manager.queue = m.queue := by
  cases pc with
  | released run => rfl
  | transition run pc => exact transition_queue m now runId newState _ pc

theorem end_queue (m : RunManager) (now : Int) (runId : RunId) (newState : RunState)
    (metadata : TransitionMetadata) (pc : EndPc) :
    (m.endRunResume now runId newState metadata pc).manager.queue = m.queue := by
  cases pc with
  | loaded run =>
      cases run with
      | none => rfl
      | some run =>
          simp only [RunManager.endRunResume]
          split <;> rfl
  | released => rfl
  | transition pc => exact transition_queue m now runId newState metadata pc

theorem resume_queue (m : RunManager) (now : Int) (random : String) (call : Call) :
    (call.resume m now random).manager.queue = call.queueAfter m.queue := by
  cases call with
  | createRun pc =>
      cases pc with
      | persisted run => rfl
      | enqueued run position =>
          simp only [resume, settle_manager, RunManager.createRunResume, queueAfter]
          split <;> rfl
      | updated run => rfl
  | acquireNextRun userId pc =>
      cases pc with
      | peeked nextRunId =>
          cases nextRunId with
          | none => rfl
          | some id =>
              simp only [resume, settle_manager, RunManager.acquireNextRunResume, queueAfter]
              split <;> rfl
      | leased nextRunId lease => cases lease <;> rfl
      | dequeued nextRunId lease =>
          simp only [resume, settle_manager, RunManager.acquireNextRunResume, queueAfter]
          split <;> rfl
      | updated nextRunId => rfl
      | reloaded nextRunId run => rfl
  | startRun runId pc =>
      cases pc with
      | transition pc =>
          have kept := transition_queue m now runId .running ⟨none, none⟩ pc
          simp only [resume, settle_manager, RunManager.startRunResume, queueAfter]
          split <;> exact kept
      | started run => rfl
  | cancelRun runId reason pc =>
      cases pc with
      | loaded run =>
          cases run with
          | none => rfl
          | some run =>
              simp only [resume, settle_manager, RunManager.cancelRunResume, queueAfter]
              split
              · rename_i terminal
                have started : run.state ≠ .queued := by
                  intro waiting
                  rw [waiting] at terminal
                  cases terminal
                rw [if_neg started]
              · split
                · rfl
                · exact abandon_queue m runId _ run
      | removed run => exact (settle_manager _ _ _).symm ▸ abandon_queue m runId _ run
      | abandoning pc =>
          exact (settle_manager _ _ _).symm ▸ abandon_resume_queue m now runId _ _ _ pc
  | timeoutRun runId pc =>
      cases pc with
      | loaded run =>
          cases run with
          | none => rfl
          | some run =>
              simp only [resume, settle_manager, RunManager.timeoutRunResume, queueAfter]
              split
              · rfl
              · rw [timeout_settle_manager]
                exact abandon_queue m runId _ run
      | abandoning pc =>
          simp only [resume, settle_manager, RunManager.timeoutRunResume, queueAfter,
            timeout_settle_manager]
          exact abandon_resume_queue m now runId _ _ _ pc
  | completeRun runId finalMessages pc =>
      exact (settle_manager _ _ _).symm ▸ end_queue m now runId _ _ pc
  | failRun runId error pc => exact (settle_manager _ _ _).symm ▸ end_queue m now runId _ _ pc

theorem next_heads {m : RunManager} {now : Int} {random : String} {call next : Call}
    {userId : UserId} {runId : RunId} (goes : pending (call.resume m now random) = some next)
    (head : next.heads = some (userId, runId)) : call.leases = some (userId, runId) := by
  cases next <;> simp only [heads, reduceCtorEq] at head
  obtain ⟨before, rfl, awaits⟩ := pending_acquireNextRun goes
  rcases acquire_await awaits with ⟨id, rfl, -, asked⟩ | ⟨id, lease, rfl, rfl⟩ |
    ⟨id, lease, stored, rfl, -, rfl⟩ | ⟨id, rfl, rfl⟩
  · rw [asked] at head
    split at head
    · rename_i impossible
      cases impossible
    · rename_i same
      obtain ⟨rfl, place⟩ := Call.acquireNextRun.inj same
      obtain ⟨rfl, -⟩ := AcquirePc.leased.inj place
      exact head
    · cases head
  · cases head
  · cases head
  · cases head

theorem next_took {m : RunManager} {now : Int} {random : String} {call next : Call}
    {userId : UserId} {runId : RunId} (goes : pending (call.resume m now random) = some next)
    (taken : next.took = some (userId, runId)) :
    call.took = some (userId, runId) ∨
      ∃ lease, call = .acquireNextRun userId (.leased runId (some lease)) := by
  cases next <;> simp only [took, reduceCtorEq] at taken
  obtain ⟨before, rfl, awaits⟩ := pending_acquireNextRun goes
  rcases acquire_await awaits with ⟨id, rfl, -, rfl⟩ | ⟨id, lease, rfl, rfl⟩ |
    ⟨id, lease, stored, rfl, -, rfl⟩ | ⟨id, rfl, rfl⟩
  · cases taken
  · cases taken
    exact .inr ⟨lease, rfl⟩
  · cases taken
    exact .inl rfl
  · cases taken
    exact .inl rfl

theorem next_creates {m : RunManager} {now : Int} {random : String} {call next : Call}
    (goes : pending (call.resume m now random) = some next) : next.creates = none := by
  unfold creates
  split
  · obtain ⟨before, -, awaits⟩ := pending_createRun goes
    rcases create_await awaits with ⟨_, _, -, impossible⟩ | ⟨_, _, -, impossible⟩
    · cases impossible
    · cases impossible
  · rfl

theorem heads_of_leases {call : Call} {asked : UserId × RunId} (asks : call.leases = some asked) :
    call.heads = some asked := by
  unfold leases at asks
  split at asks
  · exact asks
  · cases asks

end Call

def Call.Names (call : Call) (userId : UserId) (runId : RunId) : Prop :=
  call.heads = some (userId, runId) ∨ call.took = some (userId, runId)

/-- What holds of the queues and of the calls that put runs in and take them out. -/
structure Lanes (m : RunManager) (p : Pending) : Prop where
  queue : m.queue.Indexed
  stored : ∀ userId runId, runId ∈ m.queue.getUserRuns userId → m.userOf runId = some userId
  creating : ∀ id call run, p id = some call → call.creates = some run →
    m.userOf run.id = some run.userId ∧ ∀ userId, run.id ∉ m.queue.getUserRuns userId
  once : ∀ id id' call call' run run', p id = some call → p id' = some call' →
    call.creates = some run → call'.creates = some run' → run.id = run'.id → id = id'
  named : ∀ id call userId runId, p id = some call → call.Names userId runId →
    m.userOf runId = some userId ∧
      ∀ id' call' run, p id' = some call' → call'.creates = some run → run.id ≠ runId

theorem Lanes.init (config : RunManagerConfig) :
    Lanes (RunManager.init config) (fun _ => none) where
  queue := .empty
  stored := by
    intro userId runId member
    cases member
  creating := by
    intro id call run found
    cases found
  once := by
    intro id id' call call' run run' found
    cases found
  named := by
    intro id call userId runId found
    cases found

theorem RunManager.unused_of_stateOf {m : RunManager} {runId : RunId} {userId : UserId}
    (unused : m.stateOf runId = none) : m.userOf runId ≠ some userId := by
  intro stored
  rw [stateOf, Option.map_eq_none_iff] at unused
  rw [userOf, unused] at stored
  cases stored

namespace CallStep

variable {now : Int} {m m' : RunManager} {p p' : Pending} {resumed : Option (Nat × Call)}

theorem userOf (step : CallStep now m p resumed m' p') {runId : RunId} {userId : UserId}
    (stored : m.userOf runId = some userId) : m'.userOf runId = some userId := by
  cases step with
  | begin id request free fresh =>
      rcases Call.start_getRun m now request runId with same | ⟨random, input, rfl, rfl, -⟩
      · rw [RunManager.userOf, same]
        exact stored
      · exact absurd stored (RunManager.unused_of_stateOf (fresh random input rfl))
  | resume id call random found =>
      have effect := Call.resume_effect m now random call
      rw [RunManager.userOf, effect.field Run.userId (fun _ _ => rfl) (fun _ _ => rfl)
        (fun _ _ _ _ => rfl)]
      exact stored
  | fire id timer free runId timeoutManager fired => exact stored
  | listen listener signal => exact stored

end CallStep

theorem Call.start_queue (m : RunManager) (now : Int) (request : Request) :
    (Call.start m now request).1.queue = m.queue := by
  cases request <;> rfl

theorem CallStep.keeps_queue {now : Int} {m m' : RunManager} {p p' : Pending}
    (step : CallStep now m p none m' p') : m'.queue = m.queue := by
  cases step with
  | begin id request free fresh => exact Call.start_queue m now request
  | fire id timer free runId timeoutManager fired => rfl
  | listen listener signal => rfl

theorem Call.mem_queueAfter {q : InMemoryRunQueue} {call : Call} {userId : UserId} {runId : RunId}
    (member : runId ∈ (call.queueAfter q).getUserRuns userId) :
    runId ∈ q.getUserRuns userId ∨
      ∃ run, call.creates = some run ∧ run.id = runId ∧ run.userId = userId := by
  unfold queueAfter at member
  split at member
  · rename_i run
    rcases (q.mem_enqueue run.id runId run.userId userId).mp member with earlier | ⟨rfl, rfl⟩
    · exact .inl earlier
    · exact .inr ⟨run, rfl, rfl, rfl⟩
  · exact .inl (q.mem_of_mem_dequeue _ _ _ member)
  · split at member
    · exact .inl (q.mem_of_mem_remove _ _ _ member)
    · exact .inl member
  · exact .inl member

theorem Lanes.queueAfter {m : RunManager} {p : Pending} (lanes : Lanes m p) {id : Nat} {call : Call}
    (found : p id = some call) : (call.queueAfter m.queue).Indexed := by
  unfold Call.queueAfter
  split
  · rename_i run
    exact lanes.queue.enqueue run.id run.userId (lanes.creating id _ run found rfl).2
  · exact lanes.queue.dequeue _
  · split
    · exact lanes.queue.remove _
    · exact lanes.queue
  · exact lanes.queue

theorem Call.names_next {m : RunManager} {now : Int} {random : String} {call next : Call}
    {userId : UserId} {runId : RunId} (goes : pending (call.resume m now random) = some next)
    (names : next.Names userId runId) : call.Names userId runId := by
  rcases names with head | taken
  · exact .inl (heads_of_leases (next_heads goes head))
  · rcases next_took goes taken with earlier | ⟨lease, rfl⟩
    · exact .inr earlier
    · exact .inl rfl

theorem Call.names_start {m : RunManager} {now : Int} {request : Request} {userId : UserId}
    {runId : RunId} (names : (Call.start m now request).2.Names userId runId) :
    request = .acquireNextRun userId ∧ (m.queue.getUserRuns userId).head? = some runId := by
  cases request with
  | acquireNextRun user =>
      simp only [start, RunManager.acquireNextRun, InMemoryRunQueue.peek_eq_head, Names, heads,
        took] at names
      rcases names with head | taken
      · split at head
        · rename_i front same
          cases head
          obtain ⟨rfl, peeked⟩ := Call.acquireNextRun.inj same
          exact ⟨rfl, AcquirePc.peeked.inj peeked⟩
        · rename_i impossible
          cases impossible
        · cases head
      · cases taken
  | _ => rcases names with head | taken <;> simp_all [start, heads, took]

theorem Call.creates_start {m : RunManager} {now : Int} {request : Request} {run : Run}
    (creates : (Call.start m now request).2.creates = some run) :
    ∃ random input, request = .createRun random input ∧
      run = RunManager.newRun m.config now random input := by
  cases request with
  | createRun random input =>
      cases creates
      exact ⟨random, input, rfl, rfl⟩
  | _ => cases creates

theorem CallStep.creates_apart {now : Int} {m m' : RunManager} {p p' : Pending}
    {resumed : Option (Nat × Call)} (step : CallStep now m p resumed m' p') (lanes : Lanes m p) :
    Keyed.Apart (fun call : Call => call.creates.map Run.id) p' := by
  have apart : Keyed.Apart (fun call : Call => call.creates.map Run.id) p := by
    intro first second one two runId found found' holds holds'
    obtain ⟨run, creates, rfl⟩ := Option.map_eq_some_iff.mp holds
    obtain ⟨run', creates', same⟩ := Option.map_eq_some_iff.mp holds'
    exact lanes.once first second one two run run' found found' creates creates' same.symm
  cases step with
  | begin id request free fresh =>
      apply apart.update
      intro call runId started holds id' other found holds'
      cases started
      obtain ⟨run, creates, rfl⟩ := Option.map_eq_some_iff.mp holds
      obtain ⟨random, input, rfl, rfl⟩ := Call.creates_start creates
      obtain ⟨run', creates', same⟩ := Option.map_eq_some_iff.mp holds'
      have stored := (lanes.creating id' other run' found creates').1
      rw [same] at stored
      exact absurd stored (RunManager.unused_of_stateOf (fresh random input rfl))
  | resume id call random got =>
      apply apart.update_of_inherited got
      intro next runId goes holds
      obtain ⟨run, creates, -⟩ := Option.map_eq_some_iff.mp holds
      rw [Call.next_creates goes] at creates
      cases creates
  | fire id timer free runId timeoutManager fired =>
      apply apart.update
      intro call runId' started holds
      cases started
      cases holds
  | listen listener signal => exact apart

theorem CallStep.lanes {now : Int} {m m' : RunManager} {p p' : Pending}
    {resumed : Option (Nat × Call)} (step : CallStep now m p resumed m' p') (lanes : Lanes m p) :
    Lanes m' p' := by
  have whole := step
  constructor
  · cases resumed with
    | none =>
        rw [step.keeps_queue]
        exact lanes.queue
    | some resuming =>
        cases step with
        | resume id call random found =>
            rw [Call.resume_queue]
            exact lanes.queueAfter found
  · intro userId runId member
    cases resumed with
    | none =>
        rw [step.keeps_queue] at member
        exact step.userOf (lanes.stored userId runId member)
    | some resuming =>
        cases step with
        | resume id call random found =>
            rw [Call.resume_queue] at member
            rcases Call.mem_queueAfter member with earlier | ⟨run, creates, rfl, rfl⟩
            · exact whole.userOf (lanes.stored userId runId earlier)
            · exact whole.userOf (lanes.creating id call run found creates).1
  · intro id' call run found creates
    cases step.origin found with
    | stays _ _ _ found' other =>
        obtain ⟨stored, absent⟩ := lanes.creating id' call run found' creates
        refine ⟨step.userOf stored, ?_⟩
        intro userId member
        cases resumed with
        | none =>
            rw [step.keeps_queue] at member
            exact absent userId member
        | some resuming =>
            cases step with
            | resume id before random got =>
                rw [Call.resume_queue] at member
                rcases Call.mem_queueAfter member with earlier | ⟨run', creates', same, -⟩
                · exact absent userId earlier
                · have here := lanes.once id' id call before run run' found' got creates creates'
                    same.symm
                  subst here
                  exact other before rfl
    | begins request free fresh =>
        obtain ⟨random, input, rfl, rfl⟩ := Call.creates_start creates
        rw [Call.start_queue]
        constructor
        · simp [Call.start, RunManager.createRun, InMemoryRunRepository.create, RunManager.userOf,
            RunManager.getRun, InMemoryRunRepository.getById, RunManager.newRun]
        · intro userId member
          exact RunManager.unused_of_stateOf (fresh random input rfl) (lanes.stored userId _ member)
    | goes before random _ got goes =>
        rw [Call.next_creates goes] at creates
        cases creates
    | fires runId timeoutManager free => cases creates
  · intro first second one two run run' found found' creates creates' same
    exact step.creates_apart lanes first second one two run.id found found' (by simp [creates])
      (by simp [creates', same])
  · intro id' call userId runId found names
    have here : m.userOf runId = some userId ∧
        ∀ other call' run, p other = some call' → call'.creates = some run → run.id ≠ runId := by
      cases step.origin found with
      | stays _ _ _ found other => exact lanes.named id' call userId runId found names
      | begins request free fresh =>
          obtain ⟨rfl, front⟩ := Call.names_start names
          have member := List.mem_of_mem_head? front
          refine ⟨lanes.stored userId runId member, ?_⟩
          rintro other call' run found' creates rfl
          exact (lanes.creating other call' run found' creates).2 userId member
      | goes before random _ got goes =>
          exact lanes.named id' before userId runId got (Call.names_next goes names)
      | fires owner timeoutManager free => rcases names with head | taken <;> contradiction
    refine ⟨step.userOf here.1, ?_⟩
    intro other call' run found' creates
    cases step.origin found' with
    | stays _ _ _ found' elsewhere => exact here.2 other call' run found' creates
    | begins request free fresh =>
        obtain ⟨random, input, rfl, rfl⟩ := Call.creates_start creates
        rintro rfl
        exact RunManager.unused_of_stateOf (fresh random input rfl) here.1
    | goes before random _ got goes =>
        rw [Call.next_creates goes] at creates
        cases creates
    | fires owner timeoutManager free => cases creates

def Call.acquires : Call → Option UserId
  | .acquireNextRun userId _ => some userId
  | _ => none

def OneAcquires (p : Pending) : Prop :=
  ∀ id id' call call' userId, p id = some call → p id' = some call' →
    call.acquires = some userId → call'.acquires = some userId → id = id'

/-- An acquiring call works on the head of its lane, unless the run has been taken away from
there; what it has dequeued is in no lane. -/
structure Fronts (m : RunManager) (p : Pending) : Prop where
  head : ∀ id call userId runId, p id = some call → call.heads = some (userId, runId) →
    (m.queue.getUserRuns userId).head? = some runId ∨ runId ∉ m.queue.getUserRuns userId
  taken : ∀ id call userId runId, p id = some call → call.took = some (userId, runId) →
    runId ∉ m.queue.getUserRuns userId

theorem Fronts.init (config : RunManagerConfig) :
    Fronts (RunManager.init config) (fun _ => none) where
  head := by
    intro id call userId runId found
    cases found
  taken := by
    intro id call userId runId found
    cases found

theorem Call.acquires_of_heads {call : Call} {userId : UserId} {runId : RunId}
    (head : call.heads = some (userId, runId)) : call.acquires = some userId := by
  unfold heads at head
  split at head <;> cases head <;> rfl

theorem Call.Names.acquires {call : Call} {userId : UserId} {runId : RunId}
    (names : call.Names userId runId) : call.acquires = some userId := by
  rcases names with head | taken
  · exact acquires_of_heads head
  · unfold took at taken
    split at taken <;> cases taken <;> rfl

theorem Call.write_target {call : Call} {runId : RunId} {newState : RunState}
    (writes : call.write = some (runId, newState)) :
    (newState = .leased ∧ ∃ userId, call.took = some (userId, runId)) ∨
      (newState = .running ∧ ∃ pc, call = .startRun runId pc) ∨ isTerminalState newState = true := by
  rcases write_eq_some writes with ⟨userId, lease, rfl, rfl⟩ | ⟨run, inside, -⟩
  · exact .inl ⟨rfl, userId, rfl⟩
  · unfold transition at inside
    split at inside <;> cases inside
    · exact .inr (.inl ⟨rfl, _, rfl⟩)
    · exact .inr (.inr rfl)
    · exact .inr (.inr rfl)
    · exact .inr (.inr rfl)
    · exact .inr (.inr rfl)

theorem Lanes.head_after {m : RunManager} {p : Pending} (lanes : Lanes m p)
    (one : OneAcquires p) {id id' : Nat} {call other : Call} (different : id' ≠ id)
    (found : p id = some call) (found' : p id' = some other) {userId : UserId} {runId : RunId}
    (head : other.heads = some (userId, runId))
    (front : (m.queue.getUserRuns userId).head? = some runId) :
    ((call.queueAfter m.queue).getUserRuns userId).head? = some runId ∨
      (call.removes = some runId ∧ (m.queue.getPosition runId).isSome) := by
  unfold Call.queueAfter
  split
  · rename_i run
    left
    rw [InMemoryRunQueue.getUserRuns_enqueue]
    split
    · rename_i same
      rw [← same, List.head?_append, front]
      rfl
    · exact front
  · rename_i user _ _
    left
    rw [InMemoryRunQueue.getUserRuns_dequeue]
    split
    · rename_i same
      have clash := one id' id other _ userId found' found (Call.acquires_of_heads head)
        (by rw [same]; rfl)
      exact absurd clash different
    · exact front
  · rename_i removed _ run
    by_cases waiting : run.state = .queued
    · rw [if_pos waiting]
      rw [InMemoryRunQueue.getUserRuns_remove]
      by_cases here : removed = runId
      · subst here
        by_cases falsy : userId = ""
        · left
          rw [if_neg (fun both => both.2 falsy)]
          exact front
        · right
          refine ⟨by simp [Call.removes, waiting], ?_⟩
          have member := List.mem_of_mem_head? front
          have known := lanes.queue.indexed userId removed member
          cases position : m.queue.locate removed with
          | none => exact absurd member (m.queue.locate_eq_none removed position userId known falsy)
          | some place => simp [InMemoryRunQueue.getPosition, position]
      · left
        split
        · cases listed : m.queue.getUserRuns userId with
          | nil => simp [listed] at front
          | cons first rest =>
              rw [listed] at front
              cases front
              rw [List.erase_cons_tail (by simpa using Ne.symm here)]
              rfl
        · exact front
    · rw [if_neg waiting]
      exact .inl front
  · exact .inl front

theorem Lanes.removed_after {m : RunManager} {p : Pending} (lanes : Lanes m p) {call : Call}
    {userId : UserId} {runId : RunId} (front : (m.queue.getUserRuns userId).head? = some runId)
    (removes : call.removes = some runId) (known : (m.queue.getPosition runId).isSome) :
    runId ∉ (call.queueAfter m.queue).getUserRuns userId := by
  intro member
  unfold Call.removes at removes
  split at removes
  · split at removes
    · rename_i waiting
      cases removes
      simp only [Call.queueAfter, if_pos waiting, InMemoryRunQueue.getUserRuns_remove] at member
      split at member
      · exact List.Nodup.not_mem_erase (lanes.queue.distinct userId) member
      · rename_i falsy
        apply falsy
        have indexed := lanes.queue.indexed userId _ (List.mem_of_mem_head? front)
        refine ⟨indexed, ?_⟩
        rintro rfl
        simp [InMemoryRunQueue.getPosition, InMemoryRunQueue.locate, indexed] at known
    · cases removes
  · cases removes

theorem Lanes.absent_after {m : RunManager} {p : Pending} (lanes : Lanes m p) {id id' : Nat}
    {call other : Call} (found : p id = some call) (found' : p id' = some other) {userId : UserId}
    {runId : RunId} (names : other.Names userId runId)
    (absent : runId ∉ m.queue.getUserRuns userId) :
    runId ∉ (call.queueAfter m.queue).getUserRuns userId := by
  intro member
  rcases Call.mem_queueAfter member with earlier | ⟨run, creates, same, -⟩
  · exact absent earlier
  · exact (lanes.named id' other userId runId found' names).2 id call run found creates same

theorem Call.queueAfter_of_leases {call : Call} {asked : UserId × RunId} (q : InMemoryRunQueue)
    (asks : call.leases = some asked) : call.queueAfter q = q := by
  unfold leases at asks
  split at asks
  · rfl
  · cases asks

theorem CallStep.fronts {now : Int} {m m' : RunManager} {p p' : Pending}
    {resumed : Option (Nat × Call)} (step : CallStep now m p resumed m' p') (lanes : Lanes m p)
    (one : ∀ resuming, resumed = some resuming → OneAcquires p) (fronts : Fronts m p) :
    Fronts m' p' := by
  constructor
  · intro id' other userId runId found head
    cases step.origin found with
    | stays _ _ _ found' elsewhere =>
        have before := fronts.head id' other userId runId found' head
        cases resumed with
        | none =>
            rw [step.keeps_queue]
            exact before
        | some resuming =>
            cases step with
            | resume id call random got =>
                have different : id' ≠ id := by
                  rintro rfl
                  exact elsewhere call rfl
                rw [Call.resume_queue]
                rcases before with front | absent
                · rcases lanes.head_after (one _ rfl) different got found' head front with kept |
                    ⟨removes, known⟩
                  · exact .inl kept
                  · exact .inr (lanes.removed_after front removes known)
                · exact .inr (lanes.absent_after got found' (.inl head) absent)
    | begins request free fresh =>
        rw [Call.start_queue]
        exact .inl (Call.names_start (.inl head)).2
    | goes call random _ got goes =>
        have asks := Call.next_heads goes head
        rw [Call.resume_queue, Call.queueAfter_of_leases _ asks]
        exact fronts.head id' call userId runId got (Call.heads_of_leases asks)
    | fires runId' timeoutManager free => cases head
  · intro id' other userId runId found taken
    cases step.origin found with
    | stays _ _ _ found' elsewhere =>
        have before := fronts.taken id' other userId runId found' taken
        cases resumed with
        | none =>
            rw [step.keeps_queue]
            exact before
        | some resuming =>
            cases step with
            | resume id call random got =>
                rw [Call.resume_queue]
                exact lanes.absent_after got found' (.inr taken) before
    | begins request free fresh => cases request <;> cases taken
    | goes call random _ got goes =>
        rw [Call.resume_queue]
        rcases Call.next_took goes taken with earlier | ⟨lease, rfl⟩
        · exact lanes.absent_after got got (.inr earlier)
            (fronts.taken id' call userId runId got earlier)
        · simp only [Call.queueAfter, InMemoryRunQueue.getUserRuns_dequeue, if_true]
          rcases fronts.head id' _ userId runId got rfl with front | absent
          · exact lanes.queue.not_mem_tail userId runId front
          · intro member
            exact absent (List.mem_of_mem_tail member)
    | fires runId' timeoutManager free => cases taken

end Minerva
