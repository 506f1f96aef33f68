import Minerva.Library.Transition
import Minerva.Services.RunManager

/-! Concurrently invoked `RunManager` methods: a pool of calls in progress over one set of
stores. A step begins a call, resumes one of the suspended calls, fires a due timer or lets
time pass. -/

namespace Minerva

/-- A call in progress: its arguments and the place where it is suspended. -/
inductive Call where
  | createRun (pc : CreatePc)
  | acquireNextRun (userId : UserId) (pc : AcquirePc)
  | startRun (runId : RunId) (pc : StartPc)
  | cancelRun (runId : RunId) (reason : Option String) (pc : CancelPc)
  | timeoutRun (runId : RunId) (pc : TimeoutPc)
  | completeRun (runId : RunId) (finalMessages : Option (List Json)) (pc : EndPc)
  | failRun (runId : RunId) (error : String) (pc : EndPc)

inductive Request where
  | createRun (random : String) (input : CreateRunInput)
  | acquireNextRun (userId : UserId)
  | startRun (runId : RunId)
  | cancelRun (runId : RunId) (reason : Option String)
  | completeRun (runId : RunId) (finalMessages : Option (List Json))
  | failRun (runId : RunId) (error : String)

namespace Call

def start (m : RunManager) (now : Int) : Request → RunManager × Call
  | .createRun random input =>
    let (m, pc) := m.createRun now random input
    (m, .createRun pc)
  | .acquireNextRun userId => (m, .acquireNextRun userId (m.acquireNextRun userId))
  | .startRun runId => (m, .startRun runId (m.startRun runId))
  | .cancelRun runId reason => (m, .cancelRun runId reason (m.cancelRun runId))
  | .completeRun runId finalMessages => (m, .completeRun runId finalMessages (m.completeRun runId))
  | .failRun runId error => (m, .failRun runId error (m.failRun runId))

def settle {π α : Type} (wrap : π → Call) (result : α → Option Run) (turn : Turn π α) :
    Turn Call (Option Run) :=
  match turn.progress with
  | .await pc => ⟨turn.manager, turn.aborts, .await (wrap pc)⟩
  | .resolve value => ⟨turn.manager, turn.aborts, .resolve (result value)⟩
  | .reject error => ⟨turn.manager, turn.aborts, .reject error⟩

def resume (m : RunManager) (now : Int) (random : String) : Call → Turn Call (Option Run)
  | .createRun pc => settle .createRun some (m.createRunResume pc)
  | .acquireNextRun userId pc =>
    settle (.acquireNextRun userId) id (m.acquireNextRunResume now random userId pc)
  | .startRun runId pc => settle (.startRun runId) some (m.startRunResume now runId pc)
  | .cancelRun runId reason pc =>
    settle (.cancelRun runId reason) some (m.cancelRunResume now runId reason pc)
  | .timeoutRun runId pc => settle (.timeoutRun runId) id (m.timeoutRunResume now runId pc)
  | .completeRun runId finalMessages pc =>
    settle (.completeRun runId finalMessages) some
      (m.completeRunResume now runId finalMessages pc)
  | .failRun runId error pc =>
    settle (.failRun runId error) some (m.failRunResume now runId error pc)

/-- The call that is left after a turn; none when the method's promise has settled. -/
def pending (turn : Turn Call (Option Run)) : Option Call :=
  match turn.progress with
  | .await call => some call
  | .resolve _ => none
  | .reject _ => none

/-- The `transitionState` that a call is inside of: its run, its target and its place. -/
def transition : Call → Option (RunId × RunState × TransitionPc)
  | .startRun runId (.transition pc) => some (runId, .running, pc)
  | .cancelRun runId _ (.abandoning (.transition _ pc)) => some (runId, .cancelled, pc)
  | .timeoutRun runId (.abandoning (.transition _ pc)) => some (runId, .timedOut, pc)
  | .completeRun runId _ (.transition pc) => some (runId, .completed, pc)
  | .failRun runId _ (.transition pc) => some (runId, .failed, pc)
  | _ => none

def write : Call → Option (RunId × RunState)
  | .acquireNextRun _ (.dequeued nextRunId _) => some (nextRunId, .leased)
  | call =>
    match call.transition with
    | some (runId, newState, .loaded (some run)) =>
      if isValidStateTransition run.state newState then some (runId, newState) else none
    | _ => none

/-- The snapshot that a cancelling or ending call took of its run and has not yet used up. -/
def snapshot : Call → Option (RunId × Run)
  | .cancelRun runId _ (.loaded (some run)) => some (runId, run)
  | .cancelRun runId _ (.removed run) => some (runId, run)
  | .timeoutRun runId (.loaded (some run)) => some (runId, run)
  | .completeRun runId _ (.loaded (some run)) => some (runId, run)
  | .failRun runId _ (.loaded (some run)) => some (runId, run)
  | _ => none

def signals : Call → Option (RunId × String)
  | .cancelRun runId reason _ => some (runId, reason.getD "user_cancelled")
  | .timeoutRun runId _ => some (runId, "timeout")
  | _ => none

def ends : Call → Option RunId
  | .completeRun runId _ _ => some runId
  | .failRun runId _ _ => some runId
  | _ => none

/-- Everything one turn of a call can do to the stores. -/
inductive Effect (m : RunManager) (now : Int) (random : String) : Call → RunManager → Prop
  | idle (call : Call) : Effect m now random call m
  | enqueue (run : Run) : Effect m now random (.createRun (.persisted run))
      { m with queue := (m.queue.enqueue run.id run.userId).1 }
  | position (run stored : Run) (position : Nat) (found : m.getRun run.id = some stored) :
      Effect m now random (.createRun (.enqueued run position))
        { m with
          repo := ⟨m.repo.runs.set run.id { stored with queuePosition := some position }⟩ }
  | acquire (userId : UserId) (nextRunId : RunId) (named : nextRunId ≠ "") :
      Effect m now random (.acquireNextRun userId (.peeked (some nextRunId)))
        { m with
          leaseManager :=
            (m.leaseManager.acquire now random userId nextRunId m.config.leaseTtlMs).1 }
  | dequeue (userId : UserId) (nextRunId : RunId) (lease : Lease) :
      Effect m now random (.acquireNextRun userId (.leased nextRunId (some lease)))
        { m with queue := (m.queue.dequeue userId).1 }
  | leased (userId : UserId) (nextRunId : RunId) (lease : Lease) (stored : Run)
      (found : m.getRun nextRunId = some stored) :
      Effect m now random (.acquireNextRun userId (.dequeued nextRunId lease))
        { m with repo := ⟨m.repo.runs.set nextRunId (RunManager.leasedUpdates now lease stored)⟩ }
  | transition (call : Call) (runId : RunId) (newState : RunState) (run stored : Run)
      (metadata : TransitionMetadata)
      (inside : call.transition = some (runId, newState, .loaded (some run)))
      (valid : isValidStateTransition run.state newState = true)
      (found : m.getRun runId = some stored) :
      Effect m now random call
        { m with
          timeoutManager :=
            if isTerminalState newState then (m.timeoutManager.clear runId).1 else m.timeoutManager
          repo :=
            ⟨m.repo.runs.set runId (RunManager.transitionUpdates run newState now metadata stored)⟩ }
  | vanished (call : Call) (runId : RunId) (newState : RunState) (run : Run)
      (inside : call.transition = some (runId, newState, .loaded (some run)))
      (valid : isValidStateTransition run.state newState = true)
      (missing : m.getRun runId = none) :
      Effect m now random call
        { m with
          timeoutManager :=
            if isTerminalState newState then (m.timeoutManager.clear runId).1 else m.timeoutManager }
  | begun (runId : RunId) (run : Run) :
      Effect m now random (.startRun runId (.transition (.reloaded run)))
        { m with
          cancellationRegistry := m.cancellationRegistry.create runId
          timeoutManager :=
            (m.timeoutManager.schedule now runId run.maxDurationMs TimeoutCallback.timeoutRun).1 }
  | remove (runId : RunId) (reason : Option String) (run : Run) (waiting : run.state = .queued) :
      Effect m now random (.cancelRun runId reason (.loaded (some run)))
        { m with queue := (m.queue.remove runId).1 }
  | release (call : Call) (runId : RunId) (run : Run) (leaseToken : String)
      (holds : call.snapshot = some (runId, run)) (token : truthy run.leaseToken = some leaseToken) :
      Effect m now random call { m with leaseManager := m.leaseManager.release leaseToken }
  | signal (call : Call) (runId : RunId) (reason : String)
      (cancels : call.signals = some (runId, reason)) :
      Effect m now random call
        { m with cancellationRegistry := (m.cancellationRegistry.cancel runId (some reason)).1 }
  | forget (call : Call) (runId : RunId) (ending : call.ends = some runId) :
      Effect m now random call
        { m with cancellationRegistry := m.cancellationRegistry.remove runId }

@[simp] theorem settle_manager {π α : Type} (wrap : π → Call) (result : α → Option Run)
    (turn : Turn π α) : (settle wrap result turn).manager = turn.manager := by
  unfold settle
  split <;> rfl

@[simp] theorem timeout_settle_manager (turn : Turn AbandonPc Run) :
    (RunManager.timeoutRunResume.settle turn).manager = turn.manager := by
  unfold RunManager.timeoutRunResume.settle
  split <;> rfl

theorem transition_effect {m : RunManager} {now : Int} {random : String} {call : Call}
    {runId : RunId} {newState : RunState} {pc : TransitionPc} (metadata : TransitionMetadata)
    (inside : call.transition = some (runId, newState, pc)) :
    Effect m now random call
      (m.transitionStateResume now runId newState metadata pc).manager := by
  cases pc with
  | loaded run =>
      cases run with
      | none => exact .idle call
      | some run =>
          simp only [RunManager.transitionStateResume, InMemoryRunRepository.update]
          split
          · rename_i valid
            cases found : m.repo.runs.get runId with
            | none => exact .vanished call runId newState run inside valid found
            | some stored =>
                exact .transition call runId newState run stored metadata inside valid found
          · exact .idle call
  | updated =>
      simp only [RunManager.transitionStateResume]
      split <;> exact .idle call
  | reloaded run => exact .idle call

theorem transition_resolves (m : RunManager) (now : Int) (runId : RunId) (newState : RunState)
    (metadata : TransitionMetadata) (pc : TransitionPc) (run : Run)
    (resolved : (m.transitionStateResume now runId newState metadata pc).progress = .resolve run) :
    pc = .reloaded run := by
  cases pc with
  | loaded snapshot =>
      cases snapshot with
      | none => simp [RunManager.transitionStateResume] at resolved
      | some snapshot =>
          simp only [RunManager.transitionStateResume] at resolved
          split at resolved
          · split at resolved <;> cases resolved
          · cases resolved
  | updated =>
      simp only [RunManager.transitionStateResume] at resolved
      split at resolved <;> cases resolved
  | reloaded last =>
      cases resolved
      rfl

theorem abandon_effect {m : RunManager} {now : Int} {random : String} {call : Call}
    {runId : RunId} {reason : String} {run : Run} (holds : call.snapshot = some (runId, run))
    (cancels : call.signals = some (runId, reason)) :
    Effect m now random call (m.abandon runId reason run).manager := by
  unfold RunManager.abandon
  cases token : truthy run.leaseToken with
  | none => exact .signal call runId reason cancels
  | some leaseToken => exact .release call runId run leaseToken holds token

theorem endRun_effect {m : RunManager} {now : Int} {random : String} {call : Call}
    {runId : RunId} {newState : RunState} {metadata : TransitionMetadata} {pc : EndPc}
    (ending : call.ends = some runId)
    (holds : ∀ run, pc = .loaded (some run) → call.snapshot = some (runId, run))
    (inside : ∀ inner, pc = .transition inner → call.transition = some (runId, newState, inner)) :
    Effect m now random call (m.endRunResume now runId newState metadata pc).manager := by
  cases pc with
  | loaded run =>
      cases run with
      | none => exact .idle call
      | some run =>
          simp only [RunManager.endRunResume]
          cases token : truthy run.leaseToken with
          | none => exact .forget call runId ending
          | some leaseToken => exact .release call runId run leaseToken (holds run rfl) token
  | released => exact .forget call runId ending
  | transition pc => exact transition_effect metadata (inside pc rfl)

/-- One turn of a call has one of the listed effects, whatever the interleaving did before. -/
theorem resume_effect (m : RunManager) (now : Int) (random : String) (call : Call) :
    Effect m now random call (call.resume m now random).manager := by
  cases call with
  | createRun pc =>
      cases pc with
      | persisted run => exact .enqueue run
      | enqueued run position =>
          simp only [resume, settle_manager, RunManager.createRunResume,
            InMemoryRunRepository.update]
          cases found : m.repo.runs.get run.id with
          | none => exact .idle _
          | some stored => exact .position run stored position found
      | updated run => exact .idle _
  | acquireNextRun userId pc =>
      simp only [resume, settle_manager]
      cases pc with
      | peeked nextRunId =>
          cases nextRunId with
          | none => exact .idle _
          | some id =>
              simp only [RunManager.acquireNextRunResume]
              split
              · exact .idle _
              · rename_i named
                exact .acquire userId id named
      | leased nextRunId lease =>
          cases lease with
          | none => exact .idle _
          | some lease => exact .dequeue userId nextRunId lease
      | dequeued nextRunId lease =>
          simp only [RunManager.acquireNextRunResume, InMemoryRunRepository.update]
          cases found : m.repo.runs.get nextRunId with
          | none => exact .idle _
          | some stored => exact .leased userId nextRunId lease stored found
      | updated nextRunId => exact .idle _
      | reloaded nextRunId run => exact .idle _
  | startRun runId pc =>
      simp only [resume, settle_manager]
      cases pc with
      | transition pc =>
          have effect : Effect m now random (.startRun runId (.transition pc))
              (m.transitionStateResume now runId .running ⟨none, none⟩ pc).manager :=
            transition_effect _ rfl
          simp only [RunManager.startRunResume]
          split
          · exact effect
          · exact effect
          · rename_i run resolved
            have last := transition_resolves m now runId .running _ pc run resolved
            subst last
            exact .begun runId run
      | started run => exact .idle _
  | cancelRun runId reason pc =>
      simp only [resume, settle_manager]
      cases pc with
      | loaded run =>
          cases run with
          | none => exact .idle _
          | some run =>
              simp only [RunManager.cancelRunResume]
              split
              · exact .idle _
              · split
                · rename_i waiting
                  exact .remove runId reason run waiting
                · exact abandon_effect rfl rfl
      | removed run => exact abandon_effect rfl rfl
      | abandoning pc =>
          cases pc with
          | released run => exact .signal _ runId _ rfl
          | transition run pc => exact transition_effect _ rfl
  | timeoutRun runId pc =>
      simp only [resume, settle_manager]
      cases pc with
      | loaded run =>
          cases run with
          | none => exact .idle _
          | some run =>
              simp only [RunManager.timeoutRunResume]
              split
              · exact .idle _
              · rw [timeout_settle_manager]
                exact abandon_effect rfl rfl
      | abandoning pc =>
          simp only [RunManager.timeoutRunResume, timeout_settle_manager]
          cases pc with
          | released run => exact .signal _ runId _ rfl
          | transition run pc => exact transition_effect _ rfl
  | completeRun runId finalMessages pc =>
      simp only [resume, settle_manager, RunManager.completeRunResume]
      apply endRun_effect rfl
      · intro run at_
        subst at_
        rfl
      · intro inner at_
        subst at_
        rfl
  | failRun runId error pc =>
      simp only [resume, settle_manager, RunManager.failRunResume]
      apply endRun_effect rfl
      · intro run at_
        subst at_
        rfl
      · intro inner at_
        subst at_
        rfl

end Call

end Minerva
