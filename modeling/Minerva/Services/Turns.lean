import Minerva.Services.Calls

namespace Minerva

theorem Progress.map_await {π ρ α : Type} (wrap : π → ρ) (progress : Progress π α) (pc : ρ) :
    progress.map wrap = .await pc ↔ ∃ inner, progress = .await inner ∧ wrap inner = pc := by
  cases progress <;> simp [Progress.map]

theorem Progress.map_resolve {π ρ α : Type} (wrap : π → ρ) (progress : Progress π α) (value : α) :
    progress.map wrap = .resolve value ↔ progress = .resolve value := by
  cases progress <;> simp [Progress.map]

theorem Progress.map_reject {π ρ α : Type} (wrap : π → ρ) (progress : Progress π α)
    (error : RunError) : progress.map wrap = .reject error ↔ progress = .reject error := by
  cases progress <;> simp [Progress.map]

namespace Call

theorem pending_settle {π α : Type} (wrap : π → Call) (result : α → Option Run) (turn : Turn π α)
    (call : Call) :
    pending (settle wrap result turn) = some call ↔
      ∃ pc, turn.progress = .await pc ∧ wrap pc = call := by
  unfold settle pending
  cases turn.progress <;> simp

theorem settle_resolve {π α : Type} (wrap : π → Call) (result : α → Option Run) (turn : Turn π α)
    (run : Option Run) :
    (settle wrap result turn).progress = .resolve run ↔
      ∃ value, turn.progress = .resolve value ∧ result value = run := by
  unfold settle
  cases turn.progress <;> simp

theorem settle_await {π α : Type} (wrap : π → Call) (result : α → Option Run) (turn : Turn π α)
    (next : Call) :
    (settle wrap result turn).progress = .await next ↔
      ∃ pc, turn.progress = .await pc ∧ wrap pc = next := by
  unfold settle
  cases turn.progress <;> simp

theorem settle_reject {π α : Type} (wrap : π → Call) (result : α → Option Run) (turn : Turn π α)
    (error : RunError) :
    (settle wrap result turn).progress = .reject error ↔ turn.progress = .reject error := by
  unfold settle
  cases turn.progress <;> simp

def SameMethod : Call → Call → Prop
  | .createRun _, .createRun _ => True
  | .acquireNextRun userId _, .acquireNextRun userId' _ => userId = userId'
  | .startRun runId _, .startRun runId' _ => runId = runId'
  | .cancelRun runId reason _, .cancelRun runId' reason' _ => runId = runId' ∧ reason = reason'
  | .timeoutRun runId _, .timeoutRun runId' _ => runId = runId'
  | .completeRun runId messages _, .completeRun runId' messages' _ =>
    runId = runId' ∧ messages = messages'
  | .failRun runId error _, .failRun runId' error' _ => runId = runId' ∧ error = error'
  | _, _ => False

theorem pending_same_method (m : RunManager) (now : Int) (random : String) (call next : Call)
    (goes : pending (call.resume m now random) = some next) : SameMethod call next := by
  cases call <;> simp only [resume, pending_settle] at goes <;> obtain ⟨pc, -, rfl⟩ := goes <;>
    simp [SameMethod]

theorem pending_createRun {m : RunManager} {now : Int} {random : String} {call : Call}
    {pc : CreatePc} (goes : pending (call.resume m now random) = some (.createRun pc)) :
    ∃ before, call = .createRun before ∧ (m.createRunResume before).progress = .await pc := by
  cases call <;> simp only [resume, pending_settle] at goes <;>
    obtain ⟨pc', awaits, wrapped⟩ := goes <;> cases wrapped
  exact ⟨_, rfl, awaits⟩

theorem pending_acquireNextRun {m : RunManager} {now : Int} {random : String} {call : Call}
    {userId : UserId} {pc : AcquirePc}
    (goes : pending (call.resume m now random) = some (.acquireNextRun userId pc)) :
    ∃ before, call = .acquireNextRun userId before ∧
      (m.acquireNextRunResume now random userId before).progress = .await pc := by
  cases call <;> simp only [resume, pending_settle] at goes <;>
    obtain ⟨pc', awaits, wrapped⟩ := goes <;> cases wrapped
  exact ⟨_, rfl, awaits⟩

theorem pending_startRun {m : RunManager} {now : Int} {random : String} {call : Call}
    {runId : RunId} {pc : StartPc}
    (goes : pending (call.resume m now random) = some (.startRun runId pc)) :
    ∃ before, call = .startRun runId before ∧
      (m.startRunResume now runId before).progress = .await pc := by
  cases call <;> simp only [resume, pending_settle] at goes <;>
    obtain ⟨pc', awaits, wrapped⟩ := goes <;> cases wrapped
  exact ⟨_, rfl, awaits⟩

theorem pending_cancelRun {m : RunManager} {now : Int} {random : String} {call : Call}
    {runId : RunId} {reason : Option String} {pc : CancelPc}
    (goes : pending (call.resume m now random) = some (.cancelRun runId reason pc)) :
    ∃ before, call = .cancelRun runId reason before ∧
      (m.cancelRunResume now runId reason before).progress = .await pc := by
  cases call <;> simp only [resume, pending_settle] at goes <;>
    obtain ⟨pc', awaits, wrapped⟩ := goes <;> cases wrapped
  exact ⟨_, rfl, awaits⟩

theorem pending_timeoutRun {m : RunManager} {now : Int} {random : String} {call : Call}
    {runId : RunId} {pc : TimeoutPc}
    (goes : pending (call.resume m now random) = some (.timeoutRun runId pc)) :
    ∃ before, call = .timeoutRun runId before ∧
      (m.timeoutRunResume now runId before).progress = .await pc := by
  cases call <;> simp only [resume, pending_settle] at goes <;>
    obtain ⟨pc', awaits, wrapped⟩ := goes <;> cases wrapped
  exact ⟨_, rfl, awaits⟩

theorem pending_completeRun {m : RunManager} {now : Int} {random : String} {call : Call}
    {runId : RunId} {finalMessages : Option (List Json)} {pc : EndPc}
    (goes : pending (call.resume m now random) = some (.completeRun runId finalMessages pc)) :
    ∃ before, call = .completeRun runId finalMessages before ∧
      (m.completeRunResume now runId finalMessages before).progress = .await pc := by
  cases call <;> simp only [resume, pending_settle] at goes <;>
    obtain ⟨pc', awaits, wrapped⟩ := goes <;> cases wrapped
  exact ⟨_, rfl, awaits⟩

theorem pending_failRun {m : RunManager} {now : Int} {random : String} {call : Call}
    {runId : RunId} {error : String} {pc : EndPc}
    (goes : pending (call.resume m now random) = some (.failRun runId error pc)) :
    ∃ before, call = .failRun runId error before ∧
      (m.failRunResume now runId error before).progress = .await pc := by
  cases call <;> simp only [resume, pending_settle] at goes <;>
    obtain ⟨pc', awaits, wrapped⟩ := goes <;> cases wrapped
  exact ⟨_, rfl, awaits⟩

theorem transition_await {m : RunManager} {now : Int} {runId : RunId} {newState : RunState}
    {metadata : TransitionMetadata} {before pc : TransitionPc}
    (awaits : (m.transitionStateResume now runId newState metadata before).progress = .await pc) :
    (∃ run stored, before = .loaded (some run) ∧ isValidStateTransition run.state newState = true ∧
        m.getRun runId = some stored ∧ pc = .updated) ∨
      ∃ stored, before = .updated ∧ m.getRun runId = some stored ∧ pc = .reloaded stored := by
  cases before with
  | loaded run =>
      cases run with
      | none => cases awaits
      | some run =>
          simp only [RunManager.transitionStateResume, InMemoryRunRepository.update] at awaits
          split at awaits
          · rename_i valid
            cases found : m.repo.runs.get runId with
            | none =>
                rw [found] at awaits
                cases awaits
            | some stored =>
                rw [found] at awaits
                cases awaits
                exact .inl ⟨run, stored, rfl, valid, found, rfl⟩
          · cases awaits
  | updated =>
      simp only [RunManager.transitionStateResume, InMemoryRunRepository.getById] at awaits
      cases found : m.repo.runs.get runId with
      | none =>
          rw [found] at awaits
          cases awaits
      | some stored =>
          rw [found] at awaits
          cases awaits
          exact .inr ⟨stored, rfl, found, rfl⟩
  | reloaded run => cases awaits

theorem transition_reject {m : RunManager} {now : Int} {runId : RunId} {newState : RunState}
    {metadata : TransitionMetadata} {before : TransitionPc} {error : RunError}
    (throws : (m.transitionStateResume now runId newState metadata before).progress =
      .reject error) :
    before = .loaded none ∨ m.getRun runId = none ∨
      ∃ run, before = .loaded (some run) ∧ isValidStateTransition run.state newState = false := by
  cases before with
  | loaded run =>
      cases run with
      | none => exact .inl rfl
      | some run =>
          simp only [RunManager.transitionStateResume, InMemoryRunRepository.update] at throws
          split at throws
          · cases found : m.repo.runs.get runId with
            | none => exact .inr (.inl found)
            | some stored =>
                rw [found] at throws
                cases throws
          · rename_i invalid
            exact .inr (.inr ⟨run, rfl, by simpa using invalid⟩)
  | updated =>
      simp only [RunManager.transitionStateResume, InMemoryRunRepository.getById] at throws
      cases found : m.repo.runs.get runId with
      | none => exact .inr (.inl found)
      | some stored =>
          rw [found] at throws
          cases throws
  | reloaded run => cases throws

theorem abandon_await {m : RunManager} {runId : RunId} {reason : String} {run : Run}
    {pc : AbandonPc} (awaits : (m.abandon runId reason run).progress = .await pc) :
    (truthy run.leaseToken = none ∧ pc = .transition run (.loaded (m.getRun runId))) ∨
      (truthy run.leaseToken ≠ none ∧ pc = .released run) := by
  unfold RunManager.abandon at awaits
  cases token : truthy run.leaseToken with
  | none =>
      rw [token] at awaits
      cases awaits
      exact .inl ⟨rfl, rfl⟩
  | some leaseToken =>
      rw [token] at awaits
      cases awaits
      exact .inr ⟨by simp, rfl⟩

theorem abandon_resume_await {m : RunManager} {now : Int} {runId : RunId} {reason : String}
    {newState : RunState} {error : Run → String} {before pc : AbandonPc}
    (awaits : (m.abandonResume now runId reason newState error before).progress = .await pc) :
    (∃ run, before = .released run ∧ pc = .transition run (.loaded (m.getRun runId))) ∨
      ∃ run inner next, before = .transition run inner ∧ pc = .transition run next ∧
        (m.transitionStateResume now runId newState ⟨some (error run), none⟩ inner).progress =
          .await next := by
  cases before with
  | released run =>
      cases awaits
      exact .inl ⟨run, rfl, rfl⟩
  | transition run inner =>
      obtain ⟨next, step, rfl⟩ := (Progress.map_await _ _ _).mp awaits
      exact .inr ⟨run, inner, next, rfl, rfl, step⟩

theorem start_await {m : RunManager} {now : Int} {runId : RunId} {before pc : StartPc}
    (awaits : (m.startRunResume now runId before).progress = .await pc) :
    (∃ inner next, before = .transition inner ∧ pc = .transition next ∧
        (m.transitionStateResume now runId .running ⟨none, none⟩ inner).progress = .await next) ∨
      ∃ run, before = .transition (.reloaded run) ∧ pc = .started run := by
  cases before with
  | transition inner =>
      simp only [RunManager.startRunResume] at awaits
      cases step : (m.transitionStateResume now runId .running ⟨none, none⟩ inner).progress with
      | await next =>
          rw [step] at awaits
          cases awaits
          exact .inl ⟨inner, next, rfl, rfl, step⟩
      | resolve run =>
          have last := transition_resolves m now runId .running _ inner run step
          subst last
          rw [step] at awaits
          cases awaits
          exact .inr ⟨run, rfl, rfl⟩
      | reject error =>
          rw [step] at awaits
          cases awaits
  | started run => cases awaits

theorem start_resolve {m : RunManager} {now : Int} {runId : RunId} {before : StartPc} {run : Run}
    (answers : (m.startRunResume now runId before).progress = .resolve run) :
    before = .started run := by
  cases before with
  | transition inner =>
      simp only [RunManager.startRunResume] at answers
      split at answers <;> cases answers
  | started last =>
      cases answers
      rfl

theorem end_await {m : RunManager} {now : Int} {runId : RunId} {newState : RunState}
    {metadata : TransitionMetadata} {before pc : EndPc}
    (awaits : (m.endRunResume now runId newState metadata before).progress = .await pc) :
    (∃ run, before = .loaded (some run) ∧ truthy run.leaseToken ≠ none ∧ pc = .released) ∨
      (((∃ run, before = .loaded (some run) ∧ truthy run.leaseToken = none) ∨ before = .released) ∧
        pc = .transition (.loaded (m.getRun runId))) ∨
      ∃ inner next, before = .transition inner ∧ pc = .transition next ∧
        (m.transitionStateResume now runId newState metadata inner).progress = .await next := by
  cases before with
  | loaded run =>
      cases run with
      | none => cases awaits
      | some run =>
          simp only [RunManager.endRunResume] at awaits
          cases token : truthy run.leaseToken with
          | none =>
              rw [token] at awaits
              cases awaits
              exact .inr (.inl ⟨.inl ⟨run, rfl, token⟩, rfl⟩)
          | some leaseToken =>
              rw [token] at awaits
              cases awaits
              exact .inl ⟨run, rfl, by simp [token], rfl⟩
  | released =>
      cases awaits
      exact .inr (.inl ⟨.inr rfl, rfl⟩)
  | transition inner =>
      obtain ⟨next, step, rfl⟩ := (Progress.map_await _ _ _).mp awaits
      exact .inr (.inr ⟨inner, next, rfl, rfl, step⟩)

theorem end_resolve {m : RunManager} {now : Int} {runId : RunId} {newState : RunState}
    {metadata : TransitionMetadata} {before : EndPc} {run : Run}
    (answers : (m.endRunResume now runId newState metadata before).progress = .resolve run) :
    before = .transition (.reloaded run) := by
  cases before with
  | loaded snapshot =>
      cases snapshot with
      | none => cases answers
      | some snapshot =>
          simp only [RunManager.endRunResume] at answers
          split at answers <;> cases answers
  | released => cases answers
  | transition inner =>
      have deep := (Progress.map_resolve _ _ _).mp answers
      rw [transition_resolves m now runId newState metadata inner run deep]

theorem end_reject {m : RunManager} {now : Int} {runId : RunId} {newState : RunState}
    {metadata : TransitionMetadata} {before : EndPc} {error : RunError}
    (throws : (m.endRunResume now runId newState metadata before).progress = .reject error) :
    before = .loaded none ∨ before = .transition (.loaded none) ∨ m.getRun runId = none ∨
      ∃ run, before = .transition (.loaded (some run)) ∧
        isValidStateTransition run.state newState = false := by
  cases before with
  | loaded snapshot =>
      cases snapshot with
      | none => exact .inl rfl
      | some snapshot =>
          simp only [RunManager.endRunResume] at throws
          split at throws <;> cases throws
  | released => cases throws
  | transition inner =>
      rcases transition_reject ((Progress.map_reject _ _ _).mp throws) with rfl | missing |
        ⟨run, rfl, invalid⟩
      · exact .inr (.inl rfl)
      · exact .inr (.inr (.inl missing))
      · exact .inr (.inr (.inr ⟨run, rfl, invalid⟩))

theorem cancel_await {m : RunManager} {now : Int} {runId : RunId} {reason : Option String}
    {before pc : CancelPc} (awaits : (m.cancelRunResume now runId reason before).progress = .await pc) :
    (∃ run, before = .loaded (some run) ∧ run.state = .queued ∧ pc = .removed run) ∨
      (∃ run inner,
        ((before = .loaded (some run) ∧ isTerminalState run.state = false ∧ run.state ≠ .queued) ∨
          before = .removed run) ∧ pc = .abandoning inner ∧
        (m.abandon runId (reason.getD "user_cancelled") run).progress = .await inner) ∨
      ∃ inner next, before = .abandoning inner ∧ pc = .abandoning next ∧
        (m.abandonResume now runId (reason.getD "user_cancelled") .cancelled
          (fun _ => reason.getD "cancelled") inner).progress = .await next := by
  cases before with
  | loaded run =>
      cases run with
      | none => cases awaits
      | some run =>
          simp only [RunManager.cancelRunResume] at awaits
          split at awaits
          · cases awaits
          · rename_i live
            split at awaits
            · rename_i waiting
              cases awaits
              exact .inl ⟨run, rfl, waiting, rfl⟩
            · rename_i started
              obtain ⟨inner, step, rfl⟩ := (Progress.map_await _ _ _).mp awaits
              exact .inr (.inl ⟨run, inner, .inl ⟨rfl, by simpa using live, started⟩, rfl, step⟩)
  | removed run =>
      obtain ⟨inner, step, rfl⟩ := (Progress.map_await _ _ _).mp awaits
      exact .inr (.inl ⟨run, inner, .inr rfl, rfl, step⟩)
  | abandoning inner =>
      obtain ⟨next, step, rfl⟩ := (Progress.map_await _ _ _).mp awaits
      exact .inr (.inr ⟨inner, next, rfl, rfl, step⟩)

theorem timeout_settle_await (turn : Turn AbandonPc Run) (pc : TimeoutPc) :
    (RunManager.timeoutRunResume.settle turn).progress = .await pc ↔
      ∃ inner, turn.progress = .await inner ∧ .abandoning inner = pc := by
  unfold RunManager.timeoutRunResume.settle
  cases turn.progress <;> simp

theorem timeout_await {m : RunManager} {now : Int} {runId : RunId} {before pc : TimeoutPc}
    (awaits : (m.timeoutRunResume now runId before).progress = .await pc) :
    (∃ run inner, before = .loaded (some run) ∧ isTerminalState run.state = false ∧
        pc = .abandoning inner ∧ (m.abandon runId "timeout" run).progress = .await inner) ∨
      ∃ inner next, before = .abandoning inner ∧ pc = .abandoning next ∧
        (m.abandonResume now runId "timeout" .timedOut
          (fun run => "Run exceeded maximum duration of " ++ toString run.maxDurationMs ++ "ms")
          inner).progress = .await next := by
  cases before with
  | loaded run =>
      cases run with
      | none => cases awaits
      | some run =>
          simp only [RunManager.timeoutRunResume] at awaits
          split at awaits
          · cases awaits
          · rename_i live
            obtain ⟨inner, step, rfl⟩ := (timeout_settle_await _ _).mp awaits
            exact .inl ⟨run, inner, rfl, by simpa using live, rfl, step⟩
  | abandoning inner =>
      obtain ⟨next, step, rfl⟩ := (timeout_settle_await _ _).mp awaits
      exact .inr ⟨inner, next, rfl, rfl, step⟩

theorem acquire_await {m : RunManager} {now : Int} {random : String} {userId : UserId}
    {before pc : AcquirePc}
    (awaits : (m.acquireNextRunResume now random userId before).progress = .await pc) :
    (∃ id, before = .peeked (some id) ∧ id ≠ "" ∧
        pc = .leased id (m.leaseManager.acquire now random userId id m.config.leaseTtlMs).2) ∨
      (∃ id lease, before = .leased id (some lease) ∧ pc = .dequeued id lease) ∨
      (∃ id lease stored, before = .dequeued id lease ∧ m.getRun id = some stored ∧
        pc = .updated id) ∨
      ∃ id, before = .updated id ∧ pc = .reloaded id (m.getRun id) := by
  cases before with
  | peeked nextRunId =>
      cases nextRunId with
      | none => cases awaits
      | some id =>
          simp only [RunManager.acquireNextRunResume] at awaits
          split at awaits
          · cases awaits
          · rename_i named
            cases awaits
            exact .inl ⟨id, rfl, named, rfl⟩
  | leased id lease =>
      cases lease with
      | none => cases awaits
      | some lease =>
          cases awaits
          exact .inr (.inl ⟨id, lease, rfl, rfl⟩)
  | dequeued id lease =>
      simp only [RunManager.acquireNextRunResume, InMemoryRunRepository.update] at awaits
      cases found : m.repo.runs.get id with
      | none =>
          rw [found] at awaits
          cases awaits
      | some stored =>
          rw [found] at awaits
          cases awaits
          exact .inr (.inr (.inl ⟨id, lease, stored, rfl, found, rfl⟩))
  | updated id =>
      cases awaits
      exact .inr (.inr (.inr ⟨id, rfl, rfl⟩))
  | reloaded id run => cases awaits

theorem acquire_resolve {m : RunManager} {now : Int} {random : String} {userId : UserId}
    {before : AcquirePc} {run : Option Run}
    (answers : (m.acquireNextRunResume now random userId before).progress = .resolve run) :
    (∃ id, before = .reloaded id run) ∨
      run = none ∧ (before = .peeked none ∨ before = .peeked (some "") ∨
        ∃ id, before = .leased id none) := by
  cases before with
  | peeked nextRunId =>
      cases nextRunId with
      | none =>
          cases answers
          exact .inr ⟨rfl, .inl rfl⟩
      | some id =>
          simp only [RunManager.acquireNextRunResume] at answers
          split at answers
          · rename_i falsy
            cases answers
            exact .inr ⟨rfl, .inr (.inl (by rw [falsy]))⟩
          · cases answers
  | leased id lease =>
      cases lease with
      | none =>
          cases answers
          exact .inr ⟨rfl, .inr (.inr ⟨id, rfl⟩)⟩
      | some lease => cases answers
  | dequeued id lease =>
      simp only [RunManager.acquireNextRunResume] at answers
      split at answers <;> cases answers
  | updated id => cases answers
  | reloaded id last =>
      cases answers
      exact .inl ⟨id, rfl⟩

theorem acquire_reject {m : RunManager} {now : Int} {random : String} {userId : UserId}
    {before : AcquirePc} {error : RunError}
    (throws : (m.acquireNextRunResume now random userId before).progress = .reject error) :
    ∃ id lease, before = .dequeued id lease ∧ m.getRun id = none := by
  cases before with
  | peeked nextRunId =>
      cases nextRunId with
      | none => cases throws
      | some id =>
          simp only [RunManager.acquireNextRunResume] at throws
          split at throws <;> cases throws
  | leased id lease => cases lease <;> cases throws
  | dequeued id lease =>
      simp only [RunManager.acquireNextRunResume, InMemoryRunRepository.update] at throws
      cases found : m.repo.runs.get id with
      | none => exact ⟨id, lease, rfl, found⟩
      | some stored =>
          rw [found] at throws
          cases throws
  | updated id => cases throws
  | reloaded id run => cases throws

theorem create_await {m : RunManager} {before pc : CreatePc}
    (awaits : (m.createRunResume before).progress = .await pc) :
    (∃ run position, before = .persisted run ∧ pc = .enqueued run position) ∨
      ∃ run position, before = .enqueued run position ∧
        pc = .updated { run with queuePosition := some position } := by
  cases before with
  | persisted run =>
      cases awaits
      exact .inl ⟨run, _, rfl, rfl⟩
  | enqueued run position =>
      simp only [RunManager.createRunResume] at awaits
      split at awaits <;> cases awaits
      exact .inr ⟨run, position, rfl, rfl⟩
  | updated run => cases awaits

/-- A call that awaits inside of `transitionState` has just entered it, with the run as it is
stored now, or has gone on by one part. -/
theorem transition_next {m : RunManager} {now : Int} {random : String} {call next : Call}
    {runId : RunId} {newState : RunState} {pc : TransitionPc}
    (goes : pending (call.resume m now random) = some next)
    (inside : next.transition = some (runId, newState, pc)) :
    (call.transition = none ∧ call.write = none ∧ pc = .loaded (m.getRun runId)) ∨
      ∃ before metadata, call.transition = some (runId, newState, before) ∧
        (m.transitionStateResume now runId newState metadata before).progress = .await pc := by
  cases call <;> simp only [resume, pending_settle] at goes <;>
    obtain ⟨after, awaits, rfl⟩ := goes
  case createRun => cases inside
  case acquireNextRun => cases inside
  case startRun id before =>
      rcases start_await awaits with ⟨inner, last, rfl, rfl, step⟩ | ⟨run, rfl, rfl⟩
      · cases inside
        exact .inr ⟨inner, _, rfl, step⟩
      · cases inside
  case cancelRun id reason before =>
      rcases cancel_await awaits with ⟨run, rfl, -, rfl⟩ | ⟨run, inner, place, rfl, step⟩ |
        ⟨inner, last, rfl, rfl, step⟩
      · cases inside
      · rcases abandon_await step with ⟨-, rfl⟩ | ⟨-, rfl⟩
        · cases inside
          rcases place with ⟨rfl, -, -⟩ | rfl
          · exact .inl ⟨rfl, rfl, rfl⟩
          · exact .inl ⟨rfl, rfl, rfl⟩
        · cases inside
      · rcases abandon_resume_await step with ⟨run, rfl, rfl⟩ | ⟨run, inner', next', rfl, rfl, deep⟩
        · cases inside
          exact .inl ⟨rfl, rfl, rfl⟩
        · cases inside
          exact .inr ⟨inner', _, rfl, deep⟩
  case timeoutRun id before =>
      rcases timeout_await awaits with ⟨run, inner, rfl, -, rfl, step⟩ | ⟨inner, last, rfl, rfl, step⟩
      · rcases abandon_await step with ⟨-, rfl⟩ | ⟨-, rfl⟩
        · cases inside
          exact .inl ⟨rfl, rfl, rfl⟩
        · cases inside
      · rcases abandon_resume_await step with ⟨run, rfl, rfl⟩ | ⟨run, inner', next', rfl, rfl, deep⟩
        · cases inside
          exact .inl ⟨rfl, rfl, rfl⟩
        · cases inside
          exact .inr ⟨inner', _, rfl, deep⟩
  case completeRun id finalMessages before =>
      rcases end_await awaits with ⟨run, rfl, -, rfl⟩ | ⟨place, rfl⟩ | ⟨inner, last, rfl, rfl, step⟩
      · cases inside
      · cases inside
        rcases place with ⟨run, rfl, -⟩ | rfl
        · exact .inl ⟨rfl, rfl, rfl⟩
        · exact .inl ⟨rfl, rfl, rfl⟩
      · cases inside
        exact .inr ⟨inner, _, rfl, step⟩
  case failRun id error before =>
      rcases end_await awaits with ⟨run, rfl, -, rfl⟩ | ⟨place, rfl⟩ | ⟨inner, last, rfl, rfl, step⟩
      · cases inside
      · cases inside
        rcases place with ⟨run, rfl, -⟩ | rfl
        · exact .inl ⟨rfl, rfl, rfl⟩
        · exact .inl ⟨rfl, rfl, rfl⟩
      · cases inside
        exact .inr ⟨inner, _, rfl, step⟩

end Call

end Minerva
