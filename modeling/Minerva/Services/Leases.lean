import Minerva.Services.Queued

namespace Minerva

namespace Call

/-- The run whose snapshot a call is about to give the lease of back, and the call's target. -/
def gives : Call → Option (RunId × Run × RunState)
  | .cancelRun runId _ (.loaded (some run)) =>
    if isTerminalState run.state ∨ run.state = .queued then none else some (runId, run, .cancelled)
  | .cancelRun runId _ (.removed run) => some (runId, run, .cancelled)
  | .timeoutRun runId (.loaded (some run)) =>
    if isTerminalState run.state then none else some (runId, run, .timedOut)
  | .completeRun runId _ (.loaded (some run)) => some (runId, run, .completed)
  | .failRun runId _ (.loaded (some run)) => some (runId, run, .failed)
  | _ => none

def leasesAfter (l : InMemoryLeaseManager) (now : Int) (random : String) (ttlMs : Int)
    (call : Call) : InMemoryLeaseManager :=
  match call.leases with
  | some (userId, runId) => if runId = "" then l else (l.acquire now random userId runId ttlMs).1
  | none =>
    match call.gives with
    | some (_, run, _) => (truthy run.leaseToken).elim l l.release
    | none => l

theorem transition_leases (m : RunManager) (now : Int) (runId : RunId) (newState : RunState)
    (metadata : TransitionMetadata) (pc : TransitionPc) :
    (m.transitionStateResume now runId newState metadata pc).manager.leaseManager =
      m.leaseManager := by
  cases pc with
  | loaded run =>
      cases run with
      | none => rfl
      | some run =>
          simp only [RunManager.transitionStateResume]
          split
          · split <;> rfl
          · rfl
  | updated =>
      simp only [RunManager.transitionStateResume]
      split <;> rfl
  | reloaded run => rfl

theorem abandon_leases (m : RunManager) (runId : RunId) (reason : String) (run : Run) :
    (m.abandon runId reason run).manager.leaseManager =
      (truthy run.leaseToken).elim m.leaseManager m.leaseManager.release := by
  unfold RunManager.abandon
  cases truthy run.leaseToken <;> rfl

theorem abandon_resume_leases (m : RunManager) (now : Int) (runId : RunId) (reason : String)
    (newState : RunState) (error : Run → String) (pc : AbandonPc) :
    (m.abandonResume now runId reason newState error pc).manager.leaseManager =
      m.leaseManager := by
  cases pc with
  | released run => rfl
  | transition run pc => exact transition_leases m now runId newState _ pc

theorem end_leases (m : RunManager) (now : Int) (runId : RunId) (newState : RunState)
    (metadata : TransitionMetadata) (pc : EndPc) :
    (m.endRunResume now runId newState metadata pc).manager.leaseManager =
      match pc with
      | .loaded (some run) => (truthy run.leaseToken).elim m.leaseManager m.leaseManager.release
      | _ => m.leaseManager := by
  cases pc with
  | loaded run =>
      cases run with
      | none => rfl
      | some run =>
          simp only [RunManager.endRunResume]
          cases truthy run.leaseToken <;> rfl
  | released => rfl
  | transition pc => exact transition_leases m now runId newState metadata pc

theorem resume_leases (m : RunManager) (now : Int) (random : String) (call : Call) :
    (call.resume m now random).manager.leaseManager =
      call.leasesAfter m.leaseManager now random m.config.leaseTtlMs := by
  cases call with
  | createRun pc =>
      cases pc with
      | persisted run => rfl
      | enqueued run position =>
          simp only [resume, settle_manager, RunManager.createRunResume]
          split <;> rfl
      | updated run => rfl
  | acquireNextRun userId pc =>
      cases pc with
      | peeked nextRunId =>
          cases nextRunId with
          | none => rfl
          | some id =>
              simp only [resume, settle_manager, RunManager.acquireNextRunResume, leasesAfter,
                leases]
              split <;> rfl
      | leased nextRunId lease => cases lease <;> rfl
      | dequeued nextRunId lease =>
          simp only [resume, settle_manager, RunManager.acquireNextRunResume]
          split <;> rfl
      | updated nextRunId => rfl
      | reloaded nextRunId run => rfl
  | startRun runId pc =>
      cases pc with
      | transition pc =>
          have kept := transition_leases m now runId .running ⟨none, none⟩ pc
          simp only [resume, settle_manager, RunManager.startRunResume]
          split <;> exact kept
      | started run => rfl
  | cancelRun runId reason pc =>
      cases pc with
      | loaded run =>
          cases run with
          | none => rfl
          | some run =>
              simp only [resume, settle_manager, RunManager.cancelRunResume, leasesAfter, leases,
                gives]
              by_cases terminal : isTerminalState run.state = true
              · rw [if_pos terminal, if_pos (.inl terminal)]
              · by_cases waiting : run.state = .queued
                · rw [if_neg terminal, if_pos waiting, if_pos (.inr waiting)]
                · have neither : ¬(isTerminalState run.state = true ∨ run.state = .queued) := by
                    rintro (first | second)
                    · exact terminal first
                    · exact waiting second
                  rw [if_neg terminal, if_neg waiting, if_neg neither]
                  exact abandon_leases m runId _ run
      | removed run => exact (settle_manager _ _ _).symm ▸ abandon_leases m runId _ run
      | abandoning pc =>
          exact (settle_manager _ _ _).symm ▸ abandon_resume_leases m now runId _ _ _ pc
  | timeoutRun runId pc =>
      cases pc with
      | loaded run =>
          cases run with
          | none => rfl
          | some run =>
              simp only [resume, settle_manager, RunManager.timeoutRunResume, leasesAfter, leases,
                gives]
              by_cases terminal : isTerminalState run.state = true
              · rw [if_pos terminal, if_pos terminal]
              · rw [if_neg terminal, if_neg terminal, timeout_settle_manager]
                exact abandon_leases m runId _ run
      | abandoning pc =>
          simp only [resume, settle_manager, RunManager.timeoutRunResume, timeout_settle_manager]
          exact abandon_resume_leases m now runId _ _ _ pc
  | completeRun runId finalMessages pc =>
      have given := end_leases m now runId .completed ⟨none, finalMessages⟩ pc
      refine (settle_manager _ _ _).symm ▸ given.trans ?_
      cases pc with
      | loaded run => cases run <;> rfl
      | _ => rfl
  | failRun runId error pc =>
      have given := end_leases m now runId .failed ⟨some error, none⟩ pc
      refine (settle_manager _ _ _).symm ▸ given.trans ?_
      cases pc with
      | loaded run => cases run <;> rfl
      | _ => rfl

end Call

end Minerva
