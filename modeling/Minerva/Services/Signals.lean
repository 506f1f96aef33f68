import Minerva.Services.Queued

namespace Minerva

namespace Call

def cancels : Call → Option (RunId × String)
  | .cancelRun runId reason (.loaded (some run)) =>
    if isTerminalState run.state ∨ run.state = .queued then none
    else
      match truthy run.leaseToken with
      | none => some (runId, reason.getD "user_cancelled")
      | some _ => none
  | .cancelRun runId reason (.removed run) =>
    match truthy run.leaseToken with
    | none => some (runId, reason.getD "user_cancelled")
    | some _ => none
  | .cancelRun runId reason (.abandoning (.released _)) =>
    some (runId, reason.getD "user_cancelled")
  | .timeoutRun runId (.loaded (some run)) =>
    if isTerminalState run.state then none
    else
      match truthy run.leaseToken with
      | none => some (runId, "timeout")
      | some _ => none
  | .timeoutRun runId (.abandoning (.released _)) => some (runId, "timeout")
  | _ => none

def forgets : Call → Option RunId
  | .completeRun runId _ (.loaded (some run)) =>
    if truthy run.leaseToken = none then some runId else none
  | .completeRun runId _ .released => some runId
  | .failRun runId _ (.loaded (some run)) =>
    if truthy run.leaseToken = none then some runId else none
  | .failRun runId _ .released => some runId
  | _ => none

theorem ends_of_forgets {call : Call} {runId : RunId} (forgets : call.forgets = some runId) :
    call.ends = some runId := by
  unfold Call.forgets at forgets
  split at forgets
  · split at forgets <;> cases forgets
    rfl
  · cases forgets
    rfl
  · split at forgets <;> cases forgets
    rfl
  · cases forgets
    rfl
  · cases forgets

inductive Signals (registry : InMemoryCancellationRegistry) (call : Call) :
    InMemoryCancellationRegistry → List Abort → Prop
  | silent (keeps : call.cancels = none) : Signals registry call registry []
  | creates (runId : RunId) (run : Run)
      (starts : call = .startRun runId (.transition (.reloaded run))) :
      Signals registry call (registry.create runId) []
  | cancels (runId : RunId) (reason : String) (cancels : call.cancels = some (runId, reason)) :
      Signals registry call (registry.cancel runId (some reason)).1
        (registry.cancel runId (some reason)).2
  | forgets (runId : RunId) (forgets : call.forgets = some runId) :
      Signals registry call (registry.remove runId) []

theorem transition_signals (m : RunManager) (now : Int) (runId : RunId) (newState : RunState)
    (metadata : TransitionMetadata) (pc : TransitionPc) :
    (m.transitionStateResume now runId newState metadata pc).manager.cancellationRegistry =
        m.cancellationRegistry ∧
      (m.transitionStateResume now runId newState metadata pc).aborts = [] := by
  cases pc with
  | loaded run =>
      cases run with
      | none => exact ⟨rfl, rfl⟩
      | some run =>
          simp only [RunManager.transitionStateResume]
          split
          · split <;> exact ⟨rfl, rfl⟩
          · exact ⟨rfl, rfl⟩
  | updated =>
      simp only [RunManager.transitionStateResume]
      split <;> exact ⟨rfl, rfl⟩
  | reloaded run => exact ⟨rfl, rfl⟩

@[simp] theorem settle_aborts {π α : Type} (wrap : π → Call) (result : α → Option Run)
    (turn : Turn π α) : (settle wrap result turn).aborts = turn.aborts := by
  unfold settle
  split <;> rfl

@[simp] theorem timeout_settle_aborts (turn : Turn AbandonPc Run) :
    (RunManager.timeoutRunResume.settle turn).aborts = turn.aborts := by
  unfold RunManager.timeoutRunResume.settle
  split <;> rfl

variable {m : RunManager} {call : Call} {runId : RunId}

theorem abandon_signals {reason : String} {run : Run}
    (cancels : call.cancels = (match truthy run.leaseToken with
      | none => some (runId, reason)
      | some _ => none)) :
    Signals m.cancellationRegistry call
      (m.abandon runId reason run).manager.cancellationRegistry
      (m.abandon runId reason run).aborts := by
  unfold RunManager.abandon
  cases token : truthy run.leaseToken with
  | none =>
      rw [token] at cancels
      exact .cancels runId reason cancels
  | some leaseToken =>
      rw [token] at cancels
      exact .silent cancels

theorem abandon_resume_signals {now : Int} {reason : String} {newState : RunState}
    {error : Run → String} {pc : AbandonPc}
    (released : ∀ run, pc = .released run → call.cancels = some (runId, reason))
    (inside : ∀ run inner, pc = .transition run inner → call.cancels = none) :
    Signals m.cancellationRegistry call
      (m.abandonResume now runId reason newState error pc).manager.cancellationRegistry
      (m.abandonResume now runId reason newState error pc).aborts := by
  cases pc with
  | released run => exact .cancels runId reason (released run rfl)
  | transition run inner =>
      obtain ⟨registry, aborts⟩ := transition_signals m now runId newState ⟨some (error run), none⟩
        inner
      simp only [RunManager.abandonResume, Turn.map]
      rw [registry, aborts]
      exact .silent (inside run inner rfl)

theorem end_signals {now : Int} {newState : RunState} {metadata : TransitionMetadata} {pc : EndPc}
    (never : call.cancels = none)
    (loaded : ∀ run, pc = .loaded (some run) →
      call.forgets = if truthy run.leaseToken = none then some runId else none)
    (released : pc = .released → call.forgets = some runId) :
    Signals m.cancellationRegistry call
      (m.endRunResume now runId newState metadata pc).manager.cancellationRegistry
      (m.endRunResume now runId newState metadata pc).aborts := by
  cases pc with
  | loaded run =>
      cases run with
      | none => exact .silent never
      | some run =>
          have forgets := loaded run rfl
          simp only [RunManager.endRunResume]
          cases token : truthy run.leaseToken with
          | none =>
              rw [token, if_pos rfl] at forgets
              exact .forgets runId forgets
          | some leaseToken => exact .silent never
  | released => exact .forgets runId (released rfl)
  | transition inner =>
      obtain ⟨registry, aborts⟩ := transition_signals m now runId newState metadata inner
      simp only [RunManager.endRunResume, Turn.map]
      rw [registry, aborts]
      exact .silent never

theorem resume_signals (m : RunManager) (now : Int) (random : String) (call : Call) :
    Signals m.cancellationRegistry call (call.resume m now random).manager.cancellationRegistry
      (call.resume m now random).aborts := by
  cases call with
  | createRun pc =>
      simp only [resume, settle_manager, settle_aborts]
      cases pc with
      | persisted run => exact .silent rfl
      | enqueued run position =>
          simp only [RunManager.createRunResume]
          split <;> exact .silent rfl
      | updated run => exact .silent rfl
  | acquireNextRun userId pc =>
      simp only [resume, settle_manager, settle_aborts]
      cases pc with
      | peeked nextRunId =>
          cases nextRunId with
          | none => exact .silent rfl
          | some id =>
              simp only [RunManager.acquireNextRunResume]
              split <;> exact .silent rfl
      | leased nextRunId lease => cases lease <;> exact .silent rfl
      | dequeued nextRunId lease =>
          simp only [RunManager.acquireNextRunResume]
          split <;> exact .silent rfl
      | updated nextRunId => exact .silent rfl
      | reloaded nextRunId run => exact .silent rfl
  | startRun runId pc =>
      simp only [resume, settle_manager, settle_aborts]
      cases pc with
      | transition pc =>
          obtain ⟨registry, aborts⟩ := transition_signals m now runId .running ⟨none, none⟩ pc
          simp only [RunManager.startRunResume]
          split
          · rw [registry, aborts]
            exact .silent rfl
          · rw [registry, aborts]
            exact .silent rfl
          · rename_i run resolved
            have last := transition_resolves m now runId .running _ pc run resolved
            subst last
            exact .creates runId run rfl
      | started run => exact .silent rfl
  | cancelRun runId reason pc =>
      simp only [resume, settle_manager, settle_aborts]
      cases pc with
      | loaded run =>
          cases run with
          | none => exact .silent rfl
          | some run =>
              simp only [RunManager.cancelRunResume]
              split
              · rename_i terminal
                exact .silent (if_pos (.inl terminal))
              · rename_i live
                split
                · rename_i waiting
                  exact .silent (if_pos (.inr waiting))
                · rename_i started
                  have neither : ¬(isTerminalState run.state = true ∨ run.state = .queued) := by
                    rintro (terminal | waiting)
                    · exact live terminal
                    · exact started waiting
                  exact abandon_signals (if_neg neither)
      | removed run => exact abandon_signals rfl
      | abandoning pc =>
          apply abandon_resume_signals
          · rintro run rfl
            rfl
          · rintro run inner rfl
            rfl
  | timeoutRun runId pc =>
      simp only [resume, settle_manager, settle_aborts]
      cases pc with
      | loaded run =>
          cases run with
          | none => exact .silent rfl
          | some run =>
              simp only [RunManager.timeoutRunResume]
              split
              · rename_i terminal
                exact .silent (if_pos terminal)
              · rename_i live
                rw [timeout_settle_manager, timeout_settle_aborts]
                exact abandon_signals (if_neg live)
      | abandoning pc =>
          simp only [RunManager.timeoutRunResume, timeout_settle_manager, timeout_settle_aborts]
          apply abandon_resume_signals
          · rintro run rfl
            rfl
          · rintro run inner rfl
            rfl
  | completeRun runId finalMessages pc =>
      simp only [resume, settle_manager, settle_aborts, RunManager.completeRunResume]
      apply end_signals rfl
      · rintro run rfl
        rfl
      · rintro rfl
        rfl
  | failRun runId error pc =>
      simp only [resume, settle_manager, settle_aborts, RunManager.failRunResume]
      apply end_signals rfl
      · rintro run rfl
        rfl
      · rintro rfl
        rfl

theorem cancels_aborts {reason : String} (m : RunManager) (now : Int) (random : String)
    (cancels : call.cancels = some (runId, reason)) {context : CancellationContext}
    (found : m.cancellationRegistry.get runId = some context) (live : context.isCancelled = false) :
    (call.resume m now random).aborts =
      context.listeners.map (fun listener => ⟨listener, reason⟩) := by
  have signals := resume_signals m now random call
  generalize (call.resume m now random).manager.cancellationRegistry = after at signals
  generalize (call.resume m now random).aborts = aborts at signals ⊢
  cases signals with
  | silent keeps =>
      rw [keeps] at cancels
      cases cancels
  | creates id run starts =>
      subst starts
      cases cancels
  | cancels id reason' cancels' =>
      rw [cancels] at cancels'
      cases cancels'
      rw [InMemoryCancellationRegistry.aborts_cancel, found]
      simp [CancellationContext.cancel, live]
  | forgets id forgets =>
      have ends := ends_of_forgets forgets
      cases call <;> cases ends <;> cases cancels

/-- Who cancels a context, and with which reason: the call goes on into `transitionState`, with
the run as it is stored. -/
theorem cancels_next {reason : String} (m : RunManager) (now : Int) (random : String)
    (cancels : call.cancels = some (runId, reason)) :
    ∃ next, pending (call.resume m now random) = some next ∧
      ((∃ given pc, call = .cancelRun runId given pc ∧ reason = given.getD "user_cancelled" ∧
          next.transition = some (runId, .cancelled, .loaded (m.getRun runId))) ∨
        ∃ pc, call = .timeoutRun runId pc ∧ reason = "timeout" ∧
          next.transition = some (runId, .timedOut, .loaded (m.getRun runId))) := by
  unfold Call.cancels at cancels
  split at cancels
  · rename_i id given run
    split at cancels
    · cases cancels
    · rename_i neither
      have live : isTerminalState run.state = false := by
        cases terminal : isTerminalState run.state with
        | true => exact absurd (.inl terminal) neither
        | false => rfl
      have started : run.state ≠ .queued := fun waiting => neither (.inr waiting)
      split at cancels
      · rename_i token
        cases cancels
        refine ⟨.cancelRun runId given (.abandoning (.transition run (.loaded (m.getRun runId)))),
          ?_, .inl ⟨given, _, rfl, rfl, rfl⟩⟩
        simp [resume, RunManager.cancelRunResume, live, started, RunManager.abandon, token,
          pending_settle, Turn.map, Progress.map, RunManager.signal, RunManager.transitionState,
          RunManager.getRun]
      · cases cancels
  · rename_i id given run
    split at cancels
    · rename_i token
      cases cancels
      refine ⟨.cancelRun runId given (.abandoning (.transition run (.loaded (m.getRun runId)))),
        ?_, .inl ⟨given, _, rfl, rfl, rfl⟩⟩
      simp [resume, RunManager.cancelRunResume, RunManager.abandon, token, pending_settle, Turn.map,
        Progress.map, RunManager.signal, RunManager.transitionState, RunManager.getRun]
    · cases cancels
  · rename_i id given run
    cases cancels
    exact ⟨_, rfl, .inl ⟨given, _, rfl, rfl, rfl⟩⟩
  · rename_i id run
    split at cancels
    · cases cancels
    · rename_i live
      split at cancels
      · rename_i token
        cases cancels
        refine ⟨.timeoutRun runId (.abandoning (.transition run (.loaded (m.getRun runId)))), ?_,
          .inr ⟨_, rfl, rfl, rfl⟩⟩
        simp [resume, RunManager.timeoutRunResume, live, RunManager.abandon, token, pending_settle,
          timeout_settle_await, RunManager.signal, RunManager.transitionState, RunManager.getRun]
      · cases cancels
  · rename_i id run
    cases cancels
    exact ⟨_, rfl, .inr ⟨_, rfl, rfl, rfl⟩⟩
  · cases cancels

/-- The run that a call is bound to write CANCELLED or TIMED_OUT for. -/
def dooms (call : Call) : Option RunId :=
  match call.commits with
  | some (runId, newState) =>
    if newState = .cancelled ∨ newState = .timedOut then some runId else none
  | none => none

theorem dooms_eq_some {call : Call} {runId : RunId} (doomed : call.dooms = some runId) :
    ∃ newState run, call.transition = some (runId, newState, .loaded (some run)) ∧
      (newState = .cancelled ∨ newState = .timedOut) := by
  unfold dooms at doomed
  split at doomed
  · rename_i id newState bound
    split at doomed
    · rename_i either
      cases doomed
      rcases commits_eq_some bound with ⟨userId, lease, -, rfl⟩ | writes
      · rcases either with impossible | impossible <;> cases impossible
      · rcases write_eq_some writes with ⟨userId, lease, -, rfl⟩ | ⟨run, inside, -⟩
        · rcases either with impossible | impossible <;> cases impossible
        · exact ⟨newState, run, inside, either⟩
    · cases doomed
  · cases doomed

theorem dooms_of_write {call : Call} {runId : RunId} {newState : RunState}
    (writes : call.write = some (runId, newState))
    (either : newState = .cancelled ∨ newState = .timedOut) : call.dooms = some runId := by
  unfold dooms
  rw [commits_of_write writes]
  exact if_pos either

/-- Who writes the state of a run: the call that has taken it, that starts it, that ends it or
that dooms it. -/
theorem write_cases {call : Call} {runId : RunId} {newState : RunState}
    (writes : call.write = some (runId, newState)) :
    (∃ userId, call.took = some (userId, runId)) ∨ (∃ pc, call = .startRun runId pc) ∨
      call.ends = some runId ∨ call.dooms = some runId := by
  rcases write_eq_some writes with ⟨userId, lease, rfl, -⟩ | ⟨run, inside, -⟩
  · exact .inl ⟨userId, rfl⟩
  · have doomed (either : newState = .cancelled ∨ newState = .timedOut) :
        call.dooms = some runId := dooms_of_write writes either
    unfold transition at inside
    split at inside <;> cases inside
    · exact .inr (.inl ⟨_, rfl⟩)
    · exact .inr (.inr (.inr (doomed (.inl rfl))))
    · exact .inr (.inr (.inr (doomed (.inr rfl))))
    · exact .inr (.inr (.inl rfl))
    · exact .inr (.inr (.inl rfl))

theorem dooms_next {m : RunManager} {now : Int} {random : String} {call next : Call}
    {runId : RunId} (goes : pending (call.resume m now random) = some next)
    (doomed : next.dooms = some runId) : ∃ reason, call.cancels = some (runId, reason) := by
  obtain ⟨newState, snapshot, inside, either⟩ := dooms_eq_some doomed
  -- the read of a transition is not followed by another read
  have written {metadata : TransitionMetadata} {inner next : TransitionPc}
      (awaits : (m.transitionStateResume now runId newState metadata inner).progress = .await next)
      (again : next = .loaded (some snapshot)) : False := by
    rcases transition_await awaits with ⟨_, _, -, -, -, place⟩ | ⟨_, -, -, place⟩ <;>
      rw [place] at again <;> cases again
  unfold transition at inside
  split at inside <;> cases inside
  · rcases either with impossible | impossible <;> cases impossible
  · rename_i reason run
    obtain ⟨pc, rfl, awaits⟩ := pending_cancelRun goes
    rcases cancel_await awaits with ⟨_, -, -, impossible⟩ | ⟨before, inner, place, same, step⟩ |
      ⟨inner, last, rfl, same, step⟩
    · cases impossible
    · cases same
      rcases abandon_await step with ⟨token, -⟩ | ⟨-, impossible⟩
      · rcases place with ⟨rfl, live, started⟩ | rfl
        · refine ⟨_, (if_neg ?_).trans (by rw [token])⟩
          rintro (terminal | waiting)
          · rw [live] at terminal
            cases terminal
          · exact started waiting
        · exact ⟨reason.getD "user_cancelled", by simp only [Call.cancels, token]⟩
      · cases impossible
    · cases same
      rcases abandon_resume_await step with ⟨before, rfl, -⟩ | ⟨before, inner', next', -, same, deep⟩
      · exact ⟨_, rfl⟩
      · cases same
        exact (written deep rfl).elim
  · rename_i run
    obtain ⟨pc, rfl, awaits⟩ := pending_timeoutRun goes
    rcases timeout_await awaits with ⟨before, inner, rfl, live, same, step⟩ |
      ⟨inner, last, rfl, same, step⟩
    · cases same
      rcases abandon_await step with ⟨token, -⟩ | ⟨-, impossible⟩
      · refine ⟨_, (if_neg ?_).trans (by rw [token])⟩
        rw [live]
        simp
      · cases impossible
    · cases same
      rcases abandon_resume_await step with ⟨before, rfl, -⟩ | ⟨before, inner', next', -, same, deep⟩
      · exact ⟨_, rfl⟩
      · cases same
        exact (written deep rfl).elim
  · rcases either with impossible | impossible <;> cases impossible
  · rcases either with impossible | impossible <;> cases impossible

theorem dooms_start (m : RunManager) (now : Int) (request : Request) :
    (start m now request).2.dooms = none := by
  cases doomed : (start m now request).2.dooms with
  | none => rfl
  | some runId =>
      obtain ⟨newState, run, inside, either⟩ := dooms_eq_some doomed
      cases request with
      | startRun id =>
          have target : some RunState.running = some newState :=
            congrArg (Option.map (fun place : RunId × RunState × TransitionPc => place.2.1)) inside
          cases target
          rcases either with impossible | impossible <;> cases impossible
      | _ => cases inside

end Call

/-- A call in progress is bound to write CANCELLED or TIMED_OUT for the run. -/
def Doomed (p : Pending) (runId : RunId) : Prop :=
  ∃ id call, p id = some call ∧ call.dooms = some runId

theorem CallStep.doomed {now : Int} {m m' : RunManager} {p p' : Pending}
    {resumed : Option (Nat × Call)} (step : CallStep now m p resumed m' p') {runId : RunId}
    (doomed : Doomed p' runId) :
    Doomed p runId ∨
      ∃ id call reason, resumed = some (id, call) ∧ call.cancels = some (runId, reason) := by
  obtain ⟨id', call', found, dooms⟩ := doomed
  cases step.origin found with
  | stays _ _ _ found other => exact .inl ⟨id', call', found, dooms⟩
  | begins request free fresh =>
      rw [Call.dooms_start] at dooms
      cases dooms
  | goes call random _ got goes =>
      obtain ⟨reason, cancels⟩ := Call.dooms_next goes dooms
      exact .inr ⟨id', call, reason, rfl, cancels⟩
  | fires runId' timeoutManager free => cases dooms

theorem CallStep.owned {now : Int} {m m' : RunManager} {p p' : Pending}
    {resumed : Option (Nat × Call)} (step : CallStep now m p resumed m' p')
    (owned : m.cancellationRegistry.Owned) : m'.cancellationRegistry.Owned := by
  cases step with
  | begin id request free fresh =>
      have same : (Call.start m now request).1.cancellationRegistry = m.cancellationRegistry := by
        cases request <;> rfl
      rw [same]
      exact owned
  | resume id call random found =>
      have signals := Call.resume_signals m now random call
      generalize (call.resume m now random).manager.cancellationRegistry = after at signals ⊢
      generalize (call.resume m now random).aborts = aborts at signals
      cases signals with
      | silent keeps => exact owned
      | creates runId run starts => exact owned.create runId
      | cancels runId reason cancels => exact owned.cancel runId (some reason)
      | forgets runId forgets => exact owned.remove runId
  | fire id timer free runId timeoutManager fired => exact owned
  | listen listener signal => exact owned.addAbortListener listener signal

end Minerva
