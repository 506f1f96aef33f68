import Minerva.Runtime.Creation
import Minerva.Runtime.Leaving
import Minerva.Services.Remaining

namespace Minerva

/-- The status of an answer that is no success; anything that is not an `HttpException` counts as
an internal error. -/
inductive HttpException where
  | badRequest (message : String)
  | unauthorized (message : String)
  | notFound (message : String)
  | internalServerError

def Run.charter (run : Run) : OwnerPrincipal × String × String :=
  (run.owner, run.agentPackId, run.prompt)

namespace RunManager

def charterOf (m : RunManager) (runId : RunId) : Option (OwnerPrincipal × String × String) :=
  (m.getRun runId).map Run.charter

def ownerOf (m : RunManager) (runId : RunId) : Option OwnerPrincipal :=
  (m.charterOf runId).map Prod.fst

theorem ownerOf_of_getRun {m : RunManager} {runId : RunId} {run : Run}
    (found : m.getRun runId = some run) : m.ownerOf runId = some run.owner := by
  rw [ownerOf, charterOf, found]
  rfl

theorem ownerOf_eq_some {m : RunManager} {runId : RunId} {owner : OwnerPrincipal} :
    m.ownerOf runId = some owner ↔ ∃ run, m.getRun runId = some run ∧ run.owner = owner := by
  simp [ownerOf, charterOf, Run.charter, Option.map_eq_some_iff]

end RunManager

inductive Serving where
  | createRun
  | cancelRun (runId : RunId)
  deriving DecidableEq

def Task.serving : Task → Option Serving
  | .calling .createRun _ => some .createRun
  | .calling (.cancelRun _) (.cancelRun runId _ _) => some (.cancelRun runId)
  | .cancelRequested runId _ _ _ => some (.cancelRun runId)
  | _ => none

def Task.left : Task → Nat
  | .calling _ call => call.turns
  | .cancelRequested _ _ _ _ => 7
  | _ => 0

theorem Task.left_pos {task : Task} (asks : task.serving ≠ none) : 0 < task.left := by
  cases task with
  | calling frame call => exact call.turns_pos
  | cancelRequested runId owner reason run => exact Nat.succ_pos 6
  | _ => exact absurd rfl asks

def CancelPc.read : CancelPc → Option Run
  | .loaded run => run
  | .abandoning (.transition _ (.reloaded run)) => some run
  | _ => none

/-- What a task that answers a request of `owner` holds is a run of `owner`. -/
def Task.Serves (m : RunManager) (owner : OwnerPrincipal) : Task → Prop
  | .calling .createRun (.createRun pc) =>
    pc.run.owner = owner ∧ m.ownerOf pc.run.id = some owner
  | .cancelRequested runId asker _ run =>
    asker = owner ∧ ∀ read ∈ run, read.id = runId ∧ m.ownerOf runId = some read.owner
  | .calling (.cancelRun _) (.cancelRun runId _ pc) =>
    m.ownerOf runId = some owner ∧ ∀ read ∈ pc.read, read.id = runId ∧ read.owner = owner
  | _ => True

theorem Task.Serves.mono {m m' : RunManager} {owner : OwnerPrincipal} {task : Task}
    (serves : task.Serves m owner)
    (keeps : ∀ runId owner, m.ownerOf runId = some owner → m'.ownerOf runId = some owner) :
    task.Serves m' owner := by
  unfold Task.Serves at serves ⊢
  split
  · exact ⟨serves.1, keeps _ _ serves.2⟩
  · exact ⟨serves.1, fun read member => ⟨(serves.2 read member).1, keeps _ _ (serves.2 read member).2⟩⟩
  · exact ⟨keeps _ _ serves.1, serves.2⟩
  · trivial

namespace Call

variable {m : RunManager} {now : Int} {random : String} {runId : RunId}

theorem resume_charter (m : RunManager) (now : Int) (random : String) (call : Call)
    (runId : RunId) : (call.resume m now random).manager.charterOf runId = m.charterOf runId :=
  (resume_effect m now random call).field Run.charter (fun _ _ => rfl) (fun _ _ => rfl)
    (fun _ _ _ _ => rfl) runId

theorem cancel_reads {reason : Option String} {before pc : CancelPc}
    (awaits : (m.cancelRunResume now runId reason before).progress = .await pc) {read : Run}
    (reads : pc.read = some read) : m.getRun runId = some read := by
  rcases cancel_await awaits with ⟨run, rfl, -, rfl⟩ | ⟨run, inner, -, rfl, step⟩ |
    ⟨inner, last, rfl, rfl, step⟩
  · cases reads
  · rcases abandon_await step with ⟨-, rfl⟩ | ⟨-, rfl⟩ <;> cases reads
  · rcases abandon_resume_await step with ⟨run, rfl, rfl⟩ | ⟨run, inner, next, rfl, rfl, deep⟩
    · cases reads
    · rcases transition_await deep with ⟨snapshot, stored, rfl, -, -, rfl⟩ | ⟨stored, rfl, found, rfl⟩
      · cases reads
      · cases reads
        exact found

theorem cancel_answers {reason : Option String} {pc : CancelPc} {run : Run}
    (answers : (m.cancelRunResume now runId reason pc).progress = .resolve run) :
    pc.read = some run := by
  cases pc with
  | loaded last =>
      cases last with
      | none => cases answers
      | some last =>
          simp only [RunManager.cancelRunResume] at answers
          split at answers
          · cases answers
            rfl
          · split at answers
            · cases answers
            · have inner := (Progress.map_resolve _ _ _).mp answers
              unfold RunManager.abandon at inner
              split at inner <;> cases inner
  | removed last =>
      have inner := (Progress.map_resolve _ _ _).mp answers
      unfold RunManager.abandon at inner
      split at inner <;> cases inner
  | abandoning inner =>
      have deep := (Progress.map_resolve _ _ _).mp answers
      cases inner with
      | released last => cases deep
      | transition last step =>
          have deeper := (Progress.map_resolve _ _ _).mp deep
          rw [transition_resolves _ _ _ _ _ _ _ deeper]
          rfl

end Call

namespace RunExecutionService

def settlement : Progress Call (Option Run) → Option (Except HttpException Run)
  | .await _ => none
  | .resolve (some run) => some (.ok run)
  | .resolve none => some (.error .internalServerError)
  | .reject _ => some (.error .internalServerError)

/-- What a handler answers when its task is resumed; none where it goes on to wait. -/
def settles (s : RunExecutionService) (random : String) : Task →
    Option (Except HttpException Run)
  | .calling .createRun call => settlement (call.resume s.runManager s.now random).progress
  | .calling (.cancelRun _) call => settlement (call.resume s.runManager s.now random).progress
  | .cancelRequested runId _ _ none =>
    some (.error (.notFound ("Run '" ++ runId ++ "' not found")))
  | .cancelRequested _ owner _ (some run) =>
    if sameOwnerPrincipal run.owner owner then none
    else some (.error (.notFound ("Run '" ++ run.id ++ "' not found")))
  | _ => none

theorem resolved_serving (s : RunExecutionService) (frame : Frame) (run : Option Run) :
    (s.resolved frame run).2.bind Task.serving = none := by
  unfold resolved
  split
  · unfold processUserQueue
    split <;> rfl
  · split <;> rfl
  all_goals rfl

theorem rejected_serving (s : RunExecutionService) (frame : Frame) (error : RunError) :
    (s.rejected frame error).2.bind Task.serving = none := by
  unfold rejected
  split <;> rfl

theorem replied_serving {s : RunExecutionService} {userId : UserId} {run : Run} {pc : ExecPc}
    {reply : Reply} {outcome : Outcome} (answer : s.replied userId run pc reply = some outcome) :
    outcome.2.bind Task.serving = none := by
  cases replied_cases answer with
  | prompts signal was pack => cases signal <;> rfl
  | _ => rfl

theorem executeResume_serving {s : RunExecutionService} {userId : UserId} {run : Run} {pc : ExecPc}
    {outcome : Outcome} (goes : s.executeResume userId run pc = some outcome) :
    outcome.2.bind Task.serving = none := by
  cases executeResume_cases goes <;> rfl

theorem resume_ne_none {s : RunExecutionService} {random : String} {task : Task}
    (asks : task.serving ≠ none) : s.resume random task ≠ none := by
  cases task with
  | calling frame call =>
      simp only [resume]
      split <;> exact Option.some_ne_none _
  | cancelRequested runId owner reason run =>
      cases run with
      | none => exact Option.some_ne_none _
      | some run =>
          simp only [resume]
          split <;> exact Option.some_ne_none _
  | _ => exact absurd rfl asks

theorem resume_left {s : RunExecutionService} {random : String} {task : Task} {outcome : Outcome}
    (goes : s.resume random task = some outcome) (waits : s.settles random task = none)
    (asks : task.serving ≠ none) : (outcome.2.map Task.left).getD 0 < task.left := by
  cases task with
  | calling frame call =>
      have settles : settlement (call.resume s.runManager s.now random).progress = none := by
        cases frame with
        | createRun => exact waits
        | cancelRun reason => exact waits
        | _ => exact absurd rfl asks
      simp only [resume] at goes
      cases progress : (call.resume s.runManager s.now random).progress with
      | await next =>
          rw [progress] at goes
          cases goes
          have pending : Call.pending (call.resume s.runManager s.now random) = some next := by
            rw [Call.pending, progress]
          exact Call.turns_next pending
      | resolve run =>
          rw [progress] at settles
          cases run <;> cases settles
      | reject error =>
          rw [progress] at settles
          cases settles
  | cancelRequested runId owner reason run =>
      cases run with
      | none => cases waits
      | some run =>
          simp only [resume] at goes
          split at goes
          · cases goes
            exact Nat.lt_succ_of_le
              (Call.turns_le (.cancelRun runId reason (s.runManager.cancelRun runId)))
          · cases goes
            exact Nat.succ_pos 6
  | _ => exact absurd rfl asks

theorem resume_serving {s : RunExecutionService} {random : String} {task : Task}
    {outcome : Outcome} (fits : ∀ frame call, task = .calling frame call → frame.Fits call)
    (goes : s.resume random task = some outcome) :
    outcome.2.bind Task.serving = if (s.settles random task).isSome then none else task.serving := by
  cases task with
  | calling frame call =>
      have fit := fits frame call rfl
      simp only [resume] at goes
      cases progress : (call.resume s.runManager s.now random).progress with
      | await next =>
          have same := Call.pending_same_method s.runManager s.now random call next
            (by rw [Call.pending, progress])
          rw [progress] at goes
          cases goes
          cases frame with
          | createRun => simp [settles, progress, settlement, Task.serving]
          | cancelRun reason =>
              cases call <;> simp only [Frame.Fits] at fit
              cases next <;> simp only [Call.SameMethod] at same
              obtain ⟨rfl, rfl⟩ := same
              simp [settles, progress, settlement, Task.serving]
          | _ => simp [settles, Task.serving]
      | resolve run =>
          rw [progress] at goes
          cases goes
          rw [resolved_serving]
          cases frame with
          | createRun => cases run <;> simp [settles, progress, settlement]
          | cancelRun reason => cases run <;> simp [settles, progress, settlement]
          | _ => simp [settles, Task.serving]
      | reject error =>
          rw [progress] at goes
          cases goes
          rw [rejected_serving]
          cases frame <;> simp [settles, progress, settlement, Task.serving]
  | cancelRequested runId owner reason run =>
      cases run with
      | none =>
          cases goes
          simp [settles]
      | some run =>
          simp only [resume] at goes
          split at goes
          · rename_i own
            cases goes
            simp [settles, own, Task.serving]
          · rename_i foreign
            cases goes
            simp [settles, foreign]
  | executing userId run pc =>
      rw [executeResume_serving goes]
      simp [settles, Task.serving]
  | executed userId =>
      cases goes
      simp [settles, Task.serving, acquireNext]
  | executeFailed userId =>
      cases goes
      simp [settles, Task.serving, leaveUserQueue]

variable {s : RunExecutionService} {random : String} {task : Task} {outcome : Outcome}
  {owner : OwnerPrincipal}

theorem settles_serving (fits : ∀ frame call, task = .calling frame call → frame.Fits call)
    {result : Except HttpException Run} (settled : s.settles random task = some result) :
    task.serving ≠ none := by
  cases task with
  | calling frame call =>
      have fit := fits frame call rfl
      cases frame with
      | createRun => simp [Task.serving]
      | cancelRun reason =>
          cases call <;> simp only [Frame.Fits] at fit
          simp [Task.serving]
      | _ => cases settled
  | cancelRequested runId asker reason run => simp [Task.serving]
  | _ => cases settled

theorem resume_manager (goes : s.resume random task = some outcome) :
    outcome.1.runManager = s.runManager ∨ ∃ frame call, task = .calling frame call ∧
      outcome.1.runManager = (call.resume s.runManager s.now random).manager := by
  cases task with
  | calling frame call =>
      right
      refine ⟨frame, call, rfl, ?_⟩
      simp only [resume] at goes
      split at goes <;> cases goes
      · exact delivered_runManager _ _
      · rw [resolved_manager, delivered_runManager]
      · rw [rejected_manager, delivered_runManager]
  | cancelRequested runId owner reason run =>
      left
      cases run with
      | none =>
          cases goes
          rfl
      | some run =>
          simp only [resume] at goes
          split at goes <;> cases goes <;> rfl
  | executing userId run pc => exact .inl (executeResume_manager goes)
  | executed userId =>
      cases goes
      exact .inl rfl
  | executeFailed userId =>
      cases goes
      exact .inl rfl

/-- A turn of a task that goes on leaves what requests fix about the runs. -/
theorem resume_charter (goes : s.resume random task = some outcome) (runId : RunId) :
    outcome.1.runManager.charterOf runId = s.runManager.charterOf runId := by
  rcases resume_manager goes with same | ⟨frame, call, -, same⟩
  · rw [same]
  · rw [same, Call.resume_charter]

theorem resume_owner (goes : s.resume random task = some outcome) (runId : RunId) :
    outcome.1.runManager.ownerOf runId = s.runManager.ownerOf runId :=
  congrArg (Option.map Prod.fst) (resume_charter goes runId)

theorem resume_serves (own : ∀ runId run, s.runManager.getRun runId = some run → run.id = runId)
    (fits : ∀ frame call, task = .calling frame call → frame.Fits call)
    (serves : task.Serves s.runManager owner) (goes : s.resume random task = some outcome)
    (left : s.settles random task = none) (asks : task.serving ≠ none) {task' : Task}
    (next : outcome.2 = some task') : task'.Serves outcome.1.runManager owner := by
  have keeps (runId : RunId) (owner : OwnerPrincipal)
      (stored : s.runManager.ownerOf runId = some owner) :
      outcome.1.runManager.ownerOf runId = some owner :=
    (resume_owner goes runId).trans stored
  cases task with
  | calling frame call =>
      have fit := fits frame call rfl
      simp only [resume] at goes
      cases progress : (call.resume s.runManager s.now random).progress with
      | await following =>
          have pending : Call.pending (call.resume s.runManager s.now random) = some following := by
            rw [Call.pending, progress]
          rw [progress] at goes
          cases goes
          cases next
          cases frame with
          | createRun =>
              cases call <;> simp only [Frame.Fits] at fit
              cases following <;> have same := Call.pending_same_method _ _ _ _ _ pending <;>
                simp only [Call.SameMethod] at same
              obtain ⟨mine, stored⟩ := serves
              obtain ⟨before, same, awaits⟩ := Call.pending_createRun pending
              cases same
              rcases Call.create_await awaits with ⟨run, position, rfl, rfl⟩ |
                ⟨run, position, rfl, rfl⟩
              · exact ⟨mine, keeps _ _ stored⟩
              · exact ⟨mine, keeps _ _ stored⟩
          | cancelRun reason =>
              cases call <;> simp only [Frame.Fits] at fit
              cases following <;> have same := Call.pending_same_method _ _ _ _ _ pending <;>
                simp only [Call.SameMethod] at same
              obtain ⟨rfl, rfl⟩ := same
              obtain ⟨mine, -⟩ := serves
              refine ⟨keeps _ _ mine, ?_⟩
              intro read member
              obtain ⟨before, same, awaits⟩ := Call.pending_cancelRun pending
              cases same
              have found := Call.cancel_reads awaits member
              refine ⟨own _ read found, ?_⟩
              rw [RunManager.ownerOf_of_getRun found] at mine
              exact Option.some.inj mine
          | _ => exact absurd rfl asks
      | resolve run =>
          cases frame with
          | createRun => cases run <;> simp [settles, progress, settlement] at left
          | cancelRun reason => cases run <;> simp [settles, progress, settlement] at left
          | _ => exact absurd rfl asks
      | reject error =>
          cases frame with
          | createRun => simp [settles, progress, settlement] at left
          | cancelRun reason => simp [settles, progress, settlement] at left
          | _ => exact absurd rfl asks
  | cancelRequested runId asker reason run =>
      cases run with
      | none => simp [settles] at left
      | some run =>
          simp only [resume] at goes
          split at goes
          · rename_i same
            cases goes
            cases next
            obtain ⟨rfl, reads⟩ := serves
            obtain ⟨-, stored⟩ := reads run rfl
            rw [(sameOwnerPrincipal_iff _ _).mp same] at stored
            refine ⟨stored, ?_⟩
            intro read member
            have found : s.runManager.getRun runId = some read := member
            refine ⟨own runId read found, ?_⟩
            rw [RunManager.ownerOf_of_getRun found] at stored
            exact Option.some.inj stored
          · rename_i foreign
            simp [settles, foreign] at left
  | _ => exact absurd rfl asks

/-- A handler answers with a run of its owner, and `cancelRun` with the run that was asked for. -/
theorem settles_own (fits : ∀ frame call, task = .calling frame call → frame.Fits call)
    (serves : task.Serves s.runManager owner) {run : Run}
    (settled : s.settles random task = some (.ok run)) :
    s.runManager.ownerOf run.id = some owner ∧
      ∀ runId, task.serving = some (.cancelRun runId) → run.id = runId := by
  cases task with
  | calling frame call =>
      have fit := fits frame call rfl
      cases frame with
      | createRun =>
          cases call <;> simp only [Frame.Fits] at fit
          rename_i pc
          obtain ⟨mine, stored⟩ := serves
          have answers : (Call.resume s.runManager s.now random (.createRun pc)).progress =
              .resolve (some run) := by
            simp only [settles] at settled
            unfold settlement at settled
            split at settled <;> cases settled
            assumption
          obtain ⟨value, resolved, same⟩ := (Call.settle_resolve _ _ _ _).mp answers
          cases same
          rw [Call.create_resolve resolved] at stored
          refine ⟨stored, ?_⟩
          rintro runId ⟨⟩
      | cancelRun reason =>
          cases call <;> simp only [Frame.Fits] at fit
          rename_i asked reason' pc
          obtain ⟨stored, reads⟩ := serves
          have answers : (Call.resume s.runManager s.now random
              (.cancelRun asked reason' pc)).progress = .resolve (some run) := by
            simp only [settles] at settled
            unfold settlement at settled
            split at settled <;> cases settled
            assumption
          obtain ⟨value, resolved, same⟩ := (Call.settle_resolve _ _ _ _).mp answers
          cases same
          obtain ⟨named, -⟩ := reads run (Call.cancel_answers resolved)
          refine ⟨named ▸ stored, ?_⟩
          rintro runId ⟨⟩
          exact named
      | _ => cases settled
  | cancelRequested runId asker reason read =>
      cases read with
      | none => cases settled
      | some read =>
          simp only [settles] at settled
          split at settled <;> cases settled
  | _ => cases settled

/-- A handler fails with the text of `NotFoundException` for the run that was asked for, or, once
it is known to be a run of the owner, with an internal error. -/
theorem settles_fails (fits : ∀ frame call, task = .calling frame call → frame.Fits call)
    (serves : task.Serves s.runManager owner) {exception : HttpException}
    (settled : s.settles random task = some (.error exception)) :
    exception = .internalServerError ∧ (∀ runId, task.serving = some (.cancelRun runId) →
        s.runManager.ownerOf runId = some owner) ∨
      ∃ runId, task.serving = some (.cancelRun runId) ∧
        exception = .notFound ("Run '" ++ runId ++ "' not found") := by
  cases task with
  | calling frame call =>
      left
      have fit := fits frame call rfl
      have internal {progress : Progress Call (Option Run)}
          (comes : settlement progress = some (.error exception)) :
          exception = .internalServerError := by
        unfold settlement at comes
        split at comes <;> cases comes <;> rfl
      cases frame with
      | createRun =>
          cases call <;> simp only [Frame.Fits] at fit
          refine ⟨internal settled, ?_⟩
          rintro runId ⟨⟩
      | cancelRun reason =>
          cases call <;> simp only [Frame.Fits] at fit
          refine ⟨internal settled, ?_⟩
          rintro runId ⟨⟩
          exact serves.1
      | _ => cases settled
  | cancelRequested runId asker reason read =>
      right
      refine ⟨runId, rfl, ?_⟩
      cases read with
      | none =>
          cases settled
          rfl
      | some read =>
          obtain ⟨-, reads⟩ := serves
          simp only [settles] at settled
          split at settled
          · cases settled
          · cases settled
            rw [(reads read rfl).1]
  | _ => cases settled

end RunExecutionService

/-- Only `cancelRun` writes CANCELLED. -/
theorem Call.write_cancelled {call : Call} {runId : RunId}
    (writes : call.write = some (runId, .cancelled)) :
    ∃ reason pc, call = .cancelRun runId reason pc := by
  rcases write_eq_some writes with ⟨userId, lease, -, impossible⟩ | ⟨run, inside, -⟩
  · cases impossible
  · unfold transition at inside
    split at inside <;> cases inside
    exact ⟨_, _, rfl⟩

namespace Runtime

variable {w w' : Runtime} {label : Label}

theorem Steps.charterOf (steps : w.Steps label w') (runId : RunId) :
    w'.service.runManager.charterOf runId = w.service.runManager.charterOf runId ∨
      ∃ id random owner body prompt agentPackId, label = .createRun id random owner body ∧
        truthy (body.prompt.map jsTrim) = some prompt ∧
        truthy (body.agentPackId.map jsTrim) = some agentPackId ∧
        runId = RunManager.newRunId w.service.now random ∧
        w'.service.runManager.charterOf runId = some (owner, agentPackId, prompt) := by
  cases steps with
  | creates id random owner body free =>
      rw [store_service]
      unfold RunExecutionService.createRun
      split
      · rename_i prompt agentPackId asked packed
        rcases Call.start_getRun w.service.runManager w.service.now
            (.createRun random { owner := some owner, userId := none, agentPackId, prompt
                                 maxDurationMs := body.maxDurationMs }) runId with
          same | ⟨random', input, made, here, new⟩
        · left
          exact congrArg (Option.map Run.charter) same
        · right
          cases made
          refine ⟨id, random, owner, body, prompt, agentPackId, rfl, asked, packed, here, ?_⟩
          exact congrArg (Option.map Run.charter) new
      · exact .inl rfl
  | requests id asked owner body free =>
      rw [store_service]
      exact .inl rfl
  | fires id timer fired timeoutManager free due =>
      rw [store_service]
      exact .inl rfl
  | resumes id random task outcome found goes =>
      rw [store_service]
      exact .inl (RunExecutionService.resume_charter goes runId)
  | replies id reply userId run pc outcome found answer =>
      rw [store_service]
      rcases RunExecutionService.replied_manager answer with ⟨manager, -⟩ | ⟨signal, -, -, manager, -⟩
      · rw [manager]
        exact .inl rfl
      · rw [manager]
        exact .inl rfl
  | passes _ _ passing =>
      rw [passing.stores.1]
      exact .inl rfl

/-- A run comes to be CANCELLED in a turn of a `cancelRun` that was asked for it. -/
theorem Steps.cancelled (steps : w.Steps label w') (fresh : w.FreshRun label) {runId : RunId}
    (after : w'.stateOf runId = some .cancelled) :
    w.stateOf runId = some .cancelled ∨
      ∃ id random frame reason pc, label = .resume id random ∧
        w.tasks.get id = some (.calling frame (.cancelRun runId reason pc)) := by
  have moved {id : Nat} {old : Option Task} {outcome : Outcome}
      (move : Move w.service old outcome.1 outcome.2)
      (after : (w.store id outcome).stateOf runId = some .cancelled) :
      w.stateOf runId = some .cancelled ∨
        ∃ frame reason pc, old = some (.calling frame (.cancelRun runId reason pc)) := by
    simp only [stateOf, store_service] at after ⊢
    rcases move.stateOf runId with same | ⟨-, new⟩ |
      ⟨frame, call, before, newState, was, -, writes, wrote⟩
    · exact .inl (same.symm.trans after)
    · rw [new] at after
      cases after
    · rw [wrote] at after
      cases after
      obtain ⟨reason, pc, rfl⟩ := Call.write_cancelled writes
      exact .inr ⟨frame, reason, pc, was⟩
  cases steps with
  | creates id random owner body free =>
      left
      have move : Move w.service none (w.service.createRun random owner body).1
          (w.service.createRun random owner body).2 := by
        unfold RunExecutionService.createRun
        split
        · exact .created random _ (fresh _ rfl)
        · exact .declined
      rcases moved move after with same | ⟨frame, reason, pc, was⟩
      · exact same
      · cases was
  | requests id asked owner body free =>
      rw [stateOf, store_service] at after
      exact .inl after
  | fires id timer fired timeoutManager free due =>
      rw [stateOf, store_service] at after
      exact .inl after
  | resumes id random task outcome found goes =>
      rcases moved (resume_move goes) after with same | ⟨frame, reason, pc, was⟩
      · exact .inl same
      · exact .inr ⟨id, random, frame, reason, pc, rfl, found.trans was⟩
  | replies id reply userId run pc outcome found answer =>
      left
      rcases moved (.replied userId run pc reply outcome answer) after with same |
        ⟨frame, reason, pc, was⟩
      · exact same
      · cases was
  | passes _ _ passing =>
      left
      rw [stateOf, passing.stores.1] at after
      exact after

theorem Steps.ownerOf (steps : w.Steps label w') (fresh : w.FreshRun label) {runId : RunId}
    {owner : OwnerPrincipal} (stored : w.service.runManager.ownerOf runId = some owner) :
    w'.service.runManager.ownerOf runId = some owner := by
  rcases steps.charterOf runId with same | ⟨id, random, asker, body, prompt, agentPackId, rfl, -, -,
    rfl, -⟩
  · exact (congrArg (Option.map Prod.fst) same).trans stored
  · have unused := fresh _ rfl
    obtain ⟨run, found, -⟩ := RunManager.ownerOf_eq_some.mp stored
    rw [stateOf, RunManager.stateOf, found] at unused
    cases unused

def settles (w : Runtime) : Label → Option (Nat × Except HttpException Run)
  | .resume id random => ((w.tasks.get id).bind (w.service.settles random)).map (id, ·)
  | _ => none

def Label.asks : Label → Bool
  | .createRun _ _ _ _ => true
  | .cancelRun _ _ _ _ => true
  | _ => false

theorem settles_eq_some {id : Nat} {result : Except HttpException Run}
    (settled : w.settles label = some (id, result)) :
    ∃ random task, label = .resume id random ∧ w.tasks.get id = some task ∧
      w.service.settles random task = some result := by
  unfold settles at settled
  split at settled
  · obtain ⟨answer, inside, same⟩ := Option.map_eq_some_iff.mp settled
    cases same
    obtain ⟨task, found, settled⟩ := Option.bind_eq_some_iff.mp inside
    exact ⟨_, task, rfl, found, settled⟩
  · cases settled

theorem Steps.waits (steps : w.Steps label w') {id : Nat} {task : Task}
    (found : w.tasks.get id = some task) (asks : task.serving ≠ none) :
    (∀ random, label ≠ .resume id random) ∧ w'.tasks.get id = some task ∨
      ∃ random outcome, label = .resume id random ∧
        w.service.resume random task = some outcome ∧ w'.tasks.get id = outcome.2 := by
  -- another task moves
  have apart {moved : Nat} {outcome : Outcome} (different : id ≠ moved) :
      (w.store moved outcome).tasks.get id = some task := by
    rw [get_store, Function.update_of_ne different, found]
  have spawned {moved : Nat} (free : w.tasks.get moved = none) : id ≠ moved := by
    rintro rfl
    rw [found] at free
    cases free
  cases steps with
  | creates moved random owner body free =>
      refine .inl ⟨?_, apart (spawned free)⟩
      rintro random ⟨⟩
  | requests moved runId owner body free =>
      refine .inl ⟨?_, apart (spawned free)⟩
      rintro random ⟨⟩
  | fires moved timer runId timeoutManager free due =>
      refine .inl ⟨?_, apart (spawned free)⟩
      rintro random ⟨⟩
  | resumes moved random old outcome found' goes =>
      by_cases here : id = moved
      · subst here
        cases found.symm.trans found'
        refine .inr ⟨random, outcome, rfl, goes, ?_⟩
        rw [get_store, Function.update_self]
      · refine .inl ⟨?_, apart here⟩
        rintro random' ⟨⟩
        exact here rfl
  | replies moved reply userId run pc outcome found' answer =>
      refine .inl ⟨?_, apart ?_⟩
      · rintro random ⟨⟩
      · rintro rfl
        cases found.symm.trans found'
        exact asks rfl
  | passes _ _ passing =>
      refine .inl ⟨?_, passing.stores.2.1 ▸ found⟩
      rintro random rfl
      cases passing

theorem Steps.serving (steps : w.Steps label w') (loops : w.Loops) (unasked : label.asks = false)
    (id : Nat) : (w'.tasks.get id).bind Task.serving =
      if (w.settles label).map Prod.fst = some id then none
      else (w.tasks.get id).bind Task.serving := by
  -- a step that answers nothing and whose moved task serves nobody
  have aside {moved : Nat} {outcome : Outcome} (silent : w.settles label = none)
      (before : (w.tasks.get moved).bind Task.serving = none)
      (after : outcome.2.bind Task.serving = none) :
      ((w.store moved outcome).tasks.get id).bind Task.serving =
        if (w.settles label).map Prod.fst = some id then none
        else (w.tasks.get id).bind Task.serving := by
    rw [silent, get_store, Function.update_apply]
    split
    · rename_i here
      simp [after, here, before]
    · simp
  cases steps with
  | creates moved random owner body free => cases unasked
  | requests moved asked owner body free => cases unasked
  | fires moved timer fired timeoutManager free due => exact aside rfl (by rw [free]; rfl) rfl
  | resumes moved random task outcome found goes =>
      have served := RunExecutionService.resume_serving
        (fun frame call same => loops.fits moved frame call (found.trans (congrArg some same))) goes
      rw [get_store, Function.update_apply]
      by_cases here : id = moved
      · subst here
        rw [if_pos rfl, served, found]
        cases settled : w.service.settles random task <;> simp [settles, found, settled]
      · have other : (w.settles (.resume moved random)).map Prod.fst ≠ some id := by
          intro same
          obtain ⟨⟨answered, result⟩, settled, rfl⟩ := Option.map_eq_some_iff.mp same
          obtain ⟨_, _, same, -⟩ := settles_eq_some settled
          cases same
          exact here rfl
        rw [if_neg here, if_neg other]
  | replies moved reply userId run pc outcome found answer =>
      exact aside rfl (by rw [found]; rfl) (RunExecutionService.replied_serving answer)
  | passes _ _ passing =>
      have silent : w.settles label = none := by cases passing <;> rfl
      rw [silent, passing.stores.2.1]
      simp

theorem Steps.serves (steps : w.Steps label w') (fresh : w.FreshRun label) (serial : w.Serial)
    (unasked : label.asks = false) {id : Nat} {owner : OwnerPrincipal}
    (asks : (w'.tasks.get id).bind Task.serving ≠ none)
    (served : ∀ task, w.tasks.get id = some task → task.Serves w.service.runManager owner) :
    ∀ task, w'.tasks.get id = some task → task.Serves w'.service.runManager owner := by
  have serving := steps.serving serial.loops unasked id
  rw [serving] at asks
  split at asks
  · exact absurd rfl asks
  · rename_i unsettled
    intro task found'
    -- a task that was there before the step is left alone by it
    have stays (same : w'.tasks.get id = w.tasks.get id) :
        task.Serves w'.service.runManager owner :=
      (served task (same ▸ found')).mono (fun runId owner stored => steps.ownerOf fresh stored)
    cases steps with
    | creates moved random owner body free => cases unasked
    | requests moved asked owner body free => cases unasked
    | fires moved timer fired timeoutManager free due =>
        by_cases here : id = moved
        · subst here
          rw [free] at asks
          exact absurd rfl asks
        · exact stays (by rw [get_store, Function.update_of_ne here])
    | resumes moved random old outcome found goes =>
        by_cases here : id = moved
        · subst here
          rw [get_store, Function.update_self] at found'
          rw [store_service]
          have waits : w.service.settles random old = none := by
            cases settled : w.service.settles random old with
            | none => rfl
            | some result => simp [settles, found, settled] at unsettled
          rw [found] at asks
          exact RunExecutionService.resume_serves serial.queues.named.own
            (fun frame call same => serial.loops.fits id frame call (found.trans (congrArg some same)))
            (served old found) goes waits asks found'
        · exact stays (by rw [get_store, Function.update_of_ne here])
    | replies moved reply userId run pc outcome found answer =>
        by_cases here : id = moved
        · subst here
          rw [found] at asks
          exact absurd rfl asks
        · exact stays (by rw [get_store, Function.update_of_ne here])
    | passes _ _ passing => exact stays (by rw [passing.stores.2.1])

end Runtime

end Minerva
