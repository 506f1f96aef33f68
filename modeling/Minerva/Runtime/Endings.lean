import Minerva.Runtime.Abort
import Minerva.Runtime.Events
import Minerva.Runtime.FinalEvents
import Minerva.Runtime.Leaving

namespace Minerva

def Observation.about : Observation → Option RunId
  | .broadcast runId _ => some runId
  | .agentEvent runId _ => some runId
  | .executed _ => none
  | .prompted _ => none
  | .agentAborted _ => none
  | .closed _ => none

structure Mute (runId : RunId) (s t : RunExecutionService) : Prop where
  log : Logs (fun observation => observation.about ≠ some runId) s t
  marks : runId ∈ t.terminalEvents → runId ∈ s.terminalEvents

namespace Mute

variable {runId : RunId} {s t u : RunExecutionService}

theorem of_same (same : t.log = s.log) (marks : t.terminalEvents ⊆ s.terminalEvents) :
    Mute runId s t where
  log := .of_same same
  marks := fun marked => marks marked

theorem trans (first : Mute runId s t) (second : Mute runId t u) : Mute runId s u where
  log := first.log.trans second.log
  marks := fun marked => first.marks (second.marks marked)

theorem note {observation : Observation} (other : observation.about ≠ some runId) :
    Mute runId s (s.note observation) where
  log := .note other
  marks := id

theorem broadcast {id : RunId} (different : id ≠ runId) (event : RunEvent) :
    Mute runId s (s.broadcastOrchestratorEvent id event) :=
  note (by simpa [Observation.about] using different)

theorem emitTerminalOnce {id : RunId} (different : id ≠ runId) (event : RunEvent) :
    Mute runId s (s.emitTerminalOnce id event) where
  log := .emitTerminalOnce (by simpa [Observation.about] using different)
  marks := by
    intro marked
    rw [RunExecutionService.emitTerminalOnce_terminalEvents, Finset.mem_insert] at marked
    rcases marked with same | earlier
    · exact absurd same.symm different
    · exact earlier

theorem finish (run : Run) (agent listening : Bool) :
    Mute runId s (s.finish run agent listening) where
  log := .finish (by simp [Observation.about]) agent listening
  marks := by
    rw [RunExecutionService.finish_terminalEvents]
    exact id

theorem forgetTerminal (id : RunId) : Mute runId s (s.forgetTerminal id) :=
  of_same rfl (Finset.erase_subset _ _)

theorem closeRun (id : RunId) : Mute runId s (s.closeRun id) := note (by simp [Observation.about])

theorem leave (userId : UserId) (run : Run) (agent listening : Bool) :
    Mute runId s ((s.forgetTerminal run.id).exit userId run agent listening).1 :=
  (forgetTerminal run.id).trans (finish run agent listening)

theorem foldl_abortListener {aborts : List Abort}
    (others : ∀ abort ∈ aborts, abort.listener.runId ≠ runId) :
    Mute runId s (aborts.foldl RunExecutionService.abortListener s) := by
  induction aborts generalizing s with
  | nil => exact of_same rfl (Finset.Subset.refl _)
  | cons abort rest ih =>
      obtain ⟨event, -, emits⟩ := s.abortListener_emits abort
      rw [List.foldl_cons, emits]
      have aborted : Mute runId s (s.note (.agentAborted abort.listener.runId)) :=
        note (by simp [Observation.about])
      apply (aborted.trans (emitTerminalOnce (others abort (by simp)) event)).trans
      exact ih (fun abort member => others abort (List.mem_cons_of_mem _ member))

theorem processUserQueue (userId : UserId) : Mute runId s (s.processUserQueue userId).1 := by
  unfold RunExecutionService.processUserQueue
  split <;> exact of_same rfl (Finset.Subset.refl _)

end Mute

theorem Call.aborts_own {m : RunManager} (owned : m.cancellationRegistry.Owned) (now : Int)
    (random : String) (call : Call) :
    ∀ abort ∈ (call.resume m now random).aborts,
      (∃ reason, call.cancels = some (abort.listener.runId, reason)) ∧
        m.cancellationRegistry.hears abort.listener.runId = true := by
  have signals := Call.resume_signals m now random call
  generalize (call.resume m now random).manager.cancellationRegistry = registry at signals
  generalize (call.resume m now random).aborts = aborts at signals ⊢
  intro abort member
  cases signals with
  | silent keeps => cases member
  | creates runId run starts => cases member
  | forgets runId forgets => cases member
  | cancels runId reason cancels =>
      rw [InMemoryCancellationRegistry.aborts_cancel] at member
      cases found : m.cancellationRegistry.get runId with
      | none =>
          rw [found] at member
          cases member
      | some context =>
          simp only [found, Option.map_some, Option.getD_some] at member
          unfold CancellationContext.cancel at member
          split at member
          · cases member
          · rename_i live
            obtain ⟨listener, installed, rfl⟩ := List.mem_map.mp member
            have own : listener.runId = runId := owned runId context found listener installed
            subst own
            refine ⟨⟨reason, cancels⟩, (InMemoryCancellationRegistry.hears_iff _ _).mpr ?_⟩
            exact ⟨context, found, by simpa using live, List.ne_nil_of_mem installed⟩

/-- The turns that speak of a run: those of its execution, the answers of `createRun` and
`cancelRun`, and a signal that its listener hears. -/
inductive Speaks (s : RunExecutionService) (old : Option Task) (runId : RunId) : Prop
  | executes (task : Task) (run : Run) (was : old = some task) (runs : task.runs = some run)
      (own : run.id = runId)
  | creates (run : Run) (was : old = some (.calling .createRun (.createRun (.updated run))))
      (own : run.id = runId)
  | confirms (reason : Option String) (call : Call) (run : Run)
      (was : old = some (.calling (.cancelRun reason) call)) (answers : call.answers = some run)
      (own : run.id = runId) (state : run.state = .cancelled)
  | aborts (frame : Frame) (call : Call) (reason : String)
      (was : old = some (.calling frame call)) (cancels : call.cancels = some (runId, reason))
      (hears : s.runManager.cancellationRegistry.hears runId = true)

namespace RunExecutionService

theorem delivered_mute (s : RunExecutionService) (owned : s.runManager.cancellationRegistry.Owned)
    (frame : Frame) (call : Call) (random : String) (runId : RunId) :
    Speaks s (some (.calling frame call)) runId ∨
      Mute runId s (s.delivered (call.resume s.runManager s.now random)) := by
  by_cases named : ∃ abort ∈ (call.resume s.runManager s.now random).aborts,
      abort.listener.runId = runId
  · obtain ⟨abort, member, own⟩ := named
    obtain ⟨⟨reason, cancels⟩, hears⟩ := Call.aborts_own owned s.now random call abort member
    rw [own] at cancels hears
    exact .inl (.aborts frame call reason rfl cancels hears)
  · right
    have stores : Mute runId s
        { s with runManager := (call.resume s.runManager s.now random).manager } :=
      .of_same rfl (Finset.Subset.refl _)
    apply stores.trans
    apply Mute.foldl_abortListener
    intro abort member own
    exact named ⟨abort, member, own⟩

theorem replied_mute {s : RunExecutionService} {userId : UserId} {run : Run} {pc : ExecPc}
    {reply : Reply} {outcome : Outcome} (answer : s.replied userId run pc reply = some outcome)
    (runId : RunId) : Mute runId s outcome.1 := by
  cases replied_cases answer with
  | prompts signal was pack =>
      cases signal with
      | none => exact .note (by simp [Observation.about])
      | some signal => exact ⟨⟨[.prompted run.id], rfl, by simp [Observation.about]⟩, id⟩
  | _ => exact .of_same rfl (Finset.Subset.refl _)

theorem executeResume_mute {s : RunExecutionService} {userId : UserId} {run : Run} {pc : ExecPc}
    {outcome : Outcome} (goes : s.executeResume userId run pc = some outcome) (runId : RunId) :
    Mute runId s outcome.1 := by
  cases executeResume_cases goes with
  | closes listening messages latestRun stopped =>
      exact (Mute.closeRun run.id).trans (.leave userId run true listening)
  | leaves agent listening error latestRun stopped => exact .leave userId run agent listening
  | _ => exact .of_same rfl (Finset.Subset.refl _)

theorem ending_mute {t : RunExecutionService} {userId : UserId} {run : Run} {runId : RunId}
    (different : run.id ≠ runId) (event : RunEvent) (agent listening : Bool) :
    Mute runId t ((((t.emitTerminalOnce run.id event).closeRun run.id).forgetTerminal run.id).exit
      userId run agent listening).1 :=
  ((Mute.emitTerminalOnce different event).trans (.closeRun run.id)).trans
    (.leave userId run agent listening)

end RunExecutionService

theorem Move.mute {s s' : RunExecutionService} {old new : Option Task} (move : Move s old s' new)
    (fits : ∀ frame call, old = some (.calling frame call) → frame.Fits call)
    (owned : s.runManager.cancellationRegistry.Owned) (runId : RunId) :
    Speaks s old runId ∨ Mute runId s s' := by
  have still {t : RunExecutionService} (log : t.log = s.log)
      (marks : t.terminalEvents = s.terminalEvents) : Speaks s old runId ∨ Mute runId s t :=
    .inr (.of_same log (marks ▸ Finset.Subset.refl _))
  cases move with
  | declined => exact still rfl rfl
  | created random input fresh => exact still rfl rfl
  | requested runId' owner reason => exact still rfl rfl
  | fired timer runId' timeoutManager due => exact still rfl rfl
  | refused runId' owner reason run => exact still rfl rfl
  | cancelling runId' owner reason run => exact still rfl rfl
  | awaits frame call next random goes => exact s.delivered_mute owned frame call random runId
  | resolves frame call random answer answers =>
      rcases s.delivered_mute owned frame call random runId with speaks | mute
      · exact .inl speaks
      have fit := fits frame call rfl
      generalize s.delivered (call.resume s.runManager s.now random) = t at mute
      cases answer with
      | none =>
          cases frame with
          | acquire userId => exact .inr (mute.trans (.of_same rfl (Finset.Subset.refl _)))
          | timeout => exact .inr mute
          | _ => exact absurd answers (fit.answers (by simp) (by simp))
      | some last =>
          cases frame with
          | createRun =>
              cases call <;> simp only [Frame.Fits] at fit
              obtain ⟨run, resolves, same⟩ := (Call.settle_resolve _ _ _ _).mp answers
              cases same
              have place := Call.create_resolve resolves
              subst place
              by_cases own : last.id = runId
              · exact .inl (.creates last rfl own)
              · exact .inr ((mute.trans (.broadcast own _)).trans (.processUserQueue _))
          | cancelRun reason =>
              cases call <;> simp only [Frame.Fits] at fit
              simp only [RunExecutionService.resolved]
              split
              · rename_i cancelled
                by_cases own : last.id = runId
                · exact .inl (.confirms _ _ last rfl (Call.answers_of_resolve answers) own cancelled)
                · exact .inr (mute.trans (.emitTerminalOnce own _))
              · exact .inr mute
          | acquire userId => exact .inr (mute.trans (.note (by simp [Observation.about])))
          | start userId run workspaceId =>
              by_cases own : run.id = runId
              · exact .inl (.executes _ run rfl rfl own)
              · exact .inr (mute.trans (.broadcast own _))
          | complete userId run listening =>
              by_cases own : run.id = runId
              · exact .inl (.executes _ run rfl rfl own)
              · exact .inr (mute.trans (RunExecutionService.ending_mute own _ _ _))
          | fail userId run agent listening =>
              by_cases own : run.id = runId
              · exact .inl (.executes _ run rfl rfl own)
              · exact .inr (mute.trans (RunExecutionService.ending_mute own _ _ _))
          | timeout => exact .inr mute
  | rejects frame call random error throws =>
      rcases s.delivered_mute owned frame call random runId with speaks | mute
      · exact .inl speaks
      right
      cases frame with
      | acquire userId => exact mute.trans (.of_same rfl (Finset.Subset.refl _))
      | fail userId run agent listening => exact mute.trans (.finish run agent listening)
      | _ => exact mute
  | replied userId run pc reply outcome answer =>
      exact .inr (RunExecutionService.replied_mute answer runId)
  | continued userId run pc outcome goes =>
      exact .inr (RunExecutionService.executeResume_mute goes runId)
  | again userId => exact still rfl rfl
  | died userId => exact still rfl rfl

structure Seals (runId : RunId) (s t : RunExecutionService) : Prop where
  log : ∃ before after, t.log = s.log ++ (before ++ .closed runId :: after) ∧
    ∀ observation ∈ after, observation.about ≠ some runId
  marks : runId ∉ t.terminalEvents

theorem Seals.of_closed {s t : RunExecutionService} (grows : Extends s t) (userId : UserId)
    (run : Run) (agent listening : Bool) :
    Seals run.id s
      (((t.closeRun run.id).forgetTerminal run.id).exit userId run agent listening).1 := by
  obtain ⟨before, grown, -⟩ := grows
  have left : Mute run.id (t.closeRun run.id)
      (((t.closeRun run.id).forgetTerminal run.id).exit userId run agent listening).1 :=
    .leave userId run agent listening
  obtain ⟨after, last, silent⟩ := left.log
  constructor
  · refine ⟨before, after, ?_, silent⟩
    rw [last, RunExecutionService.closeRun, RunExecutionService.note, grown]
    simp
  · simp [RunExecutionService.exit, RunExecutionService.forgetTerminal]

/-- The run whose execution is about to end without `closeRun`: the `catch` block finds it stopped,
or its `failRun` throws. -/
def Task.abandons : Task → Option RunId
  | .executing _ run (.caught _ _ _ (some latestRun)) =>
    if latestRun.state = .cancelled ∨ latestRun.state = .timedOut then some run.id else none
  | .executing _ run (.caught _ _ _ none) => some run.id
  | .calling (.fail _ _ _ _) call => call.misses
  | _ => none

namespace Runtime

variable {w w' : Runtime} {label : Label} {id : Nat}

/-- The turn that ends an execution closes the run, unless it abandons the run. -/
theorem Serial.seals (serial : w.Serial) (moves : w.Moves label id w') {task : Task} {run : Run}
    (found : w.tasks.get id = some task) (runs : task.runs = some run)
    (past : (w'.tasks.get id).bind Task.runs = none) (kept : task.abandons = none) :
    Seals run.id w.service w'.service := by
  have move := moves.move
  rw [found] at move
  generalize w'.service = after at move
  generalize w'.tasks.get id = new at move past
  cases move with
  | refused runId owner reason answer => cases runs
  | cancelling runId owner reason answer => cases runs
  | again userId => cases runs
  | died userId => cases runs
  | awaits frame call next random goes => cases frame <;> cases runs <;> cases past
  | resolves frame call random answer answers =>
      have fit := serial.loops.fits id frame call found
      have grows : Extends w.service (w.service.delivered
        (call.resume w.service.runManager w.service.now random)) := .delivered _
      generalize w.service.delivered _ = t at grows past ⊢
      cases answer with
      | none =>
          cases frame with
          | acquire userId => cases runs
          | timeout => cases runs
          | _ => exact absurd answers (fit.answers (by simp) (by simp))
      | some last =>
          cases frame with
          | start userId started workspaceId => cases past
          | complete userId completed listening =>
              cases runs
              exact .of_closed (grows.trans (.emitTerminalOnce _ _)) userId run true listening
          | fail userId failed agent listening =>
              cases runs
              exact .of_closed (grows.trans (.emitTerminalOnce _ _)) userId run agent listening
          | _ => cases runs
  | rejects frame call random error throws =>
      cases frame with
      | start userId started workspaceId => cases past
      | complete userId completed listening => cases past
      | fail userId failed agent listening =>
          obtain ⟨misses, -⟩ := serial.fails found throws
          change call.misses = none at kept
          rw [misses] at kept
          cases kept
      | _ => cases runs
  | replied userId executed pc reply outcome answer =>
      obtain ⟨-, task', left, -, still⟩ := RunExecutionService.replied_task answer
      rw [left, Option.bind_some, still] at past
      cases past
  | continued userId executed pc outcome goes =>
      cases runs
      cases RunExecutionService.executeResume_cases goes with
      | vanishes listening messages error => cases past
      | closes listening messages latestRun stopped =>
          exact .of_closed (.of_same rfl) userId run true listening
      | completes listening messages latestRun going => cases past
      | leaves agent listening error latestRun stopped =>
          cases latestRun with
          | none => cases kept
          | some latest =>
              have going : ¬(latest.state = .cancelled ∨ latest.state = .timedOut) := by
                simpa [Task.abandons] using kept
              exact absurd (stopped latest rfl) going
      | fails agent listening error latestRun going => cases past

end Runtime

end Minerva
