import Minerva.Runtime.Serialization
import Minerva.Services.Signals

namespace Minerva

/-- The final state that an observation announces for a run. -/
def Observation.ends (runId : RunId) : Observation → Option RunState
  | .broadcast id event => if id = runId then event.announces else none
  | _ => none

/-- The final states that have been announced for a run, in order. -/
def RunExecutionService.announced (s : RunExecutionService) (runId : RunId) : List RunState :=
  s.log.filterMap (Observation.ends runId)

def abortState (reason : String) : RunState :=
  if reason = "timeout" then .timedOut else .cancelled

def Call.answers : Call → Option Run
  | .cancelRun _ _ (.loaded (some run)) => if isTerminalState run.state then some run else none
  | .cancelRun _ _ (.abandoning (.transition _ (.reloaded run))) => some run
  | _ => none

def Emits (s s' : RunExecutionService) (runId : RunId) (state : RunState) : Prop :=
  s'.announced runId =
    if runId ∈ s.terminalEvents then s.announced runId else s.announced runId ++ [state]

namespace RunExecutionService

variable {s : RunExecutionService} {runId : RunId}

@[simp] theorem note_announced (s : RunExecutionService) (observation : Observation)
    (runId : RunId) :
    (s.note observation).announced runId =
      s.announced runId ++ (observation.ends runId).toList := by
  unfold announced note
  rw [List.filterMap_append]
  cases named : observation.ends runId <;> simp [named]

theorem broadcast_announced {event : RunEvent} (silent : event.announces = none) (id : RunId) :
    (s.broadcastOrchestratorEvent id event).announced runId = s.announced runId := by
  simp [broadcastOrchestratorEvent, Observation.ends, silent]

@[simp] theorem closeRun_announced (s : RunExecutionService) (id runId : RunId) :
    (s.closeRun id).announced runId = s.announced runId := by
  simp [closeRun, Observation.ends]

@[simp] theorem forgetTerminal_announced (s : RunExecutionService) (id runId : RunId) :
    (s.forgetTerminal id).announced runId = s.announced runId := rfl

@[simp] theorem finish_announced (s : RunExecutionService) (run : Run) (agent listening : Bool)
    (runId : RunId) : (s.finish run agent listening).announced runId = s.announced runId := by
  unfold finish
  split <;> simp [Observation.ends]

@[simp] theorem finish_terminalEvents (s : RunExecutionService) (run : Run)
    (agent listening : Bool) :
    (s.finish run agent listening).terminalEvents = s.terminalEvents := by
  unfold finish
  split <;> rfl

@[simp] theorem emitTerminalOnce_terminalEvents (s : RunExecutionService) (id : RunId)
    (event : RunEvent) : (s.emitTerminalOnce id event).terminalEvents = insert id s.terminalEvents := by
  unfold emitTerminalOnce
  split
  · rename_i marked
    exact (Finset.insert_eq_of_mem marked).symm
  · rfl

theorem emitTerminalOnce_emits {event : RunEvent} {state : RunState}
    (announces : event.announces = some state) :
    Emits s (s.emitTerminalOnce runId event) runId state := by
  unfold Emits emitTerminalOnce
  split
  · rfl
  · simp only [broadcastOrchestratorEvent, note_announced, Observation.ends, if_true, announces]
    rfl

theorem emitTerminalOnce_other {event : RunEvent} {id : RunId} (different : id ≠ runId) :
    (s.emitTerminalOnce id event).announced runId = s.announced runId := by
  unfold emitTerminalOnce
  split
  · rfl
  · simp only [broadcastOrchestratorEvent, note_announced, Observation.ends, if_neg different]
    exact List.append_nil _

theorem abortListener_emits (s : RunExecutionService) (abort : Abort) :
    ∃ event, event.announces = some (abortState abort.reason) ∧
      s.abortListener abort =
        (s.note (.agentAborted abort.listener.runId)).emitTerminalOnce abort.listener.runId event := by
  unfold abortListener abortState
  split
  · exact ⟨.runTimedOut _ _, rfl, rfl⟩
  · exact ⟨.runCancelled _ _, rfl, rfl⟩

theorem foldl_marked {aborts : List Abort} {id : RunId} {s : RunExecutionService}
    (own : ∀ abort ∈ aborts, abort.listener.runId = id) (marked : id ∈ s.terminalEvents) :
    (aborts.foldl abortListener s).terminalEvents = s.terminalEvents ∧
      ∀ runId, (aborts.foldl abortListener s).announced runId = s.announced runId := by
  induction aborts generalizing s with
  | nil => exact ⟨rfl, fun _ => rfl⟩
  | cons abort rest ih =>
      obtain ⟨event, announces, emits⟩ := s.abortListener_emits abort
      have here : abort.listener.runId = id := own abort (by simp)
      rw [here] at emits
      have still : s.abortListener abort = s.note (.agentAborted id) := by
        rw [emits, emitTerminalOnce, if_pos (show id ∈ (s.note _).terminalEvents from marked)]
      rw [List.foldl_cons, still]
      obtain ⟨marks, quiet⟩ := ih (s := s.note (.agentAborted id))
        (fun abort member => own abort (List.mem_cons_of_mem _ member)) marked
      refine ⟨marks, ?_⟩
      intro runId
      rw [quiet, note_announced]
      exact List.append_nil _

theorem foldl_emits (s : RunExecutionService) {aborts : List Abort} {id : RunId} {reason : String}
    (own : ∀ abort ∈ aborts, abort.listener.runId = id ∧ abort.reason = reason)
    (heard : aborts ≠ []) :
    (aborts.foldl abortListener s).terminalEvents = insert id s.terminalEvents ∧
      Emits s (aborts.foldl abortListener s) id (abortState reason) ∧
      ∀ runId, id ≠ runId → (aborts.foldl abortListener s).announced runId = s.announced runId := by
  cases aborts with
  | nil => exact absurd rfl heard
  | cons abort rest =>
      obtain ⟨here, given⟩ := own abort (by simp)
      obtain ⟨event, announces, emits⟩ := s.abortListener_emits abort
      rw [here] at emits
      rw [given] at announces
      rw [List.foldl_cons, emits]
      have noted : (s.note (.agentAborted id)).announced = s.announced := by
        funext runId
        rw [note_announced]
        exact List.append_nil _
      have first : Emits (s.note (.agentAborted id)) _ id (abortState reason) :=
        emitTerminalOnce_emits announces
      have marked : id ∈ ((s.note (.agentAborted id)).emitTerminalOnce id event).terminalEvents := by
        rw [emitTerminalOnce_terminalEvents]
        exact Finset.mem_insert_self id _
      obtain ⟨marks, quiet⟩ := foldl_marked
        (fun abort member => (own abort (List.mem_cons_of_mem _ member)).1) marked
      refine ⟨?_, ?_, ?_⟩
      · rw [marks, emitTerminalOnce_terminalEvents]
        rfl
      · unfold Emits at first ⊢
        rw [quiet, first, noted]
        rfl
      · intro runId different
        rw [quiet, emitTerminalOnce_other different, noted]

theorem delivered_speaks (s : RunExecutionService) (owned : s.runManager.cancellationRegistry.Owned)
    (call : Call) (random : String) (runId : RunId) :
    ((s.delivered (call.resume s.runManager s.now random)).announced runId = s.announced runId ∧
        (runId ∈ (s.delivered (call.resume s.runManager s.now random)).terminalEvents ↔
          runId ∈ s.terminalEvents)) ∨
      ∃ reason context, call.cancels = some (runId, reason) ∧
        s.runManager.cancellationRegistry.get runId = some context ∧
        context.isCancelled = false ∧ context.listeners ≠ [] ∧
        Emits s (s.delivered (call.resume s.runManager s.now random)) runId (abortState reason) ∧
        runId ∈ (s.delivered (call.resume s.runManager s.now random)).terminalEvents := by
  have signals := Call.resume_signals s.runManager s.now random call
  unfold delivered
  generalize (call.resume s.runManager s.now random).manager = m at signals
  generalize m.cancellationRegistry = registry at signals
  generalize (call.resume s.runManager s.now random).aborts = aborts at signals
  cases signals with
  | silent keeps => exact .inl ⟨rfl, Iff.rfl⟩
  | creates runId run starts => exact .inl ⟨rfl, Iff.rfl⟩
  | forgets runId forgets => exact .inl ⟨rfl, Iff.rfl⟩
  | cancels id reason cancels =>
      rw [InMemoryCancellationRegistry.aborts_cancel]
      cases found : s.runManager.cancellationRegistry.get id with
      | none => exact .inl ⟨rfl, Iff.rfl⟩
      | some context =>
          simp only [Option.map_some, Option.getD_some]
          unfold CancellationContext.cancel
          by_cases cancelled : context.isCancelled = true
          · rw [if_pos cancelled]
            exact .inl ⟨rfl, Iff.rfl⟩
          · rw [if_neg cancelled]
            by_cases silent : context.listeners = []
            · rw [silent]
              exact .inl ⟨rfl, Iff.rfl⟩
            · have own : ∀ abort ∈ context.listeners.map
                  (fun listener => (⟨listener, (some reason).getD "cancelled"⟩ : Abort)),
                  abort.listener.runId = id ∧ abort.reason = reason := by
                intro abort member
                obtain ⟨listener, installed, rfl⟩ := List.mem_map.mp member
                exact ⟨owned id context found listener installed, rfl⟩
              obtain ⟨marks, emits, other⟩ := foldl_emits { s with runManager := m } own
                (by simpa using silent)
              by_cases same : id = runId
              · subst same
                refine .inr ⟨reason, context, cancels, found, by simpa using cancelled, silent, ?_, ?_⟩
                · exact emits
                · rw [marks]
                  exact Finset.mem_insert_self id _
              · left
                refine ⟨other runId same, ?_⟩
                rw [marks, Finset.mem_insert]
                exact or_iff_right (Ne.symm same)

end RunExecutionService

inductive Says (s : RunExecutionService) (old : Option Task) (s' : RunExecutionService)
    (new : Option Task) (runId : RunId) : Prop
  | nothing (quiet : s'.announced runId = s.announced runId)
      (marks : runId ∈ s'.terminalEvents ↔ runId ∈ s.terminalEvents)
  | aborts (frame : Frame) (call : Call) (reason : String) (context : CancellationContext)
      (was : old = some (.calling frame call)) (cancels : call.cancels = some (runId, reason))
      (found : s.runManager.cancellationRegistry.get runId = some context)
      (live : context.isCancelled = false) (heard : context.listeners ≠ [])
      (emits : Emits s s' runId (abortState reason)) (marked : runId ∈ s'.terminalEvents)
  | confirms (reason : Option String) (call : Call) (run : Run)
      (was : old = some (.calling (.cancelRun reason) call)) (answers : call.answers = some run)
      (own : run.id = runId) (state : run.state = .cancelled)
      (emits : Emits s s' runId .cancelled) (marked : runId ∈ s'.terminalEvents)
  | ends (frame : Frame) (call : Call) (run last : Run) (state : RunState)
      (was : old = some (.calling frame call)) (ends : frame.ends = some run)
      (own : run.id = runId) (inside : call.transition = some (runId, state, .reloaded last))
      (emits : Emits s s' runId state) (forgotten : runId ∉ s'.terminalEvents)
      (past : new.bind Task.runs = none)
  | forgets (task : Task) (run : Run) (was : old = some task) (runs : task.runs = some run)
      (own : run.id = runId) (quiet : s'.announced runId = s.announced runId)
      (forgotten : runId ∉ s'.terminalEvents) (past : new.bind Task.runs = none)

theorem Call.answers_of_resolve {m : RunManager} {now : Int} {random : String} {runId : RunId}
    {reason : Option String} {pc : CancelPc} {run : Run}
    (resolves : ((Call.cancelRun runId reason pc).resume m now random).progress =
      .resolve (some run)) : (Call.cancelRun runId reason pc).answers = some run := by
  obtain ⟨value, answers, same⟩ := (settle_resolve _ _ _ _).mp resolves
  cases same
  cases pc with
  | loaded snapshot =>
      cases snapshot with
      | none => cases answers
      | some snapshot =>
          simp only [RunManager.cancelRunResume] at answers
          split at answers
          · rename_i terminal
            cases answers
            exact if_pos terminal
          · split at answers
            · cases answers
            · have deep := (Progress.map_resolve _ _ _).mp answers
              unfold RunManager.abandon at deep
              split at deep <;> cases deep
  | removed snapshot =>
      have deep := (Progress.map_resolve _ _ _).mp answers
      unfold RunManager.abandon at deep
      split at deep <;> cases deep
  | abandoning pc =>
      have deep := (Progress.map_resolve _ _ _).mp answers
      cases pc with
      | released snapshot => cases deep
      | transition snapshot inner =>
          have last := (Progress.map_resolve _ _ _).mp deep
          rw [transition_resolves m now runId .cancelled _ inner run last]
          rfl

theorem RunExecutionService.executeResume_speaks {s : RunExecutionService} {userId : UserId}
    {run : Run} {pc : ExecPc} {outcome : Outcome}
    (goes : s.executeResume userId run pc = some outcome) (runId : RunId) :
    Says s (some (.executing userId run pc)) outcome.1 outcome.2 runId := by
  have left (t : RunExecutionService) (agent listening : Bool)
      (quiet : t.announced runId = s.announced runId) (marks : t.terminalEvents = s.terminalEvents) :
      Says s (some (.executing userId run pc))
        ((t.forgetTerminal run.id).exit userId run agent listening).1
        ((t.forgetTerminal run.id).exit userId run agent listening).2 runId := by
    by_cases same : run.id = runId
    · refine .forgets _ run rfl rfl same ?_ ?_ rfl
      · simpa [exit] using quiet
      · simp [exit, forgetTerminal, same]
    · refine .nothing ?_ ?_
      · simpa [exit] using quiet
      · simp [exit, forgetTerminal, marks, Ne.symm same]
  cases executeResume_cases goes with
  | vanishes listening messages error => exact .nothing rfl Iff.rfl
  | closes listening messages latestRun stopped => exact left _ _ _ (by simp) rfl
  | completes listening messages latestRun going => exact .nothing rfl Iff.rfl
  | leaves agent listening error latestRun stopped => exact left _ _ _ rfl rfl
  | fails agent listening error latestRun going => exact .nothing rfl Iff.rfl

theorem RunExecutionService.replied_speaks {s : RunExecutionService} {userId : UserId} {run : Run}
    {pc : ExecPc} {reply : Reply} {outcome : Outcome}
    (answer : s.replied userId run pc reply = some outcome) (runId : RunId) :
    outcome.1.announced runId = s.announced runId ∧
      outcome.1.terminalEvents = s.terminalEvents := by
  cases replied_cases answer with
  | prompts signal was pack =>
      cases signal with
      | none => exact ⟨by simp [startPrompt, Observation.ends], rfl⟩
      | some signal =>
          refine ⟨?_, rfl⟩
          simp only [startPrompt, note_announced, Observation.ends]
          exact List.append_nil _
  | _ => exact ⟨rfl, rfl⟩

theorem Emits.after {s t s' : RunExecutionService} {runId : RunId} {state : RunState}
    (emits : Emits t s' runId state) (quiet : t.announced runId = s.announced runId)
    (marks : runId ∈ t.terminalEvents ↔ runId ∈ s.terminalEvents) : Emits s s' runId state := by
  unfold Emits at emits ⊢
  rw [emits, quiet]
  simp only [marks]

theorem RunExecutionService.ending_speaks {s t : RunExecutionService} {frame : Frame} {call : Call}
    {run last : Run} {state : RunState} {event : RunEvent} {runId : RunId}
    (ends : frame.ends = some run)
    (inside : call.transition = some (run.id, state, .reloaded last))
    (announces : event.announces = some state) (quiet : t.announced runId = s.announced runId)
    (marks : runId ∈ t.terminalEvents ↔ runId ∈ s.terminalEvents) (userId : UserId)
    (agent listening : Bool) :
    Says s (some (.calling frame call))
      ((((t.emitTerminalOnce run.id event).closeRun run.id).forgetTerminal run.id).exit userId run
        agent listening).1
      ((((t.emitTerminalOnce run.id event).closeRun run.id).forgetTerminal run.id).exit userId run
        agent listening).2 runId := by
  by_cases same : run.id = runId
  · subst same
    refine .ends frame call run last state rfl ends rfl inside ?_ ?_ rfl
    · have first : Emits t (t.emitTerminalOnce run.id event) run.id state :=
        emitTerminalOnce_emits announces
      simpa [Emits, exit] using first.after quiet marks
    · simp [exit, forgetTerminal]
  · refine .nothing ?_ ?_
    · rw [← quiet]
      simp [exit, emitTerminalOnce_other same]
    · rw [← marks]
      simp [exit, forgetTerminal, closeRun, note, Ne.symm same]

theorem Call.ends_of_resolve {m : RunManager} {now : Int} {random : String} {frame : Frame}
    {call : Call} {run : Run} {answer : Option Run} (fits : frame.Fits call)
    (ends : frame.ends = some run)
    (resolves : (call.resume m now random).progress = .resolve answer) :
    ∃ state last, call.transition = some (run.id, state, .reloaded last) ∧
      ((∃ userId listening, frame = .complete userId run listening) → state = .completed) ∧
      ((∃ userId agent listening, frame = .fail userId run agent listening) → state = .failed) := by
  cases frame with
  | complete userId completed listening =>
      cases ends
      cases call <;> simp only [Frame.Fits] at fits
      subst fits
      obtain ⟨last, answers, -⟩ := (settle_resolve _ _ _ _).mp resolves
      have place := end_resolve answers
      subst place
      refine ⟨.completed, last, rfl, fun _ => rfl, ?_⟩
      rintro ⟨user, agent, listens, impossible⟩
      cases impossible
  | fail userId failed agent listening =>
      cases ends
      cases call <;> simp only [Frame.Fits] at fits
      subst fits
      obtain ⟨last, answers, -⟩ := (settle_resolve _ _ _ _).mp resolves
      have place := end_resolve answers
      subst place
      refine ⟨.failed, last, rfl, ?_, fun _ => rfl⟩
      rintro ⟨user, listens, impossible⟩
      cases impossible
  | _ => cases ends

theorem Move.speaks {s s' : RunExecutionService} {old new : Option Task} (move : Move s old s' new)
    (fits : ∀ frame call, old = some (.calling frame call) → frame.Fits call)
    (owned : s.runManager.cancellationRegistry.Owned) (runId : RunId) :
    Says s old s' new runId := by
  have delivering (call : Call) (random : String) := s.delivered_speaks owned call random runId
  -- a turn that settles its call has cancelled nothing
  have settled {call : Call} {random : String}
      (past : Call.pending (call.resume s.runManager s.now random) = none) :
      (s.delivered (call.resume s.runManager s.now random)).announced runId = s.announced runId ∧
        (runId ∈ (s.delivered (call.resume s.runManager s.now random)).terminalEvents ↔
          runId ∈ s.terminalEvents) := by
    rcases delivering call random with quiet | ⟨reason, context, cancels, -⟩
    · exact quiet
    · obtain ⟨next, goes, -⟩ := Call.cancels_next s.runManager s.now random cancels
      rw [past] at goes
      cases goes
  cases move with
  | declined => exact .nothing rfl Iff.rfl
  | created random input fresh => exact .nothing rfl Iff.rfl
  | requested runId' owner reason => exact .nothing rfl Iff.rfl
  | fired timer runId' timeoutManager due => exact .nothing rfl Iff.rfl
  | refused runId' owner reason run => exact .nothing rfl Iff.rfl
  | cancelling runId' owner reason run => exact .nothing rfl Iff.rfl
  | awaits frame call next random goes =>
      rcases delivering call random with ⟨quiet, marks⟩ |
        ⟨reason, context, cancels, found, live, heard, emits, marked⟩
      · exact .nothing quiet marks
      · exact .aborts frame call reason context rfl cancels found live heard emits marked
  | resolves frame call random run answers =>
      obtain ⟨quiet, marks⟩ := settled (by rw [Call.pending, answers])
      have fit := fits frame call rfl
      generalize s.delivered (call.resume s.runManager s.now random) = t at quiet marks
      cases frame with
      | createRun =>
          cases run with
          | none => exact .nothing quiet marks
          | some run =>
              simp only [RunExecutionService.resolved, RunExecutionService.processUserQueue]
              split <;> exact .nothing
                ((RunExecutionService.broadcast_announced rfl run.id).trans quiet) marks
      | cancelRun reason =>
          cases run with
          | none => exact .nothing quiet marks
          | some run =>
              cases call <;> simp only [Frame.Fits] at fit
              simp only [RunExecutionService.resolved]
              split
              · rename_i cancelled
                by_cases same : run.id = runId
                · subst same
                  refine .confirms _ _ run rfl (Call.answers_of_resolve answers) rfl cancelled ?_ ?_
                  · exact (RunExecutionService.emitTerminalOnce_emits rfl).after quiet marks
                  · rw [RunExecutionService.emitTerminalOnce_terminalEvents]
                    exact Finset.mem_insert_self run.id _
                · refine .nothing ?_ ?_
                  · rw [RunExecutionService.emitTerminalOnce_other same]
                    exact quiet
                  · rw [RunExecutionService.emitTerminalOnce_terminalEvents, Finset.mem_insert]
                    exact (or_iff_right (Ne.symm same)).trans marks
              · exact .nothing quiet marks
      | acquire userId =>
          cases run with
          | none => exact .nothing quiet marks
          | some run =>
              refine .nothing ?_ marks
              rw [← quiet]
              simp [RunExecutionService.resolved, RunExecutionService.executeRun, Observation.ends]
      | start userId started workspaceId =>
          cases run with
          | none => exact .nothing quiet marks
          | some run =>
              exact .nothing ((RunExecutionService.broadcast_announced rfl started.id).trans quiet)
                marks
      | complete userId completed listening =>
          cases run with
          | none => exact .nothing quiet marks
          | some run =>
              obtain ⟨state, last, inside, target, -⟩ := Call.ends_of_resolve fit rfl answers
              rw [target ⟨_, _, rfl⟩] at inside
              exact RunExecutionService.ending_speaks rfl inside rfl quiet marks userId true listening
      | fail userId failed agent listening =>
          cases run with
          | none => exact .nothing quiet marks
          | some run =>
              obtain ⟨state, last, inside, -, target⟩ := Call.ends_of_resolve fit rfl answers
              rw [target ⟨_, _, _, rfl⟩] at inside
              exact RunExecutionService.ending_speaks rfl inside rfl quiet marks userId agent listening
      | timeout => exact .nothing quiet marks
  | rejects frame call random error throws =>
      obtain ⟨quiet, marks⟩ := settled (by rw [Call.pending, throws])
      cases frame with
      | fail userId run agent listening =>
          refine .nothing ?_ ?_
          · simpa [RunExecutionService.rejected] using quiet
          · simpa [RunExecutionService.rejected] using marks
      | _ => exact .nothing quiet marks
  | replied userId run pc reply outcome answer =>
      obtain ⟨quiet, marks⟩ := RunExecutionService.replied_speaks answer runId
      exact .nothing quiet (by rw [marks])
  | continued userId run pc outcome goes => exact RunExecutionService.executeResume_speaks goes runId
  | again userId => exact .nothing rfl Iff.rfl
  | died userId => exact .nothing rfl Iff.rfl

theorem Move.delivers {s s' : RunExecutionService} {frame : Frame} {call : Call}
    {new : Option Task} (move : Move s (some (.calling frame call)) s' new) :
    ∃ random, ∀ next, Call.pending (call.resume s.runManager s.now random) = some next →
      s' = s.delivered (call.resume s.runManager s.now random) := by
  cases move with
  | awaits _ _ next random goes => exact ⟨random, fun _ _ => rfl⟩
  | resolves _ _ random run answers =>
      refine ⟨random, ?_⟩
      intro next same
      rw [Call.pending, answers] at same
      cases same
  | rejects _ _ random error throws =>
      refine ⟨random, ?_⟩
      intro next same
      rw [Call.pending, throws] at same
      cases same

namespace Runtime

variable {w w' : Runtime} {label : Label} {id : Nat}

theorem Moves.owned (moves : w.Moves label id w')
    (owned : w.service.runManager.cancellationRegistry.Owned) :
    w'.service.runManager.cancellationRegistry.Owned := by
  apply moves.keeps (fun m _ => m.cancellationRegistry.Owned) owned
  · intro call m' p' resumed step
    exact step.owned owned
  · intro m p m' p' step earlier
    exact step.owned earlier

theorem Moves.speaks (moves : w.Moves label id w') (serial : w.Serial)
    (owned : w.service.runManager.cancellationRegistry.Owned) (runId : RunId) :
    Says w.service (w.tasks.get id) w'.service (w'.tasks.get id) runId := by
  apply moves.move.speaks _ owned
  intro frame call found
  exact serial.loops.fits id frame call found

theorem Passes.announced (passes : w.Passes label w') (runId : RunId) :
    w'.service.announced runId = w.service.announced runId := by
  cases passes with
  | tick elapsed => rfl
  | agentEvent id event userId run listening prompting =>
      rw [RunExecutionService.note_announced]
      exact List.append_nil _

end Runtime

end Minerva
