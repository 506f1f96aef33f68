import Minerva.Runtime.Terminal

/-! Cancellations and timeouts that reach the agent: a signal that is not given between the
RUNNING write and the installation of the `abort` listener is heard. -/

namespace Minerva

def Observation.prompts : Observation → Option RunId
  | .prompted runId => some runId
  | _ => none

/-- The runs whose agent has been prompted, in order. -/
def RunExecutionService.prompts (s : RunExecutionService) : List RunId :=
  s.log.filterMap Observation.prompts

def Extends (s s' : RunExecutionService) : Prop :=
  ∃ more, s'.log = s.log ++ more ∧ ∀ runId, .prompted runId ∉ more

namespace Extends

variable {s t u : RunExecutionService}

theorem iff_logs :
    Extends s t ↔ Logs (fun observation => ∀ runId, observation ≠ .prompted runId) s t := by
  constructor
  · rintro ⟨more, grown, silent⟩
    refine ⟨more, grown, ?_⟩
    rintro _ member runId rfl
    exact silent runId member
  · rintro ⟨more, grown, silent⟩
    exact ⟨more, grown, fun runId member => silent _ member runId rfl⟩

theorem of_same (same : t.log = s.log) : Extends s t := iff_logs.mpr (.of_same same)

theorem prompts (grows : Extends s t) : t.prompts = s.prompts := by
  apply (iff_logs.mp grows).filterMap
  intro observation other
  cases observation with
  | prompted runId => exact absurd rfl (other runId)
  | _ => rfl

theorem trans (first : Extends s t) (second : Extends t u) : Extends s u :=
  iff_logs.mpr ((iff_logs.mp first).trans (iff_logs.mp second))

theorem note {observation : Observation} (other : ∀ runId, observation ≠ .prompted runId) :
    Extends s (s.note observation) := iff_logs.mpr (.note other)

theorem emitTerminalOnce (runId : RunId) (event : RunEvent) :
    Extends s (s.emitTerminalOnce runId event) := iff_logs.mpr (.emitTerminalOnce (by simp))

theorem finish (run : Run) (agent listening : Bool) : Extends s (s.finish run agent listening) :=
  iff_logs.mpr (.finish (by simp) agent listening)

theorem foldl_abortListener (aborts : List Abort) :
    Extends s (aborts.foldl RunExecutionService.abortListener s) := by
  apply iff_logs.mpr
  apply Logs.foldl_abortListener
  intro abort member observation noted runId
  rcases noted with rfl | ⟨event, -, rfl⟩ <;> simp

theorem delivered (turn : Turn Call (Option Run)) : Extends s (s.delivered turn) :=
  (of_same rfl).trans (foldl_abortListener turn.aborts)

theorem resolved (frame : Frame) (run : Option Run) : Extends s (s.resolved frame run).1 := by
  unfold RunExecutionService.resolved
  split
  · rename_i run
    have queued : Extends s (s.broadcastOrchestratorEvent run.id
        (.runQueued (run.queuePosition.getD 0))) := note (by simp)
    apply queued.trans
    unfold RunExecutionService.processUserQueue
    split <;> exact of_same rfl
  · split
    · exact emitTerminalOnce _ _
    · exact of_same rfl
  · exact of_same rfl
  · exact note (by simp)
  · exact note (by simp)
  · exact (((emitTerminalOnce _ _).trans (note (by simp))).trans (of_same rfl)).trans (finish _ _ _)
  · exact (((emitTerminalOnce _ _).trans (note (by simp))).trans (of_same rfl)).trans (finish _ _ _)
  · exact of_same rfl

theorem rejected (frame : Frame) (error : RunError) : Extends s (s.rejected frame error).1 := by
  unfold RunExecutionService.rejected
  split
  · exact of_same rfl
  · exact of_same rfl
  · exact of_same rfl
  · exact finish _ _ _
  · exact of_same rfl

theorem executeResume {userId : UserId} {run : Run} {pc : ExecPc} {outcome : Outcome}
    (goes : s.executeResume userId run pc = some outcome) : Extends s outcome.1 := by
  cases RunExecutionService.executeResume_cases goes with
  | vanishes listening messages error => exact of_same rfl
  | closes listening messages latestRun stopped =>
      exact ((note (by simp)).trans (of_same rfl)).trans (finish _ _ _)
  | completes listening messages latestRun going => exact of_same rfl
  | leaves agent listening error latestRun stopped => exact (of_same rfl).trans (finish _ _ _)
  | fails agent listening error latestRun going => exact of_same rfl

end Extends

/-- The only place where an agent is prompted. -/
theorem Move.log {s s' : RunExecutionService} {old new : Option Task} (move : Move s old s' new) :
    Extends s s' ∨ ∃ userId run signal, old = some (.executing userId run (.loadingPack signal)) ∧
      s'.log = s.log ++ [.prompted run.id] := by
  cases move with
  | declined => exact .inl (.of_same rfl)
  | created random input fresh => exact .inl (.of_same rfl)
  | requested runId owner reason => exact .inl (.of_same rfl)
  | fired timer runId timeoutManager due => exact .inl (.of_same rfl)
  | refused runId owner reason run => exact .inl (.of_same rfl)
  | cancelling runId owner reason run => exact .inl (.of_same rfl)
  | awaits frame call next random goes => exact .inl (.delivered _)
  | resolves frame call random run answers => exact .inl ((Extends.delivered _).trans (.resolved _ _))
  | rejects frame call random error throws => exact .inl ((Extends.delivered _).trans (.rejected _ _))
  | replied userId run pc reply outcome answer =>
      cases RunExecutionService.replied_cases answer with
      | prompts signal was pack =>
          right
          refine ⟨userId, run, signal, by rw [was], ?_⟩
          cases signal <;> rfl
      | _ => exact .inl (.of_same rfl)
  | continued userId run pc outcome goes => exact .inl (.executeResume goes)
  | again userId => exact .inl (.of_same rfl)
  | died userId => exact .inl (.of_same rfl)

theorem Move.context {s s' : RunExecutionService} {old new : Option Task}
    (move : Move s old s' new)
    (fits : ∀ frame call, old = some (.calling frame call) → frame.Fits call) (runId : RunId) :
    s'.runManager.cancellationRegistry.get runId = s.runManager.cancellationRegistry.get runId ∨
      (∃ frame call reason, old = some (.calling frame call) ∧
        call.cancels = some (runId, reason)) ∨
      ∃ task run, old = some task ∧ task.runs = some run ∧ run.id = runId := by
  have stores := move.stores
  generalize s'.runManager = after at stores
  cases stores with
  | kept => exact .inl rfl
  | created random input fresh => exact .inl rfl
  | fired timeoutManager => exact .inl rfl
  | resumed frame call random was =>
      have fit := fits frame call was
      have signals := Call.resume_signals s.runManager s.now random call
      generalize (call.resume s.runManager s.now random).manager.cancellationRegistry = after
        at signals ⊢
      generalize (call.resume s.runManager s.now random).aborts = aborts at signals
      cases signals with
      | silent keeps => exact .inl rfl
      | creates id run starts =>
          subst starts
          rw [InMemoryCancellationRegistry.get_create]
          split
          · rename_i same
            subst same
            cases frame <;> simp only [Frame.Fits] at fit
            exact .inr (.inr ⟨_, _, was, rfl, fit⟩)
          · exact .inl rfl
      | cancels id reason cancels =>
          rw [InMemoryCancellationRegistry.get_cancel]
          split
          · rename_i same
            subst same
            exact .inr (.inl ⟨frame, call, reason, was, cancels⟩)
          · exact .inl rfl
      | forgets id forgets =>
          rw [InMemoryCancellationRegistry.get_remove]
          split
          · rename_i same
            subst same
            right
            right
            obtain ⟨run, ends, own⟩ := fit.ends (Call.ends_of_forgets forgets)
            exact ⟨_, run, was, Frame.runs_of_ends ends, own⟩
          · exact .inl rfl
  | listened userId run pc signal was =>
      simp only [InMemoryCancellationRegistry.get_addAbortListener]
      split
      · rename_i same
        exact .inr (.inr ⟨_, run, was, rfl, same.symm⟩)
      · exact .inl rfl

/-- The run that an execution has started, and whose signal it does not listen to yet. -/
def Task.deaf : Task → Option RunId
  | .calling (.start _ run _) (.startRun _ (.transition .updated)) => some run.id
  | .calling (.start _ run _) (.startRun _ (.transition (.reloaded _))) => some run.id
  | .calling (.start _ run _) (.startRun _ (.started _)) => some run.id
  | .executing _ run (.loadingPack _) => some run.id
  | _ => none

def Task.prompts : Task → Option RunId
  | .executing _ run (.prompting _) => some run.id
  | _ => none

theorem Task.prompting_of_prompts {task : Task} {runId : RunId} (prompts : task.prompts = some runId) :
    ∃ userId run listening, task = .executing userId run (.prompting listening) ∧ run.id = runId := by
  unfold Task.prompts at prompts
  split at prompts
  · cases prompts
    exact ⟨_, _, _, rfl, rfl⟩
  · cases prompts

/-- The way of an execution from the RUNNING write to the prompt. -/
inductive Attends (s : RunExecutionService) (old : Option Task) (s' : RunExecutionService)
    (new : Option Task) : Prop
  | other (deaf : new.bind Task.deaf = none) (idle : new.bind Task.prompts = none)
  | writes (userId : UserId) (run snapshot : Run) (workspaceId : String)
      (was : old = some (.calling (.start userId run workspaceId)
        (.startRun run.id (.transition (.loaded (some snapshot))))))
      (valid : isValidStateTransition snapshot.state .running = true)
      (now : new = some (.calling (.start userId run workspaceId)
        (.startRun run.id (.transition .updated))))
      (state : s'.runManager.stateOf run.id = some .running)
  | reads (userId : UserId) (run last : Run) (workspaceId : String)
      (was : old = some (.calling (.start userId run workspaceId)
        (.startRun run.id (.transition .updated))))
      (now : new = some (.calling (.start userId run workspaceId)
        (.startRun run.id (.transition (.reloaded last)))))
  | creates (userId : UserId) (run last : Run) (workspaceId : String) (context : CancellationContext)
      (was : old = some (.calling (.start userId run workspaceId)
        (.startRun run.id (.transition (.reloaded last)))))
      (now : new = some (.calling (.start userId run workspaceId)
        (.startRun run.id (.started last))))
      (found : s'.runManager.cancellationRegistry.get run.id = some context)
      (live : context.isCancelled = false)
  | starts (userId : UserId) (run last : Run) (workspaceId : String)
      (was : old = some (.calling (.start userId run workspaceId)
        (.startRun run.id (.started last))))
      (now : new = some (.executing userId run (.loadingPack
        ((s.runManager.cancellationRegistry.get run.id).map CancellationContext.signal))))
      (kept : s'.runManager = s.runManager)
  | prompts (userId : UserId) (run : Run) (signal : Option Nat)
      (was : old = some (.executing userId run (.loadingPack signal)))
      (after : (s', new) = s.startPrompt userId run signal)

theorem Move.attends {s s' : RunExecutionService} {old new : Option Task} (move : Move s old s' new)
    (fits : ∀ frame call, old = some (.calling frame call) → frame.Fits call) :
    Attends s old s' new := by
  cases move with
  | declined => exact .other rfl rfl
  | created random input fresh => exact .other rfl rfl
  | requested runId owner reason => exact .other rfl rfl
  | fired timer runId timeoutManager due => exact .other rfl rfl
  | refused runId owner reason run => exact .other rfl rfl
  | cancelling runId owner reason run => exact .other rfl rfl
  | awaits frame call next random goes =>
      have fit := fits frame call rfl
      cases frame with
      | start userId run workspaceId =>
          cases call <;> simp only [Frame.Fits] at fit
          subst fit
          obtain ⟨pc, awaits, rfl⟩ := (Call.settle_await _ _ _ _).mp goes
          rcases Call.start_await awaits with ⟨inner, last, rfl, rfl, step⟩ | ⟨last, rfl, rfl⟩
          · rcases Call.transition_await step with ⟨snapshot, stored, rfl, valid, found, rfl⟩ |
              ⟨stored, rfl, found, rfl⟩
            · apply Attends.writes userId run snapshot workspaceId rfl valid rfl
              rw [RunExecutionService.delivered_runManager]
              apply Call.resume_writes _ _ _ _ run.id stored.state
              · exact Call.write_of_transition rfl valid
              · rw [RunManager.stateOf, found]
                rfl
            · exact .reads userId run stored workspaceId rfl rfl
          · apply Attends.creates userId run last workspaceId _ rfl rfl
            · rw [RunExecutionService.delivered_runManager]
              exact (InMemoryCancellationRegistry.get_create _ _ _).trans (if_pos rfl)
            · rfl
      | _ => exact .other rfl rfl
  | resolves frame call random run answers =>
      have fit := fits frame call rfl
      cases frame with
      | start userId started workspaceId =>
          cases call <;> simp only [Frame.Fits] at fit
          subst fit
          obtain ⟨last, resolves, rfl⟩ := (Call.settle_resolve _ _ _ _).mp answers
          have place := Call.start_resolve resolves
          subst place
          exact .starts userId started last workspaceId rfl rfl rfl
      | createRun =>
          cases run with
          | none => exact .other rfl rfl
          | some run =>
              simp only [RunExecutionService.resolved, RunExecutionService.processUserQueue]
              split <;> exact .other rfl rfl
      | cancelRun reason =>
          cases run with
          | none => exact .other rfl rfl
          | some run =>
              simp only [RunExecutionService.resolved]
              split <;> exact .other rfl rfl
      | _ => cases run <;> exact .other rfl rfl
  | rejects frame call random error throws =>
      cases frame <;> exact .other rfl rfl
  | replied userId run pc reply outcome answer =>
      cases RunExecutionService.replied_cases answer with
      | prompts signal was pack => exact .prompts userId run signal (by rw [was]) rfl
      | _ => exact .other rfl rfl
  | continued userId run pc outcome goes =>
      cases RunExecutionService.executeResume_cases goes <;> exact .other rfl rfl
  | again userId => exact .other rfl rfl
  | died userId => exact .other rfl rfl

/-- An execution that does not listen yet has just written RUNNING, or it did not listen before
and its turn neither writes nor cancels. -/
theorem Attends.of_deaf {s s' : RunExecutionService} {old : Option Task} {task : Task}
    {runId : RunId} (attends : Attends s old s' (some task)) (deaf : task.deaf = some runId) :
    (∃ userId run snapshot workspaceId, run.id = runId ∧
        old = some (.calling (.start userId run workspaceId)
          (.startRun run.id (.transition (.loaded (some snapshot))))) ∧
        isValidStateTransition snapshot.state .running = true ∧
        s'.runManager.stateOf run.id = some .running) ∨
      ∃ before, old = some before ∧ before.deaf = some runId ∧
        ∀ call, before.call = some call → call.write = none ∧ call.cancels = none := by
  cases attends with
  | other silent idle =>
      rw [Option.bind_some, deaf] at silent
      cases silent
  | writes userId run snapshot workspaceId was valid now state =>
      cases now
      cases deaf
      exact .inl ⟨userId, run, snapshot, workspaceId, rfl, was, valid, state⟩
  | reads userId run last workspaceId was now =>
      cases now
      cases deaf
      refine .inr ⟨_, was, rfl, ?_⟩
      rintro call ⟨⟩
      exact ⟨rfl, rfl⟩
  | creates userId run last workspaceId context was now found live =>
      cases now
      cases deaf
      refine .inr ⟨_, was, rfl, ?_⟩
      rintro call ⟨⟩
      exact ⟨rfl, rfl⟩
  | starts userId run last workspaceId was now kept =>
      cases now
      cases deaf
      refine .inr ⟨_, was, rfl, ?_⟩
      rintro call ⟨⟩
      exact ⟨rfl, rfl⟩
  | prompts userId run signal was after =>
      have now := (Prod.mk.inj after).2
      cases signal <;> cases now <;> cases deaf

theorem Attends.of_started {s s' : RunExecutionService} {old : Option Task} {userId : UserId}
    {run last : Run} {workspaceId : String}
    (attends : Attends s old s' (some (.calling (.start userId run workspaceId)
      (.startRun run.id (.started last))))) :
    ∃ context, s'.runManager.cancellationRegistry.get run.id = some context ∧
      context.isCancelled = false := by
  cases attends with
  | other silent idle => cases silent
  | writes _ _ snapshot _ was valid now state => cases now
  | reads _ _ _ _ was now => cases now
  | creates _ _ _ _ context was now found live =>
      cases now
      exact ⟨context, found, live⟩
  | starts _ _ _ _ was now kept => cases now
  | prompts _ _ signal was after =>
      have now := (Prod.mk.inj after).2
      cases signal <;> cases now

theorem Attends.of_loading {s s' : RunExecutionService} {old : Option Task} {userId : UserId}
    {run : Run} {signal : Option Nat}
    (attends : Attends s old s' (some (.executing userId run (.loadingPack signal)))) :
    s'.runManager = s.runManager ∧
      signal = (s.runManager.cancellationRegistry.get run.id).map CancellationContext.signal ∧
      ∃ last workspaceId, old = some (.calling (.start userId run workspaceId)
        (.startRun run.id (.started last))) := by
  cases attends with
  | other silent idle => cases silent
  | writes _ _ snapshot _ was valid now state => cases now
  | reads _ _ _ _ was now => cases now
  | creates _ _ _ _ context was now found live => cases now
  | starts _ _ last workspaceId was now kept =>
      cases now
      exact ⟨kept, rfl, last, workspaceId, was⟩
  | prompts _ _ signal was after =>
      have now := (Prod.mk.inj after).2
      cases signal <;> cases now

theorem Attends.of_prompting {s s' : RunExecutionService} {old : Option Task} {userId : UserId}
    {run : Run} {listening : Bool}
    (attends : Attends s old s' (some (.executing userId run (.prompting listening)))) :
    ∃ signal, old = some (.executing userId run (.loadingPack signal)) ∧
      s' = (s.startPrompt userId run signal).1 := by
  cases attends with
  | other silent idle => cases idle
  | writes _ _ snapshot _ was valid now state => cases now
  | reads _ _ _ _ was now => cases now
  | creates _ _ _ _ context was now found live => cases now
  | starts _ _ _ _ was now kept => cases now
  | prompts _ _ signal was after =>
      obtain ⟨service, now⟩ := Prod.mk.inj after
      refine ⟨signal, ?_, ?_⟩
      · cases signal <;> cases now <;> exact was
      · cases signal <;> cases now <;> exact service

theorem Task.runs_of_deaf {task : Task} {runId : RunId} (deaf : task.deaf = some runId) :
    ∃ run, task.runs = some run ∧ run.id = runId := by
  unfold Task.deaf at deaf
  split at deaf <;> cases deaf <;> exact ⟨_, rfl, rfl⟩

theorem RunExecutionService.foldl_aborted {s : RunExecutionService} {aborts : List Abort}
    {runId : RunId} (first : aborts.head?.map (fun abort => abort.listener.runId) = some runId) :
    .agentAborted runId ∈ (aborts.foldl abortListener s).log := by
  cases aborts with
  | nil => cases first
  | cons abort rest =>
      cases first
      obtain ⟨event, -, emits⟩ := s.abortListener_emits abort
      have emitted : Extends (s.note (.agentAborted abort.listener.runId)) _ :=
        .emitTerminalOnce abort.listener.runId event
      have heard : Extends (s.abortListener abort) _ := .foldl_abortListener rest
      obtain ⟨more, grown, -⟩ := emitted
      obtain ⟨rest', grown', -⟩ := heard
      rw [List.foldl_cons, grown', emits, grown]
      simp [note]

namespace Runtime

/-- No signal gets lost: nobody cancels the context of a run between the RUNNING write of its
execution and the installation of its listener, and when RUNNING is written no call is bound to
write CANCELLED or TIMED_OUT for the run. -/
def Heard (w : Runtime) (label : Label) : Prop :=
  ∀ resumed ∈ w.resumed label,
    (∀ write ∈ resumed.2.write, write.2 = .running →
      ∀ task ∈ w.tasks.values, ∀ call ∈ task.call, call.dooms ≠ some write.1) ∧
    ∀ cancelled ∈ resumed.2.cancels, ∀ task ∈ w.tasks.values, task.deaf ≠ some cancelled.1

instance (w : Runtime) (label : Label) : Decidable (w.Heard label) :=
  inferInstanceAs (Decidable (∀ resumed ∈ w.resumed label, _ ∧ _))

def KeepsSignals (w : Runtime) (label : Label) : Prop := w.FreshRun label ∧ w.Heard label

instance (w : Runtime) (label : Label) : Decidable (w.KeepsSignals label) :=
  inferInstanceAs (Decidable (_ ∧ _))

structure Clear (w : Runtime) (runId : RunId) : Prop where
  running : w.service.runManager.stateOf runId = some .running
  spared : ¬Doomed w.pending runId

/-- What an execution knows about the signal of its run, from the RUNNING write on. -/
structure Listening (w : Runtime) : Prop where
  owned : w.service.runManager.cancellationRegistry.Owned
  clear : ∀ id task runId, w.tasks.get id = some task → task.deaf = some runId → w.Clear runId
  started : ∀ id userId run last workspaceId,
    w.tasks.get id = some (.calling (.start userId run workspaceId)
      (.startRun run.id (.started last))) →
    ∃ context, w.service.runManager.cancellationRegistry.get run.id = some context ∧
      context.isCancelled = false
  loading : ∀ id userId run signal,
    w.tasks.get id = some (.executing userId run (.loadingPack signal)) →
    ∃ context, w.service.runManager.cancellationRegistry.get run.id = some context ∧
      context.isCancelled = false ∧ signal = some context.signal
  prompting : ∀ id userId run listening,
    w.tasks.get id = some (.executing userId run (.prompting listening)) →
    .agentAborted run.id ∈ w.service.log ∨
      (w.Clear run.id ∧ ∃ context,
        w.service.runManager.cancellationRegistry.get run.id = some context ∧
          context.isCancelled = false ∧ context.listeners ≠ [])

variable {w w' : Runtime} {label : Label} {id : Nat}

theorem Moves.doomed (moves : w.Moves label id w') {runId : RunId}
    (doomed : Doomed w'.pending runId) :
    Doomed w.pending runId ∨ ∃ call reason, w.resumed label = some (id, call) ∧
      call.cancels = some (runId, reason) := by
  revert doomed
  apply moves.keeps (fun _ p => Doomed p runId → Doomed w.pending runId ∨ ∃ call reason,
    w.resumed label = some (id, call) ∧ call.cancels = some (runId, reason)) (fun held => .inl held)
  · intro call m' p' resumed step doomed
    rcases step.doomed doomed with earlier | ⟨id', call', reason, same, cancels⟩
    · exact .inl earlier
    · cases same
      exact .inr ⟨call, reason, resumed, cancels⟩
  · intro m p m' p' step earlier doomed
    rcases step.doomed doomed with before | ⟨id', call', reason, same, -⟩
    · exact earlier before
    · cases same

theorem Clear.moves {runId : RunId} (clear : w.Clear runId) (moves : w.Moves label id w')
    (silent : ∀ call, w.resumed label = some (id, call) →
      (∀ newState, call.write ≠ some (runId, newState)) ∧
        ∀ reason, call.cancels ≠ some (runId, reason)) : w'.Clear runId := by
  constructor
  · rcases moves.move.stateOf runId with same | ⟨missing, -⟩ |
      ⟨frame, call, before, newState, found, -, writes, -⟩
    · exact same.trans clear.running
    · rw [clear.running] at missing
      cases missing
    · exact absurd writes ((silent call (moves.resumes found)).1 newState)
  · intro doomed
    rcases moves.doomed doomed with earlier | ⟨call, reason, resumed, cancels⟩
    · exact clear.spared earlier
    · exact (silent call resumed).2 reason cancels

theorem Serial.unwritten (serial : w.Serial) (moves : w.Moves label id w') {id' : Nat} {task : Task}
    {run : Run} (found : w.tasks.get id' = some task) (runs : task.runs = some run)
    (different : id' ≠ id) (spared : ¬Doomed w.pending run.id) {call : Call}
    (resumed : w.resumed label = some (id, call)) (newState : RunState) :
    call.write ≠ some (run.id, newState) := by
  intro writes
  obtain ⟨frame, got⟩ := moves.calls resumed
  have pending := (w.pending_eq_some id call).mpr ⟨frame, got⟩
  have fit := serial.loops.fits id frame call got
  have member := (serial.executions.mine id' task run found runs).2.1
  rcases Call.write_cases writes with ⟨userId, taken⟩ | ⟨pc, rfl⟩ | ends | dooms
  · exact (serial.executions.gone run.id member).free id call userId pending (.inr taken)
  · cases frame <;> simp only [Frame.Fits] at fit
    exact different (serial.sole found got runs rfl fit.symm)
  · obtain ⟨run', ends', own⟩ := fit.ends ends
    exact different (serial.sole found got runs (Frame.runs_of_ends ends') own.symm)
  · exact spared ⟨id, call, pending, dooms⟩

theorem Serial.context (serial : w.Serial) (moves : w.Moves label id w') {id' : Nat} {task : Task}
    {run : Run} (found : w.tasks.get id' = some task) (runs : task.runs = some run)
    (different : id' ≠ id) (silent : ∀ call, w.resumed label = some (id, call) →
      ∀ reason, call.cancels ≠ some (run.id, reason)) :
    w'.service.runManager.cancellationRegistry.get run.id =
      w.service.runManager.cancellationRegistry.get run.id := by
  have fits : ∀ frame call, w.tasks.get id = some (.calling frame call) → frame.Fits call :=
    fun frame call got => serial.loops.fits id frame call got
  rcases moves.move.context fits run.id with same | ⟨frame, call, reason, got, cancels⟩ |
    ⟨task', run', got, runs', own⟩
  · exact same
  · exact absurd cancels (silent call (moves.resumes got) reason)
  · exact absurd (serial.sole found got runs runs' own.symm) different

theorem Moves.log (moves : w.Moves label id w') {observation : Observation}
    (member : observation ∈ w.service.log) : observation ∈ w'.service.log := by
  rcases moves.move.log with ⟨more, grown, -⟩ | ⟨userId, run, signal, -, grown⟩
  · rw [grown]
    exact List.mem_append_left _ member
  · rw [grown]
    exact List.mem_append_left _ member

theorem Moves.aborts (moves : w.Moves label id w')
    (owned : w.service.runManager.cancellationRegistry.Owned) {call : Call} {runId : RunId}
    {reason : String} {context : CancellationContext} (resumed : w.resumed label = some (id, call))
    (cancels : call.cancels = some (runId, reason))
    (found : w.service.runManager.cancellationRegistry.get runId = some context)
    (live : context.isCancelled = false) (heard : context.listeners ≠ []) :
    .agentAborted runId ∈ w'.service.log := by
  obtain ⟨frame, got⟩ := moves.calls resumed
  have move := moves.move
  rw [got] at move
  obtain ⟨random, after⟩ := move.delivers
  obtain ⟨next, awaits, -⟩ := Call.cancels_next w.service.runManager w.service.now random cancels
  rw [after next awaits, RunExecutionService.delivered,
    Call.cancels_aborts w.service.runManager w.service.now random cancels found live]
  cases listed : context.listeners with
  | nil => exact absurd listed heard
  | cons listener rest =>
      have own := owned runId context found listener (by simp [listed])
      apply RunExecutionService.foldl_aborted
      simp [own]

theorem Clear.own {runId : RunId} (clear : w.Clear runId) (moves : w.Moves label id w') {task : Task}
    (was : w.tasks.get id = some task)
    (silent : ∀ call, task.call = some call → call.write = none ∧ call.cancels = none) :
    w'.Clear runId := by
  apply clear.moves moves
  intro call resumed
  obtain ⟨frame, got⟩ := moves.calls resumed
  rw [was] at got
  cases got
  obtain ⟨writes, cancels⟩ := silent call rfl
  rw [writes, cancels]
  simp

theorem Clear.other (serial : w.Serial) (moves : w.Moves label id w') {id' : Nat} {task : Task}
    {run : Run} (found : w.tasks.get id' = some task) (runs : task.runs = some run)
    (different : id' ≠ id) (clear : w.Clear run.id)
    (silent : ∀ call, w.resumed label = some (id, call) →
      ∀ reason, call.cancels ≠ some (run.id, reason)) :
    w'.Clear run.id ∧ w'.service.runManager.cancellationRegistry.get run.id =
      w.service.runManager.cancellationRegistry.get run.id := by
  refine ⟨clear.moves moves ?_, serial.context moves found runs different silent⟩
  intro call resumed
  exact ⟨serial.unwritten moves found runs different clear.spared resumed, silent call resumed⟩

theorem Heard.uncancelled (kept : w.Heard label) {id' : Nat} {task : Task} {runId : RunId}
    (found : w.tasks.get id' = some task) (deaf : task.deaf = some runId) (call : Call)
    (resumed : w.resumed label = some (id, call)) (reason : String) :
    call.cancels ≠ some (runId, reason) := by
  intro cancels
  have member := (w.tasks.mem_values_iff task).mpr ⟨id', found⟩
  exact (kept (id, call) resumed).2 (runId, reason) cancels task member deaf

theorem Heard.clear (kept : w.Heard label) (moves : w.Moves label id w') {userId : UserId}
    {run snapshot : Run} {workspaceId : String}
    (was : w.tasks.get id = some (.calling (.start userId run workspaceId)
      (.startRun run.id (.transition (.loaded (some snapshot))))))
    (valid : isValidStateTransition snapshot.state .running = true)
    (state : w'.service.runManager.stateOf run.id = some .running) : w'.Clear run.id := by
  refine ⟨state, ?_⟩
  intro doomed
  rcases moves.doomed doomed with ⟨other, call, pending, dooms⟩ | ⟨call, reason, resumed, cancels⟩
  · obtain ⟨frame, got⟩ := (w.pending_eq_some other call).mp pending
    have member := (w.tasks.mem_values_iff _).mpr ⟨other, got⟩
    have inside : (Call.startRun run.id (.transition (.loaded (some snapshot)))).transition =
        some (run.id, .running, .loaded (some snapshot)) := rfl
    have writes := Call.write_of_transition inside valid
    exact (kept (id, _) (moves.resumes was)).1 _ writes rfl _ member call rfl dooms
  · rw [moves.resumes was] at resumed
    cases resumed
    cases cancels

/-- The way of an execution to its prompt: each turn hands on what the turn before has left. -/
theorem Listening.moves (held : w.Listening) (serial : w.Serial) (moves : w.Moves label id w')
    (kept : w.Heard label) : w'.Listening := by
  have fits : ∀ frame call, w.tasks.get id = some (.calling frame call) → frame.Fits call :=
    fun frame call got => serial.loops.fits id frame call got
  have attends := moves.move.attends fits
  -- another execution that does not listen yet: this step does not cancel its run
  have other {id' : Nat} {task : Task} {run : Run} (found : w'.tasks.get id' = some task)
      (different : id' ≠ id) (runs : task.runs = some run) (deaf : task.deaf = some run.id) :
      w.tasks.get id' = some task ∧ w'.Clear run.id ∧
        w'.service.runManager.cancellationRegistry.get run.id =
          w.service.runManager.cancellationRegistry.get run.id := by
    rw [moves.other different] at found
    exact ⟨found, Clear.other serial moves found runs different
      (held.clear id' task run.id found deaf) (kept.uncancelled found deaf)⟩
  constructor
  · exact moves.owned held.owned
  · intro id' task runId found deaf
    by_cases here : id' = id
    · subst here
      rw [found] at attends
      rcases attends.of_deaf deaf with ⟨userId, run, snapshot, workspaceId, rfl, was, valid, state⟩ |
        ⟨before, was, still, silent⟩
      · exact kept.clear moves was valid state
      · exact (held.clear id' before runId was still).own moves was silent
    · obtain ⟨run, runs, same⟩ := Task.runs_of_deaf deaf
      subst same
      exact (other found here runs deaf).2.1
  · intro id' userId run last workspaceId found
    by_cases here : id' = id
    · subst here
      rw [found] at attends
      exact attends.of_started
    · obtain ⟨before, -, context⟩ := other found here rfl rfl
      rw [context]
      exact held.started id' userId run last workspaceId before
  · intro id' userId run signal found
    by_cases here : id' = id
    · subst here
      rw [found] at attends
      obtain ⟨manager, given, last, workspaceId, was⟩ := attends.of_loading
      obtain ⟨context, got, live⟩ := held.started id' userId run last workspaceId was
      rw [manager, given, got]
      exact ⟨context, rfl, live, rfl⟩
    · obtain ⟨before, -, context⟩ := other found here rfl rfl
      rw [context]
      exact held.loading id' userId run signal before
  · intro id' userId run listening found
    by_cases here : id' = id
    · subst here
      rw [found] at attends
      obtain ⟨signal, was, service⟩ := attends.of_prompting
      obtain ⟨context, got, live, given⟩ := held.loading id' userId run signal was
      subst given
      right
      refine ⟨(held.clear id' _ run.id was rfl).own moves was (fun call inside => nomatch inside), ?_⟩
      have registry : w'.service.runManager.cancellationRegistry.get run.id =
          some { context with listeners := context.listeners ++ [⟨run.id, run.maxDurationMs⟩] } := by
        rw [service]
        refine (InMemoryCancellationRegistry.get_addAbortListener _ _ _ _).trans ?_
        rw [if_pos rfl, got]
        simp [live]
      exact ⟨_, registry, live, by simp⟩
    · rw [moves.other here] at found
      rcases held.prompting id' userId run listening found with aborted |
        ⟨clear, context, got, live, heard⟩
      · exact .inl (moves.log aborted)
      · by_cases cancelled : ∃ call reason, w.resumed label = some (id, call) ∧
            call.cancels = some (run.id, reason)
        · obtain ⟨call, reason, resumed, cancels⟩ := cancelled
          exact .inl (moves.aborts held.owned resumed cancels got live heard)
        · have silent : ∀ call, w.resumed label = some (id, call) →
              ∀ reason, call.cancels ≠ some (run.id, reason) :=
            fun call resumed reason cancels => cancelled ⟨call, reason, resumed, cancels⟩
          obtain ⟨still, context'⟩ := Clear.other serial moves found rfl here clear silent
          rw [context']
          exact .inr ⟨still, context, got, live, heard⟩

theorem Passes.listening (passes : w.Passes label w') (held : w.Listening) : w'.Listening := by
  obtain ⟨manager, tasks, -, -⟩ := passes.stores
  have pending := passes.pending
  have clear {runId : RunId} (before : w.Clear runId) : w'.Clear runId := by
    constructor
    · rw [manager]
      exact before.running
    · rw [pending]
      exact before.spared
  constructor
  · rw [manager]
    exact held.owned
  · intro id' task runId found deaf
    rw [tasks] at found
    exact clear (held.clear id' task runId found deaf)
  · intro id' userId run last workspaceId found
    rw [tasks] at found
    rw [manager]
    exact held.started id' userId run last workspaceId found
  · intro id' userId run signal found
    rw [tasks] at found
    rw [manager]
    exact held.loading id' userId run signal found
  · intro id' userId run listening found
    rw [tasks] at found
    rw [manager]
    rcases held.prompting id' userId run listening found with aborted | ⟨still, context⟩
    · left
      cases passes with
      | tick elapsed => exact aborted
      | agentEvent id event userId run listening prompting => exact List.mem_append_left _ aborted
    · exact .inr ⟨clear still, context⟩

theorem listening_of_reach {config : RunManagerConfig} {now : Int} {w : Runtime}
    (reached : Transition.Reach step KeepsSignals (init config now) w) : w.Listening := by
  apply reached.invariant_given Serial Listening
  · intro s earlier
    exact serial_of_reach (fun _ _ keeps => keeps.1) earlier
  · constructor
    · intro runId context found
      cases found
    · intro id task runId found
      cases found
    · intro id userId run last workspaceId found
      cases found
    · intro id userId run signal found
      cases found
    · intro id userId run listening found
      cases found
  · intro s label u keeps serial held moved
    rcases step_cases keeps.1 moved with ⟨id, moves⟩ | passes
    · exact held.moves serial moves keeps.2
    · exact passes.listening held

/-- As long as no signal gets lost, an agent is prompted only for a run that is neither CANCELLED
nor TIMED_OUT, and a run that is CANCELLED or TIMED_OUT while its agent works is aborted. -/
theorem signals_reach_the_agent (config : RunManagerConfig) (now : Int) (w : Runtime)
    (reached : Transition.Reach step KeepsSignals (init config now) w) :
    (∀ label w', w.FreshRun label → w.step label = some w' →
        w'.service.prompts = w.service.prompts ∨
          ∃ runId, w'.service.prompts = w.service.prompts ++ [runId] ∧
            w.stateOf runId ≠ some .cancelled ∧ w.stateOf runId ≠ some .timedOut) ∧
      ∀ id runId, (w.tasks.get id).bind Task.prompts = some runId →
        w.stateOf runId = some .cancelled ∨ w.stateOf runId = some .timedOut →
          .agentAborted runId ∈ w.service.log := by
  have held := listening_of_reach reached
  constructor
  · intro label w' fresh moved
    rcases step_cases fresh moved with ⟨id, moves⟩ | passes
    · rcases moves.move.log with grows | ⟨userId, run, signal, was, grown⟩
      · exact .inl grows.prompts
      · right
        have running := (held.clear id _ run.id was rfl).running
        refine ⟨run.id, ?_, ?_, ?_⟩
        · rw [RunExecutionService.prompts, grown, List.filterMap_append]
          rfl
        · rw [stateOf, running]
          decide
        · rw [stateOf, running]
          decide
    · left
      cases passes with
      | tick elapsed => rfl
      | agentEvent id event userId run listening prompting =>
          exact Extends.prompts (.note (by simp))
  · intro id runId works past
    obtain ⟨task, found, prompts⟩ := Option.bind_eq_some_iff.mp works
    obtain ⟨userId, run, listening, rfl, rfl⟩ := Task.prompting_of_prompts prompts
    rcases held.prompting id userId run listening found with aborted | ⟨clear, -⟩
    · exact aborted
    · rw [stateOf, clear.running] at past
      rcases past with impossible | impossible <;> cases impossible

def cancelledPromptLabels : List Label :=
  promptedLabels ++ [.cancelRun 1 "run_0_a" ⟨"acme", "alice"⟩ none,
    .resume 1 "", .resume 1 "", .resume 1 "", .resume 1 "", .resume 1 ""]

def cancelledLoadLabels : List Label :=
  startedLabels ++ [.resume 0 "", .cancelRun 1 "run_0_a" ⟨"acme", "alice"⟩ none,
    .resume 1 "", .resume 1 "", .resume 1 "", .resume 1 "", .resume 1 ""]

theorem cancelled_run_is_aborted :
    ∃ w : Runtime, w.stateOf "run_0_a" = some .cancelled ∧
      .agentAborted "run_0_a" ∈ w.service.log := by
  have ran : (Transition.exec (Transition.guarded step KeepsSignals) (init .default 0)
      cancelledPromptLabels).map (fun w => (w.stateOf "run_0_a",
        (w.tasks.get 0).bind Task.prompts)) =
      some (some .cancelled, some "run_0_a") := by decide +kernel
  obtain ⟨w, reached, observed⟩ := Transition.reach_of_observed _ _ ran
  obtain ⟨state, works⟩ := Prod.mk.inj observed
  exact ⟨w, state, (signals_reach_the_agent .default 0 w reached).2 0 "run_0_a" works (.inl state)⟩

/-- A cancellation that arrives while the agent pack is loaded is lost: the agent is prompted. -/
theorem cancelled_run_is_prompted :
    ¬∀ w : Runtime, Transition.Reach step FreshRun (init .default 0) w →
      ∀ label w', w.FreshRun label → w.step label = some w' →
        w'.service.prompts = w.service.prompts ∨
          ∃ runId, w'.service.prompts = w.service.prompts ++ [runId] ∧
            w.stateOf runId ≠ some .cancelled ∧ w.stateOf runId ≠ some .timedOut := by
  intro always
  have ran : (Transition.exec (Transition.guarded step FreshRun) (init .default 0)
      cancelledLoadLabels).map (fun w => (w.service.prompts, w.stateOf "run_0_a",
        (w.step (.reply 0 .pack)).map (fun w' => w'.service.prompts))) =
      some ([], some .cancelled, some ["run_0_a"]) := by decide +kernel
  obtain ⟨w, reached, observed⟩ := Transition.reach_of_observed _ _ ran
  simp only [Prod.mk.injEq] at observed
  obtain ⟨before, state, prompted⟩ := observed
  obtain ⟨w', moved, after⟩ := Option.map_eq_some_iff.mp prompted
  have fresh : w.FreshRun (.reply 0 .pack) := by
    intro runId created
    cases created
  rcases always w reached (.reply 0 .pack) w' fresh moved with same | ⟨runId, grown, alive, -⟩
  · rw [before, after] at same
    cases same
  · rw [before, after] at grown
    cases grown
    exact alive state

end Runtime

end Minerva
