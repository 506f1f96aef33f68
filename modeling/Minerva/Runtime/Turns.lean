import Minerva.Runtime.Tasks

/-! What the turns of the service do to the stores, and which calls and loops they leave: the
service drives `RunManager` only through its methods. -/

namespace Minerva

namespace RunExecutionService

@[simp] theorem emitTerminalOnce_runManager (s : RunExecutionService) (runId : RunId)
    (event : RunEvent) : (s.emitTerminalOnce runId event).runManager = s.runManager := by
  unfold emitTerminalOnce
  split <;> rfl

@[simp] theorem emitTerminalOnce_processingUsers (s : RunExecutionService) (runId : RunId)
    (event : RunEvent) :
    (s.emitTerminalOnce runId event).processingUsers = s.processingUsers := by
  unfold emitTerminalOnce
  split <;> rfl

@[simp] theorem emitTerminalOnce_now (s : RunExecutionService) (runId : RunId)
    (event : RunEvent) : (s.emitTerminalOnce runId event).now = s.now := by
  unfold emitTerminalOnce
  split <;> rfl

@[simp] theorem finish_runManager (s : RunExecutionService) (run : Run) (agent listening : Bool) :
    (s.finish run agent listening).runManager = s.runManager := by
  unfold finish
  split <;> rfl

@[simp] theorem finish_processingUsers (s : RunExecutionService) (run : Run)
    (agent listening : Bool) :
    (s.finish run agent listening).processingUsers = s.processingUsers := by
  unfold finish
  split <;> rfl

theorem abortListener_keeps (s : RunExecutionService) (abort : Abort) :
    (s.abortListener abort).runManager = s.runManager ∧
      (s.abortListener abort).processingUsers = s.processingUsers ∧
      (s.abortListener abort).now = s.now := by
  unfold abortListener
  split <;> simp [note]

theorem foldl_abortListener_keeps (aborts : List Abort) (s : RunExecutionService) :
    (aborts.foldl abortListener s).runManager = s.runManager ∧
      (aborts.foldl abortListener s).processingUsers = s.processingUsers ∧
      (aborts.foldl abortListener s).now = s.now := by
  induction aborts generalizing s with
  | nil => exact ⟨rfl, rfl, rfl⟩
  | cons abort rest ih =>
      obtain ⟨manager, users, now⟩ := s.abortListener_keeps abort
      obtain ⟨manager', users', now'⟩ := ih (s.abortListener abort)
      exact ⟨manager'.trans manager, users'.trans users, now'.trans now⟩

@[simp] theorem delivered_runManager (s : RunExecutionService) (turn : Turn Call (Option Run)) :
    (s.delivered turn).runManager = turn.manager :=
  (foldl_abortListener_keeps turn.aborts { s with runManager := turn.manager }).1

@[simp] theorem delivered_processingUsers (s : RunExecutionService)
    (turn : Turn Call (Option Run)) : (s.delivered turn).processingUsers = s.processingUsers :=
  (foldl_abortListener_keeps turn.aborts { s with runManager := turn.manager }).2.1

@[simp] theorem delivered_now (s : RunExecutionService) (turn : Turn Call (Option Run)) :
    (s.delivered turn).now = s.now :=
  (foldl_abortListener_keeps turn.aborts { s with runManager := turn.manager }).2.2

end RunExecutionService

def Frame.Fits : Frame → Call → Prop
  | .createRun, .createRun _ => True
  | .cancelRun reason, .cancelRun _ reason' _ => reason = reason'
  | .acquire userId, .acquireNextRun userId' _ => userId = userId'
  | .start _ run _, .startRun runId _ => run.id = runId
  | .complete _ run _, .completeRun runId _ _ => run.id = runId
  | .fail _ run _ _, .failRun runId _ _ => run.id = runId
  | .timeout, .timeoutRun _ _ => True
  | _, _ => False

theorem Frame.Fits.same_method {frame : Frame} {call next : Call} (fits : frame.Fits call)
    (same : Call.SameMethod call next) : frame.Fits next := by
  cases call <;> cases next <;> simp only [Call.SameMethod] at same <;> cases frame <;>
    simp only [Frame.Fits] at fits ⊢
  · exact fits.trans same
  · exact fits.trans same
  · exact fits.trans same.2
  · exact fits.trans same.1
  · exact fits.trans same.1

/-- What a continuation leaves behind: no call, or a call of one of the methods that has just
begun and changes nothing when it begins. -/
inductive Begins (m : RunManager) (now : Int) : Option Task → Prop
  | nothing : Begins m now none
  | own (task : Task) (outside : task.call = none) : Begins m now (some task)
  | calls (frame : Frame) (request : Request)
      (silent : ∀ random input, request ≠ .createRun random input)
      (fits : frame.Fits (Call.start m now request).2) :
      Begins m now (some (.calling frame (Call.start m now request).2))

inductive Replied (s : RunExecutionService) (userId : UserId) (run : Run) (pc : ExecPc)
    (reply : Reply) : Outcome → Prop
  | imports : Replied s userId run pc reply (s, some (.executing userId run .importing))
  | provisions : Replied s userId run pc reply (s, some (.executing userId run .provisioning))
  | starts (workspaceId : String) :
      Replied s userId run pc reply (s, some (.calling (.start userId run workspaceId)
        (.startRun run.id (s.runManager.startRun run.id))))
  | prompts (signal : Option Nat) (was : pc = .loadingPack signal) (pack : reply = .pack) :
      Replied s userId run pc reply (s.startPrompt userId run signal)
  | finishes (listening : Bool) (messages : List Json) :
      Replied s userId run pc reply (s, some (.executing userId run
        (.finished listening messages (s.runManager.getRun run.id))))
  | throws (agent listening : Bool) (error : Thrown) :
      Replied s userId run pc reply (s.enterCatch userId run agent listening error)

def Run.Stopped (run : Run) : Prop := run.state = .cancelled ∨ run.state = .timedOut

inductive Resumes (s : RunExecutionService) (userId : UserId) (run : Run) :
    ExecPc → Outcome → Prop
  | vanishes (listening : Bool) (messages : List Json) (error : Thrown) :
      Resumes s userId run (.finished listening messages none)
        (s.enterCatch userId run true listening error)
  | closes (listening : Bool) (messages : List Json) (latestRun : Run)
      (stopped : latestRun.Stopped) :
      Resumes s userId run (.finished listening messages (some latestRun))
        (((s.closeRun run.id).forgetTerminal run.id).exit userId run true listening)
  | completes (listening : Bool) (messages : List Json) (latestRun : Run)
      (going : ¬latestRun.Stopped) :
      Resumes s userId run (.finished listening messages (some latestRun))
        (s, some (.calling (.complete userId run listening)
          (.completeRun run.id (some messages) (s.runManager.completeRun run.id))))
  | leaves (agent listening : Bool) (error : Thrown) (latestRun : Option Run)
      (stopped : ∀ latest ∈ latestRun, latest.Stopped) :
      Resumes s userId run (.caught agent listening error latestRun)
        ((s.forgetTerminal run.id).exit userId run agent listening)
  | fails (agent listening : Bool) (error : Thrown) (latestRun : Run)
      (going : ¬latestRun.Stopped) :
      Resumes s userId run (.caught agent listening error (some latestRun))
        (s, some (.calling (.fail userId run agent listening)
          (.failRun run.id (enhanceProviderError error) (s.runManager.failRun run.id))))

namespace RunExecutionService

theorem acquireNext_begins (s : RunExecutionService) (userId : UserId) :
    Begins s.runManager s.now (s.acquireNext userId).2 :=
  .calls (.acquire userId) (.acquireNextRun userId) (by simp) rfl

theorem resolved_manager (s : RunExecutionService) (frame : Frame) (run : Option Run) :
    (s.resolved frame run).1.runManager = s.runManager := by
  unfold resolved
  split
  · unfold processUserQueue
    split <;> rfl
  · split
    · simp
    · rfl
  · rfl
  · rfl
  · rfl
  · simp [exit, forgetTerminal, closeRun, note]
  · simp [exit, forgetTerminal, closeRun, note]
  · rfl

theorem resolved_begins (s : RunExecutionService) (frame : Frame) (run : Option Run) :
    Begins s.runManager s.now (s.resolved frame run).2 := by
  unfold resolved
  split
  · unfold processUserQueue
    split
    · exact .nothing
    · exact acquireNext_begins _ _
  · split <;> exact .nothing
  · exact .nothing
  · exact .own _ rfl
  · exact .own _ rfl
  · exact .own _ rfl
  · exact .own _ rfl
  · exact .nothing

theorem rejected_manager (s : RunExecutionService) (frame : Frame) (error : RunError) :
    (s.rejected frame error).1.runManager = s.runManager := by
  unfold rejected
  split
  · rfl
  · rfl
  · rfl
  · exact finish_runManager _ _ _ _
  · rfl

theorem rejected_begins (s : RunExecutionService) (frame : Frame) (error : RunError) :
    Begins s.runManager s.now (s.rejected frame error).2 := by
  unfold rejected
  split
  · exact .nothing
  · exact .own _ rfl
  · exact .own _ rfl
  · exact .own _ rfl
  · exact .nothing

theorem replied_cases {s : RunExecutionService} {userId : UserId} {run : Run} {pc : ExecPc}
    {reply : Reply} {outcome : Outcome} (answer : s.replied userId run pc reply = some outcome) :
    Replied s userId run pc reply outcome := by
  unfold replied at answer
  split at answer
  · split at answer <;> cases answer
    · exact .imports
    · exact .throws _ _ _
  · cases answer
    exact .provisions
  · rename_i id
    cases answer
    exact .starts id
  · rename_i signal
    cases answer
    exact .prompts signal rfl rfl
  · cases answer
    exact .throws _ _ _
  · cases answer
    exact .finishes _ _
  all_goals cases answer
  all_goals exact .throws _ _ _

theorem executeResume_cases {s : RunExecutionService} {userId : UserId} {run : Run} {pc : ExecPc}
    {outcome : Outcome} (goes : s.executeResume userId run pc = some outcome) :
    Resumes s userId run pc outcome := by
  unfold executeResume at goes
  split at goes
  · cases goes
    exact .vanishes _ _ _
  · split at goes <;> cases goes
    · rename_i stopped
      exact .closes _ _ _ stopped
    · rename_i going
      exact .completes _ _ _ going
  · split at goes <;> cases goes
    · rename_i stopped
      refine .leaves _ _ _ _ ?_
      rintro latest ⟨⟩
      exact stopped
    · rename_i going
      exact .fails _ _ _ _ going
  · cases goes
    exact .leaves _ _ _ _ (by simp)
  · cases goes

theorem executeResume_manager {s : RunExecutionService} {userId : UserId} {run : Run} {pc : ExecPc}
    {outcome : Outcome} (goes : s.executeResume userId run pc = some outcome) :
    outcome.1.runManager = s.runManager := by
  cases executeResume_cases goes with
  | vanishes listening messages error => rfl
  | closes listening messages latestRun stopped => simp [exit, forgetTerminal, closeRun, note]
  | completes listening messages latestRun going => rfl
  | leaves agent listening error latestRun stopped => simp [exit, forgetTerminal]
  | fails agent listening error latestRun going => rfl

theorem executeResume_begins {s : RunExecutionService} {userId : UserId} {run : Run} {pc : ExecPc}
    {outcome : Outcome} (goes : s.executeResume userId run pc = some outcome) :
    Begins s.runManager s.now outcome.2 := by
  cases executeResume_cases goes with
  | vanishes listening messages error => exact .own _ rfl
  | closes listening messages latestRun stopped => exact .own _ rfl
  | completes listening messages latestRun going =>
      exact .calls (.complete userId run listening) (.completeRun run.id (some messages)) (by simp) rfl
  | leaves agent listening error latestRun stopped => exact .own _ rfl
  | fails agent listening error latestRun going =>
      exact .calls (.fail userId run agent listening)
        (.failRun run.id (enhanceProviderError error)) (by simp) rfl

theorem replied_manager {s : RunExecutionService} {userId : UserId} {run : Run} {pc : ExecPc}
    {reply : Reply} {outcome : Outcome} (answer : s.replied userId run pc reply = some outcome) :
    (outcome.1.runManager = s.runManager ∧ Begins s.runManager s.now outcome.2) ∨
      ∃ signal, pc = .loadingPack (some signal) ∧ reply = .pack ∧
        outcome.1.runManager = { s.runManager with
          cancellationRegistry := s.runManager.cancellationRegistry.addAbortListener
            ⟨run.id, run.maxDurationMs⟩ signal } ∧
        outcome.2 = some (.executing userId run (.prompting true)) := by
  cases replied_cases answer with
  | imports => exact .inl ⟨rfl, .own _ rfl⟩
  | provisions => exact .inl ⟨rfl, .own _ rfl⟩
  | starts workspaceId =>
      exact .inl ⟨rfl, .calls (.start userId run workspaceId) (.startRun run.id) (by simp) rfl⟩
  | prompts signal was pack =>
      cases signal with
      | none => exact .inl ⟨rfl, .own _ rfl⟩
      | some signal => exact .inr ⟨signal, was, pack, rfl, rfl⟩
  | finishes listening messages => exact .inl ⟨rfl, .own _ rfl⟩
  | throws agent listening error => exact .inl ⟨rfl, .own _ rfl⟩

end RunExecutionService

theorem Begins.keeps {m : RunManager} {now : Int} {next : Option Task} (begins : Begins m now next)
    {p : Pending} {id : Nat} (free : p id = none) (Q : RunManager → Pending → Prop) (held : Q m p)
    (keep : ∀ m p m' p', CallStep now m p none m' p' → Q m p → Q m' p') :
    Q m (Function.update p id (next.bind Task.call)) := by
  cases begins with
  | nothing =>
      rw [Option.bind_none, ← free, Function.update_eq_self]
      exact held
  | own task outside =>
      rw [Option.bind_some, outside, ← free, Function.update_eq_self]
      exact held
  | calls frame request silent fits =>
      have same : (Call.start m now request).1 = m := by
        cases request with
        | createRun random input => exact absurd rfl (silent random input)
        | _ => rfl
      have stepped := keep m p _ _
        (.begin id request free (fun random input made => absurd made (silent random input))) held
      rw [same] at stepped
      exact stepped

/-- A turn of the service is a turn of the call that its task is inside of, followed by the
beginning of at most one call: what the steps of the calls keep, the turn keeps. -/
theorem Move.keeps {s s' : RunExecutionService} {old new : Option Task} (move : Move s old s' new)
    {p : Pending} {id : Nat} (here : p id = old.bind Task.call)
    (Q : RunManager → Pending → Prop) (held : Q s.runManager p)
    (resumes : ∀ call m' p', old.bind Task.call = some call →
      CallStep s.now s.runManager p (some (id, call)) m' p' → Q m' p')
    (others : ∀ m p m' p', CallStep s.now m p none m' p' → Q m p → Q m' p') :
    Q s'.runManager (Function.update p id (new.bind Task.call)) := by
  -- a call that has settled leaves the pool, then the continuation may begin another one
  have settles {call : Call} {random : String} {next : Option Task} {frame : Frame}
      (inside : old = some (.calling frame call))
      (settled : Call.pending (call.resume s.runManager s.now random) = none)
      (begins : Begins (call.resume s.runManager s.now random).manager s.now next) :
      Q (call.resume s.runManager s.now random).manager
        (Function.update p id (next.bind Task.call)) := by
    have found : p id = some call := by
      rw [here, inside]
      rfl
    have stepped := resumes call _ _ (by rw [inside]; rfl) (.resume id call random found)
    rw [settled] at stepped
    have left := begins.keeps (Function.update_self id none p) Q stepped others
    rw [Function.update_idem] at left
    exact left
  cases move with
  | declined =>
      rw [Option.bind_none] at here ⊢
      rw [← here, Function.update_eq_self]
      exact held
  | created random input fresh =>
      apply others _ _ _ _ _ held
      apply CallStep.begin id (.createRun random input) here
      intro random' input' same
      cases same
      exact fresh
  | requested runId owner reason =>
      rw [Option.bind_none] at here
      exact (Begins.own _ rfl).keeps here Q held others
  | fired timer runId timeoutManager due =>
      exact others _ _ _ _ (.fire id timer here runId timeoutManager due) held
  | refused runId owner reason run =>
      exact Begins.nothing.keeps here Q held others
  | cancelling runId owner reason run =>
      exact (Begins.calls (.cancelRun reason) (.cancelRun runId reason) (by simp) rfl).keeps here Q
        held others
  | awaits frame call next random goes =>
      have stepped := resumes call _ _ rfl (.resume id call random here)
      rw [RunExecutionService.delivered_runManager]
      have going : Call.pending (call.resume s.runManager s.now random) = some next := by
        rw [Call.pending, goes]
      rw [going] at stepped
      exact stepped
  | resolves frame call random run answers =>
      have begins := RunExecutionService.resolved_begins
        (s.delivered (call.resume s.runManager s.now random)) frame run
      rw [RunExecutionService.resolved_manager, RunExecutionService.delivered_runManager]
      rw [RunExecutionService.delivered_runManager, RunExecutionService.delivered_now] at begins
      exact settles rfl (by rw [Call.pending, answers]) begins
  | rejects frame call random error throws =>
      have begins := RunExecutionService.rejected_begins
        (s.delivered (call.resume s.runManager s.now random)) frame error
      rw [RunExecutionService.rejected_manager, RunExecutionService.delivered_runManager]
      rw [RunExecutionService.delivered_runManager, RunExecutionService.delivered_now] at begins
      exact settles rfl (by rw [Call.pending, throws]) begins
  | replied userId run pc reply outcome answer =>
      rcases RunExecutionService.replied_manager answer with ⟨manager, begins⟩ |
        ⟨signal, -, -, manager, task⟩
      · rw [manager]
        exact begins.keeps here Q held others
      · rw [manager, task, Option.bind_some]
        have same : Function.update p id
            (Task.call (.executing userId run (.prompting true))) = p := by
          rw [show Task.call (.executing userId run (.prompting true)) = p id from here.symm,
            Function.update_eq_self]
        rw [same]
        exact others _ _ _ _ (.listen _ signal) held
  | continued userId run pc outcome goes =>
      rw [RunExecutionService.executeResume_manager goes]
      exact (RunExecutionService.executeResume_begins goes).keeps here Q held others
  | again userId =>
      exact (RunExecutionService.acquireNext_begins s userId).keeps here Q held others
  | died userId => exact Begins.nothing.keeps here Q held others

inductive Stores (s : RunExecutionService) (old : Option Task) : RunManager → Prop
  | kept : Stores s old s.runManager
  | created (random : String) (input : CreateRunInput)
      (fresh : s.runManager.stateOf (RunManager.newRunId s.now random) = none) :
      Stores s old (Call.start s.runManager s.now (.createRun random input)).1
  | fired (timeoutManager : InMemoryTimeoutManager TimeoutCallback) :
      Stores s old { s.runManager with timeoutManager }
  | resumed (frame : Frame) (call : Call) (random : String)
      (was : old = some (.calling frame call)) :
      Stores s old (call.resume s.runManager s.now random).manager
  | listened (userId : UserId) (run : Run) (pc : ExecPc) (signal : Nat)
      (was : old = some (.executing userId run pc)) :
      Stores s old { s.runManager with
        cancellationRegistry := s.runManager.cancellationRegistry.addAbortListener
          ⟨run.id, run.maxDurationMs⟩ signal }

theorem Move.stores {s s' : RunExecutionService} {old new : Option Task} (move : Move s old s' new) :
    Stores s old s'.runManager := by
  cases move with
  | declined => exact .kept
  | created random input fresh => exact .created random input fresh
  | requested runId owner reason => exact .kept
  | fired timer runId timeoutManager due => exact .fired timeoutManager
  | refused runId owner reason run => exact .kept
  | cancelling runId owner reason run => exact .kept
  | awaits frame call next random goes =>
      rw [RunExecutionService.delivered_runManager]
      exact .resumed frame call random rfl
  | resolves frame call random run answers =>
      rw [RunExecutionService.resolved_manager, RunExecutionService.delivered_runManager]
      exact .resumed frame call random rfl
  | rejects frame call random error throws =>
      rw [RunExecutionService.rejected_manager, RunExecutionService.delivered_runManager]
      exact .resumed frame call random rfl
  | replied userId run pc reply outcome answer =>
      rcases RunExecutionService.replied_manager answer with ⟨manager, -⟩ |
        ⟨signal, -, -, manager, -⟩
      · rw [manager]
        exact .kept
      · rw [manager]
        exact .listened userId run pc signal rfl
  | continued userId run pc outcome goes =>
      rw [RunExecutionService.executeResume_manager goes]
      exact .kept
  | again userId => exact .kept
  | died userId => exact .kept

namespace Runtime

theorem Moves.pending {w w' : Runtime} {label : Label} {id : Nat} (moves : w.Moves label id w') :
    w'.pending = Function.update w.pending id ((w'.tasks.get id).bind Task.call) := by
  funext other
  simp only [Runtime.pending]
  rw [moves.tasks, Function.update_apply, Function.update_apply]
  split
  · rw [Function.update_self]
  · rfl

theorem Moves.keeps {w w' : Runtime} {label : Label} {id : Nat} (moves : w.Moves label id w')
    (Q : RunManager → Pending → Prop) (held : Q w.service.runManager w.pending)
    (resumes : ∀ call m' p', w.resumed label = some (id, call) →
      CallStep w.service.now w.service.runManager w.pending (some (id, call)) m' p' → Q m' p')
    (others : ∀ m p m' p', CallStep w.service.now m p none m' p' → Q m p → Q m' p') :
    Q w'.service.runManager w'.pending := by
  rw [moves.pending]
  apply moves.move.keeps rfl Q held
  · intro call m' p' inside step
    apply resumes call m' p' _ step
    rw [moves.resumed, Runtime.pending, inside]
    rfl
  · exact others

theorem Passes.stores {w w' : Runtime} {label : Label} (passes : w.Passes label w') :
    w'.service.runManager = w.service.runManager ∧ w'.tasks = w.tasks ∧
      w'.service.processingUsers = w.service.processingUsers ∧
      w'.service.terminalEvents = w.service.terminalEvents := by
  cases passes <;> exact ⟨rfl, rfl, rfl, rfl⟩

theorem Passes.pending {w w' : Runtime} {label : Label} (passes : w.Passes label w') :
    w'.pending = w.pending := by
  unfold Runtime.pending
  rw [passes.stores.2.1]

end Runtime

end Minerva
