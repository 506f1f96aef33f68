import Minerva.Runtime.Events
import Minerva.Sse.Vacancy

/-! The orchestrator as a whole: `RunExecutionService` with the streams of its clients. What the
service notes in a turn are its calls of `SSEService`, in their order. -/

namespace Minerva

def RunEvent.type : RunEvent → SSEEventType
  | .runQueued _ => .runQueued
  | .runStarted _ _ => .runStarted
  | .runCompleted _ _ => .runCompleted
  | .runFailed _ _ => .runFailed
  | .runCancelled _ _ => .runCancelled
  | .runTimedOut _ _ => .runTimedOut

def RunEvent.payload : RunEvent → Json
  | .runQueued queuePosition => .obj [("queue_position", .num queuePosition)]
  | .runStarted startedAt sandboxId =>
    .obj [("started_at", .str (toISOString startedAt)), ("sandbox_id", .str sandboxId)]
  | .runCompleted completedAt durationMs =>
    .obj [("completed_at", .str (toISOString completedAt)), ("duration_ms", .num durationMs)]
  | .runFailed failedAt error =>
    .obj [("failed_at", .str (toISOString failedAt)), ("error", .str error)]
  | .runCancelled cancelledAt reason =>
    .obj [("cancelled_at", .str (toISOString cancelledAt)), ("reason", .str reason)]
  | .runTimedOut timedOutAt timeoutDurationMs =>
    .obj [("timed_out_at", .str (toISOString timedOutAt)),
      ("timeout_duration_ms", .num timeoutDurationMs)]

def AgentEvent.read (event : Json) : AgentEvent where
  type := (agentEventType event).getD ""
  messages := (event.member "messages").bind Json.asArr
  turnNumber := (event.member "turnNumber").bind Json.asNum
  message := event.member "message"
  toolResults := (event.member "toolResults").bind Json.asArr
  assistantMessageEvent := (event.member "assistantMessageEvent").map (fun update =>
    ⟨((update.member "type").bind Json.asStr).getD "", (update.member "delta").bind Json.asStr,
      update.member "content"⟩)
  toolCallId := (event.member "toolCallId").bind Json.asStr
  toolName := (event.member "toolName").bind Json.asStr
  args := (event.member "args").bind Json.asObj
  partialResult := (event.member "partialResult").map (fun result =>
    ⟨((result.member "type").bind Json.asStr).getD "",
      ((result.member "data").bind Json.asStr).getD ""⟩)
  result := event.member "result"
  isError := (event.member "isError").bind Json.asBool
  durationMs := (event.member "durationMs").bind Json.asNum

def Observation.call : Observation → Option StreamServer.Label
  | .broadcast runId event => some (.broadcastOrchestratorEvent runId event.type event.payload)
  | .agentEvent runId event => some (.broadcastAgentEvent runId (.read event))
  | .closed runId => some (.closeRun runId)
  | .executed _ => none
  | .prompted _ => none
  | .agentAborted _ => none

structure StreamRequest where
  runId : RunId
  owner : OwnerPrincipal
  replayFrom : Option String
  lastEventId : Option String
  run : Option Run

def StreamRequest.accepted (request : StreamRequest) : Bool :=
  request.run.any (fun run => sameOwnerPrincipal run.owner request.owner)

structure Orchestrator where
  runtime : Runtime
  streams : StreamServer
  requests : EsMap StreamId StreamRequest
  /-- what the reads of `checkRunState` have found, for each connection -/
  reads : EsMap StreamId (List (Option Run))

namespace RunExecutionService

@[simp] theorem finish_now (s : RunExecutionService) (run : Run) (agent listening : Bool) :
    (s.finish run agent listening).now = s.now := by
  unfold finish
  split <;> rfl

theorem resolved_now (s : RunExecutionService) (frame : Frame) (run : Option Run) :
    (s.resolved frame run).1.now = s.now := by
  unfold resolved
  split
  · unfold processUserQueue
    split <;> rfl
  · split
    · simp
    · rfl
  · rfl
  · rfl
  · rfl
  · simp [exit, forgetTerminal, closeRun, note]
  · simp [exit, forgetTerminal, closeRun, note]
  · rfl

theorem rejected_now (s : RunExecutionService) (frame : Frame) (error : RunError) :
    (s.rejected frame error).1.now = s.now := by
  unfold rejected
  split
  · rfl
  · rfl
  · rfl
  · exact s.finish_now _ _ _
  · rfl

end RunExecutionService

theorem Move.now {s s' : RunExecutionService} {old new : Option Task} (move : Move s old s' new) :
    s'.now = s.now := by
  cases move with
  | awaits frame call next random goes => exact s.delivered_now _
  | resolves frame call random run answers =>
      exact (RunExecutionService.resolved_now _ frame run).trans (s.delivered_now _)
  | rejects frame call random error throws =>
      exact (RunExecutionService.rejected_now _ frame error).trans (s.delivered_now _)
  | replied userId run pc reply outcome answer =>
      cases RunExecutionService.replied_cases answer with
      | prompts signal was pack => cases signal <;> rfl
      | _ => rfl
  | continued userId run pc outcome goes =>
      cases RunExecutionService.executeResume_cases goes with
      | closes listening messages latestRun stopped => exact RunExecutionService.finish_now _ _ _ _
      | leaves agent listening error latestRun stopped =>
          exact RunExecutionService.finish_now _ _ _ _
      | _ => rfl
  | _ => rfl

theorem Runtime.now_of_step {w w' : Runtime} {label : Label} (fresh : w.FreshRun label)
    (moved : w.step label = some w') : ∃ elapsed : Nat, w'.service.now = w.service.now + elapsed := by
  rcases step_cases fresh moved with ⟨id, moves⟩ | passes
  · exact ⟨0, by simp [moves.move.now]⟩
  · cases passes with
    | tick elapsed => exact ⟨elapsed, rfl⟩
    | agentEvent id event userId run listening prompting => exact ⟨0, by simp [RunExecutionService.note]⟩

theorem StreamServer.now_of_step {w w' : StreamServer} {label : Label}
    (moved : w.step label = some w') (timeless : ∀ elapsed, label ≠ .tick elapsed) :
    w'.now = w.now := by
  cases steps_of_step moved with
  | ticks => exact absurd rfl (timeless _)
  | _ => rfl

namespace Orchestrator

inductive Label where
  | runtime (label : Runtime.Label)
  | streamEvents (id : StreamId) (runId : RunId) (owner : OwnerPrincipal)
      (replayFrom lastEventId : Option String)
  /-- a `streamEvents` request goes on after its read of the run -/
  | connect (id : StreamId)
  | disconnect (id : StreamId)
  | keepAlive (id : StreamId)
  | checkRunState (id : StreamId)
  | checked (id : StreamId)

def init (config : RunManagerConfig) (now : Int) : Orchestrator :=
  ⟨Runtime.init config now, StreamServer.init now, .empty, .empty⟩

def observe (streams : StreamServer) (observation : Observation) : StreamServer :=
  (observation.call.bind streams.step).getD streams

def follow (w : Orchestrator) (runtime : Runtime) : Orchestrator :=
  { w with
    runtime
    streams := (runtime.service.log.drop w.runtime.service.log.length).foldl observe
      { w.streams with now := runtime.service.now } }

def serve (w : Orchestrator) (label : StreamServer.Label) : Option Orchestrator :=
  (w.streams.step label).map (fun streams => { w with streams })

def step (w : Orchestrator) : Label → Option Orchestrator
  | .runtime label => (w.runtime.step label).map w.follow
  | .streamEvents id runId owner replayFrom lastEventId =>
    if w.requests.has id ∨ w.streams.responses.table.has id then none
    else
      let run := w.runtime.service.runManager.getRun runId
      some { w with requests := w.requests.set id ⟨runId, owner, replayFrom, lastEventId, run⟩ }
  | .connect id =>
    match w.requests.get id with
    | none => none
    | some request =>
      { w with requests := w.requests.delete id }.serve (.streamEvents id request.runId
        request.owner request.run request.replayFrom request.lastEventId)
  | .disconnect id => w.serve (.disconnect id)
  | .keepAlive id => w.serve (.keepAlive id)
  | .checkRunState id =>
    match w.streams.connections.get id with
    | none => none
    | some connection =>
      let currentRun := w.runtime.service.runManager.getRun connection.runId
      let reads := w.reads.set id ((w.reads.get id).getD [] ++ [currentRun])
      { w with reads }.serve (.checkRunState id)
  | .checked id =>
    match w.reads.get id with
    | some (currentRun :: rest) =>
      { w with reads := w.reads.set id rest }.serve (.checked id currentRun)
    | _ => none

def Quiescent (w : Orchestrator) : Prop := w.runtime.Quiescent ∧ w.requests.entries = []

def FreshRun (w : Orchestrator) : Label → Prop
  | .runtime label => w.runtime.FreshRun label
  | _ => True

instance (w : Orchestrator) : ∀ label, Decidable (w.FreshRun label)
  | .runtime label => inferInstanceAs (Decidable (w.runtime.FreshRun label))
  | .streamEvents _ _ _ _ _ | .connect _ | .disconnect _ | .keepAlive _ | .checkRunState _
  | .checked _ => instDecidableTrue

variable {w w' : Orchestrator}

inductive Steps (w : Orchestrator) : Label → Orchestrator → Prop
  | turns (label : Runtime.Label) (runtime : Runtime)
      (moved : w.runtime.step label = some runtime) : Steps w (.runtime label) (w.follow runtime)
  | reads (label : Label) (requests : EsMap StreamId StreamRequest) :
      Steps w label { w with requests }
  | serves (label : Label) (served : StreamServer.Label) (w' : Orchestrator)
      (same : w'.runtime = w.runtime) (moved : w.streams.step served = some w'.streams)
      (timeless : ∀ elapsed, served ≠ .tick elapsed)
      (about : ∀ runId, served.about = some runId → ∃ id request, label = .connect id ∧
        w.requests.get id = some request ∧ request.accepted = true ∧ request.runId = runId) :
      Steps w label w'

theorem served_of_serve {t : Orchestrator} {served : StreamServer.Label}
    (goes : t.serve served = some w') (same : t.runtime = w.runtime)
    (streams : t.streams = w.streams) :
    w'.runtime = w.runtime ∧ w.streams.step served = some w'.streams := by
  obtain ⟨after, step, rfl⟩ := Option.map_eq_some_iff.mp goes
  exact ⟨same, streams ▸ step⟩

theorem steps_of_step {label : Label} (moved : w.step label = some w') : Steps w label w' := by
  -- the calls that bring no run anything
  have aside {t : Orchestrator} {served : StreamServer.Label} (goes : t.serve served = some w')
      (same : t.runtime = w.runtime) (streams : t.streams = w.streams)
      (timeless : ∀ elapsed, served ≠ .tick elapsed) (silent : served.about = none) :
      Steps w label w' := by
    obtain ⟨runtime, step⟩ := served_of_serve goes same streams
    apply Steps.serves label served w' runtime step timeless
    intro runId about
    rw [silent] at about
    cases about
  cases label with
  | runtime label =>
      obtain ⟨runtime, step, rfl⟩ := Option.map_eq_some_iff.mp moved
      exact .turns label runtime step
  | streamEvents id runId owner replayFrom lastEventId =>
      simp only [step] at moved
      split at moved <;> cases moved
      exact .reads _ _
  | connect id =>
      simp only [step] at moved
      split at moved
      · cases moved
      · rename_i request found
        obtain ⟨runtime, step⟩ := served_of_serve (w := w) moved rfl rfl
        apply Steps.serves _ _ w' runtime step (by simp)
        intro runId about
        simp only [StreamServer.Label.about] at about
        split at about <;> cases about
        rename_i accepted
        exact ⟨id, request, rfl, found, accepted, rfl⟩
  | disconnect id => exact aside moved rfl rfl (by simp) rfl
  | keepAlive id => exact aside moved rfl rfl (by simp) rfl
  | checkRunState id =>
      simp only [step] at moved
      split at moved
      · cases moved
      · exact aside moved rfl rfl (by simp) rfl
  | checked id =>
      simp only [step] at moved
      split at moved
      · exact aside moved rfl rfl (by simp) rfl
      · cases moved

theorem runtime_of_reach {ok : Orchestrator → Label → Prop} {ok' : Runtime → Runtime.Label → Prop}
    {config : RunManagerConfig} {now : Int}
    (meets : ∀ w label, ok w (.runtime label) → ok' w.runtime label)
    (reached : Transition.Reach step ok (init config now) w) :
    Transition.Reach Runtime.step ok' (Runtime.init config now) w.runtime := by
  apply reached.project runtime
  intro s label u earlier met moved
  cases steps_of_step moved with
  | turns label runtime turned => exact Transition.Reach.refl.next (meets s label met) turned
  | reads label requests => exact .refl
  | serves label served w' same step timeless about =>
      rw [same]
      exact .refl

theorem observe_runs (streams : StreamServer) (observation : Observation) :
    Transition.Reach StreamServer.step Transition.Free streams (observe streams observation) ∧
      (observe streams observation).now = streams.now := by
  unfold observe
  cases called : observation.call with
  | none => exact ⟨.refl, rfl⟩
  | some label =>
      cases moved : streams.step label with
      | none =>
          rw [Option.bind_some, moved]
          exact ⟨.refl, rfl⟩
      | some after =>
          rw [Option.bind_some, moved]
          refine ⟨Transition.Reach.refl.next trivial moved, StreamServer.now_of_step moved ?_⟩
          intro elapsed same
          cases observation <;> cases called <;> cases same

theorem foldl_observe_runs (log : List Observation) (streams : StreamServer) :
    Transition.Reach StreamServer.step Transition.Free streams (log.foldl observe streams) ∧
      (log.foldl observe streams).now = streams.now := by
  induction log generalizing streams with
  | nil => exact ⟨.refl, rfl⟩
  | cons observation rest ih =>
      obtain ⟨first, still⟩ := observe_runs streams observation
      obtain ⟨later, still'⟩ := ih (observe streams observation)
      exact ⟨first.trans later, still'.trans still⟩

theorem streams_of_reach {config : RunManagerConfig} {now : Int}
    (reached : Transition.Reach step FreshRun (init config now) w) :
    Transition.Reach StreamServer.step Transition.Free (StreamServer.init now) w.streams ∧
      w.streams.now = w.runtime.service.now := by
  apply reached.invariant (fun w =>
    Transition.Reach StreamServer.step Transition.Free (StreamServer.init now) w.streams ∧
      w.streams.now = w.runtime.service.now)
  · exact ⟨.refl, rfl⟩
  · rintro s label u fresh ⟨earlier, same⟩ moved
    cases steps_of_step moved with
    | turns label runtime turned =>
        obtain ⟨elapsed, passes⟩ := Runtime.now_of_step fresh turned
        have ticked : s.streams.step (.tick elapsed) =
            some { s.streams with now := runtime.service.now } := by
          rw [passes, ← same]
          rfl
        obtain ⟨later, still⟩ := foldl_observe_runs
          (runtime.service.log.drop s.runtime.service.log.length)
          { s.streams with now := runtime.service.now }
        exact ⟨(earlier.next trivial ticked).trans later, still⟩
    | reads label requests => exact ⟨earlier, same⟩
    | serves label served w' kept step timeless about =>
        refine ⟨earlier.next trivial step, ?_⟩
        rw [StreamServer.now_of_step step timeless, same, kept]

end Orchestrator

end Minerva
