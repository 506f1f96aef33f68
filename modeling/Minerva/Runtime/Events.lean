import Minerva.Library.Trace
import Minerva.Runtime.Creation
import Minerva.Sse.Mapper

namespace Minerva

inductive EventKind where
  | queued
  | started
  | agent
  | terminal
  deriving DecidableEq

def RunEvent.kind : RunEvent → EventKind
  | .runQueued _ => .queued
  | .runStarted _ _ => .started
  | .runCompleted _ _ => .terminal
  | .runFailed _ _ => .terminal
  | .runCancelled _ _ => .terminal
  | .runTimedOut _ _ => .terminal

def agentEventType : Json → Option String
  | .obj fields =>
    match fields.lookup "type" with
    | some (.str type) => some type
    | _ => none
  | _ => none

def AgentEvent.ofType (type : String) : AgentEvent :=
  { type, messages := none, turnNumber := none, message := none, toolResults := none
    assistantMessageEvent := none, toolCallId := none, toolName := none, args := none
    partialResult := none, result := none, isError := none, durationMs := none }

theorem AgentEvent.mapped_isSome (event : AgentEvent) :
    event.mapped.isSome = (AgentEvent.ofType event.type).mapped.isSome := by
  unfold mapped ofType
  split <;> simp_all

def mapsAgentEvent (event : Json) : Bool :=
  ((agentEventType event).bind (fun type => (AgentEvent.ofType type).mapped)).isSome

/-- The event that an observation broadcasts for a run. -/
def Observation.broadcasts (runId : RunId) : Observation → Option EventKind
  | .broadcast id event => if id = runId then some event.kind else none
  | .agentEvent id event => if id = runId ∧ mapsAgentEvent event then some .agent else none
  | _ => none

/-- The events that have been broadcast for a run, in order. -/
def RunExecutionService.events (s : RunExecutionService) (runId : RunId) : List EventKind :=
  s.log.filterMap (Observation.broadcasts runId)

/-- `run_queued` is the first event, `run_started` precedes every event of the agent, and a terminal
event is followed by terminal events only. -/
def Allowed (before : List EventKind) (event : EventKind) : Prop :=
  (before = [] → event = .queued) ∧ (event = .agent → .started ∈ before) ∧
    (.terminal ∈ before → event = .terminal)

def Ordered (events : List EventKind) : Prop := Trace.Legal Allowed events

namespace Ordered

variable {events more : List EventKind}

theorem snoc {event : EventKind} (ordered : Ordered events) (allowed : Allowed events event) :
    Ordered (events ++ [event]) := Trace.legal_append_singleton.mpr ⟨ordered, allowed⟩

theorem closes (ordered : Ordered events) (heard : events ≠ [])
    (last : ∀ event ∈ more, event = .terminal) : Ordered (events ++ more) := by
  apply Trace.Legal.append ordered
  intro before event after split
  have terminal : event = .terminal := last event (by simp [split])
  subst terminal
  refine ⟨?_, ?_, fun _ => rfl⟩
  · intro empty
    exact absurd (List.append_eq_nil_iff.mp empty).1 heard
  · intro impossible
    cases impossible

end Ordered

namespace RunExecutionService

theorem note_events (s : RunExecutionService) (observation : Observation) (runId : RunId) :
    (s.note observation).events runId =
      s.events runId ++ (observation.broadcasts runId).toList := by
  unfold events note
  rw [List.filterMap_append]
  cases named : observation.broadcasts runId <;> simp [named]

theorem terminal_mem_events (s : RunExecutionService) (runId : RunId) :
    .terminal ∈ s.events runId ↔ s.announced runId ≠ [] := by
  have same (observation : Observation) : observation.broadcasts runId = some .terminal ↔
      observation.ends runId ≠ none := by
    cases observation with
    | broadcast id event =>
        by_cases own : id = runId
        · cases event <;> simp [Observation.broadcasts, Observation.ends, own, RunEvent.kind,
            RunEvent.announces]
        · simp [Observation.broadcasts, Observation.ends, own]
    | _ => simp [Observation.broadcasts, Observation.ends]
  unfold events announced
  rw [List.mem_filterMap, ne_eq, List.filterMap_eq_nil_iff]
  constructor
  · rintro ⟨observation, member, broadcasts⟩ silent
    exact (same observation).mp broadcasts (silent observation member)
  · intro spoken
    by_contra never
    apply spoken
    intro observation member
    by_contra ends
    exact never ⟨observation, member, (same observation).mpr ends⟩

end RunExecutionService

def Closes (runId : RunId) (s t : RunExecutionService) : Prop :=
  ∃ more, t.events runId = s.events runId ++ more ∧ ∀ event ∈ more, event = .terminal

namespace Closes

variable {runId : RunId} {s t u : RunExecutionService}

theorem of_quiet (quiet : t.events runId = s.events runId) : Closes runId s t :=
  ⟨[], by rw [quiet, List.append_nil], by simp⟩

theorem of_same (same : t.log = s.log) : Closes runId s t := by
  apply of_quiet
  rw [RunExecutionService.events, same]
  rfl

theorem trans (first : Closes runId s t) (second : Closes runId t u) : Closes runId s u := by
  obtain ⟨more, grown, last⟩ := first
  obtain ⟨rest, grown', last'⟩ := second
  refine ⟨more ++ rest, by rw [grown', grown, List.append_assoc], ?_⟩
  intro event member
  rcases List.mem_append.mp member with earlier | later
  · exact last event earlier
  · exact last' event later

theorem of_logs (logs : Logs (fun observation =>
      ∀ event ∈ observation.broadcasts runId, event = .terminal) s t) : Closes runId s t := by
  obtain ⟨more, grown, last⟩ := logs
  refine ⟨more.filterMap (Observation.broadcasts runId), ?_, ?_⟩
  · unfold RunExecutionService.events
    rw [grown, List.filterMap_append]
  · intro event member
    obtain ⟨observation, listed, broadcasts⟩ := List.mem_filterMap.mp member
    exact last observation listed event broadcasts

theorem note {observation : Observation}
    (last : ∀ event ∈ observation.broadcasts runId, event = .terminal) :
    Closes runId s (s.note observation) := of_logs (.note last)

theorem last_broadcast (id : RunId) {event : RunEvent} (terminal : event.kind = .terminal) :
    ∀ kind ∈ (Observation.broadcast id event).broadcasts runId, kind = .terminal := by
  intro kind broadcasts
  simp only [Observation.broadcasts, terminal] at broadcasts
  split at broadcasts <;> cases broadcasts
  rfl

theorem emitTerminalOnce (id : RunId) {event : RunEvent} (terminal : event.kind = .terminal) :
    Closes runId s (s.emitTerminalOnce id event) :=
  of_logs (.emitTerminalOnce (last_broadcast id terminal))

theorem finish (run : Run) (agent listening : Bool) :
    Closes runId s (s.finish run agent listening) :=
  of_logs (.finish (by simp [Observation.broadcasts]) agent listening)

theorem delivered (turn : Turn Call (Option Run)) : Closes runId s (s.delivered turn) := by
  apply of_logs
  apply Logs.delivered
  intro abort member observation noted
  rcases noted with rfl | ⟨event, announces, rfl⟩
  · simp [Observation.broadcasts]
  · apply last_broadcast
    cases event <;> first | rfl | exact absurd rfl announces

theorem closeRun (id : RunId) : Closes runId s (s.closeRun id) :=
  note (by simp [Observation.broadcasts])

theorem exit (userId : UserId) (run : Run) (agent listening : Bool) :
    Closes runId s (s.exit userId run agent listening).1 := finish run agent listening

theorem forgetTerminal (id : RunId) : Closes runId s (s.forgetTerminal id) := of_same rfl

theorem resolved {frame : Frame} {run : Option Run} (quiet : frame ≠ .createRun)
    (silent : ∀ userId run workspaceId, frame ≠ .start userId run workspaceId) :
    Closes runId s (s.resolved frame run).1 := by
  unfold RunExecutionService.resolved
  split
  · exact absurd rfl quiet
  · split
    · exact emitTerminalOnce _ rfl
    · exact of_same rfl
  · exact of_same rfl
  · exact note (by simp [Observation.broadcasts])
  · exact absurd rfl (silent _ _ _)
  · exact (((emitTerminalOnce _ rfl).trans (closeRun _)).trans (forgetTerminal _)).trans
      (exit _ _ _ _)
  · exact (((emitTerminalOnce _ rfl).trans (closeRun _)).trans (forgetTerminal _)).trans
      (exit _ _ _ _)
  · exact of_same rfl

theorem rejected (frame : Frame) (error : RunError) :
    Closes runId s (s.rejected frame error).1 := by
  unfold RunExecutionService.rejected
  split
  · exact of_same rfl
  · exact of_same rfl
  · exact of_same rfl
  · exact finish _ _ _
  · exact of_same rfl

theorem replied {userId : UserId} {run : Run} {pc : ExecPc} {reply : Reply} {outcome : Outcome}
    (answer : s.replied userId run pc reply = some outcome) : Closes runId s outcome.1 := by
  cases RunExecutionService.replied_cases answer with
  | prompts signal was pack =>
      cases signal with
      | none => exact note (by simp [Observation.broadcasts])
      | some signal => exact (of_same rfl).trans (note (by simp [Observation.broadcasts]))
  | _ => exact of_same rfl

theorem executeResume {userId : UserId} {run : Run} {pc : ExecPc} {outcome : Outcome}
    (goes : s.executeResume userId run pc = some outcome) : Closes runId s outcome.1 := by
  cases RunExecutionService.executeResume_cases goes with
  | vanishes listening messages error => exact of_same rfl
  | closes listening messages latestRun stopped =>
      exact ((closeRun _).trans (forgetTerminal _)).trans (exit _ _ _ _)
  | completes listening messages latestRun going => exact of_same rfl
  | leaves agent listening error latestRun stopped => exact (forgetTerminal _).trans (exit _ _ _ _)
  | fails agent listening error latestRun going => exact of_same rfl

end Closes

inductive Broadcasts (s : RunExecutionService) (old : Option Task) (s' : RunExecutionService)
    (new : Option Task) (runId : RunId) : Prop
  | closes (closes : Closes runId s s')
  | queues (run : Run) (was : old = some (.calling .createRun (.createRun (.updated run))))
      (own : run.id = runId) (adds : s'.events runId = s.events runId ++ [.queued])
      (past : ∀ call ∈ new.bind Task.call, call.creation = none)
  | starts (userId : UserId) (run last : Run) (workspaceId : String)
      (was : old = some (.calling (.start userId run workspaceId)
        (.startRun run.id (.started last))))
      (own : run.id = runId) (adds : s'.events runId = s.events runId ++ [.started])

theorem RunExecutionService.processUserQueue_events (s : RunExecutionService) (userId : UserId)
    (runId : RunId) : (s.processUserQueue userId).1.events runId = s.events runId := by
  unfold processUserQueue
  split <;> rfl

theorem RunExecutionService.processUserQueue_creation (s : RunExecutionService) (userId : UserId) :
    ∀ call ∈ (s.processUserQueue userId).2.bind Task.call, call.creation = none := by
  unfold processUserQueue
  split
  · simp
  · intro call inside
    cases inside
    rfl

theorem RunExecutionService.broadcast_events (s : RunExecutionService) (id runId : RunId)
    (event : RunEvent) : (s.broadcastOrchestratorEvent id event).events runId =
      if id = runId then s.events runId ++ [event.kind] else s.events runId := by
  rw [broadcastOrchestratorEvent, note_events, Observation.broadcasts]
  split
  · rfl
  · exact List.append_nil _

theorem Move.queues {s s' : RunExecutionService} {run : Run} {new : Option Task}
    (move : Move s (some (.calling .createRun (.createRun (.updated run)))) s' new)
    (runId : RunId) :
    s'.events runId =
        (if run.id = runId then s.events runId ++ [.queued] else s.events runId) ∧
      ∀ call ∈ new.bind Task.call, call.creation = none := by
  cases move with
  | awaits frame call next random goes => cases goes
  | rejects frame call random error throws => cases throws
  | resolves frame call random answer answers =>
      cases answers
      constructor
      · exact (RunExecutionService.processUserQueue_events _ run.userId runId).trans
          (s.broadcast_events run.id runId (.runQueued (run.queuePosition.getD 0)))
      · exact RunExecutionService.processUserQueue_creation _ run.userId

theorem Move.starts {s s' : RunExecutionService} {userId : UserId} {run last : Run}
    {workspaceId : String} {new : Option Task}
    (move : Move s (some (.calling (.start userId run workspaceId)
      (.startRun run.id (.started last)))) s' new) (runId : RunId) :
    s'.events runId = if run.id = runId then s.events runId ++ [.started] else s.events runId := by
  cases move with
  | awaits frame call next random goes => cases goes
  | rejects frame call random error throws => cases throws
  | resolves frame call random answer answers =>
      cases answers
      exact s.broadcast_events run.id runId (.runStarted (last.startedAt.getD s.now) workspaceId)

theorem Move.broadcasts {s s' : RunExecutionService} {old new : Option Task}
    (move : Move s old s' new)
    (fits : ∀ frame call, old = some (.calling frame call) → frame.Fits call) (runId : RunId) :
    Broadcasts s old s' new runId := by
  have whole := move
  cases move with
  | declined => exact .closes (.of_same rfl)
  | created random input fresh => exact .closes (.of_same rfl)
  | requested runId' owner reason => exact .closes (.of_same rfl)
  | fired timer runId' timeoutManager due => exact .closes (.of_same rfl)
  | refused runId' owner reason run => exact .closes (.of_same rfl)
  | cancelling runId' owner reason run => exact .closes (.of_same rfl)
  | awaits frame call next random goes => exact .closes (.delivered _)
  | resolves frame call random answer answers =>
      have fit := fits frame call rfl
      cases frame with
      | createRun =>
          cases call <;> simp only [Frame.Fits] at fit
          obtain ⟨run, resolves, -⟩ := (Call.settle_resolve _ _ _ _).mp answers
          have place := Call.create_resolve resolves
          subst place
          obtain ⟨adds, past⟩ := whole.queues runId
          split at adds
          · rename_i own
            exact .queues run rfl own adds past
          · exact .closes (.of_quiet adds)
      | start userId run workspaceId =>
          cases call <;> simp only [Frame.Fits] at fit
          subst fit
          obtain ⟨last, resolves, -⟩ := (Call.settle_resolve _ _ _ _).mp answers
          have place := Call.start_resolve resolves
          subst place
          have adds := whole.starts runId
          split at adds
          · rename_i own
            exact .starts userId run last workspaceId rfl own adds
          · exact .closes (.of_quiet adds)
      | _ => exact .closes ((Closes.delivered _).trans (.resolved (by simp) (by simp)))
  | rejects frame call random error throws =>
      exact .closes ((Closes.delivered _).trans (.rejected frame error))
  | replied userId run pc reply outcome answer => exact .closes (.replied answer)
  | continued userId run pc outcome goes => exact .closes (.executeResume goes)
  | again userId => exact .closes (.of_same rfl)
  | died userId => exact .closes (.of_same rfl)

theorem Broadcasts.grows {s s' : RunExecutionService} {old new : Option Task} {runId : RunId}
    (broadcasts : Broadcasts s old s' new runId) {event : EventKind}
    (member : event ∈ s.events runId) : event ∈ s'.events runId := by
  cases broadcasts with
  | closes closes =>
      obtain ⟨more, grown, -⟩ := closes
      rw [grown]
      exact List.mem_append_left _ member
  | queues run was own adds past =>
      rw [adds]
      exact List.mem_append_left _ member
  | starts userId run last workspaceId was own adds =>
      rw [adds]
      exact List.mem_append_left _ member

end Minerva
