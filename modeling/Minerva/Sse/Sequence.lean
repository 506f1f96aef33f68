import Minerva.Library.Numbering
import Minerva.Sse.Controller

/-! The numbers of the events that are broadcast for a run. Broadcasts, skipped agent events and new
connections draw them from one counter, which `closeRun` drops. -/

namespace Minerva

namespace MemoryEventSequencer

theorem current_next (sequencer : MemoryEventSequencer) (runId other : RunId) :
    (sequencer.next runId).1.current other =
      if other = runId then sequencer.current other + 1 else sequencer.current other := by
  unfold next current
  simp only [EsMap.get_set]
  split
  · rename_i same
    rw [same]
    rfl
  · rfl

theorem current_cleanup (sequencer : MemoryEventSequencer) (runId other : RunId) :
    (sequencer.cleanup runId).current other =
      if other = runId then 0 else sequencer.current other := by
  unfold cleanup current
  simp only [EsMap.get_delete]
  split <;> rfl

end MemoryEventSequencer

namespace SSEService

variable {ω : Type} [SSEStreams ω]

@[simp] theorem broadcast_sequencer (s : SSEService) (host : ω) (runId : RunId)
    (event : SSEEventEnvelope) : (s.broadcast host runId event).1.sequencer = s.sequencer := rfl

theorem broadcastAgentEvent_sequencer (s : SSEService) (host : ω) (now : Int) (runId : RunId)
    (agentEvent : AgentEvent) :
    (s.broadcastAgentEvent host now runId agentEvent).1.sequencer = (s.sequencer.next runId).1 := by
  unfold broadcastAgentEvent
  simp only
  split <;> rfl

end SSEService

namespace StreamServer

open Numbering (Use published)

def airs (w : StreamServer) : Label → Option SSEEventEnvelope
  | .broadcastAgentEvent runId agentEvent =>
    (w.service.sequencer.map w.now agentEvent runId).2
  | .broadcastOrchestratorEvent runId type payload =>
    some (w.service.sequencer.mapOrchestratorEvent w.now runId type payload).2
  | _ => none

/-- Every event that is broadcast while the labels are followed, for whichever run. -/
def aired : StreamServer → List Label → List SSEEventEnvelope
  | _, [] => []
  | w, label :: rest =>
    (w.airs label).toList ++ ((w.step label).map (fun w' => aired w' rest)).getD []

def airedSeqs (w : StreamServer) (runId : RunId) (labels : List Label) : List Nat :=
  ((w.aired labels).filter (fun event => event.runId = runId)).map SSEEventEnvelope.seq

def Label.use (runId : RunId) : Label → Option Use
  | .streamEvents _ about owner run _ _ =>
    if about = runId ∧ run.any (fun run => sameOwnerPrincipal run.owner owner) then some .spend
    else none
  | .broadcastAgentEvent about agentEvent =>
    if about = runId then some (if agentEvent.mapped.isSome then .publish else .spend) else none
  | .broadcastOrchestratorEvent about _ _ => if about = runId then some .publish else none
  | .closeRun about => if about = runId then some .reset else none
  | _ => none

variable {w w' : StreamServer}

theorem step_of_airs {label : Label} {event : SSEEventEnvelope} (airs : w.airs label = some event)
    (moved : w.step label = some w') :
    w' = w.serve (({ w.service with
      sequencer := (w.service.sequencer.next event.runId).1 } : SSEService).broadcast w.responses
        event.runId event) := by
  cases label with
  | broadcastAgentEvent runId agentEvent =>
      cases moved
      simp only [StreamServer.airs, MemoryEventSequencer.map, Option.map_eq_some_iff] at airs
      obtain ⟨⟨type, payload⟩, mapped, rfl⟩ := airs
      simp only [SSEService.broadcastAgentEvent, MemoryEventSequencer.map, mapped, Option.map_some]
  | broadcastOrchestratorEvent runId type payload =>
      cases moved
      cases airs
      rfl
  | _ => cases airs

theorem step_current {label : Label} (moved : w.step label = some w') (runId : RunId) :
    w'.service.sequencer.current runId =
      (label.use runId).toList.foldl Use.advance (w.service.sequencer.current runId) := by
  -- the counter of the run `about` is drawn from, and with it perhaps that of the run
  have drawn (about : RunId) : (w.service.sequencer.next about).1.current runId =
      if about = runId then w.service.sequencer.current runId + 1
      else w.service.sequencer.current runId := by
    rw [MemoryEventSequencer.current_next]
    by_cases same : about = runId
    · simp [same]
    · simp [same, Ne.symm same]
  cases steps_of_step moved with
  | refuses denied => simp [Label.use, denied]
  | @opens id about owner run replayFrom lastEventId unused own =>
      have draws : (w.openStream id about run (startSeq replayFrom lastEventId)).service.sequencer =
          (w.service.sequencer.next about).1 := rfl
      rw [draws, drawn about]
      by_cases same : about = runId <;> simp [Label.use, own, same, Use.advance]
  | @broadcastsAgentEvent about agentEvent =>
      rw [serve, SSEService.broadcastAgentEvent_sequencer, drawn about]
      by_cases same : about = runId
      · cases mapped : agentEvent.mapped.isSome <;> simp [Label.use, same, mapped, Use.advance]
      · simp [Label.use, same]
  | @broadcastsOrchestratorEvent about type payload =>
      simp only [serve, SSEService.broadcastOrchestratorEvent, SSEService.broadcast_sequencer,
        MemoryEventSequencer.mapOrchestratorEvent, drawn about]
      by_cases same : about = runId <;> simp [Label.use, same, Use.advance]
  | @closes about =>
      simp only [serve, SSEService.closeRun, MemoryEventSequencer.current_cleanup]
      by_cases same : about = runId
      · simp [Label.use, same, Use.advance]
      · simp [Label.use, same, Ne.symm same]
  | _ => rfl

theorem airs_published (w : StreamServer) (label : Label) (runId : RunId) :
    ((w.airs label).toList.filter (fun event => event.runId = runId)).map SSEEventEnvelope.seq =
      published (w.service.sequencer.current runId) (label.use runId).toList := by
  cases label with
  | broadcastAgentEvent about agentEvent =>
      by_cases same : about = runId
      · subst same
        cases mapped : agentEvent.mapped with
        | none => simp [airs, MemoryEventSequencer.map, Label.use, mapped, published]
        | some envelope =>
            simp [airs, MemoryEventSequencer.map, MemoryEventSequencer.next, Label.use, mapped,
              published]
      · cases mapped : agentEvent.mapped with
        | none => simp [airs, MemoryEventSequencer.map, Label.use, mapped, same, published]
        | some envelope =>
            simp [airs, MemoryEventSequencer.map, Label.use, mapped, same, published]
  | broadcastOrchestratorEvent about type payload =>
      by_cases same : about = runId
      · simp [airs, MemoryEventSequencer.mapOrchestratorEvent, MemoryEventSequencer.next, Label.use,
          same, published]
      · simp [airs, MemoryEventSequencer.mapOrchestratorEvent, Label.use, same, published]
  | streamEvents id about owner run replayFrom lastEventId =>
      simp only [airs, Label.use]
      split <;> rfl
  | closeRun about =>
      simp only [airs, Label.use]
      split <;> rfl
  | _ => rfl

theorem exec_cons {label : Label} {rest : List Label}
    (ran : Transition.exec step w (label :: rest) = some w') :
    ∃ next, w.step label = some next ∧ Transition.exec step next rest = some w' :=
  Option.bind_eq_some_iff.mp ran

theorem aired_cons {label : Label} {rest : List Label} {next : StreamServer}
    (moved : w.step label = some next) :
    w.aired (label :: rest) = (w.airs label).toList ++ next.aired rest := by
  simp [aired, moved]

/-- The numbers of the events of a run are those that its counter publishes. -/
theorem airedSeqs_eq_published (runId : RunId) (labels : List Label)
    (ran : Transition.exec step w labels = some w') :
    w.airedSeqs runId labels =
      published (w.service.sequencer.current runId) (labels.filterMap (Label.use runId)) := by
  induction labels generalizing w with
  | nil => rfl
  | cons label rest ih =>
      obtain ⟨next, moved, tail⟩ := exec_cons ran
      have here := airs_published w label runId
      have later := ih tail
      rw [step_current moved runId] at later
      unfold airedSeqs at later ⊢
      rw [aired_cons moved, List.filter_append, List.map_append, here, later]
      cases use : label.use runId with
      | none => simp [use, published]
      | some use' => cases use' <;> simp [use, published, Use.advance]

/-- The events of a run are numbered 1, 2, 3, ... exactly if at each of them as many numbers had
gone to connections and skipped events since the last `closeRun` as to events before it. -/
theorem seqs_are_gap_free_iff (now : Int) (labels : List Label)
    (ran : Transition.exec step (init now) labels = some w) (runId : RunId) :
    (init now).airedSeqs runId labels =
        List.range' 1 ((init now).airedSeqs runId labels).length ↔
      Numbering.Balanced (labels.filterMap (Label.use runId)) := by
  have start : (init now).service.sequencer.current runId = 0 := rfl
  rw [airedSeqs_eq_published runId labels ran, start, Numbering.length_published]
  exact Numbering.published_iff _

def undisturbedLabels : List Label :=
  [.broadcastOrchestratorEvent "run_0_a" .runQueued .null,
    .broadcastOrchestratorEvent "run_0_b" .runQueued .null, .closeRun "run_0_b",
    .broadcastOrchestratorEvent "run_0_a" .runStarted .null,
    .broadcastOrchestratorEvent "run_0_a" .runCompleted .null]

theorem undisturbed_run_is_gap_free :
    (init 0).airedSeqs "run_0_a" undisturbedLabels = [1, 2, 3] := by
  have ran : ∃ w, Transition.exec step (init 0) undisturbedLabels = some w := ⟨_, rfl⟩
  obtain ⟨w, ran⟩ := ran
  exact (seqs_are_gap_free_iff 0 undisturbedLabels ran "run_0_a").mpr (by decide)

/-- A client that connects while a run is queued takes the number 2. -/
theorem connection_leaves_a_gap :
    ¬∀ (labels : List Label) (w : StreamServer),
      Transition.exec step (init 0) labels = some w → ∀ runId,
        (init 0).airedSeqs runId labels =
          List.range' 1 ((init 0).airedSeqs runId labels).length := by
  intro always
  have ran : ∃ w, Transition.exec step (init 0)
      [.broadcastOrchestratorEvent "run_0_a" .runQueued .null,
        .streamEvents 0 "run_0_a" ⟨"acme", "alice"⟩
          (some (RunManager.newRun .default 0 "a" ⟨some ⟨"acme", "alice"⟩, none, "pack", "hello", none⟩))
          none none,
        .broadcastOrchestratorEvent "run_0_a" .runStarted .null] = some w := ⟨_, rfl⟩
  obtain ⟨w, ran⟩ := ran
  have gap := always _ w ran "run_0_a"
  exact absurd gap (by decide +kernel)

end StreamServer

end Minerva
