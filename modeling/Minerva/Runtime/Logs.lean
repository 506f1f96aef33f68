import Minerva.Runtime.RunExecution

namespace Minerva

def Logs (kind : Observation → Prop) (s t : RunExecutionService) : Prop :=
  ∃ more, t.log = s.log ++ more ∧ ∀ observation ∈ more, kind observation

/-- What an `abort` listener does: the agent is aborted, and the end of the run is broadcast. -/
def Abort.Noted (abort : Abort) (observation : Observation) : Prop :=
  observation = .agentAborted abort.listener.runId ∨
    ∃ event, event.announces ≠ none ∧ observation = .broadcast abort.listener.runId event

namespace Logs

variable {kind : Observation → Prop} {s t u : RunExecutionService}

theorem of_same (same : t.log = s.log) : Logs kind s t :=
  ⟨[], by rw [same, List.append_nil], by simp⟩

theorem trans (first : Logs kind s t) (second : Logs kind t u) : Logs kind s u := by
  obtain ⟨more, grown, own⟩ := first
  obtain ⟨rest, grown', own'⟩ := second
  refine ⟨more ++ rest, by rw [grown', grown, List.append_assoc], ?_⟩
  intro observation member
  rcases List.mem_append.mp member with earlier | later
  · exact own observation earlier
  · exact own' observation later

theorem filterMap {β : Type} (logs : Logs kind s t) {read : Observation → Option β}
    (skips : ∀ observation, kind observation → read observation = none) :
    t.log.filterMap read = s.log.filterMap read := by
  obtain ⟨more, grown, own⟩ := logs
  have none : more.filterMap read = [] := by
    apply List.filterMap_eq_nil_iff.mpr
    intro observation member
    exact skips observation (own observation member)
  rw [grown, List.filterMap_append, none, List.append_nil]

theorem note {observation : Observation} (own : kind observation) :
    Logs kind s (s.note observation) :=
  ⟨[observation], rfl, by simpa using own⟩

theorem emitTerminalOnce {runId : RunId} {event : RunEvent} (own : kind (.broadcast runId event)) :
    Logs kind s (s.emitTerminalOnce runId event) := by
  unfold RunExecutionService.emitTerminalOnce
  split
  · exact of_same rfl
  · exact (of_same rfl).trans (note own)

theorem finish {run : Run} (own : kind (.agentAborted run.id)) (agent listening : Bool) :
    Logs kind s (s.finish run agent listening) := by
  unfold RunExecutionService.finish
  split
  · exact note own
  · exact of_same rfl

theorem abortListener {abort : Abort} (own : ∀ observation, abort.Noted observation → kind observation) :
    Logs kind s (s.abortListener abort) := by
  have aborted : Logs kind s (s.note (.agentAborted abort.listener.runId)) := note (own _ (.inl rfl))
  unfold RunExecutionService.abortListener
  split
  · exact aborted.trans (emitTerminalOnce (own _ (.inr ⟨_, by simp [RunEvent.announces], rfl⟩)))
  · exact aborted.trans (emitTerminalOnce (own _ (.inr ⟨_, by simp [RunEvent.announces], rfl⟩)))

theorem foldl_abortListener {aborts : List Abort}
    (own : ∀ abort ∈ aborts, ∀ observation, abort.Noted observation → kind observation) :
    Logs kind s (aborts.foldl RunExecutionService.abortListener s) := by
  induction aborts generalizing s with
  | nil => exact of_same rfl
  | cons abort rest ih =>
      have here : Logs kind s (s.abortListener abort) := abortListener (own abort (by simp))
      exact here.trans (ih (fun other member => own other (List.mem_cons_of_mem _ member)))

theorem delivered {turn : Turn Call (Option Run)}
    (own : ∀ abort ∈ turn.aborts, ∀ observation, abort.Noted observation → kind observation) :
    Logs kind s (s.delivered turn) :=
  (of_same rfl).trans (foldl_abortListener own)

end Logs

end Minerva
