import Minerva.Runtime.TerminalOnce

namespace Minerva

def Unclosing (s s' : RunExecutionService) : Prop :=
  Logs (fun observation => ∀ runId, observation ≠ .closed runId) s s'

namespace Unclosing

variable {s t u : RunExecutionService}

theorem closed (grows : Unclosing s t) {runId : RunId} (closed : .closed runId ∈ t.log) :
    .closed runId ∈ s.log := by
  obtain ⟨more, grown, silent⟩ := grows
  rw [grown] at closed
  rcases List.mem_append.mp closed with earlier | later
  · exact earlier
  · exact absurd rfl (silent _ later runId)

theorem trans (first : Unclosing s t) (second : Unclosing t u) : Unclosing s u :=
  Logs.trans first second

theorem of_same (same : t.log = s.log) : Unclosing s t := Logs.of_same same

theorem emitTerminalOnce (runId : RunId) (event : RunEvent) :
    Unclosing s (s.emitTerminalOnce runId event) := Logs.emitTerminalOnce (by simp)

theorem finish (run : Run) (agent listening : Bool) : Unclosing s (s.finish run agent listening) :=
  Logs.finish (by simp) agent listening

theorem note {observation : Observation} (other : ∀ runId, observation ≠ .closed runId) :
    Unclosing s (s.note observation) := Logs.note other

theorem delivered (turn : Turn Call (Option Run)) : Unclosing s (s.delivered turn) := by
  apply Logs.delivered
  intro abort member observation noted runId
  rcases noted with rfl | ⟨event, -, rfl⟩ <;> simp

end Unclosing

theorem closed_of_exit {s : RunExecutionService} {userId : UserId} {run : Run}
    {agent listening : Bool} {runId : RunId}
    (closed : .closed runId ∈
      (((s.closeRun run.id).forgetTerminal run.id).exit userId run agent listening).1.log) :
    .closed runId ∈ s.log ∨ run.id = runId := by
  have before : Observation.closed runId ∈ ((s.closeRun run.id).forgetTerminal run.id).log :=
    (Unclosing.finish run agent listening).closed closed
  rcases List.mem_append.mp (show Observation.closed runId ∈ s.log ++ [.closed run.id] from before)
    with earlier | now
  · exact .inl earlier
  · cases List.mem_singleton.mp now
    exact .inr rfl

def ClosesOwn (s : RunExecutionService) (old : Option Task) (s' : RunExecutionService)
    (new : Option Task) : Prop :=
  ∀ runId, .closed runId ∈ s'.log → .closed runId ∈ s.log ∨
    ∃ task run, old = some task ∧ task.runs = some run ∧ run.id = runId ∧ new.bind Task.runs = none

theorem Unclosing.own {s s' : RunExecutionService} (grows : Unclosing s s') (old new : Option Task) :
    ClosesOwn s old s' new :=
  fun _ closed => .inl (grows.closed closed)

theorem RunExecutionService.resolved_closes (s : RunExecutionService) (frame : Frame) (call : Call)
    (answer : Option Run) :
    ClosesOwn s (some (.calling frame call)) (s.resolved frame answer).1
      (s.resolved frame answer).2 := by
  unfold RunExecutionService.resolved
  split
  · rename_i run
    have queued : Unclosing s (s.broadcastOrchestratorEvent run.id
        (.runQueued (run.queuePosition.getD 0))) := .note (by simp)
    apply Unclosing.own
    apply queued.trans
    unfold RunExecutionService.processUserQueue
    split <;> exact .of_same rfl
  · split
    · exact (Unclosing.emitTerminalOnce _ _).own _ _
    · exact (Unclosing.of_same rfl).own _ _
  · exact (Unclosing.of_same rfl).own _ _
  · exact (Unclosing.note (by simp)).own _ _
  · exact (Unclosing.note (by simp)).own _ _
  · rename_i userId run listening completedRun
    intro runId closed
    rcases closed_of_exit closed with earlier | own
    · exact .inl ((Unclosing.emitTerminalOnce _ _).closed earlier)
    · exact .inr ⟨_, run, rfl, rfl, own, rfl⟩
  · rename_i userId run agent listening failedRun
    intro runId closed
    rcases closed_of_exit closed with earlier | own
    · exact .inl ((Unclosing.emitTerminalOnce _ _).closed earlier)
    · exact .inr ⟨_, run, rfl, rfl, own, rfl⟩
  · exact (Unclosing.of_same rfl).own _ _

theorem RunExecutionService.rejected_unclosing (s : RunExecutionService) (frame : Frame)
    (error : RunError) : Unclosing s (s.rejected frame error).1 := by
  unfold RunExecutionService.rejected
  split
  · exact .of_same rfl
  · exact .of_same rfl
  · exact .of_same rfl
  · exact .finish _ _ _
  · exact .of_same rfl

theorem Move.closes {s s' : RunExecutionService} {old new : Option Task} (move : Move s old s' new) :
    ClosesOwn s old s' new := by
  cases move with
  | awaits frame call next random goes => exact (Unclosing.delivered _).own _ _
  | resolves frame call random run answers =>
      intro runId closed
      rcases RunExecutionService.resolved_closes _ frame call run runId closed with earlier | own
      · exact .inl ((Unclosing.delivered _).closed earlier)
      · exact .inr own
  | rejects frame call random error throws =>
      exact ((Unclosing.delivered _).trans (RunExecutionService.rejected_unclosing _ _ _)).own _ _
  | replied userId run pc reply outcome answer =>
      cases RunExecutionService.replied_cases answer with
      | prompts signal was pack =>
          cases signal with
          | none => exact (Unclosing.note (by simp)).own _ _
          | some signal => exact ((Unclosing.of_same rfl).trans (.note (by simp))).own _ _
      | _ => exact (Unclosing.of_same rfl).own _ _
  | continued userId run pc outcome goes =>
      cases RunExecutionService.executeResume_cases goes with
      | closes listening messages latestRun stopped =>
          intro runId closed
          rcases closed_of_exit closed with earlier | own
          · exact .inl earlier
          · exact .inr ⟨_, run, rfl, rfl, own, rfl⟩
      | leaves agent listening error latestRun stopped =>
          exact ((Unclosing.of_same rfl).trans (.finish _ _ _)).own _ _
      | _ => exact (Unclosing.of_same rfl).own _ _
  | _ => exact (Unclosing.of_same rfl).own _ _

namespace Runtime

theorem closed_runs_are_finished {ok : Runtime → Label → Prop} {config : RunManagerConfig}
    {now : Int} {w : Runtime} (fresh : ∀ w label, ok w label → w.FreshRun label)
    (reached : Transition.Reach step ok (init config now) w) (runId : RunId)
    (closed : .closed runId ∈ w.service.log) : w.Finished runId := by
  revert runId
  apply reached.invariant_given Serial (fun w =>
    ∀ runId, .closed runId ∈ w.service.log → w.Finished runId)
  · intro s earlier
    exact serial_of_reach fresh earlier
  · intro runId closed
    cases closed
  · intro s label u meets serial held moved runId closed
    rcases step_cases (fresh s label meets) moved with ⟨id, moves⟩ | passes
    · rcases moves.move.closes runId closed with earlier | ⟨task, run, found, runs, rfl, past⟩
      · exact (held runId earlier).moves serial moves
      · exact serial.finishes moves found runs past
    · have earlier : s.Finished runId := by
        cases passes with
        | tick elapsed => exact held runId closed
        | agentEvent id event userId run listening prompting =>
            exact held runId ((Unclosing.note (by simp)).closed closed)
      obtain ⟨-, tasks, -, -⟩ := passes.stores
      unfold Finished at earlier ⊢
      rw [passes.executions, tasks]
      exact earlier

end Runtime

end Minerva
