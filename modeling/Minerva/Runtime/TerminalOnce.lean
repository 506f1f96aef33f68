import Minerva.Runtime.Terminal

/-! One terminal event for each run. `terminalEvents` forgets a run when its execution is over;
from then on only a cancellation can say again what has been said. -/

namespace Minerva

namespace Runtime

/-- A cancellation speaks up for a run only while the terminal event of the run, if there has
been one, is still marked: `cancelRun` does not answer with a CANCELLED run, and no listener
hears an `abort` event, once the run has been announced and its mark has been deleted. -/
def MarkKept (w : Runtime) (label : Label) : Prop :=
  ∀ resumed ∈ w.resumed label,
    (∀ cancelled ∈ resumed.2.cancels,
      ∀ context ∈ w.service.runManager.cancellationRegistry.get cancelled.1,
        context.isCancelled = false → context.listeners.isEmpty = false →
          w.service.announced cancelled.1 ≠ [] → cancelled.1 ∈ w.service.terminalEvents) ∧
    ∀ run ∈ resumed.2.answers, run.state = .cancelled →
      w.service.announced run.id ≠ [] → run.id ∈ w.service.terminalEvents

instance (w : Runtime) (label : Label) : Decidable (w.MarkKept label) :=
  inferInstanceAs (Decidable (∀ resumed ∈ w.resumed label, _ ∧ _))

def KeepsMarks (w : Runtime) (label : Label) : Prop := w.FreshRun label ∧ w.MarkKept label

instance (w : Runtime) (label : Label) : Decidable (w.KeepsMarks label) :=
  inferInstanceAs (Decidable (_ ∧ _))

def Finished (w : Runtime) (runId : RunId) : Prop :=
  runId ∈ w.service.executions ∧
    ∀ id task run, w.tasks.get id = some task → task.runs = some run → run.id ≠ runId

/-- What the events and the marks of every run have in common. -/
structure Once (w : Runtime) : Prop where
  owned : w.service.runManager.cancellationRegistry.Owned
  once : ∀ runId, (w.service.announced runId).length ≤ 1
  marked : ∀ runId, runId ∈ w.service.terminalEvents → w.service.announced runId ≠ []
  running : ∀ runId, w.service.announced runId ≠ [] →
    runId ∈ w.service.terminalEvents ∨ w.Finished runId

variable {w w' : Runtime} {label : Label} {id : Nat}

theorem Finished.moves {runId : RunId} (finished : w.Finished runId) (serial : w.Serial)
    (moves : w.Moves label id w') : w'.Finished runId := by
  refine ⟨(moves.runs serial).subset finished.1, ?_⟩
  intro id' task run found runs same
  by_cases here : id' = id
  · subst here
    cases moves.runs serial with
    | outside before after quiet =>
        rw [found, Option.bind_some, runs] at after
        cases after
    | begins userId call random acquired was answers now heard =>
        rw [found] at now
        cases now
        cases runs
        obtain ⟨-, pending⟩ := serial.acquired was answers
        apply (serial.executions.gone runId finished.1).free id' _ userId pending
        right
        rw [← same]
        rfl
    | goes old new ran was now before after loop sound quiet =>
        rw [found] at now
        cases now
        rw [runs] at after
        cases after
        exact finished.2 id' old run was before same
    | exits old ran was before after ended quiet =>
        rw [found, Option.bind_some, runs] at after
        cases after
  · rw [moves.other here] at found
    exact finished.2 id' task run found runs same

theorem Serial.finishes (serial : w.Serial) (moves : w.Moves label id w') {task : Task} {run : Run}
    (found : w.tasks.get id = some task) (runs : task.runs = some run)
    (past : (w'.tasks.get id).bind Task.runs = none) : w'.Finished run.id := by
  refine ⟨(moves.runs serial).subset (serial.executions.mine id task run found runs).2.1, ?_⟩
  intro id' task' run' found' runs' same
  by_cases here : id' = id
  · subst here
    rw [found', Option.bind_some, runs'] at past
    cases past
  · rw [moves.other here] at found'
    exact here (serial.sole found' found runs' runs same)

theorem Once.moves (held : w.Once) (serial : w.Serial) (moves : w.Moves label id w')
    (kept : w.MarkKept label) : w'.Once := by
  -- an emission for a run whose announcement is still marked
  have emitted {runId : RunId} {state : RunState}
      (emits : Emits w.service w'.service runId state)
      (remembered : w.service.announced runId ≠ [] → runId ∈ w.service.terminalEvents) :
      (w'.service.announced runId).length ≤ 1 ∧ w'.service.announced runId ≠ [] := by
    unfold Emits at emits
    rw [emits]
    split
    · rename_i marked
      exact ⟨held.once runId, held.marked runId marked⟩
    · rename_i unmarked
      cases said : w.service.announced runId with
      | nil => exact ⟨Nat.le_refl 1, by simp⟩
      | cons first rest => exact absurd (remembered (by simp [said])) unmarked
  -- a run that is still executed is remembered
  have executing {task : Task} {run : Run} (found : w.tasks.get id = some task)
      (runs : task.runs = some run) (said : w.service.announced run.id ≠ []) :
      run.id ∈ w.service.terminalEvents := by
    rcases held.running run.id said with marked | finished
    · exact marked
    · exact absurd rfl (finished.2 id task run found runs)
  have each (runId : RunId) : (w'.service.announced runId).length ≤ 1 ∧
      (runId ∈ w'.service.terminalEvents → w'.service.announced runId ≠ []) ∧
      (w'.service.announced runId ≠ [] →
        runId ∈ w'.service.terminalEvents ∨ w'.Finished runId) := by
    cases moves.speaks serial held.owned runId with
    | nothing quiet marks =>
        rw [quiet, marks]
        refine ⟨held.once runId, held.marked runId, ?_⟩
        intro said
        rcases held.running runId said with marked | finished
        · exact .inl marked
        · exact .inr (finished.moves serial moves)
    | aborts frame call reason context was cancels found live heard emits marked =>
        have remembered := (kept (id, call) (moves.resumes was)).1 (runId, reason) cancels context
          found live (by simpa using heard)
        obtain ⟨once, said⟩ := emitted emits remembered
        exact ⟨once, fun _ => said, fun _ => .inl marked⟩
    | confirms reason call run was answers own state emits marked =>
        have remembered := (kept (id, call) (moves.resumes was)).2 run answers state
        rw [own] at remembered
        obtain ⟨once, said⟩ := emitted emits remembered
        exact ⟨once, fun _ => said, fun _ => .inl marked⟩
    | ends frame call run last state was ends own inside emits forgotten past =>
        subst own
        have runs : (Task.calling frame call).runs = some run := Frame.runs_of_ends ends
        obtain ⟨once, said⟩ := emitted emits (executing was runs)
        exact ⟨once, fun marked => absurd marked forgotten,
          fun _ => .inr (serial.finishes moves was runs past)⟩
    | forgets task run was runs own quiet forgotten past =>
        subst own
        rw [quiet]
        exact ⟨held.once run.id, fun marked => absurd marked forgotten,
          fun _ => .inr (serial.finishes moves was runs past)⟩
  exact ⟨moves.owned held.owned, fun runId => (each runId).1, fun runId => (each runId).2.1,
    fun runId => (each runId).2.2⟩

theorem Passes.once (passes : w.Passes label w') (held : w.Once) : w'.Once := by
  obtain ⟨manager, tasks, -, marks⟩ := passes.stores
  have heard := passes.executions
  constructor
  · rw [manager]
    exact held.owned
  · intro runId
    rw [passes.announced]
    exact held.once runId
  · intro runId
    rw [passes.announced, marks]
    exact held.marked runId
  · intro runId
    rw [passes.announced, marks, Finished, heard, tasks]
    exact held.running runId

theorem once_of_reach {config : RunManagerConfig} {now : Int} {w : Runtime}
    (reached : Transition.Reach step KeepsMarks (init config now) w) : w.Once := by
  apply reached.invariant_given Serial Once
  · intro s earlier
    exact serial_of_reach (fun _ _ keeps => keeps.1) earlier
  · constructor
    · intro runId context found
      cases found
    · intro runId
      exact Nat.zero_le 1
    · intro runId marked
      cases marked
    · intro runId said
      exact absurd rfl said
  · intro s label u keeps serial held moved
    rcases step_cases keeps.1 moved with ⟨id, moves⟩ | passes
    · exact held.moves serial moves keeps.2
    · exact passes.once held

/-- As long as cancellations stay silent about runs that have been announced and forgotten,
every run has one terminal event at most. -/
theorem one_terminal_event (config : RunManagerConfig) (now : Int) (w : Runtime)
    (reached : Transition.Reach step KeepsMarks (init config now) w) (runId : RunId) :
    (w.service.announced runId).length ≤ 1 :=
  (once_of_reach reached).once runId

def cancelledLabels : List Label :=
  promptedLabels ++ [.cancelRun 1 "run_0_a" ⟨"acme", "alice"⟩ none,
    .resume 1 "", .resume 1 "", .resume 1 "", .resume 1 "", .resume 1 "", .resume 1 "",
    .reply 0 (.prompted []), .resume 0 ""]

def cancelledAgainLabels : List Label :=
  cancelledLabels ++ [.cancelRun 2 "run_0_a" ⟨"acme", "alice"⟩ none, .resume 2 "", .resume 2 ""]

theorem cancelled_run_is_announced_once :
    ∃ w : Runtime, w.service.announced "run_0_a" = [.cancelled] ∧
      (w.service.announced "run_0_a").length ≤ 1 := by
  have ran : (Transition.exec (Transition.guarded step KeepsMarks) (init .default 0)
      cancelledLabels).map (fun w => w.service.announced "run_0_a") =
      some [.cancelled] := by decide +kernel
  obtain ⟨w, reached, observed⟩ := Transition.reach_of_observed _ _ ran
  exact ⟨w, observed, one_terminal_event .default 0 w reached "run_0_a"⟩

/-- The second cancellation of a run announces its end a second time. -/
theorem cancelled_run_is_announced_twice :
    ¬∀ w : Runtime, Transition.Reach step FreshRun (init .default 0) w →
      ∀ runId, (w.service.announced runId).length ≤ 1 := by
  intro always
  have ran : (Transition.exec (Transition.guarded step FreshRun) (init .default 0)
      cancelledAgainLabels).map (fun w => w.service.announced "run_0_a") =
      some [.cancelled, .cancelled] := by decide +kernel
  obtain ⟨w, reached, observed⟩ := Transition.reach_of_observed _ _ ran
  have once := always w reached "run_0_a"
  rw [observed] at once
  exact absurd once (by decide)

end Runtime

end Minerva
