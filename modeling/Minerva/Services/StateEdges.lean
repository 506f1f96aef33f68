import Minerva.Services.Writes

namespace Minerva

namespace Pool

/-- No call that is still bound to a write is overtaken by one that its write may not follow,
and a lease that is not refused goes to no run that has been leased and started, or ended, before. -/
def Calm (p : Pool) (label : Label) : Prop :=
  p.FreshRun label ∧ ∀ resumed ∈ p.resumed label,
    (∀ write ∈ resumed.2.write, ∀ other ∈ p.others resumed.1, ∀ bound ∈ other.commits,
      bound.1 = write.1 → write.2 = bound.2 ∨ isValidStateTransition write.2 bound.2 = true) ∧
    ∀ asked ∈ resumed.2.leases, (p.manager.leaseManager.isActive p.now asked.1).2 = false →
      p.manager.stateOf asked.2 = some .queued ∨ p.manager.stateOf asked.2 = some .leased

instance (p : Pool) (label : Label) : Decidable (p.Calm label) :=
  inferInstanceAs (Decidable (_ ∧ ∀ resumed ∈ p.resumed label, _ ∧ _))

theorem Calm.uncontested {p : Pool} {label : Label} (calm : p.Calm label) :
    Uncontested p.now p.manager p.calls.get (p.resumed label) := by
  constructor
  · intro id call runId newState resumed writes id' other newState' different found bound
    have member := (p.mem_others id other).mpr ⟨id', different, found⟩
    exact (calm.2 (id, call) resumed).1 (runId, newState) writes other member
      (runId, newState') bound rfl
  · intro id call userId runId resumed asks free
    exact (calm.2 (id, call) resumed).2 (userId, runId) asks free

theorem consistent_of_reach {config : RunManagerConfig} {now : Int} {p : Pool}
    (reached : Transition.Reach step Calm (init config now) p) :
    Consistent p.manager p.calls.get := by
  apply reached.invariant (fun p => Consistent p.manager p.calls.get) (Consistent.init config)
  intro s label u calm consistent moved
  rcases step_callStep s u label calm.1 moved with ⟨manager, calls⟩ | stepped
  · rw [manager, calls]
    exact consistent
  · exact (stepped.conforms calm.uncontested consistent).2

theorem step_conforms {config : RunManagerConfig} {now : Int} {p q : Pool} {label : Label}
    (reached : Transition.Reach step Calm (init config now) p) (calm : p.Calm label)
    (moved : p.step label = some q) : Conforms p.manager q.manager := by
  rcases step_callStep p q label calm.1 moved with ⟨manager, -⟩ | stepped
  · intro runId state stored
    rw [manager]
    exact ⟨state, stored, .inl rfl⟩
  · exact (stepped.conforms calm.uncontested (consistent_of_reach reached)).1

/-- In a run of uncontested calls every state change is an edge of the table, and a terminal
state stays for good. -/
theorem states_follow_the_table (config : RunManagerConfig) (now : Int) (p : Pool)
    (reached : Transition.Reach step Calm (init config now) p) :
    (∀ label q, p.Calm label → p.step label = some q → Conforms p.manager q.manager) ∧
      ∀ q, Transition.Reach step Calm p q → ∀ runId state,
        p.manager.stateOf runId = some state → isTerminalState state = true →
          q.manager.stateOf runId = some state := by
  constructor
  · intro label q calm moved
    exact step_conforms reached calm moved
  · intro q later runId state stored terminal
    induction later with
    | refl => exact stored
    | next earlier calm moved ih =>
        have conforms := step_conforms (reached.trans earlier) calm moved
        exact conforms.terminal ih terminal

def startedLabels : List Label :=
  [.begin 0 (.createRun "a" ⟨some ⟨"acme", "alice"⟩, none, "pack", "hello", none⟩),
    .resume 0 "", .resume 0 "", .resume 0 "",
    .begin 1 (.acquireNextRun "acme:alice"),
    .resume 1 "t", .resume 1 "", .resume 1 "", .resume 1 "", .resume 1 "",
    .begin 2 (.startRun "run_0_a"),
    .resume 2 "", .resume 2 "", .resume 2 "", .resume 2 ""]

/-- `completeRun` and `cancelRun` both read RUNNING before either of them writes. -/
def racingLabels : List Label :=
  [.begin 3 (.completeRun "run_0_a" none), .resume 3 "", .resume 3 "",
    .begin 4 (.cancelRun "run_0_a" none), .resume 4 "", .resume 4 "",
    .resume 3 ""]

theorem started_run_conforms :
    ∃ p : Pool, p.manager.stateOf "run_0_a" = some .running ∧
      (∀ label q, p.Calm label → p.step label = some q → Conforms p.manager q.manager) := by
  have ran : (Transition.exec (Transition.guarded step Calm) (init .default 0) startedLabels).map
      (fun p => p.manager.stateOf "run_0_a") = some (some .running) := by decide +kernel
  obtain ⟨p, reached, observed⟩ := Transition.reach_of_observed _ _ ran
  exact ⟨p, observed, (states_follow_the_table .default 0 p reached).1⟩

/-- A completed run is cancelled by the call that has validated an older state. -/
theorem completed_run_is_cancelled :
    ¬∀ p : Pool, Transition.Reach step FreshRun (init .default 0) p →
      ∀ label q, p.FreshRun label → p.step label = some q → Conforms p.manager q.manager := by
  intro always
  have ran : (Transition.exec (Transition.guarded step FreshRun) (init .default 0)
      (startedLabels ++ racingLabels)).map (fun p => (p.manager.stateOf "run_0_a",
        (p.step (.resume 4 "")).map (fun q => q.manager.stateOf "run_0_a"))) =
      some (some .completed, some (some .cancelled)) := by decide +kernel
  obtain ⟨p, reached, observed⟩ := Transition.reach_of_observed _ _ ran
  obtain ⟨completed, overwritten⟩ := Prod.mk.inj observed
  obtain ⟨q, moved, cancelled⟩ := Option.map_eq_some_iff.mp overwritten
  have conforms := always p reached (.resume 4 "") q (by intro runId; rintro ⟨⟩) moved
  have kept := conforms.terminal completed rfl
  rw [cancelled] at kept
  cases kept

end Pool

end Minerva
