import Minerva.Services.Signals

namespace Minerva

namespace Call

/-- The state that a call has written and has not answered for yet. -/
def wrote (call : Call) : Option (RunId × RunState) :=
  match call.transition with
  | some (runId, newState, .updated) => some (runId, newState)
  | some (runId, newState, .reloaded _) => some (runId, newState)
  | _ => none

def cancelState : Call → RunState
  | .timeoutRun _ _ => .timedOut
  | _ => .cancelled

variable {m : RunManager} {call : Call} {runId : RunId} {newState : RunState}

theorem wrote_eq_some (wrote : call.wrote = some (runId, newState)) :
    call.transition = some (runId, newState, .updated) ∨
      ∃ run, call.transition = some (runId, newState, .reloaded run) := by
  unfold Call.wrote at wrote
  split at wrote
  · rename_i inside
    cases wrote
    exact .inl inside
  · rename_i run inside
    cases wrote
    exact .inr ⟨run, inside⟩
  · cases wrote

theorem wrote_of_updated (inside : call.transition = some (runId, newState, .updated)) :
    call.wrote = some (runId, newState) := by
  rw [wrote, inside]

theorem wrote_of_reloaded {run : Run}
    (inside : call.transition = some (runId, newState, .reloaded run)) :
    call.wrote = some (runId, newState) := by
  rw [wrote, inside]

theorem transition_goes (now : Int) (random : String) {pc next : TransitionPc}
    (inside : call.transition = some (runId, newState, pc))
    (awaits : ∀ metadata,
      (m.transitionStateResume now runId newState metadata pc).progress = .await next) :
    ∃ after, pending (call.resume m now random) = some after ∧
      after.transition = some (runId, newState, next) := by
  unfold transition at inside
  split at inside <;> cases inside
  · refine ⟨.startRun runId (.transition next), ?_, rfl⟩
    simp only [resume, pending_settle, RunManager.startRunResume, awaits]
    exact ⟨_, rfl, rfl⟩
  · rename_i reason run
    refine ⟨.cancelRun runId reason (.abandoning (.transition run next)), ?_, rfl⟩
    simp only [resume, pending_settle, RunManager.cancelRunResume, RunManager.abandonResume,
      Turn.map, awaits]
    exact ⟨_, rfl, rfl⟩
  · rename_i run
    refine ⟨.timeoutRun runId (.abandoning (.transition run next)), ?_, rfl⟩
    simp only [resume, pending_settle, RunManager.timeoutRunResume, timeout_settle_await,
      RunManager.abandonResume, Turn.map, awaits]
    exact ⟨_, ⟨_, rfl, rfl⟩, rfl⟩
  · rename_i finalMessages
    refine ⟨.completeRun runId finalMessages (.transition next), ?_, rfl⟩
    simp only [resume, pending_settle, RunManager.completeRunResume, RunManager.endRunResume,
      Turn.map, awaits]
    exact ⟨_, rfl, rfl⟩
  · rename_i error
    refine ⟨.failRun runId error (.transition next), ?_, rfl⟩
    simp only [resume, pending_settle, RunManager.failRunResume, RunManager.endRunResume,
      Turn.map, awaits]
    exact ⟨_, rfl, rfl⟩

theorem wrote_next (m : RunManager) (now : Int) (random : String) {stored : Run}
    (wrote : call.wrote = some (runId, newState)) (terminal : isTerminalState newState = true)
    (spoken : newState ≠ .timedOut) (found : m.getRun runId = some stored) :
    (∃ next, pending (call.resume m now random) = some next ∧
        next.wrote = some (runId, newState)) ∨
      ∃ run, call.transition = some (runId, newState, .reloaded run) ∧
        (call.resume m now random).progress = .resolve (some run) := by
  rcases wrote_eq_some wrote with inside | ⟨run, inside⟩
  · left
    have got : m.repo.getById runId = some stored := found
    have awaits (metadata : TransitionMetadata) :
        (m.transitionStateResume now runId newState metadata .updated).progress =
          .await (.reloaded stored) := by
      simp only [RunManager.transitionStateResume, got]
    obtain ⟨next, goes, after⟩ := transition_goes now random inside awaits
    exact ⟨next, goes, wrote_of_reloaded after⟩
  · right
    refine ⟨run, inside, ?_⟩
    unfold transition at inside
    split at inside <;> cases inside
    · cases terminal
    · rfl
    · exact absurd rfl spoken
    · rfl
    · rfl

theorem wrote_of_write (m : RunManager) (now : Int) (random : String) {before : RunState}
    (writes : call.write = some (runId, newState)) (other : newState ≠ .leased)
    (stored : m.stateOf runId = some before) :
    ∃ next, pending (call.resume m now random) = some next ∧
      next.wrote = some (runId, newState) := by
  rcases write_eq_some writes with ⟨userId, lease, -, leased⟩ | ⟨run, inside, valid⟩
  · exact absurd leased other
  · obtain ⟨held, found, -⟩ := Option.map_eq_some_iff.mp stored
    have got : m.repo.runs.get runId = some held := found
    have awaits (metadata : TransitionMetadata) :
        (m.transitionStateResume now runId newState metadata (.loaded (some run))).progress =
          .await .updated := by
      simp only [RunManager.transitionStateResume, if_pos valid, InMemoryRunRepository.update, got]
    obtain ⟨next, goes, after⟩ := transition_goes now random inside awaits
    exact ⟨next, goes, wrote_of_updated after⟩

theorem wrote_before {now : Int} {random : String} {next : Call}
    (goes : pending (call.resume m now random) = some next)
    (wrote : next.wrote = some (runId, newState)) :
    (call.write = some (runId, newState) ∧ ∃ before, m.stateOf runId = some before) ∨
      call.wrote = some (runId, newState) := by
  have step {pc : TransitionPc} (inside : next.transition = some (runId, newState, pc))
      (late : ∀ run, pc ≠ .loaded run) :
      (call.write = some (runId, newState) ∧ ∃ before, m.stateOf runId = some before) ∨
        call.wrote = some (runId, newState) := by
    rcases transition_next goes inside with ⟨-, -, read⟩ | ⟨before, metadata, earlier, awaits⟩
    · exact absurd read (late _)
    · rcases transition_await awaits with ⟨run, stored, rfl, valid, found, -⟩ | ⟨stored, rfl, -, -⟩
      · refine .inl ⟨write_of_transition earlier valid, stored.state, ?_⟩
        rw [RunManager.stateOf, found]
        rfl
      · exact .inr (wrote_of_updated earlier)
  rcases wrote_eq_some wrote with inside | ⟨run, inside⟩
  · exact step inside (by simp)
  · exact step inside (by simp)

theorem reloaded_before {now : Int} {random : String} {next : Call} {run : Run}
    (goes : pending (call.resume m now random) = some next)
    (inside : next.transition = some (runId, newState, .reloaded run)) :
    call.wrote = some (runId, newState) ∧ m.getRun runId = some run := by
  rcases transition_next goes inside with ⟨-, -, read⟩ | ⟨before, metadata, earlier, awaits⟩
  · cases read
  · rcases transition_await awaits with ⟨_, _, -, -, -, impossible⟩ | ⟨stored, rfl, found, same⟩
    · cases impossible
    · cases same
      exact ⟨wrote_of_updated earlier, found⟩

theorem wrote_start (m : RunManager) (now : Int) (request : Request) :
    (start m now request).2.wrote = none := by
  cases request <;> rfl

theorem cancelState_terminal (call : Call) : isTerminalState call.cancelState = true := by
  unfold cancelState
  split <;> rfl

theorem cancelState_next (m : RunManager) (now : Int) (random : String) {reason : String}
    (cancels : call.cancels = some (runId, reason)) :
    call.write = none ∧ ∃ next, pending (call.resume m now random) = some next ∧
      next.transition = some (runId, call.cancelState, .loaded (m.getRun runId)) := by
  have entered {next : Call} {state : RunState}
      (goes : pending (call.resume m now random) = some next)
      (inside : next.transition = some (runId, state, .loaded (m.getRun runId))) :
      call.write = none := by
    rcases transition_next goes inside with ⟨-, silent, -⟩ | ⟨before, metadata, -, awaits⟩
    · exact silent
    · rcases transition_await awaits with ⟨_, _, -, -, -, impossible⟩ | ⟨_, -, -, impossible⟩
      · cases impossible
      · cases impossible
  obtain ⟨next, goes, ⟨given, pc, rfl, -, inside⟩ | ⟨pc, rfl, -, inside⟩⟩ :=
    cancels_next m now random cancels
  · exact ⟨entered goes inside, next, goes, inside⟩
  · exact ⟨entered goes inside, next, goes, inside⟩

theorem write_of_loaded {state : RunState} (stored : m.stateOf runId = some state)
    (inside : call.transition = some (runId, newState, .loaded (m.getRun runId))) :
    call.write = some (runId, newState) ↔ isValidStateTransition state newState = true := by
  obtain ⟨run, found, rfl⟩ := Option.map_eq_some_iff.mp stored
  rw [found] at inside
  constructor
  · intro writes
    rcases write_eq_some writes with ⟨userId, lease, rfl, -⟩ | ⟨run', again, valid⟩
    · cases inside
    · rw [inside] at again
      cases again
      exact valid
  · exact write_of_transition inside

end Call

def KeepsTerminal (m : RunManager) (resumed : Option (Nat × Call)) : Prop :=
  ∀ id call runId newState state, resumed = some (id, call) →
    call.write = some (runId, newState) → m.stateOf runId = some state →
      isTerminalState state = true → state = newState

/-- What the calls know of the terminal states they have written or read. -/
structure Settled (m : RunManager) (p : Pending) : Prop where
  filed : ∀ runId run, m.getRun runId = some run → run.id = runId
  wrote : ∀ id call runId state, p id = some call → call.wrote = some (runId, state) →
    isTerminalState state = true → m.stateOf runId = some state
  read : ∀ id call runId state run, p id = some call →
    call.transition = some (runId, state, .reloaded run) → isTerminalState state = true →
      run.id = runId ∧ run.state = state
  opened : ∀ id runId reason run, p id = some (.cancelRun runId reason (.loaded (some run))) →
    isTerminalState run.state = true → run.id = runId ∧ m.stateOf runId = some run.state

theorem Settled.init (config : RunManagerConfig) :
    Settled (RunManager.init config) (fun _ => none) := by
  constructor
  · intro runId run found
    cases found
  · intro id call runId state found
    cases found
  · intro id call runId state run found
    cases found
  · intro id runId reason run found
    cases found

variable {now : Int} {m m' : RunManager} {p p' : Pending} {resumed : Option (Nat × Call)}

/-- A terminal state stays. -/
theorem CallStep.final (step : CallStep now m p resumed m' p') (keeps : KeepsTerminal m resumed)
    {runId : RunId} {state : RunState} (stored : m.stateOf runId = some state)
    (terminal : isTerminalState state = true) : m'.stateOf runId = some state := by
  cases resumed with
  | none => exact step.keeps_stateOf stored
  | some resuming =>
      cases step with
      | resume id call random found =>
          rcases (Call.resume_effect m now random call).stateOf runId with same |
            ⟨before, newState, -, writes, after⟩
          · exact same.trans stored
          · have kept := keeps id call runId newState state rfl writes stored terminal
            rw [kept]
            exact after

theorem CallStep.settled (step : CallStep now m p resumed m' p') (keeps : KeepsTerminal m resumed)
    (held : Settled m p) : Settled m' p' := by
  have final {runId : RunId} {state : RunState} (stored : m.stateOf runId = some state)
      (terminal : isTerminalState state = true) : m'.stateOf runId = some state :=
    step.final keeps stored terminal
  refine ⟨step.own_ids held.filed, ?_, ?_, ?_⟩
  · intro id' call' runId state found wrote terminal
    cases step.origin found with
    | stays _ _ _ found other =>
        exact final (held.wrote id' call' runId state found wrote terminal) terminal
    | begins request free fresh =>
        rw [Call.wrote_start] at wrote
        cases wrote
    | goes before random _ got goes =>
        rcases Call.wrote_before goes wrote with ⟨writes, state', stored⟩ | earlier
        · exact Call.resume_writes m now random before runId state' state writes stored
        · exact final (held.wrote id' before runId state got earlier terminal) terminal
    | fires runId' timeoutManager free => cases wrote
  · intro id' call' runId state run found inside terminal
    cases step.origin found with
    | stays _ _ _ found other => exact held.read id' call' runId state run found inside terminal
    | begins request free fresh =>
        have wrote := Call.wrote_of_reloaded inside
        rw [Call.wrote_start] at wrote
        cases wrote
    | goes before random _ got goes =>
        obtain ⟨wrote, stored⟩ := Call.reloaded_before goes inside
        have written := held.wrote id' before runId state got wrote terminal
        rw [RunManager.stateOf, stored] at written
        exact ⟨held.filed runId run stored, Option.some.inj written⟩
    | fires runId' timeoutManager free => cases inside
  · intro id' runId reason run found terminal
    generalize read : Call.cancelRun runId reason (.loaded (some run)) = call' at found
    cases step.origin found with
    | stays _ _ _ found other =>
        subst read
        obtain ⟨same, stored⟩ := held.opened id' runId reason run found terminal
        exact ⟨same, final stored terminal⟩
    | begins request free fresh =>
        have stored : m.getRun runId = some run := by
          cases request <;> simp only [Call.start, RunManager.cancelRun, Call.cancelRun.injEq,
            CancelPc.loaded.injEq, reduceCtorEq] at read
          obtain ⟨rfl, -, read⟩ := read
          exact read.symm
        refine ⟨held.filed runId run stored, final ?_ terminal⟩
        rw [RunManager.stateOf, stored]
        rfl
    | goes before random _ got goes =>
        subst read
        obtain ⟨pc, rfl, awaits⟩ := Call.pending_cancelRun goes
        rcases Call.cancel_await awaits with ⟨_, -, -, impossible⟩ | ⟨_, _, -, impossible, -⟩ |
          ⟨_, _, -, impossible, -⟩ <;> cases impossible
    | fires runId' timeoutManager free => cases read

def Timing (p : Pending) (runId : RunId) : Prop :=
  ∃ id call, p id = some call ∧ call.write = some (runId, .timedOut)

/-- Only a timeout that gives its signal while the run is RUNNING comes to write TIMED_OUT. -/
theorem CallStep.timing (step : CallStep now m p resumed m' p') {runId : RunId}
    (times : Timing p' runId) :
    Timing p runId ∨ ∃ id call reason, resumed = some (id, call) ∧
      call.cancels = some (runId, reason) ∧ call.cancelState = .timedOut ∧
        m.stateOf runId = some .running := by
  obtain ⟨id', call', found, writes⟩ := times
  have doomed := Call.dooms_of_write writes (.inr rfl)
  cases step.origin found with
  | stays _ _ _ found other => exact .inl ⟨id', call', found, writes⟩
  | begins request free fresh =>
      rw [Call.dooms_start] at doomed
      cases doomed
  | goes call random _ got goes =>
      right
      obtain ⟨reason, cancels⟩ := Call.dooms_next goes doomed
      obtain ⟨-, next, goes', inside⟩ := Call.cancelState_next m now random cancels
      rw [goes] at goes'
      cases goes'
      rcases Call.write_eq_some writes with ⟨userId, lease, -, impossible⟩ | ⟨run, again, valid⟩
      · cases impossible
      · rw [inside] at again
        obtain ⟨-, timed, read⟩ : runId = runId ∧ call.cancelState = .timedOut ∧
            TransitionPc.loaded (m.getRun runId) = .loaded (some run) := by
          simpa using again
        refine ⟨id', call, reason, rfl, cancels, timed, ?_⟩
        have stored : m.getRun runId = some run := TransitionPc.loaded.inj read
        rw [RunManager.stateOf, stored]
        exact congrArg some (running_of_timeout run.state valid)
  | fires runId' timeoutManager free => cases writes

end Minerva
