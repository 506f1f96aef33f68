import Minerva.Services.Turns

/-! Calls that do not overlap: a method is called and its parts run one after the other until
its promise settles. Each method is then one function of the stores, given here in closed form. -/

namespace Minerva

abbrev Settlement (α : Type) := Except RunError α

/-- Resume a suspended method, at most `fuel` times, until its promise settles. `clock part` is
what the clock reads in a part; the part that runs when the method is called is part 0. -/
def runParts {π α : Type} (resume : RunManager → Int → π → Turn π α) (clock : Nat → Int) :
    Nat → Nat → RunManager → π → Option (RunManager × Settlement α)
  | 0, _, _, _ => none
  | fuel + 1, part, m, pc =>
    let turn := resume m (clock part) pc
    match turn.progress with
    | .await pc => runParts resume clock fuel (part + 1) turn.manager pc
    | .resolve value => some (turn.manager, .ok value)
    | .reject error => some (turn.manager, .error error)

def longestCall : Nat := 6

def Call.perform (m : RunManager) (random : String) (clock : Nat → Int) (request : Request) :
    Option (RunManager × Settlement (Option Run)) :=
  let (m, call) := Call.start m (clock 0) request
  runParts (fun m now call => call.resume m now random) clock longestCall 1 m call

namespace RunManager

def performTransition (m : RunManager) (clock : Nat → Int) (runId : RunId) (newState : RunState)
    (metadata : TransitionMetadata) : Option (RunManager × Settlement Run) :=
  runParts (fun m now pc => m.transitionStateResume now runId newState metadata pc) clock longestCall
    1 m (m.transitionState runId)

def performTimeout (m : RunManager) (clock : Nat → Int) (runId : RunId) :
    Option (RunManager × Settlement (Option Run)) :=
  runParts (fun m now pc => m.timeoutRunResume now runId pc) clock longestCall 1 m
    (m.timeoutRun runId)

def moved (m : RunManager) (now : Int) (runId : RunId) (newState : RunState)
    (metadata : TransitionMetadata) (run : Run) : RunManager :=
  { m with
    timeoutManager :=
      if isTerminalState newState then (m.timeoutManager.clear runId).1 else m.timeoutManager
    repo := ⟨m.repo.runs.set runId (transitionUpdates run newState now metadata run)⟩ }

def transitionNow (m : RunManager) (now : Int) (runId : RunId) (newState : RunState)
    (metadata : TransitionMetadata) : RunManager × Settlement Run :=
  match m.getRun runId with
  | none => (m, .error (.runNotFound runId))
  | some run =>
    if isValidStateTransition run.state newState then
      (m.moved now runId newState metadata run,
        .ok (transitionUpdates run newState now metadata run))
    else (m, .error (.invalidStateTransition runId run.state newState))

def createNow (m : RunManager) (now : Int) (random : String) (input : CreateRunInput) :
    RunManager × Settlement (Option Run) :=
  let run := newRun m.config now random input
  let (queue, position) := m.queue.enqueue run.id run.userId
  let run := { run with queuePosition := some position }
  ({ m with queue, repo := m.repo.create run }, .ok (some run))

def acquireNow (m : RunManager) (random : String) (clock : Nat → Int) (userId : UserId) :
    RunManager × Settlement (Option Run) :=
  match m.queue.peek userId with
  | none => (m, .ok none)
  | some nextRunId =>
    if nextRunId = "" then (m, .ok none)
    else
      match m.leaseManager.acquire (clock 1) random userId nextRunId m.config.leaseTtlMs with
      | (leaseManager, none) => ({ m with leaseManager }, .ok none)
      | (leaseManager, some lease) =>
        let m := { m with leaseManager, queue := (m.queue.dequeue userId).1 }
        match m.getRun nextRunId with
        | none => (m, .error (.runNotFound nextRunId))
        | some run =>
          let run := leasedUpdates (clock 3) lease run
          ({ m with repo := ⟨m.repo.runs.set nextRunId run⟩ }, .ok (some run))

def startNow (m : RunManager) (clock : Nat → Int) (runId : RunId) : RunManager × Settlement Run :=
  match m.transitionNow (clock 1) runId .running ⟨none, none⟩ with
  | (m, .error error) => (m, .error error)
  | (m, .ok run) =>
    ({ m with
        cancellationRegistry := m.cancellationRegistry.create runId
        timeoutManager :=
          (m.timeoutManager.schedule (clock 3) runId run.maxDurationMs .timeoutRun).1 }, .ok run)

def released (m : RunManager) (run : Run) : RunManager :=
  match truthy run.leaseToken with
  | none => m
  | some leaseToken => { m with leaseManager := m.leaseManager.release leaseToken }

/-- The part that comes after the release of the lease, which is awaited only if there is one. -/
def afterRelease (part : Nat) (run : Run) : Nat :=
  match truthy run.leaseToken with
  | none => part
  | some _ => part + 1

def signalled (m : RunManager) (runId : RunId) (reason : String) : RunManager :=
  { m with cancellationRegistry := (m.cancellationRegistry.cancel runId (some reason)).1 }

def abandonNow (m : RunManager) (clock : Nat → Int) (part : Nat) (runId : RunId) (reason : String)
    (newState : RunState) (error : String) (run : Run) : RunManager × Settlement Run :=
  ((m.released run).signalled runId reason).transitionNow (clock (afterRelease part run + 1)) runId
    newState ⟨some error, none⟩

def cancelNow (m : RunManager) (clock : Nat → Int) (runId : RunId) (reason : Option String) :
    RunManager × Settlement Run :=
  match m.getRun runId with
  | none => (m, .error (.runNotFound runId))
  | some run =>
    if isTerminalState run.state then (m, .ok run)
    else if run.state = .queued then
      { m with queue := (m.queue.remove runId).1 }.abandonNow clock 2 runId
        (reason.getD "user_cancelled") .cancelled (reason.getD "cancelled") run
    else
      m.abandonNow clock 1 runId (reason.getD "user_cancelled") .cancelled
        (reason.getD "cancelled") run

def timeoutNow (m : RunManager) (clock : Nat → Int) (runId : RunId) :
    RunManager × Settlement (Option Run) :=
  match m.getRun runId with
  | none => (m, .ok none)
  | some run =>
    if isTerminalState run.state then (m, .ok none)
    else
      match m.abandonNow clock 1 runId "timeout" .timedOut
        ("Run exceeded maximum duration of " ++ toString run.maxDurationMs ++ "ms") run with
      | (m, .ok _) => (m, .ok none)
      | (m, .error error) => (m, .error error)

def forgotten (m : RunManager) (runId : RunId) : RunManager :=
  { m with cancellationRegistry := m.cancellationRegistry.remove runId }

def endNow (m : RunManager) (clock : Nat → Int) (runId : RunId) (newState : RunState)
    (metadata : TransitionMetadata) : RunManager × Settlement Run :=
  match m.getRun runId with
  | none => (m, .error (.runNotFound runId))
  | some run =>
    ((m.released run).forgotten runId).transitionNow (clock (afterRelease 1 run + 1)) runId newState
      metadata

end RunManager

/-- The closed form of a call. -/
def Call.now (m : RunManager) (random : String) (clock : Nat → Int) :
    Request → RunManager × Settlement (Option Run)
  | .createRun random input => m.createNow (clock 0) random input
  | .acquireNextRun userId => m.acquireNow random clock userId
  | .startRun runId => (m.startNow clock runId).map id (.map some)
  | .cancelRun runId reason => (m.cancelNow clock runId reason).map id (.map some)
  | .completeRun runId finalMessages =>
    (m.endNow clock runId .completed ⟨none, finalMessages⟩).map id (.map some)
  | .failRun runId error => (m.endNow clock runId .failed ⟨some error, none⟩).map id (.map some)

section

variable {π ρ α β : Type} {clock : Nat → Int}

theorem runParts_await (resume : RunManager → Int → π → Turn π α) (fuel part : Nat)
    {m m' : RunManager} {pc next : π} {aborts : List Abort}
    (turn : resume m (clock part) pc = ⟨m', aborts, .await next⟩) :
    runParts resume clock (fuel + 1) part m pc = runParts resume clock fuel (part + 1) m' next := by
  simp only [runParts, turn]

theorem runParts_resolve (resume : RunManager → Int → π → Turn π α) (fuel part : Nat)
    {m m' : RunManager} {pc : π} {value : α} {aborts : List Abort}
    (turn : resume m (clock part) pc = ⟨m', aborts, .resolve value⟩) :
    runParts resume clock (fuel + 1) part m pc = some (m', .ok value) := by
  simp only [runParts, turn]

theorem runParts_reject (resume : RunManager → Int → π → Turn π α) (fuel part : Nat)
    {m m' : RunManager} {pc : π} {error : RunError} {aborts : List Abort}
    (turn : resume m (clock part) pc = ⟨m', aborts, .reject error⟩) :
    runParts resume clock (fuel + 1) part m pc = some (m', .error error) := by
  simp only [runParts, turn]

def Turn.wrapped (wrap : π → ρ) (result : α → β) (turn : Turn π α) : Turn ρ β :=
  match turn.progress with
  | .await pc => ⟨turn.manager, turn.aborts, .await (wrap pc)⟩
  | .resolve value => ⟨turn.manager, turn.aborts, .resolve (result value)⟩
  | .reject error => ⟨turn.manager, turn.aborts, .reject error⟩

theorem Turn.map_eq_wrapped (wrap : π → ρ) (turn : Turn π α) :
    turn.map wrap = turn.wrapped wrap id := by
  simp only [Turn.map, Turn.wrapped]
  cases turn.progress <;> rfl

theorem timeout_settle_eq_wrapped (turn : Turn AbandonPc Run) :
    RunManager.timeoutRunResume.settle turn = turn.wrapped .abandoning (fun _ => none) := by
  unfold RunManager.timeoutRunResume.settle Turn.wrapped
  cases turn.progress <;> rfl

theorem runParts_wrapped (clock : Nat → Int) (outer : RunManager → Int → ρ → Turn ρ β)
    (inner : RunManager → Int → π → Turn π α) (wrap : π → ρ) (result : α → β)
    (follows : ∀ m now pc, outer m now (wrap pc) = (inner m now pc).wrapped wrap result)
    (fuel part : Nat) (m : RunManager) (pc : π) :
    runParts outer clock fuel part m (wrap pc) =
      (runParts inner clock fuel part m pc).map (fun done => (done.1, done.2.map result)) := by
  induction fuel generalizing part m pc with
  | zero => rfl
  | succ fuel ih =>
      simp only [runParts, follows, Turn.wrapped]
      cases progress : (inner m (clock part) pc).progress with
      | await next => exact ih (part + 1) _ next
      | resolve value => rfl
      | reject error => rfl

end

section

variable (m : RunManager) (clock : Nat → Int) (runId : RunId)

theorem transition_parts (newState : RunState) (metadata : TransitionMetadata) (fuel part : Nat) :
    runParts (fun m now pc => m.transitionStateResume now runId newState metadata pc) clock
        (fuel + 3) part m (m.transitionState runId) =
      some (m.transitionNow (clock part) runId newState metadata) := by
  unfold RunManager.transitionNow RunManager.transitionState
  cases found : m.repo.runs.get runId with
  | none => simp [runParts, RunManager.transitionStateResume, RunManager.getRun,
      InMemoryRunRepository.getById, found]
  | some run =>
      by_cases valid : isValidStateTransition run.state newState = true
      · simp [runParts, RunManager.transitionStateResume, RunManager.getRun, RunManager.moved,
          InMemoryRunRepository.getById, InMemoryRunRepository.update, found, valid]
      · simp [runParts, RunManager.transitionStateResume, RunManager.getRun,
          InMemoryRunRepository.getById, found, valid]

theorem signal_parts (reason : String) (newState : RunState) (error : Run → String) (run : Run)
    (fuel part : Nat) :
    runParts (fun m now pc => m.abandonResume now runId reason newState error pc) clock (fuel + 3)
        part m (.transition run (m.transitionState runId)) =
      some (m.transitionNow (clock part) runId newState ⟨some (error run), none⟩) := by
  have inside := runParts_wrapped clock
    (fun m now pc => m.abandonResume now runId reason newState error pc)
    (fun m now pc => m.transitionStateResume now runId newState ⟨some (error run), none⟩ pc)
    (.transition run) id
    (fun _ _ _ => Turn.map_eq_wrapped _ _)
  rw [inside, transition_parts]
  simp

theorem abandon_parts {ρ β : Type} (outer : RunManager → Int → ρ → Turn ρ β) (wrap : AbandonPc → ρ)
    (result : Run → β) (pc : ρ) (reason : String) (newState : RunState) (error : Run → String)
    (run : Run) (fuel part : Nat)
    (follows : ∀ m now pc, outer m now (wrap pc) =
      (m.abandonResume now runId reason newState error pc).wrapped wrap result)
    (begins : outer m (clock part) pc = (m.abandon runId reason run).wrapped wrap result) :
    runParts outer clock (fuel + 5) part m pc =
      some ((m.abandonNow clock part runId reason newState (error run) run).map id
        (.map result)) := by
  have onwards := runParts_wrapped clock outer
    (fun m now pc => m.abandonResume now runId reason newState error pc) wrap result follows
  unfold RunManager.abandon at begins
  unfold RunManager.abandonNow RunManager.afterRelease RunManager.released
  cases token : truthy run.leaseToken with
  | none =>
      simp only [token, RunManager.signal, Turn.wrapped] at begins
      rw [runParts_await outer _ _ begins, onwards, signal_parts]
      rfl
  | some leaseToken =>
      simp only [token, Turn.wrapped] at begins
      rw [runParts_await outer _ _ begins, onwards, runParts_await _ _ _ rfl, signal_parts]
      rfl

theorem end_parts (newState : RunState) (metadata : TransitionMetadata) (fuel : Nat) :
    runParts (fun m now pc => m.endRunResume now runId newState metadata pc) clock (fuel + 5) 1 m
        (m.endRun runId) =
      some (m.endNow clock runId newState metadata) := by
  have onwards := runParts_wrapped clock
    (fun m now pc => m.endRunResume now runId newState metadata pc)
    (fun m now pc => m.transitionStateResume now runId newState metadata pc) .transition id
    (fun _ _ _ => Turn.map_eq_wrapped _ _)
  unfold RunManager.endNow RunManager.endRun RunManager.afterRelease RunManager.released
  cases found : m.getRun runId with
  | none =>
      simp only [RunManager.getRun] at found
      rw [found, runParts_reject _ _ _ rfl]
  | some run =>
      simp only [RunManager.getRun] at found
      rw [found]
      cases token : truthy run.leaseToken with
      | none =>
          have begins : m.endRunResume (clock 1) runId newState metadata (.loaded (some run)) =
              m.forget runId := by
            simp only [RunManager.endRunResume, token]
          rw [runParts_await _ _ _ begins, onwards, transition_parts]
          simp [RunManager.forgotten, token]
      | some leaseToken =>
          have begins : m.endRunResume (clock 1) runId newState metadata (.loaded (some run)) =
              ⟨{ m with leaseManager := m.leaseManager.release leaseToken }, [],
                .await .released⟩ := by
            simp only [RunManager.endRunResume, token]
          rw [runParts_await _ _ _ begins, runParts_await _ _ _ rfl, onwards, transition_parts]
          simp [RunManager.forgotten, token]

theorem start_parts (fuel : Nat) :
    runParts (fun m now pc => m.startRunResume now runId pc) clock (fuel + 4) 1 m
        (m.startRun runId) =
      some (m.startNow clock runId) := by
  unfold RunManager.startNow RunManager.transitionNow RunManager.startRun RunManager.transitionState
  cases found : m.repo.runs.get runId with
  | none => simp [runParts, RunManager.startRunResume, RunManager.transitionStateResume,
      RunManager.getRun, InMemoryRunRepository.getById, found]
  | some run =>
      by_cases valid : isValidStateTransition run.state .running = true
      · simp [runParts, RunManager.startRunResume, RunManager.transitionStateResume,
          RunManager.getRun, RunManager.moved, InMemoryRunRepository.getById,
          InMemoryRunRepository.update, found, valid]
      · simp [runParts, RunManager.startRunResume, RunManager.transitionStateResume,
          RunManager.getRun, InMemoryRunRepository.getById, found, valid]

theorem cancel_parts (reason : Option String) :
    runParts (fun m now pc => m.cancelRunResume now runId reason pc) clock longestCall 1 m
        (m.cancelRun runId) =
      some (m.cancelNow clock runId reason) := by
  have onwards := fun m pc run fuel part => abandon_parts m clock runId
    (fun m now pc => m.cancelRunResume now runId reason pc) CancelPc.abandoning id pc
    (reason.getD "user_cancelled") .cancelled (fun _ => reason.getD "cancelled") run fuel part
    (fun _ _ _ => Turn.map_eq_wrapped _ _)
  unfold RunManager.cancelNow RunManager.cancelRun
  cases found : m.getRun runId with
  | none =>
      simp only [RunManager.getRun] at found
      rw [found]
      exact runParts_reject _ _ _ rfl
  | some run =>
      simp only [RunManager.getRun] at found
      rw [found]
      by_cases terminal : isTerminalState run.state = true
      · have ends : m.cancelRunResume (clock 1) runId reason (.loaded (some run)) =
            ⟨m, [], .resolve run⟩ := if_pos terminal
        simp only [if_pos terminal]
        exact runParts_resolve _ _ _ ends
      · by_cases waiting : run.state = .queued
        · have begins : m.cancelRunResume (clock 1) runId reason (.loaded (some run)) =
              ⟨{ m with queue := (m.queue.remove runId).1 }, [], .await (.removed run)⟩ := by
            simp only [RunManager.cancelRunResume, if_neg terminal, if_pos waiting]
          simp only [if_neg terminal, if_pos waiting]
          have removed := onwards { m with queue := (m.queue.remove runId).1 } (.removed run) run 0 2
            (Turn.map_eq_wrapped _ _)
          rw [longestCall, runParts_await (fun m now pc => m.cancelRunResume now runId reason pc) _ _
            begins, removed]
          simp
        · have begins : m.cancelRunResume (clock 1) runId reason (.loaded (some run)) =
              (m.abandon runId (reason.getD "user_cancelled") run).map .abandoning := by
            simp only [RunManager.cancelRunResume, if_neg terminal, if_neg waiting]
          simp only [if_neg terminal, if_neg waiting]
          rw [longestCall, onwards _ _ run 1 1 (begins.trans (Turn.map_eq_wrapped _ _))]
          simp

theorem timeout_parts : m.performTimeout clock runId = some (m.timeoutNow clock runId) := by
  have onwards := fun m pc run fuel part => abandon_parts m clock runId
    (fun m now pc => m.timeoutRunResume now runId pc) TimeoutPc.abandoning (fun _ => none) pc
    "timeout" .timedOut
    (fun run => "Run exceeded maximum duration of " ++ toString run.maxDurationMs ++ "ms")
    run fuel part (fun _ _ _ => timeout_settle_eq_wrapped _)
  unfold RunManager.performTimeout RunManager.timeoutNow RunManager.timeoutRun
  cases found : m.getRun runId with
  | none =>
      simp only [RunManager.getRun] at found
      rw [found]
      exact runParts_resolve _ _ _ rfl
  | some run =>
      simp only [RunManager.getRun] at found
      rw [found]
      by_cases terminal : isTerminalState run.state = true
      · have ends : m.timeoutRunResume (clock 1) runId (.loaded (some run)) =
            ⟨m, [], .resolve none⟩ := if_pos terminal
        simp only [if_pos terminal]
        exact runParts_resolve (fun m now pc => m.timeoutRunResume now runId pc) _ _ ends
      · have begins : m.timeoutRunResume (clock 1) runId (.loaded (some run)) =
            RunManager.timeoutRunResume.settle (m.abandon runId "timeout" run) := if_neg terminal
        simp only [if_neg terminal]
        rw [longestCall, onwards _ _ run 1 1 (begins.trans (timeout_settle_eq_wrapped _))]
        cases m.abandonNow clock 1 runId "timeout" .timedOut
          ("Run exceeded maximum duration of " ++ toString run.maxDurationMs ++ "ms") run with
        | mk after outcome => cases outcome <;> rfl

theorem acquire_parts (random : String) (userId : UserId) (fuel : Nat) :
    runParts (fun m now pc => m.acquireNextRunResume now random userId pc) clock (fuel + 5) 1 m
        (m.acquireNextRun userId) =
      some (m.acquireNow random clock userId) := by
  unfold RunManager.acquireNow RunManager.acquireNextRun
  cases m.queue.peek userId with
  | none => exact runParts_resolve _ _ _ rfl
  | some nextRunId =>
      by_cases unnamed : nextRunId = ""
      · simp only [if_pos unnamed]
        exact runParts_resolve _ _ _ (if_pos unnamed)
      · have begins : m.acquireNextRunResume (clock 1) random userId (.peeked (some nextRunId)) =
            ⟨{ m with leaseManager := (m.leaseManager.acquire (clock 1) random userId nextRunId
                m.config.leaseTtlMs).1 }, [],
              .await (.leased nextRunId (m.leaseManager.acquire (clock 1) random userId nextRunId
                m.config.leaseTtlMs).2)⟩ := if_neg unnamed
        simp only [if_neg unnamed]
        rw [runParts_await (fun m now pc => m.acquireNextRunResume now random userId pc) _ _ begins]
        cases m.leaseManager.acquire (clock 1) random userId nextRunId m.config.leaseTtlMs with
        | mk leaseManager lease =>
            cases lease with
            | none => exact runParts_resolve _ _ _ rfl
            | some lease =>
                rw [runParts_await _ _ _ rfl]
                simp only [RunManager.getRun, InMemoryRunRepository.getById]
                cases found : m.repo.runs.get nextRunId with
                | none => simp [runParts, RunManager.acquireNextRunResume,
                    InMemoryRunRepository.update, found]
                | some run => simp [runParts, RunManager.acquireNextRunResume,
                    InMemoryRunRepository.update, InMemoryRunRepository.getById, found]

end

theorem Call.parts_of_method {π α : Type} {m : RunManager} {random : String} {clock : Nat → Int}
    {method : RunManager → Int → π → Turn π α} {wrap : π → Call} {result : α → Option Run} {pc : π}
    {done : RunManager × Settlement α}
    (follows : ∀ m now pc, Call.resume m now random (wrap pc) =
      Call.settle wrap result (method m now pc))
    (ran : runParts method clock longestCall 1 m pc = some done) :
    runParts (fun m now call => call.resume m now random) clock longestCall 1 m (wrap pc) =
      some (done.map id (.map result)) := by
  rw [runParts_wrapped clock (fun m now call => Call.resume m now random call) method wrap result
    follows,
    ran]
  rfl

/-- A call that runs with nothing in between is its closed form. -/
theorem Call.perform_eq (m : RunManager) (random : String) (clock : Nat → Int)
    (request : Request) :
    Call.perform m random clock request = some (Call.now m random clock request) := by
  cases request with
  | createRun random input =>
      simp [Call.perform, Call.start, runParts, Call.resume, Call.settle, Call.now, longestCall,
        RunManager.createRun, RunManager.createNow, RunManager.createRunResume,
        InMemoryRunRepository.update, InMemoryRunRepository.create]
  | acquireNextRun userId =>
      have parts : Call.perform m random clock (.acquireNextRun userId) = _ :=
        Call.parts_of_method (fun _ _ _ => rfl) (acquire_parts m clock random userId 1)
      exact parts.trans (by simp [Call.now])
  | startRun runId =>
      exact Call.parts_of_method (fun _ _ _ => rfl) (start_parts m clock runId 2)
  | cancelRun runId reason =>
      exact Call.parts_of_method (fun _ _ _ => rfl) (cancel_parts m clock runId reason)
  | completeRun runId finalMessages =>
      exact Call.parts_of_method (fun _ _ _ => rfl)
        (end_parts m clock runId .completed ⟨none, finalMessages⟩ 1)
  | failRun runId error =>
      exact Call.parts_of_method (fun _ _ _ => rfl)
        (end_parts m clock runId .failed ⟨some error, none⟩ 1)

end Minerva
