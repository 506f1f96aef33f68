import Minerva.Runtime.Leaving

/-! The promises that nobody awaits: the `processUserQueue` loop that `createRun` starts and the
callback that a timer starts. What they do not catch ends the process. -/

namespace Minerva

instance (run : Run) : Decidable run.Stopped := inferInstanceAs (Decidable (_ ∨ _))

/-- What the third-party code that runs inside of a turn does besides answering. -/
structure ThirdParty where
  /-- `agent.abort()` throws -/
  abortThrows : Bool
  /-- what was thrown has no text, which `enhanceProviderError` does not expect -/
  textless : Bool
  deriving DecidableEq

def ThirdParty.quiet : ThirdParty := ⟨false, false⟩

namespace Call

def rejects (m : RunManager) (now : Int) (random : String) (call : Call) : Bool :=
  match (call.resume m now random).progress with
  | .reject _ => true
  | _ => false

def resolves (m : RunManager) (now : Int) (random : String) (call : Call) : Bool :=
  match (call.resume m now random).progress with
  | .resolve _ => true
  | _ => false

/-- The run that `timeoutRun` is about to refuse to time out. -/
def overdue : Call → Option RunId
  | .timeoutRun runId (.abandoning (.transition _ (.loaded (some run)))) =>
    if isValidStateTransition run.state .timedOut then none else some runId
  | _ => none

def Loaded (m : RunManager) : Call → Prop
  | .timeoutRun _ (.loaded none) => True
  | .timeoutRun _ (.abandoning (.transition _ (.loaded none))) => False
  | .timeoutRun runId _ => ∃ userId, m.userOf runId = some userId
  | _ => True

theorem rejects_iff (m : RunManager) (now : Int) (random : String) (call : Call) :
    call.rejects m now random = true ↔
      ∃ error, (call.resume m now random).progress = .reject error := by
  unfold rejects
  cases (call.resume m now random).progress <;> simp

theorem resolves_iff (m : RunManager) (now : Int) (random : String) (call : Call) :
    call.resolves m now random = true ↔
      ∃ answer, (call.resume m now random).progress = .resolve answer := by
  unfold resolves
  cases (call.resume m now random).progress <;> simp

theorem Loaded.mono {m m' : RunManager} {call : Call} (loaded : call.Loaded m)
    (kept : ∀ runId userId, m.userOf runId = some userId → m'.userOf runId = some userId) :
    call.Loaded m' := by
  unfold Loaded at loaded ⊢
  split at loaded
  · trivial
  · exact loaded
  · obtain ⟨userId, user⟩ := loaded
    exact ⟨userId, kept _ userId user⟩
  · trivial

theorem getRun_of_userOf {m : RunManager} {runId : RunId} {userId : UserId}
    (user : m.userOf runId = some userId) : ∃ run, m.getRun runId = some run := by
  obtain ⟨run, found, -⟩ := Option.map_eq_some_iff.mp user
  exact ⟨run, found⟩

theorem loaded_next {m : RunManager} {now : Int} {random : String} {call next : Call}
    (loaded : call.Loaded m) (goes : pending (call.resume m now random) = some next) :
    next.Loaded m := by
  cases next with
  | timeoutRun runId pc =>
      obtain ⟨before, rfl, awaits⟩ := pending_timeoutRun goes
      rcases timeout_await awaits with ⟨run, inner, rfl, -, rfl, step⟩ | ⟨inner, last, rfl, rfl, step⟩
      · have stored : ∃ userId, m.userOf _ = some userId := loaded
        rcases abandon_await step with ⟨-, rfl⟩ | ⟨-, rfl⟩
        · obtain ⟨userId, user⟩ := stored
          obtain ⟨read, found⟩ := getRun_of_userOf user
          rw [found]
          exact ⟨userId, user⟩
        · exact stored
      · rcases abandon_resume_await step with ⟨run, rfl, rfl⟩ | ⟨run, before, after, rfl, rfl, deep⟩
        · obtain ⟨userId, user⟩ : ∃ userId, m.userOf _ = some userId := loaded
          obtain ⟨read, found⟩ := getRun_of_userOf user
          rw [found]
          exact ⟨userId, user⟩
        · rcases transition_await deep with ⟨read, held, rfl, -, -, rfl⟩ | ⟨held, rfl, -, rfl⟩
          · exact loaded
          · exact loaded
  | _ => trivial

/-- `timeoutRun` throws exactly where the state that it reads last does not admit TIMED_OUT. -/
theorem timeout_rejects_iff {m : RunManager} (now : Int) (random : String) {runId : RunId}
    {pc : TimeoutPc} (loaded : (Call.timeoutRun runId pc).Loaded m) :
    (Call.timeoutRun runId pc).rejects m now random = true ↔
      (Call.timeoutRun runId pc).overdue ≠ none := by
  rw [rejects_iff]
  constructor
  · rintro ⟨error, throws⟩
    have rejected := (settle_reject _ _ _ _).mp throws
    cases pc with
    | loaded run =>
        cases run with
        | none => cases rejected
        | some run =>
            simp only [RunManager.timeoutRunResume] at rejected
            split at rejected
            · cases rejected
            · unfold RunManager.abandon at rejected
              split at rejected <;> cases rejected
    | abandoning inner =>
        cases inner with
        | released run => cases rejected
        | transition run place =>
            simp only [RunManager.timeoutRunResume, RunManager.timeoutRunResume.settle,
              RunManager.abandonResume, Turn.map] at rejected
            have deep : ∃ error metadata, (m.transitionStateResume now runId .timedOut metadata
                place).progress = .reject error := by
              split at rejected
              · cases rejected
              · cases rejected
              · rename_i error' thrown
                exact ⟨error', _, (Progress.map_reject _ _ _).mp thrown⟩
            obtain ⟨error', metadata, thrown⟩ := deep
            rcases transition_reject thrown with rfl | missing | ⟨read, rfl, invalid⟩
            · exact absurd loaded id
            · have stored : ∃ userId, m.userOf runId = some userId := by
                unfold Loaded at loaded
                split at loaded
                · rename_i impossible
                  cases impossible
                · exact absurd loaded id
                · rename_i same
                  cases same
                  exact loaded
                · rename_i unlike
                  exact absurd rfl (unlike _ _)
              obtain ⟨userId, user⟩ := stored
              obtain ⟨run', found⟩ := getRun_of_userOf user
              rw [missing] at found
              cases found
            · simp [overdue, invalid]
  · intro late
    unfold overdue at late
    split at late
    · rename_i id' snapshot read same
      cases same
      by_cases valid : isValidStateTransition read.state .timedOut = true
      · rw [if_pos valid] at late
        exact absurd rfl late
      · refine ⟨.invalidStateTransition runId read.state .timedOut, (settle_reject _ _ _ _).mpr ?_⟩
        simp only [RunManager.timeoutRunResume, RunManager.abandonResume,
          RunManager.transitionStateResume, if_neg valid]
        rfl
    · exact absurd rfl late

end Call

def TimeoutsLoaded (m : RunManager) (p : Pending) : Prop :=
  ∀ id call, p id = some call → call.Loaded m

theorem CallStep.timeoutsLoaded {now : Int} {m m' : RunManager} {p p' : Pending}
    {resumed : Option (Nat × Call)} (step : CallStep now m p resumed m' p')
    (loaded : TimeoutsLoaded m p) : TimeoutsLoaded m' p' := by
  have kept (runId : RunId) (userId : UserId) (user : m.userOf runId = some userId) :
      m'.userOf runId = some userId := step.userOf user
  intro id' call' found
  cases step.origin found with
  | stays _ _ _ found other => exact (loaded id' call' found).mono kept
  | begins request free fresh => cases request <;> trivial
  | goes before random _ got goes => exact (Call.loaded_next (loaded id' before got) goes).mono kept
  | fires runId timeoutManager free =>
      cases stored : m.getRun runId with
      | none =>
          have read : m.timeoutRun runId = .loaded none := congrArg TimeoutPc.loaded stored
          rw [read]
          trivial
      | some run =>
          have read : m.timeoutRun runId = .loaded (some run) := congrArg TimeoutPc.loaded stored
          rw [read]
          exact ⟨run.userId, by simp only [RunManager.userOf]; exact congrArg _ stored⟩

/-- Whether the turn that resumes the loop or the timeout of a task makes its promise reject. The
loop passes on what `acquireNextRun` and `executeRun` throw, and `executeRun` what is thrown in its
`catch` and `finally` blocks. -/
def RunExecutionService.throws (s : RunExecutionService) (random : String) (others : ThirdParty) :
    Task → Bool
  | .calling (.acquire _) call => call.rejects s.runManager s.now random
  | .calling (.complete _ _ listening) call =>
    call.resolves s.runManager s.now random && !listening && others.abortThrows
  | .calling (.fail _ _ agent listening) call =>
    call.rejects s.runManager s.now random ||
      (call.resolves s.runManager s.now random && agent && !listening && others.abortThrows)
  | .calling .timeout call => call.rejects s.runManager s.now random
  | .executing _ _ (.finished listening _ (some latestRun)) =>
    decide latestRun.Stopped && !listening && others.abortThrows
  | .executing _ _ (.caught agent listening _ none) => agent && !listening && others.abortThrows
  | .executing _ _ (.caught agent listening _ (some latestRun)) =>
    if latestRun.Stopped then agent && !listening && others.abortThrows else others.textless
  | .executeFailed _ => true
  | _ => false

def EndPc.last : EndPc → Bool
  | .transition (.reloaded _) => true
  | _ => false

namespace Task

/-- The turn that resumes the task ends an `executeRun` that has constructed its agent and not
installed the listener, so that its `finally` aborts the agent. -/
def abandonsAgent : Task → Bool
  | .calling (.complete _ _ listening) (.completeRun _ _ pc) => pc.last && !listening
  | .calling (.fail _ _ agent listening) (.failRun _ _ pc) => pc.last && agent && !listening
  | .executing _ _ (.finished listening _ (some latestRun)) =>
    decide latestRun.Stopped && !listening
  | .executing _ _ (.caught agent listening _ latestRun) =>
    latestRun.all (fun run => decide run.Stopped) && agent && !listening
  | _ => false

def enhancesError : Task → Bool
  | .executing _ _ (.caught _ _ _ (some latestRun)) => !decide latestRun.Stopped
  | _ => false

/-- No `failRun` and no `timeoutRun` has read a state that it refuses, and the third-party code
does not throw where it is not expected to. -/
def Handled (others : ThirdParty) (task : Task) : Prop :=
  (∀ call ∈ task.call, call.misses = none ∧ call.overdue = none) ∧
    (task.abandonsAgent = true → others.abortThrows = false) ∧
    (task.enhancesError = true → others.textless = false)

instance (others : ThirdParty) (task : Task) : Decidable (task.Handled others) :=
  inferInstanceAs (Decidable ((∀ call ∈ task.call, _ ∧ _) ∧ (_ → _) ∧ (_ → _)))

end Task

namespace Runtime

def resumedTask (w : Runtime) : Label → Option Task
  | .resume id _ => w.tasks.get id
  | _ => none

def Rejects (w : Runtime) (label : Label) (others : ThirdParty) : Prop :=
  ∃ id random task, label = .resume id random ∧ w.tasks.get id = some task ∧
    w.service.throws random others task = true

/-- A step with what the third-party code does in it. After a rejection the process is gone, so
that only the steps before it matter. -/
def turn (w : Runtime) (happens : Label × ThirdParty) : Option Runtime := w.step happens.1

def Handled (w : Runtime) (happens : Label × ThirdParty) : Prop :=
  w.FreshRun happens.1 ∧ ∀ task ∈ w.resumedTask happens.1, task.Handled happens.2

instance (w : Runtime) (happens : Label × ThirdParty) : Decidable (w.Handled happens) :=
  inferInstanceAs (Decidable (_ ∧ ∀ task ∈ w.resumedTask happens.1, _))

variable {w w' : Runtime} {label : Label} {id : Nat}

theorem Serial.acquire_resolves (serial : w.Serial) {userId : UserId} {call : Call}
    (found : w.tasks.get id = some (.calling (.acquire userId) call)) (random : String) :
    call.rejects w.service.runManager w.service.now random = false ∧
      call.misses = none ∧ call.overdue = none := by
  obtain ⟨pc, rfl, pending⟩ := serial.acquiring found
  refine ⟨?_, rfl, rfl⟩
  by_contra throws
  obtain ⟨error, rejects⟩ := (Call.rejects_iff _ _ _ _).mp (by simpa using throws)
  obtain ⟨runId, lease, rfl, missing⟩ := Call.acquire_reject ((Call.settle_reject _ _ _ _).mp rejects)
  have user := (serial.queues.lanes.named id _ userId runId pending (.inr rfl)).1
  rw [RunManager.userOf, missing] at user
  cases user

theorem Serial.fail_rejects_iff (serial : w.Serial) {userId : UserId} {run : Run}
    {agent listening : Bool} {call : Call}
    (found : w.tasks.get id = some (.calling (.fail userId run agent listening) call))
    (random : String) :
    call.rejects w.service.runManager w.service.now random = true ↔ call.misses ≠ none := by
  rw [Call.rejects_iff]
  constructor
  · rintro ⟨error, throws⟩
    rw [(serial.fails found throws).1]
    simp
  · intro missed
    unfold Call.misses at missed
    split at missed
    · rename_i runId error read
      by_cases valid : isValidStateTransition read.state .failed = true
      · rw [if_pos valid] at missed
        exact absurd rfl missed
      · refine ⟨.invalidStateTransition runId read.state .failed,
          (Call.settle_reject _ _ _ _).mpr ?_⟩
        simp only [RunManager.failRunResume, RunManager.endRunResume,
          RunManager.transitionStateResume, if_neg valid]
        rfl
    · exact absurd rfl missed

theorem ends_resolves (m : RunManager) (now : Int) (random : String) (runId : RunId)
    (finalMessages : Option (List Json)) (error : String) (pc : EndPc) :
    (Call.completeRun runId finalMessages pc).resolves m now random = pc.last ∧
      (Call.failRun runId error pc).resolves m now random = pc.last := by
  have only (wrap : EndPc → Call) (newState : RunState) (metadata : TransitionMetadata)
      (answer : Option Run) (other : pc.last = false) :
      (Call.settle wrap some (m.endRunResume now runId newState metadata pc)).progress ≠
        .resolve answer := by
    intro resolves
    obtain ⟨run, answers, -⟩ := (Call.settle_resolve _ _ _ _).mp resolves
    rw [Call.end_resolve answers] at other
    cases other
  cases last : pc.last with
  | true =>
      unfold EndPc.last at last
      split at last
      · exact ⟨rfl, rfl⟩
      · cases last
  | false =>
      constructor
      · rw [← Bool.not_eq_true, Call.resolves_iff]
        rintro ⟨answer, resolves⟩
        exact only _ .completed ⟨none, finalMessages⟩ answer last resolves
      · rw [← Bool.not_eq_true, Call.resolves_iff]
        rintro ⟨answer, resolves⟩
        exact only _ .failed ⟨some error, none⟩ answer last resolves

/-- A turn of a background task throws exactly where the task is not handled. -/
theorem Serial.throws_iff (serial : w.Serial)
    (loaded : TimeoutsLoaded w.service.runManager w.pending) {task : Task}
    (found : w.tasks.get id = some task) (going : ∀ userId, task ≠ .executeFailed userId)
    (random : String) (others : ThirdParty) :
    w.service.throws random others task = true ↔ ¬task.Handled others := by
  cases task with
  | calling frame call =>
      have fit := serial.loops.fits id frame call found
      have pending := (w.pending_eq_some id call).mpr ⟨_, found⟩
      cases frame with
      | createRun =>
          cases call <;> simp only [Frame.Fits] at fit
          simp [RunExecutionService.throws, Task.Handled, Task.call, Call.misses, Call.overdue,
            Task.abandonsAgent, Task.enhancesError]
      | cancelRun reason =>
          cases call <;> simp only [Frame.Fits] at fit
          simp [RunExecutionService.throws, Task.Handled, Task.call, Call.misses, Call.overdue,
            Task.abandonsAgent, Task.enhancesError]
      | acquire userId =>
          obtain ⟨resolves, hit, early⟩ := serial.acquire_resolves found random
          simp [RunExecutionService.throws, resolves, Task.Handled, Task.call, hit, early,
            Task.abandonsAgent, Task.enhancesError]
      | start userId run workspaceId =>
          cases call <;> simp only [Frame.Fits] at fit
          simp [RunExecutionService.throws, Task.Handled, Task.call, Call.misses, Call.overdue,
            Task.abandonsAgent, Task.enhancesError]
      | complete userId run listening =>
          cases call <;> simp only [Frame.Fits] at fit
          rename_i runId finalMessages pc
          have answers := (ends_resolves w.service.runManager w.service.now random runId
            finalMessages "" pc).1
          simp [RunExecutionService.throws, answers, Task.Handled, Task.call, Call.misses,
            Call.overdue, Task.abandonsAgent, Task.enhancesError, and_assoc]
      | fail userId run agent listening =>
          have rejected := serial.fail_rejects_iff found random
          cases call <;> simp only [Frame.Fits] at fit
          rename_i runId error pc
          have answers := (ends_resolves w.service.runManager w.service.now random runId none error
            pc).2
          simp only [RunExecutionService.throws, Bool.or_eq_true, rejected, answers]
          simp [Task.Handled, Task.call, Call.overdue, Task.abandonsAgent, Task.enhancesError,
            and_assoc, imp_iff_not_or]
      | timeout =>
          cases call <;> simp only [Frame.Fits] at fit
          have late := Call.timeout_rejects_iff w.service.now random (loaded id _ pending)
          simp only [RunExecutionService.throws, late]
          simp [Task.Handled, Task.call, Call.misses, Task.abandonsAgent, Task.enhancesError]
  | executing userId run pc =>
      cases pc with
      | finished listening messages latestRun =>
          cases latestRun <;> simp [RunExecutionService.throws, Task.Handled, Task.call,
            Task.abandonsAgent, Task.enhancesError, and_assoc]
      | caught agent listening error latestRun =>
          cases latestRun with
          | none =>
              simp [RunExecutionService.throws, Task.Handled, Task.call, Task.abandonsAgent,
                Task.enhancesError, and_assoc]
          | some latestRun =>
              by_cases stopped : latestRun.Stopped
              · simp [RunExecutionService.throws, Task.Handled, Task.call, Task.abandonsAgent,
                  Task.enhancesError, stopped, and_assoc]
              · simp [RunExecutionService.throws, Task.Handled, Task.call, Task.abandonsAgent,
                  Task.enhancesError, stopped]
      | _ =>
          simp [RunExecutionService.throws, Task.Handled, Task.call, Task.abandonsAgent,
            Task.enhancesError]
  | executeFailed userId => exact absurd rfl (going userId)
  | _ =>
      simp [RunExecutionService.throws, Task.Handled, Task.call, Task.abandonsAgent,
        Task.enhancesError]

/-- Only a `failRun` that throws leaves an `executeRun` that has thrown. -/
theorem Moves.failed (moves : w.Moves label id w') {userId : UserId}
    (failed : w'.tasks.get id = some (.executeFailed userId)) :
    ∃ run agent listening call random error,
      w.tasks.get id = some (.calling (.fail userId run agent listening) call) ∧
        (call.resume w.service.runManager w.service.now random).progress = .reject error := by
  have move := moves.move
  rw [failed] at move
  generalize w.tasks.get id = old at move ⊢
  generalize w'.service = after at move
  generalize left : some (Task.executeFailed userId) = new at move
  cases move with
  | resolves frame call random run answers =>
      unfold RunExecutionService.resolved RunExecutionService.processUserQueue at left
      split at left
      · split at left <;> cases left
      · split at left <;> cases left
      all_goals cases left
  | rejects frame call random error throws =>
      unfold RunExecutionService.rejected at left
      split at left <;> cases left
      exact ⟨_, _, _, call, random, _, rfl, throws⟩
  | replied looping run pc reply outcome answer =>
      obtain ⟨-, task, after, -, runs⟩ := RunExecutionService.replied_task answer
      rw [← left] at after
      cases after
      cases runs
  | continued looping run pc outcome goes =>
      obtain ⟨-, task, after, -, runs | rfl⟩ := RunExecutionService.executeResume_task goes
      · rw [← left] at after
        cases after
        cases runs
      · rw [← left] at after
        cases after
  | _ => cases left

structure Quiet (w : Runtime) : Prop where
  serial : w.Serial
  loaded : TimeoutsLoaded w.service.runManager w.pending
  going : ∀ id userId, w.tasks.get id ≠ some (.executeFailed userId)

theorem Moves.quiet (moves : w.Moves label id w') {others : ThirdParty}
    (handled : w.Handled (label, others)) (quiet : w.Quiet) : w'.Quiet := by
  refine ⟨moves.serial quiet.serial, ?_, ?_⟩
  · apply moves.keeps TimeoutsLoaded quiet.loaded
    · intro call m' p' resumed step
      exact step.timeoutsLoaded quiet.loaded
    · intro m p m' p' step held
      exact step.timeoutsLoaded held
  · intro other userId failed
    by_cases here : other = id
    · subst here
      obtain ⟨run, agent, listening, call, random, error, found, throws⟩ := moves.failed failed
      have missed := (quiet.serial.fails found throws).1
      have resumed : w.resumedTask label = some (.calling (.fail userId run agent listening) call) := by
        have resumes := moves.resumes found
        cases label with
        | resume id' random' =>
            obtain ⟨call', -, same⟩ := Option.map_eq_some_iff.mp resumes
            cases same
            exact found
        | _ => cases resumes
      have hit := (((handled.2 _ resumed).1 call rfl)).1
      rw [missed] at hit
      cases hit
    · rw [moves.other here] at failed
      exact quiet.going other userId failed

theorem Passes.quiet (passes : w.Passes label w') (quiet : w.Quiet) : w'.Quiet := by
  have serial := passes.serial quiet.serial
  obtain ⟨manager, tasks, -⟩ := passes.stores
  refine ⟨serial, ?_, ?_⟩
  · rw [manager, passes.pending]
    exact quiet.loaded
  · rw [tasks]
    exact quiet.going

theorem quiet_of_reach {config : RunManagerConfig} {now : Int} {w : Runtime}
    (reached : Transition.Reach turn Handled (init config now) w) : w.Quiet := by
  apply reached.invariant Quiet
  · refine ⟨Serial.init config now, ?_, ?_⟩
    · intro id call found
      cases found
    · intro id userId found
      cases found
  · rintro s ⟨label, others⟩ u handled quiet moved
    rcases step_cases handled.1 moved with ⟨id, moves⟩ | passes
    · exact moves.quiet handled quiet
    · exact passes.quiet quiet

/-- A promise that nobody awaits rejects in exactly those steps in which a `failRun` has read a
state that does not admit FAILED, a `timeoutRun` one that does not admit TIMED_OUT, or third-party
code throws out of the `catch` or `finally` of `executeRun`. -/
theorem background_rejects_iff (config : RunManagerConfig) (now : Int) (w : Runtime)
    (reached : Transition.Reach turn Handled (init config now) w) (label : Label)
    (others : ThirdParty) (fresh : w.FreshRun label) :
    w.Rejects label others ↔ ¬w.Handled (label, others) := by
  have quiet := quiet_of_reach reached
  have throws_iff {id : Nat} {task : Task} (found : w.tasks.get id = some task) (random : String) :
      w.service.throws random others task = true ↔ ¬task.Handled others := by
    apply quiet.serial.throws_iff quiet.loaded found
    rintro userId rfl
    exact quiet.going id userId found
  constructor
  · rintro ⟨id, random, task, rfl, found, throws⟩ handled
    exact (throws_iff found random).mp throws (handled.2 task found)
  · intro unhandled
    have culprit : ∃ task ∈ w.resumedTask label, ¬task.Handled others := by
      by_contra none
      apply unhandled
      refine ⟨fresh, ?_⟩
      intro task resumed
      by_contra wrong
      exact none ⟨task, resumed, wrong⟩
    obtain ⟨task, resumed, wrong⟩ := culprit
    cases label with
    | resume id random => exact ⟨id, random, task, rfl, resumed, (throws_iff resumed random).mpr wrong⟩
    | _ => cases resumed

def unhealthyLabels : List Label :=
  [.createRun 0 "a" ⟨"acme", "alice"⟩ ⟨some "pack", some "hello", none⟩,
    .resume 0 "", .resume 0 "", .resume 0 "",
    .resume 0 "t", .resume 0 "", .resume 0 "", .resume 0 "", .resume 0 "",
    .reply 0 (.health false "openai" "no key"), .resume 0 "", .resume 0 "", .resume 0 ""]

theorem failing_run_is_handled :
    ∃ w : Runtime, w.stateOf "run_0_a" = some .leased ∧
      (w.Rejects (.resume 0 "") .quiet ↔ ¬w.Handled (.resume 0 "", .quiet)) := by
  have ran : (Transition.exec (Transition.guarded turn Handled) (init .default 0)
      (unhealthyLabels.map (fun label => (label, .quiet)))).map (fun w => w.stateOf "run_0_a") =
      some (some .leased) := by decide +kernel
  obtain ⟨w, reached, leased⟩ := Transition.reach_of_observed _ _ ran
  refine ⟨w, leased, background_rejects_iff .default 0 w reached (.resume 0 "") .quiet ?_⟩
  rintro runId ⟨⟩

/-- The run is completed between the signal of its timeout and the write of TIMED_OUT. -/
def timedOutWhileCompleting : List Label :=
  promptedLabels ++ [.tick 3600000, .reply 0 (.prompted []), .resume 0 "", .resume 0 "",
    .fire 1 0, .resume 0 "", .resume 1 "", .resume 0 "", .resume 1 ""]

/-- The callback of the timer rejects, and nobody handles it. -/
theorem timeout_callback_rejects :
    ¬∀ w : Runtime, Transition.Reach step FreshRun (init .default 0) w →
      ∀ label, w.FreshRun label → ¬w.Rejects label .quiet := by
  intro always
  have ran : (Transition.exec (Transition.guarded step FreshRun) (init .default 0)
      timedOutWhileCompleting).map (fun w => (w.stateOf "run_0_a",
        (w.tasks.get 1).map (fun task => w.service.throws "" .quiet task))) =
      some (some .completed, some true) := by decide +kernel
  obtain ⟨w, reached, observed⟩ := Transition.reach_of_observed _ _ ran
  obtain ⟨-, thrown⟩ := Prod.mk.inj observed
  obtain ⟨task, found, throws⟩ := Option.map_eq_some_iff.mp thrown
  apply always w reached (.resume 1 "") ?_ ⟨1, "", task, rfl, found, throws⟩
  rintro runId ⟨⟩

end Runtime

end Minerva
