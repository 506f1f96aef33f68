import Minerva.ModelProvider.Service
import Minerva.Runtime.Abort
import Minerva.Runtime.Serving

/-! The health check as a gate: while the model provider is unhealthy no agent is prompted, no
workspace is asked for, and every run that is executed fails with the reason. -/

namespace Minerva

/-- A run that has got nowhere; if it has failed, then with this message. -/
def Run.Unserved (message : String) (run : Run) : Prop :=
  run.state = .queued ∨ run.state = .leased ∨ run.state = .cancelled ∨
    run.state = .failed ∧ run.error = some message

namespace Call

/-- A call that neither starts, completes nor times out a run, and fails one with this message. -/
def Gated (message : String) : Call → Prop
  | .startRun _ _ => False
  | .completeRun _ _ _ => False
  | .timeoutRun _ _ => False
  | .failRun _ error _ => error = message
  | _ => True

theorem Gated.next {message : String} {call next : Call} (gated : call.Gated message)
    (same : SameMethod call next) : next.Gated message := by
  cases call <;> cases next <;> simp only [SameMethod] at same <;> simp only [Gated] at gated ⊢
  rw [← same.2, gated]

theorem Gated.arms {message : String} {call : Call} (gated : call.Gated message) :
    call.arms = 0 := by
  cases call <;> simp_all [Gated, Call.arms]

theorem fail_stored {m : RunManager} {now : Int} {random : String} {runId : RunId}
    {message : String} {run : Run} (some_text : message ≠ "") {id : RunId} {after : Run}
    (found : ((Call.failRun runId message (.transition (.loaded (some run)))).resume m now
      random).manager.getRun id = some after) :
    m.getRun id = some after ∨ after.state = .failed ∧ after.error = some message := by
  simp only [resume, settle_manager, RunManager.failRunResume, RunManager.endRunResume, Turn.map,
    RunManager.transitionStateResume, InMemoryRunRepository.update] at found
  split at found
  · cases stored : m.repo.runs.get runId with
    | none =>
        rw [stored] at found
        exact .inl found
    | some before =>
        rw [stored] at found
        rcases EsMap.get_set_cases m.repo.runs runId found with ⟨-, rfl⟩ | ⟨-, earlier⟩
        · right
          refine ⟨rfl, ?_⟩
          simp [RunManager.transitionUpdates, truthy, some_text]
        · exact .inl earlier
  · exact .inl found

theorem Gated.stored {message : String} {call : Call} (gated : call.Gated message)
    (some_text : message ≠ "") {m : RunManager} (now : Int) (random : String)
    (holds : ∀ runId run, m.getRun runId = some run → run.Unserved message) :
    ∀ runId run, (call.resume m now random).manager.getRun runId = some run →
      run.Unserved message := by
  have written {id : RunId} {after : Run} (unserved : after.Unserved message) :
      ∀ runId run, (m.repo.runs.set id after).get runId = some run → run.Unserved message := by
    intro runId run found
    rcases EsMap.get_set_cases m.repo.runs id found with ⟨-, rfl⟩ | ⟨-, earlier⟩
    · exact unserved
    · exact holds runId run earlier
  by_cases fails : ∃ runId run, call = .failRun runId message (.transition (.loaded (some run)))
  · obtain ⟨failed, run, rfl⟩ := fails
    intro runId after found
    rcases fail_stored some_text found with earlier | ended
    · exact holds runId after earlier
    · exact .inr (.inr (.inr ended))
  · have effect := resume_effect m now random call
    generalize (call.resume m now random).manager = m' at effect
    cases effect with
    | position run stored position found =>
        have kept : stored.Unserved message := holds _ _ found
        exact written kept
    | leased userId nextRunId lease stored found => exact written (.inr (.inl rfl))
    | transition _ runId newState run stored metadata inside valid found =>
        have cancels : newState = .cancelled := by
          unfold Call.transition at inside
          split at inside <;> cases inside
          · cases gated
          · rfl
          · cases gated
          · cases gated
          · rename_i error
            cases gated
            exact absurd ⟨runId, run, rfl⟩ fails
        subst cancels
        exact written (.inr (.inr (.inl rfl)))
    | _ => exact holds

end Call

def Task.checksHealth : Task → Bool
  | .executing _ _ .checkingHealth => true
  | _ => false

def Task.Gated (message : String) : Task → Prop
  | .calling frame call =>
    call.Gated message ∧ frame.Fits call ∧ ∀ userId run agent listening,
      frame = .fail userId run agent listening → agent = false
  | .executing _ _ .checkingHealth => True
  | .executing _ _ (.caught agent _ error _) => agent = false ∧ error = .error message
  | .executing _ _ _ => False
  | _ => True

namespace RunExecutionService

variable {s : RunExecutionService} {message : String}

theorem gated_resolved {frame : Frame} {call : Call} (gated : call.Gated message)
    (fits : frame.Fits call) (run : Option Run) :
    ∀ task ∈ (s.resolved frame run).2, task.Gated message := by
  unfold resolved
  split
  · unfold processUserQueue
    split
    · rintro task ⟨⟩
    · rintro task ⟨⟩
      exact ⟨trivial, rfl, by rintro _ _ _ _ ⟨⟩⟩
  · split <;> rintro task ⟨⟩
  · rintro task ⟨⟩
  · rintro task ⟨⟩
    exact trivial
  · cases call <;> simp only [Frame.Fits] at fits
    cases gated
  · cases call <;> simp only [Frame.Fits] at fits
    cases gated
  · rintro task ⟨⟩
    exact trivial
  · rintro task ⟨⟩

theorem gated_rejected {frame : Frame} {call : Call} (gated : call.Gated message)
    (fits : frame.Fits call) (error : RunError) :
    ∀ task ∈ (s.rejected frame error).2, task.Gated message := by
  unfold rejected
  split
  · rintro task ⟨⟩
  · cases call <;> simp only [Frame.Fits] at fits
    cases gated
  · cases call <;> simp only [Frame.Fits] at fits
    cases gated
  · rintro task ⟨⟩
    exact trivial
  · rintro task ⟨⟩

theorem gated_resume {random : String} {task : Task} {outcome : Outcome}
    (enhanced : enhanceProviderError (.error message) = message) (gated : task.Gated message)
    (goes : s.resume random task = some outcome) : ∀ next ∈ outcome.2, next.Gated message := by
  cases task with
  | calling frame call =>
      obtain ⟨inside, fits, agentless⟩ := gated
      simp only [resume] at goes
      cases progress : (call.resume s.runManager s.now random).progress with
      | await next =>
          rw [progress] at goes
          cases goes
          have same := Call.pending_same_method s.runManager s.now random call next
            (by rw [Call.pending, progress])
          rintro task ⟨⟩
          exact ⟨inside.next same, fits.same_method same, agentless⟩
      | resolve run =>
          rw [progress] at goes
          cases goes
          exact gated_resolved inside fits run
      | reject error =>
          rw [progress] at goes
          cases goes
          exact gated_rejected inside fits error
  | cancelRequested runId owner reason run =>
      cases run with
      | none =>
          cases goes
          rintro task ⟨⟩
      | some run =>
          simp only [resume] at goes
          split at goes
          · cases goes
            rintro task ⟨⟩
            exact ⟨trivial, rfl, by rintro _ _ _ _ ⟨⟩⟩
          · cases goes
            rintro task ⟨⟩
  | executing userId run pc =>
      cases pc with
      | caught agent listening error latestRun =>
          obtain ⟨rfl, rfl⟩ := gated
          cases latestRun with
          | none =>
              cases goes
              rintro task ⟨⟩
              exact trivial
          | some latestRun =>
              simp only [resume, executeResume] at goes
              split at goes
              · cases goes
                rintro task ⟨⟩
                exact trivial
              · cases goes
                rintro task ⟨⟩
                exact ⟨enhanced, rfl, by rintro _ _ _ _ ⟨⟩; rfl⟩
      | checkingHealth => cases goes
      | _ => cases gated
  | executed userId =>
      cases goes
      rintro task ⟨⟩
      exact ⟨trivial, rfl, by rintro _ _ _ _ ⟨⟩⟩
  | executeFailed userId =>
      cases goes
      rintro task ⟨⟩

end RunExecutionService

namespace ModelProviderService

def Reports (config : ModelProviderConfig) : Reply → Prop
  | .health healthy provider error =>
    healthy = (checkHealth config).healthy ∧ provider = (checkHealth config).provider ∧
      error = (checkHealth config).error.getD "undefined"
  | _ => False

instance (config : ModelProviderConfig) : ∀ reply, Decidable (Reports config reply)
  | .health _ _ _ => inferInstanceAs (Decidable (_ ∧ _ ∧ _))
  | .imported | .workspace _ | .pack | .prompted _ | .rejected _ | .agentRejected _ =>
    instDecidableFalse

end ModelProviderService

namespace Runtime

variable {w w' : Runtime} {label : Label} {message : String}

def Checked (config : ModelProviderConfig) (w : Runtime) : Label → Prop
  | .reply id reply =>
    (w.tasks.get id).any Task.checksHealth = true → ModelProviderService.Reports config reply
  | _ => True

instance (config : ModelProviderConfig) (w : Runtime) : ∀ label, Decidable (w.Checked config label)
  | .reply _ _ => inferInstanceAs (Decidable (_ = true → _))
  | .createRun _ _ _ _ | .cancelRun _ _ _ _ | .fire _ _ | .resume _ _ | .agentEvent _ _
  | .tick _ => instDecidableTrue

/-- Generated run ids are not in use, and the health checks are those of the configuration. -/
def Configured (config : ModelProviderConfig) (w : Runtime) (label : Label) : Prop :=
  w.FreshRun label ∧ w.Checked config label

instance (config : ModelProviderConfig) (w : Runtime) (label : Label) :
    Decidable (w.Configured config label) := inferInstanceAs (Decidable (_ ∧ _))

structure Held (w : Runtime) (message : String) : Prop where
  tasks : ∀ id, ∀ task ∈ w.tasks.get id, task.Gated message
  timers : w.service.runManager.timeoutManager.timers.size = 0
  runs : ∀ runId run, w.service.runManager.getRun runId = some run → run.Unserved message
  prompts : w.service.prompts = []

theorem Held.init (config : RunManagerConfig) (now : Int) (message : String) :
    (Runtime.init config now).Held message where
  tasks := by
    rintro id task ⟨⟩
  timers := rfl
  runs := by
    rintro runId run ⟨⟩
  prompts := rfl

theorem Held.store (held : w.Held message) (id : Nat) {outcome : Outcome}
    (tasks : ∀ task ∈ outcome.2, task.Gated message)
    (timers : outcome.1.runManager.timeoutManager.timers.size = 0)
    (runs : ∀ runId run, outcome.1.runManager.getRun runId = some run → run.Unserved message)
    (prompts : outcome.1.prompts = w.service.prompts) : (w.store id outcome).Held message where
  tasks := by
    intro other task member
    rw [get_store, Function.update_apply] at member
    split at member
    · exact tasks task member
    · exact held.tasks other task member
  timers := by
    rw [store_service]
    exact timers
  runs := by
    rw [store_service]
    exact runs
  prompts := by
    rw [store_service, prompts]
    exact held.prompts

theorem Held.step {config : ModelProviderConfig}
    (unhealthy : (ModelProviderService.checkHealth config).healthy = false)
    (held : w.Held (ModelProviderService.unavailable config)) (met : w.Configured config label)
    (moved : w.step label = some w') : w'.Held (ModelProviderService.unavailable config) := by
  have enhanced := ModelProviderService.enhance_unavailable unhealthy
  cases steps_of_step moved with
  | creates id random owner body free =>
      unfold RunExecutionService.createRun
      split
      · rename_i prompt agentPackId asked packed
        apply held.store id
        · rintro task ⟨⟩
          exact ⟨trivial, trivial, by rintro _ _ _ _ ⟨⟩⟩
        · exact held.timers
        · intro runId run found
          rcases EsMap.get_set_cases w.service.runManager.repo.runs _ found with
            ⟨-, rfl⟩ | ⟨-, earlier⟩
          · exact .inl rfl
          · exact held.runs runId run earlier
        · rfl
      · apply held.store id _ held.timers held.runs rfl
        rintro task ⟨⟩
  | requests id runId owner body free =>
      apply held.store id _ held.timers held.runs rfl
      rintro task ⟨⟩
      exact trivial
  | fires id timer runId timeoutManager free due =>
      have more := InMemoryTimeoutManager.size_fire due
      rw [held.timers] at more
      cases more
  | resumes id random task outcome found goes =>
      have gated := held.tasks id task found
      have prompts : outcome.1.prompts = w.service.prompts := by
        rcases (resume_move goes).log with silent | ⟨userId, run, signal, was, -⟩
        · exact silent.prompts
        · cases was
          cases gated
      have next := RunExecutionService.gated_resume enhanced gated goes
      rcases RunExecutionService.resume_manager goes with same | ⟨frame, call, rfl, same⟩
      · apply held.store id next _ _ prompts
        · rw [same]
          exact held.timers
        · rw [same]
          exact held.runs
      · apply held.store id next _ _ prompts
        · have armed := call.resume_timers_size w.service.runManager w.service.now random
          rw [held.timers, gated.1.arms] at armed
          rw [same]
          omega
        · rw [same]
          exact gated.1.stored (ModelProviderService.unavailable_ne_empty config) _ _ held.runs
  | replies id reply userId run pc outcome found answer =>
      have gated := held.tasks id _ found
      cases pc with
      | checkingHealth =>
          have reports : ModelProviderService.Reports config reply :=
            met.2 (by rw [found]; rfl)
          cases reply with
          | health healthy provider error =>
              obtain ⟨rfl, rfl, rfl⟩ := reports
              simp only [RunExecutionService.replied, unhealthy, Bool.false_eq_true, if_false] at answer
              cases answer
              apply held.store id _ held.timers held.runs rfl
              rintro task ⟨⟩
              exact ⟨rfl, rfl⟩
          | _ => cases reports
      | caught agent listening error latestRun => cases answer
      | _ => cases gated
  | passes _ _ passing =>
      cases passing with
      | tick elapsed => exact ⟨held.tasks, held.timers, held.runs, held.prompts⟩
      | agentEvent id event userId run listening prompting =>
          cases held.tasks id _ prompting

/-- While the configured provider is unhealthy, along every run of the service no agent is prompted
and no timer armed, and every run is waiting, leased or CANCELLED, or it has FAILED with the message
that names the provider and what is wrong with its key, as it stands. -/
theorem unhealthy_provider_runs_nothing (config : ModelProviderConfig)
    (runConfig : RunManagerConfig) (now : Int) (w : Runtime)
    (unhealthy : (ModelProviderService.checkHealth config).healthy = false)
    (reached : Transition.Reach step (Configured config) (init runConfig now) w) :
    w.service.prompts = [] ∧ w.service.runManager.timeoutManager.timers.size = 0 ∧
      ∀ runId run, w.service.runManager.getRun runId = some run →
        run.Unserved (ModelProviderService.unavailable config) := by
  have held := reached.invariant (fun w => w.Held (ModelProviderService.unavailable config))
    (Held.init runConfig now _) (fun _ _ _ met held moved => held.step unhealthy met moved)
  exact ⟨held.prompts, held.timers, held.runs⟩

def mistakenKey : ModelProviderConfig := ⟨.anthropic, none, some "sk-proj"⟩

def refusedLabels : List Label :=
  startedLabels.take 9 ++
    .reply 0 (.health false "anthropic" "API key format validation failed") ::
      List.replicate 7 (.resume 0 "")

theorem mistaken_key_runs_nothing : ∃ w : Runtime, w.service.prompts = [] ∧
    w.stateOf "run_0_a" = some .failed ∧
      ∀ run, w.service.runManager.getRun "run_0_a" = some run → run.error = some
        "Provider anthropic is not available: API key format validation failed" := by
  have ran : (Transition.exec (Transition.guarded step (Configured mistakenKey)) (init .default 0)
      refusedLabels).map (fun w => w.stateOf "run_0_a") = some (some .failed) := by decide +kernel
  obtain ⟨w, reached, failed⟩ := Transition.reach_of_observed _ _ ran
  obtain ⟨silent, -, unserved⟩ := unhealthy_provider_runs_nothing mistakenKey .default 0 w
    (by decide +kernel) reached
  refine ⟨w, silent, failed, ?_⟩
  intro run found
  have state : run.state = .failed := by
    rw [stateOf, RunManager.stateOf, found, Option.map_some] at failed
    exact Option.some.inj failed
  have reason : ModelProviderService.unavailable mistakenKey =
      "Provider anthropic is not available: API key format validation failed" := by decide +kernel
  rcases unserved "run_0_a" run found with queued | leased | cancelled | ⟨-, error⟩
  · rw [state] at queued
    cases queued
  · rw [state] at leased
    cases leased
  · rw [state] at cancelled
    cases cancelled
  · rw [error, reason]

end Runtime

end Minerva
