import Minerva.Services.Pool
import Minerva.Services.Sequential

namespace Minerva

inductive Mutation where
  | startRun (runId : RunId)
  | cancelRun (runId : RunId) (reason : Option String)
  | completeRun (runId : RunId) (finalMessages : Option (List Json))
  | failRun (runId : RunId) (error : String)
  | transitionState (runId : RunId) (newState : RunState) (metadata : TransitionMetadata)

namespace Mutation

def perform (m : RunManager) (clock : Nat → Int) :
    Mutation → Option (RunManager × Settlement (Option Run))
  | .startRun runId => Call.perform m "" clock (.startRun runId)
  | .cancelRun runId reason => Call.perform m "" clock (.cancelRun runId reason)
  | .completeRun runId finalMessages => Call.perform m "" clock (.completeRun runId finalMessages)
  | .failRun runId error => Call.perform m "" clock (.failRun runId error)
  | .transitionState runId newState metadata =>
    (m.performTransition clock runId newState metadata).map
      (fun done => (done.1, done.2.map some))

def ends : Mutation → Option (RunId × RunState)
  | .completeRun runId _ => some (runId, .completed)
  | .failRun runId _ => some (runId, .failed)
  | _ => none

/-- If the call rejects, the stores are what they were before it. -/
def AllOrNothing (m : RunManager) (clock : Nat → Int) (method : Mutation) : Prop :=
  ∀ m' error, method.perform m clock = some (m', .error error) → m' = m

/-- Where `completeRun` or `failRun` finds its run in a state from which the target is not valid,
no held lease carries the run's token and the run has no cancellation context. -/
def NothingToDrop (m : RunManager) (method : Mutation) : Prop :=
  ∀ runId target run, method.ends = some (runId, target) → m.getRun runId = some run →
    isValidStateTransition run.state target = false →
      (∀ leaseToken, truthy run.leaseToken = some leaseToken →
        m.leaseManager.held leaseToken = none) ∧
      m.cancellationRegistry.get runId = none

end Mutation

namespace RunManager

variable {m m' : RunManager} {clock : Nat → Int} {runId : RunId} {error : RunError}

theorem transition_rejects {now : Int} {newState : RunState} {metadata : TransitionMetadata}
    (rejected : m.transitionNow now runId newState metadata = (m', .error error)) : m' = m := by
  unfold transitionNow at rejected
  split at rejected
  · cases rejected
    rfl
  · split at rejected
    · cases rejected
    · cases rejected
      rfl

theorem start_rejects (rejected : m.startNow clock runId = (m', .error error)) : m' = m := by
  unfold startNow at rejected
  split at rejected
  · rename_i refused
    cases rejected
    exact transition_rejects refused
  · cases rejected

theorem cancellable (state : RunState) (live : isTerminalState state = false) :
    isValidStateTransition state .cancelled = true := by
  revert live
  cases state <;> decide

@[simp] theorem released_getRun (m : RunManager) (run : Run) : (m.released run).getRun = m.getRun := by
  unfold released
  split <;> rfl

@[simp] theorem released_queue (m : RunManager) (run : Run) : (m.released run).queue = m.queue := by
  unfold released
  split <;> rfl

@[simp] theorem released_timeoutManager (m : RunManager) (run : Run) :
    (m.released run).timeoutManager = m.timeoutManager := by
  unfold released
  split <;> rfl

@[simp] theorem released_cancellationRegistry (m : RunManager) (run : Run) :
    (m.released run).cancellationRegistry = m.cancellationRegistry := by
  unfold released
  split <;> rfl

@[simp] theorem signalled_getRun (m : RunManager) (runId : RunId) (reason : String) :
    (m.signalled runId reason).getRun = m.getRun := rfl

@[simp] theorem forgotten_getRun (m : RunManager) (runId : RunId) :
    (m.forgotten runId).getRun = m.getRun := rfl

theorem transitionNow_of_valid {now : Int} {newState : RunState} {metadata : TransitionMetadata}
    {run : Run} (found : m.getRun runId = some run)
    (valid : isValidStateTransition run.state newState = true) :
    m.transitionNow now runId newState metadata =
      (m.moved now runId newState metadata run,
        .ok (transitionUpdates run newState now metadata run)) := by
  simp only [transitionNow, found, if_pos valid]

theorem abandonNow_of_valid {part : Nat} {newState : RunState} {reason text : String} {run : Run}
    (found : m.getRun runId = some run)
    (valid : isValidStateTransition run.state newState = true) :
    m.abandonNow clock part runId reason newState text run =
      (((m.released run).signalled runId reason).moved (clock (afterRelease part run + 1)) runId
          newState ⟨some text, none⟩ run,
        .ok (transitionUpdates run newState (clock (afterRelease part run + 1)) ⟨some text, none⟩
          run)) := by
  apply transitionNow_of_valid
  · simpa using found
  · exact valid

theorem timeoutNow_live {run : Run} (found : m.getRun runId = some run)
    (live : ¬isTerminalState run.state = true) :
    (m.timeoutNow clock runId).1 =
      (m.abandonNow clock 1 runId "timeout" .timedOut
        ("Run exceeded maximum duration of " ++ toString run.maxDurationMs ++ "ms") run).1 := by
  simp only [timeoutNow, found, if_neg live]
  generalize m.abandonNow clock 1 runId "timeout" .timedOut
    ("Run exceeded maximum duration of " ++ toString run.maxDurationMs ++ "ms") run = done
  obtain ⟨after, outcome⟩ := done
  cases outcome <;> rfl

theorem cancel_rejects {reason : Option String}
    (rejected : m.cancelNow clock runId reason = (m', .error error)) : m' = m := by
  unfold cancelNow at rejected
  cases found : m.getRun runId with
  | none =>
      rw [found] at rejected
      cases rejected
      rfl
  | some run =>
      simp only [found] at rejected
      split at rejected
      · cases rejected
      · rename_i live
        -- a run that is not terminal can always be cancelled
        have valid := cancellable run.state (Bool.eq_false_iff.mpr live)
        split at rejected
        · rw [abandonNow_of_valid (m := { m with queue := (m.queue.remove runId).1 }) found valid]
            at rejected
          cases rejected
        · rw [abandonNow_of_valid found valid] at rejected
          cases rejected

theorem released_eq_iff (m : RunManager) (run : Run) :
    m.released run = m ↔ ∀ leaseToken, truthy run.leaseToken = some leaseToken →
      m.leaseManager.held leaseToken = none := by
  unfold released
  cases token : truthy run.leaseToken with
  | none => simp
  | some leaseToken =>
      simp only [Option.some.injEq, forall_eq']
      rcases m.leaseManager.release_cases leaseToken with ⟨same, unheld⟩ | ⟨user, lease, held, leases, -⟩
      · simp [same, unheld]
      · obtain ⟨-, -, stored, -⟩ := (m.leaseManager.held_eq_some leaseToken user lease).mp held
        simp only [held, reduceCtorEq, iff_false]
        intro unchanged
        have kept : m.leaseManager.release leaseToken = m.leaseManager :=
          congrArg RunManager.leaseManager unchanged
        rw [kept] at leases
        rw [leases, EsMap.get_delete_self] at stored
        cases stored

theorem remove_eq_iff (registry : InMemoryCancellationRegistry) (runId : RunId) :
    registry.remove runId = registry ↔ registry.get runId = none := by
  constructor
  · intro same
    rw [← same, InMemoryCancellationRegistry.get_remove, if_pos rfl]
  · intro absent
    unfold InMemoryCancellationRegistry.remove
    rw [EsMap.delete_of_absent _ _ absent]

theorem ended_eq_iff (m : RunManager) (run : Run) (runId : RunId) :
    (m.released run).forgotten runId = m ↔
      m.released run = m ∧ m.cancellationRegistry.remove runId = m.cancellationRegistry := by
  have registry := m.released_cancellationRegistry run
  constructor
  · intro same
    have kept : (m.released run).cancellationRegistry.remove runId = m.cancellationRegistry :=
      congrArg RunManager.cancellationRegistry same
    rw [registry] at kept
    refine ⟨?_, kept⟩
    calc m.released run = (m.released run).forgotten runId := by
          simp only [forgotten, registry, kept]
          rw [← registry]
      _ = m := same
  · rintro ⟨first, second⟩
    rw [first, forgotten, second]

/-- `completeRun` and `failRun` release and forget before they validate. -/
theorem end_rejects_iff (m : RunManager) (clock : Nat → Int) (runId : RunId) (newState : RunState)
    (metadata : TransitionMetadata) :
    (∀ m' error, m.endNow clock runId newState metadata = (m', .error error) → m' = m) ↔
      ∀ run, m.getRun runId = some run → isValidStateTransition run.state newState = false →
        (m.released run).forgotten runId = m := by
  unfold endNow
  cases found : m.getRun runId with
  | none =>
      constructor
      · intro _ run stored
        cases stored
      · intro _ m' error rejected
        cases rejected
        rfl
  | some run =>
      have stored : ((m.released run).forgotten runId).getRun runId = some run := by
        simpa using found
      by_cases valid : isValidStateTransition run.state newState = true
      · simp [transitionNow_of_valid stored valid, valid]
      · simp [transitionNow, stored, valid]

end RunManager

namespace Mutation

open RunManager

theorem end_all_or_nothing_iff {m : RunManager} {clock : Nat → Int} {method : Mutation}
    {runId : RunId} {newState : RunState} {metadata : TransitionMetadata}
    (ending : method.ends = some (runId, newState))
    (runs : method.perform m clock =
      some ((m.endNow clock runId newState metadata).map id (.map some))) :
    method.AllOrNothing m clock ↔ method.NothingToDrop m := by
  have rejects := m.end_rejects_iff clock runId newState metadata
  have settles : method.AllOrNothing m clock ↔
      ∀ m' error, m.endNow clock runId newState metadata = (m', .error error) → m' = m := by
    unfold AllOrNothing
    rw [runs]
    rcases m.endNow clock runId newState metadata with ⟨after, outcome⟩
    cases outcome <;> simp [Except.map]
  rw [settles, rejects]
  unfold NothingToDrop
  simp only [ending, Option.some.injEq, Prod.mk.injEq, ended_eq_iff, released_eq_iff, remove_eq_iff]
  constructor
  · rintro clean _ _ run ⟨rfl, rfl⟩ stored invalid
    exact clean run stored invalid
  · intro clean run stored invalid
    exact clean runId newState run ⟨rfl, rfl⟩ stored invalid

theorem all_or_nothing_of_total {m : RunManager} {clock : Nat → Int} {method : Mutation}
    {done : RunManager × Settlement Run} (other : method.ends = none)
    (runs : method.perform m clock = some (done.map id (.map some)))
    (unchanged : ∀ m' error, done = (m', .error error) → m' = m) :
    method.AllOrNothing m clock ↔ method.NothingToDrop m := by
  constructor
  · intro _ runId target run ending
    rw [other] at ending
    cases ending
  · intro _ m' error rejected
    rw [runs, Option.some.injEq] at rejected
    obtain ⟨after, outcome⟩ := done
    cases outcome with
    | error cause =>
        cases rejected
        exact unchanged _ _ rfl
    | ok run => cases rejected

theorem complete_all_or_nothing_iff (m : RunManager) (clock : Nat → Int) (runId : RunId)
    (finalMessages : Option (List Json)) :
    (completeRun runId finalMessages).AllOrNothing m clock ↔
      (completeRun runId finalMessages).NothingToDrop m :=
  end_all_or_nothing_iff rfl (Call.perform_eq m "" clock (.completeRun runId finalMessages))

/-- A rejected call changes nothing, unless it is a `completeRun` or `failRun` of a run that has
something to drop. -/
theorem rejection_changes_nothing_iff (m : RunManager) (clock : Nat → Int) (method : Mutation) :
    method.AllOrNothing m clock ↔ method.NothingToDrop m := by
  cases method with
  | startRun runId =>
      exact all_or_nothing_of_total rfl (Call.perform_eq m "" clock (.startRun runId))
        (fun _ _ => start_rejects)
  | cancelRun runId reason =>
      exact all_or_nothing_of_total rfl (Call.perform_eq m "" clock (.cancelRun runId reason))
        (fun _ _ => cancel_rejects)
  | completeRun runId finalMessages =>
      exact complete_all_or_nothing_iff m clock runId finalMessages
  | failRun runId error =>
      exact end_all_or_nothing_iff rfl (Call.perform_eq m "" clock (.failRun runId error))
  | transitionState runId newState metadata =>
      have runs : m.performTransition clock runId newState metadata =
          some (m.transitionNow (clock 1) runId newState metadata) :=
        transition_parts m clock runId newState metadata 3 1
      exact all_or_nothing_of_total rfl (congrArg (Option.map _) runs)
        (fun _ _ => transition_rejects)

/-- `completeRun` of a run that is leased and not started rejects after it has given the lease
back. -/
theorem rejected_completion_drops_the_lease :
    ¬∀ p : Pool, Transition.Reach Pool.step Transition.Free (Pool.init .default 0) p → p.Quiescent →
      ∀ (clock : Nat → Int) (method : Mutation), method.AllOrNothing p.manager clock := by
  intro always
  have ran : (Transition.exec (Transition.guarded Pool.step Transition.Free) (Pool.init .default 0)
      [.begin 0 (.createRun "a" ⟨some ⟨"acme", "alice"⟩, none, "pack", "hello", none⟩),
        .resume 0 "", .resume 0 "", .resume 0 "",
        .begin 0 (.acquireNextRun "acme:alice"),
        .resume 0 "t", .resume 0 "", .resume 0 "", .resume 0 "", .resume 0 ""]).map
        (fun p => (p.calls.entries.length,
          (p.manager.getRun "run_0_a").map (fun run => (run.state, truthy run.leaseToken)),
          (p.manager.leaseManager.held "lease_0_t").isSome)) =
      some (0, some (.leased, some "lease_0_t"), true) := by decide +kernel
  obtain ⟨p, reached, observed⟩ := Transition.reach_of_observed _ _ ran
  obtain ⟨quiet, stored, held⟩ := by simpa only [Prod.mk.injEq] using observed
  obtain ⟨run, found, fields⟩ := Option.map_eq_some_iff.mp stored
  obtain ⟨state, token⟩ := Prod.mk.inj fields
  have atomic := always p reached (List.length_eq_zero_iff.mp quiet) (fun _ => 0)
    (.completeRun "run_0_a" none)
  have clean := (complete_all_or_nothing_iff _ _ _ _).mp atomic
  have dropped := (clean "run_0_a" .completed run rfl found (by rw [state]; rfl)).1 _ token
  rw [dropped] at held
  cases held

end Mutation

end Minerva
