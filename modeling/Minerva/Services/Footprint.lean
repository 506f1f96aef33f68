import Minerva.Services.Operations

namespace Minerva

namespace RunManager

variable {m m' : RunManager} {runId : RunId}

/-- Of all that is stored of runs, only what is stored of one run has changed. -/
structure Touches (m m' : RunManager) (runId : RunId) : Prop extends Frame m m' where
  leaseManager : m'.leaseManager = m.leaseManager
  others : ∀ id, id ≠ runId → m'.sheet id = m.sheet id

theorem Touches.trans {m₁ m₂ m₃ : RunManager} (first : Touches m₁ m₂ runId)
    (second : Touches m₂ m₃ runId) : Touches m₁ m₃ runId :=
  ⟨first.toFrame.trans second.toFrame, second.leaseManager.trans first.leaseManager,
    fun id other => (second.others id other).trans (first.others id other)⟩

theorem touches_signalled (m : RunManager) (runId : RunId) (reason : String) :
    Touches m (m.signalled runId reason) runId :=
  ⟨⟨rfl, rfl, fun _ => rfl⟩, rfl, fun id other => by rw [sheet_signalled, if_neg other]⟩

theorem touches_forgotten (m : RunManager) (runId : RunId) :
    Touches m (m.forgotten runId) runId :=
  ⟨⟨rfl, rfl, fun _ => rfl⟩, rfl, fun id other => by rw [sheet_forgotten, if_neg other]⟩

theorem touches_cleared (armed : m.timeoutManager.Armed) (runId : RunId) :
    Touches m { m with timeoutManager := (m.timeoutManager.clear runId).1 } runId :=
  ⟨⟨rfl, rfl, fun _ => rfl⟩, rfl, fun id other => by rw [sheet_cleared m armed, if_neg other]⟩

theorem touches_transition (armed : m.timeoutManager.Armed) (now : Int) (runId : RunId)
    (newState : RunState) (metadata : TransitionMetadata) :
    Touches m (m.transitionNow now runId newState metadata).1 runId := by
  refine ⟨frame_transition _ _ _ _ _, ?_, ?_⟩
  · unfold transitionNow
    split
    · rfl
    · split <;> rfl
  · intro id other
    unfold transitionNow
    split
    · rfl
    · split
      · rw [sheet_moved m armed, if_neg other]
      · rfl

theorem touches_begun (armed : m.timeoutManager.Armed) (now : Int) (runId : RunId) (run : Run) :
    Touches m { m with
      cancellationRegistry := m.cancellationRegistry.create runId
      timeoutManager :=
        (m.timeoutManager.schedule now runId run.maxDurationMs TimeoutCallback.timeoutRun).1 }
      runId :=
  ⟨⟨rfl, rfl, fun _ => rfl⟩, rfl, fun id other => by rw [sheet_begun m armed, if_neg other]⟩

theorem touches_start (armed : m.timeoutManager.Armed) (clock : Nat → Int) (runId : RunId) :
    Touches m (m.startNow clock runId).1 runId := by
  have moved := touches_transition armed (clock 1) runId .running ⟨none, none⟩
  have still := armed_transition armed (clock 1) runId .running ⟨none, none⟩
  unfold startNow
  generalize m.transitionNow (clock 1) runId .running ⟨none, none⟩ = done at moved still ⊢
  obtain ⟨after, outcome⟩ := done
  cases outcome with
  | error cause => exact moved
  | ok run => exact moved.trans (touches_begun still (clock 3) runId run)

theorem touches_abandon (armed : m.timeoutManager.Armed) (clock : Nat → Int) (part : Nat)
    (runId : RunId) (reason : String) (newState : RunState) (text : String) (run : Run) :
    Touches (m.released run) (m.abandonNow clock part runId reason newState text run).1 runId := by
  apply (touches_signalled _ runId reason).trans
  apply touches_transition
  simpa [signalled] using armed

theorem touches_end (armed : m.timeoutManager.Armed) (clock : Nat → Int) (newState : RunState)
    (metadata : TransitionMetadata) {run : Run} (found : m.getRun runId = some run) :
    Touches (m.released run) (m.endNow clock runId newState metadata).1 runId := by
  unfold endNow
  simp only [found]
  apply (touches_forgotten _ runId).trans
  apply touches_transition
  simpa [forgotten] using armed

/-- What the stores know of each other: a queued run is indexed and stored under its owner, a lease
is found by its token, the token of a run is at most its owner's, and only stored runs have timers
and contexts. -/
structure Sane (m : RunManager) : Prop where
  armed : m.timeoutManager.Armed
  indexed : m.queue.Indexed
  owned : ∀ runId userId, m.queue.runToUser.get runId = some userId →
    ∃ run, m.getRun runId = some run ∧ run.userId = userId
  known : m.leaseManager.Known
  tokens : ∀ runId run token userId, m.getRun runId = some run → run.leaseToken = some token →
    m.leaseManager.tokenToUser.get token = some userId → run.userId = userId
  blank : ∀ runId, m.getRun runId = none →
    m.timeoutManager.timeouts.get runId = none ∧ m.cancellationRegistry.get runId = none

namespace Sane

theorem init (config : RunManagerConfig) : (init config).Sane where
  armed := .empty
  indexed := .empty
  owned := by
    intro runId userId indexed
    cases indexed
  known := InMemoryLeaseManager.known_empty
  tokens := by
    intro runId run token userId found
    cases found
  blank := fun _ _ => ⟨rfl, rfl⟩

theorem queued (sane : m.Sane) {userId : UserId} (waits : runId ∈ m.queue.getUserRuns userId) :
    ∃ run, m.getRun runId = some run ∧ run.userId = userId :=
  sane.owned runId userId (sane.indexed.indexed userId runId waits)

theorem touch (sane : m.Sane) (touches : Touches m m' runId) (armed : m'.timeoutManager.Armed)
    {run : Run} (found : m.getRun runId = some run) : m'.Sane where
  armed := armed
  indexed := by
    rw [touches.queue]
    exact sane.indexed
  owned := by
    intro id userId indexed
    rw [touches.queue] at indexed
    obtain ⟨stored, at_, user⟩ := sane.owned id userId indexed
    obtain ⟨after, at_'⟩ := touches.after at_
    obtain ⟨before, at_'', -, same, -⟩ := touches.before at_'
    rw [at_] at at_''
    cases at_''
    exact ⟨after, at_', same.trans user⟩
  known := by
    rw [touches.leaseManager]
    exact sane.known
  tokens := by
    intro id after token userId at_ carries indexed
    rw [touches.leaseManager] at indexed
    obtain ⟨before, at_', -, user, -, kept⟩ := touches.before at_
    rw [user]
    exact sane.tokens id before token userId at_' (kept.symm.trans carries) indexed
  blank := by
    intro id missing
    have other : id ≠ runId := by
      rintro rfl
      obtain ⟨after, at_⟩ := touches.after found
      rw [missing] at at_
      cases at_
    have same := touches.others id other
    have run : m'.getRun id = m.getRun id := congrArg Sheet.run same
    obtain ⟨timeout, context⟩ := sane.blank id (run.symm.trans missing)
    exact ⟨(congrArg Sheet.timeout same).trans timeout, (congrArg Sheet.context same).trans context⟩

theorem release (sane : m.Sane) (run : Run) : (m.released run).Sane := by
  unfold released
  cases truthy run.leaseToken with
  | none => exact sane
  | some token =>
      refine ⟨sane.armed, sane.indexed, sane.owned, sane.known.release token, ?_, sane.blank⟩
      intro id stored carried userId found carries indexed
      apply sane.tokens id stored carried userId found carries
      rcases m.leaseManager.release_cases token with ⟨same, -⟩ | ⟨user, lease, -, -, tokens⟩
      · dsimp only at indexed
        rwa [same] at indexed
      · simp only [tokens] at indexed
        exact (EsMap.get_of_get_delete _ _ indexed).2

theorem remove (sane : m.Sane) (runId : RunId) :
    Sane { m with queue := (m.queue.remove runId).1 } := by
  refine ⟨sane.armed, sane.indexed.remove runId, ?_, sane.known, sane.tokens, sane.blank⟩
  intro id userId indexed
  exact sane.owned id userId (InMemoryRunQueue.runToUser_of_remove indexed)

theorem enqueue (sane : m.Sane) (run : Run) (missing : m.getRun run.id = none)
    (unleased : run.leaseToken = none) : (m.enqueued run).Sane := by
  have absent : ∀ userId, run.id ∉ m.queue.getUserRuns userId := by
    intro userId waits
    obtain ⟨stored, found, -⟩ := sane.queued waits
    rw [missing] at found
    cases found
  refine ⟨sane.armed, sane.indexed.enqueue run.id run.userId absent, ?_, sane.known, ?_, ?_⟩
  · intro id userId indexed
    rw [getRun_enqueued]
    simp only [enqueued, InMemoryRunQueue.enqueue, EsMap.get_set] at indexed
    by_cases same : id = run.id
    · rw [if_pos same] at indexed ⊢
      exact ⟨run, rfl, Option.some.inj indexed⟩
    · rw [if_neg same] at indexed ⊢
      exact sane.owned id userId indexed
  · intro id stored token userId found carries indexed
    rw [getRun_enqueued] at found
    split at found
    · cases found
      rw [unleased] at carries
      cases carries
    · exact sane.tokens id stored token userId found carries indexed
  · intro id unknown
    rw [getRun_enqueued] at unknown
    split at unknown
    · cases unknown
    · exact sane.blank id unknown

theorem acquire (sane : m.Sane) {now at_ : Int} {random : String} {userId : UserId} {run : Run}
    {leaseManager : InMemoryLeaseManager} {lease : Lease}
    (front : (m.queue.getUserRuns userId).head? = some runId) (found : m.getRun runId = some run)
    (granted : m.leaseManager.acquire now random userId runId m.config.leaseTtlMs =
      (leaseManager, some lease))
    (unknown : m.leaseManager.tokenToUser.get (InMemoryLeaseManager.newToken now random) = none)
    (unused : ∀ id stored, m.getRun id = some stored →
      stored.leaseToken ≠ some (InMemoryLeaseManager.newToken now random)) :
    Sane { m with
      leaseManager
      queue := (m.queue.dequeue userId).1
      repo := ⟨m.repo.runs.set runId (leasedUpdates at_ lease run)⟩ } := by
  obtain ⟨stored, found', owner⟩ := sane.queued (List.mem_of_mem_head? front)
  rw [found] at found'
  cases found'
  have manager : (m.leaseManager.acquire now random userId runId m.config.leaseTtlMs).1 =
      leaseManager := by rw [granted]
  have token : lease.token = InMemoryLeaseManager.newToken now random := by
    rcases m.leaseManager.acquire_cases now random userId runId m.config.leaseTtlMs with
      ⟨held, -, -, refused⟩ | ⟨-, after, acquired, -⟩
    · rw [granted] at refused
      cases refused
    · rw [granted] at acquired
      cases acquired
      rfl
  have runs := m.getRun_set runId (leasedUpdates at_ lease run)
  refine ⟨sane.armed, sane.indexed.dequeue userId, ?_, ?_, ?_, ?_⟩
  · intro id user indexed
    obtain ⟨stored, at_', user'⟩ := sane.owned id user
      (InMemoryRunQueue.runToUser_of_dequeue indexed)
    refine ⟨if id = runId then leasedUpdates at_ lease run else stored, ?_, ?_⟩
    · refine (runs id).trans ?_
      split
      · rfl
      · exact at_'
    · split
      · rename_i same
        rw [same, found] at at_'
        cases at_'
        exact user'
      · exact user'
  · rw [← manager]
    exact sane.known.acquire now random userId runId _ (fun _ => unknown)
  · intro id stored carried user at_' carries indexed
    replace at_' := (runs id).symm.trans at_'
    split at at_'
    · cases at_'
      cases carries
      rcases m.leaseManager.acquire_cases now random userId runId m.config.leaseTtlMs with
        ⟨held, -, -, refused⟩ | ⟨-, after, acquired, -, mine, -⟩
      · rw [granted] at refused
        cases refused
      · rw [granted] at acquired
        cases acquired
        have same := mine.symm.trans indexed
        exact owner.trans (Option.some.inj same)
    · have other : carried ≠ InMemoryLeaseManager.newToken now random := by
        rintro rfl
        exact unused id stored at_' carries
      apply sane.tokens id stored carried user at_' carries
      rw [← manager] at indexed
      exact InMemoryLeaseManager.tokenToUser_of_acquire other indexed
  · intro id missing
    replace missing := (runs id).symm.trans missing
    split at missing
    · cases missing
    · exact sane.blank id missing

theorem startRun (sane : m.Sane) (clock : Nat → Int) (runId : RunId) :
    (m.startNow clock runId).1.Sane := by
  cases found : m.getRun runId with
  | none =>
      simp only [startNow, transitionNow, found]
      exact sane
  | some run =>
      exact sane.touch (touches_start sane.armed clock runId) (armed_start sane.armed clock runId) found

theorem abandon (sane : m.Sane) {run : Run} (found : m.getRun runId = some run) (clock : Nat → Int)
    (part : Nat) (reason : String) (newState : RunState) (text : String) :
    (m.abandonNow clock part runId reason newState text run).1.Sane := by
  have stored : (m.released run).getRun runId = some run := by rw [released_getRun, found]
  exact (sane.release run).touch (touches_abandon sane.armed clock part runId reason newState text run)
    (armed_abandon sane.armed clock part runId reason newState text run) stored

theorem endRun (sane : m.Sane) (clock : Nat → Int) (runId : RunId) (newState : RunState)
    (metadata : TransitionMetadata) : (m.endNow clock runId newState metadata).1.Sane := by
  cases found : m.getRun runId with
  | none =>
      simp only [endNow, found]
      exact sane
  | some run =>
      have stored : (m.released run).getRun runId = some run := by rw [released_getRun, found]
      exact (sane.release run).touch (touches_end sane.armed clock newState metadata found)
        (armed_end sane.armed clock runId newState metadata) stored

theorem cancelRun (sane : m.Sane) (clock : Nat → Int) (runId : RunId) (reason : Option String) :
    (m.cancelNow clock runId reason).1.Sane := by
  cases found : m.getRun runId with
  | none =>
      simp only [cancelNow, found]
      exact sane
  | some run =>
      simp only [cancelNow, found]
      split
      · exact sane
      · split
        · exact (sane.remove runId).abandon found _ _ _ _ _
        · exact sane.abandon found _ _ _ _ _

theorem timeout (sane : m.Sane) (clock : Nat → Int) (runId : RunId) :
    (m.timeoutNow clock runId).1.Sane := by
  cases found : m.getRun runId with
  | none =>
      simp only [timeoutNow, found]
      exact sane
  | some run =>
      by_cases ended : isTerminalState run.state = true
      · simp only [timeoutNow, found, if_pos ended]
        exact sane
      · rw [timeoutNow_live found ended]
        exact sane.abandon found _ _ _ _ _

theorem expire (sane : m.Sane) {now : Int} {owner : RunId} {expired : RunManager}
    (due : Operation.expire m now runId = some (expired, owner)) : expired.Sane := by
  obtain ⟨rfl, rfl⟩ := Operation.expire_eq_some sane.armed due
  cases found : m.getRun owner with
  | none =>
      have missing := (sane.blank owner found).1
      unfold Operation.expire at due
      rw [missing] at due
      cases due
  | some run =>
      exact sane.touch (touches_cleared sane.armed owner) (sane.armed.clear owner) found

end Sane

end RunManager

def Operation.Fresh (m : RunManager) (op : Operation) : Prop :=
  match op.action with
  | .call (.createRun random _) => m.stateOf (RunManager.newRunId (op.clock 0) random) = none
  | .call (.acquireNextRun userId) =>
    (m.leaseManager.isActive (op.clock 1) userId).2 = false →
      m.leaseManager.tokenToUser.has
          (InMemoryLeaseManager.newToken (op.clock 1) op.random) = false ∧
        ∀ run ∈ m.repo.runs.values,
          run.leaseToken ≠ some (InMemoryLeaseManager.newToken (op.clock 1) op.random)
  | _ => True

instance (m : RunManager) (op : Operation) : Decidable (op.Fresh m) := by
  unfold Operation.Fresh
  split <;> infer_instance

namespace RunManager

variable {m m' : RunManager}

theorem Sane.perform (sane : m.Sane) {op : Operation} {outcome : Settlement (Option Run)}
    (fresh : op.Fresh m) (done : op.perform m = some (m', outcome)) : m'.Sane := by
  unfold Operation.Fresh at fresh
  rcases Operation.perform_cases done with ⟨request, called, ran⟩ |
    ⟨runId, owner, expired, fires, due, ran⟩
  · rw [called] at fresh
    cases request with
    | createRun random input =>
        rw [Call.now, createNow_eq] at ran
        rw [← (Prod.mk.inj ran).1]
        exact sane.enqueue _ (Option.map_eq_none_iff.mp fresh) rfl
    | acquireNextRun userId =>
        rcases m.acquire_cases op.random op.clock userId with
          nothing | ⟨nextRunId, leaseManager, lease, front, granted, ⟨missing, -⟩ | ⟨run, found, took⟩⟩
        · rw [Call.now, nothing] at ran
          rw [← (Prod.mk.inj ran).1]
          exact sane
        · obtain ⟨stored, found, -⟩ := sane.queued (List.mem_of_mem_head? front)
          rw [missing] at found
          cases found
        · rw [Call.now, took] at ran
          rw [← (Prod.mk.inj ran).1]
          have leased : (m.leaseManager.acquire (op.clock 1) op.random userId nextRunId
              m.config.leaseTtlMs).2 = some lease := by rw [granted]
          obtain ⟨unknown, unused⟩ := fresh (InMemoryLeaseManager.inactive_of_acquire leased).1
          apply sane.acquire front found granted
          · simpa [EsMap.has] using unknown
          · intro id stored at_
            exact unused stored ((EsMap.mem_values_iff _ _).mpr ⟨id, at_⟩)
    | startRun runId =>
        rw [← (Call.now_eq ran).1]
        exact sane.startRun op.clock runId
    | cancelRun runId reason =>
        rw [← (Call.now_eq ran).1]
        exact sane.cancelRun op.clock runId reason
    | completeRun runId finalMessages =>
        rw [← (Call.now_eq ran).1]
        exact sane.endRun op.clock runId _ _
    | failRun runId error =>
        rw [← (Call.now_eq ran).1]
        exact sane.endRun op.clock runId _ _
  · have after := (sane.expire due).timeout op.clock owner
    rwa [ran] at after

end RunManager

end Minerva
