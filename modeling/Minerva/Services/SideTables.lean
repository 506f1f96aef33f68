import Minerva.Services.Operations

namespace Minerva

theorem live_of_valid {source target : RunState}
    (valid : isValidStateTransition source target = true) : isTerminalState source = false := by
  revert valid
  cases source <;> cases target <;> decide

namespace Sheet

/-- What the stores say about a run agrees with its state; `now` is the latest reading of the
clock. -/
structure Follows (sheet : Sheet) (now : Int) (run : Run) : Prop where
  timeout : sheet.timeout.isSome = true ↔ run.state = .running
  context : (∃ context, sheet.context = some context ∧ context.isCancelled = false) ↔
    run.state = .running
  completed : run.completedAt.isSome = true ↔ isTerminalState run.state = true
  position : run.queuePosition.isSome = true → run.state = .queued
  unstarted : run.state = .queued → run.startedAt = none
  created : run.createdAt ≤ now
  started : ∀ time, run.startedAt = some time → run.createdAt ≤ time ∧ time ≤ now
  ended : ∀ time, run.completedAt = some time → run.createdAt ≤ time ∧
    ∀ earlier, run.startedAt = some earlier → earlier ≤ time

def Ok (sheet : Sheet) (now : Int) : Prop :=
  match sheet.run with
  | none => sheet.timeout = none ∧ sheet.context = none
  | some run => sheet.Follows now run

variable {sheet : Sheet} {now next : Int} {run : Run}

theorem Follows.later (follows : sheet.Follows now run) (advance : now ≤ next) :
    sheet.Follows next run where
  timeout := follows.timeout
  context := follows.context
  completed := follows.completed
  position := follows.position
  unstarted := follows.unstarted
  created := Int.le_trans follows.created advance
  started := fun time at_ =>
    ⟨(follows.started time at_).1, Int.le_trans (follows.started time at_).2 advance⟩
  ended := follows.ended

theorem Ok.later (ok : sheet.Ok now) (advance : now ≤ next) : sheet.Ok next := by
  unfold Ok at ok ⊢
  split
  · rename_i missing
    rwa [missing] at ok
  · rename_i run found
    rw [found] at ok
    exact ok.later advance

theorem Follows.no_timeout (follows : sheet.Follows now run) (idle : run.state ≠ .running) :
    sheet.timeout = none := by
  cases found : sheet.timeout with
  | none => rfl
  | some handle => exact absurd (follows.timeout.mp (by rw [found]; rfl)) idle

theorem Follows.unfinished (follows : sheet.Follows now run)
    (live : isTerminalState run.state = false) : run.completedAt = none := by
  cases found : run.completedAt with
  | none => rfl
  | some time =>
      have ended := follows.completed.mp (by rw [found]; rfl)
      rw [live] at ended
      cases ended

theorem Follows.finish (follows : sheet.Follows now run) {after : Sheet} {newState : RunState}
    {at_ : Int} {metadata : TransitionMetadata} (terminal : isTerminalState newState = true)
    (live : isTerminalState run.state = false) (advance : now ≤ at_)
    (timeout : after.timeout = none)
    (context : ∀ context, after.context = some context → context.isCancelled = true) :
    after.Follows at_ (RunManager.transitionUpdates run newState at_ metadata run) := by
  have idle : newState ≠ .running := by
    rintro rfl
    cases terminal
  have gone : newState ≠ .queued := by
    rintro rfl
    cases terminal
  have unfinished := follows.unfinished live
  simp only [RunManager.transitionUpdates, terminal, idle]
  constructor
  · simp [timeout, idle]
  · simp only [idle, iff_false]
    rintro ⟨dropped, found, unset⟩
    rw [context dropped found] at unset
    cases unset
  · simp [terminal]
  · simp
  · simp [gone]
  · exact Int.le_trans follows.created advance
  · simp only [false_and, if_false]
    intro time started
    exact ⟨(follows.started time started).1, Int.le_trans (follows.started time started).2 advance⟩
  · simp only [false_and, if_false, if_true, Option.some.injEq]
    rintro time rfl
    exact ⟨Int.le_trans follows.created advance, fun earlier started =>
      Int.le_trans (follows.started earlier started).2 advance⟩

end Sheet

structure Ledger (now : Int) (m : RunManager) : Prop where
  armed : m.timeoutManager.Armed
  indexed : m.queue.Indexed
  waiting : ∀ userId runId, runId ∈ m.queue.getUserRuns userId →
    userId ≠ "" ∧ m.stateOf runId = some .queued
  sheets : ∀ runId, (m.sheet runId).Ok now

namespace Ledger

variable {now next : Int} {m m' : RunManager} {runId : RunId} {run : Run}

theorem follows (ledger : Ledger now m) (found : m.getRun runId = some run) :
    (m.sheet runId).Follows now run := by
  have ok := ledger.sheets runId
  unfold Sheet.Ok at ok
  rw [show (m.sheet runId).run = some run from found] at ok
  exact ok

theorem blank (ledger : Ledger now m) (missing : m.getRun runId = none) :
    m.timeoutManager.timeouts.get runId = none ∧ m.cancellationRegistry.get runId = none := by
  have ok := ledger.sheets runId
  unfold Sheet.Ok at ok
  rw [show (m.sheet runId).run = none from missing] at ok
  exact ok

theorem not_waiting (ledger : Ledger now m) (found : m.getRun runId = some run)
    (left : run.state ≠ .queued) (userId : UserId) : runId ∉ m.queue.getUserRuns userId := by
  intro member
  have state := (ledger.waiting userId runId member).2
  rw [RunManager.stateOf, found] at state
  exact left (Option.some.inj state)

theorem touch (ledger : Ledger now m) (advance : now ≤ next) (runId : RunId)
    (armed : m'.timeoutManager.Armed) (indexed : m'.queue.Indexed)
    (fewer : ∀ userId id, id ∈ m'.queue.getUserRuns userId → id ∈ m.queue.getUserRuns userId)
    (others : ∀ id, id ≠ runId → m'.sheet id = m.sheet id) (mine : (m'.sheet runId).Ok next)
    (stays : ∀ userId, runId ∈ m'.queue.getUserRuns userId → m'.stateOf runId = some .queued) :
    Ledger next m' := by
  constructor
  · exact armed
  · exact indexed
  · intro userId id member
    have before := ledger.waiting userId id (fewer userId id member)
    refine ⟨before.1, ?_⟩
    by_cases same : id = runId
    · subst same
      exact stays userId member
    · have run : m'.getRun id = m.getRun id := congrArg Sheet.run (others id same)
      rw [RunManager.stateOf, run]
      exact before.2
  · intro id
    by_cases same : id = runId
    · rw [same]
      exact mine
    · rw [others id same]
      exact (ledger.sheets id).later advance

theorem later (ledger : Ledger now m) (advance : now ≤ next) : Ledger next m where
  armed := ledger.armed
  indexed := ledger.indexed
  waiting := ledger.waiting
  sheets := fun runId => (ledger.sheets runId).later advance

theorem init (config : RunManagerConfig) (now : Int) : Ledger now (.init config) where
  armed := .empty
  indexed := .empty
  waiting := by
    intro userId runId member
    cases member
  sheets := fun _ => ⟨rfl, rfl⟩

theorem createRun (ledger : Ledger now m) (advance : now ≤ next) (run : Run)
    (named : run.userId ≠ "") (missing : m.getRun run.id = none) (waits : run.state = .queued)
    (unstarted : run.startedAt = none) (unfinished : run.completedAt = none)
    (created : run.createdAt ≤ next) : Ledger next (m.enqueued run) := by
  have absent : ∀ userId, run.id ∉ m.queue.getUserRuns userId := by
    intro userId member
    have state := (ledger.waiting userId run.id member).2
    rw [RunManager.stateOf, missing] at state
    cases state
  have sheet (id : RunId) : (m.enqueued run).sheet id =
      if id = run.id then { m.sheet id with run := some run } else m.sheet id :=
    m.sheet_set run.id run id
  constructor
  · exact ledger.armed
  · exact ledger.indexed.enqueue run.id run.userId absent
  · intro userId id member
    rw [RunManager.stateOf, RunManager.getRun_enqueued]
    rcases (m.queue.mem_enqueue run.id id run.userId userId).mp member with earlier | ⟨rfl, rfl⟩
    · obtain ⟨truthy, state⟩ := ledger.waiting userId id earlier
      have other : id ≠ run.id := by
        rintro rfl
        exact absent userId earlier
      rw [if_neg other]
      exact ⟨truthy, state⟩
    · rw [if_pos rfl]
      exact ⟨named, congrArg some waits⟩
  · intro id
    rw [sheet]
    by_cases same : id = run.id
    · rw [if_pos same, same]
      obtain ⟨timeout, context⟩ := ledger.blank missing
      show Sheet.Follows _ next run
      constructor
      · simp [RunManager.sheet, timeout, waits]
      · simp [RunManager.sheet, context, waits]
      · simp [unfinished, waits, isTerminalState]
      · exact fun _ => waits
      · exact fun _ => unstarted
      · exact created
      · simp [unstarted]
      · simp [unfinished]
    · rw [if_neg same]
      exact (ledger.sheets id).later advance

theorem acquireNextRun (ledger : Ledger now m) (advance : now ≤ next) (at_ : Int)
    (before : now ≤ at_) (after : at_ ≤ next) {userId : UserId} (lease : Lease)
    (leaseManager : InMemoryLeaseManager)
    (front : (m.queue.getUserRuns userId).head? = some runId) (found : m.getRun runId = some run) :
    Ledger next { m with
      leaseManager
      queue := (m.queue.dequeue userId).1
      repo := ⟨m.repo.runs.set runId (RunManager.leasedUpdates at_ lease run)⟩ } := by
  have waits : run.state = .queued := by
    have state := (ledger.waiting userId runId (List.mem_of_mem_head? front)).2
    rw [RunManager.stateOf, found] at state
    exact Option.some.inj state
  have follows := ledger.follows found
  have sheet (id : RunId) : RunManager.sheet { m with
      leaseManager
      queue := (m.queue.dequeue userId).1
      repo := ⟨m.repo.runs.set runId (RunManager.leasedUpdates at_ lease run)⟩ } id =
      if id = runId then { m.sheet id with run := some (RunManager.leasedUpdates at_ lease run) }
      else m.sheet id :=
    m.sheet_set _ _ _
  apply ledger.touch advance runId
  · exact ledger.armed
  · exact ledger.indexed.dequeue userId
  · exact fun user id => m.queue.mem_of_mem_dequeue id userId user
  · intro id other
    rw [sheet, if_neg other]
  · rw [sheet, if_pos rfl]
    show Sheet.Follows _ next (RunManager.leasedUpdates at_ lease run)
    have unstarted := follows.unstarted waits
    have unfinished := follows.unfinished (by rw [waits]; rfl)
    constructor
    · simp [follows.no_timeout (by rw [waits]; decide), RunManager.leasedUpdates]
    · have idle := follows.context
      rw [waits] at idle
      simpa [RunManager.leasedUpdates] using idle
    · simp [RunManager.leasedUpdates, unfinished, isTerminalState]
    · simp [RunManager.leasedUpdates]
    · simp [RunManager.leasedUpdates]
    · exact Int.le_trans follows.created advance
    · simp only [RunManager.leasedUpdates, Option.some.injEq]
      rintro time rfl
      exact ⟨Int.le_trans follows.created before, after⟩
    · simp [RunManager.leasedUpdates, unfinished]
  · intro user member
    exact absurd member (ledger.indexed.not_mem_dequeue front user)

theorem finish (ledger : Ledger now m) (advance : now ≤ next) {prepared : RunManager} {at_ : Int}
    (before : now ≤ at_) (after : at_ ≤ next) {newState : RunState} {metadata : TransitionMetadata}
    (found : m.getRun runId = some run) (terminal : isTerminalState newState = true)
    (live : isTerminalState run.state = false)
    (armed : prepared.timeoutManager.Armed) (indexed : prepared.queue.Indexed)
    (fewer : ∀ userId id, id ∈ prepared.queue.getUserRuns userId → id ∈ m.queue.getUserRuns userId)
    (gone : ∀ userId, runId ∉ prepared.queue.getUserRuns userId)
    (others : ∀ id, id ≠ runId → prepared.sheet id = m.sheet id)
    (context : ∀ context, prepared.cancellationRegistry.get runId = some context →
      context.isCancelled = true) :
    Ledger next (prepared.moved at_ runId newState metadata run) := by
  have sheet := prepared.sheet_moved armed at_ runId newState metadata run
  apply ledger.touch advance runId
  · unfold RunManager.moved
    simp only [terminal, if_true]
    exact armed.clear runId
  · exact indexed
  · exact fewer
  · intro id other
    rw [sheet, if_neg other]
    exact others id other
  · rw [sheet, if_pos rfl]
    show Sheet.Follows _ next (RunManager.transitionUpdates run newState at_ metadata run)
    have done : Sheet.Follows ⟨some (RunManager.transitionUpdates run newState at_ metadata run),
        none, none, prepared.cancellationRegistry.get runId⟩ at_
        (RunManager.transitionUpdates run newState at_ metadata run) :=
      (ledger.follows found).finish terminal live before rfl context
    simp only [terminal, if_true]
    exact done.later after
  · intro userId member
    exact absurd member (gone userId)

theorem cancelled_of_signalled (prepared : RunManager) (runId : RunId) (reason : String)
    (context : CancellationContext)
    (found : (prepared.signalled runId reason).cancellationRegistry.get runId = some context) :
    context.isCancelled = true := by
  simp only [RunManager.signalled, InMemoryCancellationRegistry.get_cancel, if_true] at found
  obtain ⟨before, -, rfl⟩ := Option.map_eq_some_iff.mp found
  unfold CancellationContext.cancel
  split
  · assumption
  · rfl

theorem abandon (ledger : Ledger now m) (advance : now ≤ next) {base : RunManager}
    {clock : Nat → Int} {part : Nat} {newState : RunState} {reason text : String}
    (before : now ≤ clock (RunManager.afterRelease part run + 1))
    (after : clock (RunManager.afterRelease part run + 1) ≤ next)
    (found : m.getRun runId = some run) (stored : base.getRun runId = some run)
    (valid : isValidStateTransition run.state newState = true)
    (terminal : isTerminalState newState = true)
    (armed : base.timeoutManager.Armed) (indexed : base.queue.Indexed)
    (fewer : ∀ userId id, id ∈ base.queue.getUserRuns userId → id ∈ m.queue.getUserRuns userId)
    (gone : ∀ userId, runId ∉ base.queue.getUserRuns userId)
    (others : ∀ id, id ≠ runId → base.sheet id = m.sheet id) :
    Ledger next (base.abandonNow clock part runId reason newState text run).1 := by
  rw [RunManager.abandonNow_of_valid stored valid]
  apply ledger.finish advance before after found terminal (live_of_valid valid)
  · simpa [RunManager.signalled] using armed
  · simpa [RunManager.signalled] using indexed
  · simpa [RunManager.signalled] using fewer
  · simpa [RunManager.signalled] using gone
  · intro id other
    rw [RunManager.sheet_signalled, if_neg other, RunManager.sheet_released]
    exact others id other
  · exact cancelled_of_signalled _ runId reason

theorem startRun (ledger : Ledger now m) (advance : now ≤ next) (clock : Nat → Int)
    (before : now ≤ clock 1) (after : clock 1 ≤ next) (runId : RunId) :
    Ledger next (m.startNow clock runId).1 := by
  unfold RunManager.startNow RunManager.transitionNow
  cases found : m.getRun runId with
  | none => exact ledger.later advance
  | some run =>
      by_cases valid : isValidStateTransition run.state .running = true
      · simp only [if_pos valid]
        have leased := leased_of_running run.state valid
        have follows := ledger.follows found
        have armed : (m.moved (clock 1) runId .running ⟨none, none⟩ run).timeoutManager.Armed :=
          ledger.armed
        have moved := m.sheet_moved ledger.armed (clock 1) runId .running ⟨none, none⟩ run
        have begun := RunManager.sheet_begun _ armed (clock 3) runId
          (RunManager.transitionUpdates run .running (clock 1) ⟨none, none⟩ run)
        apply ledger.touch advance runId
        · exact armed.schedule _ _ _ _
        · exact ledger.indexed
        · exact fun _ _ member => member
        · intro id other
          rw [begun, if_neg other, moved, if_neg other]
        · rw [begun, if_pos rfl, moved, if_pos rfl]
          have unfinished := follows.unfinished (by rw [leased]; rfl)
          show Sheet.Follows _ next
            (RunManager.transitionUpdates run .running (clock 1) ⟨none, none⟩ run)
          simp only [RunManager.transitionUpdates, isTerminalState]
          constructor
          · simp
          · simp
          · simp [unfinished, isTerminalState]
          · intro positioned
            have waits := follows.position positioned
            rw [leased] at waits
            cases waits
          · simp
          · exact Int.le_trans follows.created advance
          · simp only [true_and]
            intro time started
            split at started
            · cases started
              exact ⟨Int.le_trans follows.created before, after⟩
            · obtain ⟨first, second⟩ := follows.started time started
              exact ⟨first, Int.le_trans second advance⟩
          · simp [unfinished]
        · intro userId member
          exact absurd member (ledger.not_waiting found (by rw [leased]; decide) userId)
      · simp only [if_neg valid]
        exact ledger.later advance

theorem endRun (ledger : Ledger now m) (advance : now ≤ next) (clock : Nat → Int)
    (before : ∀ part, part ≤ longestCall → now ≤ clock part)
    (after : ∀ part, part ≤ longestCall → clock part ≤ next) (runId : RunId) {newState : RunState}
    (metadata : TransitionMetadata) (terminal : isTerminalState newState = true)
    (fromRunning : isValidStateTransition .running newState = true)
    (fromQueued : isValidStateTransition .queued newState = false) :
    Ledger next (m.endNow clock runId newState metadata).1 := by
  unfold RunManager.endNow
  cases found : m.getRun runId with
  | none => exact ledger.later advance
  | some run =>
      have stored : ((m.released run).forgotten runId).getRun runId = some run := by
        simpa using found
      have short : RunManager.afterRelease 1 run + 1 ≤ longestCall := by
        unfold RunManager.afterRelease longestCall
        split <;> decide
      have others (id : RunId) (other : id ≠ runId) :
          ((m.released run).forgotten runId).sheet id = m.sheet id := by
        rw [RunManager.sheet_forgotten, if_neg other, RunManager.sheet_released]
      by_cases valid : isValidStateTransition run.state newState = true
      · simp only [RunManager.transitionNow_of_valid stored valid]
        have idle : run.state ≠ .queued := by
          intro waits
          rw [waits, fromQueued] at valid
          cases valid
        apply ledger.finish advance (before _ short) (after _ short) found terminal
          (live_of_valid valid)
        · simpa [RunManager.forgotten] using ledger.armed
        · simpa [RunManager.forgotten] using ledger.indexed
        · simp [RunManager.forgotten]
        · simpa [RunManager.forgotten] using ledger.not_waiting found idle
        · exact others
        · simp [RunManager.forgotten, InMemoryCancellationRegistry.get_remove]
      · simp only [RunManager.transitionNow, stored, if_neg valid]
        have idle : run.state ≠ .running := by
          intro runs
          rw [runs] at valid
          exact valid fromRunning
        have follows := ledger.follows found
        apply ledger.touch advance runId
        · simpa [RunManager.forgotten] using ledger.armed
        · simpa [RunManager.forgotten] using ledger.indexed
        · simp [RunManager.forgotten]
        · exact others
        · rw [RunManager.sheet_forgotten, if_pos rfl, RunManager.sheet_released]
          unfold Sheet.Ok
          rw [show (m.sheet runId).run = some run from found]
          have kept := follows.later advance
          refine ⟨kept.timeout, ?_, kept.completed, kept.position, kept.unstarted, kept.created,
            kept.started, kept.ended⟩
          simp [idle]
        · intro userId member
          have same : ((m.released run).forgotten runId).queue = m.queue := m.released_queue run
          rw [same] at member
          rw [RunManager.stateOf, stored, ← found]
          exact (ledger.waiting userId runId member).2

theorem cancelRun (ledger : Ledger now m) (advance : now ≤ next) (clock : Nat → Int)
    (before : ∀ part, part ≤ longestCall → now ≤ clock part)
    (after : ∀ part, part ≤ longestCall → clock part ≤ next) (runId : RunId)
    (reason : Option String) : Ledger next (m.cancelNow clock runId reason).1 := by
  unfold RunManager.cancelNow
  cases found : m.getRun runId with
  | none => exact ledger.later advance
  | some run =>
      have short (part : Nat) (early : part ≤ 2) :
          RunManager.afterRelease part run + 1 ≤ longestCall := by
        unfold RunManager.afterRelease longestCall
        split <;> omega
      by_cases ended : isTerminalState run.state = true
      · simp only [if_pos ended]
        exact ledger.later advance
      · simp only [if_neg ended]
        have valid := RunManager.cancellable run.state (Bool.eq_false_iff.mpr ended)
        by_cases waits : run.state = .queued
        · simp only [if_pos waits]
          apply ledger.abandon advance (before _ (short 2 (by omega))) (after _ (short 2 (by omega)))
            found _ valid rfl
          · exact ledger.armed
          · exact ledger.indexed.remove runId
          · exact fun userId id => m.queue.mem_of_mem_remove runId id userId
          · intro userId member
            have earlier := m.queue.mem_of_mem_remove runId runId userId member
            exact ledger.indexed.not_mem_remove (ledger.waiting userId runId earlier).1 member
          · exact fun _ _ => rfl
          · exact found
        · simp only [if_neg waits]
          exact ledger.abandon advance (before _ (short 1 (by omega))) (after _ (short 1 (by omega)))
            found found valid rfl ledger.armed ledger.indexed (fun _ _ member => member)
            (ledger.not_waiting found waits) (fun _ _ => rfl)

theorem timeout (ledger : Ledger now m) (advance : now ≤ next) (clock : Nat → Int)
    (before : ∀ part, part ≤ longestCall → now ≤ clock part)
    (after : ∀ part, part ≤ longestCall → clock part ≤ next) {runId owner : RunId}
    {expired : RunManager}
    (due : Operation.expire m (clock 0) runId = some (expired, owner)) :
    Ledger next (expired.timeoutNow clock owner).1 := by
  obtain ⟨rfl, rfl⟩ := Operation.expire_eq_some ledger.armed due
  have scheduled : (m.timeoutManager.timeouts.get owner).isSome = true := by
    unfold Operation.expire at due
    split at due
    · cases due
    · rename_i handle found
      rw [found]
      rfl
  cases found : m.getRun owner with
  | none =>
      rw [(ledger.blank found).1] at scheduled
      cases scheduled
  | some run =>
      have runs := (ledger.follows found).timeout.mp scheduled
      have short : RunManager.afterRelease 1 run + 1 ≤ longestCall := by
        unfold RunManager.afterRelease longestCall
        split <;> omega
      have live : ¬isTerminalState run.state = true := by
        rw [runs]
        decide
      rw [RunManager.timeoutNow_live
        (m := { m with timeoutManager := (m.timeoutManager.clear owner).1 }) found live]
      exact ledger.abandon advance (before _ short) (after _ short) found found (by rw [runs]; rfl)
        rfl (ledger.armed.clear owner) ledger.indexed (fun _ _ member => member)
        (ledger.not_waiting found (by rw [runs]; decide))
        (fun id other => (m.sheet_cleared ledger.armed owner id).trans (if_neg other))

end Ledger

def KeepsStamps (before after : RunManager) : Prop :=
  ∀ runId run, before.getRun runId = some run → ∃ run', after.getRun runId = some run' ∧
    (∀ time, run.startedAt = some time → run'.startedAt = some time) ∧
    ∀ time, run.completedAt = some time → run'.completedAt = some time

namespace KeepsStamps

variable {now : Int} {m m' base : RunManager} {runId : RunId} {run : Run}

theorem of_same (same : m'.getRun = m.getRun) : KeepsStamps m m' := by
  intro runId run found
  exact ⟨run, by rw [same, found], fun _ at_ => at_, fun _ at_ => at_⟩

theorem of_set {updated : Run} (found : m.getRun runId = some run)
    (stored : ∀ id, m'.getRun id = if id = runId then some updated else m.getRun id)
    (started : ∀ time, run.startedAt = some time → updated.startedAt = some time)
    (completed : ∀ time, run.completedAt = some time → updated.completedAt = some time) :
    KeepsStamps m m' := by
  intro id other at_
  rw [stored]
  split
  · rename_i same
    rw [same, found] at at_
    cases at_
    exact ⟨updated, rfl, started, completed⟩
  · exact ⟨other, at_, fun _ set => set, fun _ set => set⟩

theorem transition (ledger : Ledger now m) (same : base.getRun = m.getRun) (at_ : Int)
    (runId : RunId) (newState : RunState) (metadata : TransitionMetadata) :
    KeepsStamps m (base.transitionNow at_ runId newState metadata).1 := by
  unfold RunManager.transitionNow
  rw [same]
  cases found : m.getRun runId with
  | none => exact of_same same
  | some run =>
      by_cases valid : isValidStateTransition run.state newState = true
      · simp only [if_pos valid]
        have unfinished := (ledger.follows found).unfinished (live_of_valid valid)
        apply of_set found
        · intro id
          rw [← same]
          exact base.getRun_set runId _ id
        · intro time started
          simp [RunManager.transitionUpdates, started]
        · intro time completed
          rw [unfinished] at completed
          cases completed
      · simp only [if_neg valid]
        exact of_same same

theorem startRun (ledger : Ledger now m) (clock : Nat → Int) (runId : RunId) :
    KeepsStamps m (m.startNow clock runId).1 := by
  have moved := transition ledger (rfl : m.getRun = m.getRun) (clock 1) runId .running ⟨none, none⟩
  unfold RunManager.startNow
  generalize m.transitionNow (clock 1) runId .running ⟨none, none⟩ = done at moved ⊢
  obtain ⟨after, outcome⟩ := done
  cases outcome <;> exact moved

theorem abandon (ledger : Ledger now m) (base : RunManager) (same : base.getRun = m.getRun)
    (clock : Nat → Int) (part : Nat) (runId : RunId) (reason : String) (newState : RunState)
    (text : String) (run : Run) :
    KeepsStamps m (base.abandonNow clock part runId reason newState text run).1 :=
  transition ledger (by simpa using same) _ _ _ _

theorem endRun (ledger : Ledger now m) (clock : Nat → Int) (runId : RunId) (newState : RunState)
    (metadata : TransitionMetadata) :
    KeepsStamps m (m.endNow clock runId newState metadata).1 := by
  unfold RunManager.endNow
  cases m.getRun runId with
  | none => exact of_same rfl
  | some run => exact transition ledger (by simp) _ _ _ _

theorem cancelRun (ledger : Ledger now m) (clock : Nat → Int) (runId : RunId)
    (reason : Option String) : KeepsStamps m (m.cancelNow clock runId reason).1 := by
  unfold RunManager.cancelNow
  cases m.getRun runId with
  | none => exact of_same rfl
  | some run =>
      by_cases ended : isTerminalState run.state = true
      · simp only [if_pos ended]
        exact of_same rfl
      · by_cases waits : run.state = .queued
        · simp only [if_neg ended, if_pos waits]
          exact abandon ledger { m with queue := (m.queue.remove runId).1 } rfl _ _ _ _ _ _ _
        · simp only [if_neg ended, if_neg waits]
          exact abandon ledger m rfl _ _ _ _ _ _ _

theorem timeout (ledger : Ledger now m) (base : RunManager) (same : base.getRun = m.getRun)
    (clock : Nat → Int) (runId : RunId) : KeepsStamps m (base.timeoutNow clock runId).1 := by
  cases found : base.getRun runId with
  | none =>
      simp only [RunManager.timeoutNow, found]
      exact of_same same
  | some run =>
      by_cases ended : isTerminalState run.state = true
      · simp only [RunManager.timeoutNow, found, if_pos ended]
        exact of_same same
      · rw [RunManager.timeoutNow_live found ended]
        exact abandon ledger base same _ _ _ _ _ _ _

end KeepsStamps

namespace Session

def made (s : Session) (op : Operation) : Option Run :=
  match op.action with
  | .call (.createRun random input) =>
    some (RunManager.newRun s.manager.config (op.clock 0) random input)
  | _ => none

def NamedOwner (s : Session) (op : Operation) : Prop := ∀ run ∈ s.made op, run.userId ≠ ""

/-- No part of the operation reads the clock before an earlier part or an earlier operation. -/
def ClockForward (s : Session) (op : Operation) : Prop :=
  s.now ≤ op.clock 0 ∧ ∀ part < longestCall, op.clock part ≤ op.clock (part + 1)

def Admitted (s : Session) (op : Operation) : Prop :=
  s.FreshRun op ∧ s.NamedOwner op ∧ s.ClockForward op

instance (s : Session) (op : Operation) : Decidable (s.NamedOwner op) :=
  inferInstanceAs (Decidable (∀ run ∈ s.made op, _))

instance (s : Session) (op : Operation) : Decidable (s.ClockForward op) :=
  inferInstanceAs (Decidable (_ ∧ _))

instance (s : Session) (op : Operation) : Decidable (s.Admitted op) :=
  inferInstanceAs (Decidable (_ ∧ _ ∧ _))

theorem ClockForward.mono {s : Session} {op : Operation} (forward : s.ClockForward op)
    (part more : Nat) (short : part + more ≤ longestCall) :
    op.clock part ≤ op.clock (part + more) := by
  induction more with
  | zero => exact Int.le_refl _
  | succ more ih =>
      have earlier := ih (by omega)
      have step := forward.2 (part + more) (by omega)
      exact Int.le_trans earlier step

theorem ClockForward.before {s : Session} {op : Operation} (forward : s.ClockForward op) (part : Nat)
    (short : part ≤ longestCall) : s.now ≤ op.clock part := by
  have since := forward.mono 0 part (by omega)
  rw [Nat.zero_add] at since
  exact Int.le_trans forward.1 since

theorem ClockForward.after {s : Session} {op : Operation} (forward : s.ClockForward op) (part : Nat)
    (short : part ≤ longestCall) : op.clock part ≤ op.clock longestCall := by
  have until_end := forward.mono part (longestCall - part) (by omega)
  rwa [Nat.add_sub_cancel' short] at until_end

theorem ledger_step {s t : Session} {op : Operation} (admitted : s.Admitted op)
    (ledger : Ledger s.now s.manager) (moved : s.step op = some t) : Ledger t.now t.manager := by
  obtain ⟨fresh, named, forward⟩ := admitted
  obtain ⟨⟨manager, outcome⟩, done, rfl⟩ := Option.map_eq_some_iff.mp moved
  have before := forward.before
  have after := forward.after
  have advance : s.now ≤ op.clock longestCall := before longestCall (Nat.le_refl _)
  show Ledger (op.clock longestCall) manager
  rcases Operation.perform_cases done with ⟨request, called, ran⟩ |
    ⟨runId, owner, expired, fires, due, ran⟩
  · cases request with
    | createRun random input =>
        rw [Call.now, RunManager.createNow_eq] at ran
        rw [← (Prod.mk.inj ran).1]
        have absent := fresh (RunManager.newRunId (op.clock 0) random)
          (by simp [Operation.created, called])
        have keyed := named (RunManager.newRun s.manager.config (op.clock 0) random input)
          (by simp only [made, called, Option.mem_def])
        exact ledger.createRun advance _ keyed (Option.map_eq_none_iff.mp absent) rfl rfl rfl
          (after 0 (by decide))
    | acquireNextRun userId =>
        rcases s.manager.acquire_cases op.random op.clock userId with
          nothing | ⟨nextRunId, leaseManager, lease, front, -, ⟨missing, -⟩ | ⟨run, found, took⟩⟩
        · rw [Call.now, nothing] at ran
          rw [← (Prod.mk.inj ran).1]
          exact ledger.later advance
        · have state := (ledger.waiting userId nextRunId (List.mem_of_mem_head? front)).2
          rw [RunManager.stateOf, missing] at state
          cases state
        · rw [Call.now, took] at ran
          rw [← (Prod.mk.inj ran).1]
          exact ledger.acquireNextRun advance (op.clock 3) (before 3 (by decide))
            (after 3 (by decide)) lease leaseManager front found
    | startRun runId =>
        rw [← (Call.now_eq ran).1]
        exact ledger.startRun advance op.clock (before 1 (by decide)) (after 1 (by decide)) runId
    | cancelRun runId reason =>
        rw [← (Call.now_eq ran).1]
        exact ledger.cancelRun advance op.clock before after runId reason
    | completeRun runId finalMessages =>
        rw [← (Call.now_eq ran).1]
        exact ledger.endRun advance op.clock before after runId _ rfl rfl rfl
    | failRun runId error =>
        rw [← (Call.now_eq ran).1]
        exact ledger.endRun advance op.clock before after runId _ rfl rfl rfl
  · have kept := ledger.timeout advance op.clock before after due
    rwa [ran] at kept

theorem stamps_step {s t : Session} {op : Operation} (admitted : s.Admitted op)
    (ledger : Ledger s.now s.manager) (moved : s.step op = some t) :
    KeepsStamps s.manager t.manager := by
  obtain ⟨⟨manager, outcome⟩, done, rfl⟩ := Option.map_eq_some_iff.mp moved
  show KeepsStamps s.manager manager
  rcases Operation.perform_cases done with ⟨request, called, ran⟩ |
    ⟨runId, owner, expired, fires, due, ran⟩
  · cases request with
    | createRun random input =>
        rw [Call.now, RunManager.createNow_eq] at ran
        rw [← (Prod.mk.inj ran).1]
        have absent := admitted.1 (RunManager.newRunId (op.clock 0) random)
          (by simp [Operation.created, called])
        intro runId run found
        rw [RunManager.getRun_enqueued, if_neg]
        · exact ⟨run, found, fun _ set => set, fun _ set => set⟩
        · rintro rfl
          have missing := Option.map_eq_none_iff.mp absent
          exact absurd (found.symm.trans missing) (by simp)
    | acquireNextRun userId =>
        rcases s.manager.acquire_cases op.random op.clock userId with
          nothing | ⟨nextRunId, leaseManager, lease, front, -, ⟨missing, refused⟩ | ⟨run, found, took⟩⟩
        · rw [Call.now, nothing] at ran
          rw [← (Prod.mk.inj ran).1]
          exact .of_same rfl
        · rw [Call.now, refused] at ran
          rw [← (Prod.mk.inj ran).1]
          exact .of_same rfl
        · rw [Call.now, took] at ran
          rw [← (Prod.mk.inj ran).1]
          have waits : run.state = .queued := by
            have state := (ledger.waiting userId nextRunId (List.mem_of_mem_head? front)).2
            rw [RunManager.stateOf, found] at state
            exact Option.some.inj state
          have unstarted := (ledger.follows found).unstarted waits
          apply KeepsStamps.of_set found (fun id => s.manager.getRun_set nextRunId _ id)
          · intro time started
            rw [unstarted] at started
            cases started
          · exact fun _ completed => completed
    | startRun runId =>
        rw [← (Call.now_eq ran).1]
        exact .startRun ledger op.clock runId
    | cancelRun runId reason =>
        rw [← (Call.now_eq ran).1]
        exact .cancelRun ledger op.clock runId reason
    | completeRun runId finalMessages =>
        rw [← (Call.now_eq ran).1]
        exact .endRun ledger op.clock runId _ _
    | failRun runId error =>
        rw [← (Call.now_eq ran).1]
        exact .endRun ledger op.clock runId _ _
  · obtain ⟨rfl, rfl⟩ := Operation.expire_eq_some ledger.armed due
    have kept := KeepsStamps.timeout ledger { s.manager with
      timeoutManager := (s.manager.timeoutManager.clear owner).1 } rfl op.clock owner
    rwa [ran] at kept

end Session

/-- The stores and the timestamps of a run follow its state. -/
structure RunManager.Tidy (m : RunManager) (runId : RunId) (run : Run) : Prop where
  timeout : m.timeoutManager.has runId = true ↔ run.state = .running
  context : (∃ context, m.cancellationRegistry.get runId = some context ∧
    context.isCancelled = false) ↔ run.state = .running
  completed : run.completedAt.isSome = true ↔ isTerminalState run.state = true
  position : run.state ≠ .queued → run.queuePosition = none
  started : ∀ startedAt, run.startedAt = some startedAt → run.createdAt ≤ startedAt
  ended : ∀ completedAt, run.completedAt = some completedAt → run.createdAt ≤ completedAt
  inOrder : ∀ startedAt completedAt, run.startedAt = some startedAt →
    run.completedAt = some completedAt → startedAt ≤ completedAt

theorem Ledger.tidy {now : Int} {m : RunManager} (ledger : Ledger now m) {runId : RunId} {run : Run}
    (found : m.getRun runId = some run) : m.Tidy runId run := by
  have follows := ledger.follows found
  constructor
  · exact follows.timeout
  · exact follows.context
  · exact follows.completed
  · intro left
    cases position : run.queuePosition with
    | none => rfl
    | some place => exact absurd (follows.position (by rw [position]; rfl)) left
  · exact fun startedAt set => (follows.started startedAt set).1
  · exact fun completedAt set => (follows.ended completedAt set).1
  · exact fun startedAt completedAt set ended => (follows.ended completedAt ended).2 startedAt set

/-- Between two operations the timers, the cancellation contexts and the timestamps of every run
follow its state, and no operation has changed a timestamp that was set. -/
theorem Session.side_tables_follow_states (config : RunManagerConfig) (now : Int) (s : Session)
    (reached : Transition.Reach step Admitted (init config now) s) :
    (∀ runId run, s.manager.getRun runId = some run → s.manager.Tidy runId run) ∧
      ∀ entry ∈ s.history, KeepsStamps entry.before entry.after := by
  have kept := reached.invariant
    (fun s => Ledger s.now s.manager ∧ ∀ entry ∈ s.history, KeepsStamps entry.before entry.after)
    ⟨.init config now, by simp [init]⟩
    (by
      rintro s op t admitted ⟨ledger, stamps⟩ moved
      refine ⟨ledger_step admitted ledger moved, ?_⟩
      have latest := stamps_step admitted ledger moved
      obtain ⟨done, -, rfl⟩ := Option.map_eq_some_iff.mp moved
      intro entry member
      rcases List.mem_append.mp member with earlier | last
      · exact stamps entry earlier
      · cases List.mem_singleton.mp last
        exact latest)
  exact ⟨fun runId run found => kept.1.tidy found, kept.2⟩

/-- A run is leased, started and timed out after the ten minutes it has by default. -/
theorem Session.timed_out_run_is_tidy :
    ∃ (s : Session) (run : Run), s.manager.getRun "run_0_a" = some run ∧ run.state = .timedOut ∧
      s.manager.Tidy "run_0_a" run := by
  have ran : (Transition.exec (Transition.guarded step Admitted) (init .default 0)
      [⟨.call (.createRun "a" ⟨some ⟨"acme", "alice"⟩, none, "pack", "hello", none⟩), "", fun _ => 0⟩,
        ⟨.call (.acquireNextRun "acme:alice"), "t", fun _ => 10⟩,
        ⟨.call (.startRun "run_0_a"), "", fun part => 20 + part⟩,
        ⟨.fire "run_0_a", "", fun _ => 600023⟩]).map
        (fun s => (s.manager.getRun "run_0_a").map Run.state) = some (some .timedOut) := by
    decide +kernel
  obtain ⟨s, reached, observed⟩ := Transition.reach_of_observed _ _ ran
  obtain ⟨run, found, state⟩ := Option.map_eq_some_iff.mp observed
  exact ⟨s, run, found, state,
    (side_tables_follow_states .default 0 s reached).1 "run_0_a" run found⟩

end Minerva
