import Minerva.Runtime.Leaving

namespace Minerva

namespace Runtime

/-- A loop of the user is at work and not about to leave, or a call of `createRun` that has queued
its run has yet to wake it. -/
def Attended (w : Runtime) (userId : UserId) : Prop :=
  (∃ id task, w.tasks.get id = some task ∧ task.loop = some userId ∧ task.leaving = none) ∨
    ∃ id call, w.pending id = some call ∧ call.wakes = some userId

/-- No loop is lost while its queue is filled: `acquireNextRun` dequeues the run that it has leased
and is not refused the lease, `failRun` does not throw out of `executeRun`, and `createRun` does
not count on a loop that is about to leave. -/
def LoopKept (w : Runtime) (label : Label) : Prop :=
  ∀ resumed ∈ w.resumed label,
    resumed.2.TakesOwn w.service.runManager.queue ∧
    (∀ asked ∈ resumed.2.leases,
      (w.service.runManager.leaseManager.isActive w.service.now asked.1).2 = true →
        w.service.runManager.queue.peek asked.1 = none) ∧
    (∀ runId ∈ resumed.2.misses, ∀ userId ∈ w.service.runManager.userOf runId,
      w.service.runManager.queue.peek userId = none) ∧
    ∀ userId ∈ resumed.2.rouses, (∃ task ∈ w.tasks.values, task.leaving = some userId) →
      w.service.runManager.queue.peek userId = none

instance (w : Runtime) (label : Label) : Decidable (w.LoopKept label) :=
  inferInstanceAs (Decidable (∀ resumed ∈ w.resumed label, _ ∧ _ ∧ _ ∧ _))

def KeepsLoops (w : Runtime) (label : Label) : Prop := w.FreshRun label ∧ w.LoopKept label

instance (w : Runtime) (label : Label) : Decidable (w.KeepsLoops label) :=
  inferInstanceAs (Decidable (_ ∧ _))

variable {w w' : Runtime} {label : Label} {id : Nat}

structure Attending (w : Runtime) : Prop where
  creating : Creating w.service.runManager w.pending
  waiting : Waiting w.service.runManager w.pending
  attended : ∀ userId, w.service.runManager.queue.peek userId ≠ none → w.Attended userId

theorem Attending.init (config : RunManagerConfig) (now : Int) :
    (Runtime.init config now).Attending where
  creating := Creating.init config
  waiting := Waiting.init config
  attended := by
    intro userId filled
    exact absurd rfl filled

theorem Moves.creating (moves : w.Moves label id w')
    (held : Creating w.service.runManager w.pending) :
    Creating w'.service.runManager w'.pending := by
  apply moves.keeps Creating held
  · intro call m' p' resumed step
    exact step.creating held
  · intro m p m' p' step earlier
    exact step.creating earlier

theorem Moves.waiting (moves : w.Moves label id w') (kept : w.LoopKept label)
    (lanes : Lanes w.service.runManager w.pending)
    (held : Waiting w.service.runManager w.pending) :
    Waiting w'.service.runManager w'.pending := by
  have both : Lanes w'.service.runManager w'.pending ∧ Waiting w'.service.runManager w'.pending := by
    apply moves.keeps (fun m p => Lanes m p ∧ Waiting m p) ⟨lanes, held⟩
    · intro call m' p' resumed step
      refine ⟨step.lanes lanes, step.waiting lanes ?_ held⟩
      intro id' call' same
      rw [← resumed] at same
      exact (kept (id', call') same).1
    · intro m p m' p' step earlier
      exact ⟨step.lanes earlier.1, step.waiting earlier.1 (by simp) earlier.2⟩
  exact both.2

theorem LoopKept.stays (kept : w.LoopKept label) {userId : UserId}
    (filled : w.service.runManager.queue.peek userId ≠ none) : ¬w.Ends label id userId := by
  rintro (nothing | ⟨call, runId, resumed, asks, held⟩ | ⟨call, run, resumed, misses, user⟩)
  · exact filled nothing
  · exact filled ((kept (id, call) resumed).2.1 (userId, runId) asks held)
  · exact filled ((kept (id, call) resumed).2.2.1 run.id misses userId user)

/-- A call of `createRun` that has queued its run goes on to wake the loop of its user: either it
finds the loop at work or it starts one. -/
theorem Moves.wakes (moves : w.Moves label id w') (serial : w.Serial)
    (creating : Creating w.service.runManager w.pending) {call : Call} {userId : UserId}
    (pending : w.pending id = some call) (wakes : call.wakes = some userId)
    (filled : w.service.runManager.queue.peek userId ≠ none)
    (awake : call.rouses = some userId → ∀ other task, w.tasks.get other = some task →
      task.leaving ≠ some userId) : w'.Attended userId := by
  obtain ⟨frame, found⟩ := (w.pending_eq_some id call).mp pending
  have fit := serial.loops.fits id frame call found
  cases call <;> simp only [Call.wakes, reduceCtorEq] at wakes
  cases frame <;> simp only [Frame.Fits] at fit
  rename_i pc
  obtain ⟨user, stored⟩ := creating.stored id pc pending
  have present : w.service.runManager.getRun pc.run.id ≠ none := by
    intro missing
    rw [RunManager.userOf, missing] at stored
    cases stored
  obtain ⟨random, -, goes, -⟩ := moves.goes found
  have move := moves.move
  rw [found] at move
  rcases Call.wakes_next w.service.now random wakes present with ⟨next, awaits, still⟩ |
    ⟨run, rfl, rfl⟩
  · exact .inr ⟨id, next, goes next awaits, still⟩
  · left
    by_cases processing : run.userId ∈ w.service.processingUsers
    · obtain ⟨other, task, got, loop⟩ := serial.loops.looping run.userId processing
      have different : other ≠ id := by
        rintro rfl
        rw [found] at got
        cases got
        cases loop
      refine ⟨other, task, (moves.other different).trans got, loop, ?_⟩
      cases leaving : task.leaving with
      | none => rfl
      | some leaver =>
          have same := Task.loop_of_leaving leaving
          rw [loop] at same
          rw [← Option.some.inj same] at leaving
          exact absurd leaving (awake rfl other task got)
    · obtain ⟨runId, head⟩ := Option.ne_none_iff_exists'.mp filled
      refine ⟨id, _, move.woken processing, rfl, ?_⟩
      rw [RunManager.acquireNextRun, head]
      rfl

/-- A user whose queue is filled before a step is attended to after it. -/
theorem Attending.keeps (held : w.Attending) (serial : w.Serial) (moves : w.Moves label id w')
    (kept : w.LoopKept label) {userId : UserId}
    (filled : w.service.runManager.queue.peek userId ≠ none) : w'.Attended userId := by
  rcases held.attended userId filled with ⟨other, task, found, loop, staying⟩ |
    ⟨other, call, pending, wakes⟩
  · by_cases here : other = id
    · subst here
      rcases moves.loop_goes serial held.creating found loop staying with ⟨task', after⟩ | ends
      · exact .inl ⟨other, task', after⟩
      · exact absurd ends (kept.stays filled)
    · exact .inl ⟨other, task, (moves.other here).trans found, loop, staying⟩
  · by_cases here : other = id
    · subst here
      apply moves.wakes serial held.creating pending wakes filled
      intro rouses other' task found leaving
      have resumed : w.resumed label = some (other, call) := by
        rw [moves.resumed, pending]
        rfl
      have member := (w.tasks.mem_values_iff task).mpr ⟨other', found⟩
      exact filled ((kept (other, call) resumed).2.2.2 userId rouses ⟨task, member, leaving⟩)
    · exact .inr ⟨other, call, (moves.pending_other here).trans pending, wakes⟩

theorem Moves.fills (moves : w.Moves label id w') {userId : UserId}
    (filled : w'.service.runManager.queue.peek userId ≠ none) :
    w.service.runManager.queue.peek userId ≠ none ∨ ∃ frame run,
      w.tasks.get id = some (.calling frame (.createRun (.persisted run))) ∧
        run.userId = userId := by
  have stores := moves.move.stores
  generalize w'.service.runManager = after at stores filled
  cases stores with
  | kept => exact .inl filled
  | created random input fresh => exact .inl filled
  | fired timeoutManager => exact .inl filled
  | listened executing run pc signal was => exact .inl filled
  | resumed frame call random was =>
      rw [Call.resume_queue] at filled
      obtain ⟨runId, head⟩ := Option.ne_none_iff_exists'.mp filled
      rw [InMemoryRunQueue.peek_eq_head] at head
      rcases Call.mem_queueAfter (List.mem_of_mem_head? head) with earlier | ⟨run, creates, -, user⟩
      · left
        rw [InMemoryRunQueue.peek_eq_head]
        intro nothing
        rw [List.head?_eq_none_iff.mp nothing] at earlier
        cases earlier
      · right
        unfold Call.creates at creates
        split at creates <;> cases creates
        exact ⟨frame, run, was, user⟩

theorem Moves.attending (moves : w.Moves label id w') (serial : w.Serial) (kept : w.LoopKept label)
    (held : w.Attending) : w'.Attending where
  creating := moves.creating held.creating
  waiting := moves.waiting kept serial.queues.lanes held.waiting
  attended := by
    intro userId filled
    rcases moves.fills filled with before | ⟨frame, run, found, rfl⟩
    · exact held.keeps serial moves kept before
    · obtain ⟨random, -, goes, -⟩ := moves.goes found
      exact .inr ⟨id, _, goes (.createRun (.enqueued run _)) rfl, rfl⟩

theorem Passes.attending (passes : w.Passes label w') (held : w.Attending) : w'.Attending := by
  obtain ⟨manager, tasks, -, -⟩ := passes.stores
  have pending := passes.pending
  constructor
  · rw [manager, pending]
    exact held.creating
  · rw [manager, pending]
    exact held.waiting
  · intro userId filled
    rw [manager] at filled
    unfold Attended
    rw [tasks, pending]
    exact held.attended userId filled

theorem attending_of_reach {config : RunManagerConfig} {now : Int} {w : Runtime}
    (reached : Transition.Reach step KeepsLoops (init config now) w) : w.Attending := by
  apply reached.invariant_given Serial Attending
  · intro s earlier
    exact serial_of_reach (fun _ _ keeps => keeps.1) earlier
  · exact Attending.init config now
  · intro s label u keeps serial held moved
    rcases step_cases keeps.1 moved with ⟨id, moves⟩ | passes
    · exact moves.attending serial keeps.2 held
    · exact passes.attending held

/-- As long as no loop is lost while its queue is filled, a QUEUED run is in the hands of a call or
in the queue of a user who is attended to, and once nothing is in progress every run has ended. -/
theorem no_run_is_left_behind (config : RunManagerConfig) (now : Int) (w : Runtime)
    (reached : Transition.Reach step KeepsLoops (init config now) w) :
    (w.Quiescent → ∀ runId run, w.service.runManager.getRun runId = some run →
        isTerminalState run.state = true) ∧
      ∀ runId run, w.service.runManager.getRun runId = some run → run.state = .queued →
        (∃ id call, w.pending id = some call ∧ call.Carries runId) ∨
          runId ∈ w.service.runManager.queue.getUserRuns run.userId ∧ w.Attended run.userId := by
  have serial : w.Serial := serial_of_reach (fun _ _ keeps => keeps.1) reached
  have held := attending_of_reach reached
  have queued : ∀ runId run, w.service.runManager.getRun runId = some run → run.state = .queued →
      (∃ id call, w.pending id = some call ∧ call.Carries runId) ∨
        runId ∈ w.service.runManager.queue.getUserRuns run.userId ∧ w.Attended run.userId := by
    intro runId run found waits
    have state : w.service.runManager.stateOf runId = some .queued := by
      rw [RunManager.stateOf, found, ← waits]
      rfl
    have user : w.service.runManager.userOf runId = some run.userId := by
      rw [RunManager.userOf, found]
      rfl
    rcases held.waiting runId run.userId state user with member | carried
    · refine .inr ⟨member, held.attended run.userId ?_⟩
      rw [InMemoryRunQueue.peek_eq_head]
      intro nothing
      rw [List.head?_eq_none_iff.mp nothing] at member
      cases member
    · exact .inl carried
  refine ⟨?_, queued⟩
  intro quiet runId run found
  have idle (id : Nat) : w.tasks.get id = none := (w.tasks.entries_eq_nil_iff).mp quiet id
  cases terminal : isTerminalState run.state with
  | true => rfl
  | false =>
      cases active : isActiveState run.state with
      | true =>
          obtain ⟨id, task, got, -⟩ := serial.holder found active
          rw [idle id] at got
          cases got
      | false =>
          have waits : run.state = .queued := by
            cases state : run.state <;> simp_all [isTerminalState, isActiveState]
          rcases queued runId run found waits with ⟨id, call, pending, -⟩ |
            ⟨-, ⟨id, task, got, -⟩ | ⟨id, call, pending, -⟩⟩
          · rw [quiet.pending id] at pending
            cases pending
          · rw [idle id] at got
            cases got
          · rw [quiet.pending id] at pending
            cases pending

theorem completed_run_has_ended :
    ∃ w : Runtime, w.Quiescent ∧ w.stateOf "run_0_a" = some .completed ∧
      ∀ runId run, w.service.runManager.getRun runId = some run →
        isTerminalState run.state = true := by
  have ran : (Transition.exec (Transition.guarded step KeepsLoops) (init .default 0)
      completedLabels).map (fun w => (w.tasks.entries.length, w.stateOf "run_0_a")) =
      some (0, some .completed) := by decide +kernel
  obtain ⟨w, reached, observed⟩ := Transition.reach_of_observed _ _ ran
  obtain ⟨empty, state⟩ := Prod.mk.inj observed
  have quiet : w.Quiescent := List.eq_nil_of_length_eq_zero empty
  exact ⟨w, quiet, state, (no_run_is_left_behind .default 0 w reached).1 quiet⟩

/-- The lost wake-up: the loop has found the queue empty and is about to leave when the run of a
second request is queued and its `createRun` finds the user in `processingUsers`. -/
def lostWakeUpLabels : List Label :=
  completedLabels.dropLast ++
    [.createRun 1 "b" ⟨"acme", "alice"⟩ ⟨some "pack", some "again", none⟩,
      .resume 1 "", .resume 1 "", .resume 1 "", .resume 0 ""]

/-- The second run stays QUEUED when nothing is in progress any more. -/
theorem woken_run_is_left_behind :
    ¬∀ w : Runtime, Transition.Reach step FreshRun (init .default 0) w → w.Quiescent →
      ∀ runId run, w.service.runManager.getRun runId = some run →
        isTerminalState run.state = true := by
  intro always
  have ran : (Transition.exec (Transition.guarded step FreshRun) (init .default 0)
      lostWakeUpLabels).map (fun w => (w.tasks.entries.length,
        (w.service.runManager.getRun "run_0_b").map Run.state)) = some (0, some .queued) := by
    decide +kernel
  obtain ⟨w, reached, observed⟩ := Transition.reach_of_observed _ _ ran
  obtain ⟨empty, stored⟩ := Prod.mk.inj observed
  obtain ⟨run, found, queued⟩ := Option.map_eq_some_iff.mp stored
  have quiet : w.Quiescent := List.eq_nil_of_length_eq_zero empty
  have ended := always w reached quiet "run_0_b" run found
  rw [queued] at ended
  cases ended

end Runtime

end Minerva
