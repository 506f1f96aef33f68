import Minerva.Runtime.Terminal
import Minerva.Services.Finals

/-! Terminal events and final states: once nothing is in progress, what has been announced for
a run is the state that is stored for it, and a run that has ended has been announced. -/

namespace Minerva

def InMemoryCancellationRegistry.hears (registry : InMemoryCancellationRegistry) (runId : RunId) :
    Bool :=
  (registry.get runId).any (fun context => !context.isCancelled && !context.listeners.isEmpty)

theorem InMemoryCancellationRegistry.hears_iff (registry : InMemoryCancellationRegistry)
    (runId : RunId) :
    registry.hears runId = true ↔ ∃ context, registry.get runId = some context ∧
      context.isCancelled = false ∧ context.listeners ≠ [] := by
  unfold hears
  cases registry.get runId <;> simp

/-- A mark for a run is left by its announcement. -/
def Marked (s : RunExecutionService) (runId : RunId) : Prop :=
  runId ∈ s.terminalEvents → s.announced runId ≠ []

theorem Emits.nonempty {s s' : RunExecutionService} {runId : RunId} {state : RunState}
    (emits : Emits s s' runId state) (marked : Marked s runId) : s'.announced runId ≠ [] := by
  unfold Emits at emits
  rw [emits]
  split
  · rename_i member
    exact marked member
  · simp

theorem Emits.mem {s s' : RunExecutionService} {runId : RunId} {state said : RunState}
    (emits : Emits s s' runId state) (member : said ∈ s'.announced runId) :
    said ∈ s.announced runId ∨ said = state := by
  unfold Emits at emits
  rw [emits] at member
  split at member
  · exact .inl member
  · simpa using member

theorem Emits.grows {s s' : RunExecutionService} {runId : RunId} {state : RunState}
    (emits : Emits s s' runId state) (said : s.announced runId ≠ []) : s'.announced runId ≠ [] := by
  unfold Emits at emits
  rw [emits]
  split
  · exact said
  · simp

theorem Says.grows {s s' : RunExecutionService} {old new : Option Task} {runId : RunId}
    (turn : Says s old s' new runId) (said : s.announced runId ≠ []) :
    s'.announced runId ≠ [] := by
  cases turn with
  | nothing quiet marks =>
      rw [quiet]
      exact said
  | aborts frame call reason context was cancels found live heard emits marked =>
      exact emits.grows said
  | confirms reason call run was answers own state emits marked => exact emits.grows said
  | ends frame call run last state was ends own inside emits forgotten past => exact emits.grows said
  | forgets task run was runs own quiet forgotten past =>
      rw [quiet]
      exact said

theorem Says.marked {s s' : RunExecutionService} {old new : Option Task} {runId : RunId}
    (turn : Says s old s' new runId) (held : Marked s runId) : Marked s' runId := by
  intro member
  cases turn with
  | nothing quiet marks =>
      rw [quiet]
      exact held (marks.mp member)
  | aborts frame call reason context was cancels found live heard emits marked =>
      exact emits.nonempty held
  | confirms reason call run was answers own state emits marked => exact emits.nonempty held
  | ends frame call run last state was ends own inside emits forgotten past =>
      exact emits.nonempty held
  | forgets task run was runs own quiet forgotten past => exact absurd member forgotten

namespace RunExecutionService

theorem announced_terminal {s : RunExecutionService} {runId : RunId} {state : RunState}
    (said : state ∈ s.announced runId) : isTerminalState state = true := by
  obtain ⟨observation, -, ends⟩ := List.mem_filterMap.mp said
  unfold Observation.ends at ends
  split at ends
  · rename_i id event
    split at ends
    · cases event <;> cases ends <;> rfl
    · cases ends
  · cases ends

theorem delivered_marked (s : RunExecutionService) (owned : s.runManager.cancellationRegistry.Owned)
    (call : Call) (random : String) {runId : RunId} (held : Marked s runId) :
    Marked (s.delivered (call.resume s.runManager s.now random)) runId := by
  intro member
  rcases s.delivered_speaks owned call random runId with ⟨quiet, marks⟩ |
    ⟨reason, context, -, -, -, -, emits, -⟩
  · rw [quiet]
    exact held (marks.mp member)
  · exact emits.nonempty held

theorem delivered_emits (s : RunExecutionService) (owned : s.runManager.cancellationRegistry.Owned)
    {call : Call} (random : String) {runId : RunId} {reason : String}
    (cancels : call.cancels = some (runId, reason))
    (hears : s.runManager.cancellationRegistry.hears runId = true) :
    Emits s (s.delivered (call.resume s.runManager s.now random)) runId (abortState reason) := by
  obtain ⟨context, found, live, heard⟩ :=
    (InMemoryCancellationRegistry.hears_iff _ _).mp hears
  unfold delivered
  rw [Call.cancels_aborts s.runManager s.now random cancels found live]
  have own : ∀ abort ∈ context.listeners.map (fun listener => (⟨listener, reason⟩ : Abort)),
      abort.listener.runId = runId ∧ abort.reason = reason := by
    intro abort member
    obtain ⟨listener, installed, rfl⟩ := List.mem_map.mp member
    exact ⟨owned runId context found listener installed, rfl⟩
  exact (foldl_emits { s with runManager := (call.resume s.runManager s.now random).manager } own
    (by simpa using heard)).2.1

theorem resolved_tells {t : RunExecutionService} {frame : Frame} {call : Call} {run : Run}
    {runId : RunId} {state : RunState} (fit : frame.Fits call)
    (inside : call.transition = some (runId, state, .reloaded run))
    (terminal : isTerminalState state = true) (spoken : state ≠ .timedOut)
    (own : run.id = runId) (same : run.state = state) (marked : Marked t runId) :
    (t.resolved frame (some run)).1.announced runId ≠ [] := by
  unfold Call.transition at inside
  split at inside <;> cases inside
  · cases terminal
  · cases frame <;> simp only [Frame.Fits] at fit
    simp only [resolved, if_pos same]
    rw [own]
    exact (emitTerminalOnce_emits rfl).nonempty marked
  · exact absurd rfl spoken
  · cases frame <;> simp only [Frame.Fits] at fit
    subst fit
    simp only [resolved, exit, finish_announced, forgetTerminal_announced, closeRun_announced]
    exact (emitTerminalOnce_emits rfl).nonempty marked
  · cases frame <;> simp only [Frame.Fits] at fit
    subst fit
    simp only [resolved, exit, finish_announced, forgetTerminal_announced, closeRun_announced]
    exact (emitTerminalOnce_emits rfl).nonempty marked

end RunExecutionService

/-- A call that has stored a terminal state, but for TIMED_OUT, goes on until it is announced. -/
theorem Move.tells {s s' : RunExecutionService} {frame : Frame} {call : Call} {new : Option Task}
    {runId : RunId} {state : RunState} (move : Move s (some (.calling frame call)) s' new)
    (fit : frame.Fits call) (owned : s.runManager.cancellationRegistry.Owned)
    (wrote : call.wrote = some (runId, state)) (terminal : isTerminalState state = true)
    (spoken : state ≠ .timedOut)
    (read : ∀ run, call.transition = some (runId, state, .reloaded run) →
      run.id = runId ∧ run.state = state)
    (stored : s.runManager.stateOf runId = some state) (marked : Marked s runId) :
    (∃ next, new = some (.calling frame next) ∧ next.wrote = some (runId, state)) ∨
      s'.announced runId ≠ [] := by
  obtain ⟨random, -, goes, answers⟩ := move.calling
  obtain ⟨held, found, -⟩ := Option.map_eq_some_iff.mp stored
  rcases Call.wrote_next s.runManager s.now random wrote terminal spoken found with
    ⟨next, awaits, still⟩ | ⟨run, inside, resolves⟩
  · exact .inl ⟨next, goes next awaits, still⟩
  · right
    obtain ⟨own, same⟩ := read run inside
    rw [answers (some run) resolves]
    exact RunExecutionService.resolved_tells fit inside terminal spoken own same
      (s.delivered_marked owned call random marked)

theorem Settled.answers {m : RunManager} {p : Pending} (held : Settled m p) {id : Nat} {call : Call}
    {run : Run} (pending : p id = some call) (answers : call.answers = some run)
    (state : run.state = .cancelled) : m.stateOf run.id = some .cancelled := by
  have terminal : isTerminalState run.state = true := by
    rw [state]
    rfl
  unfold Call.answers at answers
  split at answers
  · split at answers <;> cases answers
    obtain ⟨own, stored⟩ := held.opened id _ _ run pending terminal
    rw [own, stored, state]
  · cases answers
    obtain ⟨own, -⟩ := held.read id _ _ .cancelled run pending rfl rfl
    rw [own]
    exact held.wrote id _ _ .cancelled pending rfl rfl
  · cases answers

namespace Runtime

/-- Announcements and stored states go together: no terminal state is overwritten by another
one; a signal that is heard announces the state that its call is about to store, and that state
can still be stored; and a timeout that finds its run RUNNING is heard. -/
def FinalKept (w : Runtime) (label : Label) : Prop :=
  ∀ resumed ∈ w.resumed label,
    (∀ write ∈ resumed.2.write, ∀ state ∈ w.stateOf write.1,
      isTerminalState state = true → state = write.2) ∧
    ∀ cancelled ∈ resumed.2.cancels,
      (w.service.runManager.cancellationRegistry.hears cancelled.1 = true →
        abortState cancelled.2 = resumed.2.cancelState ∧
          ∃ state ∈ w.stateOf cancelled.1, state = resumed.2.cancelState ∨
            isValidStateTransition state resumed.2.cancelState = true) ∧
      (w.service.runManager.cancellationRegistry.hears cancelled.1 = false →
        resumed.2.cancelState = .timedOut → w.stateOf cancelled.1 ≠ some .running)

instance (w : Runtime) (label : Label) : Decidable (w.FinalKept label) :=
  inferInstanceAs (Decidable (∀ resumed ∈ w.resumed label, _ ∧ _))

def KeepsFinal (w : Runtime) (label : Label) : Prop := w.FreshRun label ∧ w.FinalKept label

instance (w : Runtime) (label : Label) : Decidable (w.KeepsFinal label) :=
  inferInstanceAs (Decidable (_ ∧ _))

def Storing (w : Runtime) (runId : RunId) (state : RunState) : Prop :=
  w.stateOf runId = some state ∨ ∃ id call before, w.pending id = some call ∧
    call.write = some (runId, state) ∧ w.stateOf runId = some before

/-- What has been announced is stored or about to be stored, and what has ended has been
announced or is about to be. -/
structure Final (w : Runtime) : Prop where
  settled : Settled w.service.runManager w.pending
  owned : w.service.runManager.cancellationRegistry.Owned
  marked : ∀ runId, Marked w.service runId
  heard : ∀ runId state, state ∈ w.service.announced runId → w.Storing runId state
  timed : ∀ runId, Timing w.pending runId → w.service.announced runId ≠ []
  told : ∀ runId state, w.stateOf runId = some state → isTerminalState state = true →
    w.service.announced runId ≠ [] ∨ state ≠ .timedOut ∧
      ∃ id call, w.pending id = some call ∧ call.wrote = some (runId, state)

variable {w w' : Runtime} {label : Label} {id : Nat}

theorem FinalKept.terminal (kept : w.FinalKept label) :
    KeepsTerminal w.service.runManager (w.resumed label) := by
  intro id call runId newState state resumed writes stored terminal
  exact (kept (id, call) resumed).1 (runId, newState) writes state stored terminal

theorem keepsTerminal_none (m : RunManager) : KeepsTerminal m none := by
  intro id call runId newState state impossible
  cases impossible

theorem Moves.settled (moves : w.Moves label id w') (kept : w.FinalKept label)
    (held : Settled w.service.runManager w.pending) :
    Settled w'.service.runManager w'.pending := by
  apply moves.keeps Settled held
  · intro call m' p' resumed step
    exact step.settled (resumed ▸ kept.terminal) held
  · intro m p m' p' step earlier
    exact step.settled (keepsTerminal_none m) earlier

theorem Moves.final (moves : w.Moves label id w') (kept : w.FinalKept label) {runId : RunId}
    {state : RunState} (stored : w.stateOf runId = some state)
    (terminal : isTerminalState state = true) : w'.stateOf runId = some state := by
  apply moves.keeps (fun m _ => m.stateOf runId = some state) stored
  · intro call m' p' resumed step
    exact step.final (resumed ▸ kept.terminal) stored terminal
  · intro m p m' p' step earlier
    exact step.final (keepsTerminal_none m) earlier terminal

theorem Moves.timing (moves : w.Moves label id w') {runId : RunId} (times : Timing w'.pending runId) :
    Timing w.pending runId ∨ ∃ call reason, w.resumed label = some (id, call) ∧
      call.cancels = some (runId, reason) ∧ call.cancelState = .timedOut ∧
        w.stateOf runId = some .running := by
  revert times
  apply moves.keeps (fun _ p => Timing p runId → Timing w.pending runId ∨ ∃ call reason,
    w.resumed label = some (id, call) ∧ call.cancels = some (runId, reason) ∧
      call.cancelState = .timedOut ∧ w.stateOf runId = some .running) (fun held => .inl held)
  · intro call m' p' resumed step times
    rcases step.timing times with earlier | ⟨id', call', reason, same, signals⟩
    · exact .inl earlier
    · cases same
      exact .inr ⟨call, reason, resumed, signals⟩
  · intro m p m' p' step earlier times
    rcases step.timing times with before | ⟨id', call', reason, same, -⟩
    · exact earlier before
    · cases same

theorem Moves.hears (moves : w.Moves label id w')
    (owned : w.service.runManager.cancellationRegistry.Owned) {call : Call} {runId : RunId}
    {reason : String} (resumed : w.resumed label = some (id, call))
    (cancels : call.cancels = some (runId, reason))
    (hears : w.service.runManager.cancellationRegistry.hears runId = true) :
    Emits w.service w'.service runId (abortState reason) := by
  obtain ⟨frame, got⟩ := moves.calls resumed
  have move := moves.move
  rw [got] at move
  obtain ⟨random, after⟩ := move.delivers
  obtain ⟨next, awaits, -⟩ := Call.cancels_next w.service.runManager w.service.now random cancels
  rw [after next awaits]
  exact w.service.delivered_emits owned random cancels hears

theorem Final.storing (held : w.Final) (moves : w.Moves label id w') (kept : w.FinalKept label)
    {runId : RunId} {state : RunState} (said : state ∈ w.service.announced runId) :
    w'.Storing runId state := by
  have terminal := RunExecutionService.announced_terminal said
  rcases held.heard runId state said with stored | ⟨id', call, before, pending, writes, stored⟩
  · exact .inl (moves.final kept stored terminal)
  · by_cases moved : id' = id
    · subst moved
      obtain ⟨frame, was⟩ := (w.pending_eq_some id' call).mp pending
      obtain ⟨random, manager, -⟩ := moves.goes was
      left
      rw [stateOf, manager]
      exact Call.resume_writes _ _ random call runId before state writes stored
    · right
      rcases moves.move.stateOf runId with same | ⟨missing, -⟩ | ⟨_, _, _, after, -, -, -, now⟩
      · exact ⟨id', call, before, (moves.pending_other moved).trans pending, writes,
          same.trans stored⟩
      · rw [stateOf, missing] at stored
        cases stored
      · exact ⟨id', call, after, (moves.pending_other moved).trans pending, writes, now⟩

/-- A signal that is heard announces the state that its call is about to store. -/
theorem FinalKept.storing (kept : w.FinalKept label) (moves : w.Moves label id w') {frame : Frame}
    {call : Call} {runId : RunId} {reason : String}
    (was : w.tasks.get id = some (.calling frame call))
    (cancels : call.cancels = some (runId, reason))
    (hears : w.service.runManager.cancellationRegistry.hears runId = true) :
    w'.Storing runId (abortState reason) := by
  obtain ⟨agrees, state, stored, able⟩ :=
    ((kept (id, call) (moves.resumes was)).2 (runId, reason) cancels).1 hears
  rw [agrees]
  rcases able with same | valid
  · rw [← same]
    exact .inl (moves.final kept stored (same ▸ Call.cancelState_terminal call))
  · obtain ⟨random, manager, awaits, -⟩ := moves.goes was
    obtain ⟨silent, next, still, inside⟩ := Call.cancelState_next w.service.runManager
      w.service.now random cancels
    have kept' : w'.stateOf runId = some state := by
      rw [stateOf, manager]
      exact ((Call.resume_effect _ _ _ call).stateOf_of_no_write silent runId).trans stored
    exact .inr ⟨id, next, state, awaits next still,
      (Call.write_of_loaded stored inside).mpr valid, kept'⟩

theorem Final.heard_after (held : w.Final) (serial : w.Serial) (moves : w.Moves label id w')
    (kept : w.FinalKept label) {runId : RunId} {state : RunState}
    (said : state ∈ w'.service.announced runId) : w'.Storing runId state := by
  cases moves.speaks serial held.owned runId with
  | nothing quiet marks => exact held.storing moves kept (quiet ▸ said)
  | forgets task run was runs own quiet forgotten past => exact held.storing moves kept (quiet ▸ said)
  | aborts frame call reason context was cancels found live heard emits marked =>
      rcases emits.mem said with before | rfl
      · exact held.storing moves kept before
      · have hears := (InMemoryCancellationRegistry.hears_iff _ _).mpr ⟨context, found, live, heard⟩
        exact kept.storing moves was cancels hears
  | confirms reason call run was answers own state emits marked =>
      rcases emits.mem said with before | rfl
      · exact held.storing moves kept before
      · have pending := (w.pending_eq_some id call).mpr ⟨_, was⟩
        have stored := held.settled.answers pending answers state
        rw [own] at stored
        exact .inl (moves.final kept stored rfl)
  | ends frame call run last state was ends own inside emits forgotten past =>
      rcases emits.mem said with before | rfl
      · exact held.storing moves kept before
      · have pending := (w.pending_eq_some id call).mpr ⟨_, was⟩
        have terminal := RunExecutionService.announced_terminal said
        have stored := held.settled.wrote id call runId _ pending
          (Call.wrote_of_reloaded inside) terminal
        exact .inl (moves.final kept stored terminal)

theorem Final.told_after (held : w.Final) (serial : w.Serial) (moves : w.Moves label id w')
    {runId : RunId} {state : RunState} (stored : w'.stateOf runId = some state)
    (terminal : isTerminalState state = true) :
    w'.service.announced runId ≠ [] ∨ state ≠ .timedOut ∧
      ∃ id call, w'.pending id = some call ∧ call.wrote = some (runId, state) := by
  have grows : w.service.announced runId ≠ [] → w'.service.announced runId ≠ [] :=
    (moves.speaks serial held.owned runId).grows
  rcases moves.move.stateOf runId with same | ⟨-, created⟩ |
    ⟨frame, call, before, newState, was, earlier, writes, after⟩
  · rcases held.told runId state (same.symm.trans stored) terminal with said |
      ⟨spoken, id', call, pending, wrote⟩
    · exact .inl (grows said)
    · by_cases moved : id' = id
      · subst moved
        obtain ⟨frame, was⟩ := (w.pending_eq_some id' call).mp pending
        have move := moves.move
        rw [was] at move
        have fit := serial.loops.fits id' frame call was
        rcases move.tells fit held.owned wrote terminal spoken
            (fun run inside => held.settled.read id' call runId state run pending inside terminal)
            (same.symm.trans stored) (held.marked runId) with ⟨next, left, still⟩ | said
        · exact .inr ⟨spoken, id', next, (w'.pending_eq_some id' next).mpr ⟨frame, left⟩, still⟩
        · exact .inl said
      · exact .inr ⟨spoken, id', call, (moves.pending_other moved).trans pending, wrote⟩
  · rw [stateOf, created] at stored
    cases stored
    cases terminal
  · rw [stateOf, after] at stored
    cases stored
    have pending := (w.pending_eq_some id call).mpr ⟨frame, was⟩
    by_cases timed : state = .timedOut
    · subst timed
      exact .inl (grows (held.timed runId ⟨id, call, pending, writes⟩))
    · right
      refine ⟨timed, ?_⟩
      obtain ⟨random, -, awaits, -⟩ := moves.goes was
      have other : state ≠ .leased := by
        rintro rfl
        cases terminal
      obtain ⟨next, still, wrote⟩ := Call.wrote_of_write w.service.runManager w.service.now random
        writes other earlier
      exact ⟨id, next, awaits next still, wrote⟩

theorem Final.moves (held : w.Final) (serial : w.Serial) (moves : w.Moves label id w')
    (kept : w.FinalKept label) : w'.Final := by
  constructor
  · exact moves.settled kept held.settled
  · exact moves.owned held.owned
  · intro runId
    exact (moves.speaks serial held.owned runId).marked (held.marked runId)
  · intro runId state said
    exact held.heard_after serial moves kept said
  · intro runId times
    rcases moves.timing times with before | ⟨call, reason, resumed, cancels, timed, running⟩
    · exact (moves.speaks serial held.owned runId).grows (held.timed runId before)
    · cases hears : w.service.runManager.cancellationRegistry.hears runId with
      | true =>
          have emits := moves.hears held.owned resumed cancels hears
          exact emits.nonempty (held.marked runId)
      | false =>
          have silent := ((kept (id, call) resumed).2 (runId, reason) cancels).2 hears timed
          exact absurd running silent
  · intro runId state stored terminal
    exact held.told_after serial moves stored terminal

theorem Passes.final (passes : w.Passes label w') (held : w.Final) : w'.Final := by
  obtain ⟨manager, tasks, -, marks⟩ := passes.stores
  have pending := passes.pending
  have said := passes.announced
  have states (runId : RunId) : w'.stateOf runId = w.stateOf runId := by
    rw [stateOf, manager]
    rfl
  constructor
  · rw [manager, pending]
    exact held.settled
  · rw [manager]
    exact held.owned
  · intro runId member
    rw [said]
    exact held.marked runId (marks ▸ member)
  · intro runId state member
    rw [said] at member
    unfold Storing
    rw [pending, states]
    exact held.heard runId state member
  · intro runId times
    rw [said]
    exact held.timed runId (pending ▸ times)
  · intro runId state stored terminal
    rw [states] at stored
    rw [said, pending]
    exact held.told runId state stored terminal

theorem final_of_reach {config : RunManagerConfig} {now : Int} {w : Runtime}
    (reached : Transition.Reach step KeepsFinal (init config now) w) : w.Final := by
  apply reached.invariant_given Serial Final
  · intro s earlier
    exact serial_of_reach (fun _ _ keeps => keeps.1) earlier
  · constructor
    · exact Settled.init config
    · intro runId context found
      cases found
    · intro runId member
      cases member
    · intro runId state said
      cases said
    · rintro runId ⟨id, call, pending, -⟩
      cases pending
    · intro runId state stored
      cases stored
  · intro s label u keeps serial held moved
    rcases step_cases keeps.1 moved with ⟨id, moves⟩ | passes
    · exact held.moves serial moves keeps.2
    · exact passes.final held

/-- As long as announcements and stored states go together, once nothing is in progress every
terminal event of a run announces its stored state, and every run that has ended, whether it
has been RUNNING or not, has been announced. -/
theorem events_agree_with_final_states (config : RunManagerConfig) (now : Int) (w : Runtime)
    (reached : Transition.Reach step KeepsFinal (init config now) w) (quiet : w.Quiescent)
    (runId : RunId) :
    (∀ state ∈ w.service.announced runId, w.stateOf runId = some state) ∧
      ∀ state, w.stateOf runId = some state → isTerminalState state = true →
        w.service.announced runId ≠ [] := by
  have held := final_of_reach reached
  constructor
  · intro state said
    rcases held.heard runId state said with stored | ⟨id, call, before, pending, -⟩
    · exact stored
    · rw [quiet.pending id] at pending
      cases pending
  · intro state stored terminal
    rcases held.told runId state stored terminal with said | ⟨-, id, call, pending, -⟩
    · exact said
    · rw [quiet.pending id] at pending
      cases pending

theorem completed_run_is_announced :
    ∃ w : Runtime, w.Quiescent ∧ w.stateOf "run_0_a" = some .completed ∧
      w.service.announced "run_0_a" ≠ [] := by
  have ran : (Transition.exec (Transition.guarded step KeepsFinal) (init .default 0)
      completedLabels).map (fun w => (w.tasks.entries.length, w.stateOf "run_0_a")) =
      some (0, some .completed) := by decide +kernel
  obtain ⟨w, reached, observed⟩ := Transition.reach_of_observed _ _ ran
  obtain ⟨empty, state⟩ := Prod.mk.inj observed
  have quiet : w.Quiescent := List.eq_nil_of_length_eq_zero empty
  have agree := events_agree_with_final_states .default 0 w reached quiet "run_0_a"
  exact ⟨w, quiet, state, agree.2 .completed state rfl⟩

/-- The run is cancelled for the reason that the timeout gives too, and the execution ends. -/
def timeoutReasonLabels : List Label :=
  promptedLabels ++ .cancelRun 1 "run_0_a" ⟨"acme", "alice"⟩ (some ⟨some "timeout"⟩) ::
    List.replicate 6 (.resume 1 "") ++ .reply 0 (.prompted []) :: List.replicate 3 (.resume 0 "")

/-- A run that a client cancels for the reason `timeout` is announced as timed out. -/
theorem cancelled_run_is_announced_timed_out :
    ¬∀ w : Runtime, Transition.Reach step FreshRun (init .default 0) w → w.Quiescent →
      ∀ runId, ∀ state ∈ w.service.announced runId, w.stateOf runId = some state := by
  intro always
  have ran : (Transition.exec (Transition.guarded step FreshRun) (init .default 0)
      timeoutReasonLabels).map (fun w => (w.tasks.entries.length, w.service.announced "run_0_a",
        w.stateOf "run_0_a")) = some (0, [.timedOut], some .cancelled) := by decide +kernel
  obtain ⟨w, reached, observed⟩ := Transition.reach_of_observed _ _ ran
  simp only [Prod.mk.injEq] at observed
  obtain ⟨empty, said, stored⟩ := observed
  have quiet : w.Quiescent := List.eq_nil_of_length_eq_zero empty
  have agrees := always w reached quiet "run_0_a" .timedOut (by rw [said]; simp)
  rw [stored] at agrees
  cases agrees

end Runtime

end Minerva
