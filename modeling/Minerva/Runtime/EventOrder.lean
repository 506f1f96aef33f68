import Minerva.Runtime.Abort
import Minerva.Runtime.Events
import Minerva.Runtime.FinalEvents
import Minerva.Runtime.LeftBehind
import Minerva.Runtime.TerminalOnce

/-! The order of the events of a run. It is kept as long as `RunManager` answers for a run only
after `createRun` has, no cancellation announces the end of a run that can still be started or
prompted, and an agent is silent once it was told to abort. -/

namespace Minerva

def Observation.aborts : Observation → Option RunId
  | .agentAborted runId => some runId
  | _ => none

def RunExecutionService.aborted (s : RunExecutionService) : List RunId :=
  s.log.filterMap Observation.aborts

def Task.loads : Task → Option RunId
  | .executing _ run (.loadingPack _) => some run.id
  | _ => none

def Call.reports : Call → Option RunId
  | .startRun runId (.started _) => some runId
  | .completeRun runId _ (.transition (.reloaded _)) => some runId
  | .failRun runId _ (.transition (.reloaded _)) => some runId
  | _ => none

theorem Call.hears_before {m : RunManager} {now : Int} {random : String} {call : Call}
    {runId : RunId}
    (hears : (call.resume m now random).manager.cancellationRegistry.hears runId = true) :
    m.cancellationRegistry.hears runId = true := by
  obtain ⟨context, found, live, heard⟩ :=
    (InMemoryCancellationRegistry.hears_iff _ _).mp hears
  apply (InMemoryCancellationRegistry.hears_iff _ _).mpr
  have signals := Call.resume_signals m now random call
  generalize (call.resume m now random).manager.cancellationRegistry = after at signals found
  generalize (call.resume m now random).aborts = aborts at signals
  cases signals with
  | silent keeps => exact ⟨context, found, live, heard⟩
  | creates id run starts =>
      rw [InMemoryCancellationRegistry.get_create] at found
      split at found
      · cases found
        exact absurd rfl heard
      · exact ⟨context, found, live, heard⟩
  | cancels id reason cancels =>
      rw [InMemoryCancellationRegistry.get_cancel] at found
      split at found
      · obtain ⟨before, got, rfl⟩ := Option.map_eq_some_iff.mp found
        unfold CancellationContext.cancel at live heard
        split at live
        · exact ⟨before, got, live, by rwa [if_pos ‹_›] at heard⟩
        · cases live
      · exact ⟨context, found, live, heard⟩
  | forgets id forgets =>
      rw [InMemoryCancellationRegistry.get_remove] at found
      split at found
      · cases found
      · exact ⟨context, found, live, heard⟩

theorem Move.hears_before {s s' : RunExecutionService} {old new : Option Task}
    (move : Move s old s' new) {runId : RunId}
    (hears : s'.runManager.cancellationRegistry.hears runId = true) :
    s.runManager.cancellationRegistry.hears runId = true ∨
      ∃ userId run signal, old = some (.executing userId run (.loadingPack signal)) ∧
        run.id = runId ∧ new = some (.executing userId run (.prompting true)) := by
  have stores := move.stores
  generalize after : s'.runManager = m at stores hears
  cases stores with
  | kept => exact .inl hears
  | created random input fresh => exact .inl hears
  | fired timeoutManager => exact .inl hears
  | resumed frame call random was => exact .inl (Call.hears_before hears)
  | listened userId run pc signal was =>
      rw [← after] at hears
      subst was
      cases move with
      | replied _ _ _ reply outcome answer =>
          rcases RunExecutionService.replied_manager answer with ⟨manager, -⟩ |
            ⟨given, rfl, -, manager, now⟩
          · rw [manager] at hears
            exact .inl hears
          · obtain ⟨context, found, live, heard⟩ :=
              (InMemoryCancellationRegistry.hears_iff _ _).mp hears
            rw [manager] at found
            simp only [InMemoryCancellationRegistry.get_addAbortListener] at found
            split at found
            · rename_i same
              exact .inr ⟨userId, run, some given, rfl, same.symm, now⟩
            · exact .inl ((InMemoryCancellationRegistry.hears_iff _ _).mpr
                ⟨context, found, live, heard⟩)
      | continued _ _ _ outcome goes =>
          rw [RunExecutionService.executeResume_manager goes] at hears
          exact .inl hears

namespace Runtime

def confirms (w : Runtime) (call : Call) : Option RunId :=
  (call.answers.filter (fun run =>
    run.state = .cancelled ∧ run.id ∉ w.service.terminalEvents)).map Run.id

def speaks (w : Runtime) : Label → Option RunId
  | .agentEvent id event => if mapsAgentEvent event then (w.tasks.get id).bind Task.prompts else none
  | _ => none

def Answered (w : Runtime) (runId : RunId) : Prop :=
  ∀ task ∈ w.tasks.values, ∀ call ∈ task.call, call.creation ≠ some runId

instance (w : Runtime) (runId : RunId) : Decidable (w.Answered runId) :=
  inferInstanceAs (Decidable (∀ task ∈ w.tasks.values, _))

/-- The run is neither queued nor LEASED, nobody acquires or starts it, and neither is its agent
pack loaded nor its agent prompted. -/
def Idle (w : Runtime) (runId : RunId) : Prop :=
  (∀ userId ∈ w.service.runManager.userOf runId,
    runId ∉ w.service.runManager.queue.getUserRuns userId) ∧
  w.stateOf runId ≠ some .leased ∧
  ∀ task ∈ w.tasks.values, (∀ call ∈ task.call, call.advances ≠ some runId) ∧
    task.loads ≠ some runId ∧ task.prompts ≠ some runId

instance (w : Runtime) (runId : RunId) : Decidable (w.Idle runId) :=
  inferInstanceAs (Decidable ((∀ userId ∈ w.service.runManager.userOf runId, _) ∧ _ ∧
    ∀ task ∈ w.tasks.values, _))

/-- `createRun` answers with a run before `startRun`, `completeRun`, `failRun` or an announced
cancellation do, a cancellation is announced for an idle run, and no event is broadcast of an agent
that was told to abort. -/
def OrderKept (w : Runtime) (label : Label) : Prop :=
  (∀ resumed ∈ w.resumed label,
    (∀ runId ∈ resumed.2.reports, w.Answered runId) ∧
    ∀ runId ∈ w.confirms resumed.2, w.Answered runId ∧ w.Idle runId) ∧
  ∀ runId ∈ w.speaks label, runId ∉ w.service.aborted

instance (w : Runtime) (label : Label) : Decidable (w.OrderKept label) :=
  inferInstanceAs (Decidable ((∀ resumed ∈ w.resumed label, _ ∧ _) ∧
    ∀ runId ∈ w.speaks label, _))

def KeepsOrder (w : Runtime) (label : Label) : Prop := w.FreshRun label ∧ w.OrderKept label

instance (w : Runtime) (label : Label) : Decidable (w.KeepsOrder label) :=
  inferInstanceAs (Decidable (_ ∧ _))

variable {w w' : Runtime} {label : Label} {id : Nat} {runId : RunId}

theorem forall_calls (w : Runtime) (P : Call → Prop) :
    (∀ task ∈ w.tasks.values, ∀ call ∈ task.call, P call) ↔
      ∀ id call, w.pending id = some call → P call := by
  constructor
  · intro every id call found
    obtain ⟨task, got, inside⟩ := Option.bind_eq_some_iff.mp found
    exact every task ((w.tasks.mem_values_iff task).mpr ⟨id, got⟩) call inside
  · intro every task member call inside
    obtain ⟨id, got⟩ := (w.tasks.mem_values_iff task).mp member
    exact every id call (Option.bind_eq_some_iff.mpr ⟨task, got, inside⟩)

theorem mem_aborted (s : RunExecutionService) (runId : RunId) :
    runId ∈ s.aborted ↔ .agentAborted runId ∈ s.log := by
  rw [RunExecutionService.aborted, List.mem_filterMap]
  constructor
  · rintro ⟨observation, member, aborts⟩
    cases observation <;> cases aborts
    exact member
  · intro member
    exact ⟨_, member, rfl⟩

/-- Nothing brings the run closer to RUNNING, and its agent pack is not being loaded. -/
structure AtRest (w : Runtime) (runId : RunId) : Prop where
  rests : Rests w.service.runManager w.pending runId
  unloaded : ∀ id task, w.tasks.get id = some task → task.loads ≠ some runId

/-- The run rests, and its agent, if it still works, has been told to abort. -/
structure Concluded (w : Runtime) (runId : RunId) : Prop where
  atRest : w.AtRest runId
  silenced : ∀ id task, w.tasks.get id = some task → task.prompts = some runId →
    .agentAborted runId ∈ w.service.log

theorem loading_of_loads {task : Task} (loads : task.loads = some runId) :
    ∃ userId run signal, task = .executing userId run (.loadingPack signal) ∧ run.id = runId := by
  unfold Task.loads at loads
  split at loads <;> cases loads
  exact ⟨_, _, _, rfl, rfl⟩

theorem Moves.attends (moves : w.Moves label id w') (serial : w.Serial) :
    Attends w.service (w.tasks.get id) w'.service (w'.tasks.get id) :=
  moves.move.attends (fun frame call found => serial.loops.fits id frame call found)

theorem AtRest.moves (held : w.AtRest runId) (serial : w.Serial) (moves : w.Moves label id w') :
    w'.AtRest runId := by
  constructor
  · apply moves.keeps (fun m p => Rests m p runId) held.rests
    · intro call m' p' resumed step
      exact step.rests held.rests
    · intro m p m' p' step earlier
      exact step.rests earlier
  · intro id' task found loads
    by_cases here : id' = id
    · subst here
      obtain ⟨userId, run, signal, rfl, own⟩ := loading_of_loads loads
      have attends := moves.attends serial
      rw [found] at attends
      obtain ⟨-, -, last, workspaceId, was⟩ := attends.of_loading
      have pending := (w.pending_eq_some id' _).mpr ⟨_, was⟩
      exact held.rests.idle id' _ pending (congrArg some own)
    · rw [moves.other here] at found
      exact held.unloaded id' task found loads

theorem Concluded.moves (held : w.Concluded runId) (serial : w.Serial) (moves : w.Moves label id w') :
    w'.Concluded runId := by
  refine ⟨held.atRest.moves serial moves, ?_⟩
  intro id' task found prompts
  by_cases here : id' = id
  · subst here
    obtain ⟨userId, run, listening, rfl, own⟩ := Task.prompting_of_prompts prompts
    have attends := moves.attends serial
    rw [found] at attends
    obtain ⟨signal, was, -⟩ := attends.of_prompting
    exact absurd (congrArg some own) (held.atRest.unloaded id' _ was)
  · rw [moves.other here] at found
    exact moves.log (held.silenced id' task found prompts)

theorem Idle.concluded (idle : w.Idle runId) (lanes : Lanes w.service.runManager w.pending)
    (stored : ∃ userId, w.service.runManager.userOf runId = some userId) : w.Concluded runId := by
  obtain ⟨absent, unleased, tasks⟩ := idle
  have each {id : Nat} {task : Task} (found : w.tasks.get id = some task) :=
    tasks task ((w.tasks.mem_values_iff task).mpr ⟨id, found⟩)
  refine ⟨⟨⟨stored, ?_, unleased, ?_⟩, ?_⟩, ?_⟩
  · intro userId member
    exact absent userId (lanes.stored userId runId member) member
  · exact (w.forall_calls _).mp (fun task member => (tasks task member).1)
  · intro id task found
    exact (each found).2.1
  · intro id task found prompts
    exact absurd prompts (each found).2.2

theorem Serial.atRest (serial : w.Serial) (member : runId ∈ w.service.executions)
    (unleased : w.stateOf runId ≠ some .leased)
    (past : ∀ id task, w.tasks.get id = some task → task.loads ≠ some runId ∧
      ∀ userId run workspaceId call, task = .calling (.start userId run workspaceId) call →
        run.id ≠ runId) : w.AtRest runId := by
  constructor
  · apply (serial.executions.gone runId member).rests unleased
    intro id pc pending
    obtain ⟨frame, found⟩ := (w.pending_eq_some id _).mp pending
    have fit := serial.loops.fits id frame _ found
    cases frame <;> simp only [Frame.Fits] at fit
    exact absurd fit ((past id _ found).2 _ _ _ _ rfl)
  · intro id task found
    exact (past id task found).1

theorem Serial.unleased (serial : w.Serial) (moves : w.Moves label id w')
    (member : runId ∈ w.service.executions) (before : w.stateOf runId ≠ some .leased) :
    w'.stateOf runId ≠ some .leased := by
  intro leased
  rcases moves.move.stateOf runId with same | ⟨-, after⟩ |
    ⟨frame, call, state, newState, found, -, writes, after⟩
  · exact before (same.symm.trans leased)
  · rw [stateOf, after] at leased
    cases leased
  · rw [stateOf, after] at leased
    cases leased
    have pending := (w.pending_eq_some id call).mpr ⟨frame, found⟩
    rcases Call.write_target writes with ⟨-, userId, taken⟩ | ⟨impossible, -⟩ | impossible
    · exact (serial.executions.gone runId member).free id call userId pending (.inr taken)
    · cases impossible
    · cases impossible

/-- What every run of the service keeps as long as the order of events is kept. -/
structure Chronicle (w : Runtime) : Prop where
  owned : w.service.runManager.cancellationRegistry.Owned
  creating : Creating w.service.runManager w.pending
  once : OneCreates w.pending
  answerable : Answerable w.service.runManager w.pending
  created : ∀ runId, w.service.events runId ≠ [] → Created w.service.runManager w.pending runId
  heralded : ∀ runId, Created w.service.runManager w.pending runId →
    .queued ∈ w.service.events runId
  ordered : ∀ runId, Ordered (w.service.events runId)
  deaf : ∀ id task runId, w.tasks.get id = some task → task.deaf = some runId →
    w.stateOf runId ≠ some .leased
  begun : ∀ id task runId, w.tasks.get id = some task →
    task.loads = some runId ∨ task.prompts = some runId → .started ∈ w.service.events runId
  listening : ∀ runId, w.service.runManager.cancellationRegistry.hears runId = true →
    w.AtRest runId ∧ .started ∈ w.service.events runId
  concluded : ∀ runId, .terminal ∈ w.service.events runId → w.Concluded runId

theorem Moves.broadcasts (moves : w.Moves label id w') (serial : w.Serial) (runId : RunId) :
    Broadcasts w.service (w.tasks.get id) w'.service (w'.tasks.get id) runId :=
  moves.move.broadcasts (fun frame call found => serial.loops.fits id frame call found) runId

theorem Moves.created (moves : w.Moves label id w')
    (created : Created w.service.runManager w.pending runId) :
    Created w'.service.runManager w'.pending runId := by
  apply moves.keeps (fun m p => Created m p runId) created
  · intro call m' p' resumed step
    exact step.created created
  · intro m p m' p' step earlier
    exact step.created earlier

theorem Moves.oneCreates (moves : w.Moves label id w')
    (creating : Creating w.service.runManager w.pending) (one : OneCreates w.pending) :
    OneCreates w'.pending := by
  have both : Creating w'.service.runManager w'.pending ∧ OneCreates w'.pending := by
    apply moves.keeps (fun m p => Creating m p ∧ OneCreates p) ⟨creating, one⟩
    · intro call m' p' resumed step
      exact ⟨step.creating creating, step.oneCreates creating one⟩
    · intro m p m' p' step held
      exact ⟨step.creating held.1, step.oneCreates held.1 held.2⟩
  exact both.2

theorem Moves.answerable (moves : w.Moves label id w')
    (queues : Queues w.service.runManager w.pending)
    (held : Answerable w.service.runManager w.pending) :
    Answerable w'.service.runManager w'.pending := by
  have all : (Lanes w'.service.runManager w'.pending ∧ Named w'.service.runManager w'.pending) ∧
      Answerable w'.service.runManager w'.pending := by
    apply moves.keeps (fun m p => (Lanes m p ∧ Named m p) ∧ Answerable m p)
      ⟨⟨queues.lanes, queues.named⟩, held⟩
    · intro call m' p' resumed step
      exact ⟨⟨step.lanes queues.lanes, step.named queues.lanes queues.named⟩,
        step.answerable queues.named held⟩
    · intro m p m' p' step earlier
      obtain ⟨⟨lanes, named⟩, answerable⟩ := earlier
      exact ⟨⟨step.lanes lanes, step.named lanes named⟩, step.answerable named answerable⟩
  exact all.2

theorem Chronicle.heralded_after (held : w.Chronicle) (serial : w.Serial)
    (moves : w.Moves label id w')
    (created : Created w'.service.runManager w'.pending runId) :
    .queued ∈ w'.service.events runId := by
  revert created
  apply moves.keeps (fun m p => Created m p runId → .queued ∈ w'.service.events runId)
  · intro created
    exact (moves.broadcasts serial runId).grows (held.heralded runId created)
  · intro call m' p' resumed step created
    rcases step.created_before created with earlier | ⟨id', run, same, own⟩
    · exact (moves.broadcasts serial runId).grows (held.heralded runId earlier)
    · cases same
      obtain ⟨frame, was⟩ := moves.calls resumed
      have fit := serial.loops.fits id frame _ was
      cases frame <;> simp only [Frame.Fits] at fit
      have move := moves.move
      rw [was] at move
      rw [(move.queues runId).1, if_pos own]
      exact List.mem_append_right _ (List.mem_singleton_self _)
  · intro m p m' p' step earlier created
    rcases step.created_before created with before | ⟨id', run, impossible, -⟩
    · exact earlier before
    · cases impossible

theorem Chronicle.queues (held : w.Chronicle) (moves : w.Moves label id w') {run : Run}
    (was : w.tasks.get id = some (.calling .createRun (.createRun (.updated run)))) :
    w.service.events run.id = [] ∧ Created w'.service.runManager w'.pending run.id := by
  have pending := (w.pending_eq_some id _).mpr ⟨_, was⟩
  constructor
  · by_contra heard
    exact (held.created run.id heard).answered id _ pending rfl
  · obtain ⟨user, stored⟩ := held.creating.stored id _ pending
    refine ⟨⟨user, moves.userOf stored⟩, ?_⟩
    intro id' call found creation
    by_cases here : id' = id
    · subst here
      have move := moves.move
      rw [was] at move
      have past := (move.queues run.id).2 call found
      rw [past] at creation
      cases creation
    · rw [moves.pending_other here] at found
      exact here (held.once id' id call _ run.id found pending creation rfl)

theorem OrderKept.created (kept : w.OrderKept label) (serial : w.Serial)
    (moves : w.Moves label id w') {frame : Frame} {call : Call} {run : Run}
    (was : w.tasks.get id = some (.calling frame call))
    (runs : (Task.calling frame call).runs = some run) (reports : call.reports = some run.id) :
    Created w.service.runManager w.pending run.id := by
  obtain ⟨-, -, user⟩ := serial.executions.mine id _ run was runs
  exact ⟨⟨_, user⟩, (w.forall_calls _).mp ((kept.1 _ (moves.resumes was)).1 _ reports)⟩

theorem OrderKept.confirmed (kept : w.OrderKept label) (serial : w.Serial)
    (answerable : Answerable w.service.runManager w.pending) (moves : w.Moves label id w')
    {frame : Frame} {call : Call} {run : Run} (was : w.tasks.get id = some (.calling frame call))
    (answers : call.answers = some run) (state : run.state = .cancelled)
    (unmarked : run.id ∉ w.service.terminalEvents) :
    Created w.service.runManager w.pending run.id ∧ w.Concluded run.id := by
  have pending := (w.pending_eq_some id call).mpr ⟨frame, was⟩
  have stored := answerable id call run pending answers
  have confirms : w.confirms call = some run.id := by
    rw [Runtime.confirms, answers, Option.filter_some, if_pos (by simp [state, unmarked])]
    rfl
  obtain ⟨answered, idle⟩ := (kept.1 _ (moves.resumes was)).2 run.id confirms
  exact ⟨⟨stored, (w.forall_calls _).mp answered⟩, idle.concluded serial.queues.lanes stored⟩

/-- A run that has been executed to its end is concluded. -/
theorem Serial.concluded (serial : w.Serial) (moves : w.Moves label id w') {task : Task} {run : Run}
    (was : w.tasks.get id = some task) (runs : task.runs = some run)
    (past : (w'.tasks.get id).bind Task.runs = none) : w'.Concluded run.id := by
  have finished := serial.finishes moves was runs past
  have after := moves.serial serial
  have gone {id' : Nat} {task' : Task} {other : Run} (found : w'.tasks.get id' = some task')
      (runs' : task'.runs = some other) : other.id ≠ run.id := finished.2 id' task' other found runs'
  have ended : w'.service.runManager.Ended run.id := by
    rcases serial.goes_on moves was runs with ⟨task', found, still⟩ | ended
    · exact absurd rfl (gone found still)
    · exact ended
  refine ⟨after.atRest finished.1 ?_ ?_, ?_⟩
  · intro leased
    obtain ⟨state, stored, terminal⟩ := ended
    rw [stateOf, stored] at leased
    cases leased
    cases terminal
  · intro id' task' found
    constructor
    · intro loads
      obtain ⟨userId, loading, signal, rfl, own⟩ := loading_of_loads loads
      exact gone found rfl own
    · rintro userId started workspaceId call rfl
      exact gone found rfl
  · intro id' task' found prompts
    obtain ⟨userId, prompting, listening, rfl, own⟩ := Task.prompting_of_prompts prompts
    exact absurd own (gone found rfl)

theorem reports_of_ends {call : Call} {state : RunState} {last : Run}
    (ends : call.ends = some runId)
    (inside : call.transition = some (runId, state, .reloaded last)) :
    call.reports = some runId := by
  unfold Call.transition at inside
  split at inside <;> cases inside
  · cases ends
  · cases ends
  · cases ends
  · rfl
  · rfl

theorem Chronicle.ending (held : w.Chronicle) (serial : w.Serial) (moves : w.Moves label id w')
    (kept : w.OrderKept label) (before : .terminal ∉ w.service.events runId)
    (after : .terminal ∈ w'.service.events runId) :
    Created w.service.runManager w.pending runId ∧ w'.Concluded runId := by
  rw [RunExecutionService.terminal_mem_events, not_not] at before
  rw [RunExecutionService.terminal_mem_events] at after
  have heard {state : RunState} (emits : Emits w.service w'.service runId state) :
      runId ∉ w.service.terminalEvents := by
    intro marked
    rw [Emits, if_pos marked] at emits
    exact after (emits.trans before)
  cases moves.speaks serial held.owned runId with
  | nothing quiet marks => exact absurd (quiet.trans before) after
  | forgets task run was runs own quiet forgotten past => exact absurd (quiet.trans before) after
  | aborts frame call reason context was cancels found live listens emits marked =>
      obtain ⟨atRest, started⟩ := held.listening runId
        ((InMemoryCancellationRegistry.hears_iff _ _).mpr ⟨context, found, live, listens⟩)
      refine ⟨held.created runId (List.ne_nil_of_mem started), atRest.moves serial moves, ?_⟩
      intro id' task prompting prompts
      exact moves.aborts held.owned (moves.resumes was) cancels found live listens
  | confirms reason call run was answers own state emits marked =>
      subst own
      obtain ⟨created, concluded⟩ := kept.confirmed serial held.answerable moves was answers state
        (heard emits)
      exact ⟨created, concluded.moves serial moves⟩
  | ends frame call run last state was ends own inside emits forgotten past =>
      subst own
      have runs : (Task.calling frame call).runs = some run := Frame.runs_of_ends ends
      obtain ⟨-, -, -, -, ending, -⟩ := (serial.loops.fits id frame call was).ending ends
      have reports := reports_of_ends ending inside
      exact ⟨kept.created serial moves was runs reports, serial.concluded moves was runs past⟩

theorem Chronicle.starting (held : w.Chronicle) (serial : w.Serial) (moves : w.Moves label id w')
    (kept : w.OrderKept label) {userId : UserId} {run last : Run} {workspaceId : String}
    (was : w.tasks.get id = some (.calling (.start userId run workspaceId)
      (.startRun run.id (.started last)))) :
    Created w.service.runManager w.pending run.id ∧
      Allowed (w.service.events run.id) .started := by
  have created := kept.created serial moves was rfl rfl
  refine ⟨created, ?_, ?_, ?_⟩
  · intro empty
    exact absurd empty (List.ne_nil_of_mem (held.heralded run.id created))
  · intro impossible
    cases impossible
  · intro ended
    have pending := (w.pending_eq_some id _).mpr ⟨_, was⟩
    exact absurd rfl ((held.concluded run.id ended).atRest.rests.idle id _ pending)

theorem Chronicle.ordered_after (held : w.Chronicle) (serial : w.Serial)
    (moves : w.Moves label id w') (kept : w.OrderKept label) (runId : RunId) :
    Ordered (w'.service.events runId) ∧ (w'.service.events runId ≠ [] →
      Created w'.service.runManager w'.pending runId) := by
  have ordered := held.ordered runId
  cases moves.broadcasts serial runId with
  | closes closes =>
      obtain ⟨more, grown, last⟩ := closes
      cases more with
      | nil =>
          rw [List.append_nil] at grown
          rw [grown]
          exact ⟨ordered, fun heard => moves.created (held.created runId heard)⟩
      | cons first rest =>
          have after : .terminal ∈ w'.service.events runId := by
            rw [grown, last first List.mem_cons_self]
            exact List.mem_append_right _ List.mem_cons_self
          have created : Created w.service.runManager w.pending runId := by
            by_cases before : .terminal ∈ w.service.events runId
            · exact held.created runId (List.ne_nil_of_mem before)
            · exact (held.ending serial moves kept before after).1
          have heard := List.ne_nil_of_mem (held.heralded runId created)
          rw [grown]
          exact ⟨ordered.closes heard last, fun _ => moves.created created⟩
  | queues run was own adds past =>
      subst own
      obtain ⟨empty, created⟩ := held.queues moves was
      rw [adds, empty]
      refine ⟨Ordered.snoc Trace.legal_nil ⟨fun _ => rfl, ?_, ?_⟩, fun _ => created⟩
      · intro impossible
        cases impossible
      · intro impossible
        cases impossible
  | starts userId run last workspaceId was own adds =>
      subst own
      obtain ⟨created, allowed⟩ := held.starting serial moves kept was
      rw [adds]
      exact ⟨ordered.snoc allowed, fun _ => moves.created created⟩

theorem Chronicle.deaf_after (held : w.Chronicle) (serial : w.Serial) (moves : w.Moves label id w')
    {id' : Nat} {task : Task} (found : w'.tasks.get id' = some task)
    (deaf : task.deaf = some runId) : w'.stateOf runId ≠ some .leased := by
  have still {other : Nat} {before : Task} (got : w.tasks.get other = some before)
      (was : before.deaf = some runId) : w'.stateOf runId ≠ some .leased := by
    obtain ⟨run, runs, own⟩ := Task.runs_of_deaf was
    subst own
    exact serial.unleased moves (serial.executions.mine other before run got runs).2.1
      (held.deaf other before run.id got was)
  by_cases here : id' = id
  · subst here
    have attends := moves.attends serial
    rw [found] at attends
    rcases attends.of_deaf deaf with ⟨userId, run, snapshot, workspaceId, rfl, -, -, state⟩ |
      ⟨before, was, earlier, -⟩
    · rw [stateOf, state]
      decide
    · exact still was earlier
  · rw [moves.other here] at found
    exact still found deaf

theorem Chronicle.begun_after (held : w.Chronicle) (serial : w.Serial) (moves : w.Moves label id w')
    {id' : Nat} {task : Task} (found : w'.tasks.get id' = some task)
    (begun : task.loads = some runId ∨ task.prompts = some runId) :
    .started ∈ w'.service.events runId := by
  have grows (before : .started ∈ w.service.events runId) : .started ∈ w'.service.events runId :=
    (moves.broadcasts serial runId).grows before
  by_cases here : id' = id
  · subst here
    have attends := moves.attends serial
    rw [found] at attends
    rcases begun with loads | prompts
    · obtain ⟨userId, run, signal, rfl, own⟩ := loading_of_loads loads
      obtain ⟨-, -, last, workspaceId, was⟩ := attends.of_loading
      have move := moves.move
      rw [was] at move
      rw [move.starts runId, if_pos own]
      exact List.mem_append_right _ (List.mem_singleton_self _)
    · obtain ⟨userId, run, listening, rfl, own⟩ := Task.prompting_of_prompts prompts
      obtain ⟨signal, was, -⟩ := attends.of_prompting
      exact grows (held.begun id' _ runId was (.inl (congrArg some own)))
  · rw [moves.other here] at found
    exact grows (held.begun id' task runId found begun)

/-- A run whose context has a listener rests. -/
theorem Chronicle.listening_after (held : w.Chronicle) (serial : w.Serial)
    (moves : w.Moves label id w')
    (hears : w'.service.runManager.cancellationRegistry.hears runId = true) :
    w'.AtRest runId ∧ .started ∈ w'.service.events runId := by
  have grows (before : .started ∈ w.service.events runId) : .started ∈ w'.service.events runId :=
    (moves.broadcasts serial runId).grows before
  rcases moves.move.hears_before hears with before | ⟨userId, run, signal, was, own, now⟩
  · obtain ⟨atRest, started⟩ := held.listening runId before
    exact ⟨atRest.moves serial moves, grows started⟩
  · subst own
    refine ⟨?_, grows (held.begun id _ run.id was (.inl rfl))⟩
    have after := moves.serial serial
    have member := (serial.executions.mine id _ run was rfl).2.1
    -- the execution of the run is at its prompt now
    have prompting {id' : Nat} {task : Task} {other : Run} (found : w'.tasks.get id' = some task)
        (runs : task.runs = some other) (same : other.id = run.id) :
        task = .executing userId run (.prompting true) := by
      have here := after.sole found now runs rfl same
      subst here
      rw [found] at now
      exact Option.some.inj now
    apply after.atRest ((moves.runs serial).subset member)
    · exact serial.unleased moves member (held.deaf id _ run.id was rfl)
    · intro id' task found
      constructor
      · intro loads
        obtain ⟨user, loading, given, rfl, same⟩ := loading_of_loads loads
        cases prompting found rfl same
      · rintro user started workspaceId call rfl same
        cases prompting found rfl same

theorem Chronicle.moves (held : w.Chronicle) (serial : w.Serial) (moves : w.Moves label id w')
    (kept : w.OrderKept label) : w'.Chronicle := by
  constructor
  · exact moves.owned held.owned
  · exact moves.creating held.creating
  · exact moves.oneCreates held.creating held.once
  · exact moves.answerable serial.queues held.answerable
  · intro runId
    exact (held.ordered_after serial moves kept runId).2
  · intro runId created
    exact held.heralded_after serial moves created
  · intro runId
    exact (held.ordered_after serial moves kept runId).1
  · intro id' task runId found deaf
    exact held.deaf_after serial moves found deaf
  · intro id' task runId found begun
    exact held.begun_after serial moves found begun
  · intro runId hears
    exact held.listening_after serial moves hears
  · intro runId after
    by_cases before : .terminal ∈ w.service.events runId
    · exact (held.concluded runId before).moves serial moves
    · exact (held.ending serial moves kept before after).2

theorem Chronicle.emits (held : w.Chronicle) {userId : UserId} {run : Run} {listening : Bool}
    (prompting : w.tasks.get id = some (.executing userId run (.prompting listening)))
    (going : run.id ∉ w.service.aborted) : Allowed (w.service.events run.id) .agent := by
  have started := held.begun id _ run.id prompting (.inr rfl)
  refine ⟨?_, fun _ => started, ?_⟩
  · intro empty
    exact absurd empty (List.ne_nil_of_mem started)
  · intro ended
    have silenced := (held.concluded run.id ended).silenced id _ prompting rfl
    exact absurd ((mem_aborted w.service run.id).mpr silenced) going

theorem Passes.events (passes : w.Passes label w') (runId : RunId) :
    w'.service.events runId = w.service.events runId ∨
      ∃ id userId run listening, w.speaks label = some run.id ∧ run.id = runId ∧
        w.tasks.get id = some (.executing userId run (.prompting listening)) ∧
        w'.service.events runId = w.service.events runId ++ [.agent] := by
  cases passes with
  | tick elapsed => exact .inl rfl
  | agentEvent id event userId run listening prompting =>
      rw [RunExecutionService.note_events, Observation.broadcasts]
      by_cases own : run.id = runId ∧ mapsAgentEvent event
      · right
        refine ⟨id, userId, run, listening, ?_, own.1, prompting, ?_⟩
        · rw [speaks, if_pos own.2, prompting]
          rfl
        · rw [if_pos own]
          rfl
      · rw [if_neg own]
        exact .inl (List.append_nil _)

theorem Passes.chronicle (passes : w.Passes label w') (held : w.Chronicle)
    (kept : w.OrderKept label) : w'.Chronicle := by
  obtain ⟨manager, tasks, -, -⟩ := passes.stores
  have pending := passes.pending
  have grows {runId : RunId} {event : EventKind} (before : event ∈ w.service.events runId) :
      event ∈ w'.service.events runId := by
    rcases passes.events runId with same | ⟨-, -, -, -, -, -, -, adds⟩
    · rw [same]
      exact before
    · rw [adds]
      exact List.mem_append_left _ before
  have atRest {runId : RunId} (rests : w.AtRest runId) : w'.AtRest runId := by
    constructor
    · rw [manager, pending]
      exact rests.rests
    · rw [tasks]
      exact rests.unloaded
  constructor
  · rw [manager]
    exact held.owned
  · rw [manager, pending]
    exact held.creating
  · rw [pending]
    exact held.once
  · rw [manager, pending]
    exact held.answerable
  · intro runId heard
    rw [manager, pending]
    rcases passes.events runId with same | ⟨id, _, run, _, -, rfl, prompting, -⟩
    · rw [same] at heard
      exact held.created runId heard
    · exact held.created run.id (List.ne_nil_of_mem (held.begun id _ run.id prompting (.inr rfl)))
  · intro runId created
    rw [manager, pending] at created
    exact grows (held.heralded runId created)
  · intro runId
    rcases passes.events runId with same | ⟨id, userId, run, listening, speaks, rfl, prompting, adds⟩
    · rw [same]
      exact held.ordered runId
    · rw [adds]
      exact (held.ordered run.id).snoc (held.emits prompting (kept.2 run.id speaks))
  · intro id task runId found deaf
    rw [tasks] at found
    rw [stateOf, manager]
    exact held.deaf id task runId found deaf
  · intro id task runId found begun
    rw [tasks] at found
    exact grows (held.begun id task runId found begun)
  · intro runId hears
    rw [manager] at hears
    obtain ⟨rests, started⟩ := held.listening runId hears
    exact ⟨atRest rests, grows started⟩
  · intro runId ended
    have before : .terminal ∈ w.service.events runId := by
      rcases passes.events runId with same | ⟨-, -, -, -, -, -, -, adds⟩
      · rw [same] at ended
        exact ended
      · rw [adds] at ended
        simpa using ended
    obtain ⟨rests, silenced⟩ := held.concluded runId before
    refine ⟨atRest rests, ?_⟩
    intro id task found prompts
    rw [tasks] at found
    have aborted := silenced id task found prompts
    cases passes with
    | tick elapsed => exact aborted
    | agentEvent id event userId run listening prompting => exact List.mem_append_left _ aborted

theorem Chronicle.init (config : RunManagerConfig) (now : Int) :
    (Runtime.init config now).Chronicle := by
  constructor
  · intro runId context found
    cases found
  · exact Creating.init config
  · intro id id' call call' runId found
    cases found
  · intro id call run found
    cases found
  · intro runId heard
    exact absurd rfl heard
  · intro runId created
    obtain ⟨userId, stored⟩ := created.stored
    cases stored
  · intro runId
    exact Trace.legal_nil
  · intro id task runId found
    cases found
  · intro id task runId found
    cases found
  · intro runId hears
    cases hears
  · intro runId ended
    cases ended

theorem chronicle_of_reach {config : RunManagerConfig} {now : Int} {w : Runtime}
    (reached : Transition.Reach step KeepsOrder (init config now) w) : w.Chronicle := by
  apply reached.invariant_given Serial Chronicle
  · intro s earlier
    exact serial_of_reach (fun _ _ keeps => keeps.1) earlier
  · exact Chronicle.init config now
  · intro s label u keeps serial held moved
    rcases step_cases keeps.1 moved with ⟨id, moves⟩ | passes
    · exact held.moves serial moves keeps.2
    · exact passes.chronicle held keeps.2

/-- As long as the order of events is kept, `run_queued` is the first event of every run,
`run_started` precedes the events of its agent, and its terminal event is the last of them. -/
theorem events_are_ordered (config : RunManagerConfig) (now : Int) (w : Runtime)
    (reached : Transition.Reach step KeepsOrder (init config now) w) (runId : RunId) :
    Ordered (w.service.events runId) := (chronicle_of_reach reached).ordered runId

def agentStart : Json := .obj [("type", .str "agent_start")]

def agentEnd : Json := .obj [("type", .str "agent_end"), ("messages", .arr [])]

def workedLabels : List Label :=
  promptedLabels ++ .agentEvent 0 agentStart :: .reply 0 (.prompted []) ::
    List.replicate 8 (.resume 0 "")

theorem completed_run_is_ordered :
    ∃ w : Runtime, w.service.events "run_0_a" = [.queued, .started, .agent, .terminal] ∧
      Ordered (w.service.events "run_0_a") := by
  have ran : (Transition.exec (Transition.guarded step KeepsOrder) (init .default 0)
      workedLabels).map (fun w => w.service.events "run_0_a") =
      some [.queued, .started, .agent, .terminal] := by decide +kernel
  obtain ⟨w, reached, observed⟩ := Transition.reach_of_observed _ _ ran
  exact ⟨w, observed, events_are_ordered .default 0 w reached "run_0_a"⟩

def lateEventLabels : List Label := cancelledPromptLabels ++ [.agentEvent 0 agentEnd]

theorem aborted_agent_is_heard :
    ¬∀ w : Runtime, Transition.Reach step FreshRun (init .default 0) w →
      ∀ runId, Ordered (w.service.events runId) := by
  intro always
  have ran : (Transition.exec (Transition.guarded step FreshRun) (init .default 0)
      lateEventLabels).map (fun w => w.service.events "run_0_a") =
      some [.queued, .started, .terminal, .agent] := by decide +kernel
  obtain ⟨w, reached, observed⟩ := Transition.reach_of_observed _ _ ran
  have ordered := always w reached "run_0_a"
  rw [observed] at ordered
  have allowed := ordered [.queued, .started, .terminal] .agent [] rfl
  cases allowed.2.2 (by decide)

end Runtime

end Minerva
