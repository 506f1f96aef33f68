import Minerva.Runtime.Leaving
import Minerva.Runtime.Terminal
import Minerva.Services.Resting

namespace Minerva

def Call.creation : Call → Option RunId
  | .createRun pc => some pc.run.id
  | _ => none

structure Created (m : RunManager) (p : Pending) (runId : RunId) : Prop where
  stored : ∃ userId, m.userOf runId = some userId
  answered : ∀ id call, p id = some call → call.creation ≠ some runId

def OneCreates (p : Pending) : Prop :=
  ∀ id id' call call' runId, p id = some call → p id' = some call' →
    call.creation = some runId → call'.creation = some runId → id = id'

def Answerable (m : RunManager) (p : Pending) : Prop :=
  ∀ id call run, p id = some call → call.answers = some run → ∃ userId, m.userOf run.id = some userId

namespace Call

variable {m : RunManager} {now : Int} {random : String} {call next : Call} {runId : RunId}

theorem creation_start {request : Request}
    (creation : (Call.start m now request).2.creation = some runId) :
    ∃ random input, request = .createRun random input ∧ runId = RunManager.newRunId now random := by
  cases request with
  | createRun random input =>
      cases creation
      exact ⟨random, input, rfl, rfl⟩
  | _ => cases creation

theorem creation_next (goes : pending (call.resume m now random) = some next)
    (creation : next.creation = some runId) : call.creation = some runId := by
  cases next with
  | createRun pc =>
      obtain ⟨before, rfl, awaits⟩ := pending_createRun goes
      rcases create_await awaits with ⟨run, position, rfl, rfl⟩ | ⟨run, position, rfl, rfl⟩
      · exact creation
      · exact creation
  | _ => cases creation

theorem create_resolve {pc : CreatePc} {run : Run}
    (answers : (m.createRunResume pc).progress = .resolve run) : pc = .updated run := by
  cases pc with
  | persisted last => cases answers
  | enqueued last position =>
      simp only [RunManager.createRunResume] at answers
      split at answers <;> cases answers
  | updated last =>
      cases answers
      rfl

theorem creation_goes (now : Int) (random : String) (creation : call.creation = some runId)
    (stored : m.getRun runId ≠ none) :
    (∃ next, pending (call.resume m now random) = some next ∧ next.creation = some runId) ∨
      ∃ run, call = .createRun (.updated run) ∧ run.id = runId := by
  cases call <;> cases creation
  rename_i pc
  cases pc with
  | persisted run => exact .inl ⟨_, rfl, rfl⟩
  | enqueued run position =>
      left
      cases found : m.repo.runs.get run.id with
      | none => exact absurd found stored
      | some earlier =>
          refine ⟨.createRun (.updated { run with queuePosition := some position }), ?_, rfl⟩
          simp [resume, RunManager.createRunResume, InMemoryRunRepository.update, found,
            pending_settle]
  | updated run => exact .inr ⟨run, rfl, rfl⟩

theorem answers_next {run : Run} (goes : pending (call.resume m now random) = some next)
    (answers : next.answers = some run) : ∃ id, m.getRun id = some run := by
  unfold Call.answers at answers
  split at answers
  · rename_i id reason read
    obtain ⟨pc, rfl, awaits⟩ := pending_cancelRun goes
    rcases cancel_await awaits with ⟨_, -, -, impossible⟩ | ⟨_, _, -, impossible, -⟩ |
      ⟨_, _, -, impossible, -⟩ <;> cases impossible
  · rename_i id reason snapshot read
    cases answers
    obtain ⟨pc, rfl, awaits⟩ := pending_cancelRun goes
    rcases cancel_await awaits with ⟨_, -, -, impossible⟩ | ⟨_, inner, -, place, step⟩ |
      ⟨inner, after, -, place, step⟩
    · cases impossible
    · cases place
      rcases abandon_await step with ⟨-, impossible⟩ | ⟨-, impossible⟩ <;> cases impossible
    · cases place
      rcases abandon_resume_await step with ⟨_, -, impossible⟩ | ⟨_, _, _, -, place, deep⟩
      · cases impossible
      · cases place
        rcases transition_await deep with ⟨_, _, -, -, -, impossible⟩ | ⟨stored, -, found, place⟩
        · cases impossible
        · cases place
          exact ⟨id, found⟩
  · cases answers

theorem answers_start {run : Run} {request : Request}
    (answers : (Call.start m now request).2.answers = some run) : ∃ id, m.getRun id = some run := by
  cases request with
  | cancelRun id reason =>
      simp only [start, RunManager.cancelRun] at answers
      cases found : m.repo.getById id with
      | none =>
          rw [found] at answers
          cases answers
      | some stored =>
          rw [found] at answers
          simp only [Call.answers] at answers
          split at answers <;> cases answers
          exact ⟨id, found⟩
  | _ => cases answers

end Call

variable {now : Int} {m m' : RunManager} {p p' : Pending} {resumed : Option (Nat × Call)}

theorem CallStep.created (step : CallStep now m p resumed m' p') {runId : RunId}
    (created : Created m p runId) : Created m' p' runId := by
  obtain ⟨user, stored⟩ := created.stored
  refine ⟨⟨user, step.userOf stored⟩, ?_⟩
  intro id' call found creation
  cases step.origin found with
  | stays _ _ _ found other => exact created.answered id' call found creation
  | begins request free fresh =>
      obtain ⟨random, input, made, rfl⟩ := Call.creation_start creation
      exact RunManager.unused_of_stateOf (fresh random input made) stored
  | goes before random _ got goes =>
      exact created.answered id' before got (Call.creation_next goes creation)
  | fires runId' timeoutManager free => cases creation

theorem CallStep.created_before (step : CallStep now m p resumed m' p') {runId : RunId}
    (created : Created m' p' runId) : Created m p runId ∨
      ∃ id run, resumed = some (id, .createRun (.updated run)) ∧ run.id = runId := by
  obtain ⟨user, stored⟩ := created.stored
  have whole := step
  cases step with
  | begin id request free fresh =>
      left
      constructor
      · rcases Call.start_getRun m now request runId with same | ⟨random, input, rfl, rfl, -⟩
        · rw [RunManager.userOf, same] at stored
          exact ⟨user, stored⟩
        · exact absurd rfl (created.answered id _ (Function.update_self id _ p))
      · intro id' call found
        exact created.answered id' call (whole.remains found (by simp))
  | resume id call random found =>
      have user' : m.userOf runId = some user := by
        rw [← stored, RunManager.userOf, RunManager.userOf]
        exact ((Call.resume_effect m now random call).field Run.userId (fun _ _ => rfl)
          (fun _ _ => rfl) (fun _ _ _ _ => rfl) runId).symm
      have present : m.getRun runId ≠ none := by
        intro missing
        rw [RunManager.userOf, missing] at user'
        cases user'
      by_cases mine : call.creation = some runId
      · rcases Call.creation_goes now random mine present with ⟨next, goes, still⟩ | ⟨run, rfl, own⟩
        · exact absurd still (created.answered id next (by rw [Function.update_self]; exact goes))
        · exact .inr ⟨id, run, rfl, own⟩
      · refine .inl ⟨⟨user, user'⟩, ?_⟩
        intro id' call' found'
        by_cases same : id' = id
        · subst same
          rw [found] at found'
          cases found'
          exact mine
        · exact created.answered id' call' (by rw [Function.update_of_ne same]; exact found')
  | fire id timer free runId' timeoutManager fired =>
      refine .inl ⟨⟨user, stored⟩, ?_⟩
      intro id' call found
      exact created.answered id' call (whole.remains found (by simp))
  | listen listener signal => exact .inl ⟨⟨user, stored⟩, created.answered⟩

theorem CallStep.oneCreates (step : CallStep now m p resumed m' p') (creating : Creating m p)
    (one : OneCreates p) : OneCreates p' := by
  have stored {id : Nat} {call : Call} {runId : RunId} (found : p id = some call)
      (creation : call.creation = some runId) : ∃ userId, m.userOf runId = some userId := by
    cases call <;> cases creation
    exact creating.stored id _ found
  have apart : Keyed.Apart Call.creation p := one
  cases step with
  | begin id request free fresh =>
      apply apart.update
      intro call runId started mine id' other found theirs
      cases started
      obtain ⟨random, input, made, rfl⟩ := Call.creation_start mine
      obtain ⟨user, used⟩ := stored found theirs
      exact absurd used (RunManager.unused_of_stateOf (fresh random input made))
  | resume id call random got =>
      apply apart.update_of_inherited got
      intro next runId goes mine
      exact Call.creation_next goes mine
  | fire id timer free runId timeoutManager fired =>
      apply apart.update
      intro call runId' started mine
      cases started
      cases mine
  | listen listener signal => exact one

theorem CallStep.answerable (step : CallStep now m p resumed m' p') (named : Named m p)
    (held : Answerable m p) : Answerable m' p' := by
  have read {id : RunId} {run : Run} (found : m.getRun id = some run) :
      ∃ userId, m'.userOf run.id = some userId := by
    have own := named.own id run found
    refine ⟨run.userId, step.userOf ?_⟩
    rw [own, RunManager.userOf, found]
    rfl
  have kept {id : Nat} {call : Call} {run : Run} (found : p id = some call)
      (answers : call.answers = some run) : ∃ userId, m'.userOf run.id = some userId := by
    obtain ⟨user, stored⟩ := held id call run found answers
    exact ⟨user, step.userOf stored⟩
  intro id' call' run found answers
  cases step.origin found with
  | stays _ _ _ found other => exact kept found answers
  | begins request free fresh =>
      obtain ⟨asked, got⟩ := Call.answers_start answers
      exact read got
  | goes before random _ got goes =>
      obtain ⟨asked, stored⟩ := Call.answers_next goes answers
      exact read stored
  | fires runId' timeoutManager free => cases answers

end Minerva
