import Minerva.Library.Potential
import Minerva.Services.Pool

/-! The turns that a call has left. Every `await` of `RunManager` is on a store that has already
answered, so no call waits for another one, and each has few turns. -/

namespace Minerva

def CreatePc.turns : CreatePc → Nat
  | .persisted _ => 3
  | .enqueued _ _ => 2
  | .updated _ => 1

def TransitionPc.turns : TransitionPc → Nat
  | .loaded _ => 3
  | .updated => 2
  | .reloaded _ => 1

def AcquirePc.turns : AcquirePc → Nat
  | .peeked _ => 5
  | .leased _ _ => 4
  | .dequeued _ _ => 3
  | .updated _ => 2
  | .reloaded _ _ => 1

def StartPc.turns : StartPc → Nat
  | .transition pc => pc.turns + 1
  | .started _ => 1

def AbandonPc.turns : AbandonPc → Nat
  | .released _ => 4
  | .transition _ pc => pc.turns

def CancelPc.turns : CancelPc → Nat
  | .loaded _ => 6
  | .removed _ => 5
  | .abandoning pc => pc.turns

def TimeoutPc.turns : TimeoutPc → Nat
  | .loaded _ => 5
  | .abandoning pc => pc.turns

def EndPc.turns : EndPc → Nat
  | .loaded _ => 5
  | .released => 4
  | .transition pc => pc.turns

namespace Call

def turns : Call → Nat
  | .createRun pc => pc.turns
  | .acquireNextRun _ pc => pc.turns
  | .startRun _ pc => pc.turns
  | .cancelRun _ _ pc => pc.turns
  | .timeoutRun _ pc => pc.turns
  | .completeRun _ _ pc => pc.turns
  | .failRun _ _ pc => pc.turns

def arms : Call → Nat
  | .startRun _ (.transition _) => 1
  | _ => 0

theorem transition_turns {m : RunManager} {now : Int} {runId : RunId} {newState : RunState}
    {metadata : TransitionMetadata} {before pc : TransitionPc}
    (awaits : (m.transitionStateResume now runId newState metadata before).progress = .await pc) :
    pc.turns < before.turns := by
  rcases transition_await awaits with ⟨run, stored, rfl, -, -, rfl⟩ | ⟨stored, rfl, -, rfl⟩
  · exact Nat.lt_add_one 2
  · exact Nat.lt_add_one 1

theorem transition_turns_pos (pc : TransitionPc) : 0 < pc.turns := by
  cases pc <;> exact Nat.succ_pos _

theorem transition_turns_le (pc : TransitionPc) : pc.turns ≤ 3 := by
  cases pc <;> simp [TransitionPc.turns]

theorem abandon_turns {m : RunManager} {runId : RunId} {reason : String} {run : Run}
    {pc : AbandonPc} (awaits : (m.abandon runId reason run).progress = .await pc) :
    pc.turns ≤ 4 := by
  rcases abandon_await awaits with ⟨-, rfl⟩ | ⟨-, rfl⟩
  · exact Nat.le_succ 3
  · exact Nat.le_refl 4

theorem abandon_resume_turns {m : RunManager} {now : Int} {runId : RunId} {reason : String}
    {newState : RunState} {error : Run → String} {before pc : AbandonPc}
    (awaits : (m.abandonResume now runId reason newState error before).progress = .await pc) :
    pc.turns < before.turns := by
  rcases abandon_resume_await awaits with ⟨run, rfl, rfl⟩ | ⟨run, inner, next, rfl, rfl, step⟩
  · exact Nat.lt_add_one 3
  · exact transition_turns step

theorem end_turns {m : RunManager} {now : Int} {runId : RunId} {newState : RunState}
    {metadata : TransitionMetadata} {before pc : EndPc}
    (awaits : (m.endRunResume now runId newState metadata before).progress = .await pc) :
    pc.turns < before.turns := by
  rcases end_await awaits with ⟨run, rfl, -, rfl⟩ | ⟨place, rfl⟩ | ⟨inner, next, rfl, rfl, step⟩
  · exact Nat.lt_add_one 4
  · rcases place with ⟨run, rfl, -⟩ | rfl
    · exact Nat.lt_add_of_pos_right (Nat.succ_pos 1)
    · exact Nat.lt_add_one 3
  · exact transition_turns step

theorem turns_pos (call : Call) : 0 < call.turns := by
  cases call with
  | createRun pc => cases pc <;> exact Nat.succ_pos _
  | acquireNextRun userId pc => cases pc <;> exact Nat.succ_pos _
  | startRun runId pc => cases pc <;> exact Nat.succ_pos _
  | cancelRun runId reason pc =>
      rcases pc with run | run | ⟨run | ⟨run, inner⟩⟩
      · exact Nat.succ_pos 5
      · exact Nat.succ_pos 4
      · exact Nat.succ_pos 3
      · exact transition_turns_pos inner
  | timeoutRun runId pc =>
      rcases pc with run | ⟨run | ⟨run, inner⟩⟩
      · exact Nat.succ_pos 4
      · exact Nat.succ_pos 3
      · exact transition_turns_pos inner
  | completeRun runId finalMessages pc =>
      rcases pc with run | - | inner
      · exact Nat.succ_pos 4
      · exact Nat.succ_pos 3
      · exact transition_turns_pos inner
  | failRun runId error pc =>
      rcases pc with run | - | inner
      · exact Nat.succ_pos 4
      · exact Nat.succ_pos 3
      · exact transition_turns_pos inner

theorem turns_le (call : Call) : call.turns ≤ 6 := by
  have few (pc : TransitionPc) : pc.turns ≤ 6 := Nat.le_trans (transition_turns_le pc) (by decide)
  cases call with
  | createRun pc => cases pc <;> simp [turns, CreatePc.turns]
  | acquireNextRun userId pc => cases pc <;> simp [turns, AcquirePc.turns]
  | startRun runId pc =>
      cases pc with
      | transition pc => exact Nat.succ_le_succ (Nat.le_trans (transition_turns_le pc) (by decide))
      | started run => simp [turns, StartPc.turns]
  | cancelRun runId reason pc =>
      rcases pc with run | run | ⟨run | ⟨run, inner⟩⟩
      · exact Nat.le_refl 6
      · exact Nat.le_succ 5
      · exact Nat.le_add_right 4 2
      · exact few inner
  | timeoutRun runId pc =>
      rcases pc with run | ⟨run | ⟨run, inner⟩⟩
      · exact Nat.le_succ 5
      · exact Nat.le_add_right 4 2
      · exact few inner
  | completeRun runId finalMessages pc =>
      rcases pc with run | - | inner
      · exact Nat.le_succ 5
      · exact Nat.le_add_right 4 2
      · exact few inner
  | failRun runId error pc =>
      rcases pc with run | - | inner
      · exact Nat.le_succ 5
      · exact Nat.le_add_right 4 2
      · exact few inner

theorem turns_next {m : RunManager} {now : Int} {random : String} {call next : Call}
    (goes : pending (call.resume m now random) = some next) : next.turns < call.turns := by
  cases call <;> simp only [resume, pending_settle] at goes <;>
    obtain ⟨after, awaits, rfl⟩ := goes
  case createRun before =>
      rcases create_await awaits with ⟨run, position, rfl, rfl⟩ | ⟨run, position, rfl, rfl⟩
      · exact Nat.lt_add_one 2
      · exact Nat.lt_add_one 1
  case acquireNextRun userId before =>
      rcases acquire_await awaits with ⟨id, rfl, -, rfl⟩ | ⟨id, lease, rfl, rfl⟩ |
        ⟨id, lease, stored, rfl, -, rfl⟩ | ⟨id, rfl, rfl⟩
      · exact Nat.lt_add_one 4
      · exact Nat.lt_add_one 3
      · exact Nat.lt_add_one 2
      · exact Nat.lt_add_one 1
  case startRun runId before =>
      rcases start_await awaits with ⟨inner, last, rfl, rfl, step⟩ | ⟨run, rfl, rfl⟩
      · exact Nat.succ_lt_succ (transition_turns step)
      · exact Nat.lt_add_one 1
  case cancelRun runId reason before =>
      rcases cancel_await awaits with ⟨run, rfl, -, rfl⟩ | ⟨run, inner, place, rfl, step⟩ |
        ⟨inner, last, rfl, rfl, step⟩
      · exact Nat.lt_add_one 5
      · have few := abandon_turns step
        rcases place with ⟨rfl, -, -⟩ | rfl
        · exact Nat.lt_of_le_of_lt few (Nat.lt_add_of_pos_right (Nat.succ_pos 1))
        · exact Nat.lt_succ_of_le few
      · exact abandon_resume_turns step
  case timeoutRun runId before =>
      rcases timeout_await awaits with ⟨run, inner, rfl, -, rfl, step⟩ |
        ⟨inner, last, rfl, rfl, step⟩
      · exact Nat.lt_succ_of_le (abandon_turns step)
      · exact abandon_resume_turns step
  case completeRun runId finalMessages before => exact end_turns awaits
  case failRun runId error before => exact end_turns awaits

theorem arms_next {m : RunManager} {now : Int} {random : String} {call next : Call}
    (goes : pending (call.resume m now random) = some next) : next.arms ≤ call.arms := by
  cases call <;> simp only [resume, pending_settle] at goes <;>
    obtain ⟨after, awaits, rfl⟩ := goes
  case startRun runId before =>
      rcases start_await awaits with ⟨inner, last, rfl, rfl, step⟩ | ⟨run, rfl, rfl⟩
      · exact Nat.le_refl 1
      · exact Nat.zero_le 1
  all_goals exact Nat.zero_le _

end Call

namespace InMemoryTimeoutManager

variable {β : Type}

theorem size_clear_le (m : InMemoryTimeoutManager β) (runId : RunId) :
    (m.clear runId).1.timers.size ≤ m.timers.size := by
  unfold clear
  split
  · exact Nat.le_refl _
  · exact EsMap.size_delete_le _ _

theorem size_schedule_le (m : InMemoryTimeoutManager β) (now : Int) (runId : RunId) (delayMs : Int)
    (onTimeout : β) :
    (m.schedule now runId delayMs onTimeout).1.timers.size ≤ m.timers.size + 1 := by
  have written := EsMap.size_set_le (m.clear runId).1.timers (m.clear runId).1.nextTimer
    ⟨runId, now + timerDelay delayMs, onTimeout⟩
  exact Nat.le_trans written (Nat.succ_le_succ (m.size_clear_le runId))

theorem size_fire {m : InMemoryTimeoutManager β} {now : Int} {timer : Nat}
    {fired : RunId × β × InMemoryTimeoutManager β} (fires : m.fire now timer = some fired) :
    fired.2.2.timers.size + 1 = m.timers.size := by
  obtain ⟨armed, found, -, rfl⟩ := fire_cases fires
  exact EsMap.size_delete_of_present found

end InMemoryTimeoutManager

namespace Call

theorem resume_runs_size (m : RunManager) (now : Int) (random : String) (call : Call) :
    (call.resume m now random).manager.repo.runs.size = m.repo.runs.size := by
  have effect := resume_effect m now random call
  generalize (call.resume m now random).manager = after at effect
  cases effect with
  | position run stored position found => exact EsMap.size_set_of_present found _
  | leased userId nextRunId lease stored found => exact EsMap.size_set_of_present found _
  | transition _ runId newState run stored metadata inside valid found =>
      exact EsMap.size_set_of_present found _
  | _ => rfl

theorem resume_timers_size (m : RunManager) (now : Int) (random : String) (call : Call) :
    (call.resume m now random).manager.timeoutManager.timers.size +
        ((pending (call.resume m now random)).map arms).getD 0 ≤
      m.timeoutManager.timers.size + call.arms := by
  have later : ((pending (call.resume m now random)).map arms).getD 0 ≤ call.arms := by
    cases goes : pending (call.resume m now random) with
    | none => exact Nat.zero_le _
    | some next => exact arms_next goes
  have cleared (newState : RunState) (runId : RunId) :
      (if isTerminalState newState then (m.timeoutManager.clear runId).1
        else m.timeoutManager).timers.size ≤ m.timeoutManager.timers.size := by
    split
    · exact m.timeoutManager.size_clear_le runId
    · exact Nat.le_refl _
  have effect := resume_effect m now random call
  generalize after : (call.resume m now random).manager = m' at effect
  cases effect with
  | transition _ runId newState run stored metadata inside valid found =>
      exact Nat.add_le_add (cleared newState runId) later
  | vanished _ runId newState run inside valid missing =>
      exact Nat.add_le_add (cleared newState runId) later
  | begun runId run =>
      have started : pending ((Call.startRun runId (.transition (.reloaded run))).resume m now
          random) = some (.startRun runId (.started run)) := rfl
      rw [started]
      exact m.timeoutManager.size_schedule_le now runId run.maxDurationMs .timeoutRun
  | _ => exact Nat.add_le_add_left later _

end Call

namespace Pool

def turnsLeft (p : Pool) (id : Nat) : Nat := ((p.calls.get id).map Call.turns).getD 0

def Unsettled (id : Nat) (p : Pool) (_ : Label) : Prop := p.calls.get id ≠ none

instance (id : Nat) (p : Pool) (label : Label) : Decidable (Unsettled id p label) :=
  decidable_of_iff ((p.calls.get id).isSome = true) Option.isSome_iff_ne_none

def Label.resumes (id : Nat) : Label → Bool
  | .resume id' _ => id' = id
  | _ => false

theorem step_turnsLeft {p q : Pool} {label : Label} (id : Nat) (open_ : p.calls.get id ≠ none)
    (moved : p.step label = some q) :
    (if label.resumes id then 1 else 0) + q.turnsLeft id ≤ p.turnsLeft id := by
  have apart {id' : Nat} (different : id ≠ id') (manager : RunManager) (call : Option Call) :
      (p.store manager id' call).turnsLeft id = p.turnsLeft id := by
    rw [turnsLeft, get_store, Function.update_of_ne different, turnsLeft]
  cases label with
  | begin id' request =>
      simp only [step] at moved
      split at moved
      · cases moved
      · rename_i free
        cases moved
        have different : id ≠ id' := by
          rintro rfl
          exact open_ (p.free_of_not_has id free)
        simp [Label.resumes, apart different]
  | resume id' random =>
      simp only [step] at moved
      split at moved
      · cases moved
      · rename_i call found
        cases moved
        by_cases same : id' = id
        · subst same
          simp only [Label.resumes, decide_true, if_true, turnsLeft, get_store,
            Function.update_self, found, Option.map_some, Option.getD_some]
          cases goes : Call.pending (call.resume p.manager p.now random) with
          | none => exact call.turns_pos
          | some next =>
              have fewer := Call.turns_next goes
              simp only [Option.map_some, Option.getD_some]
              omega
        · simp [Label.resumes, same, apart (Ne.symm same)]
  | fire id' timer =>
      simp only [step] at moved
      split at moved
      · cases moved
      · rename_i free
        split at moved
        · cases moved
        · cases moved
          have different : id ≠ id' := by
            rintro rfl
            exact open_ (p.free_of_not_has id free)
          simp [Label.resumes, apart different]
  | tick elapsed =>
      cases moved
      simp [Label.resumes, turnsLeft]

/-- A call of `RunManager` waits for no other call, and whatever the other calls, the timers and
the clock do meanwhile, it has settled by its sixth turn: by as many as it has left. -/
theorem calls_settle (p q : Pool) (id : Nat) (call : Call) (labels : List Label)
    (found : p.calls.get id = some call) (path : Transition.Path step (Unsettled id) p labels q) :
    labels.countP (Label.resumes id) ≤ call.turns ∧ call.turns ≤ 6 ∧
      (labels.countP (Label.resumes id) = call.turns → q.calls.get id = none) ∧
      (q.calls.get id ≠ none → ∀ random, q.step (.resume id random) ≠ none) := by
  have paid := path.potential (fun p => p.turnsLeft id) (Label.resumes id) (fun _ => 0)
    (fun _ => True) trivial (fun _ _ _ _ _ _ => trivial) (fun s label u unsettled _ moved => by
      simpa using step_turnsLeft id unsettled moved)
  have left : p.turnsLeft id = call.turns := by
    rw [turnsLeft, found, Option.map_some, Option.getD_some]
  simp only [List.map_const', List.sum_replicate_nat, Nat.mul_zero, Nat.zero_add, left] at paid
  refine ⟨by omega, call.turns_le, ?_, ?_⟩
  · intro all
    cases settled : q.calls.get id with
    | none => rfl
    | some call' =>
        have more := call'.turns_pos
        rw [turnsLeft, settled, Option.map_some, Option.getD_some] at paid
        omega
  · intro still random
    obtain ⟨call', waits⟩ := Option.ne_none_iff_exists'.mp still
    simp [step, waits]

/-- A queued run is cancelled while its owner's loop peeks at it. -/
def cancellingLabels : List Label :=
  [.resume 1 "", .tick 5, .begin 0 (.acquireNextRun "acme:alice"), .resume 1 "", .resume 0 "",
    .resume 1 "", .resume 1 "", .resume 1 ""]

theorem cancelling_call_settles :
    ∃ p q : Pool, ∃ call, p.calls.get 1 = some call ∧
      p.manager.stateOf "run_0_a" = some .queued ∧ q.manager.stateOf "run_0_a" = some .cancelled ∧
      cancellingLabels.countP (Label.resumes 1) ≤ call.turns ∧ call.turns ≤ 6 := by
  have began : (Transition.exec (Transition.guarded step Transition.Free) (init .default 0)
      [.begin 0 (.createRun "a" ⟨some ⟨"acme", "alice"⟩, none, "pack", "hello", none⟩),
        .resume 0 "", .resume 0 "", .resume 0 "", .begin 1 (.cancelRun "run_0_a" none)]).map
      (fun p => ((p.calls.get 1).isSome, p.manager.stateOf "run_0_a",
        (Transition.exec (Transition.guarded step (Unsettled 1)) p cancellingLabels).map
          (fun q => q.manager.stateOf "run_0_a"))) =
      some (true, some .queued, some (some .cancelled)) := by decide +kernel
  obtain ⟨p, reached, observed⟩ := Transition.reach_of_observed _ _ began
  obtain ⟨called, queued, ran⟩ := And.imp_right Prod.mk.inj (Prod.mk.inj observed)
  obtain ⟨call, found⟩ := Option.isSome_iff_exists.mp called
  obtain ⟨q, path, cancelled⟩ := Option.map_eq_some_iff.mp ran
  have settles := calls_settle p q 1 call cancellingLabels found (Transition.path_of_exec _ path)
  exact ⟨p, q, call, found, queued, cancelled, settles.1, settles.2.1⟩

end Pool

end Minerva
