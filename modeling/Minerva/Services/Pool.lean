import Minerva.Services.Turns
import Mathlib.Logic.Function.Basic

/-! The step relation of concurrently invoked `RunManager` methods, and the pool that runs it.
`CallStep` only looks at the stores and at the calls in progress, so that every program which
drives `RunManager` through its methods can be projected onto it. -/

namespace Minerva

/-- The calls in progress, by the identifier that the environment gave them. -/
abbrev Pending := Nat → Option Call

/-- One step of the stores and of the calls in progress, with the call that it resumes. A new
run gets a new id. -/
inductive CallStep (now : Int) (m : RunManager) (p : Pending) :
    Option (Nat × Call) → RunManager → Pending → Prop
  | begin (id : Nat) (request : Request) (free : p id = none)
      (fresh : ∀ random input, request = .createRun random input →
        m.stateOf (RunManager.newRunId now random) = none) :
      CallStep now m p none (Call.start m now request).1
        (Function.update p id (some (Call.start m now request).2))
  | resume (id : Nat) (call : Call) (random : String) (found : p id = some call) :
      CallStep now m p (some (id, call)) (call.resume m now random).manager
        (Function.update p id (Call.pending (call.resume m now random)))
  | fire (id timer : Nat) (free : p id = none) (runId : RunId)
      (timeoutManager : InMemoryTimeoutManager TimeoutCallback)
      (fired : m.timeoutManager.fire now timer = some (runId, .timeoutRun, timeoutManager)) :
      CallStep now m p none { m with timeoutManager }
        (Function.update p id (some (.timeoutRun runId (m.timeoutRun runId))))
  | listen (listener : AbortListener) (signal : Nat) :
      CallStep now m p none
        { m with
          cancellationRegistry := m.cancellationRegistry.addAbortListener listener signal } p

/-- Where a call in progress after a step comes from: it was there before, it has just been made,
the resumed call goes on with it, or a timer has made it. -/
inductive Origin (now : Int) (m : RunManager) (p : Pending) (id : Nat) :
    Option (Nat × Call) → RunManager → Call → Prop
  | stays (resumed : Option (Nat × Call)) (m' : RunManager) (call : Call) (found : p id = some call)
      (other : ∀ before, resumed ≠ some (id, before)) : Origin now m p id resumed m' call
  | begins (request : Request) (free : p id = none)
      (fresh : ∀ random input, request = .createRun random input →
        m.stateOf (RunManager.newRunId now random) = none) :
      Origin now m p id none (Call.start m now request).1 (Call.start m now request).2
  | goes (before : Call) (random : String) (next : Call) (got : p id = some before)
      (goes : Call.pending (before.resume m now random) = some next) :
      Origin now m p id (some (id, before)) (before.resume m now random).manager next
  | fires (runId : RunId) (timeoutManager : InMemoryTimeoutManager TimeoutCallback)
      (free : p id = none) :
      Origin now m p id none { m with timeoutManager } (.timeoutRun runId (m.timeoutRun runId))

theorem CallStep.origin {now : Int} {m m' : RunManager} {p p' : Pending}
    {resumed : Option (Nat × Call)} (step : CallStep now m p resumed m' p') {id : Nat} {call : Call}
    (found : p' id = some call) : Origin now m p id resumed m' call := by
  cases step with
  | begin id' request free fresh =>
      rw [Function.update_apply] at found
      split at found
      · rename_i here
        cases found
        exact .begins request (here ▸ free) fresh
      · exact .stays _ _ _ found (by simp)
  | resume id' before random got =>
      rw [Function.update_apply] at found
      split at found
      · rename_i here
        subst here
        exact .goes before random call got found
      · rename_i different
        refine .stays _ _ _ found ?_
        intro other same
        cases same
        exact different rfl
  | fire id' timer free runId timeoutManager fired =>
      rw [Function.update_apply] at found
      split at found
      · rename_i here
        cases found
        exact .fires runId timeoutManager (here ▸ free)
      · exact .stays _ _ _ found (by simp)
  | listen listener signal => exact .stays _ _ _ found (by simp)

theorem CallStep.remains {now : Int} {m m' : RunManager} {p p' : Pending}
    {resumed : Option (Nat × Call)} (step : CallStep now m p resumed m' p') {id : Nat} {call : Call}
    (found : p id = some call) (other : ∀ before, resumed ≠ some (id, before)) :
    p' id = some call := by
  have busy {id' : Nat} (free : p id' = none) : id ≠ id' := by
    rintro rfl
    rw [free] at found
    cases found
  cases step with
  | begin id' request free fresh => exact (Function.update_of_ne (busy free) _ _).trans found
  | resume id' before random got =>
      have different : id ≠ id' := by
        rintro rfl
        exact other before rfl
      exact (Function.update_of_ne different _ _).trans found
  | fire id' timer free runId timeoutManager fired =>
      exact (Function.update_of_ne (busy free) _ _).trans found
  | listen listener signal => exact found

/-- `RunManager` with the calls in progress on it and the clock. -/
structure Pool where
  manager : RunManager
  now : Int
  calls : EsMap Nat Call

namespace Pool

inductive Label where
  | begin (id : Nat) (request : Request)
  | resume (id : Nat) (random : String)
  | fire (id timer : Nat)
  | tick (elapsed : Nat)

def init (config : RunManagerConfig) (now : Int) : Pool := ⟨RunManager.init config, now, .empty⟩

def store (p : Pool) (manager : RunManager) (id : Nat) : Option Call → Pool
  | none => { p with manager, calls := p.calls.delete id }
  | some call => { p with manager, calls := p.calls.set id call }

def step (p : Pool) : Label → Option Pool
  | .begin id request =>
    if p.calls.has id then none
    else
      let (manager, call) := Call.start p.manager p.now request
      some (p.store manager id (some call))
  | .resume id random =>
    match p.calls.get id with
    | none => none
    | some call =>
      let turn := call.resume p.manager p.now random
      some (p.store turn.manager id (Call.pending turn))
  | .fire id timer =>
    if p.calls.has id then none
    else
      match p.manager.timeoutManager.fire p.now timer with
      | none => none
      | some (runId, .timeoutRun, timeoutManager) =>
        let manager := { p.manager with timeoutManager }
        some (p.store manager id (some (.timeoutRun runId (manager.timeoutRun runId))))
  | .tick elapsed => some { p with now := p.now + elapsed }

def resumed (p : Pool) : Label → Option (Nat × Call)
  | .resume id _ => (p.calls.get id).map (id, ·)
  | _ => none

def others (p : Pool) (id : Nat) : List Call := (p.calls.delete id).values

def created (p : Pool) : Label → Option RunId
  | .begin _ (.createRun random _) => some (RunManager.newRunId p.now random)
  | _ => none

def FreshRun (p : Pool) (label : Label) : Prop :=
  ∀ runId ∈ p.created label, p.manager.stateOf runId = none

instance (p : Pool) (label : Label) : Decidable (p.FreshRun label) :=
  inferInstanceAs (Decidable (∀ runId ∈ p.created label, _))

def Quiescent (p : Pool) : Prop := p.calls.entries = []

theorem mem_others (p : Pool) (id : Nat) (other : Call) :
    other ∈ p.others id ↔ ∃ id', id' ≠ id ∧ p.calls.get id' = some other := by
  simp only [others, EsMap.mem_values_iff, EsMap.get_delete]
  constructor
  · rintro ⟨id', found⟩
    split at found
    · cases found
    · rename_i different
      exact ⟨id', different, found⟩
  · rintro ⟨id', different, found⟩
    exact ⟨id', by rw [if_neg different, found]⟩

theorem get_store (p : Pool) (manager : RunManager) (id : Nat) (call : Option Call) :
    (p.store manager id call).calls.get = Function.update p.calls.get id call := by
  funext other
  cases call with
  | none =>
      simp only [store, EsMap.get_delete, Function.update_apply]
  | some call =>
      simp only [store, EsMap.get_set, Function.update_apply]

@[simp] theorem store_manager (p : Pool) (manager : RunManager) (id : Nat) (call : Option Call) :
    (p.store manager id call).manager = manager := by
  cases call <;> rfl

theorem free_of_not_has (p : Pool) (id : Nat) (free : ¬p.calls.has id = true) :
    p.calls.get id = none := by
  simpa [EsMap.has] using free

theorem step_callStep (p q : Pool) (label : Label) (fresh : p.FreshRun label)
    (moved : p.step label = some q) :
    (q.manager = p.manager ∧ q.calls = p.calls) ∨
      CallStep p.now p.manager p.calls.get (p.resumed label) q.manager q.calls.get := by
  cases label with
  | begin id request =>
      simp only [step] at moved
      split at moved
      · cases moved
      · rename_i free
        cases moved
        right
        rw [get_store, store_manager]
        apply CallStep.begin id request (p.free_of_not_has id free)
        rintro random input rfl
        exact fresh _ rfl
  | resume id random =>
      simp only [step] at moved
      cases found : p.calls.get id with
      | none =>
          rw [found] at moved
          cases moved
      | some call =>
          rw [found] at moved
          cases moved
          right
          rw [get_store, store_manager, resumed, found]
          exact CallStep.resume id call random found
  | fire id timer =>
      simp only [step] at moved
      split at moved
      · cases moved
      · rename_i free
        split at moved
        · cases moved
        · rename_i runId timeoutManager fired
          cases moved
          right
          rw [get_store, store_manager]
          exact CallStep.fire id timer (p.free_of_not_has id free) runId timeoutManager fired
  | tick elapsed =>
      cases moved
      exact .inl ⟨rfl, rfl⟩

end Pool

end Minerva
