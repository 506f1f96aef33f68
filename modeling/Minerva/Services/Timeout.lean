import Minerva.Library.EsMap
import Minerva.Types.Run

namespace Minerva

structure TimeoutHandle where
  runId : RunId
  scheduledAt : Int
  timeoutAt : Int
  timer : Nat

/-- A timer of the event loop, with the run and the callback that its closure holds. -/
structure ArmedTimer (β : Type) where
  runId : RunId
  due : Int
  onTimeout : β

structure InMemoryTimeoutManager (β : Type) where
  timeouts : EsMap RunId TimeoutHandle
  timers : EsMap Nat (ArmedTimer β)
  nextTimer : Nat

def DEFAULT_RUN_TIMEOUT_MS : Int := 10 * 60 * 1000

def MAX_RUN_TIMEOUT_MS : Int := 60 * 60 * 1000

/-- The delay `setTimeout` really waits: one that is out of range counts as 1. -/
def timerDelay (delayMs : Int) : Int :=
  if 1 ≤ delayMs ∧ delayMs ≤ 2147483647 then delayMs else 1

namespace InMemoryTimeoutManager

variable {β : Type}

def empty : InMemoryTimeoutManager β := ⟨.empty, .empty, 0⟩

/-- `handle.clear()`: the timer goes, the registry entry stays. -/
def clearHandle (m : InMemoryTimeoutManager β) (handle : TimeoutHandle) :
    InMemoryTimeoutManager β :=
  { m with timers := m.timers.delete handle.timer }

def clear (m : InMemoryTimeoutManager β) (runId : RunId) : InMemoryTimeoutManager β × Bool :=
  match m.timeouts.get runId with
  | none => (m, false)
  | some handle =>
    let m := m.clearHandle handle
    ({ m with timeouts := m.timeouts.delete runId }, true)

def schedule (m : InMemoryTimeoutManager β) (now : Int) (runId : RunId) (delayMs : Int)
    (onTimeout : β) : InMemoryTimeoutManager β × TimeoutHandle :=
  let m := (m.clear runId).1
  let handle : TimeoutHandle :=
    { runId, scheduledAt := now, timeoutAt := now + delayMs, timer := m.nextTimer }
  ({ timeouts := m.timeouts.set runId handle
     timers := m.timers.set m.nextTimer ⟨runId, now + timerDelay delayMs, onTimeout⟩
     nextTimer := m.nextTimer + 1 }, handle)

def has (m : InMemoryTimeoutManager β) (runId : RunId) : Bool := m.timeouts.has runId

def getTimeoutAt (m : InMemoryTimeoutManager β) (runId : RunId) : Option Int :=
  (m.timeouts.get runId).map TimeoutHandle.timeoutAt

def clearAll (m : InMemoryTimeoutManager β) : InMemoryTimeoutManager β :=
  let m := m.timeouts.entries.foldl (fun m entry => m.clearHandle entry.2) m
  { m with timeouts := .empty }

/-- A due timer fires: it leaves the event loop, its closure drops the registry entry and
hands over the run and the callback. -/
def fire (m : InMemoryTimeoutManager β) (now : Int) (timer : Nat) :
    Option (RunId × β × InMemoryTimeoutManager β) :=
  match m.timers.get timer with
  | none => none
  | some armed =>
    if armed.due ≤ now then
      some (armed.runId, armed.onTimeout,
        { m with timers := m.timers.delete timer, timeouts := m.timeouts.delete armed.runId })
    else none

variable {m : InMemoryTimeoutManager β} {now : Int} {runId id : RunId}

@[simp] theorem timeouts_clear (m : InMemoryTimeoutManager β) (runId : RunId) :
    (m.clear runId).1.timeouts.get id = if id = runId then none else m.timeouts.get id := by
  unfold clear
  cases found : m.timeouts.get runId with
  | none =>
      by_cases same : id = runId
      · rw [if_pos same, same, found]
      · rw [if_neg same]
  | some handle => exact EsMap.get_delete m.timeouts runId id

theorem timers_clear (m : InMemoryTimeoutManager β) (runId : RunId) (timer : Nat) :
    (m.clear runId).1.timers.get timer =
      if (m.timeouts.get runId).map TimeoutHandle.timer = some timer then none
      else m.timers.get timer := by
  unfold clear
  cases m.timeouts.get runId with
  | none => simp
  | some handle => simp [clearHandle, EsMap.get_delete, eq_comm]

@[simp] theorem nextTimer_clear (m : InMemoryTimeoutManager β) (runId : RunId) :
    (m.clear runId).1.nextTimer = m.nextTimer := by
  unfold clear
  split <;> rfl

theorem timers_clearHandles (entries : List (RunId × TimeoutHandle)) {timer : Nat}
    {armed : ArmedTimer β}
    (found : (entries.foldl (fun m entry => m.clearHandle entry.2) m).timers.get timer =
      some armed) :
    m.timers.get timer = some armed ∧ ∀ entry ∈ entries, entry.2.timer ≠ timer := by
  induction entries generalizing m with
  | nil => exact ⟨found, fun _ member => absurd member List.not_mem_nil⟩
  | cons first rest ih =>
      obtain ⟨earlier, others⟩ := ih found
      obtain ⟨other, still⟩ := EsMap.get_of_get_delete _ _ earlier
      refine ⟨still, ?_⟩
      intro entry member
      rcases List.mem_cons.mp member with rfl | later
      · exact other.symm
      · exact others entry later

theorem timers_clearAll {timer : Nat} {armed : ArmedTimer β}
    (found : m.clearAll.timers.get timer = some armed) :
    m.timers.get timer = some armed ∧
      ∀ runId handle, m.timeouts.get runId = some handle → handle.timer ≠ timer := by
  obtain ⟨still, others⟩ := timers_clearHandles m.timeouts.entries found
  refine ⟨still, ?_⟩
  intro runId handle registered
  exact others (runId, handle) ((EsMap.get_eq_some_iff m.timeouts runId handle).mp registered)

@[simp] theorem nextTimer_clearAll (m : InMemoryTimeoutManager β) :
    m.clearAll.nextTimer = m.nextTimer := by
  have kept (entries : List (RunId × TimeoutHandle)) (m : InMemoryTimeoutManager β) :
      (entries.foldl (fun m entry => m.clearHandle entry.2) m).nextTimer = m.nextTimer := by
    induction entries generalizing m with
    | nil => rfl
    | cons first rest ih => exact ih (m.clearHandle first.2)
  exact kept m.timeouts.entries m

/-- What the event loop holds is what the registry holds: each scheduled timeout has its timer
armed, and each armed timer is the one scheduled for its run. -/
structure Armed (m : InMemoryTimeoutManager β) : Prop where
  armed : ∀ runId handle, m.timeouts.get runId = some handle →
    ∃ timer, m.timers.get handle.timer = some timer ∧ timer.runId = runId
  scheduled : ∀ t timer, m.timers.get t = some timer →
    t < m.nextTimer ∧ ∃ handle, m.timeouts.get timer.runId = some handle ∧ handle.timer = t

theorem Armed.empty : (empty : InMemoryTimeoutManager β).Armed := by
  constructor
  · intro runId handle found
    cases found
  · intro t timer found
    cases found

theorem Armed.handle_unique (ok : m.Armed) {handle handle' : TimeoutHandle}
    (first : m.timeouts.get runId = some handle) (second : m.timeouts.get id = some handle')
    (same : handle.timer = handle'.timer) : runId = id := by
  obtain ⟨timer, found, owner⟩ := ok.armed runId handle first
  obtain ⟨timer', found', owner'⟩ := ok.armed id handle' second
  rw [same, found'] at found
  cases found
  exact owner.symm.trans owner'

theorem Armed.clear (ok : m.Armed) (runId : RunId) : (m.clear runId).1.Armed := by
  constructor
  · intro id handle found
    rw [timeouts_clear] at found
    split at found
    · cases found
    · rename_i different
      obtain ⟨timer, armed, owner⟩ := ok.armed id handle found
      refine ⟨timer, ?_, owner⟩
      rw [timers_clear, if_neg]
      · exact armed
      · intro cleared
        obtain ⟨handle', found', same⟩ := Option.map_eq_some_iff.mp cleared
        exact different (ok.handle_unique found found' same.symm)
  · intro t timer found
    rw [timers_clear] at found
    split at found
    · cases found
    · rename_i kept
      obtain ⟨bound, handle, registered, same⟩ := ok.scheduled t timer found
      refine ⟨by simpa using bound, handle, ?_, same⟩
      rw [timeouts_clear, if_neg]
      · exact registered
      · rintro rfl
        exact kept (by rw [registered, ← same]; rfl)

theorem Armed.clearAll (ok : m.Armed) : m.clearAll.Armed := by
  constructor
  · intro runId handle found
    cases found
  · intro t timer found
    obtain ⟨still, apart⟩ := timers_clearAll found
    obtain ⟨_, handle, registered, same⟩ := ok.scheduled t timer still
    exact absurd same (apart timer.runId handle registered)

theorem Armed.schedule (ok : m.Armed) (now : Int) (runId : RunId) (delayMs : Int) (onTimeout : β) :
    (m.schedule now runId delayMs onTimeout).1.Armed := by
  have cleared := ok.clear runId
  constructor
  · intro id handle found
    simp only [InMemoryTimeoutManager.schedule, EsMap.get_set] at found ⊢
    split at found
    · rename_i same
      cases found
      exact ⟨_, if_pos rfl, same.symm⟩
    · rename_i different
      obtain ⟨timer, armed, owner⟩ := cleared.armed id handle found
      have older := (cleared.scheduled _ _ armed).1
      exact ⟨timer, by rw [if_neg (by omega), armed], owner⟩
  · intro t timer found
    simp only [InMemoryTimeoutManager.schedule, EsMap.get_set] at found ⊢
    split at found
    · rename_i same
      cases found
      exact ⟨by omega, _, if_pos rfl, same.symm⟩
    · obtain ⟨bound, handle, registered, same⟩ := cleared.scheduled t timer found
      refine ⟨by omega, handle, ?_, same⟩
      rw [timeouts_clear] at registered
      split at registered
      · cases registered
      · rename_i different
        rw [if_neg different, timeouts_clear, if_neg different, registered]

theorem fire_cases {timer : Nat} {fired : RunId × β × InMemoryTimeoutManager β}
    (fires : m.fire now timer = some fired) :
    ∃ armed, m.timers.get timer = some armed ∧ armed.due ≤ now ∧
      fired = (armed.runId, armed.onTimeout,
        { m with timers := m.timers.delete timer, timeouts := m.timeouts.delete armed.runId }) := by
  unfold fire at fires
  cases found : m.timers.get timer with
  | none =>
      rw [found] at fires
      cases fires
  | some armed =>
      rw [found] at fires
      by_cases due : armed.due ≤ now
      · simp only [if_pos due, Option.some_inj] at fires
        exact ⟨armed, rfl, due, fires.symm⟩
      · simp only [if_neg due] at fires
        cases fires

theorem Armed.fire (ok : m.Armed) {handle : TimeoutHandle} {owner : RunId} {onTimeout : β}
    {m' : InMemoryTimeoutManager β} (found : m.timeouts.get runId = some handle)
    (fired : m.fire now handle.timer = some (owner, onTimeout, m')) :
    owner = runId ∧ m' = (m.clear runId).1 := by
  obtain ⟨timer, armed, same⟩ := ok.armed runId handle found
  obtain ⟨timer', armed', _, result⟩ := fire_cases fired
  rw [armed, Option.some_inj] at armed'
  subst armed'
  cases result
  refine ⟨same, ?_⟩
  simp only [InMemoryTimeoutManager.clear, found, clearHandle, same]

/-- Firing any armed timer is clearing its run's timeout. -/
theorem Armed.fire_armed (ok : m.Armed) {timer : Nat}
    {fired : RunId × β × InMemoryTimeoutManager β} (fires : m.fire now timer = some fired) :
    fired.2.2 = (m.clear fired.1).1 := by
  obtain ⟨armed, found, _, result⟩ := fire_cases fires
  obtain ⟨_, handle, registered, same⟩ := ok.scheduled timer armed found
  subst same
  obtain ⟨owner, onTimeout, left⟩ := fired
  obtain ⟨rfl, cleared⟩ := ok.fire registered fires
  cases result
  exact cleared

def dueAt (m : InMemoryTimeoutManager β) (runId : RunId) : Option Int :=
  ((m.timeouts.get runId).bind (fun handle => m.timers.get handle.timer)).map ArmedTimer.due

theorem Armed.dueAt_clear (ok : m.Armed) (runId id : RunId) :
    (m.clear runId).1.dueAt id = if id = runId then none else m.dueAt id := by
  unfold dueAt
  rw [timeouts_clear]
  by_cases same : id = runId
  · simp [same]
  · simp only [if_neg same]
    cases found : m.timeouts.get id with
    | none => rfl
    | some handle =>
        simp only [Option.bind_some, timers_clear]
        rw [if_neg]
        intro cleared
        obtain ⟨handle', found', timer⟩ := Option.map_eq_some_iff.mp cleared
        exact same (ok.handle_unique found found' timer.symm)

theorem Armed.dueAt_schedule (ok : m.Armed) (now : Int) (runId id : RunId) (delayMs : Int)
    (onTimeout : β) :
    (m.schedule now runId delayMs onTimeout).1.dueAt id =
      if id = runId then some (now + timerDelay delayMs) else m.dueAt id := by
  have cleared := ok.dueAt_clear runId id
  unfold dueAt InMemoryTimeoutManager.schedule at *
  simp only [EsMap.get_set]
  by_cases same : id = runId
  · simp [same]
  · simp only [if_neg same] at cleared ⊢
    rw [← cleared, timeouts_clear, if_neg same]
    cases found : m.timeouts.get id with
    | none => rfl
    | some handle =>
        have still : (m.clear runId).1.timeouts.get id = some handle := by
          rw [timeouts_clear, if_neg same, found]
        obtain ⟨timer, armed, -⟩ := (ok.clear runId).armed id handle still
        have older := ((ok.clear runId).scheduled _ _ armed).1
        simp only [Option.bind_some]
        rw [if_neg (by omega)]

end InMemoryTimeoutManager

end Minerva
