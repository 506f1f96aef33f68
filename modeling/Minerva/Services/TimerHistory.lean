import Mathlib.Logic.Function.Basic
import Minerva.Library.Transition
import Minerva.Services.Timeout

/-! Histories of the timeout manager: its calls and those of the handles that it returned, in any
order, with timers that go off between them. A handle clears its timer and leaves the registry. -/

namespace Minerva

/-- What happens to a scheduled callback. A callback is known by the number of its `schedule`
call. -/
inductive TimerEvent where
  | ran (number : Nat)
  | cleared (number : Nat)
  | replaced (number : Nat)

def TimerEvent.number : TimerEvent → Nat
  | .ran number => number
  | .cleared number => number
  | .replaced number => number

inductive TimerCall where
  | schedule (runId : RunId) (delayMs : Int)
  | clear (runId : RunId)
  | clearAll
  /-- `clear()` on the handle that the `schedule` call of the number returned -/
  | clearHandle (number : Nat)
  /-- a timer goes off -/
  | fire (timer : Nat)
  | wait (ms : Nat)

structure TimerHistory where
  manager : InMemoryTimeoutManager Nat
  now : Int
  /-- the handles that `schedule` has returned, in order -/
  handles : List TimeoutHandle
  /-- the latest `schedule` call for a run -/
  latest : RunId → Option Nat
  log : List TimerEvent

namespace TimerHistory

def init (now : Int) : TimerHistory := ⟨.empty, now, [], fun _ => none, []⟩

def step (s : TimerHistory) : TimerCall → Option TimerHistory
  | .schedule runId delayMs =>
    let number := s.handles.length
    let (manager, handle) := s.manager.schedule s.now runId delayMs number
    some { s with
      manager
      handles := s.handles ++ [handle]
      latest := Function.update s.latest runId (some number)
      log := s.log ++ ((s.latest runId).map .replaced).toList }
  | .clear runId =>
    some { s with
      manager := (s.manager.clear runId).1
      log := s.log ++ ((s.latest runId).map .cleared).toList }
  | .clearAll =>
    some { s with
      manager := s.manager.clearAll
      log := s.log ++ (List.range s.handles.length).map .cleared }
  | .clearHandle number =>
    (s.handles[number]?).map (fun handle =>
      { s with manager := s.manager.clearHandle handle, log := s.log ++ [.cleared number] })
  | .fire timer =>
    (s.manager.fire s.now timer).map (fun fired =>
      { s with manager := fired.2.2, log := s.log ++ [.ran fired.2.1] })
  | .wait ms => some { s with now := s.now + ms }

def Pending (s : TimerHistory) (runId : RunId) : Prop :=
  ∃ t timer, s.manager.timers.get t = some timer ∧ timer.runId = runId ∧
    s.latest runId = some timer.onTimeout

/-- When a callback runs, nothing has happened to it before. -/
def Spared (log : List TimerEvent) : Prop :=
  log.Pairwise (fun earlier later => ∀ number, later = .ran number → earlier.number ≠ number)

/-- The registry says what the event loop is going to do. -/
structure Faithful (s : TimerHistory) : Prop where
  has_iff : ∀ runId, s.manager.has runId = true ↔ s.Pending runId
  timeoutAt_iff : ∀ runId, s.manager.getTimeoutAt runId ≠ none ↔ s.Pending runId
  one_armed : ∀ t t' timer timer', s.manager.timers.get t = some timer →
    s.manager.timers.get t' = some timer' → timer.runId = timer'.runId → t = t'
  spared : Spared s.log

/-- A handle is cleared only when its timer is not armed any more. -/
def Careful (s : TimerHistory) : TimerCall → Prop
  | .clearHandle number =>
    ∀ handle ∈ s.handles[number]?, s.manager.timers.get handle.timer = none
  | _ => True

/-- An armed timer is the one of the latest `schedule` call for its run, stands in the registry
for it, and nothing has happened to its callback. -/
structure Live (s : TimerHistory) (t : Nat) (timer : ArmedTimer Nat) : Prop where
  own : timer.onTimeout = t
  latest : s.latest timer.runId = some t
  registered : ∃ handle, s.manager.timeouts.get timer.runId = some handle ∧ handle.timer = t
  quiet : ∀ event ∈ s.log, event.number ≠ t

structure Sound (s : TimerHistory) : Prop where
  counted : s.manager.nextTimer = s.handles.length
  numbered : ∀ (number : Nat) (handle : TimeoutHandle), s.handles[number]? = some handle →
    handle.timer = number
  scheduled : ∀ runId (number : Nat), s.latest runId = some number →
    ∃ handle, s.handles[number]? = some handle ∧ handle.runId = runId
  live : ∀ t timer, s.manager.timers.get t = some timer → s.Live t timer
  known : ∀ event ∈ s.log, event.number < s.handles.length
  spared : Spared s.log

variable {s s' : TimerHistory} {runId : RunId} {t : Nat} {timer : ArmedTimer Nat}

theorem sound_init (now : Int) : (init now).Sound where
  counted := rfl
  numbered _ _ found := by cases found
  scheduled _ _ found := by cases found
  live _ _ found := by cases found
  known _ member := absurd member List.not_mem_nil
  spared := List.Pairwise.nil

theorem Sound.latest_unique (sound : s.Sound) {other : RunId} {number : Nat}
    (first : s.latest runId = some number) (second : s.latest other = some number) :
    runId = other := by
  obtain ⟨handle, found, same⟩ := sound.scheduled runId number first
  obtain ⟨handle', found', same'⟩ := sound.scheduled other number second
  rw [found, Option.some_inj] at found'
  rw [← same, ← same', found']

theorem Sound.latest_lt (sound : s.Sound) {number : Nat} (found : s.latest runId = some number) :
    number < s.handles.length := by
  obtain ⟨handle, stored, _⟩ := sound.scheduled runId number found
  exact (List.getElem?_eq_some_iff.mp stored).1

theorem Sound.one_armed (sound : s.Sound) {t' : Nat} {timer' : ArmedTimer Nat}
    (found : s.manager.timers.get t = some timer) (found' : s.manager.timers.get t' = some timer')
    (same : timer.runId = timer'.runId) : t = t' := by
  have latest := (sound.live t timer found).latest
  rw [same, (sound.live t' timer' found').latest, Option.some_inj] at latest
  exact latest.symm

theorem Sound.shrinks (sound : s.Sound) {manager : InMemoryTimeoutManager Nat}
    {events : List TimerEvent} (counted : manager.nextTimer = s.manager.nextTimer)
    (stays : ∀ t timer, manager.timers.get t = some timer →
      s.manager.timers.get t = some timer ∧
        manager.timeouts.get timer.runId = s.manager.timeouts.get timer.runId ∧
        ∀ event ∈ events, event.number ≠ t)
    (known : ∀ event ∈ events, event.number < s.handles.length) (calm : Spared events)
    (ran : ∀ number, .ran number ∈ events → ∃ timer, s.manager.timers.get number = some timer) :
    Sound { s with manager, log := s.log ++ events } where
  counted := counted.trans sound.counted
  numbered := sound.numbered
  scheduled := sound.scheduled
  live := by
    intro t timer found
    obtain ⟨earlier, registered, apart⟩ := stays t timer found
    have live := sound.live t timer earlier
    refine ⟨live.own, live.latest, ?_, ?_⟩
    · obtain ⟨handle, stored, same⟩ := live.registered
      exact ⟨handle, registered.trans stored, same⟩
    · intro event member
      rcases List.mem_append.mp member with before | now
      · exact live.quiet event before
      · exact apart event now
  known := by
    intro event member
    rcases List.mem_append.mp member with before | now
    · exact sound.known event before
    · exact known event now
  spared := by
    refine List.pairwise_append.mpr ⟨sound.spared, calm, ?_⟩
    intro earlier before later now number same
    obtain ⟨timer, armed⟩ := ran number (same ▸ now)
    exact (sound.live number timer armed).quiet earlier before

theorem spared_of_ended {events : List TimerEvent} (ended : ∀ number, .ran number ∉ events) :
    Spared events := by
  induction events with
  | nil => exact List.Pairwise.nil
  | cons event rest ih =>
      refine List.pairwise_cons.mpr ⟨?_, ih fun number member =>
        ended number (List.mem_cons_of_mem _ member)⟩
      intro later member number same
      exact absurd (List.mem_cons_of_mem _ (same ▸ member)) (ended number)

theorem Sound.apart_of_clear (sound : s.Sound)
    (found : (s.manager.clear runId).1.timers.get t = some timer) :
    s.manager.timers.get t = some timer ∧ timer.runId ≠ runId := by
  rw [InMemoryTimeoutManager.timers_clear] at found
  split at found
  · cases found
  · next kept =>
      refine ⟨found, ?_⟩
      rintro rfl
      obtain ⟨handle, stored, same⟩ := (sound.live t timer found).registered
      exact kept (by rw [stored, Option.map_some, same])

theorem Sound.clear (sound : s.Sound) (runId : RunId) (event : Nat → TimerEvent)
    (names : ∀ number, (event number).number = number)
    (ended : ∀ number other, event number ≠ .ran other) :
    Sound { s with
      manager := (s.manager.clear runId).1
      log := s.log ++ ((s.latest runId).map event).toList } := by
  have listed {happened : TimerEvent} (member : happened ∈ ((s.latest runId).map event).toList) :
      ∃ number, s.latest runId = some number ∧ event number = happened := by
    rw [Option.mem_toList] at member
    exact Option.map_eq_some_iff.mp member
  have not_ran (other : Nat) : .ran other ∉ ((s.latest runId).map event).toList := by
    intro member
    obtain ⟨number, _, same⟩ := listed member
    exact ended number other same
  apply sound.shrinks
  case counted => exact InMemoryTimeoutManager.nextTimer_clear s.manager runId
  case stays =>
    intro t timer found
    obtain ⟨earlier, apart⟩ := sound.apart_of_clear found
    refine ⟨earlier, ?_, ?_⟩
    · rw [InMemoryTimeoutManager.timeouts_clear, if_neg apart]
    · intro happened member
      obtain ⟨number, latest, rfl⟩ := listed member
      rw [names]
      rintro rfl
      exact apart (sound.latest_unique (sound.live _ timer earlier).latest latest)
  case known =>
    intro happened member
    obtain ⟨number, latest, rfl⟩ := listed member
    rw [names]
    exact sound.latest_lt latest
  case calm => exact spared_of_ended not_ran
  case ran => exact fun number member => absurd member (not_ran number)

theorem Sound.clearAll (sound : s.Sound) :
    Sound { s with
      manager := s.manager.clearAll
      log := s.log ++ (List.range s.handles.length).map .cleared } := by
  have not_ran (other : Nat) :
      TimerEvent.ran other ∉ (List.range s.handles.length).map TimerEvent.cleared := by
    intro member
    obtain ⟨number, _, same⟩ := List.mem_map.mp member
    cases same
  apply sound.shrinks
  case counted => exact InMemoryTimeoutManager.nextTimer_clearAll s.manager
  case stays =>
    -- every armed timer stands in the registry, so none stays
    intro t timer found
    obtain ⟨earlier, apart⟩ := InMemoryTimeoutManager.timers_clearAll found
    obtain ⟨handle, stored, same⟩ := (sound.live t timer earlier).registered
    exact absurd same (apart timer.runId handle stored)
  case known =>
    intro event member
    obtain ⟨number, inside, rfl⟩ := List.mem_map.mp member
    exact List.mem_range.mp inside
  case calm => exact spared_of_ended not_ran
  case ran => exact fun number member => absurd member (not_ran number)

theorem Sound.departs (sound : s.Sound) {timeouts : EsMap RunId TimeoutHandle} (number : Nat)
    {event : TimerEvent} (names : event.number = number) (known : number < s.handles.length)
    (kept : ∀ t timer, t ≠ number → s.manager.timers.get t = some timer →
      timeouts.get timer.runId = s.manager.timeouts.get timer.runId)
    (armed : ∀ other, event = .ran other → ∃ timer, s.manager.timers.get other = some timer) :
    Sound { s with
      manager := { s.manager with timeouts, timers := s.manager.timers.delete number }
      log := s.log ++ [event] } := by
  apply sound.shrinks
  case counted => rfl
  case stays =>
    intro t timer found
    obtain ⟨other, earlier⟩ := EsMap.get_of_get_delete _ _ found
    refine ⟨earlier, kept t timer other earlier, ?_⟩
    intro happened member
    rw [List.mem_singleton.mp member, names]
    exact other.symm
  case known =>
    intro happened member
    rw [List.mem_singleton.mp member, names]
    exact known
  case calm => exact List.pairwise_singleton _ _
  case ran => exact fun other member => armed other (List.mem_singleton.mp member).symm

theorem Sound.clearHandle (sound : s.Sound) {number : Nat} {handle : TimeoutHandle}
    (returned : s.handles[number]? = some handle) :
    Sound { s with
      manager := s.manager.clearHandle handle
      log := s.log ++ [.cleared number] } := by
  have own := sound.numbered number handle returned
  apply sound.departs handle.timer
  case names => exact own.symm
  case known =>
    rw [own]
    exact (List.getElem?_eq_some_iff.mp returned).1
  case kept => exact fun _ _ _ _ => rfl
  case armed =>
    intro other same
    cases same

theorem Sound.fire (sound : s.Sound) {timer : Nat}
    {fired : RunId × Nat × InMemoryTimeoutManager Nat}
    (fires : s.manager.fire s.now timer = some fired) :
    Sound { s with manager := fired.2.2, log := s.log ++ [.ran fired.2.1] } := by
  obtain ⟨armed, found, _, rfl⟩ := InMemoryTimeoutManager.fire_cases fires
  have live := sound.live timer armed found
  apply sound.departs timer
  case names => exact live.own
  case known => exact sound.latest_lt live.latest
  case kept =>
    intro t other apart earlier
    apply EsMap.get_delete_of_ne
    exact fun same => apart (sound.one_armed earlier found same)
  case armed =>
    intro number same
    cases same
    exact ⟨armed, live.own.symm ▸ found⟩

theorem getElem?_concat_cases {α : Type} {items : List α} {item found : α} {i : Nat}
    (at_index : (items ++ [item])[i]? = some found) :
    items[i]? = some found ∨ i = items.length ∧ found = item := by
  rcases Nat.lt_trichotomy i items.length with inside | rfl | beyond
  · rw [List.getElem?_append_left inside] at at_index
    exact .inl at_index
  · rw [List.getElem?_concat_length, Option.some_inj] at at_index
    exact .inr ⟨rfl, at_index.symm⟩
  · have := (List.getElem?_eq_some_iff.mp at_index).1
    rw [List.length_append, List.length_singleton] at this
    omega

theorem Sound.arm (sound : s.Sound) (handle : TimeoutHandle) (due : Int)
    (own : handle.timer = s.manager.nextTimer)
    (free : ∀ t timer, s.manager.timers.get t = some timer → timer.runId ≠ handle.runId) :
    Sound { s with
      manager :=
        { timeouts := s.manager.timeouts.set handle.runId handle
          timers := s.manager.timers.set s.manager.nextTimer
            ⟨handle.runId, due, s.handles.length⟩
          nextTimer := s.manager.nextTimer + 1 }
      handles := s.handles ++ [handle]
      latest := Function.update s.latest handle.runId (some s.handles.length) } where
  counted := by
    rw [List.length_append]
    exact congrArg (· + 1) sound.counted
  numbered := by
    intro number stored found
    rcases getElem?_concat_cases found with earlier | ⟨rfl, rfl⟩
    · exact sound.numbered number stored earlier
    · exact own.trans sound.counted
  scheduled := by
    intro runId number found
    change Function.update s.latest handle.runId (some s.handles.length) runId = some number at found
    by_cases same : runId = handle.runId
    · subst same
      rw [Function.update_self, Option.some_inj] at found
      subst found
      exact ⟨handle, List.getElem?_concat_length, rfl⟩
    · rw [Function.update_of_ne same] at found
      obtain ⟨stored, earlier, owner⟩ := sound.scheduled runId number found
      have inside := (List.getElem?_eq_some_iff.mp earlier).1
      exact ⟨stored, (List.getElem?_append_left inside).trans earlier, owner⟩
  live := by
    intro t timer found
    rcases EsMap.get_set_cases _ _ found with ⟨rfl, rfl⟩ | ⟨other, earlier⟩
    · refine ⟨sound.counted.symm, ?_, ⟨handle, EsMap.get_set_self _ _ _, own⟩, ?_⟩
      · rw [sound.counted]
        exact Function.update_self _ _ _
      · intro event member
        rw [sound.counted]
        exact Nat.ne_of_lt (sound.known event member)
    · have live := sound.live t timer earlier
      have apart := free t timer earlier
      refine ⟨live.own, ?_, ?_, live.quiet⟩
      · exact (Function.update_of_ne apart _ _).trans live.latest
      · obtain ⟨stored, registered, same⟩ := live.registered
        exact ⟨stored, (EsMap.get_set_of_ne _ _ _ _ apart).trans registered, same⟩
  known := by
    intro event member
    have earlier := sound.known event member
    rw [List.length_append]
    omega
  spared := sound.spared

theorem Sound.schedule (sound : s.Sound) (runId : RunId) (delayMs : Int) {t : TimerHistory}
    (steps : step s (.schedule runId delayMs) = some t) : t.Sound := by
  cases steps
  have cleared := sound.clear runId .replaced (fun _ => rfl) (fun _ _ same => by cases same)
  apply cleared.arm ⟨runId, s.now, s.now + delayMs, (s.manager.clear runId).1.nextTimer⟩
  case own => rfl
  case free => exact fun _ _ found => (sound.apart_of_clear found).2

/-- One call, or one timer that goes off, keeps what holds of every history. -/
theorem Sound.step (sound : s.Sound) {call : TimerCall} (moved : s.step call = some s') :
    s'.Sound := by
  cases call with
  | schedule runId delayMs => exact sound.schedule runId delayMs moved
  | clear runId =>
      cases moved
      exact sound.clear runId .cleared (fun _ => rfl) (fun _ _ same => by cases same)
  | clearAll =>
      cases moved
      exact sound.clearAll
  | clearHandle number =>
      obtain ⟨handle, returned, rfl⟩ := Option.map_eq_some_iff.mp moved
      exact sound.clearHandle returned
  | fire timer =>
      obtain ⟨fired, fires, rfl⟩ := Option.map_eq_some_iff.mp moved
      exact sound.fire fires
  | wait ms =>
      cases moved
      refine ⟨sound.counted, sound.numbered, sound.scheduled, ?_, sound.known, sound.spared⟩
      intro t timer found
      have live := sound.live t timer found
      exact ⟨live.own, live.latest, live.registered, live.quiet⟩

theorem callbacks_are_spared (now : Int) (calls : List TimerCall) :
    Transition.Throughout step (fun s => Spared s.log ∧
      ∀ t t' timer timer', s.manager.timers.get t = some timer →
        s.manager.timers.get t' = some timer' → timer.runId = timer'.runId → t = t')
      (init now) calls := by
  apply Transition.throughout_of_invariant (I := Sound)
  case holds =>
    intro s sound
    exact ⟨sound.spared, fun t t' timer timer' found found' same =>
      sound.one_armed found found' same⟩
  case keep => exact fun s call t sound moved => sound.step moved
  case base => exact sound_init now

theorem Sound.registered_of_pending (sound : s.Sound) (pending : s.Pending runId) :
    ∃ handle, s.manager.timeouts.get runId = some handle := by
  obtain ⟨t, timer, armed, rfl, _⟩ := pending
  obtain ⟨handle, registered, _⟩ := (sound.live t timer armed).registered
  exact ⟨handle, registered⟩

theorem Sound.pending_of_armed (sound : s.Sound) (armed : s.manager.Armed)
    {handle : TimeoutHandle} (registered : s.manager.timeouts.get runId = some handle) :
    s.Pending runId := by
  obtain ⟨timer, found, rfl⟩ := armed.armed runId handle registered
  have live := sound.live handle.timer timer found
  exact ⟨handle.timer, timer, found, rfl, live.latest.trans (congrArg some live.own.symm)⟩

/-- The registry is faithful exactly when the event loop holds what it holds. -/
theorem Sound.faithful_iff (sound : s.Sound) : s.Faithful ↔ s.manager.Armed := by
  constructor
  · intro faithful
    constructor
    · intro runId handle registered
      have scheduled : s.manager.has runId = true := by
        rw [InMemoryTimeoutManager.has, EsMap.has, registered, Option.isSome_some]
      obtain ⟨t, timer, found, rfl, _⟩ := (faithful.has_iff runId).mp scheduled
      obtain ⟨handle', registered', same⟩ := (sound.live t timer found).registered
      rw [registered, Option.some_inj] at registered'
      exact ⟨timer, by rw [registered', same, found], rfl⟩
    · intro t timer found
      have live := sound.live t timer found
      refine ⟨?_, live.registered⟩
      rw [sound.counted]
      exact sound.latest_lt live.latest
  · intro armed
    have pending_iff (runId : RunId) :
        s.Pending runId ↔ ∃ handle, s.manager.timeouts.get runId = some handle :=
      ⟨sound.registered_of_pending, fun ⟨_, registered⟩ => sound.pending_of_armed armed registered⟩
    refine ⟨?_, ?_, ?_, sound.spared⟩
    · intro runId
      rw [pending_iff, InMemoryTimeoutManager.has, EsMap.has, Option.isSome_iff_exists]
    · intro runId
      rw [pending_iff, InMemoryTimeoutManager.getTimeoutAt, Ne, Option.map_eq_none_iff, ← Ne,
        Option.ne_none_iff_exists']
    · exact fun t t' timer timer' found found' same => sound.one_armed found found' same

theorem Sound.armed_clearHandle_iff (sound : s.Sound) (armed : s.manager.Armed)
    (handle : TimeoutHandle) :
    (s.manager.clearHandle handle).Armed ↔ s.manager.timers.get handle.timer = none := by
  constructor
  · intro still
    by_contra held
    obtain ⟨timer, found⟩ := Option.ne_none_iff_exists'.mp held
    obtain ⟨registered, entry, same⟩ := (sound.live handle.timer timer found).registered
    obtain ⟨other, found', _⟩ := still.armed timer.runId registered entry
    rw [same] at found'
    have gone := EsMap.get_delete_self s.manager.timers handle.timer
    exact Option.some_ne_none other (found'.symm.trans gone)
  · intro absent
    rw [InMemoryTimeoutManager.clearHandle, EsMap.delete_of_absent s.manager.timers _ absent]
    exact armed

/-- The only call after which the registry says what is not so is the early `clear()` of a
handle. -/
theorem Sound.armed_step_iff (sound : s.Sound) (armed : s.manager.Armed) {call : TimerCall}
    (moved : s.step call = some s') : s'.manager.Armed ↔ s.Careful call := by
  cases call with
  | schedule runId delayMs =>
      cases moved
      exact iff_of_true (armed.schedule s.now runId delayMs s.handles.length) trivial
  | clear runId =>
      cases moved
      exact iff_of_true (armed.clear runId) trivial
  | clearAll =>
      cases moved
      exact iff_of_true armed.clearAll trivial
  | clearHandle number =>
      obtain ⟨handle, returned, rfl⟩ := Option.map_eq_some_iff.mp moved
      rw [sound.armed_clearHandle_iff armed handle]
      simp only [Careful, returned, Option.mem_some_iff, forall_eq']
  | fire timer =>
      obtain ⟨fired, fires, rfl⟩ := Option.map_eq_some_iff.mp moved
      refine iff_of_true ?_ trivial
      show fired.2.2.Armed
      rw [armed.fire_armed fires]
      exact armed.clear fired.1
  | wait ms =>
      cases moved
      exact iff_of_true armed trivial

/-- In every history the registry is faithful at every point exactly when no handle is cleared
while its timer is still armed. -/
theorem timers_are_faithful_iff (now : Int) (calls : List TimerCall) :
    Transition.Throughout step Faithful (init now) calls ↔
      Transition.EachStep step Careful (init now) calls := by
  apply Transition.throughout_iff (I := Sound)
  case each =>
    intro s call t sound faithful moved
    have kept := sound.step moved
    refine ⟨kept, ?_⟩
    rw [kept.faithful_iff]
    exact sound.armed_step_iff (sound.faithful_iff.mp faithful) moved
  case base => exact sound_init now
  case holds => exact (sound_init now).faithful_iff.mpr .empty

/-- The run whose timer was cleared through its handle is still reported as scheduled. -/
theorem cleared_handle_stays_scheduled :
    ¬∀ (now : Int) (calls : List TimerCall),
      Transition.Throughout step Faithful (init now) calls := by
  intro always
  have run := always 0 [.schedule "run-1" 1000, .clearHandle 0]
  have faithful := (run.2 _ rfl).2 _ rfl
  obtain ⟨t, timer, found, _⟩ := (faithful.has_iff "run-1").mp (by decide)
  cases found

end TimerHistory

end Minerva
