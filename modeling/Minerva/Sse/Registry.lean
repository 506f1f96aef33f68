import Mathlib.Logic.Function.Basic
import Minerva.Sse.Fanout

/-! Calls on a `MemorySSEStreamController` in any order. A stream that stays registered gets every
broadcast of its run, unless the cleanup function of an older `Set` takes the `Set` of the run away. -/

namespace Minerva

class SSEStream (σ : Type) where
  isOpen : σ → Option Bool
  write : σ → SSEEventEnvelope → σ × Bool
  close : σ → σ × Bool

/-- Stream objects, each with a state of its own, and the events that each has received. -/
structure Streams (σ : Type) where
  state : StreamId → σ
  received : StreamId → List SSEEventEnvelope

namespace Streams

variable {σ : Type} [SSEStream σ]

def write (streams : Streams σ) (id : StreamId) (event : SSEEventEnvelope) : Streams σ × Bool :=
  let (state, returned) := SSEStream.write (streams.state id) event
  ({ state := Function.update streams.state id state
     received :=
       if returned then Function.update streams.received id (streams.received id ++ [event])
       else streams.received }, returned)

def close (streams : Streams σ) (id : StreamId) : Streams σ × Bool :=
  let (state, returned) := SSEStream.close (streams.state id)
  ({ streams with state := Function.update streams.state id state }, returned)

instance : SSEStreams (Streams σ) where
  isOpen streams id := SSEStream.isOpen (streams.state id)
  write := write
  close := close

end Streams

/-- A cleanup function that `register` has returned, and whether `closeRun` has been called for its
run since. -/
structure Registration where
  cleanup : Cleanup
  runClosed : Bool

namespace Registration

def Own (registration : Registration) (runId : RunId) (stream : StreamId) : Prop :=
  registration.cleanup.runId = runId ∧ registration.cleanup.stream = stream ∧
    registration.runClosed = false

/-- The cleanup function, if it is called now, empties its `Set` while the run has another one, which
goes with it. -/
def TakesNewSet (registration : Registration) (c : MemorySSEStreamController) : Prop :=
  (∃ set ∈ c.streams.get registration.cleanup.runId, set ≠ registration.cleanup.runStreams) ∧
    ∀ other ∈ c.members registration.cleanup.runStreams, other = registration.cleanup.stream

instance (registration : Registration) (runId : RunId) (stream : StreamId) :
    Decidable (registration.Own runId stream) :=
  inferInstanceAs (Decidable (_ ∧ _ ∧ _))

instance (registration : Registration) (c : MemorySSEStreamController) :
    Decidable (registration.TakesNewSet c) :=
  inferInstanceAs (Decidable ((∃ set ∈ c.streams.get registration.cleanup.runId, _) ∧ ∀ other ∈ _, _))

end Registration

/-- A controller with the streams of its callers and the cleanup functions that they hold. -/
structure Registry (σ : Type) where
  controller : MemorySSEStreamController
  streams : Streams σ
  registrations : List Registration

namespace Registry

inductive Label (σ : Type) where
  | register (runId : RunId) (stream : StreamId)
  | broadcast (runId : RunId) (event : SSEEventEnvelope)
  | closeRun (runId : RunId)
  | cleanup (index : Nat)
  /-- something happens to a stream: a client leaves, say -/
  | changed (stream : StreamId) (state : σ)

variable {σ : Type} [SSEStream σ]

def start (streams : Streams σ) : Registry σ := ⟨.empty, streams, []⟩

/-- The registrations after a `closeRun`. -/
def closed (runId : RunId) (registration : Registration) : Registration :=
  if registration.cleanup.runId = runId then { registration with runClosed := true } else registration

def step (w : Registry σ) : Label σ → Option (Registry σ)
  | .register runId stream =>
    let (controller, cleanup) := w.controller.register runId stream
    some { w with controller, registrations := w.registrations ++ [⟨cleanup, false⟩] }
  | .broadcast runId event =>
    let (controller, streams) := w.controller.broadcast w.streams runId event
    some { w with controller, streams }
  | .closeRun runId =>
    let (controller, streams) := w.controller.closeRun w.streams runId
    some { w with controller, streams, registrations := w.registrations.map (closed runId) }
  | .cleanup index =>
    w.registrations[index]?.map (fun registration =>
      let (controller, streams, _) := w.controller.cleanup w.streams registration.cleanup
      { w with controller, streams })
  | .changed stream state =>
    some { w with
      streams := { w.streams with state := Function.update w.streams.state stream state } }

def Takes (runId : RunId) (stream : StreamId) (w : Registry σ) : Label σ → Prop
  | .broadcast about event => SSEStream.isOpen (w.streams.state stream) = some true ∧
      (about = runId → (SSEStream.write (w.streams.state stream) event).2 = true)
  | _ => SSEStream.isOpen (w.streams.state stream) = some true

def Stays (runId : RunId) (stream : StreamId) (w : Registry σ) : Label σ → Prop
  | .closeRun about => about ≠ runId
  | .cleanup index => ∀ registration ∈ w.registrations[index]?, ¬registration.Own runId stream
  | _ => True

def SparesNewSet (runId : RunId) (w : Registry σ) : Label σ → Prop
  | .cleanup index => ∀ registration ∈ w.registrations[index]?,
      registration.cleanup.runId = runId → ¬registration.TakesNewSet w.controller
  | _ => True

end Registry

theorem Streams.apart {σ : Type} [SSEStream σ] (id : StreamId) :
    MemorySSEStreamController.Apart
      (fun streams : Streams σ => (streams.state id, streams.received id)) id := by
  constructor
  · intro streams other event different
    simp only [SSEStreams.write, write, Function.update_of_ne (Ne.symm different)]
    split
    · rw [Function.update_of_ne (Ne.symm different)]
    · rfl
  · intro streams other different
    simp only [SSEStreams.close, close, Function.update_of_ne (Ne.symm different)]

namespace Registry

open MemorySSEStreamController

variable {σ : Type} {w w' : Registry σ}

structure Sound (w : Registry σ) : Prop where
  separate : w.controller.Separate (fun _ _ => True)
  distinct : w.controller.Distinct
  held : ∀ registration ∈ w.registrations, w.controller.Holds registration.cleanup
  stale : ∀ registration ∈ w.registrations, registration.runClosed = true →
    w.controller.streams.get registration.cleanup.runId ≠ some registration.cleanup.runStreams

theorem start_sound (streams : Streams σ) : (start streams).Sound where
  separate := ⟨(fun _ _ found => by cases found), (fun _ _ _ found => by cases found),
    (fun _ _ found => by cases found)⟩
  distinct := fun _ => List.nodup_nil
  held := (fun _ member => by cases member)
  stale := (fun _ member => by cases member)

theorem Sound.remove (sound : w.Sound) (runId : RunId) (set : Nat) (gone : List StreamId)
    (streams : Streams σ) :
    Sound { w with controller := w.controller.remove runId set gone, streams } where
  separate := sound.separate.remove runId set gone
  distinct := sound.distinct.remove runId set gone
  held := fun registration member => (sound.held registration member).remove runId set gone
  stale := by
    intro registration member late
    simp only [streams_remove]
    split
    · exact nofun
    · exact sound.stale registration member late

theorem Sound.register (sound : w.Sound) (runId : RunId) (stream : StreamId) :
    Sound { w with
      controller := (w.controller.register runId stream).1
      registrations := w.registrations ++ [⟨(w.controller.register runId stream).2, false⟩] } := by
  constructor
  · exact sound.separate.register trivial
  · exact sound.distinct.register runId stream
  · intro registration member
    rcases List.mem_append.mp member with earlier | latest
    · exact (sound.held registration earlier).register runId stream
    · rw [List.mem_singleton.mp latest]
      exact register_holds sound.separate runId stream
  · intro registration member late
    rcases List.mem_append.mp member with earlier | latest
    · obtain ⟨set, -, streams, -, place⟩ := register_eq w.controller runId stream
      have older := (sound.held registration earlier).older
      simp only [streams]
      split
      · rename_i same
        rcases place with ⟨present, -⟩ | ⟨-, fresh, -⟩
        · rw [← present, ← same]
          exact sound.stale registration earlier late
        · intro shared
          cases shared
          omega
      · exact sound.stale registration earlier late
    · rw [List.mem_singleton.mp latest] at late
      cases late

variable [SSEStream σ]

theorem Sound.closeRun (sound : w.Sound) (runId : RunId) (streams : Streams σ) :
    Sound { w with
      controller := (w.controller.closeRun w.streams runId).1
      streams
      registrations := w.registrations.map (closed runId) } := by
  have cleanup (registration : Registration) :
      (closed runId registration).cleanup = registration.cleanup := by
    unfold closed
    split <;> rfl
  constructor
  · exact sound.separate.closeRun w.streams runId
  · exact sound.distinct.closeRun w.streams runId
  · intro registration member
    obtain ⟨earlier, there, rfl⟩ := List.mem_map.mp member
    rw [cleanup]
    exact (sound.held earlier there).closeRun w.streams runId
  · intro registration member late
    obtain ⟨earlier, there, rfl⟩ := List.mem_map.mp member
    simp only [cleanup, streams_closeRun]
    split
    · exact nofun
    · rename_i different
      apply sound.stale earlier there
      unfold closed at late
      rw [if_neg different] at late
      exact late

theorem step_sound {label : Label σ} (sound : w.Sound) (moved : w.step label = some w') :
    w'.Sound := by
  cases label with
  | register runId stream =>
      cases moved
      exact sound.register runId stream
  | broadcast runId event =>
      simp only [step, MemorySSEStreamController.broadcast, Option.some.injEq] at moved
      subst moved
      split
      · exact sound
      · exact sound.remove runId _ _ _
  | closeRun runId =>
      cases moved
      exact sound.closeRun runId _
  | cleanup index =>
      simp only [step, Option.map_eq_some_iff] at moved
      obtain ⟨registration, -, rfl⟩ := moved
      simp only [MemorySSEStreamController.cleanup]
      split <;> exact sound.remove _ _ _ _
  | changed stream state =>
      cases moved
      exact ⟨sound.separate, sound.distinct, sound.held, sound.stale⟩

variable {runId : RunId} {stream : StreamId}

/-- An open stream of a run gets what is broadcast for the run once, and is not marked. -/
theorem broadcast_connected (sound : w.Sound) (member : stream ∈ w.controller.connections runId)
    {event : SSEEventEnvelope} (isOpen : SSEStream.isOpen (w.streams.state stream) = some true)
    (takes : (SSEStream.write (w.streams.state stream) event).2 = true)
    (moved : w.step (.broadcast runId event) = some w') :
    stream ∈ w'.controller.connections runId ∧
      w'.streams.received stream = w.streams.received stream ++ [event] := by
  obtain ⟨own, found, inside⟩ := mem_connections_iff.mp member
  obtain ⟨stays, turn, before, after⟩ := broadcast_member (Streams.apart stream) event found
    (sound.distinct own) inside w.streams (by
      intro turn same
      obtain ⟨state, -⟩ := Prod.mk.inj same
      refine ⟨?_, ?_⟩
      · rw [← isOpen, ← state]
        rfl
      · rw [← takes, ← state]
        rfl)
  obtain ⟨state, received⟩ := Prod.mk.inj before
  cases moved
  refine ⟨stays, (Prod.mk.inj after).2.trans ?_⟩
  rw [← state] at takes
  rw [← received]
  simp only [SSEStreams.write, Streams.write, takes, if_true, Function.update_self]

theorem step_connected {label : Label σ} (sound : w.Sound)
    (member : stream ∈ w.controller.connections runId) (takes : w.Takes runId stream label)
    (stays : w.Stays runId stream label) (spares : w.SparesNewSet runId label)
    (moved : w.step label = some w') : stream ∈ w'.controller.connections runId := by
  cases label with
  | register other added =>
      cases moved
      exact connected_register sound.separate member other added
  | broadcast other event =>
      by_cases same : other = runId
      · subst same
        exact (broadcast_connected sound member takes.1 (takes.2 rfl) moved).1
      · cases moved
        exact connected_broadcast sound.separate member same w.streams event
  | closeRun other =>
      cases moved
      exact connected_closeRun member stays w.streams
  | cleanup index =>
      simp only [step, Option.map_eq_some_iff] at moved
      obtain ⟨registration, called, rfl⟩ := moved
      have there : registration ∈ w.registrations := List.mem_of_getElem? called
      have kept : stream ∈ (w.controller.remove registration.cleanup.runId
          registration.cleanup.runStreams [registration.cleanup.stream]).connections runId := by
        apply connected_remove member
        · intro present own
          have same := (sound.held registration there).own runId present
          refine stays registration called ⟨same.symm, (List.mem_singleton.mp own).symm, ?_⟩
          by_contra late
          rw [same] at present
          exact sound.stale registration there (by simpa using late) present
        · intro same
          by_contra lost
          obtain ⟨different, emptied⟩ := not_or.mp lost
          obtain ⟨own, found, -⟩ := mem_connections_iff.mp member
          apply spares registration called same
          refine ⟨⟨own, by rw [same]; exact found, ?_⟩, ?_⟩
          · rintro rfl
            exact different found
          · intro left inside
            by_contra remains
            exact emptied ⟨left, inside, by simpa using remains⟩
      simp only [MemorySSEStreamController.cleanup]
      split <;> exact kept
  | changed other state =>
      cases moved
      exact member

/-- From its registration on, as long as the run is not closed, the stream's cleanup functions are not
called, it is open and takes what it is given, and no older `Set` of the run is emptied by a cleanup
function, a stream is counted and gets each broadcast of the run once. -/
theorem registered_stream_is_served (streams : Streams σ) (w₀ w₁ w₂ : Registry σ)
    (reached : Transition.Reach step Transition.Free (start streams) w₀) (runId : RunId)
    (stream : StreamId) (registered : w₀.step (.register runId stream) = some w₁)
    (kept : Transition.Reach step (fun w label => w.Takes runId stream label ∧
      w.Stays runId stream label ∧ w.SparesNewSet runId label) w₁ w₂) :
    (w₂.controller.connections runId).count stream = 1 ∧
      ∀ event w₃, w₂.Takes runId stream (.broadcast runId event) →
        w₂.step (.broadcast runId event) = some w₃ →
          w₃.streams.received stream = w₂.streams.received stream ++ [event] := by
  have sound₀ : w₀.Sound := reached.invariant Sound (start_sound streams)
    (fun _ _ _ _ sound moved => step_sound sound moved)
  have served : w₂.Sound ∧ stream ∈ w₂.controller.connections runId := by
    apply kept.invariant (fun w => w.Sound ∧ stream ∈ w.controller.connections runId)
    · refine ⟨step_sound sound₀ registered, ?_⟩
      cases registered
      exact register_connected w₀.controller runId stream
    · rintro w label w' ⟨takes, stays, spares⟩ ⟨sound, member⟩ moved
      exact ⟨step_sound sound moved, step_connected sound member takes stays spares moved⟩
  obtain ⟨sound, member⟩ := served
  refine ⟨List.count_eq_one_of_mem (sound.distinct.connections runId) member, ?_⟩
  intro event w₃ takes moved
  exact (broadcast_connected sound member takes.1 (takes.2 rfl) moved).2

instance (runId : RunId) (stream : StreamId) (w : Registry σ) :
    ∀ label, Decidable (Takes runId stream w label)
  | .broadcast about event => inferInstanceAs (Decidable
      (SSEStream.isOpen (w.streams.state stream) = some true ∧
        (about = runId → (SSEStream.write (w.streams.state stream) event).2 = true)))
  | .register _ _ | .closeRun _ | .cleanup _ | .changed _ _ =>
      inferInstanceAs (Decidable (SSEStream.isOpen (w.streams.state stream) = some true))

instance (runId : RunId) (stream : StreamId) (w : Registry σ) :
    ∀ label, Decidable (Stays runId stream w label)
  | .closeRun about => inferInstanceAs (Decidable (about ≠ runId))
  | .cleanup index => inferInstanceAs (Decidable
      (∀ registration ∈ w.registrations[index]?, ¬registration.Own runId stream))
  | .register _ _ | .broadcast _ _ | .changed _ _ => instDecidableTrue

instance (runId : RunId) (w : Registry σ) : ∀ label, Decidable (SparesNewSet runId w label)
  | .cleanup index => inferInstanceAs (Decidable (∀ registration ∈ w.registrations[index]?,
      registration.cleanup.runId = runId → ¬registration.TakesNewSet w.controller))
  | .register _ _ | .broadcast _ _ | .closeRun _ | .changed _ _ => instDecidableTrue

end Registry

structure MockSSEStream where
  isOpen : Bool

instance : SSEStream MockSSEStream where
  isOpen stream := some stream.isOpen
  write stream _ := (stream, true)
  close _ := (⟨false⟩, true)

namespace Registry

def openStreams : Streams MockSSEStream := ⟨fun _ => ⟨true⟩, fun _ => []⟩

def startedEvent : SSEEventEnvelope := ⟨.runStarted, "run_0_a", 0, 2, .null⟩

def leavingLabels : List (Label MockSSEStream) :=
  [.broadcast "run_0_a" startedEvent, .cleanup 0, .cleanup 0, .register "run_0_b" 2]

theorem remaining_stream_is_served :
    ∃ w w' : Registry MockSSEStream, w.controller.getConnectionCount "run_0_a" = 1 ∧
      (w.controller.connections "run_0_a").count 1 = 1 ∧
      w'.streams.received 1 = w.streams.received 1 ++ [startedEvent] := by
  have ran : (Transition.exec (Transition.guarded step Transition.Free) (start openStreams)
      [.register "run_0_a" 0]).map (fun w₀ => (w₀.step (.register "run_0_a" 1)).map (fun w₁ =>
        (Transition.exec (Transition.guarded step (fun w label => w.Takes "run_0_a" 1 label ∧
          w.Stays "run_0_a" 1 label ∧ w.SparesNewSet "run_0_a" label)) w₁ leavingLabels).map
            (fun w₂ => (w₂.controller.getConnectionCount "run_0_a",
              decide (w₂.Takes "run_0_a" 1 (.broadcast "run_0_a" startedEvent)))))) =
      some (some (some (1, true))) := by decide +kernel
  obtain ⟨w₀, reached, registers⟩ := Transition.reach_of_observed _ _ ran
  obtain ⟨w₁, registered, goes⟩ := Option.map_eq_some_iff.mp registers
  obtain ⟨w₂, kept, observed⟩ := Transition.reach_of_observed _ _ goes
  obtain ⟨count, takes⟩ := Prod.mk.inj observed
  obtain ⟨counted, served⟩ := registered_stream_is_served openStreams w₀ w₁ w₂ reached "run_0_a" 1
    registered kept
  exact ⟨w₂, _, count, counted, served startedEvent _ (of_decide_eq_true takes) rfl⟩

/-- The cleanup function of a stream that `closeRun` has closed takes away the next stream. -/
theorem stale_cleanup_drops_a_stream :
    ¬∀ (w₀ w₁ w₂ : Registry MockSSEStream),
      Transition.Reach step Transition.Free (start openStreams) w₀ → ∀ runId stream,
        w₀.step (.register runId stream) = some w₁ →
          Transition.Reach step (fun w label => w.Takes runId stream label ∧
            w.Stays runId stream label) w₁ w₂ →
          (w₂.controller.connections runId).count stream = 1 ∧
            ∀ event w₃, w₂.Takes runId stream (.broadcast runId event) →
              w₂.step (.broadcast runId event) = some w₃ →
                w₃.streams.received stream = w₂.streams.received stream ++ [event] := by
  intro always
  have ran : (Transition.exec (Transition.guarded step Transition.Free) (start openStreams)
      [.register "run_0_a" 0, .closeRun "run_0_a"]).map (fun w₀ =>
        (w₀.step (.register "run_0_a" 1)).map (fun w₁ =>
          (Transition.exec (Transition.guarded step (fun w label => w.Takes "run_0_a" 1 label ∧
            w.Stays "run_0_a" 1 label)) w₁ [.cleanup 0]).map
              (fun w₂ => (w₂.controller.connections "run_0_a").count 1))) = some (some (some 0)) := by
    decide +kernel
  obtain ⟨w₀, reached, registers⟩ := Transition.reach_of_observed _ _ ran
  obtain ⟨w₁, registered, goes⟩ := Option.map_eq_some_iff.mp registers
  obtain ⟨w₂, kept, lost⟩ := Transition.reach_of_observed _ _ goes
  have counted := (always w₀ w₁ w₂ reached "run_0_a" 1 registered kept).1
  rw [lost] at counted
  exact absurd counted (by decide)

end Registry

end Minerva
