import Minerva.Sse.Isolation

namespace Minerva

namespace MemorySSEStreamController

variable {c : MemorySSEStreamController} {runId other : RunId} {stream : StreamId}

theorem mem_connections_iff : stream ∈ c.connections runId ↔
    ∃ set, c.streams.get runId = some set ∧ stream ∈ c.members set := by
  unfold connections
  cases c.streams.get runId <;> simp

theorem members_set (c : MemorySSEStreamController) (set set' : Nat) (members : List StreamId) :
    ({ c with sets := c.sets.set set members } : MemorySSEStreamController).members set' =
      if set' = set then members else c.members set' := by
  simp only [MemorySSEStreamController.members, EsMap.get_set]
  split <;> rfl

theorem members_remove (c : MemorySSEStreamController) (runId : RunId) (set set' : Nat)
    (gone : List StreamId) : (c.remove runId set gone).members set' =
      if set' = set then (c.members set).filter (fun stream => stream ∉ gone)
      else c.members set' := by
  have after := members_set c set set' ((c.members set).filter (fun stream => stream ∉ gone))
  unfold remove
  simp only
  split
  · exact after
  · exact after

theorem streams_remove (c : MemorySSEStreamController) (runId other : RunId) (set : Nat)
    (gone : List StreamId) : (c.remove runId set gone).streams.get other =
      if other = runId ∧ (∀ stream ∈ c.members set, stream ∈ gone) then none
      else c.streams.get other := by
  have emptied : (c.members set).filter (fun stream => stream ∉ gone) = [] ↔
      ∀ stream ∈ c.members set, stream ∈ gone := by
    simp [List.filter_eq_nil_iff]
  unfold remove
  simp only [emptied]
  split
  · rename_i none_left
    simp only [EsMap.get_delete]
    split <;> simp_all
  · rename_i some_left
    rw [if_neg (fun both => some_left both.2)]

@[simp] theorem nextSet_remove (c : MemorySSEStreamController) (runId : RunId) (set : Nat)
    (gone : List StreamId) : (c.remove runId set gone).nextSet = c.nextSet := by
  unfold remove
  simp only
  split <;> rfl

theorem connected_remove {set : Nat} {gone : List StreamId} (member : stream ∈ c.connections runId)
    (stays : c.streams.get runId = some set → stream ∉ gone)
    (spares : other = runId → c.streams.get runId = some set ∨ ∃ left ∈ c.members set, left ∉ gone) :
    stream ∈ (c.remove other set gone).connections runId := by
  obtain ⟨own, found, inside⟩ := mem_connections_iff.mp member
  refine mem_connections_iff.mpr ⟨own, ?_, ?_⟩
  · rw [streams_remove, if_neg ?_]
    · exact found
    · rintro ⟨same, emptied⟩
      rcases spares same.symm with present | ⟨left, there, remains⟩
      · rw [found] at present
        cases present
        exact stays found (emptied stream inside)
      · exact remains (emptied left there)
  · rw [members_remove]
    split
    · rename_i same
      subst same
      exact List.mem_filter.mpr ⟨inside, by simpa using stays found⟩
    · exact inside

theorem setFor_cases (c : MemorySSEStreamController) (runId : RunId) :
    (∃ set, c.streams.get runId = some set ∧ c.setFor runId = (c, set)) ∨
      c.streams.get runId = none ∧ c.setFor runId =
        (⟨c.streams.set runId c.nextSet, c.sets.set c.nextSet [], c.nextSet + 1⟩, c.nextSet) := by
  unfold setFor
  cases found : c.streams.get runId with
  | none => exact .inr ⟨rfl, rfl⟩
  | some set => exact .inl ⟨set, rfl, rfl⟩

theorem mem_add_self (members : List StreamId) (stream : StreamId) : stream ∈ add members stream := by
  unfold add
  split
  · assumption
  · simp

theorem mem_add_of_mem {members : List StreamId} (member : stream ∈ members) (added : StreamId) :
    stream ∈ add members added := by
  unfold add
  split
  · exact member
  · exact List.mem_append_left _ member

theorem add_nodup {members : List StreamId} (nodup : members.Nodup) (added : StreamId) :
    (add members added).Nodup := by
  unfold add
  split
  · exact nodup
  · rename_i absent
    exact List.nodup_append.mpr ⟨nodup, List.nodup_singleton _, by
      intro a member b same
      rw [List.mem_singleton.mp same]
      rintro rfl
      exact absent member⟩

theorem register_eq (c : MemorySSEStreamController) (runId : RunId) (stream : StreamId) :
    ∃ set, (c.register runId stream).2 = ⟨runId, set, stream⟩ ∧
      (∀ other, (c.register runId stream).1.streams.get other =
        if other = runId then some set else c.streams.get other) ∧
      (∀ set', (c.register runId stream).1.members set' =
        if set' = set then add ((if c.streams.get runId = some set then c.members set else []))
          stream else c.members set') ∧
      (c.streams.get runId = some set ∧ (c.register runId stream).1.nextSet = c.nextSet ∨
        c.streams.get runId = none ∧ set = c.nextSet ∧
          (c.register runId stream).1.nextSet = c.nextSet + 1) := by
  rcases setFor_cases c runId with ⟨set, found, same⟩ | ⟨missing, fresh⟩
  · simp only [register, same]
    refine ⟨set, rfl, ?_, ?_, .inl ⟨found, trivial⟩⟩
    · intro other
      split
      · rename_i same
        rw [same]
        exact found
      · rfl
    · intro set'
      rw [if_pos found]
      exact members_set c set set' _
  · simp only [register, fresh]
    refine ⟨c.nextSet, rfl, ?_, ?_, .inr ⟨missing, rfl, trivial⟩⟩
    · intro other
      exact EsMap.get_set c.streams runId other c.nextSet
    · intro set'
      simp only [MemorySSEStreamController.members, EsMap.get_set, missing, reduceCtorEq, if_false]
      split <;> simp_all

theorem register_connected (c : MemorySSEStreamController) (runId : RunId) (stream : StreamId) :
    stream ∈ (c.register runId stream).1.connections runId := by
  obtain ⟨set, -, streams, members, -⟩ := register_eq c runId stream
  refine mem_connections_iff.mpr ⟨set, ?_, ?_⟩
  · rw [streams, if_pos rfl]
  · rw [members, if_pos rfl]
    exact mem_add_self _ _

theorem connected_register {mine : RunId → StreamId → Prop} (separate : c.Separate mine)
    (member : stream ∈ c.connections runId) (other : RunId) (added : StreamId) :
    stream ∈ (c.register other added).1.connections runId := by
  obtain ⟨own, found, inside⟩ := mem_connections_iff.mp member
  obtain ⟨set, -, streams, members, place⟩ := register_eq c other added
  have below : own < c.nextSet := separate.fresh runId own found
  refine mem_connections_iff.mpr ⟨own, ?_, ?_⟩
  · rw [streams]
    split
    · rename_i same
      subst same
      rcases place with ⟨present, -⟩ | ⟨missing, -, -⟩
      · rw [← found, present]
      · rw [found] at missing
        cases missing
    · exact found
  · rw [members]
    split
    · rename_i same
      subst same
      rcases place with ⟨present, -⟩ | ⟨-, fresh, -⟩
      · rw [if_pos present]
        exact mem_add_of_mem inside added
      · omega
    · exact inside

def Distinct (c : MemorySSEStreamController) : Prop := ∀ set, (c.members set).Nodup

theorem Distinct.connections (distinct : c.Distinct) (runId : RunId) :
    (c.connections runId).Nodup := by
  unfold MemorySSEStreamController.connections
  cases c.streams.get runId with
  | none => exact List.nodup_nil
  | some set => exact distinct set

theorem Distinct.remove (distinct : c.Distinct) (runId : RunId) (set : Nat)
    (gone : List StreamId) : (c.remove runId set gone).Distinct := by
  intro set'
  rw [members_remove]
  split
  · exact (distinct set).filter _
  · exact distinct set'

theorem Distinct.register (distinct : c.Distinct) (runId : RunId) (stream : StreamId) :
    (c.register runId stream).1.Distinct := by
  obtain ⟨set, -, -, members, -⟩ := register_eq c runId stream
  intro set'
  rw [members]
  split
  · apply add_nodup
    split
    · exact distinct set
    · exact List.nodup_nil
  · exact distinct set'

/-- A cleanup function holds the `Set` of its run, or one that no run has any more. -/
structure Holds (c : MemorySSEStreamController) (k : Cleanup) : Prop where
  older : k.runStreams < c.nextSet
  own : ∀ runId, c.streams.get runId = some k.runStreams → runId = k.runId

theorem Holds.remove {k : Cleanup} (holds : c.Holds k) (runId : RunId) (set : Nat)
    (gone : List StreamId) : (c.remove runId set gone).Holds k := by
  refine ⟨by simpa using holds.older, ?_⟩
  intro other found
  rw [streams_remove] at found
  split at found
  · cases found
  · exact holds.own other found

theorem Holds.register {k : Cleanup} (holds : c.Holds k) (runId : RunId) (stream : StreamId) :
    (c.register runId stream).1.Holds k := by
  obtain ⟨set, -, streams, -, place⟩ := register_eq c runId stream
  have older := holds.older
  constructor
  · rcases place with ⟨-, same⟩ | ⟨-, -, next⟩ <;> omega
  · intro other found
    rw [streams] at found
    split at found
    · rename_i same
      cases found
      rcases place with ⟨present, -⟩ | ⟨-, fresh, -⟩
      · rw [same]
        exact holds.own runId present
      · omega
    · exact holds.own other found

theorem register_holds {mine : RunId → StreamId → Prop} (separate : c.Separate mine) (runId : RunId)
    (stream : StreamId) : (c.register runId stream).1.Holds (c.register runId stream).2 := by
  obtain ⟨set, cleanup, streams, -, place⟩ := register_eq c runId stream
  rw [cleanup]
  constructor
  · rcases place with ⟨present, same⟩ | ⟨-, fresh, next⟩
    · rw [same]
      exact separate.fresh runId set present
    · rw [next, fresh]
      exact Nat.lt_succ_self _
  · intro other found
    rw [streams] at found
    split at found
    · assumption
    · rcases place with ⟨present, -⟩ | ⟨-, fresh, -⟩
      · exact separate.injective other runId set found present
      · rw [fresh] at found
        exact absurd (separate.fresh other _ found) (Nat.lt_irrefl _)

section Host

variable {ω α : Type} [SSEStreams ω] {view : ω → α} {id : StreamId} {event : SSEEventEnvelope}

/-- What is done to other streams does not show in a view of the host. -/
structure Apart (view : ω → α) (id : StreamId) : Prop where
  write : ∀ host other event, other ≠ id → view (SSEStreams.write host other event).1 = view host
  close : ∀ host other, other ≠ id → view (SSEStreams.close host other).1 = view host

theorem deliver_other (apart : Apart view id) (event : SSEEventEnvelope) {other : StreamId}
    (different : other ≠ id) (state : ω × List StreamId) :
    view (deliver event state other).1 = view state.1 ∧
      (id ∈ (deliver event state other).2 ↔ id ∈ state.2) := by
  obtain ⟨host, deadStreams⟩ := state
  unfold deliver
  simp only
  split
  · have kept := apart.write host other event different
    split
    · exact ⟨kept, Iff.rfl⟩
    · exact ⟨kept, by simp [Ne.symm different]⟩
  · simp [Ne.symm different]

theorem deliver_others (apart : Apart view id) (event : SSEEventEnvelope)
    (members : List StreamId) (absent : id ∉ members) (state : ω × List StreamId) :
    view (members.foldl (deliver event) state).1 = view state.1 ∧
      (id ∈ (members.foldl (deliver event) state).2 ↔ id ∈ state.2) := by
  induction members generalizing state with
  | nil => exact ⟨rfl, Iff.rfl⟩
  | cons other rest ih =>
      obtain ⟨different, elsewhere⟩ := not_or.mp (fun member => absent (List.mem_cons.mpr member))
      obtain ⟨view', dead'⟩ := deliver_other apart event (Ne.symm different) state
      obtain ⟨view'', dead''⟩ := ih elsewhere (deliver event state other)
      exact ⟨view''.trans view', dead''.trans dead'⟩

theorem deliver_member (apart : Apart view id) (event : SSEEventEnvelope)
    (members : List StreamId) (nodup : members.Nodup) (member : id ∈ members)
    (state : ω × List StreamId) :
    ∃ turn : ω × List StreamId, view turn.1 = view state.1 ∧ (id ∈ turn.2 ↔ id ∈ state.2) ∧
      view (members.foldl (deliver event) state).1 = view (deliver event turn id).1 ∧
      (id ∈ (members.foldl (deliver event) state).2 ↔ id ∈ (deliver event turn id).2) := by
  induction members generalizing state with
  | nil => cases member
  | cons other rest ih =>
      obtain ⟨absent, nodup'⟩ := List.nodup_cons.mp nodup
      by_cases same : other = id
      · subst same
        obtain ⟨view', dead'⟩ := deliver_others apart event rest absent
          (deliver event state other)
        exact ⟨state, rfl, Iff.rfl, view', dead'⟩
      · obtain ⟨view', dead'⟩ := deliver_other apart event same state
        obtain ⟨turn, before, unmarked, after, marked⟩ := ih nodup'
          ((List.mem_cons.mp member).resolve_left (Ne.symm same)) (deliver event state other)
        exact ⟨turn, before.trans view', unmarked.trans dead', after, marked⟩

theorem closeQuietly_others (apart : Apart view id) (gone : List StreamId) (absent : id ∉ gone)
    (host : ω) : view (gone.foldl closeQuietly host) = view host := by
  induction gone generalizing host with
  | nil => rfl
  | cons other rest ih =>
      obtain ⟨different, elsewhere⟩ := not_or.mp (fun member => absent (List.mem_cons.mpr member))
      exact (ih elsewhere _).trans (apart.close host other (Ne.symm different))

theorem broadcast_member (apart : Apart view id) (event : SSEEventEnvelope) {set : Nat}
    (found : c.streams.get runId = some set) (nodup : (c.members set).Nodup)
    (inside : id ∈ c.members set) (host : ω)
    (takes : ∀ turn : ω, view turn = view host → SSEStreams.isOpen turn id = some true ∧
      (SSEStreams.write turn id event).2 = true) :
    id ∈ (c.broadcast host runId event).1.connections runId ∧
      ∃ turn : ω, view turn = view host ∧
        view (c.broadcast host runId event).2 = view (SSEStreams.write turn id event).1 := by
  obtain ⟨⟨turn, deadStreams⟩, before, unmarked, after, marked⟩ :=
    deliver_member apart event (c.members set) nodup inside (host, [])
  obtain ⟨isOpen, returned⟩ := takes turn before
  have taken : deliver event (turn, deadStreams) id =
      ((SSEStreams.write turn id event).1, deadStreams) := by
    simp only [deliver, isOpen, returned, if_true]
  rw [taken] at after marked
  have spared : id ∉ ((c.members set).foldl (deliver event) (host, [])).2 := by
    rw [marked, unmarked]
    exact List.not_mem_nil
  simp only [broadcast, found]
  constructor
  · apply connected_remove (mem_connections_iff.mpr ⟨set, found, inside⟩)
    · intro _
      exact spared
    · intro _
      exact .inl found
  · exact ⟨turn, before, (closeQuietly_others apart _ spared _).trans after⟩

theorem broadcast_others (apart : Apart view id) (absent : id ∉ c.connections runId) (host : ω) :
    view (c.broadcast host runId event).2 = view host := by
  unfold broadcast
  split
  · rfl
  · rename_i set found
    have elsewhere : id ∉ c.members set := fun inside =>
      absent (mem_connections_iff.mpr ⟨set, found, inside⟩)
    obtain ⟨view', dead'⟩ := deliver_others apart event _ elsewhere (host, [])
    have unmarked : id ∉ ((c.members set).foldl (deliver event) (host, [])).2 := by
      rw [dead']
      exact List.not_mem_nil
    exact (closeQuietly_others apart _ unmarked _).trans view'

theorem closeRun_others (apart : Apart view id) (absent : id ∉ c.connections runId) (host : ω) :
    view (c.closeRun host runId).2 = view host := by
  unfold closeRun
  split
  · rfl
  · rename_i set found
    apply closeQuietly_others apart
    intro inside
    exact absent (mem_connections_iff.mpr ⟨set, found, inside⟩)

theorem connected_broadcast {mine : RunId → StreamId → Prop} (separate : c.Separate mine)
    (member : stream ∈ c.connections runId) (different : other ≠ runId) (host : ω)
    (event : SSEEventEnvelope) :
    stream ∈ (c.broadcast host other event).1.connections runId := by
  unfold broadcast
  split
  · exact member
  · rename_i set found
    apply connected_remove member
    · intro shared
      exact absurd (separate.injective other runId set found shared) different
    · intro same
      exact absurd same different

theorem closeQuietly_keeps (I : ω → Prop) (close : ∀ host id, I host → I (SSEStreams.close host id).1)
    (gone : List StreamId) (host : ω) (holds : I host) : I (gone.foldl closeQuietly host) := by
  induction gone generalizing host with
  | nil => exact holds
  | cons id rest ih => exact ih _ (close host id holds)

theorem broadcast_keeps (I : ω → Prop)
    (write : ∀ host id event, I host → I (SSEStreams.write host id event).1)
    (close : ∀ host id, I host → I (SSEStreams.close host id).1) (c : MemorySSEStreamController)
    (host : ω) (runId : RunId) (event : SSEEventEnvelope) (holds : I host) :
    I (c.broadcast host runId event).2 := by
  have delivers (members : List StreamId) (state : ω × List StreamId) (holds : I state.1) :
      I (members.foldl (deliver event) state).1 := by
    induction members generalizing state with
    | nil => exact holds
    | cons id rest ih =>
        apply ih
        unfold deliver
        simp only
        split
        · split
          · exact write state.1 id event holds
          · exact write state.1 id event holds
        · exact holds
  unfold broadcast
  split
  · exact holds
  · exact closeQuietly_keeps I close _ _ (delivers _ _ holds)

theorem closeRun_keeps (I : ω → Prop) (close : ∀ host id, I host → I (SSEStreams.close host id).1)
    (c : MemorySSEStreamController) (host : ω) (runId : RunId) (holds : I host) :
    I (c.closeRun host runId).2 := by
  unfold closeRun
  split
  · exact holds
  · exact closeQuietly_keeps I close _ _ holds

theorem cleanup_controller (c : MemorySSEStreamController) (host : ω) (k : Cleanup) :
    (c.cleanup host k).1 = c.remove k.runId k.runStreams [k.stream] := by
  unfold cleanup
  split <;> rfl

theorem streams_closeRun (c : MemorySSEStreamController) (host : ω) (runId other : RunId) :
    (c.closeRun host runId).1.streams.get other =
      if other = runId then none else c.streams.get other := by
  unfold closeRun
  split
  · rename_i missing
    split
    · rename_i same
      rw [same]
      exact missing
    · rfl
  · exact EsMap.get_delete _ _ _

@[simp] theorem members_closeRun (c : MemorySSEStreamController) (host : ω) (runId : RunId)
    (set : Nat) : (c.closeRun host runId).1.members set = c.members set := by
  unfold closeRun
  split <;> rfl

theorem Distinct.broadcast (distinct : c.Distinct) (host : ω) (runId : RunId)
    (event : SSEEventEnvelope) : (c.broadcast host runId event).1.Distinct := by
  unfold MemorySSEStreamController.broadcast
  split
  · exact distinct
  · exact distinct.remove _ _ _

theorem Distinct.closeRun (distinct : c.Distinct) (host : ω) (runId : RunId) :
    (c.closeRun host runId).1.Distinct := by
  intro set
  rw [members_closeRun]
  exact distinct set

theorem Holds.broadcast {k : Cleanup} (holds : c.Holds k) (host : ω) (runId : RunId)
    (event : SSEEventEnvelope) : (c.broadcast host runId event).1.Holds k := by
  unfold MemorySSEStreamController.broadcast
  split
  · exact holds
  · exact holds.remove _ _ _

theorem Holds.closeRun {k : Cleanup} (holds : c.Holds k) (host : ω) (runId : RunId) :
    (c.closeRun host runId).1.Holds k := by
  have next : (c.closeRun host runId).1.nextSet = c.nextSet := by
    unfold MemorySSEStreamController.closeRun
    split <;> rfl
  refine ⟨next ▸ holds.older, ?_⟩
  intro other found
  rw [streams_closeRun] at found
  split at found
  · cases found
  · exact holds.own other found

theorem connected_closeRun (member : stream ∈ c.connections runId) (different : other ≠ runId)
    (host : ω) : stream ∈ (c.closeRun host other).1.connections runId := by
  obtain ⟨own, found, inside⟩ := mem_connections_iff.mp member
  refine mem_connections_iff.mpr ⟨own, ?_, ?_⟩
  · rw [streams_closeRun, if_neg (Ne.symm different)]
    exact found
  · rw [members_closeRun]
    exact inside

end Host

end MemorySSEStreamController

end Minerva
