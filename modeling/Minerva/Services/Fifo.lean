import Minerva.Services.Operations

namespace Minerva

namespace Entry

def created (userId : UserId) (entry : Entry) : Option RunId :=
  match entry.operation.action, entry.outcome with
  | .call (.createRun _ _), .ok (some run) => if run.userId = userId then some run.id else none
  | _, _ => none

def returned (userId : UserId) (entry : Entry) : Option RunId :=
  match entry.operation.action, entry.outcome with
  | .call (.acquireNextRun user), .ok (some run) => if user = userId then some run.id else none
  | _, _ => none

/-- The operation is a `cancelRun` that found its run queued and has cancelled it. -/
def Withdraws (runId : RunId) (entry : Entry) : Prop :=
  (∃ reason, entry.operation.action = .call (.cancelRun runId reason)) ∧
    (∃ run, entry.outcome = .ok (some run)) ∧
    entry.before.stateOf runId = some .queued ∧ entry.after.stateOf runId = some .cancelled

end Entry

namespace Session

def created (s : Session) (userId : UserId) : List RunId :=
  s.history.filterMap (Entry.created userId)

def returned (s : Session) (userId : UserId) : List RunId :=
  s.history.filterMap (Entry.returned userId)

def Withdrawn (s : Session) (runId : RunId) : Prop := ∃ entry ∈ s.history, entry.Withdraws runId

end Session

/-- Runs that arrive, wait in line and are served: who has been served, followed by who waits, is
in order of arrival, and nobody gets lost. -/
structure Lane (arrived served waiting : List RunId) (gone : RunId → Prop) : Prop where
  order : (served ++ waiting).Sublist arrived
  distinct : arrived.Nodup
  accounted : ∀ runId ∈ arrived, runId ∈ served ∨ runId ∈ waiting ∨ gone runId

namespace Lane

variable {arrived served waiting : List RunId} {gone gone' : RunId → Prop} {runId : RunId}

theorem empty (gone : RunId → Prop) : Lane [] [] [] gone := by
  constructor
  · exact List.Sublist.refl []
  · exact List.nodup_nil
  · intro runId member
    cases member

theorem arrive (lane : Lane arrived served waiting gone) (fresh : runId ∉ arrived) :
    Lane (arrived ++ [runId]) served (waiting ++ [runId]) gone := by
  constructor
  · rw [← List.append_assoc]
    exact lane.order.append (List.Sublist.refl [runId])
  · refine lane.distinct.append (List.nodup_singleton runId) ?_
    intro other earlier latest
    cases List.mem_singleton.mp latest
    exact fresh earlier
  · intro other member
    rcases List.mem_append.mp member with earlier | latest
    · rcases lane.accounted other earlier with before | waits | left
      · exact .inl before
      · exact .inr (.inl (List.mem_append_left _ waits))
      · exact .inr (.inr left)
    · exact .inr (.inl (List.mem_append_right _ latest))

theorem serve (lane : Lane arrived served (runId :: waiting) gone) :
    Lane arrived (served ++ [runId]) waiting gone := by
  constructor
  · simpa using lane.order
  · exact lane.distinct
  · intro other member
    rcases lane.accounted other member with before | waits | left
    · exact .inl (List.mem_append_left _ before)
    · rcases List.mem_cons.mp waits with rfl | behind
      · exact .inl (by simp)
      · exact .inr (.inl behind)
    · exact .inr (.inr left)

theorem leave (lane : Lane arrived served waiting gone) (rest : List RunId)
    (less : rest.Sublist waiting)
    (kept : ∀ other ∈ waiting, other ∈ rest ∨ gone' other) (more : ∀ other, gone other → gone' other) :
    Lane arrived served rest gone' := by
  constructor
  · exact ((List.Sublist.refl served).append less).trans lane.order
  · exact lane.distinct
  · intro other member
    rcases lane.accounted other member with before | waits | left
    · exact .inl before
    · exact .inr (kept other waits)
    · exact .inr (.inr (more other left))

/-- Whoever arrived before the head of the line has been served or is gone. -/
theorem before_head (lane : Lane arrived served (runId :: waiting) gone) :
    ∃ before after, arrived = before ++ runId :: after ∧
      ∀ other ∈ before, other ∈ served ∨ gone other := by
  have line : (runId :: waiting).Sublist arrived :=
    (List.sublist_append_right served _).trans lane.order
  obtain ⟨before, after, split⟩ := List.append_of_mem (line.subset List.mem_cons_self)
  refine ⟨before, after, split, ?_⟩
  have distinct := lane.distinct
  rw [split, List.nodup_append] at distinct
  obtain ⟨-, -, apart⟩ := distinct
  -- the head is not among those before it, so all who wait arrived after it
  have behind : (runId :: waiting).Sublist (runId :: after) := by
    rw [split] at line
    obtain ⟨front, back, joined, left, right⟩ := List.sublist_append_iff.mp line
    cases front with
    | nil => rwa [joined]
    | cons first rest =>
        simp only [List.cons_append, List.cons.injEq] at joined
        have early : runId ∈ before := left.subset (by simp [joined.1])
        exact absurd rfl (apart runId early runId List.mem_cons_self)
  intro other member
  rcases lane.accounted other (by rw [split]; exact List.mem_append_left _ member) with
    served | waits | left
  · exact .inl served
  · exact absurd rfl (apart other member other (behind.subset waits))
  · exact .inr left

end Lane

structure InOrder (userId : UserId) (s : Session) : Prop where
  lane : Lane (s.created userId) (s.returned userId) (s.manager.queue.getUserRuns userId) s.Withdrawn
  stored : ∀ runId ∈ s.created userId, ∃ run, s.manager.getRun runId = some run
  named : ∀ runId run, s.manager.getRun runId = some run → run.id = runId
  turns : ∀ earlier entry later runId, s.history = earlier ++ entry :: later →
    entry.returned userId = some runId →
    ∃ before after, earlier.filterMap (Entry.created userId) = before ++ runId :: after ∧
      ∀ other ∈ before, other ∈ earlier.filterMap (Entry.returned userId) ∨
        ∃ entry ∈ earlier, entry.Withdraws other

namespace InOrder

variable {userId : UserId} {s t : Session} {entry : Entry}

theorem init (config : RunManagerConfig) (now : Int) (userId : UserId) :
    InOrder userId (.init config now) := by
  constructor
  · exact Lane.empty _
  · intro runId member
    cases member
  · intro runId run found
    cases found
  · intro earlier entry later runId split
    simp [Session.init] at split

theorem created_next (next : t.history = s.history ++ [entry]) (userId : UserId) :
    t.created userId = s.created userId ++ (entry.created userId).toList := by
  simp only [Session.created, next, List.filterMap_append]
  cases created : entry.created userId <;> simp [created]

theorem returned_next (next : t.history = s.history ++ [entry]) (userId : UserId) :
    t.returned userId = s.returned userId ++ (entry.returned userId).toList := by
  simp only [Session.returned, next, List.filterMap_append]
  cases returned : entry.returned userId <;> simp [returned]

theorem withdrawn_next (next : t.history = s.history ++ [entry]) {runId : RunId}
    (withdrawn : s.Withdrawn runId) : t.Withdrawn runId := by
  obtain ⟨earlier, member, withdraws⟩ := withdrawn
  exact ⟨earlier, by rw [next]; exact List.mem_append_left _ member, withdraws⟩

theorem turns_next (ok : InOrder userId s) (next : t.history = s.history ++ [entry])
    (front : ∀ runId, entry.returned userId = some runId →
      (s.manager.queue.getUserRuns userId).head? = some runId) :
    ∀ earlier entry later runId, t.history = earlier ++ entry :: later →
      entry.returned userId = some runId →
      ∃ before after, earlier.filterMap (Entry.created userId) = before ++ runId :: after ∧
        ∀ other ∈ before, other ∈ earlier.filterMap (Entry.returned userId) ∨
          ∃ entry ∈ earlier, entry.Withdraws other := by
  intro earlier entry' later runId split returned
  rw [next] at split
  rcases List.eq_nil_or_concat later with rfl | ⟨rest, last, rfl⟩
  · obtain ⟨rfl, same⟩ := List.append_inj' split rfl
    cases same
    have head := front runId returned
    have lane := ok.lane
    cases line : s.manager.queue.getUserRuns userId with
    | nil =>
        rw [line] at head
        cases head
    | cons first waiting =>
        rw [line] at head lane
        cases head
        exact lane.before_head
  · have joined : s.history ++ [entry] = (earlier ++ entry' :: rest) ++ [last] := by
      rw [split]
      simp
    obtain ⟨same, -⟩ := List.append_inj' joined rfl
    exact ok.turns earlier entry' rest runId same returned

theorem shortened (ok : InOrder userId s) (next : t.history = s.history ++ [entry])
    {queue : InMemoryRunQueue} (frame : RunManager.Frame { s.manager with queue } t.manager)
    (kept : (queue.getUserRuns userId).Sublist (s.manager.queue.getUserRuns userId))
    (leaves : ∀ runId ∈ s.manager.queue.getUserRuns userId,
      runId ∈ queue.getUserRuns userId ∨ t.Withdrawn runId)
    (creates : entry.created userId = none) (returns : entry.returned userId = none) :
    InOrder userId t := by
  have created := created_next next userId
  have returned := returned_next next userId
  rw [creates, Option.toList_none, List.append_nil] at created
  rw [returns, Option.toList_none, List.append_nil] at returned
  constructor
  · rw [created, returned, frame.queue]
    exact ok.lane.leave _ kept leaves (fun _ => withdrawn_next next)
  · intro runId member
    rw [created] at member
    obtain ⟨run, found⟩ := ok.stored runId member
    exact frame.after found
  · intro runId run' found
    obtain ⟨run, stored, same, -⟩ := frame.before found
    rw [same]
    exact ok.named runId run stored
  · apply ok.turns_next next
    intro runId returned
    rw [returns] at returned
    cases returned

theorem framed (ok : InOrder userId s) (next : t.history = s.history ++ [entry])
    (frame : RunManager.Frame s.manager t.manager) (creates : entry.created userId = none)
    (returns : entry.returned userId = none) : InOrder userId t :=
  ok.shortened next frame (List.Sublist.refl _) (fun _ waits => .inl waits) creates returns

theorem createRun (ok : InOrder userId s) (next : t.history = s.history ++ [entry]) (run : Run)
    (after : t.manager = s.manager.enqueued run) (absent : s.manager.getRun run.id = none)
    (creates : entry.created userId = if run.userId = userId then some run.id else none)
    (returns : entry.returned userId = none) : InOrder userId t := by
  have created := created_next next userId
  have returned := returned_next next userId
  rw [creates] at created
  rw [returns, Option.toList_none, List.append_nil] at returned
  have fresh : run.id ∉ s.created userId := by
    intro member
    obtain ⟨stored, found⟩ := ok.stored run.id member
    rw [absent] at found
    cases found
  constructor
  · have before := ok.lane.leave _ (List.Sublist.refl _) (fun _ waits => .inl waits)
      (fun _ => withdrawn_next next)
    rw [created, returned, after, RunManager.enqueued, InMemoryRunQueue.getUserRuns_enqueue]
    by_cases mine : run.userId = userId
    · rw [if_pos mine, if_pos mine.symm, mine]
      exact before.arrive fresh
    · rw [if_neg mine, if_neg (Ne.symm mine), Option.toList_none, List.append_nil]
      exact before
  · intro runId member
    rw [after, RunManager.getRun_enqueued]
    split
    · exact ⟨run, rfl⟩
    · rename_i other
      rw [created] at member
      rcases List.mem_append.mp member with earlier | latest
      · exact ok.stored runId earlier
      · split at latest
        · exact absurd (List.mem_singleton.mp latest) other
        · cases latest
  · intro runId stored found
    rw [after, RunManager.getRun_enqueued] at found
    split at found
    · rename_i same
      cases found
      exact same.symm
    · exact ok.named runId stored found
  · apply ok.turns_next next
    intro runId returned
    rw [returns] at returned
    cases returned

theorem acquireNextRun (ok : InOrder userId s) (next : t.history = s.history ++ [entry])
    {user : UserId} {nextRunId : RunId} {leaseManager : InMemoryLeaseManager} {run : Run}
    (updated : Run)
    (front : (s.manager.queue.getUserRuns user).head? = some nextRunId)
    (found : s.manager.getRun nextRunId = some run) (same : updated.id = run.id)
    (after : t.manager = { s.manager with
      leaseManager
      queue := (s.manager.queue.dequeue user).1
      repo := ⟨s.manager.repo.runs.set nextRunId updated⟩ })
    (creates : entry.created userId = none)
    (returns : entry.returned userId = if user = userId then some updated.id else none) :
    InOrder userId t := by
  have created := created_next next userId
  have returned := returned_next next userId
  rw [creates, Option.toList_none, List.append_nil] at created
  rw [returns] at returned
  have named : updated.id = nextRunId := same.trans (ok.named nextRunId run found)
  have runs : ∀ id, t.manager.getRun id = if id = nextRunId then some updated
      else s.manager.getRun id := by
    intro id
    rw [after]
    exact EsMap.get_set _ _ _ _
  constructor
  · have before := ok.lane.leave _ (List.Sublist.refl _) (fun _ waits => .inl waits)
      (fun _ => withdrawn_next next)
    rw [created, returned, after]
    simp only [InMemoryRunQueue.getUserRuns_dequeue]
    by_cases mine : user = userId
    · subst mine
      rw [if_pos rfl, if_pos rfl, named]
      cases line : s.manager.queue.getUserRuns user with
      | nil =>
          rw [line] at front
          cases front
      | cons first waiting =>
          rw [line] at front before
          cases front
          exact before.serve
    · rw [if_neg mine, if_neg (Ne.symm mine), Option.toList_none, List.append_nil]
      exact before
  · intro runId member
    rw [runs]
    rw [created] at member
    split
    · exact ⟨updated, rfl⟩
    · exact ok.stored runId member
  · intro runId stored at_
    rw [runs] at at_
    split at at_
    · rename_i here
      cases at_
      rw [here, named]
    · exact ok.named runId stored at_
  · apply ok.turns_next next
    intro runId answer
    rw [returns] at answer
    split at answer
    · rename_i mine
      rw [← mine, front, ← named]
      exact answer
    · cases answer

theorem cancelRun (ok : InOrder userId s) (next : t.history = s.history ++ [entry]) {runId : RunId}
    (frame : RunManager.Frame { s.manager with queue := (s.manager.queue.remove runId).1 } t.manager)
    (withdraws : entry.Withdraws runId) (creates : entry.created userId = none)
    (returns : entry.returned userId = none) : InOrder userId t := by
  apply ok.shortened next frame
  case kept =>
    rw [InMemoryRunQueue.getUserRuns_remove]
    split
    · exact List.erase_sublist
    · exact List.Sublist.refl _
  case leaves =>
    intro other waits
    by_cases same : other = runId
    · right
      exact ⟨entry, by rw [next]; simp, same ▸ withdraws⟩
    · exact .inl (InMemoryRunQueue.mem_remove_of_ne _ _ _ _ same waits)
  case creates => exact creates
  case returns => exact returns

theorem acquire_step (ok : ∀ userId, InOrder userId s) (next : t.history = s.history ++ [entry])
    {user : UserId} (called : entry.operation.action = .call (.acquireNextRun user))
    (done : s.manager.acquireNow entry.operation.random entry.operation.clock user =
      (t.manager, entry.outcome)) : InOrder userId t := by
  have creates : entry.created userId = none := by
    simp only [Entry.created, called]
  rcases s.manager.acquire_cases entry.operation.random entry.operation.clock user with
    nothing | ⟨nextRunId, leaseManager, lease, front, -, ⟨missing, -⟩ | ⟨run, found, took⟩⟩
  · rw [nothing] at done
    obtain ⟨same, answer⟩ := Prod.mk.inj done
    apply (ok userId).framed next
    · rw [← same]
      exact .refl _
    · exact creates
    · simp only [Entry.returned, called, ← answer]
  · -- who waits in a lane is stored
    have waits := List.mem_of_mem_head? front
    have lane := (ok user).lane
    obtain ⟨run, found⟩ := (ok user).stored nextRunId
      (lane.order.subset (List.mem_append_right _ waits))
    rw [missing] at found
    cases found
  · rw [took] at done
    obtain ⟨same, answer⟩ := Prod.mk.inj done
    apply (ok userId).acquireNextRun next (RunManager.leasedUpdates (entry.operation.clock 3) lease
      run) front found rfl same.symm creates
    simp only [Entry.returned, called, ← answer]

theorem cancel_step (ok : InOrder userId s) (next : t.history = s.history ++ [entry])
    {runId : RunId} {reason : Option String} (before : entry.before = s.manager)
    (afterwards : entry.after = t.manager)
    (called : entry.operation.action = .call (.cancelRun runId reason))
    (done : (s.manager.cancelNow entry.operation.clock runId reason).map id (.map some) =
      (t.manager, entry.outcome)) : InOrder userId t := by
  have creates : entry.created userId = none := by
    simp only [Entry.created, called]
  have returns : entry.returned userId = none := by
    simp only [Entry.returned, called]
  obtain ⟨same, answer⟩ := Call.now_eq done
  rcases s.manager.cancel_cases entry.operation.clock runId reason with
    ⟨-, frame⟩ | ⟨waiting, frame, cancelled, run, resolved⟩
  · rw [same] at frame
    exact ok.framed next frame creates returns
  · rw [same] at frame cancelled
    refine ok.cancelRun next frame ⟨⟨reason, called⟩, ⟨run, ?_⟩, ?_, ?_⟩ creates returns
    · rw [← answer, resolved]
      rfl
    · rw [before]
      exact waiting
    · rw [afterwards]
      exact cancelled

theorem step (ok : ∀ userId, InOrder userId s) {op : Operation} (fresh : s.FreshRun op)
    (moved : s.step op = some t) : InOrder userId t := by
  obtain ⟨⟨manager, outcome⟩, done, rfl⟩ := Option.map_eq_some_iff.mp moved
  have next := rfl (a := s.history ++ [(⟨op, s.manager, outcome, manager⟩ : Entry)])
  rcases Operation.perform_cases done with ⟨request, called, ran⟩ |
    ⟨runId, owner, expired, fires, due, ran⟩
  · have frame (method : RunManager × Settlement Run)
        (ended : method.map id (.map some) = (manager, outcome))
        (kept : RunManager.Frame s.manager method.1) : RunManager.Frame s.manager manager := by
      rw [← (Call.now_eq ended).1]
      exact kept
    cases request with
    | createRun random input =>
        rw [Call.now, RunManager.createNow_eq] at ran
        obtain ⟨after, answer⟩ := Prod.mk.inj ran
        have absent := fresh (RunManager.newRunId (op.clock 0) random)
          (by simp [Operation.created, called])
        apply (ok userId).createRun next (s.manager.createdRun (op.clock 0) random input)
          after.symm (Option.map_eq_none_iff.mp absent)
        · simp only [Entry.created, called, ← answer]
        · simp only [Entry.returned, called]
    | acquireNextRun user =>
        exact acquire_step ok next called ran
    | startRun runId =>
        exact (ok userId).framed next (frame _ ran (RunManager.frame_start _ _ _))
          (by simp only [Entry.created, called]) (by simp only [Entry.returned, called])
    | cancelRun runId reason =>
        exact (ok userId).cancel_step next rfl rfl called ran
    | completeRun runId finalMessages =>
        exact (ok userId).framed next (frame _ ran (RunManager.frame_end _ _ _ _ _))
          (by simp only [Entry.created, called]) (by simp only [Entry.returned, called])
    | failRun runId error =>
        exact (ok userId).framed next (frame _ ran (RunManager.frame_end _ _ _ _ _))
          (by simp only [Entry.created, called]) (by simp only [Entry.returned, called])
  · have kept : RunManager.Frame s.manager manager := by
      have both := (Operation.frame_expire due).trans (RunManager.frame_timeout _ op.clock owner)
      rwa [ran] at both
    exact (ok userId).framed next kept (by simp only [Entry.created, fires])
      (by simp only [Entry.returned, fires])

end InOrder

/-- `acquireNextRun` returns the runs of an owner once each and in the order of their creation,
and no run before an earlier one that was not cancelled while it was queued. -/
theorem Session.runs_are_returned_in_order (config : RunManagerConfig) (now : Int) (s : Session)
    (reached : Transition.Reach step FreshRun (init config now) s) (userId : UserId) :
    (s.created userId).Nodup ∧ (s.returned userId).Sublist (s.created userId) ∧
      ∀ earlier entry later runId, s.history = earlier ++ entry :: later →
        entry.returned userId = some runId →
        ∃ before after, earlier.filterMap (Entry.created userId) = before ++ runId :: after ∧
          ∀ other ∈ before, other ∈ earlier.filterMap (Entry.returned userId) ∨
            ∃ entry ∈ earlier, entry.Withdraws other := by
  have ok := reached.invariant (fun s => ∀ userId, InOrder userId s) (InOrder.init config now)
    (fun s op t fresh ok moved userId => InOrder.step ok fresh moved) userId
  exact ⟨ok.lane.distinct, (List.sublist_append_left _ _).trans ok.lane.order, ok.turns⟩

def Operation.atZero (random : String) (request : Request) : Operation :=
  ⟨.call request, random, fun _ => 0⟩

/-- Of three queued runs the second one is cancelled; the others are returned in their order. -/
theorem Session.third_run_follows_first :
    ∃ s : Session, s.created "acme:alice" = ["run_0_a", "run_0_b", "run_0_c"] ∧
      s.returned "acme:alice" = ["run_0_a", "run_0_c"] ∧
      (s.returned "acme:alice").Sublist (s.created "acme:alice") := by
  have ran : (Transition.exec (Transition.guarded step FreshRun) (init .default 0)
      [.atZero "" (.createRun "a" ⟨some ⟨"acme", "alice"⟩, none, "pack", "one", none⟩),
        .atZero "" (.createRun "b" ⟨some ⟨"acme", "alice"⟩, none, "pack", "two", none⟩),
        .atZero "" (.createRun "c" ⟨some ⟨"acme", "alice"⟩, none, "pack", "three", none⟩),
        .atZero "" (.cancelRun "run_0_b" none),
        .atZero "t" (.acquireNextRun "acme:alice"),
        .atZero "" (.startRun "run_0_a"),
        .atZero "" (.completeRun "run_0_a" none),
        .atZero "u" (.acquireNextRun "acme:alice")]).map
        (fun s => (s.created "acme:alice", s.returned "acme:alice")) =
      some (["run_0_a", "run_0_b", "run_0_c"], ["run_0_a", "run_0_c"]) := by decide +kernel
  obtain ⟨s, reached, observed⟩ := Transition.reach_of_observed _ _ ran
  obtain ⟨created, returned⟩ := Prod.mk.inj observed
  exact ⟨s, created, returned, (runs_are_returned_in_order .default 0 s reached "acme:alice").2.1⟩

end Minerva
