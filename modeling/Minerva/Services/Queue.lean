import Minerva.Library.EsMap
import Minerva.Types.Run

namespace Minerva

/-- `queues` maps a user to its run ids in FIFO order, `runToUser` a queued run to its user. -/
structure InMemoryRunQueue where
  queues : EsMap UserId (List RunId)
  runToUser : EsMap RunId UserId

namespace InMemoryRunQueue

def empty : InMemoryRunQueue := ⟨.empty, .empty⟩

def enqueue (q : InMemoryRunQueue) (runId : RunId) (userId : UserId) : InMemoryRunQueue × Nat :=
  let queue := (q.queues.get userId).getD [] ++ [runId]
  (⟨q.queues.set userId queue, q.runToUser.set runId userId⟩, queue.length - 1)

/-- Write back a shortened queue; an empty one leaves the map. -/
def store (q : InMemoryRunQueue) (userId : UserId) (queue : List RunId) :
    EsMap UserId (List RunId) :=
  if queue = [] then q.queues.delete userId else q.queues.set userId queue

def dequeue (q : InMemoryRunQueue) (userId : UserId) : InMemoryRunQueue × Option RunId :=
  match q.queues.get userId with
  | none => (q, none)
  | some [] => (q, none)
  | some (runId :: rest) => (⟨q.store userId rest, q.runToUser.delete runId⟩, some runId)

def peek (q : InMemoryRunQueue) (userId : UserId) : Option RunId :=
  match q.queues.get userId with
  | none => none
  | some queue => queue.head?

/-- The lookups that `remove` and `getPosition` share: the user of a queued run, the user's
queue and the index of the run in it. -/
def locate (q : InMemoryRunQueue) (runId : RunId) : Option (UserId × List RunId × Nat) :=
  match q.runToUser.get runId with
  | none => none
  | some userId =>
    -- `if (!userId)`: the empty key is falsy, so its runs are never found
    if userId = "" then none else
    match q.queues.get userId with
    | none => none
    | some queue => (queue.idxOf? runId).map (fun index => (userId, queue, index))

def remove (q : InMemoryRunQueue) (runId : RunId) : InMemoryRunQueue × Bool :=
  match q.locate runId with
  | none => (q, false)
  | some (userId, queue, index) =>
    (⟨q.store userId (queue.eraseIdx index), q.runToUser.delete runId⟩, true)

def getPosition (q : InMemoryRunQueue) (runId : RunId) : Option Nat :=
  match q.locate runId with
  | none => none
  | some (_, _, index) => some index

def getLength (q : InMemoryRunQueue) (userId : UserId) : Nat :=
  match q.queues.get userId with
  | none => 0
  | some queue => queue.length

def clear (q : InMemoryRunQueue) : InMemoryRunQueue :=
  { q with queues := .empty, runToUser := .empty }

def getUserRuns (q : InMemoryRunQueue) (userId : UserId) : List RunId :=
  (q.queues.get userId).getD []

theorem peek_eq_head (q : InMemoryRunQueue) (userId : UserId) :
    q.peek userId = (q.getUserRuns userId).head? := by
  unfold peek getUserRuns
  split <;> simp_all

theorem getUserRuns_enqueue (q : InMemoryRunQueue) (runId : RunId) (userId user : UserId) :
    (q.enqueue runId userId).1.getUserRuns user =
      if user = userId then q.getUserRuns userId ++ [runId] else q.getUserRuns user := by
  simp only [enqueue, getUserRuns, EsMap.get_set]
  split <;> rfl

theorem getD_store (q : InMemoryRunQueue) (userId user : UserId) (queue : List RunId) :
    ((q.store userId queue).get user).getD [] =
      if user = userId then queue else q.getUserRuns user := by
  unfold store getUserRuns
  by_cases nothing : queue = []
  · subst nothing
    simp only [if_true, EsMap.get_delete]
    split <;> rfl
  · simp only [if_neg nothing, EsMap.get_set]
    split <;> rfl

theorem getUserRuns_dequeue (q : InMemoryRunQueue) (userId user : UserId) :
    (q.dequeue userId).1.getUserRuns user =
      if user = userId then (q.getUserRuns userId).tail else q.getUserRuns user := by
  cases found : q.queues.get userId with
  | none =>
      by_cases same : user = userId
      · subst same
        simp [dequeue, getUserRuns, found]
      · simp [dequeue, found, same]
  | some queue =>
      cases queue with
      | nil =>
          by_cases same : user = userId
          · subst same
            simp [dequeue, getUserRuns, found]
          · simp [dequeue, found, same]
      | cons head tail =>
          have stored := q.getD_store userId user tail
          simpa [dequeue, getUserRuns, found] using stored

theorem dequeue_result (q : InMemoryRunQueue) (userId : UserId) :
    (q.dequeue userId).2 = (q.getUserRuns userId).head? := by
  unfold dequeue getUserRuns
  split <;> simp_all

theorem locate_eq_some (q : InMemoryRunQueue) (runId : RunId) (userId : UserId)
    (queue : List RunId) (index : Nat) :
    q.locate runId = some (userId, queue, index) ↔
      q.runToUser.get runId = some userId ∧ userId ≠ "" ∧ q.queues.get userId = some queue ∧
        queue.idxOf? runId = some index := by
  unfold locate
  cases indexed : q.runToUser.get runId with
  | none => simp
  | some user =>
      by_cases falsy : user = ""
      · simp only [if_pos falsy, Option.some.injEq, reduceCtorEq, false_iff]
        rintro ⟨rfl, truthy, -⟩
        exact truthy falsy
      · simp only [if_neg falsy, Option.some.injEq]
        cases found : q.queues.get user with
        | none =>
            simp only [reduceCtorEq, false_iff]
            rintro ⟨rfl, -, listed, -⟩
            simp [found] at listed
        | some queue' =>
            simp only [Option.map_eq_some_iff, Prod.mk.injEq]
            constructor
            · rintro ⟨i, position, rfl, rfl, rfl⟩
              exact ⟨rfl, falsy, found, position⟩
            · rintro ⟨rfl, -, listed, position⟩
              rw [found, Option.some.injEq] at listed
              subst listed
              exact ⟨index, position, rfl, rfl, rfl⟩

theorem locate_eq_none (q : InMemoryRunQueue) (runId : RunId) (missing : q.locate runId = none)
    (userId : UserId) (indexed : q.runToUser.get runId = some userId) (truthy : userId ≠ "") :
    runId ∉ q.getUserRuns userId := by
  intro member
  cases found : q.queues.get userId with
  | none => simp [getUserRuns, found] at member
  | some queue =>
      simp only [getUserRuns, found, Option.getD_some] at member
      obtain ⟨index, position⟩ := Option.isSome_iff_exists.mp (List.isSome_idxOf?.mpr member)
      have located := (q.locate_eq_some runId userId queue index).mpr
        ⟨indexed, truthy, found, position⟩
      simp [missing] at located

theorem getUserRuns_remove (q : InMemoryRunQueue) (runId : RunId) (user : UserId) :
    (q.remove runId).1.getUserRuns user =
      if q.runToUser.get runId = some user ∧ user ≠ "" then (q.getUserRuns user).erase runId
      else q.getUserRuns user := by
  unfold remove
  cases located : q.locate runId with
  | none =>
      by_cases held : q.runToUser.get runId = some user ∧ user ≠ ""
      · have absent := q.locate_eq_none runId located user held.1 held.2
        rw [if_pos held, List.erase_of_not_mem absent]
      · rw [if_neg held]
  | some place =>
      obtain ⟨userId, queue, index⟩ := place
      obtain ⟨indexed, truthy, found, position⟩ := (q.locate_eq_some _ _ _ _).mp located
      have erased : queue.eraseIdx index = queue.erase runId := by
        rw [List.erase_eq_eraseIdx, position]
      have stored := q.getD_store userId user (queue.eraseIdx index)
      simp only [getUserRuns] at stored ⊢
      rw [stored, erased]
      by_cases same : user = userId
      · subst same
        simp [indexed, truthy, found]
      · simp [indexed, same, Ne.symm same]

theorem runToUser_remove (q : InMemoryRunQueue) (runId other : RunId) (different : other ≠ runId) :
    (q.remove runId).1.runToUser.get other = q.runToUser.get other := by
  unfold remove
  split
  · rfl
  · exact EsMap.get_delete_of_ne _ _ _ different

/-- Every queued run stands once in one queue, and the index knows in which. -/
structure Indexed (q : InMemoryRunQueue) : Prop where
  distinct : ∀ userId, (q.getUserRuns userId).Nodup
  indexed : ∀ userId runId, runId ∈ q.getUserRuns userId → q.runToUser.get runId = some userId

theorem Indexed.empty : InMemoryRunQueue.empty.Indexed := by
  constructor
  · intro userId
    exact List.nodup_nil
  · intro userId runId member
    cases member

theorem Indexed.same_user {q : InMemoryRunQueue} (ok : q.Indexed) {runId : RunId}
    {userId user : UserId} (first : runId ∈ q.getUserRuns userId)
    (second : runId ∈ q.getUserRuns user) : userId = user := by
  have left := ok.indexed userId runId first
  have right := ok.indexed user runId second
  rw [left] at right
  exact Option.some.inj right

theorem mem_enqueue (q : InMemoryRunQueue) (runId other : RunId) (userId user : UserId) :
    other ∈ (q.enqueue runId userId).1.getUserRuns user ↔
      other ∈ q.getUserRuns user ∨ (user = userId ∧ other = runId) := by
  rw [getUserRuns_enqueue]
  by_cases same : user = userId
  · subst same
    simp
  · simp [same]

theorem mem_of_mem_dequeue (q : InMemoryRunQueue) (runId : RunId) (userId user : UserId)
    (member : runId ∈ (q.dequeue userId).1.getUserRuns user) : runId ∈ q.getUserRuns user := by
  rw [getUserRuns_dequeue] at member
  split at member
  · rename_i same
    rw [same]
    exact List.mem_of_mem_tail member
  · exact member

theorem mem_of_mem_remove (q : InMemoryRunQueue) (runId other : RunId) (user : UserId)
    (member : other ∈ (q.remove runId).1.getUserRuns user) : other ∈ q.getUserRuns user := by
  rw [getUserRuns_remove] at member
  split at member
  · exact List.mem_of_mem_erase member
  · exact member

theorem mem_remove_of_ne (q : InMemoryRunQueue) (runId other : RunId) (user : UserId)
    (different : other ≠ runId) (member : other ∈ q.getUserRuns user) :
    other ∈ (q.remove runId).1.getUserRuns user := by
  rw [getUserRuns_remove]
  split
  · exact (List.mem_erase_of_ne different).mpr member
  · exact member

theorem runToUser_dequeue (q : InMemoryRunQueue) (userId : UserId) (runId : RunId)
    (behind : (q.getUserRuns userId).head? ≠ some runId) :
    (q.dequeue userId).1.runToUser.get runId = q.runToUser.get runId := by
  unfold dequeue
  split
  · rfl
  · rfl
  · rename_i head rest found
    apply EsMap.get_delete_of_ne
    rintro rfl
    simp [getUserRuns, found] at behind

theorem runToUser_of_dequeue {q : InMemoryRunQueue} {userId user : UserId} {runId : RunId}
    (indexed : (q.dequeue userId).1.runToUser.get runId = some user) :
    q.runToUser.get runId = some user := by
  unfold InMemoryRunQueue.dequeue at indexed
  split at indexed
  · exact indexed
  · exact indexed
  · exact (EsMap.get_of_get_delete _ _ indexed).2

theorem runToUser_of_remove {q : InMemoryRunQueue} {runId id : RunId} {user : UserId}
    (indexed : (q.remove runId).1.runToUser.get id = some user) :
    q.runToUser.get id = some user := by
  unfold InMemoryRunQueue.remove at indexed
  split at indexed
  · exact indexed
  · exact (EsMap.get_of_get_delete _ _ indexed).2

theorem Indexed.enqueue {q : InMemoryRunQueue} (ok : q.Indexed) (runId : RunId) (userId : UserId)
    (absent : ∀ user, runId ∉ q.getUserRuns user) : (q.enqueue runId userId).1.Indexed := by
  constructor
  · intro user
    rw [getUserRuns_enqueue]
    split
    · apply List.nodup_append.mpr
      refine ⟨ok.distinct userId, List.nodup_singleton runId, ?_⟩
      intro other member new fresh same
      rw [same, List.mem_singleton.mp fresh] at member
      exact absent userId member
    · exact ok.distinct user
  · intro user other member
    rcases (q.mem_enqueue runId other userId user).mp member with earlier | ⟨rfl, rfl⟩
    · have different : other ≠ runId := by
        intro same
        rw [same] at earlier
        exact absent user earlier
      rw [InMemoryRunQueue.enqueue, EsMap.get_set_of_ne _ _ _ _ different]
      exact ok.indexed user other earlier
    · exact EsMap.get_set_self _ _ _

theorem Indexed.not_mem_tail {q : InMemoryRunQueue} (ok : q.Indexed) (userId : UserId)
    (runId : RunId) (front : (q.getUserRuns userId).head? = some runId) :
    runId ∉ (q.getUserRuns userId).tail := by
  have distinct := ok.distinct userId
  cases listed : q.getUserRuns userId with
  | nil => simp
  | cons head rest =>
      rw [listed] at front distinct
      cases front
      exact (List.nodup_cons.mp distinct).1

theorem Indexed.not_mem_dequeue {q : InMemoryRunQueue} (ok : q.Indexed) {userId : UserId}
    {runId : RunId} (front : (q.getUserRuns userId).head? = some runId) (user : UserId) :
    runId ∉ (q.dequeue userId).1.getUserRuns user := by
  intro member
  have earlier := q.mem_of_mem_dequeue runId userId user member
  have same := ok.same_user earlier (List.mem_of_mem_head? front)
  subst same
  rw [getUserRuns_dequeue, if_pos rfl] at member
  exact ok.not_mem_tail user runId front member

theorem Indexed.dequeue {q : InMemoryRunQueue} (ok : q.Indexed) (userId : UserId) :
    (q.dequeue userId).1.Indexed := by
  constructor
  · intro user
    rw [getUserRuns_dequeue]
    split
    · exact (ok.distinct userId).sublist (List.tail_sublist _)
    · exact ok.distinct user
  · intro user runId member
    have earlier := q.mem_of_mem_dequeue runId userId user member
    have behind : (q.getUserRuns userId).head? ≠ some runId := fun front =>
      ok.not_mem_dequeue front user member
    rw [q.runToUser_dequeue userId runId behind]
    exact ok.indexed user runId earlier

theorem Indexed.not_mem_remove {q : InMemoryRunQueue} (ok : q.Indexed) {runId : RunId}
    {user : UserId} (named : user ≠ "") : runId ∉ (q.remove runId).1.getUserRuns user := by
  intro member
  have known := ok.indexed user runId (q.mem_of_mem_remove runId runId user member)
  rw [getUserRuns_remove, if_pos ⟨known, named⟩] at member
  exact List.Nodup.not_mem_erase (ok.distinct user) member

theorem Indexed.remove {q : InMemoryRunQueue} (ok : q.Indexed) (runId : RunId) :
    (q.remove runId).1.Indexed := by
  constructor
  · intro user
    rw [getUserRuns_remove]
    split
    · exact (ok.distinct user).erase runId
    · exact ok.distinct user
  · intro user other member
    have earlier := q.mem_of_mem_remove runId other user member
    have known := ok.indexed user other earlier
    by_cases different : other = runId
    · -- the run is still queued, so `remove` has not found it
      subst different
      rw [getUserRuns_remove] at member
      split at member
      · exact absurd member (List.Nodup.not_mem_erase (ok.distinct user))
      · rename_i kept
        have falsy : user = "" := by
          by_contra truthy
          exact kept ⟨known, truthy⟩
        have lost : q.locate other = none := by
          simp [locate, known, falsy]
        rw [InMemoryRunQueue.remove, lost]
        exact known
    · rw [q.runToUser_remove runId other different]
      exact known

theorem enqueue_position (q : InMemoryRunQueue) (runId : RunId) (userId : UserId) :
    (q.enqueue runId userId).2 = (q.getUserRuns userId).length := by
  simp [enqueue, getUserRuns]

theorem idxOf?_eq_some_of_nodup {runId : RunId} {position : Nat} {lane : List RunId}
    (distinct : lane.Nodup) :
    lane.idxOf? runId = some position ↔ lane[position]? = some runId := by
  rw [List.idxOf?_eq_some_iff, List.getElem?_eq_some_iff]
  constructor
  · rintro ⟨inside, here, _⟩
    exact ⟨inside, here⟩
  · rintro ⟨inside, here⟩
    refine ⟨inside, here, ?_⟩
    intro earlier before same
    have twice := (distinct.getElem_inj_iff).mp (same.trans here.symm)
    omega

theorem Indexed.getPosition_eq_some {q : InMemoryRunQueue} {runId : RunId} {position : Nat}
    (ok : q.Indexed) : q.getPosition runId = some position ↔
      ∃ userId, userId ≠ "" ∧ (q.getUserRuns userId)[position]? = some runId := by
  have located : q.getPosition runId = some position ↔
      ∃ userId queue, q.locate runId = some (userId, queue, position) := by
    unfold getPosition
    cases q.locate runId with
    | none => simp
    | some place =>
        obtain ⟨user, queue, index⟩ := place
        simp
  rw [located]
  constructor
  · rintro ⟨userId, queue, found⟩
    obtain ⟨_, named, stored, index⟩ := (q.locate_eq_some _ _ _ _).mp found
    have line : q.getUserRuns userId = queue := by
      simp [getUserRuns, stored]
    refine ⟨userId, named, ?_⟩
    rw [line]
    exact (idxOf?_eq_some_of_nodup (line ▸ ok.distinct userId)).mp index
  · rintro ⟨userId, named, here⟩
    have member := List.mem_of_getElem? here
    cases stored : q.queues.get userId with
    | none => simp [getUserRuns, stored] at member
    | some queue =>
        have line : q.getUserRuns userId = queue := by
          simp [getUserRuns, stored]
        rw [line] at here
        have index := (idxOf?_eq_some_of_nodup (line ▸ ok.distinct userId)).mpr here
        exact ⟨userId, queue, (q.locate_eq_some _ _ _ _).mpr
          ⟨ok.indexed userId runId member, named, stored, index⟩⟩

theorem remove_result (q : InMemoryRunQueue) (runId : RunId) :
    (q.remove runId).2 = (q.getPosition runId).isSome := by
  unfold remove getPosition
  cases q.locate runId <;> rfl

theorem getLength_eq (q : InMemoryRunQueue) (userId : UserId) :
    q.getLength userId = (q.getUserRuns userId).length := by
  unfold getLength getUserRuns
  cases q.queues.get userId <;> rfl

end InMemoryRunQueue

end Minerva
