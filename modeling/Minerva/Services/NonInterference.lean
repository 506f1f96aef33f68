import Minerva.Services.Footprint
import Minerva.Services.Queued

namespace Minerva

namespace InMemoryLeaseManager

variable {l l' : InMemoryLeaseManager} {userId : UserId}

structure Alike (userId : UserId) (l l' : InMemoryLeaseManager) : Prop where
  lease : l.leases.get userId = l'.leases.get userId
  tokens : ∀ token, l.tokenToUser.get token = some userId ↔ l'.tokenToUser.get token = some userId

theorem Alike.refl (userId : UserId) (l : InMemoryLeaseManager) : Alike userId l l :=
  ⟨rfl, fun _ => Iff.rfl⟩

theorem Alike.symm (alike : Alike userId l l') : Alike userId l' l :=
  ⟨alike.lease.symm, fun token => (alike.tokens token).symm⟩

theorem Alike.trans {l₁ l₂ l₃ : InMemoryLeaseManager} (first : Alike userId l₁ l₂)
    (second : Alike userId l₂ l₃) : Alike userId l₁ l₃ :=
  ⟨first.lease.trans second.lease, fun token => (first.tokens token).trans (second.tokens token)⟩

theorem Alike.held (alike : Alike userId l l') {token : String} {lease : Lease} :
    l.held token = some (userId, lease) ↔ l'.held token = some (userId, lease) := by
  rw [held_eq_some, held_eq_some, alike.tokens, alike.lease]

theorem alike_release_of_other {token : String}
    (other : ∀ lease, l.held token ≠ some (userId, lease)) : Alike userId l (l.release token) := by
  rcases l.release_cases token with ⟨same, -⟩ | ⟨user, lease, held, leases, tokens⟩
  · rw [same]
    exact .refl userId l
  · have apart : userId ≠ user := by
      rintro rfl
      exact other lease held
    have known := ((l.held_eq_some token user lease).mp held).1
    constructor
    · rw [leases, EsMap.get_delete_of_ne _ _ _ apart]
    · intro t
      rw [tokens, EsMap.get_delete]
      split
      · rename_i same
        rw [same, known]
        simp [Ne.symm apart]
      · exact Iff.rfl

theorem Alike.release (alike : Alike userId l l') (token : String) :
    Alike userId (l.release token) (l'.release token) := by
  by_cases mine : ∃ lease, l.held token = some (userId, lease)
  · obtain ⟨lease, held⟩ := mine
    have held' := alike.held.mp held
    constructor
    · simp [InMemoryLeaseManager.release, held, held']
    · intro t
      simp only [InMemoryLeaseManager.release, held, held', EsMap.get_delete]
      split
      · simp
      · exact alike.tokens t
  · have other (lease : Lease) : l.held token ≠ some (userId, lease) := fun held => mine ⟨lease, held⟩
    have other' (lease : Lease) : l'.held token ≠ some (userId, lease) := fun held =>
      mine ⟨lease, alike.held.mpr held⟩
    exact ((alike_release_of_other other).symm.trans alike).trans (alike_release_of_other other')

theorem Alike.acquire (alike : Alike userId l l') (now : Int) (random : String) (runId : RunId)
    (ttlMs : Int) :
    (l.acquire now random userId runId ttlMs).2 = (l'.acquire now random userId runId ttlMs).2 ∧
      Alike userId (l.acquire now random userId runId ttlMs).1
        (l'.acquire now random userId runId ttlMs).1 := by
  unfold InMemoryLeaseManager.acquire
  rw [← alike.lease]
  cases found : l.leases.get userId with
  | none =>
      refine ⟨rfl, ?_, ?_⟩
      · simp [grant]
      · intro token
        simp only [grant, EsMap.get_set]
        split
        · simp
        · exact alike.tokens token
  | some existing =>
      by_cases active : existing.expiresAt > now
      · simp only [if_pos active]
        exact ⟨trivial, alike⟩
      · simp only [if_neg active]
        refine ⟨rfl, ?_, ?_⟩
        · simp [grant]
        · intro token
          simp only [grant, EsMap.get_set, EsMap.get_delete]
          split
          · simp
          · split
            · simp
            · exact alike.tokens token

theorem alike_acquire_of_other {user : UserId} (known : l.Known) (now : Int) (random : String)
    (runId : RunId) (ttlMs : Int) (other : userId ≠ user)
    (unused : (l.isActive now user).2 = false → l.tokenToUser.get (newToken now random) = none) :
    Alike userId l (l.acquire now random user runId ttlMs).1 := by
  rcases l.acquire_cases now random user runId ttlMs with ⟨lease, -, -, refused⟩ |
    ⟨expired, after, acquired, leases, mine, others⟩
  · rw [refused]
    exact .refl userId l
  · have granted : (l.acquire now random user runId ttlMs).2 =
        some ⟨runId, newToken now random, now, now + ttlMs⟩ := by rw [acquired]
    have fresh := unused (inactive_of_acquire granted).1
    constructor
    · rw [l.get_acquire_of_ne now random user userId runId ttlMs other]
    · intro token
      rw [acquired]
      by_cases new : token = newToken now random
      · rw [new, fresh, mine]
        simp [Ne.symm other]
      · by_cases replaced : ∃ lease, l.leases.get user = some lease ∧ lease.token = token
        · obtain ⟨lease, stored, rfl⟩ := replaced
          have theirs := known user lease stored
          have ended : after.tokenToUser.get lease.token ≠ some userId := by
            intro indexed
            have before := tokenToUser_of_acquire (m := l) new (by rw [acquired]; exact indexed)
            rw [theirs] at before
            exact other (Option.some.inj before).symm
          rw [theirs]
          simp [Ne.symm other, ended]
        · rw [others token new (fun lease stored same => replaced ⟨lease, stored, same⟩)]

end InMemoryLeaseManager

namespace InMemoryRunQueue

variable {q q' : InMemoryRunQueue} {userId : UserId}

structure Alike (userId : UserId) (q q' : InMemoryRunQueue) : Prop where
  lane : q.getUserRuns userId = q'.getUserRuns userId
  index : ∀ runId, q.runToUser.get runId = some userId ↔ q'.runToUser.get runId = some userId

theorem Alike.refl (userId : UserId) (q : InMemoryRunQueue) : Alike userId q q :=
  ⟨rfl, fun _ => Iff.rfl⟩

theorem Alike.trans {q₁ q₂ q₃ : InMemoryRunQueue} (first : Alike userId q₁ q₂)
    (second : Alike userId q₂ q₃) : Alike userId q₁ q₃ :=
  ⟨first.lane.trans second.lane, fun runId => (first.index runId).trans (second.index runId)⟩

theorem Alike.enqueue (alike : Alike userId q q') (runId : RunId) :
    Alike userId (q.enqueue runId userId).1 (q'.enqueue runId userId).1 ∧
      (q.enqueue runId userId).2 = (q'.enqueue runId userId).2 := by
  have lane := alike.lane
  refine ⟨⟨?_, ?_⟩, ?_⟩
  · rw [getUserRuns_enqueue, getUserRuns_enqueue, if_pos rfl, if_pos rfl, lane]
  · intro id
    simp only [InMemoryRunQueue.enqueue, EsMap.get_set]
    split
    · simp
    · exact alike.index id
  · unfold getUserRuns at lane
    simp only [InMemoryRunQueue.enqueue, lane]

theorem alike_enqueue_of_other {runId : RunId} {user : UserId} (other : userId ≠ user)
    (fresh : q.runToUser.get runId ≠ some userId) :
    Alike userId q (q.enqueue runId user).1 := by
  constructor
  · rw [getUserRuns_enqueue, if_neg other]
  · intro id
    simp only [InMemoryRunQueue.enqueue, EsMap.get_set]
    split
    · rename_i same
      rw [same]
      simp [fresh, Ne.symm other]
    · exact Iff.rfl

theorem runToUser_dequeue_eq (q : InMemoryRunQueue) (user : UserId) (runId : RunId) :
    (q.dequeue user).1.runToUser.get runId =
      if (q.getUserRuns user).head? = some runId then none else q.runToUser.get runId := by
  split
  · rename_i front
    unfold InMemoryRunQueue.dequeue
    unfold getUserRuns at front
    split
    · rename_i missing
      rw [missing] at front
      cases front
    · rename_i empty
      rw [empty] at front
      cases front
    · rename_i head rest found
      rw [found] at front
      cases front
      exact EsMap.get_delete_self _ _
  · rename_i behind
    exact q.runToUser_dequeue user runId behind

theorem Alike.dequeue (alike : Alike userId q q') :
    Alike userId (q.dequeue userId).1 (q'.dequeue userId).1 := by
  constructor
  · rw [getUserRuns_dequeue, getUserRuns_dequeue, if_pos rfl, if_pos rfl, alike.lane]
  · intro runId
    rw [runToUser_dequeue_eq, runToUser_dequeue_eq, alike.lane]
    split
    · exact Iff.rfl
    · exact alike.index runId

theorem alike_dequeue_of_other (ok : q.Indexed) {user : UserId} (other : userId ≠ user) :
    Alike userId q (q.dequeue user).1 := by
  constructor
  · rw [getUserRuns_dequeue, if_neg other]
  · intro runId
    rw [runToUser_dequeue_eq]
    split
    · rename_i front
      rw [ok.indexed user runId (List.mem_of_mem_head? front)]
      simp [Ne.symm other]
    · exact Iff.rfl

theorem runToUser_remove_self (q : InMemoryRunQueue) (runId : RunId) :
    (q.remove runId).1.runToUser.get runId = some userId ↔
      q.runToUser.get runId = some userId ∧
        (userId = "" ∨ runId ∉ q.getUserRuns userId) := by
  unfold InMemoryRunQueue.remove
  cases located : q.locate runId with
  | none =>
      constructor
      · intro indexed
        refine ⟨indexed, ?_⟩
        by_cases falsy : userId = ""
        · exact .inl falsy
        · exact .inr (q.locate_eq_none runId located userId indexed falsy)
      · exact fun kept => kept.1
  | some place =>
      obtain ⟨user, queue, index⟩ := place
      obtain ⟨indexed, truthy, found, position⟩ := (q.locate_eq_some _ _ _ _).mp located
      simp only [EsMap.get_delete_self, reduceCtorEq, false_iff]
      rintro ⟨same, falsy | absent⟩
      · rw [indexed] at same
        cases same
        exact truthy falsy
      · rw [indexed] at same
        cases same
        have member : runId ∈ queue := List.isSome_idxOf?.mp (by rw [position]; rfl)
        exact absent (by simpa [getUserRuns, found] using member)

theorem Alike.remove (alike : Alike userId q q') (runId : RunId) :
    Alike userId (q.remove runId).1 (q'.remove runId).1 := by
  constructor
  · simp only [getUserRuns_remove, alike.lane, alike.index]
  · intro id
    by_cases same : id = runId
    · rw [same, runToUser_remove_self, runToUser_remove_self, alike.lane, alike.index]
    · rw [q.runToUser_remove runId id same, q'.runToUser_remove runId id same]
      exact alike.index id

theorem alike_remove_of_other {runId : RunId} (other : q.runToUser.get runId ≠ some userId) :
    Alike userId q (q.remove runId).1 := by
  constructor
  · rw [getUserRuns_remove, if_neg (fun mine => other mine.1)]
  · intro id
    by_cases same : id = runId
    · rw [same, runToUser_remove_self]
      simp [other]
    · rw [q.runToUser_remove runId id same]

end InMemoryRunQueue

/-- What a cancellation context shows; which `AbortController` it has does not show. -/
def CancellationContext.face (context : CancellationContext) :
    Bool × Option String × List AbortListener :=
  (context.isCancelled, context.cancelReason, context.listeners)

/-- What a scheduled timeout shows; which timer of the event loop it has does not show. -/
def TimeoutHandle.face (handle : TimeoutHandle) : RunId × Int × Int :=
  (handle.runId, handle.scheduledAt, handle.timeoutAt)

structure Face where
  timeout : Option (RunId × Int × Int)
  due : Option Int
  context : Option (Bool × Option String × List AbortListener)

def Sheet.face (sheet : Sheet) : Face :=
  ⟨sheet.timeout.map TimeoutHandle.face, sheet.due, sheet.context.map CancellationContext.face⟩

theorem CancellationContext.face_cancel {context context' : CancellationContext}
    (same : context.face = context'.face) (reason : Option String) :
    (context.cancel reason).1.face = (context'.cancel reason).1.face := by
  simp only [face, Prod.mk.injEq] at same
  obtain ⟨flag, told, listeners⟩ := same
  unfold cancel
  rw [flag]
  split <;> simp [face, flag, told, listeners]

namespace RunManager

/-- The managers agree on all that an owner can see: its runs, its queue, its lease, and the timers
and contexts of its runs. -/
structure Alike (userId : UserId) (m m' : RunManager) : Prop where
  config : m.config = m'.config
  runs : ∀ runId run, run.userId = userId → (m.getRun runId = some run ↔ m'.getRun runId = some run)
  queue : m.queue.Alike userId m'.queue
  leaseManager : m.leaseManager.Alike userId m'.leaseManager
  faces : ∀ runId run, run.userId = userId → m.getRun runId = some run →
    (m.sheet runId).face = (m'.sheet runId).face

namespace Alike

variable {userId : UserId} {m m' n n' : RunManager} {runId : RunId} {run : Run}

theorem refl (userId : UserId) (m : RunManager) : Alike userId m m :=
  ⟨rfl, fun _ _ _ => Iff.rfl, .refl userId _, .refl userId _, fun _ _ _ _ => rfl⟩

theorem trans {m₁ m₂ m₃ : RunManager} (first : Alike userId m₁ m₂) (second : Alike userId m₂ m₃) :
    Alike userId m₁ m₃ where
  config := first.config.trans second.config
  runs := fun runId run mine => (first.runs runId run mine).trans (second.runs runId run mine)
  queue := first.queue.trans second.queue
  leaseManager := first.leaseManager.trans second.leaseManager
  faces := fun runId run mine found => (first.faces runId run mine found).trans
    (second.faces runId run mine ((first.runs runId run mine).mp found))

theorem symm (alike : Alike userId m m') : Alike userId m' m where
  config := alike.config.symm
  runs := fun runId run mine => (alike.runs runId run mine).symm
  queue := ⟨alike.queue.lane.symm, fun runId => (alike.queue.index runId).symm⟩
  leaseManager := alike.leaseManager.symm
  faces := fun runId run mine found => (alike.faces runId run mine
    ((alike.runs runId run mine).mpr found)).symm

theorem of_touches (touches : Touches m n runId)
    (foreign : ∀ run, m.getRun runId = some run → run.userId ≠ userId) : Alike userId m n where
  config := touches.config.symm
  runs := by
    intro id run mine
    by_cases same : id = runId
    · subst same
      constructor
      · intro found
        exact absurd mine (foreign run found)
      · intro found
        obtain ⟨before, found', -, user, -⟩ := touches.before found
        exact absurd (user.symm.trans mine) (foreign before found')
    · rw [show n.getRun id = m.getRun id from congrArg Sheet.run (touches.others id same)]
  queue := by
    rw [touches.queue]
    exact .refl userId _
  leaseManager := by
    rw [touches.leaseManager]
    exact .refl userId _
  faces := by
    intro id run mine found
    have other : id ≠ runId := by
      rintro rfl
      exact foreign run found mine
    rw [touches.others id other]

theorem touch (alike : Alike userId m m') (touches : Touches m n runId)
    (touches' : Touches m' n' runId) (same : n.getRun runId = n'.getRun runId)
    (face : (n.sheet runId).face = (n'.sheet runId).face) : Alike userId n n' where
  config := touches.config.trans (alike.config.trans touches'.config.symm)
  runs := by
    intro id run mine
    by_cases here : id = runId
    · rw [here, same]
    · rw [show n.getRun id = m.getRun id from congrArg Sheet.run (touches.others id here),
        show n'.getRun id = m'.getRun id from congrArg Sheet.run (touches'.others id here)]
      exact alike.runs id run mine
  queue := by
    rw [touches.queue, touches'.queue]
    exact alike.queue
  leaseManager := by
    rw [touches.leaseManager, touches'.leaseManager]
    exact alike.leaseManager
  faces := by
    intro id run mine found
    by_cases here : id = runId
    · rw [here]
      exact face
    · rw [touches.others id here, touches'.others id here]
      rw [show n.getRun id = m.getRun id from congrArg Sheet.run (touches.others id here)] at found
      exact alike.faces id run mine found

theorem of_release (sane : m.Sane) (found : m.getRun runId = some run)
    (foreign : run.userId ≠ userId) : Alike userId m (m.released run) := by
  have leases : m.leaseManager.Alike userId (m.released run).leaseManager := by
    unfold released
    cases token : truthy run.leaseToken with
    | none => exact .refl userId _
    | some leaseToken =>
        apply InMemoryLeaseManager.alike_release_of_other
        intro lease held
        have known := ((m.leaseManager.held_eq_some leaseToken userId lease).mp held).1
        have carries : run.leaseToken = some leaseToken := (Option.filter_eq_some_iff.mp token).1
        exact foreign (sane.tokens runId run leaseToken userId found carries known)
  have frame := m.frame_released run
  refine ⟨frame.config.symm, ?_, ?_, leases, ?_⟩
  · intro id stored _
    rw [released_getRun]
  · rw [frame.queue]
    exact .refl userId _
  · intro id stored _ _
    rw [sheet_released]

theorem release (alike : Alike userId m m') (run : Run) :
    Alike userId (m.released run) (m'.released run) := by
  have leases : (m.released run).leaseManager.Alike userId (m'.released run).leaseManager := by
    unfold released
    cases truthy run.leaseToken with
    | none => exact alike.leaseManager
    | some leaseToken => exact alike.leaseManager.release leaseToken
  refine ⟨?_, ?_, ?_, leases, ?_⟩
  · rw [(m.frame_released run).config, (m'.frame_released run).config]
    exact alike.config
  · intro id stored mine
    rw [released_getRun, released_getRun]
    exact alike.runs id stored mine
  · rw [released_queue, released_queue]
    exact alike.queue
  · intro id stored mine found
    rw [released_getRun] at found
    rw [sheet_released, sheet_released]
    exact alike.faces id stored mine found

theorem signal (alike : Alike userId m m') (mine : run.userId = userId)
    (found : m.getRun runId = some run) (reason : String) :
    Alike userId (m.signalled runId reason) (m'.signalled runId reason) := by
  have found' := (alike.runs runId run mine).mp found
  have face := alike.faces runId run mine found
  apply alike.touch (touches_signalled m runId reason) (touches_signalled m' runId reason)
  · rw [signalled_getRun, signalled_getRun, found, found']
  · rw [sheet_signalled, sheet_signalled, if_pos rfl, if_pos rfl]
    simp only [Sheet.face, Face.mk.injEq] at face ⊢
    refine ⟨face.1, face.2.1, ?_⟩
    have contexts := face.2.2
    cases context : (m.sheet runId).context with
    | none =>
        rw [context] at contexts
        rw [Option.map_eq_none_iff.mp contexts.symm]
    | some before =>
        rw [context] at contexts
        obtain ⟨before', context', same⟩ := Option.map_eq_some_iff.mp contexts.symm
        rw [context']
        exact congrArg some (CancellationContext.face_cancel same.symm (some reason))

theorem forget (alike : Alike userId m m') (mine : run.userId = userId)
    (found : m.getRun runId = some run) :
    Alike userId (m.forgotten runId) (m'.forgotten runId) := by
  have found' := (alike.runs runId run mine).mp found
  have face := alike.faces runId run mine found
  apply alike.touch (touches_forgotten m runId) (touches_forgotten m' runId)
  · rw [forgotten_getRun, forgotten_getRun, found, found']
  · rw [sheet_forgotten, sheet_forgotten, if_pos rfl, if_pos rfl]
    simp only [Sheet.face, Face.mk.injEq] at face ⊢
    exact ⟨face.1, face.2.1, trivial⟩

theorem transition (alike : Alike userId m m') (armed : m.timeoutManager.Armed)
    (armed' : m'.timeoutManager.Armed) (mine : run.userId = userId)
    (found : m.getRun runId = some run) (now : Int) (newState : RunState)
    (metadata : TransitionMetadata) :
    Alike userId (m.transitionNow now runId newState metadata).1
        (m'.transitionNow now runId newState metadata).1 ∧
      (m.transitionNow now runId newState metadata).2 =
        (m'.transitionNow now runId newState metadata).2 := by
  have found' := (alike.runs runId run mine).mp found
  have face := alike.faces runId run mine found
  have touches := touches_transition armed now runId newState metadata
  have touches' := touches_transition armed' now runId newState metadata
  by_cases valid : isValidStateTransition run.state newState = true
  · rw [transitionNow_of_valid found valid, transitionNow_of_valid found' valid] at *
    refine ⟨alike.touch touches touches' ?_ ?_, rfl⟩
    · simp [moved, getRun, InMemoryRunRepository.getById]
    · rw [sheet_moved m armed, sheet_moved m' armed', if_pos rfl, if_pos rfl]
      simp only [Sheet.face, Face.mk.injEq] at face ⊢
      refine ⟨?_, ?_, face.2.2⟩
      · split
        · rfl
        · exact face.1
      · split
        · rfl
        · exact face.2.1
  · simp only [transitionNow, found, found', if_neg valid]
    exact ⟨alike, trivial⟩

theorem startRun (alike : Alike userId m m') (armed : m.timeoutManager.Armed)
    (armed' : m'.timeoutManager.Armed) (mine : run.userId = userId)
    (found : m.getRun runId = some run) (clock : Nat → Int) :
    Alike userId (m.startNow clock runId).1 (m'.startNow clock runId).1 ∧
      (m.startNow clock runId).2 = (m'.startNow clock runId).2 := by
  have found' := (alike.runs runId run mine).mp found
  obtain ⟨both, same⟩ := alike.transition armed armed' mine found (clock 1) .running ⟨none, none⟩
  have still := armed_transition armed (clock 1) runId .running ⟨none, none⟩
  have still' := armed_transition armed' (clock 1) runId .running ⟨none, none⟩
  have frame := m.frame_transition (clock 1) runId .running ⟨none, none⟩
  unfold startNow
  generalize m.transitionNow (clock 1) runId .running ⟨none, none⟩ = done at both same still frame ⊢
  generalize m'.transitionNow (clock 1) runId .running ⟨none, none⟩ = done' at both same still' ⊢
  obtain ⟨after, outcome⟩ := done
  obtain ⟨after', outcome'⟩ := done'
  dsimp only at same
  subst same
  cases outcome with
  | error cause => exact ⟨both, rfl⟩
  | ok answer =>
      refine ⟨both.touch (touches_begun still (clock 3) runId answer)
        (touches_begun still' (clock 3) runId answer) ?_ ?_, rfl⟩
      · obtain ⟨stored, at_⟩ := frame.after found
        obtain ⟨before, at_', -, user, -⟩ := frame.before at_
        rw [found] at at_'
        cases at_'
        exact at_.trans ((both.runs runId stored (user.trans mine)).mp at_).symm
      · rw [sheet_begun after still, sheet_begun after' still', if_pos rfl, if_pos rfl]
        rfl

theorem abandon (alike : Alike userId m m') (armed : m.timeoutManager.Armed)
    (armed' : m'.timeoutManager.Armed) (mine : run.userId = userId)
    (found : m.getRun runId = some run) (clock : Nat → Int) (part : Nat) (reason : String)
    (newState : RunState) (text : String) :
    Alike userId (m.abandonNow clock part runId reason newState text run).1
        (m'.abandonNow clock part runId reason newState text run).1 ∧
      (m.abandonNow clock part runId reason newState text run).2 =
        (m'.abandonNow clock part runId reason newState text run).2 := by
  have stored : (m.released run).getRun runId = some run := by rw [released_getRun, found]
  apply ((alike.release run).signal mine stored reason).transition
  · simpa [signalled] using armed
  · simpa [signalled] using armed'
  · exact mine
  · exact stored

theorem endRun (alike : Alike userId m m') (armed : m.timeoutManager.Armed)
    (armed' : m'.timeoutManager.Armed) (mine : run.userId = userId)
    (found : m.getRun runId = some run) (clock : Nat → Int) (newState : RunState)
    (metadata : TransitionMetadata) :
    Alike userId (m.endNow clock runId newState metadata).1
        (m'.endNow clock runId newState metadata).1 ∧
      (m.endNow clock runId newState metadata).2 = (m'.endNow clock runId newState metadata).2 := by
  have found' := (alike.runs runId run mine).mp found
  have stored : (m.released run).getRun runId = some run := by rw [released_getRun, found]
  simp only [endNow, found, found']
  apply ((alike.release run).forget mine stored).transition
  · simpa [forgotten] using armed
  · simpa [forgotten] using armed'
  · exact mine
  · exact stored

theorem removed (alike : Alike userId m m') (runId : RunId) :
    Alike userId { m with queue := (m.queue.remove runId).1 }
      { m' with queue := (m'.queue.remove runId).1 } :=
  ⟨alike.config, alike.runs, alike.queue.remove runId, alike.leaseManager, alike.faces⟩

theorem cancelRun (alike : Alike userId m m') (armed : m.timeoutManager.Armed)
    (armed' : m'.timeoutManager.Armed) (mine : run.userId = userId)
    (found : m.getRun runId = some run) (clock : Nat → Int) (reason : Option String) :
    Alike userId (m.cancelNow clock runId reason).1 (m'.cancelNow clock runId reason).1 ∧
      (m.cancelNow clock runId reason).2 = (m'.cancelNow clock runId reason).2 := by
  have found' := (alike.runs runId run mine).mp found
  simp only [cancelNow, found, found']
  split
  · exact ⟨alike, rfl⟩
  · split
    · exact (alike.removed runId).abandon armed armed' mine found _ _ _ _ _
    · exact alike.abandon armed armed' mine found _ _ _ _ _

theorem cleared (alike : Alike userId m m') (armed : m.timeoutManager.Armed)
    (armed' : m'.timeoutManager.Armed) (mine : run.userId = userId)
    (found : m.getRun runId = some run) :
    Alike userId { m with timeoutManager := (m.timeoutManager.clear runId).1 }
      { m' with timeoutManager := (m'.timeoutManager.clear runId).1 } := by
  have found' := (alike.runs runId run mine).mp found
  have face := alike.faces runId run mine found
  apply alike.touch (touches_cleared armed runId) (touches_cleared armed' runId)
  · exact found.trans found'.symm
  · rw [sheet_cleared m armed, sheet_cleared m' armed', if_pos rfl, if_pos rfl]
    simp only [Sheet.face, Face.mk.injEq] at face ⊢
    exact ⟨trivial, trivial, face.2.2⟩

theorem timeout (alike : Alike userId m m') (armed : m.timeoutManager.Armed)
    (armed' : m'.timeoutManager.Armed) (mine : run.userId = userId)
    (found : m.getRun runId = some run) (clock : Nat → Int) :
    Alike userId (m.timeoutNow clock runId).1 (m'.timeoutNow clock runId).1 ∧
      (m.timeoutNow clock runId).2 = (m'.timeoutNow clock runId).2 := by
  have found' := (alike.runs runId run mine).mp found
  simp only [timeoutNow, found, found']
  split
  · exact ⟨alike, rfl⟩
  · obtain ⟨both, same⟩ := alike.abandon armed armed' mine found clock 1 "timeout" .timedOut
      ("Run exceeded maximum duration of " ++ toString run.maxDurationMs ++ "ms")
    generalize m.abandonNow clock 1 runId "timeout" .timedOut
      ("Run exceeded maximum duration of " ++ toString run.maxDurationMs ++ "ms") run = done
      at both same ⊢
    generalize m'.abandonNow clock 1 runId "timeout" .timedOut
      ("Run exceeded maximum duration of " ++ toString run.maxDurationMs ++ "ms") run = done'
      at both same ⊢
    obtain ⟨after, outcome⟩ := done
    obtain ⟨after', outcome'⟩ := done'
    dsimp only at same
    subst same
    cases outcome <;> exact ⟨both, rfl⟩

theorem enqueue (alike : Alike userId m m') (sane : m.Sane) (sane' : m'.Sane)
    (mine : run.userId = userId) (missing : m.getRun run.id = none)
    (missing' : m'.getRun run.id = none) : Alike userId (m.enqueued run) (m'.enqueued run) := by
  have sheets (n : RunManager) (id : RunId) : (n.enqueued run).sheet id =
      if id = run.id then { n.sheet id with run := some run } else n.sheet id :=
    n.sheet_set run.id run id
  refine ⟨alike.config, ?_, ?_, alike.leaseManager, ?_⟩
  · intro id stored own
    rw [getRun_enqueued, getRun_enqueued]
    split
    · exact Iff.rfl
    · exact alike.runs id stored own
  · unfold enqueued
    rw [mine]
    exact (alike.queue.enqueue run.id).1
  · intro id stored own found
    rw [sheets, sheets]
    rw [getRun_enqueued] at found
    by_cases same : id = run.id
    · rw [if_pos same, if_pos same, same]
      obtain ⟨timeout, context⟩ := sane.blank run.id missing
      obtain ⟨timeout', context'⟩ := sane'.blank run.id missing'
      simp [Sheet.face, sheet, timeout, timeout', context, context',
        InMemoryTimeoutManager.dueAt]
    · rw [if_neg same] at found ⊢
      rw [if_neg same]
      exact alike.faces id stored own found

theorem createdRun_eq (alike : Alike userId m m') (now : Int) (random : String)
    (input : CreateRunInput) (mine : (newRun m.config now random input).userId = userId) :
    m.createdRun now random input = m'.createdRun now random input := by
  have position := (alike.queue.enqueue (newRun m.config now random input).id).2
  unfold createdRun
  rw [← alike.config]
  dsimp only
  rw [mine, position]

theorem of_enqueued (sane : m.Sane) (missing : m.getRun run.id = none)
    (foreign : run.userId ≠ userId) : Alike userId m (m.enqueued run) := by
  refine ⟨rfl, ?_, ?_, .refl userId _, ?_⟩
  · intro id stored mine
    rw [getRun_enqueued]
    split
    · rename_i same
      rw [same, missing]
      simp only [reduceCtorEq, Option.some.injEq, false_iff]
      rintro rfl
      exact foreign mine
    · exact Iff.rfl
  · apply InMemoryRunQueue.alike_enqueue_of_other (Ne.symm foreign)
    intro indexed
    obtain ⟨stored, found, -⟩ := sane.owned run.id userId indexed
    rw [missing] at found
    cases found
  · intro id stored mine found
    have other : id ≠ run.id := by
      rintro rfl
      rw [missing] at found
      cases found
    rw [show (m.enqueued run).sheet id = m.sheet id from
      (m.sheet_set run.id run id).trans (if_neg other)]

theorem leased (alike : Alike userId m m') {leaseManager leaseManager' : InMemoryLeaseManager}
    (leases : leaseManager.Alike userId leaseManager') (mine : run.userId = userId)
    (found : m.getRun runId = some run) (updated : Run) :
    Alike userId
      { m with
        leaseManager
        queue := (m.queue.dequeue userId).1
        repo := ⟨m.repo.runs.set runId updated⟩ }
      { m' with
        leaseManager := leaseManager'
        queue := (m'.queue.dequeue userId).1
        repo := ⟨m'.repo.runs.set runId updated⟩ } := by
  refine ⟨alike.config, ?_, alike.queue.dequeue, leases, ?_⟩
  · intro id stored own
    refine (Iff.of_eq (congrArg (· = _) (m.getRun_set runId updated id))).trans (Iff.trans ?_
      (Iff.of_eq (congrArg (· = _) (m'.getRun_set runId updated id).symm)))
    split
    · exact Iff.rfl
    · exact alike.runs id stored own
  · intro id stored own at_
    have before := alike.faces runId run mine found
    refine (congrArg Sheet.face (m.sheet_set runId updated id)).trans (Eq.trans ?_
      (congrArg Sheet.face (m'.sheet_set runId updated id).symm))
    replace at_ := (m.getRun_set runId updated id).symm.trans at_
    by_cases same : id = runId
    · rw [if_pos same, if_pos same, same]
      exact before
    · rw [if_neg same] at at_ ⊢
      rw [if_neg same]
      exact alike.faces id stored own at_

theorem acquireNextRun (alike : Alike userId m m') (sane : m.Sane) (random : String)
    (clock : Nat → Int) :
    Alike userId (m.acquireNow random clock userId).1 (m'.acquireNow random clock userId).1 ∧
      (m.acquireNow random clock userId).2 = (m'.acquireNow random clock userId).2 := by
  unfold acquireNow
  rw [InMemoryRunQueue.peek_eq_head, InMemoryRunQueue.peek_eq_head, ← alike.queue.lane]
  cases front : (m.queue.getUserRuns userId).head? with
  | none => exact ⟨alike, rfl⟩
  | some nextRunId =>
      by_cases unnamed : nextRunId = ""
      · simp only [if_pos unnamed]
        exact ⟨alike, trivial⟩
      · simp only [if_neg unnamed]
        obtain ⟨same, leases⟩ := alike.leaseManager.acquire (clock 1) random nextRunId
          m.config.leaseTtlMs
        have ttl : m'.config.leaseTtlMs = m.config.leaseTtlMs := by rw [alike.config]
        rw [ttl]
        generalize m.leaseManager.acquire (clock 1) random userId nextRunId m.config.leaseTtlMs = done
          at same leases ⊢
        generalize m'.leaseManager.acquire (clock 1) random userId nextRunId m.config.leaseTtlMs =
          done' at same leases ⊢
        obtain ⟨leaseManager, lease⟩ := done
        obtain ⟨leaseManager', lease'⟩ := done'
        dsimp only at same leases
        subst same
        cases lease with
        | none => exact ⟨⟨alike.config, alike.runs, alike.queue, leases, alike.faces⟩, rfl⟩
        | some lease =>
            obtain ⟨run, found, mine⟩ := sane.queued (List.mem_of_mem_head? front)
            have found' := (alike.runs nextRunId run mine).mp found
            have stored : getRun { m with leaseManager, queue := (m.queue.dequeue userId).1 }
              nextRunId = some run := found
            have stored' : getRun { m' with
              leaseManager := leaseManager', queue := (m'.queue.dequeue userId).1 }
              nextRunId = some run := found'
            simp only [stored, stored']
            exact ⟨alike.leased leases mine found _, trivial⟩

theorem of_abandon {base : RunManager} (sane : base.Sane) (found : base.getRun runId = some run)
    (foreign : run.userId ≠ userId) (clock : Nat → Int) (part : Nat) (reason : String)
    (newState : RunState) (text : String) :
    Alike userId base (base.abandonNow clock part runId reason newState text run).1 := by
  apply (of_release sane found foreign).trans
  apply of_touches (touches_abandon sane.armed clock part runId reason newState text run)
  intro stored at_
  rw [released_getRun, found] at at_
  cases at_
  exact foreign

theorem of_endRun (sane : m.Sane) (found : m.getRun runId = some run)
    (foreign : run.userId ≠ userId) (clock : Nat → Int) (newState : RunState)
    (metadata : TransitionMetadata) :
    Alike userId m (m.endNow clock runId newState metadata).1 := by
  apply (of_release sane found foreign).trans
  apply of_touches (touches_end sane.armed clock newState metadata found)
  intro stored at_
  rw [released_getRun, found] at at_
  cases at_
  exact foreign

theorem of_cancelRun (sane : m.Sane) (found : m.getRun runId = some run)
    (foreign : run.userId ≠ userId) (clock : Nat → Int) (reason : Option String) :
    Alike userId m (m.cancelNow clock runId reason).1 := by
  simp only [cancelNow, found]
  split
  · exact .refl userId m
  · split
    · have removed : Alike userId m { m with queue := (m.queue.remove runId).1 } := by
        refine ⟨rfl, fun _ _ _ => Iff.rfl, ?_, .refl userId _, fun _ _ _ _ => rfl⟩
        apply InMemoryRunQueue.alike_remove_of_other
        intro indexed
        obtain ⟨stored, at_, user⟩ := sane.owned runId userId indexed
        rw [found] at at_
        cases at_
        exact foreign user
      exact removed.trans (of_abandon (sane.remove runId) found foreign _ _ _ _ _)
    · exact of_abandon sane found foreign _ _ _ _ _

theorem of_timeout (sane : m.Sane) (found : m.getRun runId = some run)
    (foreign : run.userId ≠ userId) (clock : Nat → Int) :
    Alike userId m (m.timeoutNow clock runId).1 := by
  by_cases ended : isTerminalState run.state = true
  · simp only [timeoutNow, found, if_pos ended]
    exact .refl userId m
  · rw [timeoutNow_live found ended]
    exact of_abandon sane found foreign _ _ _ _ _

theorem of_acquire (sane : m.Sane) {user : UserId} (foreign : user ≠ userId) (random : String)
    (clock : Nat → Int)
    (unused : (m.leaseManager.isActive (clock 1) user).2 = false →
      m.leaseManager.tokenToUser.get (InMemoryLeaseManager.newToken (clock 1) random) = none) :
    Alike userId m (m.acquireNow random clock user).1 := by
  rcases m.acquire_cases random clock user with
    nothing | ⟨nextRunId, leaseManager, lease, front, granted, ⟨missing, -⟩ | ⟨run, found, took⟩⟩
  · rw [nothing]
    exact .refl userId m
  · obtain ⟨stored, found, -⟩ := sane.queued (List.mem_of_mem_head? front)
    rw [missing] at found
    cases found
  · obtain ⟨stored, found', owner⟩ := sane.queued (List.mem_of_mem_head? front)
    rw [found] at found'
    cases found'
    have leases := InMemoryLeaseManager.alike_acquire_of_other sane.known (clock 1) random nextRunId
      m.config.leaseTtlMs (Ne.symm foreign) unused
    rw [granted] at leases
    rw [took]
    refine ⟨rfl, ?_, InMemoryRunQueue.alike_dequeue_of_other sane.indexed (Ne.symm foreign), leases,
      ?_⟩
    · intro id stored mine
      refine Iff.trans ?_ (Iff.of_eq (congrArg (· = _) (m.getRun_set nextRunId _ id).symm))
      split
      · rename_i same
        rw [same, found]
        simp only [Option.some.injEq]
        constructor
        · rintro rfl
          exact absurd (owner.symm.trans mine) foreign
        · rintro rfl
          exact absurd (owner.symm.trans mine) foreign
      · exact Iff.rfl
    · intro id stored mine at_
      refine Eq.trans ?_ (congrArg Sheet.face (m.sheet_set nextRunId _ id).symm)
      have other : id ≠ nextRunId := by
        rintro rfl
        rw [found] at at_
        cases at_
        exact foreign (owner.symm.trans mine)
      rw [if_neg other]

end Alike

structure Alone (userId : UserId) (m : RunManager) : Prop where
  runs : ∀ runId run, m.getRun runId = some run → run.userId = userId
  tokens : ∀ token user, m.leaseManager.tokenToUser.get token = some user → user = userId

namespace Alone

variable {userId : UserId} {m m' : RunManager} {runId : RunId} {run : Run}

theorem init (userId : UserId) (config : RunManagerConfig) : (init config).Alone userId where
  runs := by
    intro runId run found
    cases found
  tokens := by
    intro token user found
    cases found

theorem touch (alone : m.Alone userId) (touches : Touches m m' runId) : m'.Alone userId where
  runs := by
    intro id after found
    obtain ⟨before, found', -, user, -⟩ := touches.before found
    rw [user]
    exact alone.runs id before found'
  tokens := by
    rw [touches.leaseManager]
    exact alone.tokens

theorem release (alone : m.Alone userId) (run : Run) : (m.released run).Alone userId where
  runs := by
    rw [released_getRun]
    exact alone.runs
  tokens := by
    intro token user indexed
    apply alone.tokens token user
    unfold released at indexed
    split at indexed
    · exact indexed
    · rename_i leaseToken carries
      dsimp only at indexed
      rcases m.leaseManager.release_cases leaseToken with ⟨same, -⟩ | ⟨holder, lease, -, -, tokens⟩
      · rwa [same] at indexed
      · rw [tokens] at indexed
        exact (EsMap.get_of_get_delete _ _ indexed).2

theorem abandon (alone : m.Alone userId) (armed : m.timeoutManager.Armed) (clock : Nat → Int)
    (part : Nat) (runId : RunId) (reason : String) (newState : RunState) (text : String) (run : Run) :
    (m.abandonNow clock part runId reason newState text run).1.Alone userId :=
  (alone.release run).touch (touches_abandon armed clock part runId reason newState text run)

theorem endRun (alone : m.Alone userId) (armed : m.timeoutManager.Armed) (clock : Nat → Int)
    (runId : RunId) (newState : RunState) (metadata : TransitionMetadata) :
    (m.endNow clock runId newState metadata).1.Alone userId := by
  cases found : m.getRun runId with
  | none =>
      simp only [endNow, found]
      exact alone
  | some run => exact (alone.release run).touch (touches_end armed clock newState metadata found)

theorem cancelRun (alone : m.Alone userId) (armed : m.timeoutManager.Armed) (clock : Nat → Int)
    (runId : RunId) (reason : Option String) :
    (m.cancelNow clock runId reason).1.Alone userId := by
  unfold cancelNow
  split
  · exact alone
  · split
    · exact alone
    · split
      · exact abandon (m := { m with queue := (m.queue.remove runId).1 })
          ⟨alone.runs, alone.tokens⟩ armed _ _ _ _ _ _ _
      · exact alone.abandon armed _ _ _ _ _ _ _

theorem timeout (alone : m.Alone userId) (armed : m.timeoutManager.Armed) (clock : Nat → Int)
    (runId : RunId) : (m.timeoutNow clock runId).1.Alone userId := by
  cases found : m.getRun runId with
  | none =>
      simp only [timeoutNow, found]
      exact alone
  | some run =>
      by_cases ended : isTerminalState run.state = true
      · simp only [timeoutNow, found, if_pos ended]
        exact alone
      · rw [timeoutNow_live found ended]
        exact alone.abandon armed _ _ _ _ _ _ _

theorem enqueue (alone : m.Alone userId) (mine : run.userId = userId) :
    (m.enqueued run).Alone userId where
  runs := by
    intro id stored found
    rw [getRun_enqueued] at found
    split at found
    · cases found
      exact mine
    · exact alone.runs id stored found
  tokens := alone.tokens

theorem acquireNextRun (alone : m.Alone userId) (random : String) (clock : Nat → Int) :
    (m.acquireNow random clock userId).1.Alone userId := by
  rcases m.acquire_cases random clock userId with
    nothing | ⟨nextRunId, leaseManager, lease, front, granted, leased⟩
  · rw [nothing]
    exact alone
  · have tokens (token : String) (user : UserId)
        (indexed : leaseManager.tokenToUser.get token = some user) : user = userId := by
      rcases m.leaseManager.acquire_cases (clock 1) random userId nextRunId m.config.leaseTtlMs with
        ⟨held, -, -, refused⟩ | ⟨-, after, acquired, -, mine, -⟩
      · rw [granted] at refused
        cases refused
      · rw [granted] at acquired
        cases acquired
        by_cases new : token = InMemoryLeaseManager.newToken (clock 1) random
        · rw [new, mine] at indexed
          exact (Option.some.inj indexed).symm
        · have before : m.leaseManager.tokenToUser.get token = some user :=
            InMemoryLeaseManager.tokenToUser_of_acquire new (by rw [granted]; exact indexed)
          exact alone.tokens token user before
    rcases leased with ⟨-, refused⟩ | ⟨run, found, took⟩
    · rw [refused]
      exact ⟨alone.runs, tokens⟩
    · rw [took]
      refine ⟨?_, tokens⟩
      intro id stored at_
      replace at_ := (m.getRun_set nextRunId _ id).symm.trans at_
      split at at_
      · cases at_
        exact alone.runs nextRunId run found
      · exact alone.runs id stored at_

theorem missing (alone : m'.Alone userId) (alike : Alike userId m m')
    (absent : m.getRun runId = none) : m'.getRun runId = none := by
  cases found : m'.getRun runId with
  | none => rfl
  | some run =>
      have mine := alone.runs runId run found
      rw [(alike.runs runId run mine).mpr found] at absent
      cases absent

end Alone

end RunManager

namespace Operation

/-- The owner that an operation concerns: the one it names, or the one of the run it names. -/
def owner (m : RunManager) (op : Operation) : Option UserId :=
  match op.action with
  | .call (.createRun random input) =>
    some (RunManager.newRun m.config (op.clock 0) random input).userId
  | .call (.acquireNextRun userId) => some userId
  | .call (.startRun runId) => m.userOf runId
  | .call (.cancelRun runId _) => m.userOf runId
  | .call (.completeRun runId _) => m.userOf runId
  | .call (.failRun runId _) => m.userOf runId
  | .fire runId => m.userOf runId

/-- The operation of somebody else. -/
theorem alike_of_foreign {m m' : RunManager} {op : Operation} {outcome : Settlement (Option Run)}
    {user userId : UserId} (sane : m.Sane) (fresh : op.Fresh m) (owner : op.owner m = some user)
    (foreign : user ≠ userId) (done : op.perform m = some (m', outcome)) :
    RunManager.Alike userId m m' := by
  unfold Fresh at fresh
  unfold Operation.owner at owner
  have stored (runId : RunId) (at_ : m.userOf runId = some user) :
      ∃ run, m.getRun runId = some run ∧ run.userId ≠ userId := by
    obtain ⟨run, found, rfl⟩ := Option.map_eq_some_iff.mp at_
    exact ⟨run, found, foreign⟩
  rcases perform_cases done with ⟨request, called, ran⟩ | ⟨runId, name, expired, fires, due, ran⟩
  · rw [called] at fresh owner
    cases request with
    | createRun random input =>
        rw [Call.now, RunManager.createNow_eq] at ran
        rw [← (Prod.mk.inj ran).1]
        have missing : m.getRun (m.createdRun (op.clock 0) random input).id = none :=
          Option.map_eq_none_iff.mp fresh
        apply RunManager.Alike.of_enqueued sane missing
        rw [show (m.createdRun (op.clock 0) random input).userId = user from Option.some.inj owner]
        exact foreign
    | acquireNextRun asked =>
        have after : (m.acquireNow op.random op.clock asked).1 = m' := congrArg Prod.fst ran
        rw [← after]
        cases owner
        exact RunManager.Alike.of_acquire sane foreign op.random op.clock
          (fun idle => by simpa [EsMap.has] using (fresh idle).1)
    | startRun runId =>
        obtain ⟨run, found, other⟩ := stored runId owner
        rw [← (Call.now_eq ran).1]
        apply RunManager.Alike.of_touches (RunManager.touches_start sane.armed op.clock runId)
        intro run' found'
        rw [found] at found'
        cases found'
        exact other
    | cancelRun runId reason =>
        obtain ⟨run, found, other⟩ := stored runId owner
        rw [← (Call.now_eq ran).1]
        exact RunManager.Alike.of_cancelRun sane found other op.clock reason
    | completeRun runId finalMessages =>
        obtain ⟨run, found, other⟩ := stored runId owner
        rw [← (Call.now_eq ran).1]
        exact RunManager.Alike.of_endRun sane found other op.clock _ _
    | failRun runId error =>
        obtain ⟨run, found, other⟩ := stored runId owner
        rw [← (Call.now_eq ran).1]
        exact RunManager.Alike.of_endRun sane found other op.clock _ _
  · rw [fires] at owner
    have after := sane.expire due
    obtain ⟨rfl, rfl⟩ := expire_eq_some sane.armed due
    obtain ⟨run, found, other⟩ := stored name owner
    have cleared : RunManager.Alike userId m
        { m with timeoutManager := (m.timeoutManager.clear name).1 } := by
      apply RunManager.Alike.of_touches (RunManager.touches_cleared sane.armed name)
      intro run' found'
      rw [found] at found'
      cases found'
      exact other
    have timed := RunManager.Alike.of_timeout after found other op.clock
    rw [ran] at timed
    exact cleared.trans timed

/-- Performing an operation; where no timer is due, nothing happens. -/
def attempt (m : RunManager) (op : Operation) : RunManager × Option (Settlement (Option Run)) :=
  match op.perform m with
  | none => (m, none)
  | some (m, outcome) => (m, some outcome)

theorem expire_eq {m : RunManager} (armed : m.timeoutManager.Armed) (now : Int) (runId : RunId) :
    expire m now runId =
      match (m.sheet runId).due with
      | none => none
      | some due =>
        if due ≤ now then
          some ({ m with timeoutManager := (m.timeoutManager.clear runId).1 }, runId)
        else none := by
  cases found : m.timeoutManager.timeouts.get runId with
  | none => simp [expire, found, RunManager.sheet, InMemoryTimeoutManager.dueAt]
  | some handle =>
      obtain ⟨timer, set, owner⟩ := armed.armed runId handle found
      have due : (m.sheet runId).due = some timer.due := by
        simp [RunManager.sheet, InMemoryTimeoutManager.dueAt, found, set]
      rw [due]
      by_cases late : timer.due ≤ now
      · simp only [if_pos late]
        have fired : m.timeoutManager.fire now handle.timer =
            some (runId, timer.onTimeout, (m.timeoutManager.clear runId).1) := by
          simp [InMemoryTimeoutManager.fire, set, late, owner, InMemoryTimeoutManager.clear, found,
            InMemoryTimeoutManager.clearHandle]
        simp [expire, found, fired]
      · simp [expire, found, InMemoryTimeoutManager.fire, set, late]

theorem attempt_call {m : RunManager} {op : Operation} {request : Request}
    (called : op.action = .call request) :
    op.attempt m = ((Call.now m op.random op.clock request).1,
      some (Call.now m op.random op.clock request).2) := by
  simp only [attempt, perform, called, Call.perform_eq]

theorem attempt_fire {m : RunManager} {op : Operation} {runId : RunId}
    (fires : op.action = .fire runId) :
    op.attempt m =
      match expire m (op.clock 0) runId with
      | none => (m, none)
      | some (expired, owner) => ((expired.timeoutNow op.clock owner).1,
          some (expired.timeoutNow op.clock owner).2) := by
  simp only [attempt, perform, fires]
  cases expire m (op.clock 0) runId with
  | none => rfl
  | some due => simp only [timeout_parts]

theorem attempt_sane {m : RunManager} {op : Operation} (sane : m.Sane) (fresh : op.Fresh m) :
    (op.attempt m).1.Sane := by
  unfold attempt
  cases done : op.perform m with
  | none => exact sane
  | some after => exact sane.perform fresh done

section

variable {m m' : RunManager} {userId : UserId} {op : Operation}

theorem fresh_alone (alike : RunManager.Alike userId m m') (alone : m'.Alone userId)
    (own : ∀ user, op.owner m = some user → user = userId) (fresh : op.Fresh m) : op.Fresh m' := by
  unfold Fresh at fresh ⊢
  unfold Operation.owner at own
  split at fresh
  · exact Option.map_eq_none_iff.mpr (alone.missing alike (Option.map_eq_none_iff.mp fresh))
  · rename_i user called
    simp only [called] at own
    cases own user rfl
    intro idle
    have same : (m.leaseManager.isActive (op.clock 1) userId).2 =
        (m'.leaseManager.isActive (op.clock 1) userId).2 := by
      unfold InMemoryLeaseManager.isActive
      rw [alike.leaseManager.lease]
      split
      · rfl
      · split <;> rfl
    obtain ⟨unknown, unused⟩ := fresh (same.trans idle)
    constructor
    · by_contra known
      rw [Bool.not_eq_false] at known
      obtain ⟨holder, indexed⟩ := Option.isSome_iff_exists.mp known
      cases alone.tokens _ holder indexed
      rw [EsMap.has, (alike.leaseManager.tokens _).mpr indexed] at unknown
      cases unknown
    · intro run member
      obtain ⟨runId, found⟩ := (EsMap.mem_values_iff _ _).mp member
      have mine := alone.runs runId run found
      exact unused run ((EsMap.mem_values_iff _ _).mpr ⟨runId, (alike.runs runId run mine).mpr found⟩)
  · trivial

theorem attempt_own (alike : RunManager.Alike userId m m') (sane : m.Sane) (sane' : m'.Sane)
    (alone : m'.Alone userId) (own : ∀ user, op.owner m = some user → user = userId)
    (fresh : op.Fresh m) :
    (op.attempt m).2 = (op.attempt m').2 ∧
      RunManager.Alike userId (op.attempt m).1 (op.attempt m').1 ∧
      (op.attempt m').1.Alone userId := by
  unfold Operation.owner at own
  have stored (runId : RunId) (mine : ∀ user, m.userOf runId = some user → user = userId) :
      (m.getRun runId = none ∧ m'.getRun runId = none) ∨
        ∃ run, m.getRun runId = some run ∧ run.userId = userId := by
    cases found : m.getRun runId with
    | none => exact .inl ⟨rfl, alone.missing alike found⟩
    | some run => exact .inr ⟨run, rfl, mine run.userId (congrArg (Option.map Run.userId) found)⟩
  have settle {done done' : RunManager × Settlement Run}
      (both : RunManager.Alike userId done.1 done'.1 ∧ done.2 = done'.2) :
      some (done.2.map some) = some (done'.2.map some) ∧
        RunManager.Alike userId done.1 done'.1 := ⟨by rw [both.2], both.1⟩
  cases called : op.action with
  | call request =>
      rw [attempt_call called, attempt_call called]
      simp only [called] at own
      cases request with
      | createRun random input =>
          have mine := own _ rfl
          have fresh' := fresh_alone alike alone (by simpa [Operation.owner, called] using own) fresh
          simp only [Fresh, called] at fresh fresh'
          have same := alike.createdRun_eq (op.clock 0) random input mine
          simp only [Call.now, RunManager.createNow_eq, ← same]
          have missing : m.getRun (m.createdRun (op.clock 0) random input).id = none :=
            Option.map_eq_none_iff.mp fresh
          exact ⟨trivial, alike.enqueue sane sane' mine missing (alone.missing alike missing),
            alone.enqueue mine⟩
      | acquireNextRun user =>
          cases own user rfl
          obtain ⟨both, same⟩ := alike.acquireNextRun sane op.random op.clock
          exact ⟨congrArg some same, both, alone.acquireNextRun op.random op.clock⟩
      | startRun runId =>
          rcases stored runId own with ⟨absent, absent'⟩ | ⟨run, found, mine⟩
          · simp only [Call.now, RunManager.startNow, RunManager.transitionNow, absent, absent']
            exact ⟨rfl, alike, alone⟩
          · have both := settle (alike.startRun sane.armed sane'.armed mine found op.clock)
            exact ⟨both.1, both.2, alone.touch (RunManager.touches_start sane'.armed op.clock runId)⟩
      | cancelRun runId reason =>
          rcases stored runId own with ⟨absent, absent'⟩ | ⟨run, found, mine⟩
          · simp only [Call.now, RunManager.cancelNow, absent, absent']
            exact ⟨rfl, alike, alone⟩
          · have both := settle (alike.cancelRun sane.armed sane'.armed mine found op.clock reason)
            exact ⟨both.1, both.2, alone.cancelRun sane'.armed op.clock runId reason⟩
      | completeRun runId finalMessages =>
          rcases stored runId own with ⟨absent, absent'⟩ | ⟨run, found, mine⟩
          · simp only [Call.now, RunManager.endNow, absent, absent']
            exact ⟨rfl, alike, alone⟩
          · have both := settle (alike.endRun sane.armed sane'.armed mine found op.clock .completed
              ⟨none, finalMessages⟩)
            exact ⟨both.1, both.2, alone.endRun sane'.armed op.clock runId _ _⟩
      | failRun runId error =>
          rcases stored runId own with ⟨absent, absent'⟩ | ⟨run, found, mine⟩
          · simp only [Call.now, RunManager.endNow, absent, absent']
            exact ⟨rfl, alike, alone⟩
          · have both := settle (alike.endRun sane.armed sane'.armed mine found op.clock .failed
              ⟨some error, none⟩)
            exact ⟨both.1, both.2, alone.endRun sane'.armed op.clock runId _ _⟩
  | fire runId =>
      simp only [called] at own
      rw [attempt_fire called, attempt_fire called, expire_eq sane.armed, expire_eq sane'.armed]
      rcases stored runId own with ⟨absent, absent'⟩ | ⟨run, found, mine⟩
      · have idle := (sane.blank runId absent).1
        have idle' := (sane'.blank runId absent').1
        simp only [RunManager.sheet, InMemoryTimeoutManager.dueAt, idle, idle']
        exact ⟨rfl, alike, alone⟩
      · have due : (m.sheet runId).due = (m'.sheet runId).due :=
          congrArg Face.due (alike.faces runId run mine found)
        rw [← due]
        cases (m.sheet runId).due with
        | none => exact ⟨rfl, alike, alone⟩
        | some time =>
            by_cases late : time ≤ op.clock 0
            · simp only [if_pos late]
              have cleared := alike.cleared sane.armed sane'.armed mine found
              obtain ⟨both, same⟩ := cleared.timeout (sane.armed.clear runId)
                (sane'.armed.clear runId) mine found op.clock
              refine ⟨congrArg some same, both, ?_⟩
              exact (alone.touch (RunManager.touches_cleared sane'.armed runId)).timeout
                (sane'.armed.clear runId) op.clock runId
            · simp only [if_neg late]
              exact ⟨trivial, alike, alone⟩

end

end Operation

/-- An operation of a sequence, with the owner it concerned and its result; none where no timer
was due. -/
structure Performed where
  operation : Operation
  owner : Option UserId
  result : Option (Settlement (Option Run))

def RunManager.record : RunManager → List Operation → List Performed
  | _, [] => []
  | m, op :: rest => ⟨op, op.owner m, (op.attempt m).2⟩ :: RunManager.record (op.attempt m).1 rest

def RunManager.after : RunManager → List Operation → RunManager
  | m, [] => m
  | m, op :: rest => RunManager.after (op.attempt m).1 rest

/-- All ids and tokens that a sequence generates are new when they are generated. -/
def RunManager.AllFresh : RunManager → List Operation → Prop
  | _, [] => True
  | m, op :: rest => op.Fresh m ∧ RunManager.AllFresh (op.attempt m).1 rest

instance RunManager.decidableAllFresh :
    (m : RunManager) → (ops : List Operation) → Decidable (m.AllFresh ops)
  | _, [] => isTrue trivial
  | m, op :: rest =>
    have := RunManager.decidableAllFresh (op.attempt m).1 rest
    inferInstanceAs (Decidable (op.Fresh m ∧ _))

/-- The operation does not concern a run or the lane of somebody else. -/
def Performed.own (userId : UserId) (performed : Performed) : Bool :=
  performed.owner = none || performed.owner = some userId

theorem RunManager.record_alone {m m' : RunManager} {userId : UserId} (ops : List Operation)
    (fresh : m.AllFresh ops) (alike : Alike userId m m') (sane : m.Sane) (sane' : m'.Sane)
    (alone : m'.Alone userId) :
    (m'.record (((m.record ops).filter (Performed.own userId)).map Performed.operation)).map
        Performed.result = ((m.record ops).filter (Performed.own userId)).map Performed.result ∧
      Alike userId (m.after ops)
        (m'.after (((m.record ops).filter (Performed.own userId)).map Performed.operation)) := by
  induction ops generalizing m m' with
  | nil => exact ⟨rfl, alike⟩
  | cons op rest ih =>
      obtain ⟨new, later⟩ := fresh
      have next := Operation.attempt_sane sane new
      by_cases own : op.owner m = none ∨ op.owner m = some userId
      · -- the operation is performed in both sequences
        have mine (user : UserId) (owner : op.owner m = some user) : user = userId := by
          rcases own with unknown | known
          · rw [unknown] at owner
            cases owner
          · rw [known] at owner
            exact (Option.some.inj owner).symm
        have kept : Performed.own userId ⟨op, op.owner m, (op.attempt m).2⟩ = true := by
          simpa [Performed.own] using own
        obtain ⟨same, both, still⟩ := Operation.attempt_own alike sane sane' alone mine new
        have next' := Operation.attempt_sane sane' (Operation.fresh_alone alike alone mine new)
        obtain ⟨results, final⟩ := ih later both next next' still
        simp only [record, List.filter_cons_of_pos kept, List.map_cons, after]
        exact ⟨by rw [results, same], final⟩
      · -- somebody else's operation changes nothing that the owner can see
        rw [not_or] at own
        obtain ⟨user, owner⟩ := Option.ne_none_iff_exists'.mp own.1
        have foreign : user ≠ userId := by
          rintro rfl
          exact own.2 owner
        have dropped : ¬Performed.own userId ⟨op, op.owner m, (op.attempt m).2⟩ = true := by
          simp [Performed.own, owner, foreign]
        have unseen : Alike userId m (op.attempt m).1 := by
          unfold Operation.attempt
          cases done : op.perform m with
          | none => exact .refl userId m
          | some result => exact Operation.alike_of_foreign sane new owner foreign done
        simp only [record, List.filter_cons_of_neg dropped, after]
        exact ih later (unseen.symm.trans alike) next sane' alone

/-- Without the operations that concern others, an owner gets the same results and sees the same
stores. -/
theorem RunManager.owners_do_not_interfere (config : RunManagerConfig) (userId : UserId)
    (ops : List Operation) (fresh : (init config).AllFresh ops) :
    ((init config).record ((((init config).record ops).filter (Performed.own userId)).map
        Performed.operation)).map Performed.result =
      (((init config).record ops).filter (Performed.own userId)).map Performed.result ∧
    Alike userId ((init config).after ops)
      ((init config).after ((((init config).record ops).filter (Performed.own userId)).map
        Performed.operation)) :=
  record_alone ops fresh (.refl userId _) (.init config) (.init config) (.init userId config)

/-- Two owners' runs are created and leased in turn, and one of them sees no difference without
the other. -/
theorem RunManager.second_owner_is_not_seen :
    let ops : List Operation :=
      [⟨.call (.createRun "a" ⟨some ⟨"acme", "alice"⟩, none, "pack", "one", none⟩), "", fun _ => 0⟩,
        ⟨.call (.createRun "b" ⟨some ⟨"acme", "bob"⟩, none, "pack", "two", none⟩), "", fun _ => 1⟩,
        ⟨.call (.acquireNextRun "acme:alice"), "t", fun _ => 2⟩,
        ⟨.call (.acquireNextRun "acme:bob"), "u", fun _ => 3⟩,
        ⟨.call (.startRun "run_0_a"), "", fun _ => 4⟩,
        ⟨.call (.cancelRun "run_1_b" none), "", fun _ => 5⟩,
        ⟨.fire "run_0_a", "", fun _ => 600004⟩]
    (init .default).AllFresh ops ∧
      Alike "acme:alice" ((init .default).after ops)
        ((init .default).after ((((init .default).record ops).filter
          (Performed.own "acme:alice")).map Performed.operation)) := by
  intro ops
  have fresh : (init .default).AllFresh ops := by decide +kernel
  exact ⟨fresh, (owners_do_not_interfere .default "acme:alice" ops fresh).2⟩

end Minerva
