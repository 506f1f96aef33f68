import Minerva.Services.LeaseHistory

/-! Leases that have ended, and the calls that bring one back: `extend` does not look at the clock
as `acquire`, `isActive` and `getLease` do. -/

namespace Minerva

namespace InMemoryLeaseManager

variable {m m' : InMemoryLeaseManager} {now : Int} {token : String} {gone : Lease → Prop}

theorem getLease_eq_none_iff (m : InMemoryLeaseManager) (now : Int) (token : String) :
    m.getLease now token = none ↔
      ∀ userId lease, m.held token = some (userId, lease) → lease.expiresAt ≤ now := by
  unfold getLease
  cases place : m.held token with
  | none => simp
  | some entry =>
      obtain ⟨user, held⟩ := entry
      by_cases expired : held.expiresAt ≤ now
      · simp only [if_pos expired, Option.some.injEq, Prod.mk.injEq, true_iff]
        rintro _ _ ⟨_, rfl⟩
        exact expired
      · simp only [if_neg expired, reduceCtorEq, false_iff]
        exact fun all => expired (all user held rfl)

theorem Keeps.held (kept : Keeps gone m m') {userId : UserId} {lease : Lease}
    (place : m'.held token = some (userId, lease)) : m.held token = some (userId, lease) := by
  obtain ⟨indexed, named, found, carries⟩ := (m'.held_eq_some token userId lease).mp place
  exact (m.held_eq_some token userId lease).mpr
    ⟨kept.tokens _ _ indexed, named, kept.leases _ _ found, carries⟩

/-- An acquisition does not change what the tokens that it does not draw find, but that a lease
that it replaces is not found any more. -/
theorem held_of_acquire {random : String} {userId user : UserId} {runId : RunId} {ttlMs : Int}
    {lease : Lease} (other : newToken now random ≠ token)
    (place : (m.acquire now random userId runId ttlMs).1.held token = some (user, lease)) :
    m.held token = some (user, lease) := by
  obtain ⟨indexed, named, found, carries⟩ := (held_eq_some _ token user lease).mp place
  have before := tokenToUser_of_acquire other.symm indexed
  rcases m.acquire_cases now random userId runId ttlMs with ⟨held, _, _, refused⟩ |
    ⟨_, manager, acquired, leases, _⟩
  · rwa [refused] at place
  · rw [acquired] at found
    simp only at found
    rw [leases] at found
    rcases EsMap.get_set_cases m.leases userId found with ⟨-, rfl⟩ | ⟨-, earlier⟩
    · exact absurd carries other
    · exact (m.held_eq_some token user lease).mpr ⟨before, named, earlier, carries⟩

theorem held_drawn {random : String} {userId : UserId} {runId : RunId} {ttlMs : Int}
    (inactive : (m.isActive now userId).2 = false) (user : UserId) (lease : Lease) :
    (m.acquire now random userId runId ttlMs).1.held (newToken now random) = some (user, lease) ↔
      user = userId ∧ userId ≠ "" ∧
        lease = ⟨runId, newToken now random, now, now + ttlMs⟩ := by
  rcases m.acquire_cases now random userId runId ttlMs with ⟨held, found, live, _⟩ |
    ⟨_, manager, acquired, leases, mine, _⟩
  · exact absurd (expired_of_inactive inactive found) (Int.not_le.mpr live)
  · rw [acquired, held_eq_some, mine, leases]
    constructor
    · rintro ⟨same, named, found, _⟩
      cases same
      rw [EsMap.get_set_self, Option.some_inj] at found
      exact ⟨rfl, named, found.symm⟩
    · rintro ⟨rfl, named, rfl⟩
      exact ⟨rfl, named, EsMap.get_set_self _ _ _, rfl⟩

theorem held_of_set {userId : UserId} {lease changed : Lease}
    (found : m.leases.get userId = some lease) (other : lease.token ≠ token)
    (same : changed.token = lease.token) :
    held ⟨m.leases.set userId changed, m.tokenToUser⟩ token = m.held token := by
  have agree : ∀ place, held ⟨m.leases.set userId changed, m.tokenToUser⟩ token = some place ↔
      m.held token = some place := by
    rintro ⟨user, held⟩
    rw [held_eq_some, held_eq_some]
    by_cases here : user = userId
    · subst here
      constructor
      · rintro ⟨_, _, stored, carries⟩
        rw [EsMap.get_set_self, Option.some_inj] at stored
        exact absurd (same.symm.trans ((congrArg Lease.token stored).trans carries)) other
      · rintro ⟨_, _, stored, carries⟩
        rw [found, Option.some_inj] at stored
        exact absurd ((congrArg Lease.token stored).trans carries) other
    · rw [EsMap.get_set_of_ne _ _ _ _ here]
  exact Option.ext agree

end InMemoryLeaseManager

namespace LeaseHistory

/-- The token was granted, and its lease is not there any more. -/
def Ended (s : LeaseHistory) (token : String) : Prop :=
  token ∈ s.grants.map Grant.token ∧ s.manager.getLease s.now token = none

/-- The call extends a lease that has expired and is still stored, or it draws the token again for
a lease that lasts. -/
def Revives (s : LeaseHistory) (token : String) : LeaseCall → Prop
  | .extend leaseToken _ => leaseToken = token ∧ (s.manager.held token).isSome = true
  | .acquire random userId _ ttlMs =>
    InMemoryLeaseManager.newToken s.now random = token ∧ userId ≠ "" ∧ 0 < ttlMs ∧
      (s.manager.isActive s.now userId).2 = false
  | _ => False

instance (s : LeaseHistory) (token : String) : Decidable (s.Ended token) :=
  inferInstanceAs (Decidable (_ ∧ _))

instance (s : LeaseHistory) (token : String) (call : LeaseCall) :
    Decidable (s.Revives token call) :=
  match call with
  | .extend _ _ | .acquire _ _ _ _ => inferInstanceAs (Decidable (_ ∧ _))
  | .release _ | .isActive _ | .getActiveRun _ | .getLease _ | .cleanupExpired | .wait _ =>
    instDecidableFalse

/-- What the ending of a lease means for a call: the lease stays away, and is not extended. -/
def Respects (s : LeaseHistory) (token : String) (call : LeaseCall) : Prop :=
  (s.after call).Ended token ∧
    ∀ ms, call = .extend token ms → s.manager.extend token ms = .error "Lease not found"

variable {s t : LeaseHistory} {token : String} {call : LeaseCall}

theorem tokens_after (s : LeaseHistory) (call : LeaseCall)
    (granted : token ∈ s.grants.map Grant.token) :
    token ∈ (s.after call).grants.map Grant.token := by
  cases call with
  | acquire random userId runId ttlMs =>
      simp only [after]
      split
      · exact granted
      · rw [List.map_append]
        exact List.mem_append_left _ granted
  | release leaseToken =>
      exact (naming_tokens leaseToken Grant.release (fun _ => rfl) s.grants).symm ▸ granted
  | extend leaseToken ms =>
      simp only [after]
      split
      · exact granted
      · exact (naming_tokens leaseToken (Grant.extend ms) (fun _ => rfl) s.grants).symm ▸ granted
  | isActive userId => exact granted
  | getActiveRun userId => exact granted
  | getLease leaseToken => exact granted
  | cleanupExpired => exact granted
  | wait ms => exact granted

theorem Ended.cleaned (ended : s.Ended token) {gone : Lease → Prop}
    {manager : InMemoryLeaseManager} (kept : s.manager.Keeps gone manager) :
    manager.getLease s.now token = none := by
  rw [InMemoryLeaseManager.getLease_eq_none_iff]
  intro userId lease place
  exact (InMemoryLeaseManager.getLease_eq_none_iff _ _ _).mp ended.2 userId lease (kept.held place)

theorem Ended.acquire (ended : s.Ended token) (random : String) (userId : UserId) (runId : RunId)
    (ttlMs : Int) :
    (s.manager.acquire s.now random userId runId ttlMs).1.getLease s.now token = none ↔
      ¬s.Revives token (.acquire random userId runId ttlMs) := by
  have before := (InMemoryLeaseManager.getLease_eq_none_iff _ _ _).mp ended.2
  rw [InMemoryLeaseManager.getLease_eq_none_iff]
  by_cases drawn : InMemoryLeaseManager.newToken s.now random = token
  · cases active : (s.manager.isActive s.now userId).2 with
    | true =>
        have refused : s.manager.acquire s.now random userId runId ttlMs = (s.manager, none) := by
          rcases s.manager.acquire_cases s.now random userId runId ttlMs with ⟨_, _, _, refused⟩ |
            ⟨_, manager, acquired, _⟩
          · exact refused
          · have granted : (s.manager.acquire s.now random userId runId ttlMs).2 = some _ :=
              congrArg Prod.snd acquired
            rw [(InMemoryLeaseManager.inactive_of_acquire granted).1] at active
            cases active
        rw [refused]
        constructor
        · rintro _ ⟨_, _, _, inactive⟩
          rw [active] at inactive
          cases inactive
        · exact fun _ => before
    | false =>
        subst drawn
        constructor
        · rintro ended' ⟨_, named, lasts, _⟩
          have past := ended' userId _
            ((InMemoryLeaseManager.held_drawn active userId _).mpr ⟨rfl, named, rfl⟩)
          simp only at past
          omega
        · intro quiet user lease place
          obtain ⟨_, named, rfl⟩ := (InMemoryLeaseManager.held_drawn active user lease).mp place
          have short : ¬0 < ttlMs := fun lasts => quiet ⟨rfl, named, lasts, active⟩
          simp only
          omega
  · constructor
    · rintro _ ⟨same, _⟩
      exact drawn same
    · intro _ user lease place
      exact before user lease (InMemoryLeaseManager.held_of_acquire drawn place)

theorem Ended.extend (ended : s.Ended token) (leaseToken : String) (ms : Int) :
    s.Respects token (.extend leaseToken ms) ↔ ¬s.Revives token (.extend leaseToken ms) := by
  have tokens := tokens_after s (.extend leaseToken ms) ended.1
  by_cases same : leaseToken = token
  · subst same
    rcases s.manager.extend_cases leaseToken ms with ⟨absent, refused⟩ | ⟨user, lease, place, moved⟩
    · constructor
      · rintro _ ⟨_, stored⟩
        rw [absent] at stored
        cases stored
      · intro _
        have still : s.after (.extend leaseToken ms) = s := by simp only [after, refused]
        constructor
        · rw [still]
          exact ended
        · rintro other ⟨⟩
          exact refused
    · constructor
      · rintro ⟨_, rejected⟩
        have refused := rejected ms rfl
        rw [moved] at refused
        cases refused
      · intro quiet
        exact absurd ⟨rfl, by rw [place]; rfl⟩ quiet
  · constructor
    · rintro _ ⟨named, _⟩
      exact same named
    · intro _
      refine ⟨⟨tokens, ?_⟩, fun other named => absurd (LeaseCall.extend.inj named).1 same⟩
      rcases s.manager.extend_cases leaseToken ms with ⟨_, refused⟩ | ⟨user, lease, place, moved⟩
      · simp only [after, refused]
        exact ended.2
      · obtain ⟨_, _, found, carries⟩ := (s.manager.held_eq_some leaseToken user lease).mp place
        have apart : lease.token ≠ token := fun here => same (carries.symm.trans here)
        have unchanged : InMemoryLeaseManager.held
            ⟨s.manager.leases.set user { lease with expiresAt := lease.expiresAt + ms },
              s.manager.tokenToUser⟩ token = s.manager.held token :=
          InMemoryLeaseManager.held_of_set found apart rfl
        simp only [after, moved]
        rw [InMemoryLeaseManager.getLease_eq_none_iff, unchanged]
        exact (InMemoryLeaseManager.getLease_eq_none_iff _ _ _).mp ended.2

/-- The calls that respect the ending of a lease are those that do not revive it. -/
theorem Ended.respects_iff (ended : s.Ended token) (call : LeaseCall) :
    s.Respects token call ↔ ¬s.Revives token call := by
  have tokens := tokens_after s call ended.1
  have idle (quiet : ¬s.Revives token call) (other : ∀ ms, call ≠ .extend token ms)
      (away : (s.after call).manager.getLease (s.after call).now token = none) :
      s.Respects token call ↔ ¬s.Revives token call :=
    ⟨fun _ => quiet, fun _ => ⟨⟨tokens, away⟩, fun ms named => absurd named (other ms)⟩⟩
  cases call with
  | acquire random userId runId ttlMs =>
      have settled := ended.acquire random userId runId ttlMs
      have same : (s.after (.acquire random userId runId ttlMs)).manager =
            (s.manager.acquire s.now random userId runId ttlMs).1 ∧
          (s.after (.acquire random userId runId ttlMs)).now = s.now := by
        simp only [after]
        split
        · next refused => exact ⟨by rw [refused], rfl⟩
        · next granted => exact ⟨by rw [granted], rfl⟩
      unfold Respects Ended
      rw [same.1, same.2, settled]
      exact ⟨fun holds => holds.1.2, fun quiet => ⟨⟨tokens, quiet⟩, fun ms named => by cases named⟩⟩
  | release leaseToken =>
      refine idle id (fun ms named => by cases named) ?_
      exact ended.cleaned (s.manager.keeps_release leaseToken)
  | extend leaseToken ms => exact ended.extend leaseToken ms
  | isActive userId =>
      refine idle id (fun ms named => by cases named) ?_
      exact ended.cleaned (s.manager.keeps_isActive s.now userId)
  | getActiveRun userId =>
      refine idle id (fun ms named => by cases named) ?_
      exact ended.cleaned (s.manager.keeps_getActiveRun s.now userId)
  | getLease leaseToken => exact idle id (fun ms named => by cases named) ended.2
  | cleanupExpired =>
      refine idle id (fun ms named => by cases named) ?_
      exact ended.cleaned (s.manager.keeps_cleanupExpired s.now)
  | wait ms =>
      refine idle id (fun ms named => by cases named) ?_
      rw [InMemoryLeaseManager.getLease_eq_none_iff]
      intro userId lease place
      have past := (InMemoryLeaseManager.getLease_eq_none_iff _ _ _).mp ended.2 userId lease place
      exact Int.le_trans past (Int.le_add_of_nonneg_right (Int.natCast_nonneg ms))

/-- The call revives no lease that has ended. -/
def Careful (s : LeaseHistory) (call : LeaseCall) : Prop :=
  ∀ token, s.Ended token → ¬s.Revives token call

theorem careful_iff (s : LeaseHistory) (call : LeaseCall) :
    s.Careful call ↔ ∀ token ∈ s.grants.map Grant.token,
      s.manager.getLease s.now token = none → ¬s.Revives token call :=
  ⟨fun careful token granted away => careful token ⟨granted, away⟩,
    fun each token ended => each token ended.1 ended.2⟩

instance (s : LeaseHistory) (call : LeaseCall) : Decidable (s.Careful call) :=
  decidable_of_iff _ (careful_iff s call).symm

/-- Once a lease has ended it stays ended, and every extension of it is refused, in every history
whose calls revive none. -/
theorem ended_lease_stays_ended (granted : s.Ended token)
    (later : Transition.Reach step Careful s t) :
    t.manager.getLease t.now token = none ∧
      ∀ ms, t.Careful (.extend token ms) → t.manager.extend token ms = .error "Lease not found" := by
  have ended : t.Ended token := by
    refine later.invariant (fun u => u.Ended token) granted ?_
    intro u call next careful ended moved
    cases moved
    exact ((ended.respects_iff call).mpr (careful token ended)).1
  refine ⟨ended.2, ?_⟩
  intro ms careful
  exact ((ended.respects_iff _).mpr (careful token ended)).2 ms rfl

def laterCalls : List LeaseCall :=
  [.wait 5, .acquire "b" "alice" "r2" 10, .extend "lease_5_b" 20, .isActive "alice", .wait 20]

theorem released_lease_stays_released :
    ∃ t : LeaseHistory, (t.manager.getLease t.now "lease_5_b").map Lease.runId = some "r2" ∧
      t.manager.getLease t.now "lease_0_a" = none ∧
      t.manager.extend "lease_0_a" 100 = .error "Lease not found" := by
  have ended : (((init 0).after (.acquire "a" "alice" "r1" 10)).after
      (.release "lease_0_a")).Ended "lease_0_a" := by decide +kernel
  have ran : (Transition.exec (Transition.guarded step Careful)
      (((init 0).after (.acquire "a" "alice" "r1" 10)).after (.release "lease_0_a"))
      laterCalls).map (fun t => ((t.manager.getLease t.now "lease_5_b").map Lease.runId,
        decide (t.Careful (.extend "lease_0_a" 100)))) = some (some "r2", true) := by decide +kernel
  obtain ⟨t, later, observed⟩ := Transition.reach_of_observed _ _ ran
  obtain ⟨newer, careful⟩ := Prod.mk.inj observed
  obtain ⟨still, refused⟩ := ended_lease_stays_ended ended later
  exact ⟨t, newer, still, refused 100 (of_decide_eq_true careful)⟩

theorem expired_lease_is_revived :
    ¬∀ (s t : LeaseHistory) (token : String), Transition.Reach step Transition.Free (init 0) s →
      s.Ended token → Transition.Reach step Transition.Free s t →
        t.manager.getLease t.now token = none := by
  intro always
  have expired : (((init 0).after (.acquire "a" "alice" "r1" 10)).after (.wait 20)).Ended
      "lease_0_a" :=
    ⟨by decide +kernel, Option.isNone_iff_eq_none.mp (by decide +kernel)⟩
  have ended := always _ ((((init 0).after (.acquire "a" "alice" "r1" 10)).after
      (.wait 20)).after (.extend "lease_0_a" 100)) "lease_0_a"
    ((Transition.Reach.refl.next trivial rfl).next trivial rfl) expired
    (Transition.Reach.refl.next trivial rfl)
  have reported : ((((init 0).after (.acquire "a" "alice" "r1" 10)).after
      (.wait 20)).after (.extend "lease_0_a" 100)).manager.getLease 20 "lease_0_a" ≠ none :=
    Option.isSome_iff_ne_none.mp (by decide +kernel)
  exact reported ended

end LeaseHistory

end Minerva
