import Mathlib.Data.List.Nodup
import Minerva.Library.Transition
import Minerva.Services.Lease

/-! Histories of the lease manager: its calls in any order and with any time between them, beside
a ledger of the leases that were granted. -/

namespace Minerva

namespace InMemoryLeaseManager

variable {m m' m'' : InMemoryLeaseManager} {gone : Lease → Prop} {now : Int}

def Expired (now : Int) (lease : Lease) : Prop := lease.expiresAt ≤ now

/-- Nothing comes, and no lease goes but those that are `gone`. -/
structure Keeps (gone : Lease → Prop) (m m' : InMemoryLeaseManager) : Prop where
  leases : ∀ userId lease, m'.leases.get userId = some lease → m.leases.get userId = some lease
  stays : ∀ userId lease, m.leases.get userId = some lease → ¬gone lease →
    m'.leases.get userId = some lease
  tokens : ∀ token userId, m'.tokenToUser.get token = some userId →
    m.tokenToUser.get token = some userId
  known : m.Known → m'.Known

theorem Keeps.refl (gone : Lease → Prop) (m : InMemoryLeaseManager) : Keeps gone m m :=
  ⟨fun _ _ => id, fun _ _ found _ => found, fun _ _ => id, id⟩

theorem Keeps.trans (first : Keeps gone m m') (second : Keeps gone m' m'') : Keeps gone m m'' where
  leases _ _ found := first.leases _ _ (second.leases _ _ found)
  stays _ _ found remains := second.stays _ _ (first.stays _ _ found remains) remains
  tokens _ _ found := first.tokens _ _ (second.tokens _ _ found)
  known known := second.known (first.known known)

theorem keeps_drop {userId : UserId} {lease : Lease} (found : m.leases.get userId = some lease)
    (goes : gone lease) :
    Keeps gone m ⟨m.leases.delete userId, m.tokenToUser.delete lease.token⟩ where
  leases _ _ stored := (EsMap.get_of_get_delete _ _ stored).2
  stays user held stored remains := by
    rw [EsMap.get_delete_of_ne]
    · exact stored
    · rintro rfl
      rw [found, Option.some_inj] at stored
      exact remains (stored ▸ goes)
  tokens _ _ indexed := (EsMap.get_of_get_delete _ _ indexed).2
  known known := by
    intro user held stored
    obtain ⟨apart, earlier⟩ := EsMap.get_of_get_delete _ _ stored
    have before := known user held earlier
    rw [EsMap.get_delete_of_ne]
    · exact before
    · intro same
      rw [same, known userId lease found, Option.some_inj] at before
      exact apart before.symm

theorem keeps_release (m : InMemoryLeaseManager) (token : String) :
    Keeps (fun lease => lease.token = token) m (m.release token) := by
  unfold release
  cases place : m.held token with
  | none => exact .refl _ m
  | some entry =>
      obtain ⟨_, _, found, carries⟩ := (m.held_eq_some token entry.1 entry.2).mp place
      have dropped : Keeps (fun lease => lease.token = token) m
          ⟨m.leases.delete entry.1, m.tokenToUser.delete entry.2.token⟩ := keeps_drop found carries
      rw [carries] at dropped
      exact dropped

theorem keeps_isActive (m : InMemoryLeaseManager) (now : Int) (userId : UserId) :
    Keeps (Expired now) m (m.isActive now userId).1 := by
  unfold isActive
  cases found : m.leases.get userId with
  | none => exact .refl _ m
  | some lease =>
      by_cases expired : lease.expiresAt ≤ now
      · simp only [if_pos expired]
        exact keeps_drop found expired
      · simp only [if_neg expired]
        exact .refl _ m

theorem keeps_getActiveRun (m : InMemoryLeaseManager) (now : Int) (userId : UserId) :
    Keeps (Expired now) m (m.getActiveRun now userId).1 := by
  have kept := keeps_isActive m now userId
  unfold getActiveRun
  split <;> next answered => rwa [answered] at kept

theorem keeps_sweep (entries : List (UserId × Lease)) (swept : InMemoryLeaseManager × Nat)
    (distinct : (entries.map Prod.fst).Nodup)
    (stored : ∀ entry ∈ entries, swept.1.leases.get entry.1 = some entry.2) :
    Keeps (Expired now) swept.1 (entries.foldl (sweep now) swept).1 := by
  induction entries generalizing swept with
  | nil => exact .refl _ swept.1
  | cons entry rest ih =>
      rw [List.map_cons, List.nodup_cons] at distinct
      have here := stored entry List.mem_cons_self
      have later : ∀ other ∈ rest, swept.1.leases.get other.1 = some other.2 :=
        fun other member => stored other (List.mem_cons_of_mem _ member)
      rw [List.foldl_cons]
      by_cases expired : entry.2.expiresAt ≤ now
      · have next : (sweep now swept entry).1 =
            ⟨swept.1.leases.delete entry.1, swept.1.tokenToUser.delete entry.2.token⟩ := by
          rw [sweep, if_pos expired]
        have dropped : Keeps (Expired now) swept.1 (sweep now swept entry).1 := by
          rw [next]
          exact keeps_drop here expired
        refine dropped.trans (ih _ distinct.2 ?_)
        intro other member
        have apart : other.1 ≠ entry.1 :=
          fun same => distinct.1 (same ▸ List.mem_map_of_mem member)
        rw [next, EsMap.get_delete_of_ne _ _ _ apart]
        exact later other member
      · rw [sweep, if_neg expired]
        exact ih swept distinct.2 later

theorem keeps_cleanupExpired (m : InMemoryLeaseManager) (now : Int) :
    Keeps (Expired now) m (m.cleanupExpired now).1 := by
  apply keeps_sweep m.leases.entries (m, 0) m.leases.distinct
  intro entry member
  exact (EsMap.get_eq_some_iff m.leases entry.1 entry.2).mpr member

theorem extend_cases (m : InMemoryLeaseManager) (token : String) (additionalMs : Int) :
    (m.held token = none ∧ m.extend token additionalMs = .error "Lease not found") ∨
      ∃ userId lease, m.held token = some (userId, lease) ∧
        m.extend token additionalMs =
          .ok ⟨m.leases.set userId { lease with expiresAt := lease.expiresAt + additionalMs },
            m.tokenToUser⟩ := by
  unfold extend
  cases place : m.held token with
  | none => exact .inl ⟨rfl, rfl⟩
  | some entry => exact .inr ⟨entry.1, entry.2, rfl, rfl⟩

end InMemoryLeaseManager

/-- A lease that was granted, as its history says it is by now. -/
structure Grant where
  userId : UserId
  lease : Lease
  released : Bool

namespace Grant

def Live (grant : Grant) (now : Int) : Prop :=
  grant.released = false ∧ now < grant.lease.expiresAt

def release (grant : Grant) : Grant := { grant with released := true }

def extend (additionalMs : Int) (grant : Grant) : Grant :=
  { grant with lease := { grant.lease with expiresAt := grant.lease.expiresAt + additionalMs } }

def naming (token : String) (change : Grant → Grant) (grant : Grant) : Grant :=
  if grant.lease.token = token then change grant else grant

def token (grant : Grant) : String := grant.lease.token

end Grant

inductive LeaseCall where
  | acquire (random : String) (userId : UserId) (runId : RunId) (ttlMs : Int)
  | release (leaseToken : String)
  | extend (leaseToken : String) (additionalMs : Int)
  | isActive (userId : UserId)
  | getActiveRun (userId : UserId)
  | getLease (leaseToken : String)
  | cleanupExpired
  /-- time goes by -/
  | wait (ms : Nat)

def LeaseCall.target : LeaseCall → Option String
  | .release leaseToken => some leaseToken
  | .extend leaseToken _ => some leaseToken
  | _ => none

structure LeaseHistory where
  manager : InMemoryLeaseManager
  now : Int
  grants : List Grant

namespace LeaseHistory

def init (now : Int) : LeaseHistory := ⟨.empty, now, []⟩

def after (s : LeaseHistory) : LeaseCall → LeaseHistory
  | .acquire random userId runId ttlMs =>
    match s.manager.acquire s.now random userId runId ttlMs with
    | (manager, none) => { s with manager }
    | (manager, some lease) =>
      { s with
        manager
        grants := s.grants ++ [⟨userId, ⟨runId, lease.token, s.now, s.now + ttlMs⟩, false⟩] }
  | .release leaseToken =>
    { s with
      manager := s.manager.release leaseToken
      grants := s.grants.map (Grant.naming leaseToken Grant.release) }
  | .extend leaseToken additionalMs =>
    match s.manager.extend leaseToken additionalMs with
    | .error _ => s
    | .ok manager =>
      { s with
        manager
        grants := s.grants.map (Grant.naming leaseToken (Grant.extend additionalMs)) }
  | .isActive userId => { s with manager := (s.manager.isActive s.now userId).1 }
  | .getActiveRun userId => { s with manager := (s.manager.getActiveRun s.now userId).1 }
  | .getLease _ => s
  | .cleanupExpired => { s with manager := (s.manager.cleanupExpired s.now).1 }
  | .wait ms => { s with now := s.now + ms }

def step (s : LeaseHistory) (call : LeaseCall) : Option LeaseHistory := some (s.after call)

/-- User keys are not empty, and a token that is drawn was not drawn before. -/
def Admitted (s : LeaseHistory) : LeaseCall → Prop
  | .acquire random userId _ _ => userId ≠ "" ∧
    ((s.manager.isActive s.now userId).2 = false →
      InMemoryLeaseManager.newToken s.now random ∉ s.grants.map Grant.token)
  | _ => True

/-- The maps of the manager and the ledger agree on all leases that are live. -/
structure Ledgered (s : LeaseHistory) : Prop where
  distinct : (s.grants.map Grant.token).Nodup
  stored : ∀ grant ∈ s.grants, grant.Live s.now →
    s.manager.leases.get grant.userId = some grant.lease
  granted : ∀ userId lease, s.manager.leases.get userId = some lease →
    ⟨userId, lease, false⟩ ∈ s.grants
  named : ∀ grant ∈ s.grants, grant.userId ≠ ""
  known : s.manager.Known
  indexed : ∀ token userId, s.manager.tokenToUser.get token = some userId →
    token ∈ s.grants.map Grant.token

variable {s : LeaseHistory} {manager : InMemoryLeaseManager} {token : String}

theorem ledgered_init (now : Int) : Ledgered (init now) where
  distinct := List.nodup_nil
  stored _ member := absurd member List.not_mem_nil
  granted _ _ found := by cases found
  named _ member := absurd member List.not_mem_nil
  known := InMemoryLeaseManager.known_empty
  indexed _ _ found := by cases found

theorem Ledgered.unique (ledgered : s.Ledgered) {grant other : Grant} (member : grant ∈ s.grants)
    (another : other ∈ s.grants) (same : grant.token = other.token) : grant = other :=
  List.inj_on_of_nodup_map ledgered.distinct member another same

theorem Ledgered.held (ledgered : s.Ledgered) {userId : UserId} {lease : Lease}
    (found : s.manager.leases.get userId = some lease) :
    s.manager.held lease.token = some (userId, lease) :=
  (s.manager.held_eq_some lease.token userId lease).mpr
    ⟨ledgered.known userId lease found, ledgered.named _ (ledgered.granted userId lease found),
      found, rfl⟩

theorem Ledgered.cleaned (ledgered : s.Ledgered)
    (kept : s.manager.Keeps (InMemoryLeaseManager.Expired s.now) manager) :
    Ledgered { s with manager } where
  distinct := ledgered.distinct
  stored grant member live := by
    refine kept.stays _ _ (ledgered.stored grant member live) ?_
    exact Int.not_le.mpr live.2
  granted userId lease found := ledgered.granted userId lease (kept.leases _ _ found)
  named := ledgered.named
  known := kept.known ledgered.known
  indexed token userId found := ledgered.indexed token userId (kept.tokens _ _ found)

theorem naming_keeps {α : Type} (field : Grant → α) (token : String) {change : Grant → Grant}
    (same : ∀ grant, field (change grant) = field grant) (grant : Grant) :
    field (Grant.naming token change grant) = field grant := by
  unfold Grant.naming
  split
  · exact same grant
  · rfl

theorem naming_tokens (token : String) (change : Grant → Grant)
    (same : ∀ grant, (change grant).token = grant.token) (grants : List Grant) :
    (grants.map (Grant.naming token change)).map Grant.token = grants.map Grant.token := by
  rw [List.map_map]
  exact List.map_congr_left fun grant _ => naming_keeps Grant.token token same grant

theorem Ledgered.naming_named (ledgered : s.Ledgered) (token : String) {change : Grant → Grant}
    (same : ∀ grant, (change grant).userId = grant.userId) :
    ∀ grant ∈ s.grants.map (Grant.naming token change), grant.userId ≠ "" := by
  intro grant member
  obtain ⟨before, earlier, rfl⟩ := List.mem_map.mp member
  rw [naming_keeps Grant.userId token same]
  exact ledgered.named before earlier

theorem naming_of_ne {change : Grant → Grant} {grant : Grant} (other : grant.token ≠ token) :
    Grant.naming token change grant = grant := if_neg other

theorem naming_self {change : Grant → Grant} {grant : Grant} (same : grant.token = token) :
    Grant.naming token change grant = change grant := if_pos same

theorem Ledgered.release (ledgered : s.Ledgered) (token : String) :
    (s.after (.release token)).Ledgered := by
  have kept := s.manager.keeps_release token
  have freed : ∀ userId lease, (s.manager.release token).leases.get userId = some lease →
      lease.token ≠ token := by
    intro userId lease found same
    have place := ledgered.held (kept.leases _ _ found)
    rw [same] at place
    rcases s.manager.release_cases token with ⟨_, absent⟩ | ⟨user, held, there, leases, _⟩
    · rw [place] at absent
      cases absent
    · rw [place] at there
      cases there
      rw [leases, EsMap.get_delete_self] at found
      cases found
  constructor
  case distinct => exact (naming_tokens token Grant.release (fun _ => rfl) s.grants).symm ▸
    ledgered.distinct
  case stored =>
    intro grant member live
    obtain ⟨before, earlier, rfl⟩ := List.mem_map.mp member
    by_cases same : before.token = token
    · rw [naming_self same] at live
      cases live.1
    · rw [naming_of_ne same] at live ⊢
      exact kept.stays _ _ (ledgered.stored before earlier live) same
  case granted =>
    intro userId lease found
    have other := freed userId lease found
    have earlier := ledgered.granted userId lease (kept.leases _ _ found)
    exact List.mem_map.mpr ⟨_, earlier, naming_of_ne other⟩
  case named => exact ledgered.naming_named token fun _ => rfl
  case known => exact kept.known ledgered.known
  case indexed =>
    intro other userId found
    have earlier := ledgered.indexed other userId (kept.tokens _ _ found)
    exact (naming_tokens token Grant.release (fun _ => rfl) s.grants).symm ▸ earlier

theorem Ledgered.extend (ledgered : s.Ledgered) (token : String) (additionalMs : Int) :
    (s.after (.extend token additionalMs)).Ledgered := by
  rcases s.manager.extend_cases token additionalMs with ⟨_, refused⟩ | ⟨user, lease, place, moved⟩
  · simp only [after, refused]
    exact ledgered
  obtain ⟨_, _, found, carries⟩ := (s.manager.held_eq_some token user lease).mp place
  have mine := ledgered.granted user lease found
  have tokens := naming_tokens token (Grant.extend additionalMs) (fun _ => rfl) s.grants
  simp only [after, moved]
  constructor
  case distinct => exact tokens.symm ▸ ledgered.distinct
  case stored =>
    intro grant member live
    obtain ⟨before, earlier, rfl⟩ := List.mem_map.mp member
    by_cases same : before.token = token
    · have exactly : before = ⟨user, lease, false⟩ :=
        ledgered.unique earlier mine (same.trans carries.symm)
      subst exactly
      rw [naming_self same]
      exact EsMap.get_set_self _ _ _
    · rw [naming_of_ne same] at live ⊢
      have there := ledgered.stored before earlier live
      have apart : before.userId ≠ user := by
        intro sameUser
        rw [sameUser, found, Option.some_inj] at there
        exact same ((congrArg Lease.token there).symm.trans carries)
      rw [EsMap.get_set_of_ne _ _ _ _ apart]
      exact there
  case granted =>
    intro userId held stored
    rcases EsMap.get_set_cases s.manager.leases user stored with ⟨rfl, rfl⟩ | ⟨apart, before⟩
    · exact List.mem_map.mpr ⟨_, mine, naming_self carries⟩
    · have earlier := ledgered.granted userId held before
      refine List.mem_map.mpr ⟨_, earlier, naming_of_ne ?_⟩
      intro same
      have exactly := ledgered.unique earlier mine (same.trans carries.symm)
      exact apart (congrArg Grant.userId exactly)
  case named => exact ledgered.naming_named token fun _ => rfl
  case known =>
    intro userId held stored
    rcases EsMap.get_set_cases s.manager.leases user stored with ⟨rfl, rfl⟩ | ⟨-, before⟩
    · exact ledgered.known userId lease found
    · exact ledgered.known userId held before
  case indexed =>
    intro other userId indexed
    exact tokens.symm ▸ ledgered.indexed other userId indexed

theorem Ledgered.acquire (ledgered : s.Ledgered) (random : String) (userId : UserId)
    (runId : RunId) (ttlMs : Int) (admitted : s.Admitted (.acquire random userId runId ttlMs)) :
    (s.after (.acquire random userId runId ttlMs)).Ledgered := by
  obtain ⟨named, unused⟩ := admitted
  have known := ledgered.known.acquire s.now random userId runId ttlMs (by
    intro inactive
    by_contra indexed
    obtain ⟨user, found⟩ := Option.ne_none_iff_exists'.mp indexed
    exact unused inactive (ledgered.indexed _ user found))
  have older (token : String) (user : UserId)
      (other : token ≠ InMemoryLeaseManager.newToken s.now random)
      (indexed : (s.manager.acquire s.now random userId runId ttlMs).1.tokenToUser.get token =
        some user) : s.manager.tokenToUser.get token = some user :=
    InMemoryLeaseManager.tokenToUser_of_acquire other indexed
  rcases s.manager.acquire_cases s.now random userId runId ttlMs with ⟨lease, _, _, refused⟩ |
    ⟨expired, manager, acquired, leases, mine, _⟩
  · simp only [after, refused]
    exact ledgered
  have fresh := unused (by
    unfold InMemoryLeaseManager.isActive
    cases found : s.manager.leases.get userId with
    | none => rfl
    | some held => simp [expired held found])
  rw [acquired] at known older
  simp only [after, acquired]
  constructor
  case distinct =>
    rw [List.map_append, List.nodup_append]
    refine ⟨ledgered.distinct, List.nodup_singleton _, ?_⟩
    intro token old token' new same
    rw [List.map_singleton, List.mem_singleton] at new
    subst same new
    exact fresh old
  case stored =>
    intro grant member live
    rcases List.mem_append.mp member with earlier | new
    · have there := ledgered.stored grant earlier live
      have apart : grant.userId ≠ userId := by
        intro sameUser
        exact Int.not_le.mpr live.2 (expired grant.lease (sameUser ▸ there))
      rw [leases, EsMap.get_set_of_ne _ _ _ _ apart]
      exact there
    · rw [List.mem_singleton.mp new, leases]
      exact EsMap.get_set_self _ _ _
  case granted =>
    intro user lease found
    rw [leases] at found
    rcases EsMap.get_set_cases s.manager.leases userId found with ⟨rfl, rfl⟩ | ⟨-, before⟩
    · exact List.mem_append_right _ (List.mem_singleton.mpr rfl)
    · exact List.mem_append_left _ (ledgered.granted user lease before)
  case named =>
    intro grant member
    rcases List.mem_append.mp member with earlier | new
    · exact ledgered.named grant earlier
    · rw [List.mem_singleton.mp new]
      exact named
  case known => exact known
  case indexed =>
    intro token user found
    rw [List.map_append]
    by_cases drawn : token = InMemoryLeaseManager.newToken s.now random
    · exact List.mem_append_right _ (List.mem_singleton.mpr drawn)
    · exact List.mem_append_left _ (ledgered.indexed token user (older token user drawn found))

theorem Ledgered.wait (ledgered : s.Ledgered) (ms : Nat) : (s.after (.wait ms)).Ledgered where
  distinct := ledgered.distinct
  stored grant member live :=
    ledgered.stored grant member ⟨live.1, Int.lt_of_le_of_lt (Int.le_add_of_nonneg_right
      (Int.natCast_nonneg ms)) live.2⟩
  granted := ledgered.granted
  named := ledgered.named
  known := ledgered.known
  indexed := ledgered.indexed

theorem Ledgered.after (ledgered : s.Ledgered) (call : LeaseCall) (admitted : s.Admitted call) :
    (s.after call).Ledgered := by
  cases call with
  | acquire random userId runId ttlMs =>
      exact ledgered.acquire random userId runId ttlMs admitted
  | release leaseToken => exact ledgered.release leaseToken
  | extend leaseToken additionalMs => exact ledgered.extend leaseToken additionalMs
  | isActive userId => exact ledgered.cleaned (s.manager.keeps_isActive s.now userId)
  | getActiveRun userId => exact ledgered.cleaned (s.manager.keeps_getActiveRun s.now userId)
  | getLease leaseToken => exact ledgered
  | cleanupExpired => exact ledgered.cleaned (s.manager.keeps_cleanupExpired s.now)
  | wait ms => exact ledgered.wait ms

theorem reach_ledgered {now : Int} (reached : Transition.Reach step Admitted (init now) s) :
    s.Ledgered := by
  refine reached.invariant Ledgered (ledgered_init now) ?_
  intro t call u admitted ledgered moved
  cases moved
  exact ledgered.after call admitted

structure Visible (manager : InMemoryLeaseManager) (now : Int) (grant : Grant) : Prop where
  isActive : (manager.isActive now grant.userId).2 = true
  getActiveRun : (manager.getActiveRun now grant.userId).2 = some grant.lease.runId
  getLease : manager.getLease now grant.lease.token = some grant.lease

instance (grant : Grant) (now : Int) : Decidable (grant.Live now) :=
  inferInstanceAs (Decidable (_ ∧ _))

/-- The law of the lease manager, in one state of its history. -/
structure Exclusive (s : LeaseHistory) : Prop where
  at_most_one : ∀ userId,
    (s.grants.filter (fun grant => grant.userId = userId ∧ grant.Live s.now)).length ≤ 1
  acquires : ∀ random userId runId ttlMs,
    (s.manager.acquire s.now random userId runId ttlMs).2.isSome = true ↔
      ∀ grant ∈ s.grants, grant.userId = userId → ¬grant.Live s.now
  visible : ∀ grant ∈ s.grants, grant.Live s.now → Visible s.manager s.now grant
  unaffected : ∀ call, s.Admitted call → ∀ grant ∈ s.grants, call.target ≠ some grant.token →
    grant ∈ (s.after call).grants ∧
      (grant.Live (s.after call).now → Visible (s.after call).manager (s.after call).now grant)

theorem Ledgered.visible (ledgered : s.Ledgered) {grant : Grant} (member : grant ∈ s.grants)
    (live : grant.Live s.now) : Visible s.manager s.now grant := by
  have found := ledgered.stored grant member live
  have fresh : ¬grant.lease.expiresAt ≤ s.now := Int.not_le.mpr live.2
  have active : s.manager.isActive s.now grant.userId = (s.manager, true) := by
    unfold InMemoryLeaseManager.isActive
    simp only [found, if_neg fresh]
  constructor
  case isActive => rw [active]
  case getActiveRun =>
    unfold InMemoryLeaseManager.getActiveRun
    simp only [active, found, Option.map_some]
  case getLease =>
    unfold InMemoryLeaseManager.getLease
    simp only [ledgered.held found, if_neg fresh]

theorem Ledgered.at_most_one (ledgered : s.Ledgered) (userId : UserId) :
    (s.grants.filter (fun grant => grant.userId = userId ∧ grant.Live s.now)).length ≤ 1 := by
  have distinct : s.grants.Nodup := ledgered.distinct.of_map _
  have theirs : ∀ grant ∈ s.grants.filter
      (fun grant => grant.userId = userId ∧ grant.Live s.now), grant ∈ s.grants ∧
        s.manager.leases.get userId = some grant.lease := by
    intro grant member
    obtain ⟨earlier, holds⟩ := List.mem_filter.mp member
    obtain ⟨rfl, live⟩ := of_decide_eq_true holds
    exact ⟨earlier, ledgered.stored grant earlier live⟩
  have apart := distinct.filter (fun grant => grant.userId = userId ∧ grant.Live s.now)
  cases listed : s.grants.filter (fun grant => grant.userId = userId ∧ grant.Live s.now) with
  | nil => exact Nat.zero_le 1
  | cons first others =>
      cases others with
      | nil => exact Nat.le_refl 1
      | cons second rest =>
          rw [listed] at theirs apart
          obtain ⟨earlier, stored⟩ := theirs first List.mem_cons_self
          obtain ⟨earlier', stored'⟩ := theirs second (List.mem_cons_of_mem _ List.mem_cons_self)
          rw [stored, Option.some_inj] at stored'
          have same := ledgered.unique earlier earlier' (congrArg Lease.token stored')
          exact absurd (same ▸ List.mem_cons_self) (List.nodup_cons.mp apart).1

theorem Ledgered.acquires (ledgered : s.Ledgered) (random : String) (userId : UserId)
    (runId : RunId) (ttlMs : Int) :
    (s.manager.acquire s.now random userId runId ttlMs).2.isSome = true ↔
      ∀ grant ∈ s.grants, grant.userId = userId → ¬grant.Live s.now := by
  rcases s.manager.acquire_cases s.now random userId runId ttlMs with ⟨lease, found, live, refused⟩ |
    ⟨expired, manager, acquired, _⟩
  · rw [refused]
    constructor
    · intro impossible
      cases impossible
    · intro free
      exact absurd ⟨rfl, live⟩ (free _ (ledgered.granted userId lease found) rfl)
  · rw [acquired]
    constructor
    · rintro _ grant member rfl live
      exact Int.not_le.mpr live.2 (expired grant.lease (ledgered.stored grant member live))
    · exact fun _ => rfl

theorem mem_after (s : LeaseHistory) (call : LeaseCall) {grant : Grant} (member : grant ∈ s.grants)
    (other : call.target ≠ some grant.token) : grant ∈ (s.after call).grants := by
  have untouched {leaseToken : String} {change : Grant → Grant}
      (target : some leaseToken ≠ some grant.token) :
      grant ∈ s.grants.map (Grant.naming leaseToken change) :=
    List.mem_map.mpr ⟨grant, member, naming_of_ne fun same => target (congrArg some same).symm⟩
  cases call with
  | acquire random userId runId ttlMs =>
      simp only [after]
      split
      · exact member
      · exact List.mem_append_left _ member
  | release leaseToken => exact untouched other
  | extend leaseToken additionalMs =>
      simp only [after]
      split
      · exact member
      · exact untouched other
  | isActive userId => exact member
  | getActiveRun userId => exact member
  | getLease leaseToken => exact member
  | cleanupExpired => exact member
  | wait ms => exact member

/-- In every state of every history: at most one live lease for each user, granted exactly to a
user without one, reported as long as it is live, and ended by nothing but its own release, its
own extension and time. -/
theorem lease_exclusion {start : Int} (reached : Transition.Reach step Admitted (init start) s) :
    s.Exclusive where
  at_most_one := (reach_ledgered reached).at_most_one
  acquires := (reach_ledgered reached).acquires
  visible _ member live := (reach_ledgered reached).visible member live
  unaffected call admitted grant member other := by
    have ledgered := (reach_ledgered reached).after call admitted
    have remains := mem_after s call member other
    exact ⟨remains, ledgered.visible remains⟩

/-- A lease is taken again at the instant in which the one before it expires. -/
theorem lease_at_expiry :
    (((init 0).after (.acquire "a" "alice" "r1" 10)).after (.wait 10)).Exclusive ∧
      ((((init 0).after (.acquire "a" "alice" "r1" 10)).after (.wait 10)).manager.acquire 10 "b"
        "alice" "r2" 10).2.isSome = true := by
  have admitted : (init 0).Admitted (.acquire "a" "alice" "r1" 10) :=
    ⟨by decide, fun _ => List.not_mem_nil⟩
  have waited : ((init 0).after (.acquire "a" "alice" "r1" 10)).Admitted (.wait 10) := trivial
  exact ⟨lease_exclusion ((Transition.Reach.refl.next admitted rfl).next waited rfl),
    by decide +kernel⟩

end LeaseHistory

end Minerva
