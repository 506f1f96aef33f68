import Minerva.Library.EsMap
import Minerva.Types.Run

namespace Minerva

structure Lease where
  runId : RunId
  token : String
  acquiredAt : Int
  expiresAt : Int

structure InMemoryLeaseManager where
  leases : EsMap UserId Lease
  tokenToUser : EsMap String UserId

def DEFAULT_LEASE_TTL_MS : Int := 30000

namespace InMemoryLeaseManager

def empty : InMemoryLeaseManager := ⟨.empty, .empty⟩

/-- `random` is what `Math.random().toString(36).substring(2, 11)` returns. -/
def newToken (now : Int) (random : String) : String := "lease_" ++ toString now ++ "_" ++ random

def grant (m : InMemoryLeaseManager) (now : Int) (random : String) (userId : UserId)
    (runId : RunId) (ttlMs : Int) : InMemoryLeaseManager × Option Lease :=
  let token := newToken now random
  let lease : Lease := { runId, token, acquiredAt := now, expiresAt := now + ttlMs }
  (⟨m.leases.set userId lease, m.tokenToUser.set token userId⟩, some lease)

def acquire (m : InMemoryLeaseManager) (now : Int) (random : String) (userId : UserId)
    (runId : RunId) (ttlMs : Int) : InMemoryLeaseManager × Option Lease :=
  match m.leases.get userId with
  | none => m.grant now random userId runId ttlMs
  | some existingLease =>
    if existingLease.expiresAt > now then (m, none)
    else
      let m := { m with tokenToUser := m.tokenToUser.delete existingLease.token }
      m.grant now random userId runId ttlMs

/-- The lookup shared by `release`, `extend` and `getLease`. -/
def held (m : InMemoryLeaseManager) (leaseToken : String) : Option (UserId × Lease) :=
  match m.tokenToUser.get leaseToken with
  | none => none
  | some userId =>
    if userId = "" then none else
    match m.leases.get userId with
    | none => none
    | some lease => if lease.token = leaseToken then some (userId, lease) else none

def release (m : InMemoryLeaseManager) (leaseToken : String) : InMemoryLeaseManager :=
  match m.held leaseToken with
  | none => m
  | some (userId, _) => ⟨m.leases.delete userId, m.tokenToUser.delete leaseToken⟩

def extend (m : InMemoryLeaseManager) (leaseToken : String) (additionalMs : Int) :
    Except String InMemoryLeaseManager :=
  match m.held leaseToken with
  | none => .error "Lease not found"
  | some (userId, lease) =>
    let lease := { lease with expiresAt := lease.expiresAt + additionalMs }
    .ok { m with leases := m.leases.set userId lease }

def isActive (m : InMemoryLeaseManager) (now : Int) (userId : UserId) :
    InMemoryLeaseManager × Bool :=
  match m.leases.get userId with
  | none => (m, false)
  | some lease =>
    if lease.expiresAt ≤ now then
      (⟨m.leases.delete userId, m.tokenToUser.delete lease.token⟩, false)
    else (m, true)

def getActiveRun (m : InMemoryLeaseManager) (now : Int) (userId : UserId) :
    InMemoryLeaseManager × Option RunId :=
  match m.isActive now userId with
  | (m, false) => (m, none)
  | (m, true) => (m, (m.leases.get userId).map Lease.runId)

def getLease (m : InMemoryLeaseManager) (now : Int) (leaseToken : String) : Option Lease :=
  match m.held leaseToken with
  | none => none
  | some (_, lease) => if lease.expiresAt ≤ now then none else some lease

def sweep (now : Int) (swept : InMemoryLeaseManager × Nat) (entry : UserId × Lease) :
    InMemoryLeaseManager × Nat :=
  if entry.2.expiresAt ≤ now then
    (⟨swept.1.leases.delete entry.1, swept.1.tokenToUser.delete entry.2.token⟩, swept.2 + 1)
  else swept

def cleanupExpired (m : InMemoryLeaseManager) (now : Int) : InMemoryLeaseManager × Nat :=
  m.leases.entries.foldl (sweep now) (m, 0)

theorem held_eq_some (m : InMemoryLeaseManager) (token : String) (userId : UserId) (lease : Lease) :
    m.held token = some (userId, lease) ↔
      m.tokenToUser.get token = some userId ∧ userId ≠ "" ∧ m.leases.get userId = some lease ∧
        lease.token = token := by
  unfold held
  cases known : m.tokenToUser.get token with
  | none => simp
  | some user =>
      by_cases falsy : user = ""
      · simp only [if_pos falsy, Option.some.injEq, reduceCtorEq, false_iff]
        rintro ⟨rfl, truthy, -⟩
        exact truthy falsy
      · simp only [if_neg falsy, Option.some.injEq]
        cases found : m.leases.get user with
        | none =>
            simp only [reduceCtorEq, false_iff]
            rintro ⟨rfl, -, stored, -⟩
            simp [found] at stored
        | some lease' =>
            by_cases same : lease'.token = token
            · simp only [if_pos same, Option.some.injEq, Prod.mk.injEq]
              constructor
              · rintro ⟨rfl, rfl⟩
                exact ⟨rfl, falsy, found, same⟩
              · rintro ⟨rfl, -, stored, -⟩
                rw [found, Option.some.injEq] at stored
                exact ⟨rfl, stored⟩
            · simp only [if_neg same, reduceCtorEq, false_iff]
              rintro ⟨rfl, -, stored, token'⟩
              rw [found, Option.some.injEq] at stored
              exact same (stored ▸ token')

theorem release_cases (m : InMemoryLeaseManager) (token : String) :
    (m.release token = m ∧ m.held token = none) ∨
      ∃ userId lease, m.held token = some (userId, lease) ∧
        (m.release token).leases = m.leases.delete userId ∧
        (m.release token).tokenToUser = m.tokenToUser.delete token := by
  unfold release
  cases found : m.held token with
  | none => exact .inl ⟨rfl, rfl⟩
  | some place => exact .inr ⟨place.1, place.2, rfl, rfl, rfl⟩

/-- A lease is refused exactly while another one of the user is unexpired; otherwise the new
lease replaces what was there. -/
theorem acquire_cases (m : InMemoryLeaseManager) (now : Int) (random : String) (userId : UserId)
    (runId : RunId) (ttlMs : Int) :
    (∃ lease, m.leases.get userId = some lease ∧ now < lease.expiresAt ∧
        m.acquire now random userId runId ttlMs = (m, none)) ∨
      (∀ lease, m.leases.get userId = some lease → lease.expiresAt ≤ now) ∧
        ∃ m', m.acquire now random userId runId ttlMs =
            (m', some ⟨runId, newToken now random, now, now + ttlMs⟩) ∧
          m'.leases = m.leases.set userId ⟨runId, newToken now random, now, now + ttlMs⟩ ∧
          m'.tokenToUser.get (newToken now random) = some userId ∧
          ∀ token, token ≠ newToken now random →
            (∀ lease, m.leases.get userId = some lease → lease.token ≠ token) →
            m'.tokenToUser.get token = m.tokenToUser.get token := by
  unfold acquire
  cases found : m.leases.get userId with
  | none =>
      refine .inr ⟨by simp, _, rfl, rfl, EsMap.get_set_self _ _ _, ?_⟩
      intro token other _
      exact EsMap.get_set_of_ne _ _ _ _ other
  | some existing =>
      by_cases active : existing.expiresAt > now
      · exact .inl ⟨existing, rfl, active, if_pos active⟩
      · simp only [if_neg active]
        refine .inr ⟨?_, _, rfl, rfl, EsMap.get_set_self _ _ _, ?_⟩
        · rintro lease ⟨⟩
          omega
        · intro token other replaced
          have different : token ≠ existing.token := (replaced existing rfl).symm
          simp only [EsMap.get_set, if_neg other, EsMap.get_delete, if_neg different]

def Known (m : InMemoryLeaseManager) : Prop :=
  ∀ userId lease, m.leases.get userId = some lease → m.tokenToUser.get lease.token = some userId

theorem known_empty : empty.Known := by
  intro userId lease found
  cases found

theorem get_of_release {m : InMemoryLeaseManager} {token : String} {userId : UserId} {lease : Lease}
    (found : (m.release token).leases.get userId = some lease) :
    m.leases.get userId = some lease := by
  rcases m.release_cases token with ⟨same, -⟩ | ⟨user, held, -, leases, -⟩
  · rwa [same] at found
  · rw [leases] at found
    exact (EsMap.get_of_get_delete _ _ found).2

theorem get_release_of_ne {m : InMemoryLeaseManager} {token : String} {userId : UserId}
    {lease : Lease} (found : m.leases.get userId = some lease) (other : lease.token ≠ token) :
    (m.release token).leases.get userId = some lease := by
  rcases m.release_cases token with ⟨same, -⟩ | ⟨user, held, place, leases, -⟩
  · rwa [same]
  · obtain ⟨-, -, stored, carries⟩ := (m.held_eq_some token user held).mp place
    have apart : userId ≠ user := by
      rintro rfl
      rw [found] at stored
      cases stored
      exact other carries
    rw [leases, EsMap.get_delete_of_ne _ _ _ apart]
    exact found

theorem Known.release {m : InMemoryLeaseManager} (known : m.Known) (token : String) :
    (m.release token).Known := by
  intro userId lease found
  have before := known userId lease (get_of_release found)
  rcases m.release_cases token with ⟨same, -⟩ | ⟨user, held, place, leases, tokens⟩
  · rwa [same]
  · obtain ⟨indexed, -, -, -⟩ := (m.held_eq_some token user held).mp place
    have apart : lease.token ≠ token := by
      rintro rfl
      rw [before] at indexed
      cases indexed
      rw [leases, EsMap.get_delete_self] at found
      cases found
    rw [tokens, EsMap.get_delete_of_ne _ _ _ apart]
    exact before

theorem get_acquire_of_ne (m : InMemoryLeaseManager) (now : Int) (random : String)
    (userId user : UserId) (runId : RunId) (ttlMs : Int) (other : user ≠ userId) :
    (m.acquire now random userId runId ttlMs).1.leases.get user = m.leases.get user := by
  rcases m.acquire_cases now random userId runId ttlMs with ⟨lease, -, -, refused⟩ |
    ⟨-, after, acquired, leases, -⟩
  · rw [refused]
  · rw [acquired, leases, EsMap.get_set_of_ne _ _ _ _ other]

theorem tokenToUser_of_acquire {m : InMemoryLeaseManager} {now : Int} {random : String}
    {userId user : UserId} {runId : RunId} {ttlMs : Int} {token : String}
    (other : token ≠ newToken now random)
    (indexed : (m.acquire now random userId runId ttlMs).1.tokenToUser.get token = some user) :
    m.tokenToUser.get token = some user := by
  unfold InMemoryLeaseManager.acquire at indexed
  split at indexed
  · simpa only [grant, EsMap.get_set, if_neg other] using indexed
  · split at indexed
    · exact indexed
    · simp only [grant, EsMap.get_set, if_neg other] at indexed
      exact (EsMap.get_of_get_delete _ _ indexed).2

theorem Known.acquire {m : InMemoryLeaseManager} (known : m.Known) (now : Int) (random : String)
    (userId : UserId) (runId : RunId) (ttlMs : Int)
    (fresh : (m.isActive now userId).2 = false →
      m.tokenToUser.get (newToken now random) = none) :
    (m.acquire now random userId runId ttlMs).1.Known := by
  rcases m.acquire_cases now random userId runId ttlMs with ⟨lease, -, -, refused⟩ |
    ⟨expired, after, acquired, leases, mine, others⟩
  · rw [refused]
    exact known
  · rw [acquired]
    have inactive : (m.isActive now userId).2 = false := by
      unfold isActive
      cases found : m.leases.get userId with
      | none => rfl
      | some held => simp [expired held found]
    intro user lease found
    rw [leases] at found
    rcases EsMap.get_set_cases m.leases userId found with ⟨rfl, rfl⟩ | ⟨apart, earlier⟩
    · exact mine
    · have before := known user lease earlier
      have unused := fresh inactive
      rw [others lease.token]
      · exact before
      · rintro same
        rw [same, unused] at before
        cases before
      · intro held stored same
        have theirs := known userId held stored
        rw [same, before] at theirs
        exact apart (Option.some.inj theirs)

theorem inactive_of_acquire {m : InMemoryLeaseManager} {now : Int}
    {random : String} {userId : UserId} {runId : RunId} {ttlMs : Int} {lease : Lease}
    (granted : (m.acquire now random userId runId ttlMs).2 = some lease) :
    (m.isActive now userId).2 = false ∧ lease.runId = runId := by
  rcases m.acquire_cases now random userId runId ttlMs with ⟨held, -, -, refused⟩ |
    ⟨expired, after, acquired, -⟩
  · rw [refused] at granted
    cases granted
  · rw [acquired] at granted
    cases granted
    refine ⟨?_, rfl⟩
    unfold isActive
    cases found : m.leases.get userId with
    | none => rfl
    | some held => simp [expired held found]

theorem active_of_refused {m : InMemoryLeaseManager} {now : Int} {random : String}
    {userId : UserId} {runId : RunId} {ttlMs : Int}
    (refused : (m.acquire now random userId runId ttlMs).2 = none) :
    (m.isActive now userId).2 = true := by
  rcases m.acquire_cases now random userId runId ttlMs with ⟨held, found, live, -⟩ |
    ⟨expired, after, acquired, -⟩
  · unfold isActive
    simp only [found, if_neg (show ¬held.expiresAt ≤ now by omega)]
  · rw [acquired] at refused
    cases refused

theorem expired_of_inactive {m : InMemoryLeaseManager} {now : Int}
    {userId : UserId} {lease : Lease} (inactive : (m.isActive now userId).2 = false)
    (found : m.leases.get userId = some lease) : lease.expiresAt ≤ now := by
  unfold isActive at inactive
  rw [found] at inactive
  by_contra active
  simp [active] at inactive

end InMemoryLeaseManager

end Minerva
