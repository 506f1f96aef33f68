import Minerva.Library.EsMap

/-- The state of an object, the requests and the replies that are on their way, under the numbers of
the requests, and the order in which requests have been taken up. -/
structure Server (σ ι ο : Type) where
  state : σ
  next : Nat
  requests : EsMap Nat ι
  replies : EsMap Nat ο
  order : List (Nat × ι × ο)

namespace Server

variable {σ ι ο : Type}

def init (state : σ) : Server σ ι ο := ⟨state, 0, .empty, .empty, []⟩

def send (server : Server σ ι ο) (request : ι) : Server σ ι ο :=
  { server with
    next := server.next + 1
    requests := server.requests.set server.next request }

def serve (object : σ → ι → σ × ο) (server : Server σ ι ο) (number : Nat) :
    Option (Server σ ι ο) :=
  (server.requests.get number).map (fun request =>
    let answer := object server.state request
    { server with
      state := answer.1
      requests := server.requests.delete number
      replies := server.replies.set number answer.2
      order := server.order ++ [(number, request, answer.2)] })

def Asked (server : Server σ ι ο) (number : Nat) (request : ι) : Prop :=
  server.requests.get number = some request ∨ ∃ reply, (number, request, reply) ∈ server.order

section

variable (object : σ → ι → σ × ο) (start : σ)

def after (order : List (Nat × ι × ο)) : σ :=
  order.foldl (fun state entry => (object state entry.2.1).1) start

/-- Every reply is that of the object after the requests before it. -/
def Explains (order : List (Nat × ι × ο)) : Prop :=
  ∀ earlier number request reply later, order = earlier ++ (number, request, reply) :: later →
    reply = (object (after object start earlier) request).2

structure Sound (server : Server σ ι ο) : Prop where
  state : server.state = after object start server.order
  explains : Explains object start server.order
  once : (server.order.map Prod.fst).Nodup
  issued : ∀ number request, server.Asked number request → number < server.next
  waiting : ∀ number request, server.requests.get number = some request →
    number ∉ server.order.map Prod.fst
  replied : ∀ number reply, server.replies.get number = some reply →
    ∃ request, (number, request, reply) ∈ server.order

end

variable {object : σ → ι → σ × ο} {start : σ} {server served : Server σ ι ο} {number : Nat}
  {request : ι}

theorem sound_init : Sound object start (init start) where
  state := rfl
  explains earlier number request reply later split := by
    cases earlier <;> cases split
  once := List.nodup_nil
  issued number request asked := by
    rcases asked with waiting | ⟨reply, listed⟩
    · cases waiting
    · cases listed
  waiting number request waiting := by cases waiting
  replied number reply replied := by cases replied

theorem after_append (order : List (Nat × ι × ο)) (entry : Nat × ι × ο) :
    after object start (order ++ [entry]) = (object (after object start order) entry.2.1).1 :=
  List.foldl_append

theorem explains_append {order : List (Nat × ι × ο)} (explains : Explains object start order)
    (number : Nat) (request : ι) :
    Explains object start
      (order ++ [(number, request, (object (after object start order) request).2)]) := by
  intro earlier other asked reply later split
  rcases List.eq_nil_or_concat later with rfl | ⟨init, last, rfl⟩
  · obtain ⟨rfl, same⟩ := List.append_inj' split rfl
    cases same
    rfl
  · rw [List.concat_eq_append, ← List.cons_append, ← List.append_assoc] at split
    obtain ⟨before, -⟩ := List.append_inj' split rfl
    exact explains earlier other asked reply init before

theorem asked_of_send {sent : ι} (asked : (server.send sent).Asked number request) :
    number = server.next ∧ request = sent ∨ server.Asked number request := by
  rcases asked with waiting | listed
  · rcases EsMap.get_set_cases _ _ waiting with now | ⟨-, before⟩
    · exact .inl now
    · exact .inr (.inl before)
  · exact .inr (.inr listed)

theorem asked_send (sent : ι) : (server.send sent).Asked server.next sent :=
  .inl (EsMap.get_set_self _ _ _)

namespace Sound

variable (sound : Sound object start server)

include sound

theorem send_keeps (sent : ι) (asked : server.Asked number request) :
    (server.send sent).Asked number request := by
  have older := sound.issued number request asked
  rcases asked with waiting | listed
  · exact .inl ((EsMap.get_set_of_ne _ _ _ _ (Nat.ne_of_lt older)).trans waiting)
  · exact .inr listed

theorem unique {other : ι} (asked : server.Asked number request)
    (again : server.Asked number other) : request = other := by
  rcases asked with waiting | ⟨reply, listed⟩ <;> rcases again with waiting' | ⟨reply', listed'⟩
  · exact Option.some.inj (waiting.symm.trans waiting')
  · exact absurd (List.mem_map_of_mem listed') (sound.waiting number request waiting)
  · exact absurd (List.mem_map_of_mem listed) (sound.waiting number other waiting')
  · have same := List.inj_on_of_nodup_map sound.once listed listed' rfl
    exact congrArg (fun entry => entry.2.1) same

theorem send (sent : ι) : Sound object start (server.send sent) := by
  have fresh : ∀ request, ¬server.Asked server.next request := fun request asked =>
    Nat.lt_irrefl _ (sound.issued _ request asked)
  refine ⟨sound.state, sound.explains, sound.once, ?_, ?_, sound.replied⟩
  · intro number request asked
    rcases asked_of_send asked with ⟨rfl, -⟩ | before
    · exact Nat.lt_succ_self _
    · exact Nat.lt_succ_of_lt (sound.issued number request before)
  · intro number request waiting
    rcases EsMap.get_set_cases _ _ waiting with ⟨rfl, -⟩ | ⟨-, before⟩
    · intro member
      obtain ⟨⟨_, other, reply⟩, listed, rfl⟩ := List.mem_map.mp member
      exact fresh other (.inr ⟨reply, listed⟩)
    · exact sound.waiting number request before

end Sound

theorem served_cases (taken : server.serve object number = some served) :
    ∃ request, server.requests.get number = some request ∧ served.next = server.next ∧
      served.order = server.order ++ [(number, request, (object server.state request).2)] ∧
      served.state = (object server.state request).1 ∧
      served.requests = server.requests.delete number ∧
      served.replies = server.replies.set number (object server.state request).2 := by
  obtain ⟨request, found, rfl⟩ := Option.map_eq_some_iff.mp taken
  exact ⟨request, found, rfl, rfl, rfl, rfl, rfl⟩

theorem asked_serve (taken : server.serve object number = some served) (other : Nat) (asked : ι) :
    served.Asked other asked ↔ server.Asked other asked := by
  obtain ⟨request, found, -, order, -, requests, -⟩ := served_cases taken
  unfold Asked
  rw [order, requests]
  constructor
  · rintro (waiting | ⟨reply, listed⟩)
    · exact .inl (EsMap.get_of_get_delete _ _ waiting).2
    · rcases List.mem_append.mp listed with before | now
      · exact .inr ⟨reply, before⟩
      · cases List.mem_singleton.mp now
        exact .inl found
  · rintro (waiting | ⟨reply, listed⟩)
    · by_cases same : other = number
      · subst same
        rw [found] at waiting
        cases waiting
        exact .inr ⟨_, List.mem_append_right _ List.mem_cons_self⟩
      · exact .inl ((EsMap.get_delete_of_ne _ _ _ same).trans waiting)
    · exact .inr ⟨reply, List.mem_append_left _ listed⟩

theorem Sound.serve (sound : Sound object start server)
    (taken : server.serve object number = some served) : Sound object start served := by
  have same := asked_serve taken
  obtain ⟨request, found, next, order, state, requests, replies⟩ := served_cases taken
  have unlisted := sound.waiting number request found
  refine ⟨?_, ?_, ?_, ?_, ?_, ?_⟩
  · rw [state, order, after_append, ← sound.state]
  · rw [order, sound.state]
    exact explains_append sound.explains number request
  · rw [order, List.map_append]
    refine List.nodup_append'.mpr ⟨sound.once, List.nodup_singleton _, ?_⟩
    exact List.disjoint_singleton.mpr unlisted
  · intro other asked asked_before
    rw [next]
    exact sound.issued other asked ((same other asked).mp asked_before)
  · intro other asked waiting
    rw [requests] at waiting
    obtain ⟨different, before⟩ := EsMap.get_of_get_delete _ _ waiting
    rw [order, List.map_append, List.mem_append]
    rintro (listed | now)
    · exact sound.waiting other asked before listed
    · exact different (List.mem_singleton.mp now)
  · intro other reply replied
    rw [replies] at replied
    rw [order]
    rcases EsMap.get_set_cases _ _ replied with ⟨rfl, rfl⟩ | ⟨-, before⟩
    · exact ⟨request, List.mem_append_right _ List.mem_cons_self⟩
    · obtain ⟨asked, listed⟩ := sound.replied other reply before
      exact ⟨asked, List.mem_append_left _ listed⟩

end Server
