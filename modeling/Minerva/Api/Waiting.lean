import Minerva.Api.Answers

/-! Requests do not wait for each other: a handler answers after a bounded number of its own turns,
and it always has one to take. -/

namespace Minerva

namespace StreamServer

variable {w w' : StreamServer} {id : StreamId}

theorem absent_step {label : Label} (absent : w.responses.table.get id = none)
    (apart : ∀ runId owner run replayFrom lastEventId,
      label ≠ .streamEvents id runId owner run replayFrom lastEventId)
    (moved : w.step label = some w') : w'.responses.table.get id = none := by
  have sent (host : Responses) (other : StreamId) (chunk : Chunk)
      (absent : host.table.get id = none) : (host.send other chunk).table.get id = none := by
    unfold Responses.send
    split
    · exact absent
    · rename_i response found
      split
      · exact absent
      · have different : id ≠ other := by
          rintro rfl
          rw [absent] at found
          cases found
        exact (EsMap.get_set_of_ne _ _ _ _ different).trans absent
  have finished (host : Responses) (other : StreamId) (absent : host.table.get id = none) :
      (host.finish other).table.get id = none := by
    by_cases same : id = other
    · subst same
      rw [Responses.finish, absent]
      exact absent
    · exact (host.finish_other same).trans absent
  cases step_effect moved with
  | @opens id' _ _ _ _ _ unused =>
      have different : id ≠ id' := by
        rintro rfl
        exact apart _ _ _ _ _ rfl
      exact (open_other different).trans absent
  | @leaves _ id' connection checks _ _ =>
      rcases leave_responses w id' { connection with checks } with same | ended
      · rw [same]
        exact absent
      · rw [ended]
        exact finished _ _ absent
  | notes _ _ _ => exact absent
  | keepsAlive => exact sent _ _ _ absent
  | airs _ =>
      exact MemorySSEStreamController.broadcast_keeps _
        (fun host other event absent => sent host other (.event event) absent) finished _ _ _ _ absent
  | closes => exact MemorySSEStreamController.closeRun_keeps _ finished _ _ _ absent
  | rests _ _ => exact absent

end StreamServer

namespace Orchestrator

variable {w w' : Orchestrator}

/-- A request of a stream has no response before its handler goes on. -/
def Unopened (w : Orchestrator) : Prop :=
  ∀ id, w.requests.get id ≠ none → w.streams.responses.table.get id = none

theorem foldl_observe_absent {id : StreamId} (log : List Observation) (streams : StreamServer)
    (absent : streams.responses.table.get id = none) :
    (log.foldl observe streams).responses.table.get id = none := by
  induction log generalizing streams with
  | nil => exact absent
  | cons observation rest ih =>
      apply ih
      unfold observe
      cases called : observation.call with
      | none => exact absent
      | some label =>
          cases moved : streams.step label with
          | none =>
              rw [Option.bind_some, moved]
              exact absent
          | some after =>
              rw [Option.bind_some, moved]
              refine StreamServer.absent_step absent ?_ moved
              intro runId owner run replayFrom lastEventId same
              cases observation <;> cases called <;> cases same

theorem Unopened.step (unopened : w.Unopened) {label : Label} (moved : w.step label = some w') :
    w'.Unopened := by
  -- the calls that open no stream
  have served {t : Orchestrator} {call : StreamServer.Label} (goes : t.serve call = some w')
      (streams : t.streams = w.streams) (requests : t.requests = w.requests)
      (apart : ∀ id runId owner run replayFrom lastEventId,
        call ≠ .streamEvents id runId owner run replayFrom lastEventId) : w'.Unopened := by
    obtain ⟨after, step, rfl⟩ := Option.map_eq_some_iff.mp goes
    rw [streams] at step
    intro id waits
    rw [show ({ t with streams := after } : Orchestrator).requests = w.requests from requests] at waits
    exact StreamServer.absent_step (unopened id waits) (apart id) step
  cases label with
  | runtime label =>
      obtain ⟨runtime, stepped, rfl⟩ := Option.map_eq_some_iff.mp moved
      intro id waits
      exact foldl_observe_absent _ _ (unopened id waits)
  | streamEvents id runId owner replayFrom lastEventId =>
      simp only [Orchestrator.step] at moved
      split at moved
      · cases moved
      · rename_i unused
        cases moved
        intro other waits
        rw [EsMap.get_set] at waits
        split at waits
        · rename_i here
          subst here
          have free : w.streams.responses.table.has other ≠ true := fun used => unused (.inr used)
          simpa [EsMap.has] using free
        · exact unopened other waits
  | connect id =>
      simp only [Orchestrator.step] at moved
      split at moved
      · cases moved
      · obtain ⟨after, stepped, rfl⟩ := Option.map_eq_some_iff.mp moved
        intro other waits
        simp only [EsMap.get_delete] at waits
        split at waits
        · exact absurd rfl waits
        · rename_i different
          refine StreamServer.absent_step (unopened other waits) ?_ stepped
          rintro runId owner run replayFrom lastEventId ⟨⟩
          exact different rfl
  | disconnect id => exact served moved rfl rfl (by simp)
  | keepAlive id => exact served moved rfl rfl (by simp)
  | checkRunState id =>
      simp only [Orchestrator.step] at moved
      split at moved
      · cases moved
      · exact served moved rfl rfl (by simp)
  | checked id =>
      simp only [Orchestrator.step] at moved
      split at moved
      · exact served moved rfl rfl (by simp)
      · cases moved

end Orchestrator

namespace Handler

def advances (handler : Handler) (id : Nat) : Api.Label → Bool
  | .answer id' =>
    match handler.place with
    | .reading _ _ => id' = id
    | _ => false
  | .goes (.connect id') =>
    match handler.place with
    | .streaming _ => id' = id
    | _ => false
  | .goes (.runtime (.resume id' _)) =>
    match handler.place with
    | .creating => id' = id
    | .cancelling _ _ => id' = id
    | _ => false
  | _ => false

theorem advances_goes {handler : Handler} {id : Nat} {label : Orchestrator.Label}
    (turn : handler.advances id (.goes label) = true) :
    (∃ random, label = .runtime (.resume id random)) ∧ handler.serving ≠ none ∨
      label = .connect id := by
  obtain ⟨number, owner, place⟩ := handler
  cases label with
  | connect id' =>
      right
      cases place <;> simp_all [advances]
  | runtime label =>
      left
      cases label <;> first | cases turn | skip
      cases place <;> simp_all [advances, serving]
  | _ => cases turn

end Handler

namespace Api

variable {w w' : Api} {label : Label} {id : Nat}

theorem orchestrator_of_reach {gateway : GatewayAuthService} {config : RunManagerConfig} {now : Int}
    (reached : Transition.Reach step FreshRun (init gateway config now) w) :
    Transition.Reach Orchestrator.step Orchestrator.FreshRun (Orchestrator.init config now)
      w.orchestrator := by
  apply reached.project Api.orchestrator
  intro s label u earlier fresh moved
  have once {label : Orchestrator.Label} {orchestrator : Orchestrator}
      (fresh : s.orchestrator.FreshRun label)
      (moved : s.orchestrator.step label = some orchestrator) :
      Transition.Reach Orchestrator.step Orchestrator.FreshRun s.orchestrator orchestrator :=
    Transition.Reach.refl.next fresh moved
  have quiet {label : Orchestrator.Label} (unasked : asks label = false) :
      s.orchestrator.FreshRun label := by
    cases label with
    | runtime turn => exact fresh_of_unasked unasked
    | _ => exact trivial
  cases steps_of_step moved with
  | refuses id random request message refused => exact .refl
  | rejects id random headers body owner exception admitted free invalid => exact .refl
  | begins id random request owner place orchestrator admitted free begun =>
      obtain ⟨headers, route⟩ := request
      cases begun with
      | creates body o' valid stepped =>
          have met : s.orchestrator.FreshRun (.runtime (.createRun id random owner body)) :=
            fresh.runtime owner
          exact once met stepped
      | reads runId => exact .refl
      | cancels runId body o' stepped =>
          refine once ?_ stepped
          rintro runId ⟨⟩
      | streams runId replayFrom lastEventId o' stepped =>
          have met : s.orchestrator.FreshRun (.streamEvents id runId owner replayFrom lastEventId) :=
            trivial
          exact once met stepped
  | answers id number owner runId run found =>
      rw [respond_orchestrator]
      exact .refl
  | goes label orchestrator unasked stepped silent => exact once (quiet unasked) stepped
  | responds label orchestrator id response unasked stepped answered =>
      rw [respond_orchestrator]
      exact once (quiet unasked) stepped

theorem unopened_of_reach {gateway : GatewayAuthService} {config : RunManagerConfig} {now : Int}
    (reached : Transition.Reach step FreshRun (init gateway config now) w) :
    w.orchestrator.Unopened :=
  (orchestrator_of_reach reached).invariant Orchestrator.Unopened (fun _ waits => absurd rfl waits)
    (fun _ _ _ _ unopened moved => unopened.step moved)

/-- The turns that the handler called `id` has left. -/
def turnsLeft (w : Api) (id : Nat) (handler : Handler) : Nat :=
  if handler.serving = none then 1
  else ((w.orchestrator.runtime.tasks.get id).map Task.left).getD 0

theorem Steps.turnsLeft (steps : w.Steps label w')
    (linked : Linked w.orchestrator w.handlers.get) {handler : Handler}
    (got : w.handlers.get id = some handler) :
    w'.handlers.get id = none ∨ w'.handlers.get id = some handler ∧
      (if handler.advances id label then 1 else 0) + w'.turnsLeft id handler ≤
        w.turnsLeft id handler := by
  -- the handler stays and its task as well, in a step that is no turn of it
  have stays (kept : w'.handlers.get id = some handler)
      (tasks : handler.serving ≠ none →
        w'.orchestrator.runtime.tasks.get id = w.orchestrator.runtime.tasks.get id)
      (aside : handler.advances id label = false) :
      w'.handlers.get id = none ∨ w'.handlers.get id = some handler ∧
        (if handler.advances id label then 1 else 0) + w'.turnsLeft id handler ≤
          w.turnsLeft id handler := by
    have same : w'.turnsLeft id handler = w.turnsLeft id handler := by
      unfold Api.turnsLeft
      split
      · rfl
      · rename_i waits
        rw [tasks waits]
    refine .inr ⟨kept, ?_⟩
    rw [aside, same]
    simp
  -- the task that the handler waits for
  have waiting (waits : handler.serving ≠ none) : ∃ task,
      w.orchestrator.runtime.tasks.get id = some task ∧ task.serving ≠ none := by
    have serving := linked.serving id
    rw [got, Option.bind_some] at serving
    cases found : w.orchestrator.runtime.tasks.get id with
    | none =>
        rw [found] at serving
        exact absurd serving.symm waits
    | some task =>
        rw [found, Option.bind_some] at serving
        exact ⟨task, rfl, serving ▸ waits⟩
  -- a turn of the service that is none of the task
  have turned {turn : Runtime.Label} {o' : Orchestrator}
      (moved : w.orchestrator.step (.runtime turn) = some o')
      (apart : ∀ random, turn ≠ .resume id random) (waits : handler.serving ≠ none) :
      o'.runtime.tasks.get id = w.orchestrator.runtime.tasks.get id := by
    obtain ⟨task, found, asks⟩ := waiting waits
    rcases (Runtime.steps_of_step (runtime_of_step moved).1).waits found asks with
      ⟨-, same⟩ | ⟨random, outcome, resumed, -, -⟩
    · exact same.trans found.symm
    · exact absurd resumed (apart random)
  -- a step of the orchestrator that is no turn of the handler
  have aside {label : Orchestrator.Label}
      (unturned : ∀ random, label = .runtime (.resume id random) → handler.serving = none)
      (unconnected : label ≠ .connect id) : handler.advances id (.goes label) = false := by
    rw [Bool.eq_false_iff]
    intro turn
    rcases Handler.advances_goes turn with ⟨⟨random, same⟩, waits⟩ | same
    · exact waits (unturned random same)
    · exact unconnected same
  cases steps with
  | refuses id' random request message refused => exact stays got (fun _ => rfl) rfl
  | rejects id' random headers body owner exception admitted invalid =>
      exact stays got (fun _ => rfl) rfl
  | begins id' random request owner place orchestrator admitted free begun =>
      have different : id ≠ id' := by
        rintro rfl
        rw [got] at free
        cases free
      refine stays ?_ ?_ rfl
      · rw [get_hold, Function.update_of_ne different]
        exact got
      · obtain ⟨headers, route⟩ := request
        cases begun with
        | creates body o' valid moved => exact turned moved (fun _ => by simp)
        | reads runId => exact fun _ => rfl
        | cancels runId body o' moved => exact turned moved (fun _ => by simp)
        | streams runId replayFrom lastEventId o' moved =>
            simp only [Orchestrator.step] at moved
            split at moved <;> cases moved
            exact fun _ => rfl
  | answers id' number owner runId run found =>
      by_cases here : id = id'
      · left
        rw [get_respond, here, Function.update_self]
      · refine stays ?_ ?_ ?_
        · rw [get_respond, Function.update_of_ne here]
          exact got
        · rw [respond_orchestrator]
          exact fun _ => rfl
        · simp only [Handler.advances]
          split <;> simp [Ne.symm here]
  | goes label orchestrator unasked moved silent =>
      rcases requests_of_step unasked moved with ⟨turn, rfl, quiet, -, -⟩ |
        ⟨id', request, rfl, found, -, -⟩ | ⟨no_turn, no_connect, runtime, -⟩
      · by_cases resumed : handler.serving ≠ none ∧ ∃ random, turn = .resume id random
        · obtain ⟨waits, random, rfl⟩ := resumed
          obtain ⟨task, found, asks⟩ := waiting waits
          have unsettled : w.orchestrator.runtime.service.settles random task = none := by
            simpa [answer, Runtime.settles, found] using silent
          rcases (Runtime.steps_of_step (runtime_of_step moved).1).waits found asks with
            ⟨apart, -⟩ | ⟨_, outcome, same, goes, after⟩
          · exact absurd rfl (apart random)
          · cases same
            have fewer := RunExecutionService.resume_left goes unsettled asks
            refine .inr ⟨got, ?_⟩
            rw [Api.turnsLeft, Api.turnsLeft, if_neg waits, if_neg waits, found, after]
            rw [Option.map_some, Option.getD_some]
            split <;> omega
        · refine stays got (fun waits => turned moved ?_ waits) (aside ?_ (by simp))
          · intro random same
            exact resumed ⟨waits, random, same⟩
          · rintro random ⟨⟩
            by_contra waits
            exact resumed ⟨waits, random, rfl⟩
      · simp [answer, found] at silent
      · exact stays got (fun _ => by rw [runtime])
          (aside (fun _ same => absurd same (no_turn _)) (no_connect id))
  | responds label orchestrator id' response unasked moved answered =>
      by_cases here : id = id'
      · left
        rw [get_respond, here, Function.update_self]
      · have kept : ({ w with orchestrator }.respond id' response).handlers.get id = some handler := by
          rw [get_respond, Function.update_of_ne here]
          exact got
        rcases requests_of_step unasked moved with ⟨turn, rfl, quiet, -, -⟩ |
          ⟨id'', request, rfl, found, runtime, -⟩ | ⟨no_turn, no_connect, -, -⟩
        · obtain ⟨⟨answering, result⟩, settled, same⟩ := Option.map_eq_some_iff.mp answered
          cases same
          obtain ⟨random, task, rfl, -, -⟩ := Runtime.settles_eq_some settled
          have apart (random' : String) :
              Runtime.Label.resume answering random ≠ Runtime.Label.resume id random' := by
            rintro ⟨⟩
            exact here rfl
          refine stays kept (fun waits => ?_) (aside ?_ (by simp))
          · rw [respond_orchestrator]
            exact turned moved apart waits
          · rintro random ⟨⟩
            exact absurd rfl here
        · simp only [answer, found, Option.map_some, Option.some.injEq, Prod.mk.injEq] at answered
          obtain ⟨rfl, -⟩ := answered
          refine stays kept (fun _ => ?_) (aside (fun _ => by simp) ?_)
          · rw [respond_orchestrator, runtime]
          · rintro ⟨⟩
            exact here rfl
        · unfold answer at answered
          split at answered
          · exact absurd rfl (no_turn _)
          · exact absurd rfl (no_connect _)
          · cases answered

theorem Steps.answered (steps : w.Steps label w') {number : Nat}
    (answered : number ∈ w.answers.map Prod.fst) : number ∈ w'.answers.map Prod.fst := by
  have responded (w : Api) (id : Nat) (response : Handler → HttpResponse)
      (answered : number ∈ w.answers.map Prod.fst) :
      number ∈ (w.respond id response).answers.map Prod.fst := by
    unfold respond
    split
    · exact answered
    · rw [send, List.map_append]
      exact List.mem_append_left _ answered
  have sent (w : Api) (other : Nat) (response : HttpResponse)
      (answered : number ∈ w.answers.map Prod.fst) :
      number ∈ (w.send other response).answers.map Prod.fst := by
    rw [send, List.map_append]
    exact List.mem_append_left _ answered
  cases steps with
  | refuses id random request message refused => exact sent _ _ _ answered
  | rejects id random headers body owner exception admitted free invalid => exact sent _ _ _ answered
  | begins id random request owner place orchestrator admitted free begun => exact answered
  | answers id number owner runId run found => exact responded _ _ _ answered
  | goes label orchestrator unasked stepped silent => exact answered
  | responds label orchestrator id response unasked stepped answers => exact responded _ _ _ answered

theorem Steps.gone (steps : w.Steps label w') {handler : Handler}
    (got : w.handlers.get id = some handler) (gone : w'.handlers.get id = none) :
    handler.number ∈ w'.answers.map Prod.fst := by
  have responded {w : Api} {id' : Nat} {response : Handler → HttpResponse}
      (got : w.handlers.get id = some handler)
      (gone : (w.respond id' response).handlers.get id = none) :
      handler.number ∈ (w.respond id' response).answers.map Prod.fst := by
    rw [get_respond, Function.update_apply] at gone
    split at gone
    · rename_i here
      subst here
      simp [respond, got, send]
    · rw [got] at gone
      cases gone
  have stays (kept : w'.handlers.get id = some handler) :
      handler.number ∈ w'.answers.map Prod.fst := by
    rw [gone] at kept
    cases kept
  cases steps with
  | refuses id random request message refused => exact stays got
  | rejects id random headers body owner exception admitted free invalid => exact stays got
  | begins id' random request owner place orchestrator admitted free begun =>
      apply stays
      have different : id ≠ id' := by
        rintro rfl
        rw [got] at free
        cases free
      rw [get_hold, Function.update_of_ne different]
      exact got
  | answers id' number owner runId run found => exact responded got gone
  | goes label orchestrator unasked stepped silent => exact stays got
  | responds label orchestrator id' response unasked stepped answers =>
      exact responded (w := { w with orchestrator }) got gone

theorem Linked.advances {handler : Handler}
    (linked : Linked w.orchestrator w.handlers.get) (unopened : w.orchestrator.Unopened)
    (got : w.handlers.get id = some handler) :
    ∃ label, handler.advances id label = true ∧ w.step label ≠ none := by
  obtain ⟨number, owner, place⟩ := handler
  have serving := linked.serving id
  have streaming := linked.streaming id
  rw [got, Option.bind_some] at serving streaming
  have resumes (waits : Handler.serving ⟨number, owner, place⟩ ≠ none) :
      w.step (.goes (.runtime (.resume id ""))) ≠ none := by
    cases found : w.orchestrator.runtime.tasks.get id with
    | none =>
        rw [found] at serving
        exact absurd serving.symm waits
    | some task =>
        rw [found, Option.bind_some] at serving
        have goes : w.orchestrator.runtime.service.resume "" task ≠ none :=
          RunExecutionService.resume_ne_none (serving ▸ waits)
        obtain ⟨outcome, resumed⟩ := Option.ne_none_iff_exists'.mp goes
        simp [Api.step, asks, Runtime.Label.asks, Orchestrator.step, Runtime.step, found, resumed]
  cases place with
  | creating =>
      exact ⟨.goes (.runtime (.resume id "")), decide_eq_true rfl, resumes (by simp [Handler.serving])⟩
  | cancelling runId body =>
      exact ⟨.goes (.runtime (.resume id "")), decide_eq_true rfl, resumes (by simp [Handler.serving])⟩
  | reading runId run =>
      refine ⟨.answer id, decide_eq_true rfl, ?_⟩
      simp [Api.step, got]
  | streaming runId =>
      refine ⟨.goes (.connect id), decide_eq_true rfl, ?_⟩
      cases found : w.orchestrator.requests.get id with
      | none =>
          rw [found] at streaming
          cases streaming
      | some request =>
          have free : w.orchestrator.streams.responses.table.has id = false := by
            rw [EsMap.has, unopened id (by simp [found])]
            rfl
          simp [Api.step, asks, Orchestrator.step, found, Orchestrator.serve, StreamServer.step, free]

theorem turnsLeft_pos {handler : Handler} (linked : Linked w.orchestrator w.handlers.get)
    (got : w.handlers.get id = some handler) : 0 < w.turnsLeft id handler := by
  unfold turnsLeft
  split
  · exact Nat.succ_pos 0
  · rename_i waits
    have serving := linked.serving id
    rw [got, Option.bind_some] at serving
    cases found : w.orchestrator.runtime.tasks.get id with
    | none =>
        rw [found] at serving
        exact absurd serving.symm waits
    | some task =>
        rw [found, Option.bind_some] at serving
        exact Task.left_pos (serving ▸ waits)

theorem turnsLeft_le (w : Api) (id : Nat) (handler : Handler) : w.turnsLeft id handler ≤ 7 := by
  unfold turnsLeft
  split
  · exact Nat.succ_le_succ (Nat.zero_le 6)
  · cases w.orchestrator.runtime.tasks.get id with
    | none => exact Nat.zero_le 7
    | some task =>
        cases task with
        | calling frame call => exact Nat.le_succ_of_le call.turns_le
        | cancelRequested runId owner reason run => exact Nat.le_refl 7
        | _ => exact Nat.zero_le 7

theorem path_turns {handler : Handler} {labels : List Label}
    (path : Transition.Path step FreshRun w labels w')
    (linked : Linked w.orchestrator w.handlers.get) (got : w.handlers.get id = some handler) :
    handler.number ∈ w'.answers.map Prod.fst ∨ w'.handlers.get id = some handler ∧
      labels.countP (handler.advances id) + w'.turnsLeft id handler ≤ w.turnsLeft id handler := by
  induction path with
  | nil => exact .inr ⟨got, by simp⟩
  | @cons s t u label rest fresh moved path ih =>
      have steps := steps_of_step moved
      rcases steps.turnsLeft linked got with gone | ⟨kept, left⟩
      · left
        exact path.invariant (fun w => handler.number ∈ w.answers.map Prod.fst)
          (steps.gone got gone)
          (fun _ _ _ _ answered moved => (steps_of_step moved).answered answered)
      · rcases ih (linked.step fresh moved) kept with answered | ⟨kept', fewer⟩
        · exact .inl answered
        · refine .inr ⟨kept', ?_⟩
          rw [List.countP_cons]
          omega

/-- Whatever the other requests, the runs and the clients of streams do meanwhile, a request that
the guard has let in is answered by the seventh turn of its own handler, and until then its handler
has a turn to take. -/
theorem requests_are_answered (gateway : GatewayAuthService) (config : RunManagerConfig)
    (now : Int) (w w' : Api) (id : Nat) (handler : Handler) (labels : List Label)
    (reached : Transition.Reach step FreshRun (init gateway config now) w)
    (got : w.handlers.get id = some handler) (path : Transition.Path step FreshRun w labels w') :
    handler.number ∈ w'.answers.map Prod.fst ∨
      labels.countP (handler.advances id) < 7 ∧
        ∃ label, handler.advances id label = true ∧ w'.step label ≠ none := by
  have later := reached.trans (path.reach .refl)
  have linked := (books_of_reach later).1
  rcases path_turns path (books_of_reach reached).1 got with answered | ⟨kept, left⟩
  · exact .inl answered
  · have more := turnsLeft_pos linked kept
    have few := turnsLeft_le w id handler
    exact .inr ⟨by omega, linked.advances (unopened_of_reach later) kept⟩

theorem creating_handler_goes_on :
    ∃ w w' : Api, ∃ handler, w.handlers.get 0 = some handler ∧ handler.number = 0 ∧
      w'.answers.map Prod.fst = [1] ∧
      ∃ label, handler.advances 0 label = true ∧ w'.step label ≠ none := by
  have ran : (Transition.exec (Transition.guarded step FreshRun) (init localGateway .default 0)
      (sharedRunLabels.take 1)).map (fun w => ((w.handlers.get 0).map Handler.number,
        (Transition.exec (Transition.guarded step FreshRun) w
          ((sharedRunLabels.take 5).drop 1)).map (fun w' => w'.answers.map Prod.fst))) =
      some (some 0, some [1]) := by decide +kernel
  obtain ⟨w, reached, observed⟩ := Transition.reach_of_observed _ _ ran
  obtain ⟨opened, continued⟩ := Prod.mk.inj observed
  obtain ⟨handler, got, number⟩ := Option.map_eq_some_iff.mp opened
  obtain ⟨w', path, answers⟩ := Option.map_eq_some_iff.mp continued
  rcases requests_are_answered localGateway .default 0 w w' 0 handler _ reached got
    (Transition.path_of_exec _ path) with answered | ⟨-, goes⟩
  · rw [number, answers] at answered
    exact absurd answered (by decide)
  · exact ⟨w, w', handler, got, number, answers, goes⟩

end Api

end Minerva
