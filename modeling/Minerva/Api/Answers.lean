import Minerva.Api.Handlers

namespace Minerva

namespace Route

def target : Route → Option RunId
  | .createRun _ => none
  | .getRun runId => some runId
  | .cancelRun runId _ => some runId
  | .streamEvents runId _ _ => some runId

def missing : Route → RunId → String
  | .streamEvents _ _ _, runId => "Run " ++ runId ++ " not found"
  | _, runId => "Run '" ++ runId ++ "' not found"

end Route

def HandlerPlace.Of : HandlerPlace → Route → Prop
  | .creating, .createRun _ => True
  | .reading runId _, .getRun runId' => runId = runId'
  | .cancelling runId body, .cancelRun runId' body' => runId = runId' ∧ body = body'
  | .streaming runId, .streamEvents runId' _ _ => runId = runId'
  | _, _ => False

/-- The answer tells the owner only about runs of the owner: of the run that the route names it
says that it is not there, unless it is one. -/
structure RunManager.Confines (m : RunManager) (owner : OwnerPrincipal) (route : Route)
    (response : HttpResponse) : Prop where
  mine : ∀ runId, response.about = some runId → m.ownerOf runId = some owner
  asked : ∀ runId target, response.about = some runId → route.target = some target →
    runId = target
  hidden : ∀ target, route.target = some target →
    m.ownerOf target = some owner ∨ response = .failed (.notFound (route.missing target))
  admitted : ∀ message, response ≠ .failed (.unauthorized message)

theorem RunManager.Confines.mono {m m' : RunManager} {owner : OwnerPrincipal} {route : Route}
    {response : HttpResponse} (confines : m.Confines owner route response)
    (keeps : ∀ runId owner, m.ownerOf runId = some owner → m'.ownerOf runId = some owner) :
    m'.Confines owner route response where
  mine := fun runId about => keeps runId owner (confines.mine runId about)
  asked := confines.asked
  hidden := fun target names => (confines.hidden target names).imp_left (keeps target owner)
  admitted := confines.admitted

namespace Api

variable {w w' : Api} {label : Label} {id : Nat}

def Asked (w : Api) (number : Nat) (owner : OwnerPrincipal) (route : Route) : Prop :=
  ∃ headers, w.received[number]? = some ⟨headers, route⟩ ∧
    w.gateway.authenticate headers = .ok owner

/-- The answer that the request with this number is due. -/
def Due (w : Api) (number : Nat) (response : HttpResponse) : Prop :=
  (∃ headers route message, w.received[number]? = some ⟨headers, route⟩ ∧
      w.gateway.authenticate headers = .error message ∧
      response = .failed (.unauthorized message)) ∨
    ∃ owner route, w.Asked number owner route ∧ w.manager.Confines owner route response

structure Ledger (w : Api) : Prop where
  filed : ∀ id handler, w.handlers.get id = some handler →
    ∃ route, w.Asked handler.number handler.owner route ∧ handler.place.Of route
  due : ∀ number response, (number, response) ∈ w.answers → w.Due number response

theorem Ledger.init (gateway : GatewayAuthService) (config : RunManagerConfig) (now : Int) :
    (Api.init gateway config now).Ledger where
  filed := by
    intro id handler found
    cases found
  due := by
    intro number response member
    cases member

structure Extends (w w' : Api) : Prop where
  gateway : w'.gateway = w.gateway
  received : ∃ more, w'.received = w.received ++ more
  owners : ∀ runId owner, w.manager.ownerOf runId = some owner →
    w'.manager.ownerOf runId = some owner

theorem Asked.mono {number : Nat} {owner : OwnerPrincipal} {route : Route}
    (asked : w.Asked number owner route) (extended : w.Extends w') :
    w'.Asked number owner route := by
  obtain ⟨headers, got, admitted⟩ := asked
  obtain ⟨more, received⟩ := extended.received
  refine ⟨headers, ?_, ?_⟩
  · rw [received, List.getElem?_append_left (List.getElem?_eq_some_iff.mp got).1, got]
  · rw [extended.gateway, admitted]

theorem Due.mono {number : Nat} {response : HttpResponse} (due : w.Due number response)
    (extended : w.Extends w') : w'.Due number response := by
  rcases due with ⟨headers, route, message, got, refused, same⟩ | ⟨owner, route, asked, confines⟩
  · obtain ⟨more, received⟩ := extended.received
    refine .inl ⟨headers, route, message, ?_, ?_, same⟩
    · rw [received, List.getElem?_append_left (List.getElem?_eq_some_iff.mp got).1, got]
    · rw [extended.gateway, refused]
  · exact .inr ⟨owner, route, asked.mono extended, confines.mono extended.owners⟩

theorem Steps.extends (steps : w.Steps label w') (fresh : w.FreshRun label) : w.Extends w' := by
  have moves {o' : Orchestrator} {turn : Runtime.Label}
      (fresh : w.orchestrator.runtime.FreshRun turn)
      (moved : w.orchestrator.step (.runtime turn) = some o') (runId : RunId)
      (owner : OwnerPrincipal) (stored : w.manager.ownerOf runId = some owner) :
      o'.runtime.service.runManager.ownerOf runId = some owner :=
    owners_kept fresh (runtime_of_step moved).1 runId owner stored
  have unmoved {o' : Orchestrator} (same : o'.runtime = w.orchestrator.runtime) (runId : RunId)
      (owner : OwnerPrincipal) (stored : w.manager.ownerOf runId = some owner) :
      o'.runtime.service.runManager.ownerOf runId = some owner := by
    rw [same]
    exact stored
  have goes {o' : Orchestrator} {label : Orchestrator.Label} (unasked : asks label = false)
      (moved : w.orchestrator.step label = some o') (runId : RunId) (owner : OwnerPrincipal)
      (stored : w.manager.ownerOf runId = some owner) :
      o'.runtime.service.runManager.ownerOf runId = some owner := by
    rcases requests_of_step unasked moved with ⟨turn, rfl, quiet, -, -⟩ |
      ⟨id, request, -, -, runtime, -⟩ | ⟨-, -, runtime, -⟩
    · exact moves (fresh_of_unasked quiet) moved runId owner stored
    · exact unmoved runtime runId owner stored
    · exact unmoved runtime runId owner stored
  cases steps with
  | refuses id random request message refused => exact ⟨rfl, ⟨_, rfl⟩, fun _ _ stored => stored⟩
  | rejects id random headers body owner exception admitted free invalid =>
      exact ⟨rfl, ⟨_, rfl⟩, fun _ _ stored => stored⟩
  | begins id random request owner place orchestrator admitted free begun =>
      refine ⟨rfl, ⟨_, rfl⟩, ?_⟩
      obtain ⟨headers, route⟩ := request
      cases begun with
      | creates body o' valid moved => exact moves (fresh.runtime owner) moved
      | reads runId => exact fun _ _ stored => stored
      | cancels runId body o' moved =>
          refine moves ?_ moved
          rintro runId ⟨⟩
      | streams runId replayFrom lastEventId o' moved =>
          simp only [Orchestrator.step] at moved
          split at moved <;> cases moved
          exact fun _ _ stored => stored
  | answers id number owner runId run found =>
      refine ⟨respond_gateway _ _ _, ⟨[], ?_⟩, ?_⟩
      · rw [respond_received, List.append_nil]
      · simp only [manager, respond_orchestrator]
        exact fun _ _ stored => stored
  | goes label orchestrator unasked moved silent =>
      exact ⟨rfl, ⟨[], (List.append_nil _).symm⟩, goes unasked moved⟩
  | responds label orchestrator id response unasked moved answered =>
      refine ⟨respond_gateway _ _ _, ⟨[], ?_⟩, ?_⟩
      · rw [respond_received, List.append_nil]
      · simp only [manager, respond_orchestrator]
        exact goes unasked moved

theorem confines_getRun {m : RunManager} {runId : RunId} {run : Option Run}
    (reads : m.Reads runId run) (now : Int) (owner : OwnerPrincipal) :
    m.Confines owner (.getRun runId) (RunsController.getRun now runId owner run) := by
  cases run with
  | none =>
      constructor
      · rintro about ⟨⟩
      · rintro about target ⟨⟩
      · rintro target ⟨⟩
        exact .inr rfl
      · rintro message ⟨⟩
  | some run =>
      obtain ⟨rfl, stored⟩ := reads run rfl
      simp only [RunsController.getRun]
      split
      · rename_i same
        rw [(sameOwnerPrincipal_iff _ _).mp same] at stored
        constructor
        · rintro about ⟨⟩
          exact stored
        · rintro about target ⟨⟩ ⟨⟩
          rfl
        · rintro target ⟨⟩
          exact .inl stored
        · rintro message ⟨⟩
      · constructor
        · rintro about ⟨⟩
        · rintro about target ⟨⟩
        · rintro target ⟨⟩
          exact .inr rfl
        · rintro message ⟨⟩

theorem confines_stream {m : RunManager} {request : StreamRequest}
    (reads : m.Reads request.runId request.run) (replayFrom lastEventId : Option String) :
    m.Confines request.owner (.streamEvents request.runId replayFrom lastEventId)
      request.response := by
  unfold StreamRequest.response
  split
  · rename_i accepted
    obtain ⟨run, found, same⟩ := (Option.any_eq_true _ _).mp accepted
    have stored := (reads run found).2
    rw [(sameOwnerPrincipal_iff _ _).mp same] at stored
    constructor
    · rintro about ⟨⟩
      exact stored
    · rintro about target ⟨⟩ ⟨⟩
      rfl
    · rintro target ⟨⟩
      exact .inl stored
    · rintro message ⟨⟩
  · constructor
    · rintro about ⟨⟩
    · rintro about target ⟨⟩
    · rintro target ⟨⟩
      exact .inr rfl
    · rintro message ⟨⟩

theorem confines_settled {s : RunExecutionService} {random : String} {task : Task}
    {handler : Handler} {route : Route} {result : Except HttpException Run}
    (fits : ∀ frame call, task = .calling frame call → frame.Fits call)
    (serves : task.Serves s.runManager handler.owner) (serving : task.serving = handler.serving)
    (of : handler.place.Of route) (settled : s.settles random task = some result) :
    s.runManager.Confines handler.owner route (handler.response result) := by
  obtain ⟨number, owner, place⟩ := handler
  cases result with
  | error exception =>
      have outcome := RunExecutionService.settles_fails fits serves settled
      have named {target : RunId} (names : route.target = some target)
          (waits : task.serving ≠ none) : task.serving = some (.cancelRun target) := by
        rw [serving] at waits ⊢
        cases place <;> cases route <;> cases names <;> simp_all [HandlerPlace.Of, Handler.serving]
      have waits := RunExecutionService.settles_serving fits settled
      constructor
      · rintro about ⟨⟩
      · rintro about target ⟨⟩
      · intro target names
        have asked := named names waits
        rcases outcome with ⟨-, own⟩ | ⟨runId, asked', rfl⟩
        · exact .inl (own target asked)
        · right
          cases asked.symm.trans asked'
          cases route <;> first | rfl | skip
          rw [serving] at waits
          cases place <;> simp_all [HandlerPlace.Of, Handler.serving]
      · rintro message ⟨⟩
        rcases outcome with ⟨impossible, -⟩ | ⟨runId, -, impossible⟩ <;> cases impossible
  | ok run =>
      obtain ⟨stored, named⟩ := RunExecutionService.settles_own fits serves settled
      cases place with
      | creating =>
          cases route <;> cases of
          constructor
          · rintro about ⟨⟩
            exact stored
          · rintro about target - ⟨⟩
          · rintro target ⟨⟩
          · rintro message ⟨⟩
      | cancelling runId body =>
          have same := named runId serving
          cases route with
          | cancelRun runId' body' =>
              obtain ⟨rfl, rfl⟩ := of
              constructor
              · rintro about ⟨⟩
                exact stored
              · rintro about target ⟨⟩ ⟨⟩
                exact same
              · rintro target ⟨⟩
                rw [same] at stored
                exact .inl stored
              · rintro message ⟨⟩
          | _ => cases of
      | reading runId read =>
          exact absurd serving (RunExecutionService.settles_serving fits settled)
      | streaming runId =>
          exact absurd serving (RunExecutionService.settles_serving fits settled)

theorem Ledger.sends (ledger : w.Ledger) (request : HttpRequest) (response : HttpResponse)
    (due : ({ w with received := w.received ++ [request] }.send w.received.length response).Due
      w.received.length response) :
    ({ w with received := w.received ++ [request] }.send w.received.length response).Ledger where
  filed := by
    intro id handler found
    obtain ⟨route, asked, of⟩ := ledger.filed id handler found
    exact ⟨route, asked.mono ⟨rfl, ⟨_, rfl⟩, fun _ _ stored => stored⟩, of⟩
  due := by
    intro number other member
    rcases List.mem_append.mp member with before | here
    · exact (ledger.due number other before).mono ⟨rfl, ⟨_, rfl⟩, fun _ _ stored => stored⟩
    · cases List.mem_singleton.mp here
      exact due

theorem Ledger.keeps (ledger : w.Ledger) (extended : w.Extends w')
    (handlers : w'.handlers = w.handlers) (answers : w'.answers = w.answers) :
    w'.Ledger where
  filed := by
    intro id handler found
    rw [handlers] at found
    obtain ⟨route, asked, of⟩ := ledger.filed id handler found
    exact ⟨route, asked.mono extended, of⟩
  due := by
    intro number response member
    rw [answers] at member
    exact (ledger.due number response member).mono extended

theorem Ledger.responds (ledger : w.Ledger) {response : Handler → HttpResponse}
    {handler : Handler} (got : w.handlers.get id = some handler)
    (confined : ∀ route, handler.place.Of route →
      w.manager.Confines handler.owner route (response handler)) :
    (w.respond id response).Ledger := by
  have same : w.Extends (w.respond id response) := by
    refine ⟨respond_gateway _ _ _, ⟨[], ?_⟩, ?_⟩
    · rw [respond_received, List.append_nil]
    · simp only [manager, respond_orchestrator]
      exact fun _ _ stored => stored
  have after : w.respond id response =
      { w with handlers := w.handlers.delete id }.send handler.number (response handler) := by
    rw [respond, got]
  constructor
  · intro id' handler' found
    rw [get_respond, Function.update_apply] at found
    split at found
    · cases found
    · obtain ⟨route, asked, of⟩ := ledger.filed id' handler' found
      exact ⟨route, asked.mono same, of⟩
  · intro number other member
    rw [after] at member
    rcases List.mem_append.mp member with before | here
    · exact (ledger.due number other before).mono same
    · cases List.mem_singleton.mp here
      obtain ⟨route, asked, of⟩ := ledger.filed id handler got
      exact Due.mono (.inr ⟨handler.owner, route, asked, confined route of⟩) same

theorem Linked.answers {o o' : Orchestrator} {handlers : Nat → Option Handler} {id : Nat}
    (linked : Linked o handlers) {label : Orchestrator.Label} {response : Handler → HttpResponse}
    (unasked : asks label = false) (moved : o.step label = some o')
    (answered : answer o label = some (id, response)) :
    ∃ handler, handlers id = some handler ∧ ∀ route, handler.place.Of route →
      o'.runtime.service.runManager.Confines handler.owner route (response handler) := by
  cases label with
  | runtime turn =>
      obtain ⟨stepped, -⟩ := runtime_of_step moved
      obtain ⟨⟨id', result⟩, settled, same⟩ := Option.map_eq_some_iff.mp answered
      cases same
      obtain ⟨random, task, rfl, found, settles⟩ := Runtime.settles_eq_some settled
      have fits (frame : Frame) (call : Call) (same : task = .calling frame call) :
          frame.Fits call :=
        linked.serial.loops.fits id' frame call (found.trans (congrArg some same))
      have waits := RunExecutionService.settles_serving fits settles
      have serving := linked.serving id'
      rw [found, Option.bind_some] at serving
      obtain ⟨handler, got⟩ : ∃ handler, handlers id' = some handler := by
        apply Option.ne_none_iff_exists'.mp
        intro nobody
        rw [nobody] at serving
        exact waits serving
      rw [got, Option.bind_some] at serving
      refine ⟨handler, got, fun route of => ?_⟩
      have confines := confines_settled fits (linked.serves id' handler task got found) serving of
        settles
      apply confines.mono
      intro runId owner stored
      exact owners_kept (fresh_of_unasked rfl) stepped runId owner stored
  | connect id' =>
      obtain ⟨⟨asked, asker, replayFrom, lastEventId, run⟩, found, same⟩ :=
        Option.map_eq_some_iff.mp answered
      cases same
      have streams := linked.streaming id
      rw [found] at streams
      cases got : handlers id with
      | none =>
          rw [got] at streams
          cases streams
      | some handler =>
          obtain ⟨number, owner, place⟩ := handler
          rw [got] at streams
          simp only [Option.map_some, Option.bind_some, Handler.stream] at streams
          split at streams
          · rename_i runId here
            cases here
            cases streams
            refine ⟨_, rfl, fun route of => ?_⟩
            cases route <;> cases of
            rcases requests_of_step unasked moved with ⟨turn, impossible, -, -, -⟩ |
              ⟨_, _, _, -, runtime, -⟩ | ⟨-, no_connect, -, -⟩
            · cases impossible
            · rw [runtime]
              exact confines_stream (linked.streamed id _ found) _ _
            · exact absurd rfl (no_connect _)
          · cases streams
  | _ => cases answered

theorem Ledger.step (ledger : w.Ledger) (linked : Linked w.orchestrator w.handlers.get)
    (fresh : w.FreshRun label) (moved : w.step label = some w') : w'.Ledger := by
  have steps := steps_of_step moved
  have extended := steps.extends fresh
  -- the request that has just come in
  have arrived (request : HttpRequest) :
      (w.received ++ [request])[w.received.length]? = some request := by
    rw [List.getElem?_append_right (Nat.le_refl _), Nat.sub_self]
    rfl
  cases steps with
  | refuses id random request message refused =>
      exact ledger.sends request _ (.inl ⟨request.headers, request.route, message,
        arrived request, refused, rfl⟩)
  | rejects id random headers body owner exception admitted free invalid =>
      refine ledger.sends _ _ (.inr ⟨owner, .createRun body, ⟨headers, arrived _, admitted⟩, ?_⟩)
      constructor
      · rintro about ⟨⟩
      · rintro about target ⟨⟩
      · rintro target ⟨⟩
      · rintro message ⟨⟩
        unfold RunExecutionService.createRunError at invalid
        split at invalid <;> cases invalid
  | begins id random request owner place orchestrator admitted free begun =>
      obtain ⟨headers, route⟩ := request
      have of : place.Of route := by
        cases begun with
        | creates body o' valid moved => exact trivial
        | reads runId => exact rfl
        | cancels runId body o' moved => exact ⟨rfl, rfl⟩
        | streams runId replayFrom lastEventId o' moved => exact rfl
      constructor
      · intro id' handler found
        rw [get_hold, Function.update_apply] at found
        split at found
        · cases found
          exact ⟨route, ⟨headers, arrived _, admitted⟩, of⟩
        · obtain ⟨route', asked, of'⟩ := ledger.filed id' handler found
          exact ⟨route', asked.mono extended, of'⟩
      · intro number response member
        exact (ledger.due number response member).mono extended
  | answers id number owner runId run found =>
      apply ledger.responds found
      intro route of
      cases route <;> cases of
      exact confines_getRun (linked.reading id number owner runId run found) _ owner
  | goes label orchestrator unasked stepped silent => exact ledger.keeps extended rfl rfl
  | responds label orchestrator id response unasked stepped answered =>
      obtain ⟨handler, got, confined⟩ := linked.answers unasked stepped answered
      have moved : w.Extends { w with orchestrator } :=
        ⟨rfl, ⟨[], (List.append_nil _).symm⟩, by simpa [manager] using extended.owners⟩
      exact (ledger.keeps moved rfl rfl).responds got confined

theorem books_of_reach {gateway : GatewayAuthService} {config : RunManagerConfig} {now : Int}
    (reached : Transition.Reach step FreshRun (init gateway config now) w) :
    Linked w.orchestrator w.handlers.get ∧ w.Ledger :=
  reached.invariant (fun w => Linked w.orchestrator w.handlers.get ∧ w.Ledger)
    ⟨Linked.init config now, Ledger.init gateway config now⟩
    (fun _ _ _ fresh books moved =>
      ⟨books.1.step fresh moved, books.2.step books.1 fresh moved⟩)

/-- A client without the proof of the gateway is told so, and one that the gateway vouches for is
told about runs of its own principal only: about the run that it asked for, and if there is no such
run of the principal, that it is not there. The events that are written to a stream later on are not
part of the answer that opens it. -/
theorem answers_are_confined (gateway : GatewayAuthService) (config : RunManagerConfig) (now : Int)
    (w : Api) (reached : Transition.Reach step FreshRun (init gateway config now) w) :
    ∀ number response, (number, response) ∈ w.answers → w.Due number response :=
  (books_of_reach reached).2.due

def localGateway : GatewayAuthService :=
  ⟨⟨"x-minerva-gateway-proof", "secret", "x-minerva-tenant-id", "x-minerva-subject-id"⟩,
    fun name => .ofList (jsLower name)⟩

def vouched (subjectId : String) (route : Route) : HttpRequest :=
  ⟨localGateway.vouching ⟨"acme", subjectId⟩, route⟩

def sharedRunLabels : List Label :=
  [.request 0 "a" (vouched "alice" (.createRun ⟨some "pack", some "hello", none⟩)),
    .request 1 "" ⟨.empty, .getRun "run_0_a"⟩,
    .request 1 "" (vouched "bob" (.getRun "run_0_a")),
    .goes (.runtime (.resume 0 "")), .goes (.runtime (.resume 0 "")),
    .goes (.runtime (.resume 0 "")), .answer 1,
    .request 2 "" (vouched "alice" (.cancelRun "run_0_a" none))] ++
    List.replicate 6 (.goes (.runtime (.resume 2 "")))

theorem bob_is_told_nothing :
    ∃ w : Api, w.answers.map (fun answer => (answer.1, answer.2.about)) =
        [(1, none), (0, some "run_0_a"), (2, none), (3, some "run_0_a")] ∧
      ∀ number response, (number, response) ∈ w.answers → w.Due number response := by
  have ran : (Transition.exec (Transition.guarded step FreshRun) (init localGateway .default 0)
      sharedRunLabels).map (fun w => w.answers.map (fun answer => (answer.1, answer.2.about))) =
      some [(1, none), (0, some "run_0_a"), (2, none), (3, some "run_0_a")] := by decide +kernel
  obtain ⟨w, reached, answers⟩ := Transition.reach_of_observed _ _ ran
  exact ⟨w, answers, answers_are_confined localGateway .default 0 w reached⟩

end Api

end Minerva
