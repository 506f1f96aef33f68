import Minerva.Auth.GatewayAuth
import Minerva.Runtime.Orchestrator
import Minerva.Runtime.Serving
import Minerva.Services.Positions

/-! The HTTP interface: the routes of `RunsController` and `SSEController` behind
`GatewayAuthGuard`, over the running orchestrator. -/

namespace Minerva

inductive Route where
  | createRun (body : CreateRunRequestBody)
  | getRun (runId : RunId)
  | cancelRun (runId : RunId) (body : Option CancelRunRequestBody)
  | streamEvents (runId : RunId) (replayFrom lastEventId : Option String)

structure HttpRequest where
  headers : IncomingHttpHeaders
  route : Route

inductive HttpResponse where
  | created (body : Json)
  | ok (body : Json)
  | stream (runId : RunId)
  | failed (exception : HttpException)

/-- The run that an answer tells something about. -/
def HttpResponse.about : HttpResponse → Option RunId
  | .created body => (body.member "runId").bind Json.asStr
  | .ok body => (body.member "runId").bind Json.asStr
  | .stream runId => some runId
  | .failed _ => none

/-- Why `createRun` of the service rejects a body at once. -/
def RunExecutionService.createRunError (body : CreateRunRequestBody) : Option HttpException :=
  match truthy (body.prompt.map jsTrim), truthy (body.agentPackId.map jsTrim) with
  | none, _ => some (.badRequest "prompt is required")
  | some _, none => some (.badRequest "agentPackId is required")
  | some _, some _ => none

theorem RunExecutionService.createRun_valid (s : RunExecutionService) (random : String)
    {body : CreateRunRequestBody} (owner : OwnerPrincipal) (valid : createRunError body = none) :
    ∃ run, (s.createRun random owner body).2 =
        some (.calling .createRun (.createRun (.persisted run))) ∧ run.owner = owner ∧
      (s.createRun random owner body).1.runManager.ownerOf run.id = some owner := by
  unfold createRunError at valid
  unfold RunExecutionService.createRun
  split at valid
  · cases valid
  · cases valid
  · rename_i prompt agentPackId asked packed
    rw [asked, packed]
    let run := RunManager.newRun s.runManager.config s.now random
      ⟨some owner, none, agentPackId, prompt, body.maxDurationMs⟩
    have stored : ((s.runManager.repo.create run).getById run.id) = some run :=
      EsMap.get_set_self _ _ _
    exact ⟨run, rfl, rfl, RunManager.ownerOf_eq_some.mpr ⟨run, stored, rfl⟩⟩

namespace RunsController

def createRun (run : Run) : Json :=
  .obj [("runId", .str run.id),
    ("state", .str run.state.value),
    ("createdAt", .str (toISOString run.createdAt)),
    ("queuePosition", toRunResponse.orNull (run.queuePosition.map (fun position => .num position))),
    ("tenantId", .str run.owner.tenantId),
    ("subjectId", .str run.owner.subjectId)]

def cancelRun (body : Option CancelRunRequestBody) (run : Run) : Json :=
  .obj [("runId", .str run.id),
    ("state", .str run.state.value),
    ("cancelledAt",
      toRunResponse.orNull (run.completedAt.map (fun time => .str (toISOString time)))),
    ("reason",
      .str (((body.bind CancelRunRequestBody.reason).or run.error).getD "cancelled"))]

/-- `getRun` after its read of the run. -/
def getRun (now : Int) (runId : RunId) (owner : OwnerPrincipal) : Option Run → HttpResponse
  | none => .failed (.notFound ("Run '" ++ runId ++ "' not found"))
  | some run =>
    if sameOwnerPrincipal run.owner owner then .ok (toRunResponse now run)
    else .failed (.notFound ("Run '" ++ run.id ++ "' not found"))

end RunsController

def StreamRequest.response (request : StreamRequest) : HttpResponse :=
  if request.accepted then .stream request.runId
  else .failed (.notFound ("Run " ++ request.runId ++ " not found"))

/-- What a request waits for that has passed the guard. -/
inductive HandlerPlace where
  | creating
  | reading (runId : RunId) (run : Option Run)
  | cancelling (runId : RunId) (body : Option CancelRunRequestBody)
  | streaming (runId : RunId)

structure Handler where
  number : Nat
  owner : OwnerPrincipal
  place : HandlerPlace

/-- The requests so far, by their number in the order of arrival, and the answers to them. -/
structure Api where
  gateway : GatewayAuthService
  orchestrator : Orchestrator
  received : List HttpRequest
  handlers : EsMap Nat Handler
  answers : List (Nat × HttpResponse)

/-- What `RunsController` sends when the method of the service has settled. -/
def Handler.response (handler : Handler) : Except HttpException Run → HttpResponse
  | .error exception => .failed exception
  | .ok run =>
    match handler.place with
    | .creating => .created (RunsController.createRun run)
    | .cancelling _ body => .ok (RunsController.cancelRun body run)
    | .reading _ _ => .failed .internalServerError
    | .streaming _ => .failed .internalServerError

namespace Api

inductive Label where
  | request (id : Nat) (random : String) (request : HttpRequest)
  /-- `getRun` goes on after its read of the run -/
  | answer (id : Nat)
  | goes (label : Orchestrator.Label)

def init (gateway : GatewayAuthService) (config : RunManagerConfig) (now : Int) : Api :=
  ⟨gateway, .init config now, [], .empty, []⟩

def send (w : Api) (number : Nat) (response : HttpResponse) : Api :=
  { w with answers := w.answers ++ [(number, response)] }

def hold (w : Api) (id number : Nat) (owner : OwnerPrincipal) (place : HandlerPlace) : Api :=
  { w with handlers := w.handlers.set id ⟨number, owner, place⟩ }

/-- The handler called `id` answers. -/
def respond (w : Api) (id : Nat) (response : Handler → HttpResponse) : Api :=
  match w.handlers.get id with
  | none => w
  | some handler =>
    { w with handlers := w.handlers.delete id }.send handler.number (response handler)

/-- A request that has passed the guard, up to its first `await`. -/
def handle (w : Api) (id number : Nat) (random : String) (owner : OwnerPrincipal) :
    Route → Option Api
  | .createRun body =>
    match RunExecutionService.createRunError body with
    | some exception => some (w.send number (.failed exception))
    | none =>
      (w.orchestrator.step (.runtime (.createRun id random owner body))).map (fun orchestrator =>
        { w with orchestrator }.hold id number owner .creating)
  | .getRun runId =>
    some (w.hold id number owner
      (.reading runId (w.orchestrator.runtime.service.runManager.getRun runId)))
  | .cancelRun runId body =>
    (w.orchestrator.step (.runtime (.cancelRun id runId owner body))).map (fun orchestrator =>
      { w with orchestrator }.hold id number owner (.cancelling runId body))
  | .streamEvents runId replayFrom lastEventId =>
    (w.orchestrator.step (.streamEvents id runId owner replayFrom lastEventId)).map
      (fun orchestrator => { w with orchestrator }.hold id number owner (.streaming runId))

/-- The answer that a step of the orchestrator brings about, with the handler that gives it. -/
def answer (w : Orchestrator) : Orchestrator.Label → Option (Nat × (Handler → HttpResponse))
  | .runtime label =>
    (w.runtime.settles label).map (fun settled =>
      (settled.1, fun handler => handler.response settled.2))
  | .connect id => (w.requests.get id).map (fun request => (id, fun _ => request.response))
  | _ => none

def asks : Orchestrator.Label → Bool
  | .runtime label => label.asks
  | .streamEvents _ _ _ _ _ => true
  | _ => false

def step (w : Api) : Label → Option Api
  | .request id random request =>
    let number := w.received.length
    let w := { w with received := w.received ++ [request] }
    match w.gateway.authenticate request.headers with
    | .error message => some (w.send number (.failed (.unauthorized message)))
    | .ok owner =>
      if w.handlers.has id then none else w.handle id number random owner request.route
  | .answer id =>
    match w.handlers.get id with
    | some ⟨_, owner, .reading runId run⟩ =>
      some (w.respond id (fun _ =>
        RunsController.getRun w.orchestrator.runtime.service.now runId owner run))
    | _ => none
  | .goes label =>
    if asks label then none
    else
      (w.orchestrator.step label).map (fun orchestrator =>
        match answer w.orchestrator label with
        | none => { w with orchestrator }
        | some (id, response) => { w with orchestrator }.respond id response)

/-- A generated run id is not in use. -/
def FreshRun (w : Api) : Label → Prop
  | .request _ random ⟨_, .createRun _⟩ =>
    w.orchestrator.runtime.stateOf
      (RunManager.newRunId w.orchestrator.runtime.service.now random) = none
  | _ => True

instance (w : Api) : ∀ label, Decidable (w.FreshRun label)
  | .request _ _ ⟨_, .createRun _⟩ => inferInstanceAs (Decidable (_ = none))
  | .request _ _ ⟨_, .getRun _⟩ | .request _ _ ⟨_, .cancelRun _ _⟩
  | .request _ _ ⟨_, .streamEvents _ _ _⟩ | .answer _ | .goes _ => instDecidableTrue

variable {w w' : Api} {label : Label}

inductive Begins (o : Orchestrator) (id : Nat) (random : String) (owner : OwnerPrincipal) :
    Route → HandlerPlace → Orchestrator → Prop
  | creates (body : CreateRunRequestBody) (o' : Orchestrator)
      (valid : RunExecutionService.createRunError body = none)
      (moved : o.step (.runtime (.createRun id random owner body)) = some o') :
      Begins o id random owner (.createRun body) .creating o'
  | reads (runId : RunId) :
      Begins o id random owner (.getRun runId)
        (.reading runId (o.runtime.service.runManager.getRun runId)) o
  | cancels (runId : RunId) (body : Option CancelRunRequestBody) (o' : Orchestrator)
      (moved : o.step (.runtime (.cancelRun id runId owner body)) = some o') :
      Begins o id random owner (.cancelRun runId body) (.cancelling runId body) o'
  | streams (runId : RunId) (replayFrom lastEventId : Option String) (o' : Orchestrator)
      (moved : o.step (.streamEvents id runId owner replayFrom lastEventId) = some o') :
      Begins o id random owner (.streamEvents runId replayFrom lastEventId) (.streaming runId) o'

inductive Steps (w : Api) : Label → Api → Prop
  | refuses (id : Nat) (random : String) (request : HttpRequest) (message : String)
      (refused : w.gateway.authenticate request.headers = .error message) :
      Steps w (.request id random request)
        ({ w with received := w.received ++ [request] }.send w.received.length
          (.failed (.unauthorized message)))
  | rejects (id : Nat) (random : String) (headers : IncomingHttpHeaders)
      (body : CreateRunRequestBody) (owner : OwnerPrincipal) (exception : HttpException)
      (admitted : w.gateway.authenticate headers = .ok owner) (free : w.handlers.get id = none)
      (invalid : RunExecutionService.createRunError body = some exception) :
      Steps w (.request id random ⟨headers, .createRun body⟩)
        ({ w with received := w.received ++ [HttpRequest.mk headers (.createRun body)] }.send
          w.received.length (.failed exception))
  | begins (id : Nat) (random : String) (request : HttpRequest) (owner : OwnerPrincipal)
      (place : HandlerPlace) (orchestrator : Orchestrator)
      (admitted : w.gateway.authenticate request.headers = .ok owner)
      (free : w.handlers.get id = none)
      (begun : Begins w.orchestrator id random owner request.route place orchestrator) :
      Steps w (.request id random request)
        ({ w with received := w.received ++ [request], orchestrator }.hold id w.received.length
          owner place)
  | answers (id number : Nat) (owner : OwnerPrincipal) (runId : RunId) (run : Option Run)
      (found : w.handlers.get id = some ⟨number, owner, .reading runId run⟩) :
      Steps w (.answer id) (w.respond id (fun _ =>
        RunsController.getRun w.orchestrator.runtime.service.now runId owner run))
  | goes (label : Orchestrator.Label) (orchestrator : Orchestrator) (unasked : asks label = false)
      (moved : w.orchestrator.step label = some orchestrator)
      (silent : answer w.orchestrator label = none) :
      Steps w (.goes label) { w with orchestrator }
  | responds (label : Orchestrator.Label) (orchestrator : Orchestrator) (id : Nat)
      (response : Handler → HttpResponse) (unasked : asks label = false)
      (moved : w.orchestrator.step label = some orchestrator)
      (answered : answer w.orchestrator label = some (id, response)) :
      Steps w (.goes label) ({ w with orchestrator }.respond id response)

theorem handle_eq_some {received : List HttpRequest} {id number : Nat} {random : String}
    {owner : OwnerPrincipal} {route : Route}
    (handled : { w with received }.handle id number random owner route = some w') :
    (∃ body exception, route = .createRun body ∧
        RunExecutionService.createRunError body = some exception ∧
        w' = { w with received }.send number (.failed exception)) ∨
      ∃ place orchestrator, Begins w.orchestrator id random owner route place orchestrator ∧
        w' = { w with received, orchestrator }.hold id number owner place := by
  cases route with
  | createRun body =>
      simp only [handle] at handled
      split at handled
      · rename_i exception invalid
        cases handled
        exact .inl ⟨body, exception, rfl, invalid, rfl⟩
      · rename_i valid
        obtain ⟨orchestrator, moved, rfl⟩ := Option.map_eq_some_iff.mp handled
        exact .inr ⟨_, orchestrator, .creates body orchestrator valid moved, rfl⟩
  | getRun runId =>
      cases handled
      exact .inr ⟨_, _, .reads runId, rfl⟩
  | cancelRun runId body =>
      obtain ⟨orchestrator, moved, rfl⟩ := Option.map_eq_some_iff.mp handled
      exact .inr ⟨_, orchestrator, .cancels runId body orchestrator moved, rfl⟩
  | streamEvents runId replayFrom lastEventId =>
      obtain ⟨orchestrator, moved, rfl⟩ := Option.map_eq_some_iff.mp handled
      exact .inr ⟨_, orchestrator, .streams runId replayFrom lastEventId orchestrator moved, rfl⟩

theorem steps_of_step (moved : w.step label = some w') : w.Steps label w' := by
  cases label with
  | request id random request =>
      simp only [step] at moved
      split at moved
      · rename_i message refused
        cases moved
        exact .refuses id random request message refused
      · rename_i owner admitted
        split at moved
        · cases moved
        · rename_i unused
          have free : w.handlers.get id = none := by simpa [EsMap.has] using unused
          rcases handle_eq_some moved with ⟨body, exception, route, invalid, rfl⟩ |
            ⟨place, orchestrator, begun, rfl⟩
          · obtain ⟨headers, asked⟩ := request
            subst route
            exact .rejects id random headers body owner exception admitted free invalid
          · exact .begins id random request owner place orchestrator admitted free begun
  | answer id =>
      simp only [step] at moved
      split at moved
      · rename_i number owner runId run found
        cases moved
        exact .answers id number owner runId run found
      · cases moved
  | goes label =>
      simp only [step] at moved
      split at moved
      · cases moved
      · rename_i unasked
        obtain ⟨orchestrator, stepped, rfl⟩ := Option.map_eq_some_iff.mp moved
        split
        · rename_i silent
          exact .goes label orchestrator (by simpa using unasked) stepped silent
        · rename_i id response answered
          exact .responds label orchestrator id response (by simpa using unasked) stepped answered

end Api

end Minerva
