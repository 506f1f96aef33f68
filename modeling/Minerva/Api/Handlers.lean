import Minerva.Api.Routes

namespace Minerva

theorem Task.serves_of_idle {m : RunManager} {owner : OwnerPrincipal} {task : Task}
    (idle : task.serving = none) : task.Serves m owner := by
  unfold Task.Serves
  split
  · cases idle
  · cases idle
  · cases idle
  · trivial

namespace Handler

def serving (handler : Handler) : Option Serving :=
  match handler.place with
  | .creating => some .createRun
  | .cancelling runId _ => some (.cancelRun runId)
  | .reading _ _ => none
  | .streaming _ => none

def stream (handler : Handler) : Option (RunId × OwnerPrincipal) :=
  match handler.place with
  | .streaming runId => some (runId, handler.owner)
  | _ => none

end Handler

def RunManager.Reads (m : RunManager) (runId : RunId) (run : Option Run) : Prop :=
  ∀ read ∈ run, read.id = runId ∧ m.ownerOf runId = some read.owner

namespace Api

/-- The handlers in progress fit the orchestrator. -/
structure Linked (o : Orchestrator) (handlers : Nat → Option Handler) : Prop where
  serial : o.runtime.Serial
  serving : ∀ id, (o.runtime.tasks.get id).bind Task.serving = (handlers id).bind Handler.serving
  serves : ∀ id handler task, handlers id = some handler → o.runtime.tasks.get id = some task →
    task.Serves o.runtime.service.runManager handler.owner
  streaming : ∀ id, (o.requests.get id).map (fun request => (request.runId, request.owner)) =
    (handlers id).bind Handler.stream
  streamed : ∀ id request, o.requests.get id = some request →
    o.runtime.service.runManager.Reads request.runId request.run
  reading : ∀ id number owner runId run, handlers id = some ⟨number, owner, .reading runId run⟩ →
    o.runtime.service.runManager.Reads runId run

theorem Linked.init (config : RunManagerConfig) (now : Int) :
    Linked (Orchestrator.init config now) (fun _ => none) where
  serial := Runtime.Serial.init config now
  serving := fun _ => rfl
  serves := by
    intro id handler task found
    cases found
  streaming := fun _ => rfl
  streamed := by
    intro id request found
    cases found
  reading := by
    intro id number owner runId run found
    cases found

variable {o o' : Orchestrator} {handlers : Nat → Option Handler} {id : Nat}

theorem Linked.same (linked : Linked o handlers) (runtime : o'.runtime = o.runtime)
    (requests : o'.requests = o.requests) : Linked o' handlers := by
  constructor
  · rw [runtime]
    exact linked.serial
  · rw [runtime]
    exact linked.serving
  · rw [runtime]
    exact linked.serves
  · rw [requests]
    exact linked.streaming
  · rw [requests, runtime]
    exact linked.streamed
  · rw [runtime]
    exact linked.reading

theorem Linked.reads (linked : Linked o handlers) (runId : RunId) :
    o.runtime.service.runManager.Reads runId (o.runtime.service.runManager.getRun runId) := by
  intro read found
  exact ⟨linked.serial.queues.named.own runId read found, RunManager.ownerOf_of_getRun found⟩

theorem reads_mono {m m' : RunManager} {runId : RunId} {run : Option Run} (reads : m.Reads runId run)
    (keeps : ∀ runId owner, m.ownerOf runId = some owner → m'.ownerOf runId = some owner) :
    m'.Reads runId run := by
  intro read member
  obtain ⟨named, stored⟩ := reads read member
  exact ⟨named, keeps runId read.owner stored⟩

theorem Linked.update (linked : Linked o handlers) {next : Option Handler}
    (before : (handlers id).bind Handler.serving = none ∧ (handlers id).bind Handler.stream = none)
    (after : next.bind Handler.serving = none ∧ next.bind Handler.stream = none)
    (reads : ∀ number owner runId run, next = some ⟨number, owner, .reading runId run⟩ →
      o.runtime.service.runManager.Reads runId run) :
    Linked o (Function.update handlers id next) := by
  constructor
  · exact linked.serial
  · intro other
    rw [linked.serving other, Function.update_apply]
    split
    · rename_i here
      rw [here, before.1, after.1]
    · rfl
  · intro other handler task found task_found
    rw [Function.update_apply] at found
    split at found
    · rename_i here
      subst here
      have idle := (linked.serving other).trans before.1
      rw [task_found] at idle
      exact Task.serves_of_idle idle
    · exact linked.serves other handler task found task_found
  · intro other
    rw [linked.streaming other, Function.update_apply]
    split
    · rename_i here
      rw [here, before.2, after.2]
    · rfl
  · exact linked.streamed
  · intro other number owner runId run found
    rw [Function.update_apply] at found
    split at found
    · exact reads number owner runId run found
    · exact linked.reading other number owner runId run found

theorem owners_kept {runtime : Runtime} {label : Runtime.Label} (fresh : o.runtime.FreshRun label)
    (moved : o.runtime.step label = some runtime) (runId : RunId) (owner : OwnerPrincipal)
    (stored : o.runtime.service.runManager.ownerOf runId = some owner) :
    runtime.service.runManager.ownerOf runId = some owner :=
  (Runtime.steps_of_step moved).ownerOf fresh stored

theorem Linked.spawn (linked : Linked o handlers) {label : Runtime.Label} {task : Task}
    {handler : Handler} (free : handlers id = none) (fresh : o.runtime.FreshRun label)
    (moved : o.runtime.step label = some o'.runtime) (requests : o'.requests = o.requests)
    (tasks : o'.runtime.tasks.get = Function.update o.runtime.tasks.get id (some task))
    (serving : task.serving = handler.serving) (waits : handler.serving ≠ none)
    (serves : task.Serves o'.runtime.service.runManager handler.owner) :
    Linked o' (Function.update handlers id (some handler)) := by
  have keeps := owners_kept fresh moved
  have no_stream : handler.stream = none := by
    unfold Handler.serving at waits
    unfold Handler.stream
    split at waits <;> simp_all
  have no_read (number : Nat) (owner : OwnerPrincipal) (runId : RunId) (run : Option Run) :
      handler ≠ ⟨number, owner, .reading runId run⟩ := by
    rintro rfl
    exact waits rfl
  constructor
  · exact linked.serial.step fresh moved
  · intro other
    rw [tasks, Function.update_apply, Function.update_apply]
    split
    · exact serving
    · exact linked.serving other
  · intro other handler' task' found task_found
    rw [Function.update_apply] at found
    rw [tasks, Function.update_apply] at task_found
    split at found
    · rename_i here
      rw [if_pos here] at task_found
      cases found
      cases task_found
      exact serves
    · rename_i different
      rw [if_neg different] at task_found
      exact (linked.serves other handler' task' found task_found).mono keeps
  · intro other
    rw [requests, linked.streaming other, Function.update_apply]
    split
    · rename_i here
      rw [here, free, Option.bind_some, no_stream]
      rfl
    · rfl
  · intro other request found
    rw [requests] at found
    exact reads_mono (linked.streamed other request found) keeps
  · intro other number owner runId run found
    rw [Function.update_apply] at found
    split at found
    · exact absurd (Option.some.inj found) (no_read number owner runId run)
    · exact reads_mono (linked.reading other number owner runId run found) keeps

theorem Linked.turn (linked : Linked o handlers) {label : Runtime.Label}
    (fresh : o.runtime.FreshRun label) (unasked : label.asks = false)
    (moved : o.runtime.step label = some o'.runtime) (requests : o'.requests = o.requests)
    {after : Nat → Option Handler}
    (left : ∀ id, after id =
      if (o.runtime.settles label).map Prod.fst = some id then none else handlers id) :
    Linked o' after := by
  have keeps := owners_kept fresh moved
  have steps := Runtime.steps_of_step moved
  have before {other : Nat} {handler : Handler} (found : after other = some handler) :
      handlers other = some handler := by
    rw [left other] at found
    split at found
    · cases found
    · exact found
  -- what answers in the step is the handler of a task
  have serves_task {other : Nat} (answers : (o.runtime.settles label).map Prod.fst = some other) :
      ((handlers other).bind Handler.serving) ≠ none := by
    obtain ⟨⟨id, result⟩, settled, rfl⟩ := Option.map_eq_some_iff.mp answers
    obtain ⟨random, task, rfl, found, settles⟩ := Runtime.settles_eq_some settled
    rw [← linked.serving id, found]
    exact RunExecutionService.settles_serving (fun frame call same =>
      linked.serial.loops.fits id frame call (found.trans (congrArg some same))) settles
  constructor
  · exact linked.serial.step fresh moved
  · intro other
    rw [steps.serving linked.serial.loops unasked other, left other]
    split
    · rfl
    · exact linked.serving other
  · intro other handler task found task_found
    by_cases idle : (o'.runtime.tasks.get other).bind Task.serving = none
    · rw [task_found] at idle
      exact Task.serves_of_idle idle
    · exact steps.serves fresh linked.serial unasked idle
        (fun task found' => linked.serves other handler task (before found) found') task task_found
  · intro other
    rw [requests, linked.streaming other, left other]
    split
    · rename_i answers
      have waits := serves_task answers
      cases found : handlers other with
      | none => rfl
      | some handler =>
          rw [found, Option.bind_some] at waits
          unfold Handler.serving at waits
          simp only [Option.bind_some, Option.bind_none, Handler.stream]
          split at waits <;> simp_all
    · rfl
  · intro other request found
    rw [requests] at found
    exact reads_mono (linked.streamed other request found) keeps
  · intro other number owner runId run found
    exact reads_mono (linked.reading other number owner runId run (before found)) keeps

theorem Linked.stream (linked : Linked o handlers) {request : Option StreamRequest}
    {handler : Option Handler} (runtime : o'.runtime = o.runtime)
    (requests : o'.requests.get = Function.update o.requests.get id request)
    (before : (handlers id).bind Handler.serving = none)
    (after : handler.bind Handler.serving = none)
    (same : request.map (fun request => (request.runId, request.owner)) =
      handler.bind Handler.stream)
    (reads : ∀ asked, request = some asked →
      o.runtime.service.runManager.Reads asked.runId asked.run)
    (idle : ∀ number owner runId run, handler ≠ some ⟨number, owner, .reading runId run⟩) :
    Linked o' (Function.update handlers id handler) := by
  constructor
  · rw [runtime]
    exact linked.serial
  · intro other
    rw [runtime, linked.serving other, Function.update_apply]
    split
    · rename_i here
      rw [here, before, after]
    · rfl
  · intro other handler' task found task_found
    rw [runtime] at task_found ⊢
    rw [Function.update_apply] at found
    split at found
    · rename_i here
      have served := (linked.serving other).trans (here ▸ before)
      rw [task_found] at served
      exact Task.serves_of_idle served
    · exact linked.serves other handler' task found task_found
  · intro other
    rw [requests, Function.update_apply, Function.update_apply]
    split
    · exact same
    · exact linked.streaming other
  · intro other asked found
    rw [runtime]
    rw [requests, Function.update_apply] at found
    split at found
    · exact reads asked found
    · exact linked.streamed other asked found
  · intro other number owner runId run found
    rw [runtime]
    rw [Function.update_apply] at found
    split at found
    · exact absurd found (idle number owner runId run)
    · exact linked.reading other number owner runId run found

variable {w w' : Api} {label : Label}

def manager (w : Api) : RunManager := w.orchestrator.runtime.service.runManager

theorem get_hold (w : Api) (id number : Nat) (owner : OwnerPrincipal) (place : HandlerPlace) :
    (w.hold id number owner place).handlers.get =
      Function.update w.handlers.get id (some ⟨number, owner, place⟩) :=
  EsMap.get_set_eq_update _ _ _

theorem get_respond (w : Api) (id : Nat) (response : Handler → HttpResponse) :
    (w.respond id response).handlers.get = Function.update w.handlers.get id none := by
  unfold respond
  split
  · rename_i absent
    rw [← absent, Function.update_eq_self]
  · exact EsMap.get_delete_eq_update _ _

@[simp] theorem respond_orchestrator (w : Api) (id : Nat) (response : Handler → HttpResponse) :
    (w.respond id response).orchestrator = w.orchestrator := by
  unfold respond
  split <;> rfl

@[simp] theorem respond_received (w : Api) (id : Nat) (response : Handler → HttpResponse) :
    (w.respond id response).received = w.received := by
  unfold respond
  split <;> rfl

@[simp] theorem respond_gateway (w : Api) (id : Nat) (response : Handler → HttpResponse) :
    (w.respond id response).gateway = w.gateway := by
  unfold respond
  split <;> rfl

theorem FreshRun.runtime {random : String} {headers : IncomingHttpHeaders}
    {body : CreateRunRequestBody} (fresh : w.FreshRun (.request id random ⟨headers, .createRun body⟩))
    (owner : OwnerPrincipal) : w.orchestrator.runtime.FreshRun (.createRun id random owner body) := by
  rintro runId ⟨⟩
  exact fresh

theorem fresh_of_unasked {runtime : Runtime} {label : Runtime.Label} (unasked : label.asks = false) :
    runtime.FreshRun label := by
  cases label with
  | createRun id random owner body => cases unasked
  | _ =>
      rintro runId ⟨⟩

theorem runtime_of_step {o o' : Orchestrator} {label : Runtime.Label}
    (moved : o.step (.runtime label) = some o') :
    o.runtime.step label = some o'.runtime ∧ o'.requests = o.requests := by
  obtain ⟨runtime, stepped, rfl⟩ := Option.map_eq_some_iff.mp moved
  exact ⟨stepped, rfl⟩

theorem requests_of_step {o o' : Orchestrator} {label : Orchestrator.Label}
    (unasked : asks label = false) (moved : o.step label = some o') :
    (∃ turn, label = .runtime turn ∧ turn.asks = false ∧ o.runtime.step turn = some o'.runtime ∧
        o'.requests = o.requests) ∨
      (∃ id request, label = .connect id ∧ o.requests.get id = some request ∧
        o'.runtime = o.runtime ∧ o'.requests.get = Function.update o.requests.get id none) ∨
      (∀ turn, label ≠ .runtime turn) ∧ (∀ id, label ≠ .connect id) ∧
        o'.runtime = o.runtime ∧ o'.requests = o.requests := by
  have served {t : Orchestrator} {call : StreamServer.Label} (goes : t.serve call = some o') :
      o'.runtime = t.runtime ∧ o'.requests = t.requests := by
    obtain ⟨streams, -, rfl⟩ := Option.map_eq_some_iff.mp goes
    exact ⟨rfl, rfl⟩
  cases label with
  | runtime turn =>
      obtain ⟨stepped, requests⟩ := runtime_of_step moved
      exact .inl ⟨turn, rfl, unasked, stepped, requests⟩
  | streamEvents id runId owner replayFrom lastEventId => cases unasked
  | connect id =>
      simp only [Orchestrator.step] at moved
      split at moved
      · cases moved
      · rename_i request found
        obtain ⟨runtime, requests⟩ := served moved
        refine .inr (.inl ⟨id, request, rfl, found, runtime, ?_⟩)
        rw [requests]
        exact EsMap.get_delete_eq_update _ _
  | disconnect id => exact .inr (.inr ⟨fun _ => by simp, fun _ => by simp, served moved⟩)
  | keepAlive id => exact .inr (.inr ⟨fun _ => by simp, fun _ => by simp, served moved⟩)
  | checkRunState id =>
      simp only [Orchestrator.step] at moved
      split at moved
      · cases moved
      · obtain ⟨runtime, requests⟩ := served moved
        exact .inr (.inr ⟨fun _ => by simp, fun _ => by simp, runtime, requests⟩)
  | checked id =>
      simp only [Orchestrator.step] at moved
      split at moved
      · obtain ⟨runtime, requests⟩ := served moved
        exact .inr (.inr ⟨fun _ => by simp, fun _ => by simp, runtime, requests⟩)
      · cases moved

theorem Linked.begins {o o' : Orchestrator} {handlers : Nat → Option Handler}
    (linked : Linked o handlers) {random : String} {number : Nat} {owner : OwnerPrincipal}
    {route : Route} {place : HandlerPlace} (free : handlers id = none)
    (fresh : ∀ body, route = .createRun body → o.runtime.FreshRun (.createRun id random owner body))
    (begun : Begins o id random owner route place o') :
    Linked o' (Function.update handlers id (some ⟨number, owner, place⟩)) := by
  have idle : (handlers id).bind Handler.serving = none ∧
      (handlers id).bind Handler.stream = none := by
    rw [free]
    exact ⟨rfl, rfl⟩
  cases begun with
  | creates body o' valid moved =>
      obtain ⟨stepped, requests⟩ := runtime_of_step moved
      obtain ⟨-, same⟩ := Runtime.spawn_eq_some stepped
      obtain ⟨run, task, mine, stored⟩ := o.runtime.service.createRun_valid random owner valid
      have spawned : o'.runtime.tasks.get = Function.update o.runtime.tasks.get id
          (some (.calling .createRun (.createRun (.persisted run)))) := by
        rw [same, Runtime.get_store, task]
      apply linked.spawn free (fresh body rfl) stepped requests spawned rfl
      · rintro ⟨⟩
      · rw [same, Runtime.store_service]
        exact ⟨mine, stored⟩
  | reads runId =>
      apply linked.update idle ⟨rfl, rfl⟩
      rintro number owner runId run ⟨⟩
      exact linked.reads runId
  | cancels runId body o' moved =>
      obtain ⟨stepped, requests⟩ := runtime_of_step moved
      obtain ⟨-, same⟩ := Runtime.spawn_eq_some stepped
      have fresh : o.runtime.FreshRun (.cancelRun id runId owner body) := by
        rintro runId ⟨⟩
      have spawned : o'.runtime.tasks.get = Function.update o.runtime.tasks.get id
          (some (.cancelRequested runId owner (body.bind CancelRunRequestBody.reason)
            (o.runtime.service.runManager.getRun runId))) := by
        rw [same, Runtime.get_store]
        rfl
      apply linked.spawn free fresh stepped requests spawned rfl
      · rintro ⟨⟩
      · rw [same, Runtime.store_service]
        exact ⟨rfl, linked.reads runId⟩
  | streams runId replayFrom lastEventId o' moved =>
      simp only [Orchestrator.step] at moved
      split at moved
      · cases moved
      · cases moved
        refine linked.stream rfl (EsMap.get_set_eq_update o.requests id _) idle.1 rfl rfl ?_ ?_
        · rintro asked ⟨⟩
          exact linked.reads runId
        · rintro number owner runId run ⟨⟩

/-- A step keeps the handlers and what they wait for together. -/
theorem Linked.step (linked : Linked w.orchestrator w.handlers.get) (fresh : w.FreshRun label)
    (moved : w.step label = some w') : Linked w'.orchestrator w'.handlers.get := by
  cases steps_of_step moved with
  | refuses id random request message refused => exact linked
  | rejects id random headers body owner exception admitted free invalid => exact linked
  | begins id random request owner place orchestrator admitted free begun =>
      rw [get_hold]
      apply linked.begins free _ begun
      intro body route
      obtain ⟨headers, asked⟩ := request
      subst route
      exact fresh.runtime owner
  | answers id number owner runId run found =>
      rw [get_respond, respond_orchestrator]
      apply linked.update _ ⟨rfl, rfl⟩ (by simp)
      rw [found]
      exact ⟨rfl, rfl⟩
  | goes label orchestrator unasked stepped silent =>
      rcases requests_of_step unasked stepped with ⟨turn, rfl, unasked, turned, requests⟩ |
        ⟨id, request, rfl, found, -, -⟩ | ⟨-, -, runtime, requests⟩
      · apply linked.turn (fresh_of_unasked unasked) unasked turned requests
        intro id
        have nobody : w.orchestrator.runtime.settles turn = none := by simpa [answer] using silent
        simp [nobody]
      · simp [answer, found] at silent
      · exact linked.same runtime requests
  | responds label orchestrator id response unasked stepped answered =>
      rw [get_respond, respond_orchestrator]
      rcases requests_of_step unasked stepped with ⟨turn, rfl, unasked, turned, requests⟩ |
        ⟨id', request, rfl, found, runtime, requests⟩ | ⟨no_turn, no_connect, -, -⟩
      · apply linked.turn (fresh_of_unasked unasked) unasked turned requests
        intro other
        obtain ⟨⟨id', result⟩, settled, same⟩ := Option.map_eq_some_iff.mp answered
        cases same
        rw [settled, Function.update_apply]
        simp [eq_comm]
      · simp only [answer, found, Option.map_some, Option.some.injEq, Prod.mk.injEq] at answered
        obtain ⟨rfl, -⟩ := answered
        have streams := linked.streaming id'
        rw [found] at streams
        refine linked.stream runtime requests ?_ rfl rfl (by simp) (by simp)
        cases got : w.handlers.get id' with
        | none => rfl
        | some handler =>
            rw [got] at streams
            simp only [Option.map_some, Option.bind_some, Handler.stream] at streams ⊢
            split at streams
            · rename_i place
              simp [Handler.serving, place]
            · cases streams
      · unfold answer at answered
        split at answered
        · exact absurd rfl (no_turn _)
        · exact absurd rfl (no_connect _)
        · cases answered

end Api

end Minerva
