import Minerva.Api.Waiting

/-! Who brings about what: a run stands for one request that its owner has made through the gateway,
and it is cancelled only on a request of its owner. -/

namespace Minerva

namespace Api

variable {w w' : Api} {label : Label} {id : Nat}

/-- The body asks for the pack and the prompt, which the service has trimmed. -/
def Wants (body : CreateRunRequestBody) (agentPackId prompt : String) : Prop :=
  truthy (body.prompt.map jsTrim) = some prompt ∧
    truthy (body.agentPackId.map jsTrim) = some agentPackId

/-- A step keeps the charter of a run, or it is the request that makes the run. -/
theorem Steps.charterOf (steps : w.Steps label w') (runId : RunId) :
    w'.manager.charterOf runId = w.manager.charterOf runId ∨
      ∃ id random headers body owner agentPackId prompt,
        label = .request id random ⟨headers, .createRun body⟩ ∧
        w'.Asked w.received.length owner (.createRun body) ∧ Wants body agentPackId prompt ∧
        runId = RunManager.newRunId w.orchestrator.runtime.service.now random ∧
        w'.manager.charterOf runId = some (owner, agentPackId, prompt) := by
  -- a turn of the service that is no request
  have goes {label : Orchestrator.Label} {o' : Orchestrator} (unasked : asks label = false)
      (moved : w.orchestrator.step label = some o') :
      o'.runtime.service.runManager.charterOf runId = w.manager.charterOf runId := by
    rcases requests_of_step unasked moved with ⟨turn, rfl, quiet, stepped, -⟩ |
      ⟨_, _, -, -, runtime, -⟩ | ⟨-, -, runtime, -⟩
    · rcases (Runtime.steps_of_step stepped).charterOf runId with same |
        ⟨_, _, _, _, _, _, rfl, -⟩
      · exact same
      · cases quiet
    · rw [runtime]
      rfl
    · rw [runtime]
      rfl
  cases steps with
  | refuses id random request message refused => exact .inl rfl
  | rejects id random headers body owner exception admitted free invalid => exact .inl rfl
  | begins id random request owner place orchestrator admitted free begun =>
      obtain ⟨headers, route⟩ := request
      cases begun with
      | creates body o' valid moved =>
          rcases (Runtime.steps_of_step (runtime_of_step moved).1).charterOf runId with same |
            ⟨_, _, _, _, prompt, agentPackId, made, asked, packed, here, new⟩
          · exact .inl same
          · cases made
            refine .inr ⟨id, random, headers, body, owner, agentPackId, prompt, rfl,
              ⟨headers, ?_, admitted⟩, ⟨asked, packed⟩, here, new⟩
            rw [hold, List.getElem?_append_right (Nat.le_refl _), Nat.sub_self]
            rfl
      | reads runId' => exact .inl rfl
      | cancels runId' body o' moved =>
          rcases (Runtime.steps_of_step (runtime_of_step moved).1).charterOf runId with same |
            ⟨_, _, _, _, _, _, made, -⟩
          · exact .inl same
          · cases made
      | streams runId' replayFrom lastEventId o' moved =>
          simp only [Orchestrator.step] at moved
          split at moved <;> cases moved
          exact .inl rfl
  | answers id number owner runId' run found =>
      left
      rw [manager, respond_orchestrator]
      rfl
  | goes label orchestrator unasked moved silent => exact .inl (goes unasked moved)
  | responds label orchestrator id response unasked moved answered =>
      left
      rw [manager, respond_orchestrator]
      exact goes unasked moved

/-- A run comes to be CANCELLED while a request of its owner to cancel it is in progress. -/
theorem Steps.cancelled (steps : w.Steps label w') (fresh : w.FreshRun label)
    (linked : Linked w.orchestrator w.handlers.get) (ledger : w.Ledger) {runId : RunId}
    (after : w'.manager.stateOf runId = some .cancelled) :
    w.manager.stateOf runId = some .cancelled ∨
      ∃ number owner body, w.Asked number owner (.cancelRun runId body) ∧
        w.manager.ownerOf runId = some owner := by
  have goes {label : Runtime.Label} {o' : Orchestrator}
      (fresh : w.orchestrator.runtime.FreshRun label)
      (moved : w.orchestrator.step (.runtime label) = some o')
      (after : o'.runtime.stateOf runId = some .cancelled) :
      w.manager.stateOf runId = some .cancelled ∨
        ∃ number owner body, w.Asked number owner (.cancelRun runId body) ∧
          w.manager.ownerOf runId = some owner := by
    rcases (Runtime.steps_of_step (runtime_of_step moved).1).cancelled fresh after with same |
      ⟨id, random, frame, reason, pc, rfl, found⟩
    · exact .inl same
    · right
      -- the call belongs to a handler
      have fits := linked.serial.loops.fits id frame _ found
      cases frame <;> simp only [Frame.Fits] at fits
      have serving := linked.serving id
      rw [found] at serving
      cases got : w.handlers.get id with
      | none =>
          rw [got] at serving
          cases serving
      | some handler =>
          obtain ⟨number, owner, place⟩ := handler
          rw [got] at serving
          have serves := linked.serves id _ _ got found
          obtain ⟨route, asked, of⟩ := ledger.filed id _ got
          cases place <;> cases serving
          cases route with
          | cancelRun runId' body =>
              obtain ⟨rfl, -⟩ := of
              exact ⟨number, owner, body, asked, serves.1⟩
          | _ => cases of
  have unmoved {label : Orchestrator.Label} {o' : Orchestrator} (unasked : asks label = false)
      (moved : w.orchestrator.step label = some o')
      (after : o'.runtime.stateOf runId = some .cancelled) :
      w.manager.stateOf runId = some .cancelled ∨
        ∃ number owner body, w.Asked number owner (.cancelRun runId body) ∧
          w.manager.ownerOf runId = some owner := by
    rcases requests_of_step unasked moved with ⟨turn, rfl, quiet, -, -⟩ |
      ⟨_, _, -, -, runtime, -⟩ | ⟨-, -, runtime, -⟩
    · exact goes (fresh_of_unasked quiet) moved after
    · rw [runtime] at after
      exact .inl after
    · rw [runtime] at after
      exact .inl after
  cases steps with
  | refuses id random request message refused => exact .inl after
  | rejects id random headers body owner exception admitted free invalid => exact .inl after
  | begins id random request owner place orchestrator admitted free begun =>
      obtain ⟨headers, route⟩ := request
      cases begun with
      | creates body o' valid moved => exact goes (fresh.runtime owner) moved after
      | reads runId' => exact .inl after
      | cancels runId' body o' moved =>
          refine goes ?_ moved after
          rintro runId ⟨⟩
      | streams runId' replayFrom lastEventId o' moved =>
          simp only [Orchestrator.step] at moved
          split at moved <;> cases moved
          exact .inl after
  | answers id number owner runId' run found =>
      rw [manager, respond_orchestrator] at after
      exact .inl after
  | goes label orchestrator unasked moved silent => exact unmoved unasked moved after
  | responds label orchestrator id response unasked moved answered =>
      rw [manager, respond_orchestrator] at after
      exact unmoved unasked moved after

/-- Every run is the outcome of the request with the number `origin`. -/
structure Warranted (w : Api) (origin : RunId → Nat) : Prop where
  chartered : ∀ runId owner agentPackId prompt,
    w.manager.charterOf runId = some (owner, agentPackId, prompt) →
      ∃ body, w.Asked (origin runId) owner (.createRun body) ∧ Wants body agentPackId prompt
  apart : ∀ runId other, w.manager.charterOf runId ≠ none → w.manager.charterOf other ≠ none →
    origin runId = origin other → runId = other
  cancelled : ∀ runId, w.manager.stateOf runId = some .cancelled →
    ∃ number owner body, w.Asked number owner (.cancelRun runId body) ∧
      w.manager.ownerOf runId = some owner

theorem Asked.lt {number : Nat} {owner : OwnerPrincipal} {route : Route}
    (asked : w.Asked number owner route) : number < w.received.length := by
  obtain ⟨headers, got, -⟩ := asked
  exact (List.getElem?_eq_some_iff.mp got).1

theorem Warranted.step {origin : RunId → Nat} (warranted : w.Warranted origin)
    (linked : Linked w.orchestrator w.handlers.get) (ledger : w.Ledger) (fresh : w.FreshRun label)
    (moved : w.step label = some w') : ∃ origin', w'.Warranted origin' := by
  have steps := steps_of_step moved
  have extended := steps.extends fresh
  have cancelled (runId : RunId) (after : w'.manager.stateOf runId = some .cancelled) :
      ∃ number owner body, w'.Asked number owner (.cancelRun runId body) ∧
        w'.manager.ownerOf runId = some owner := by
    have before : ∃ number owner body, w.Asked number owner (.cancelRun runId body) ∧
        w.manager.ownerOf runId = some owner := by
      rcases steps.cancelled fresh linked ledger after with same | asked
      · exact warranted.cancelled runId same
      · exact asked
    obtain ⟨number, owner, body, asked, mine⟩ := before
    exact ⟨number, owner, body, asked.mono extended, extended.owners runId owner mine⟩
  by_cases kept : ∀ runId, w'.manager.charterOf runId = w.manager.charterOf runId
  · refine ⟨origin, ?_, ?_, cancelled⟩
    · intro runId owner agentPackId prompt charter
      rw [kept] at charter
      obtain ⟨body, asked, wants⟩ := warranted.chartered runId owner agentPackId prompt charter
      exact ⟨body, asked.mono extended, wants⟩
    · intro runId other stored stored'
      rw [kept] at stored stored'
      exact warranted.apart runId other stored stored'
  · obtain ⟨made, changed⟩ := not_forall.mp kept
    rcases steps.charterOf made with same | ⟨id, random, headers, body, owner, agentPackId, prompt,
      rfl, asked, wants, here, new⟩
    · exact absurd same changed
    · -- only the run that the request makes is new, and its number is that of the request
      have others (runId : RunId) (different : runId ≠ made) :
          w'.manager.charterOf runId = w.manager.charterOf runId := by
        rcases steps.charterOf runId with same | ⟨_, _, _, _, _, _, _, label, -, -, here', -⟩
        · exact same
        · cases label
          exact absurd (here'.trans here.symm) different
      have earlier (runId : RunId) (stored : w.manager.charterOf runId ≠ none) :
          origin runId < w.received.length := by
        obtain ⟨⟨owner, agentPackId, prompt⟩, charter⟩ := Option.ne_none_iff_exists'.mp stored
        obtain ⟨body, asked, -⟩ := warranted.chartered runId owner agentPackId prompt charter
        exact asked.lt
      refine ⟨Function.update origin made w.received.length, ?_, ?_, cancelled⟩
      · intro runId owner' agentPackId' prompt' charter
        by_cases same : runId = made
        · subst same
          rw [new] at charter
          cases charter
          rw [Function.update_self]
          exact ⟨body, asked, wants⟩
        · rw [others runId same] at charter
          rw [Function.update_of_ne same]
          obtain ⟨body', asked', wants'⟩ := warranted.chartered runId _ _ _ charter
          exact ⟨body', asked'.mono extended, wants'⟩
      · intro runId other stored stored' numbers
        by_cases same : runId = made
        · by_cases same' : other = made
          · exact same.trans same'.symm
          · rw [others other same'] at stored'
            have less := earlier other stored'
            rw [same, Function.update_self, Function.update_of_ne same'] at numbers
            omega
        · rw [others runId same] at stored
          by_cases same' : other = made
          · have less := earlier runId stored
            rw [same', Function.update_self, Function.update_of_ne same] at numbers
            omega
          · rw [others other same'] at stored'
            rw [Function.update_of_ne same, Function.update_of_ne same'] at numbers
            exact warranted.apart runId other stored stored' numbers

/-- Every run stands for a request of its own that its owner has made through the gateway, with the
pack and the prompt of that request, and a CANCELLED run has been cancelled on a request of its
owner. -/
theorem runs_stem_from_requests (gateway : GatewayAuthService) (config : RunManagerConfig)
    (now : Int) (w : Api)
    (reached : Transition.Reach step FreshRun (init gateway config now) w) :
    ∃ origin, w.Warranted origin := by
  have kept := reached.invariant (fun w => (Linked w.orchestrator w.handlers.get ∧ w.Ledger) ∧
      ∃ origin, w.Warranted origin) ?_ ?_
  · exact kept.2
  · refine ⟨⟨Linked.init config now, Ledger.init gateway config now⟩, fun _ => 0, ?_, ?_, ?_⟩
    · rintro runId owner agentPackId prompt ⟨⟩
    · exact fun runId other stored => absurd rfl stored
    · rintro runId ⟨⟩
  · rintro s label u fresh ⟨⟨linked, ledger⟩, origin, warranted⟩ moved
    exact ⟨⟨linked.step fresh moved, ledger.step linked fresh moved⟩,
      warranted.step linked ledger fresh moved⟩

theorem cancelled_run_is_warranted :
    ∃ w : Api, w.manager.stateOf "run_0_a" = some .cancelled ∧ ∃ origin, w.Warranted origin := by
  have ran : (Transition.exec (Transition.guarded step FreshRun) (init localGateway .default 0)
      sharedRunLabels).map (fun w => w.manager.stateOf "run_0_a") = some (some .cancelled) := by
    decide +kernel
  obtain ⟨w, reached, cancelled⟩ := Transition.reach_of_observed _ _ ran
  exact ⟨w, cancelled, runs_stem_from_requests localGateway .default 0 w reached⟩

end Api

end Minerva
