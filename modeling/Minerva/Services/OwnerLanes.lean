import Minerva.Services.Writes

/-! Lanes and owners. A run is filed under the key of its owner for as long as it is stored, so
two owners share a lane exactly when their keys collide. -/

namespace Minerva

def Filed (m : RunManager) : Prop :=
  ∀ runId run, m.getRun runId = some run → run.userId = ownerKeyFromPrincipal run.owner

theorem CallStep.filed {now : Int} {m m' : RunManager} {p p' : Pending}
    {resumed : Option (Nat × Call)} (step : CallStep now m p resumed m' p') (filed : Filed m) :
    Filed m' := by
  apply step.stored (fun _ run => run.userId = ownerKeyFromPrincipal run.owner)
  · intro random input
    rfl
  · intro runId run position filed
    exact filed
  · intro runId lease run filed
    exact filed
  · intro runId run newState metadata stored filed
    exact filed
  · exact filed

namespace Pool

theorem filed_of_reach {config : RunManagerConfig} {now : Int} {p : Pool}
    (reached : Transition.Reach step FreshRun (init config now) p) : Filed p.manager := by
  apply reached.invariant (fun p => Filed p.manager)
  · intro runId run found
    cases found
  · intro s label u fresh filed moved
    rcases step_callStep s u label fresh moved with ⟨manager, -⟩ | stepped
    · rw [manager]
      exact filed
    · exact stepped.filed filed

/-- A run of the legacy user `acme:alice` and one of the subject `alice` of the tenant `acme`. -/
def collidingLabels : List Label :=
  [.begin 0 (.createRun "a" ⟨none, some "acme:alice", "pack", "hello", none⟩),
    .begin 1 (.createRun "b" ⟨some ⟨"acme", "alice"⟩, none, "pack", "hello", none⟩)]

end Pool

end Minerva
