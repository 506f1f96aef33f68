import Minerva.Library.EsMap
import Minerva.Types.Run

namespace Minerva

/-- What the closure of an installed `abort` listener holds: the run that is executed. -/
structure AbortListener where
  runId : RunId
  maxDurationMs : Int

/-- A cancellation context with its `AbortController`. `signal` tells the signals of successive
contexts apart. -/
structure CancellationContext where
  signal : Nat
  isCancelled : Bool
  cancelReason : Option String
  listeners : List AbortListener

structure Abort where
  listener : AbortListener
  reason : String

structure InMemoryCancellationRegistry where
  contexts : EsMap RunId CancellationContext
  nextSignal : Nat

def CancellationContext.cancel (context : CancellationContext) (reason : Option String) :
    CancellationContext × List Abort :=
  if context.isCancelled then (context, [])
  else
    let cancelReason := reason.getD "cancelled"
    ({ context with isCancelled := true, cancelReason := some cancelReason, listeners := [] },
      context.listeners.map (fun listener => ⟨listener, cancelReason⟩))

namespace InMemoryCancellationRegistry

def empty : InMemoryCancellationRegistry := ⟨.empty, 0⟩

def remove (registry : InMemoryCancellationRegistry) (runId : RunId) :
    InMemoryCancellationRegistry :=
  { registry with contexts := registry.contexts.delete runId }

def create (registry : InMemoryCancellationRegistry) (runId : RunId) :
    InMemoryCancellationRegistry :=
  let registry := registry.remove runId
  { contexts := registry.contexts.set runId ⟨registry.nextSignal, false, none, []⟩
    nextSignal := registry.nextSignal + 1 }

def get (registry : InMemoryCancellationRegistry) (runId : RunId) : Option CancellationContext :=
  registry.contexts.get runId

def cancel (registry : InMemoryCancellationRegistry) (runId : RunId) (reason : Option String) :
    InMemoryCancellationRegistry × List Abort :=
  match registry.contexts.get runId with
  | none => (registry, [])
  | some context =>
    let (context, aborts) := context.cancel reason
    ({ registry with contexts := registry.contexts.set runId context }, aborts)

def isCancelled (registry : InMemoryCancellationRegistry) (runId : RunId) : Bool :=
  match registry.contexts.get runId with
  | none => false
  | some context => context.isCancelled

/-- `signal.addEventListener('abort', …)`. A signal that has already aborted does not invoke
the listener, and one whose context is gone can no longer abort. -/
def addAbortListener (registry : InMemoryCancellationRegistry) (listener : AbortListener)
    (signal : Nat) : InMemoryCancellationRegistry :=
  match registry.contexts.get listener.runId with
  | none => registry
  | some context =>
    if context.signal = signal ∧ context.isCancelled = false then
      let context := { context with listeners := context.listeners ++ [listener] }
      { registry with contexts := registry.contexts.set listener.runId context }
    else registry

end InMemoryCancellationRegistry

def InMemoryCancellationRegistry.Owned (registry : InMemoryCancellationRegistry) : Prop :=
  ∀ runId context, registry.get runId = some context →
    ∀ listener ∈ context.listeners, listener.runId = runId

namespace InMemoryCancellationRegistry

variable {registry : InMemoryCancellationRegistry} {runId : RunId}

theorem get_create (registry : InMemoryCancellationRegistry) (runId id : RunId) :
    (registry.create runId).get id =
      if id = runId then some ⟨registry.nextSignal, false, none, []⟩ else registry.get id := by
  simp only [create, remove, get, EsMap.get_set, EsMap.get_delete]
  split <;> rfl

theorem get_remove (registry : InMemoryCancellationRegistry) (runId id : RunId) :
    (registry.remove runId).get id = if id = runId then none else registry.get id := by
  simp only [remove, get, EsMap.get_delete]

theorem get_cancel (registry : InMemoryCancellationRegistry) (runId id : RunId)
    (reason : Option String) :
    (registry.cancel runId reason).1.get id =
      if id = runId then (registry.get id).map (fun context => (context.cancel reason).1)
      else registry.get id := by
  unfold cancel get
  split
  · rename_i missing
    split
    · rename_i same
      rw [same, missing]
      rfl
    · rfl
  · rename_i context found
    simp only [EsMap.get_set]
    split
    · rename_i same
      rw [same, found]
      rfl
    · rfl

theorem aborts_cancel (registry : InMemoryCancellationRegistry) (runId : RunId)
    (reason : Option String) :
    (registry.cancel runId reason).2 =
      ((registry.get runId).map (fun context => (context.cancel reason).2)).getD [] := by
  unfold cancel get
  split
  · rename_i missing
    rw [missing]
    rfl
  · rename_i context found
    rw [found]
    rfl

theorem get_addAbortListener (registry : InMemoryCancellationRegistry) (listener : AbortListener)
    (signal : Nat) (id : RunId) :
    (registry.addAbortListener listener signal).get id =
      if id = listener.runId then (registry.get id).map (fun context =>
        if context.signal = signal ∧ context.isCancelled = false then
          { context with listeners := context.listeners ++ [listener] }
        else context)
      else registry.get id := by
  unfold addAbortListener get
  split
  · rename_i missing
    split
    · rename_i same
      rw [same, missing]
      rfl
    · rfl
  · rename_i context found
    split
    · rename_i live
      simp only [EsMap.get_set]
      split
      · rename_i same
        rw [same, found]
        simp [live]
      · rfl
    · rename_i dead
      split
      · rename_i same
        rw [same, found]
        simp [dead]
      · rfl

theorem Owned.create (owned : registry.Owned) (runId : RunId) : (registry.create runId).Owned := by
  intro id context found listener member
  rw [get_create] at found
  split at found
  · cases found
    cases member
  · exact owned id context found listener member

theorem Owned.remove (owned : registry.Owned) (runId : RunId) : (registry.remove runId).Owned := by
  intro id context found listener member
  rw [get_remove] at found
  split at found
  · cases found
  · exact owned id context found listener member

theorem Owned.cancel (owned : registry.Owned) (runId : RunId) (reason : Option String) :
    (registry.cancel runId reason).1.Owned := by
  intro id context found listener member
  rw [get_cancel] at found
  split at found
  · obtain ⟨before, got, rfl⟩ := Option.map_eq_some_iff.mp found
    unfold CancellationContext.cancel at member
    split at member
    · exact owned id before got listener member
    · cases member
  · exact owned id context found listener member

theorem Owned.addAbortListener (owned : registry.Owned) (listener : AbortListener)
    (signal : Nat) : (registry.addAbortListener listener signal).Owned := by
  intro id context found other member
  rw [get_addAbortListener] at found
  split at found
  · rename_i same
    obtain ⟨before, got, rfl⟩ := Option.map_eq_some_iff.mp found
    split at member
    · rcases List.mem_append.mp member with earlier | latest
      · exact owned id before got other earlier
      · cases List.mem_singleton.mp latest
        exact same.symm
    · exact owned id before got other member
  · exact owned id context found other member

end InMemoryCancellationRegistry

end Minerva
