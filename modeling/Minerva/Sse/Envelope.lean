import Minerva.Library.EsMap
import Minerva.Types.Run

namespace Minerva

inductive SSEEventType where
  | runQueued
  | runStarted
  | runCompleted
  | runFailed
  | runCancelled
  | runTimedOut
  | streamConnected
  | agentStart
  | agentEnd
  | turnStart
  | turnEnd
  | messageStart
  | messageUpdate
  | messageEnd
  | toolExecutionStart
  | toolExecutionUpdate
  | toolExecutionEnd
  deriving DecidableEq, Repr

/-- An event on its way to the clients; `ts` is in milliseconds. -/
structure SSEEventEnvelope where
  type : SSEEventType
  runId : RunId
  ts : Int
  seq : Nat
  payload : Json

/-- The counter of each run; a run without one stands at 0. -/
structure MemoryEventSequencer where
  counters : EsMap RunId Nat

namespace MemoryEventSequencer

def empty : MemoryEventSequencer := ⟨.empty⟩

def current (sequencer : MemoryEventSequencer) (runId : RunId) : Nat :=
  (sequencer.counters.get runId).getD 0

def next (sequencer : MemoryEventSequencer) (runId : RunId) : MemoryEventSequencer × Nat :=
  let next := sequencer.current runId + 1
  (⟨sequencer.counters.set runId next⟩, next)

def cleanup (sequencer : MemoryEventSequencer) (runId : RunId) : MemoryEventSequencer :=
  ⟨sequencer.counters.delete runId⟩

end MemoryEventSequencer

def MemoryEventSequencer.create (sequencer : MemoryEventSequencer) (now : Int) (runId : RunId)
    (type : SSEEventType) (payload : Json) : MemoryEventSequencer × SSEEventEnvelope :=
  let (sequencer, seq) := sequencer.next runId
  (sequencer, { type, runId, ts := now, seq, payload })

end Minerva
