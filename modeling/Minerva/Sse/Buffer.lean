import Minerva.Sse.Envelope
import Mathlib.Data.List.Sort

namespace Minerva

structure BoundedEventBuffer where
  buffers : EsMap RunId (List SSEEventEnvelope)
  maxSize : Nat

namespace BoundedEventBuffer

def empty (maxSize : Nat) : BoundedEventBuffer := ⟨.empty, maxSize⟩

def getAllForRun (buffer : BoundedEventBuffer) (runId : RunId) : List SSEEventEnvelope :=
  (buffer.buffers.get runId).getD []

def push (buffer : BoundedEventBuffer) (event : SSEEventEnvelope) : BoundedEventBuffer :=
  let events := buffer.getAllForRun event.runId ++ [event]
  -- evict oldest if over capacity
  let events := if events.length > buffer.maxSize then events.tail else events
  { buffer with buffers := buffer.buffers.set event.runId events }

/-- The events of all runs from a number on, ordered by their numbers; `sort` is stable. -/
def getFrom (buffer : BoundedEventBuffer) (seq : Int) : List SSEEventEnvelope :=
  ((buffer.buffers.values.flatten).filter (fun event => decide (seq ≤ event.seq))).insertionSort
    (fun a b => a.seq ≤ b.seq)

def clear (buffer : BoundedEventBuffer) (runId : RunId) : BoundedEventBuffer :=
  { buffer with buffers := buffer.buffers.delete runId }

end BoundedEventBuffer

end Minerva
