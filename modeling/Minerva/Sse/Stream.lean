import Minerva.Sse.Envelope

/-! `MemorySSEStreamController`: the streams that are registered for each run. A `Set` of streams
is an object of its own, which cleanup functions keep a hold of. -/

namespace Minerva

abbrev StreamId := Nat

/-- A host of stream objects: what the controller can do with a stream. A method that throws
answers with none, or with false. -/
class SSEStreams (ω : Type) where
  isOpen : ω → StreamId → Option Bool
  write : ω → StreamId → SSEEventEnvelope → ω × Bool
  close : ω → StreamId → ω × Bool

structure MemorySSEStreamController where
  /-- the `Set` object of each run -/
  streams : EsMap RunId Nat
  /-- what the `Set` objects hold, in insertion order -/
  sets : EsMap Nat (List StreamId)
  nextSet : Nat

structure Cleanup where
  runId : RunId
  runStreams : Nat
  stream : StreamId

namespace MemorySSEStreamController

def empty : MemorySSEStreamController := ⟨.empty, .empty, 0⟩

def members (c : MemorySSEStreamController) (set : Nat) : List StreamId := (c.sets.get set).getD []

def setFor (c : MemorySSEStreamController) (runId : RunId) : MemorySSEStreamController × Nat :=
  match c.streams.get runId with
  | some set => (c, set)
  | none => (⟨c.streams.set runId c.nextSet, c.sets.set c.nextSet [], c.nextSet + 1⟩, c.nextSet)

def add (members : List StreamId) (stream : StreamId) : List StreamId :=
  if stream ∈ members then members else members ++ [stream]

def register (c : MemorySSEStreamController) (runId : RunId) (stream : StreamId) :
    MemorySSEStreamController × Cleanup :=
  let (c, set) := c.setFor runId
  ({ c with sets := c.sets.set set (add (c.members set) stream) }, ⟨runId, set, stream⟩)

/-- Streams are deleted from a `Set`; when it is empty the entry of the run goes. -/
def remove (c : MemorySSEStreamController) (runId : RunId) (set : Nat) (gone : List StreamId) :
    MemorySSEStreamController :=
  let members := (c.members set).filter (fun stream => stream ∉ gone)
  let c := { c with sets := c.sets.set set members }
  if members = [] then { c with streams := c.streams.delete runId } else c

def connections (c : MemorySSEStreamController) (runId : RunId) : List StreamId :=
  ((c.streams.get runId).map c.members).getD []

def getConnectionCount (c : MemorySSEStreamController) (runId : RunId) : Nat :=
  (c.connections runId).length

variable {ω : Type} [SSEStreams ω]

def closeQuietly (host : ω) (stream : StreamId) : ω := (SSEStreams.close host stream).1

/-- What a cleanup function does; false if it throws. -/
def cleanup (c : MemorySSEStreamController) (host : ω) (k : Cleanup) :
    MemorySSEStreamController × ω × Bool :=
  let c := c.remove k.runId k.runStreams [k.stream]
  match SSEStreams.isOpen host k.stream with
  | none => (c, host, false)
  | some true => (c, closeQuietly host k.stream, true)
  | some false => (c, host, true)

/-- One stream in the loop of `broadcast`: it gets the event or is marked for cleanup. -/
def deliver (event : SSEEventEnvelope) (state : ω × List StreamId) (stream : StreamId) :
    ω × List StreamId :=
  let (host, deadStreams) := state
  match SSEStreams.isOpen host stream with
  | some true =>
    let (host, returned) := SSEStreams.write host stream event
    if returned then (host, deadStreams) else (host, deadStreams ++ [stream])
  | _ => (host, deadStreams ++ [stream])

def broadcast (c : MemorySSEStreamController) (host : ω) (runId : RunId)
    (event : SSEEventEnvelope) : MemorySSEStreamController × ω :=
  match c.streams.get runId with
  | none => (c, host)
  | some set =>
    let (host, deadStreams) := (c.members set).foldl (deliver event) (host, [])
    (c.remove runId set deadStreams, deadStreams.foldl closeQuietly host)

def closeRun (c : MemorySSEStreamController) (host : ω) (runId : RunId) :
    MemorySSEStreamController × ω :=
  match c.streams.get runId with
  | none => (c, host)
  | some set =>
    ({ c with streams := c.streams.delete runId }, (c.members set).foldl closeQuietly host)

end MemorySSEStreamController

end Minerva
