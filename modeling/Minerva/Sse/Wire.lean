import Mathlib.Data.List.Forall2
import Minerva.Library.EventStream
import Minerva.Library.JsonText
import Minerva.Sse.Controller

namespace Minerva

namespace SSEEventType

def value : SSEEventType → String
  | .runQueued => "run_queued"
  | .runStarted => "run_started"
  | .runCompleted => "run_completed"
  | .runFailed => "run_failed"
  | .runCancelled => "run_cancelled"
  | .runTimedOut => "run_timed_out"
  | .streamConnected => "stream_connected"
  | .agentStart => "agent_start"
  | .agentEnd => "agent_end"
  | .turnStart => "turn_start"
  | .turnEnd => "turn_end"
  | .messageStart => "message_start"
  | .messageUpdate => "message_update"
  | .messageEnd => "message_end"
  | .toolExecutionStart => "tool_execution_start"
  | .toolExecutionUpdate => "tool_execution_update"
  | .toolExecutionEnd => "tool_execution_end"

theorem oneLine_value (type : SSEEventType) :
    OneLine type.value.toList ∧ type.value.toList ≠ [] := by
  cases type <;> decide

end SSEEventType

/-- The global `JSON` over a type of JSON values, and the values that an envelope is made of. -/
structure JsonApi (J : Type) where
  stringify : J → List Char
  parse : List Char → Option J
  string : String → J
  number : Nat → J
  object : List (String × J) → J

namespace JsonApi

variable {J : Type}

/-- Line breaks in strings are escaped, and none stand between the tokens. -/
def EmitsOneLine (json : JsonApi J) : Prop := ∀ value, OneLine (json.stringify value)

def Inverse (json : JsonApi J) : Prop := ∀ value, json.parse (json.stringify value) = some value

end JsonApi

/-- `SSEEventEnvelope<TPayload>`, as it is serialized. -/
structure WireEnvelope (J : Type) where
  type : SSEEventType
  runId : String
  ts : String
  seq : Nat
  payload : J

/-- What is written to a response in one go: an event of the stream, or the keep-alive comment. -/
inductive WireChunk (J : Type) where
  | event (envelope : WireEnvelope J)
  | keepAlive

section

variable {J : Type}

def WireEnvelope.value (json : JsonApi J) (event : WireEnvelope J) : J :=
  json.object [("type", json.string event.type.value),
    ("run_id", json.string event.runId),
    ("ts", json.string event.ts),
    ("seq", json.number event.seq),
    ("payload", event.payload)]

namespace WireChunk

def texts (json : JsonApi J) : WireChunk J → List (List Char)
  | .event own =>
    let data := json.stringify (own.value json)
    ["id: ".toList ++ (toString own.seq).toList ++ ['\n'],
      "event: ".toList ++ own.type.value.toList ++ ['\n'],
      "data: ".toList ++ data ++ ['\n', '\n']]
  | .keepAlive => [":keepalive\n\n".toList]

/-- The bytes on the wire; each text is encoded by itself. -/
def bytes (json : JsonApi J) (chunk : WireChunk J) : List UInt8 :=
  (chunk.texts json).flatMap Utf8.encode

def envelope : WireChunk J → Option (WireEnvelope J)
  | .event envelope => some envelope
  | .keepAlive => none

end WireChunk

def WireEnvelope.message (json : JsonApi J) (event : WireEnvelope J) : EventStream.Message :=
  ⟨event.type.value.toList, json.stringify (event.value json), (toString event.seq).toList⟩

/-- A client has read the envelope from the message. -/
structure Reads (json : JsonApi J) (message : EventStream.Message) (event : WireEnvelope J) :
    Prop where
  id : message.lastEventId = (toString event.seq).toList
  name : message.type = event.type.value.toList
  data : json.parse message.data = some (event.value json)

namespace WireChunk

def item (json : JsonApi J) : WireChunk J → EventStream.Item
  | .event own => .message (own.message json)
  | .keepAlive => .comment "keepalive".toList

theorem texts_flatten (json : JsonApi J) (chunk : WireChunk J) :
    (chunk.texts json).flatten = (chunk.item json).text := by
  cases chunk with
  | keepAlive => rfl
  | event own =>
      simp [texts, item, EventStream.Item.text, EventStream.fieldLine, WireEnvelope.message]

theorem bytes_eq (json : JsonApi J) (chunk : WireChunk J) :
    chunk.bytes json = Utf8.encode (chunk.item json).text := by
  have whole (texts : List (List Char)) : texts.flatMap Utf8.encode = Utf8.encode texts.flatten := by
    induction texts with
    | nil => rfl
    | cons text texts ih =>
        rw [List.flatMap_cons, ih, List.flatten_cons]
        exact List.flatMap_append.symm
  rw [← texts_flatten, bytes, whole]

theorem item_sound {json : JsonApi J} (oneLine : json.EmitsOneLine) (chunk : WireChunk J) :
    (chunk.item json).Sound := by
  cases chunk with
  | keepAlive =>
      show OneLine "keepalive".toList
      decide
  | event own =>
      have digits : (toString own.seq).toList = Nat.toDigits 10 own.seq := Nat.toList_repr
      refine ⟨⟨?_, ?_⟩, own.type.oneLine_value, oneLine _⟩
      · show OneLine (toString own.seq).toList
        rw [digits]
        exact oneLine_toDigits own.seq
      · show '\x00' ∉ (toString own.seq).toList
        rw [digits]
        intro member
        exact absurd (Nat.isDigit_of_mem_toDigits (by decide) (by decide) member) (by decide)

theorem sent_item (json : JsonApi J) (chunk : WireChunk J) :
    (chunk.item json).sent = chunk.envelope.map (WireEnvelope.message json) := by
  cases chunk <;> rfl

end WireChunk

theorem messages_chunks {json : JsonApi J} (oneLine : json.EmitsOneLine) (chunks : List (WireChunk J)) :
    EventStream.messages (chunks.flatMap (WireChunk.bytes json)) =
      (chunks.filterMap WireChunk.envelope).map (WireEnvelope.message json) := by
  have sound : ∀ item ∈ chunks.map (WireChunk.item json), item.Sound := by
    intro item member
    obtain ⟨chunk, _, rfl⟩ := List.mem_map.mp member
    exact chunk.item_sound oneLine
  have written : chunks.flatMap (WireChunk.bytes json) =
      Utf8.encode ((chunks.map (WireChunk.item json)).flatMap EventStream.Item.text) := by
    simp only [Utf8.encode, List.flatMap_map, List.flatMap_assoc]
    congr 1
    funext chunk
    exact chunk.bytes_eq json
  calc EventStream.messages (chunks.flatMap (WireChunk.bytes json))
    _ = (chunks.map (WireChunk.item json)).filterMap EventStream.Item.sent := by
      rw [written, EventStream.messages_items _ sound]
    _ = chunks.filterMap (fun chunk => chunk.envelope.map (WireEnvelope.message json)) := by
      rw [List.filterMap_map]
      congr 1
      funext chunk
      exact WireChunk.sent_item json chunk
    _ = (chunks.filterMap WireChunk.envelope).map (WireEnvelope.message json) :=
      List.map_filterMap.symm

/-- A client reads one message for each envelope, in order, with the envelope in its data; the
keep-alive comments leave no trace. -/
theorem wire_round_trip (json : JsonApi J) (oneLine : json.EmitsOneLine) (inverse : json.Inverse)
    (chunks : List (WireChunk J)) :
    List.Forall₂ (Reads json) (EventStream.messages (chunks.flatMap (WireChunk.bytes json)))
      (chunks.filterMap WireChunk.envelope) := by
  rw [messages_chunks oneLine, List.forall₂_map_left_iff]
  apply List.forall₂_same.mpr
  intro event _
  exact ⟨rfl, rfl, inverse (event.value json)⟩

end

/-- The `JSON` of values whose numbers are integers. -/
def Json.api : JsonApi Json where
  stringify := Json.stringify
  parse := Json.parse
  string := .str
  number := fun n => .num n
  object := .obj

theorem Json.api_emitsOneLine : Json.api.EmitsOneLine := Json.oneLine_stringify

theorem Json.api_inverse : Json.api.Inverse := Json.parse_stringify

/-- A payload that spells a frame of its own, between two keep-alive comments. -/
theorem spelled_frame_stays_in_its_payload :
    List.Forall₂ (Reads Json.api)
      (EventStream.messages (([.keepAlive,
        .event ⟨.messageUpdate, "run_0_a", "1970-01-01T00:00:00.000Z", 1,
          .obj [("text", .str "a: b\r\n\r\nid: 7\nevent: run_completed\ndata: \x7b\x7d\n\n")]⟩,
        .keepAlive,
        .event ⟨.agentEnd, "run_0_a", "1970-01-01T00:00:01.000Z", 2, .null⟩] :
          List (WireChunk Json)).flatMap (WireChunk.bytes Json.api)))
      [⟨.messageUpdate, "run_0_a", "1970-01-01T00:00:00.000Z", 1,
          .obj [("text", .str "a: b\r\n\r\nid: 7\nevent: run_completed\ndata: \x7b\x7d\n\n")]⟩,
        ⟨.agentEnd, "run_0_a", "1970-01-01T00:00:01.000Z", 2, .null⟩] :=
  wire_round_trip Json.api Json.api_emitsOneLine Json.api_inverse _

def SSEEventEnvelope.wire (event : SSEEventEnvelope) : WireEnvelope Json :=
  ⟨event.type, event.runId, toISOString event.ts, event.seq, event.payload⟩

def Chunk.wire : Chunk → WireChunk Json
  | .event envelope => .event envelope.wire
  | .keepAlive => .keepAlive

def Responses.bytes (responses : Responses) (id : StreamId) : List UInt8 :=
  ((responses.table.get id).map (fun response =>
    response.chunks.flatMap (fun chunk => chunk.wire.bytes Json.api))).getD []

theorem Responses.read_back (responses : Responses) (id : StreamId) :
    EventStream.messages (responses.bytes id) =
      (responses.events id).map (fun event => event.wire.message Json.api) := by
  unfold bytes events
  cases responses.table.get id with
  | none => rfl
  | some response =>
      have read := messages_chunks Json.api_emitsOneLine (response.chunks.map Chunk.wire)
      have same : ∀ chunk : Chunk, chunk.wire.envelope = chunk.envelope.map SSEEventEnvelope.wire := by
        intro chunk
        cases chunk <;> rfl
      simp only [List.flatMap_map, List.filterMap_map, Function.comp_def, same] at read
      simp only [Option.map_some, Option.getD_some, read, ← List.map_filterMap, List.map_map]
      rfl

end Minerva
