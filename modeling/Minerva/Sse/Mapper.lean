import Minerva.Sse.Envelope

namespace Minerva

structure AssistantMessageEvent where
  type : String
  delta : Option String
  content : Option Json

structure PartialResult where
  type : String
  data : String

/-- The fields of an agent event, absent where they are `undefined`. -/
structure AgentEvent where
  type : String
  messages : Option (List Json)
  turnNumber : Option Int
  message : Option Json
  toolResults : Option (List Json)
  assistantMessageEvent : Option AssistantMessageEvent
  toolCallId : Option String
  toolName : Option String
  args : Option (List (String × Json))
  partialResult : Option PartialResult
  result : Option Json
  isError : Option Bool
  durationMs : Option Int

def AssistantMessageEvent.json (event : AssistantMessageEvent) : Json :=
  .literal [("type", some (.str event.type)), ("delta", event.delta.map .str),
    ("content", event.content)]

def PartialResult.json (result : PartialResult) : Json :=
  .obj [("type", .str result.type), ("data", .str result.data)]

/-- The type and the payload that `map` gives to an agent event; none for an unknown type. -/
def AgentEvent.mapped (event : AgentEvent) : Option (SSEEventType × Json) :=
  match event.type with
  | "agent_start" => some (.agentStart, .obj [])
  | "agent_end" => some (.agentEnd, .obj [("messages", .arr (event.messages.getD []))])
  | "turn_start" => some (.turnStart, .obj [("turn_number", .num (event.turnNumber.getD 0))])
  | "turn_end" =>
    some (.turnEnd, .literal [("turn_number", some (.num (event.turnNumber.getD 0))),
      ("message", event.message), ("tool_results", some (.arr (event.toolResults.getD [])))])
  | "message_start" => some (.messageStart, .literal [("message", event.message)])
  | "message_update" =>
    some (.messageUpdate, .literal [("message", event.message),
      ("delta_type",
        some (.str ((event.assistantMessageEvent.map AssistantMessageEvent.type).getD "text_delta"))),
      ("delta", event.assistantMessageEvent.map AssistantMessageEvent.json)])
  | "message_end" => some (.messageEnd, .literal [("message", event.message)])
  | "tool_execution_start" =>
    some (.toolExecutionStart, .obj [("tool_call_id", .str (event.toolCallId.getD "")),
      ("tool_name", .str (event.toolName.getD "")), ("args", .obj (event.args.getD []))])
  | "tool_execution_update" =>
    some (.toolExecutionUpdate, .obj [("tool_call_id", .str (event.toolCallId.getD "")),
      ("tool_name", .str (event.toolName.getD "")),
      ("partial_result", (event.partialResult.getD ⟨"stdout", ""⟩).json)])
  | "tool_execution_end" =>
    some (.toolExecutionEnd, .literal [("tool_call_id", some (.str (event.toolCallId.getD ""))),
      ("tool_name", some (.str (event.toolName.getD ""))), ("result", event.result),
      ("is_error", some (.bool (event.isError.getD false))),
      ("duration_ms", some (.num (event.durationMs.getD 0)))])
  | _ => none

namespace MemoryEventSequencer

/-- `DefaultEventMapper.map`: an event of an unknown type has drawn its number before it is
skipped. -/
def map (sequencer : MemoryEventSequencer) (now : Int) (agentEvent : AgentEvent) (runId : RunId) :
    MemoryEventSequencer × Option SSEEventEnvelope :=
  let (sequencer, seq) := sequencer.next runId
  (sequencer, agentEvent.mapped.map (fun (type, payload) => { type, runId, ts := now, seq, payload }))

def mapOrchestratorEvent (sequencer : MemoryEventSequencer) (now : Int) (runId : RunId)
    (type : SSEEventType) (payload : Json) : MemoryEventSequencer × SSEEventEnvelope :=
  let (sequencer, seq) := sequencer.next runId
  (sequencer, { type, runId, ts := now, seq, payload })

end MemoryEventSequencer

end Minerva
