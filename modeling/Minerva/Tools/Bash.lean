import Minerva.Tools.Registry

namespace Minerva

namespace ExecutionChunk

def update (toolCallId : String) : ExecutionChunk → Option ToolEvent
  | .stdout data => some (.update toolCallId "bash" "stdout" data)
  | .stderr data => some (.update toolCallId "bash" "stderr" data)
  | .exit _ => none

def stdoutText : ExecutionChunk → Option String
  | .stdout data => some data
  | _ => none

def stderrText : ExecutionChunk → Option String
  | .stderr data => some data
  | _ => none

def exitCode : ExecutionChunk → Option Int
  | .exit code => some code
  | _ => none

end ExecutionChunk

namespace ToolEvent

def isStart : ToolEvent → Bool
  | .start _ _ _ => true
  | _ => false

def isUpdate : ToolEvent → Bool
  | .update _ _ _ _ => true
  | _ => false

def isFinish : ToolEvent → Bool
  | .finish _ _ _ _ _ => true
  | _ => false

def dataOf (kind : String) : ToolEvent → Option String
  | .update _ _ given data => if given = kind then some data else none
  | _ => none

end ToolEvent

def lastExitCode (chunks : List ExecutionChunk) : Int :=
  ((chunks.filterMap ExecutionChunk.exitCode).getLast?).getD 0

variable {ω : Type}

/-- The chunks that a call of the tool asks for; none if it is refused before. -/
def bashStream (executeFn : ω → WorkspaceId → (command : JsValue) → BashOptions → ω × ChunkStream)
    (w : ω) (params : JsValue) (context : Option ToolContext) : Option ChunkStream :=
  match workspaceOf context, params.member "command" with
  | some workspaceId, .ok command =>
    if command.truthy then
      some (executeFn w workspaceId (param params "command")
        ⟨(param params "timeout").orElse (.number (.ofNat 60000)), param params "cwd",
          param params "env"⟩).2
    else none
  | _, _ => none

/-- What a call owes to the one who made it, given the chunks that it read. -/
structure BashProtocol (site : CallSite) (stream : Option ChunkStream) (events : List ToolEvent)
    (outcome : Promise ToolResult) : Prop where
  resolves : ∃ result, outcome = .resolved result
  finished : ∃ before result isError durationMs,
    events = before ++ [.finish site.toolCallId "bash" result isError durationMs] ∧
      ∀ event ∈ before, event.isFinish = false
  started_once : events.countP ToolEvent.isStart ≤ 1
  started_first : ∀ before event after, events = before ++ event :: after →
    event.isUpdate = true → ∃ start ∈ before, start.isStart = true
  succeeded : ∀ result, outcome = .resolved result → result.success = true →
    ∃ read ∈ stream, ∃ duration, result.data = some (.bash
      (String.join (events.filterMap (ToolEvent.dataOf "stdout")))
      (String.join (events.filterMap (ToolEvent.dataOf "stderr")))
      (lastExitCode read.chunks) duration false)
  /-- the first chunk that comes after an abort -/
  aborted : ∀ read ∈ stream, ∀ index < read.chunks.length, site.aborted index = true →
    (∀ earlier < index, site.aborted earlier = false) →
      events.filter ToolEvent.isUpdate =
        (read.chunks.take index).filterMap (ExecutionChunk.update site.toolCallId) ∧
      outcome = .resolved (createErrorResult .cancelled (.string "Command was cancelled") none)
  relayed : ∀ read ∈ stream, (∀ index < read.chunks.length, site.aborted index = false) →
    events.filter ToolEvent.isUpdate =
      read.chunks.filterMap (ExecutionChunk.update site.toolCallId)

/-- The stream throws, when all its chunks are read, what the `catch` block cannot map. -/
def Escapes (site : CallSite) (stream : ChunkStream) : Prop :=
  (∀ index < stream.chunks.length, site.aborted index = false) ∧
    ∃ error, stream.ends = .threw error ∧ error.Unmappable

namespace BashOutput

def add (output : BashOutput) : ExecutionChunk → BashOutput
  | .stdout data => { output with stdoutChunks := output.stdoutChunks ++ [data] }
  | .stderr data => { output with stderrChunks := output.stderrChunks ++ [data] }
  | .exit code => { output with exitCode := code }

theorem stdout_foldl (chunks : List ExecutionChunk) (output : BashOutput) :
    (chunks.foldl add output).stdoutChunks =
      output.stdoutChunks ++ chunks.filterMap ExecutionChunk.stdoutText := by
  induction chunks generalizing output with
  | nil => simp
  | cons chunk rest ih =>
      rw [List.foldl_cons, ih]
      cases chunk <;> simp [add, ExecutionChunk.stdoutText, List.filterMap_cons]

theorem stderr_foldl (chunks : List ExecutionChunk) (output : BashOutput) :
    (chunks.foldl add output).stderrChunks =
      output.stderrChunks ++ chunks.filterMap ExecutionChunk.stderrText := by
  induction chunks generalizing output with
  | nil => simp
  | cons chunk rest ih =>
      rw [List.foldl_cons, ih]
      cases chunk <;> simp [add, ExecutionChunk.stderrText, List.filterMap_cons]

theorem exitCode_foldl (chunks : List ExecutionChunk) (output : BashOutput) :
    (chunks.foldl add output).exitCode =
      ((chunks.filterMap ExecutionChunk.exitCode).getLast?).getD output.exitCode := by
  induction chunks generalizing output with
  | nil => simp
  | cons chunk rest ih =>
      rw [List.foldl_cons, ih]
      cases chunk with
      | stdout data => rfl
      | stderr data => rfl
      | exit code =>
          have listed : (ExecutionChunk.exit code :: rest).filterMap ExecutionChunk.exitCode =
              code :: rest.filterMap ExecutionChunk.exitCode := rfl
          rw [listed, List.getLast?_cons]
          rfl

end BashOutput

section Loop

variable (site : CallSite)

theorem readChunks_cons {index : Nat} (quiet : site.aborted index = false) (chunk : ExecutionChunk)
    (rest : List ExecutionChunk) (output : BashOutput) (events : List ToolEvent) :
    readChunks site index (chunk :: rest) output events =
      readChunks site (index + 1) rest (output.add chunk)
        (events ++ (chunk.update site.toolCallId).toList) := by
  rw [readChunks.eq_def]
  simp only [quiet, Bool.false_eq_true, if_false]
  cases chunk with
  | stdout data => rfl
  | stderr data => rfl
  | exit code =>
      show readChunks site (index + 1) rest (output.add (.exit code)) events = _
      exact congrArg _ (List.append_nil events).symm

/-- The loop reads what comes before an abort as if nothing else came. -/
theorem readChunks_append (front rest : List ExecutionChunk) (index : Nat) (output : BashOutput)
    (events : List ToolEvent)
    (quiet : ∀ offset < front.length, site.aborted (index + offset) = false) :
    readChunks site index (front ++ rest) output events =
      readChunks site (index + front.length) rest (front.foldl BashOutput.add output)
        (events ++ front.filterMap (ExecutionChunk.update site.toolCallId)) := by
  induction front generalizing index output events with
  | nil => simp
  | cons chunk front ih =>
      have here : site.aborted index = false := quiet 0 (by simp)
      have later : ∀ offset < front.length, site.aborted (index + 1 + offset) = false := by
        intro offset small
        have shifted := quiet (offset + 1) (by simpa using small)
        rwa [Nat.add_assoc, Nat.add_comm 1 offset]
      have length : index + (chunk :: front).length = index + 1 + front.length := by
        rw [List.length_cons, Nat.add_assoc, Nat.add_comm 1]
      have reported : (chunk :: front).filterMap (ExecutionChunk.update site.toolCallId) =
          (chunk.update site.toolCallId).toList ++
            front.filterMap (ExecutionChunk.update site.toolCallId) := by
        cases chunk <;> rfl
      rw [List.cons_append, readChunks_cons site here, ih (index + 1) _ _ later, length, reported,
        List.append_assoc]
      rfl

theorem readChunks_whole (chunks : List ExecutionChunk)
    (quiet : ∀ index < chunks.length, site.aborted index = false) :
    readChunks site 0 chunks ⟨[], [], 0⟩ [] =
      (chunks.filterMap (ExecutionChunk.update site.toolCallId),
        chunks.foldl BashOutput.add ⟨[], [], 0⟩, true) := by
  have read := readChunks_append site chunks [] 0 ⟨[], [], 0⟩ [] (by simpa using quiet)
  rw [List.append_nil] at read
  rw [read, readChunks, List.nil_append]

theorem readChunks_aborted (chunks : List ExecutionChunk) (index : Nat)
    (inside : index < chunks.length) (aborted : site.aborted index = true)
    (first : ∀ earlier < index, site.aborted earlier = false) :
    readChunks site 0 chunks ⟨[], [], 0⟩ [] =
      ((chunks.take index).filterMap (ExecutionChunk.update site.toolCallId),
        (chunks.take index).foldl BashOutput.add ⟨[], [], 0⟩, false) := by
  have length : (chunks.take index).length = index :=
    List.length_take_of_le (Nat.le_of_lt inside)
  have read := readChunks_append site (chunks.take index) (chunks.drop index) 0 ⟨[], [], 0⟩ []
    (by simpa [length] using first)
  rw [List.take_append_drop, Nat.zero_add, length, List.drop_eq_getElem_cons inside] at read
  rw [read, readChunks.eq_def]
  simp only [aborted, if_true, List.nil_append]

theorem quiet_or_first (length : Nat) :
    (∀ index < length, site.aborted index = false) ∨
      ∃ index < length, site.aborted index = true ∧
        ∀ earlier < index, site.aborted earlier = false := by
  by_cases found : ∃ index, index < length ∧ site.aborted index = true
  · refine .inr ⟨Nat.find found, (Nat.find_spec found).1, (Nat.find_spec found).2, ?_⟩
    intro earlier before
    have minimal := Nat.find_min found before
    have inside := Nat.lt_trans before (Nat.find_spec found).1
    simpa [inside] using minimal
  · refine .inl fun index inside => ?_
    simpa [inside] using not_exists.mp found index

end Loop

section Events

variable {site : CallSite} {chunks : List ExecutionChunk}

theorem dataOf_update (kind : String) (text : ExecutionChunk → Option String)
    (agree : ∀ chunk : ExecutionChunk,
      (chunk.update site.toolCallId).bind (ToolEvent.dataOf kind) = text chunk) :
    (chunks.filterMap (ExecutionChunk.update site.toolCallId)).filterMap (ToolEvent.dataOf kind) =
      chunks.filterMap text := by
  rw [List.filterMap_filterMap]
  exact congrArg (List.filterMap · chunks) (funext agree)

theorem updates_only : ∀ event ∈ chunks.filterMap (ExecutionChunk.update site.toolCallId),
    event.isUpdate = true := by
  intro event member
  obtain ⟨chunk, _, reported⟩ := List.mem_filterMap.mp member
  cases chunk with
  | stdout data =>
      cases reported
      rfl
  | stderr data =>
      cases reported
      rfl
  | exit code => cases reported

theorem not_start_of_update {event : ToolEvent} (update : event.isUpdate = true) :
    event.isStart = false ∧ event.isFinish = false := by
  cases event with
  | start toolCallId toolName args => cases update
  | update toolCallId toolName kind data => exact ⟨rfl, rfl⟩
  | finish toolCallId toolName result isError durationMs => cases update

end Events

theorem refused_protocol (site : CallSite) (error : ToolResult) (failure : error.success = false) :
    BashProtocol site none (failWith "bash" site [] error).1 (failWith "bash" site [] error).2 where
  resolves := ⟨error, rfl⟩
  finished := ⟨[], _, _, _, rfl, fun _ member => absurd member List.not_mem_nil⟩
  started_once := Nat.zero_le 1
  started_first := by
    intro before event after split update
    rcases List.singleton_eq_append_iff.mp split with ⟨_, same⟩ | ⟨_, none⟩
    · cases same
      cases update
    · cases none
  succeeded := by
    intro result resolved success
    cases resolved
    rw [failure] at success
    cases success
  aborted _ member := by cases member
  relayed _ member := by cases member

theorem refused_protocol_iff (site : CallSite) (error : ToolResult)
    (failure : error.success = false) :
    BashProtocol site none (failWith "bash" site [] error).1 (failWith "bash" site [] error).2 ↔
      ∀ stream ∈ (none : Option ChunkStream), ¬Escapes site stream := by
  refine iff_of_true (refused_protocol site error failure) ?_
  intro stream asked
  cases asked

theorem framed_protocol {site : CallSite} {stream : ChunkStream} {updates : List ToolEvent}
    {args : List (String × JsValue)} {result : ToolResult} {reported : ToolResult ⊕ ToolData}
    {isError : Bool} {durationMs : Int}
    (only : ∀ event ∈ updates, event.isUpdate = true)
    (succeeded : result.success = true → ∃ duration, result.data = some (.bash
      (String.join (updates.filterMap (ToolEvent.dataOf "stdout")))
      (String.join (updates.filterMap (ToolEvent.dataOf "stderr")))
      (lastExitCode stream.chunks) duration false))
    (aborted : ∀ index < stream.chunks.length, site.aborted index = true →
      (∀ earlier < index, site.aborted earlier = false) →
        updates = (stream.chunks.take index).filterMap (ExecutionChunk.update site.toolCallId) ∧
        result = createErrorResult .cancelled (.string "Command was cancelled") none)
    (relayed : (∀ index < stream.chunks.length, site.aborted index = false) →
      updates = stream.chunks.filterMap (ExecutionChunk.update site.toolCallId)) :
    BashProtocol site (some stream)
      (.start site.toolCallId "bash" args :: updates ++
        [.finish site.toolCallId "bash" reported isError durationMs])
      (.resolved result) := by
  have relay : (ToolEvent.start site.toolCallId "bash" args :: updates ++
      [ToolEvent.finish site.toolCallId "bash" reported isError durationMs]).filter ToolEvent.isUpdate =
        updates := by
    rw [List.cons_append, List.filter_cons_of_neg Bool.false_ne_true, List.filter_append,
      List.filter_eq_self.mpr only]
    exact List.append_nil updates
  have texts (kind : String) : (ToolEvent.start site.toolCallId "bash" args :: updates ++
      [ToolEvent.finish site.toolCallId "bash" reported isError durationMs]).filterMap
        (ToolEvent.dataOf kind) = updates.filterMap (ToolEvent.dataOf kind) := by
    rw [List.cons_append, List.filterMap_cons_none rfl, List.filterMap_append]
    exact List.append_nil _
  constructor
  case resolves => exact ⟨result, rfl⟩
  case finished =>
    refine ⟨_, _, _, _, rfl, ?_⟩
    intro event member
    rcases List.mem_cons.mp member with rfl | inside
    · rfl
    · exact (not_start_of_update (only event inside)).2
  case started_once =>
    have none : updates.countP ToolEvent.isStart = 0 := by
      rw [List.countP_eq_zero]
      intro event member
      simp [(not_start_of_update (only event member)).1]
    rw [List.cons_append, List.countP_cons, List.countP_append, none]
    exact Nat.le_refl 1
  case started_first =>
    intro before event after split update
    cases before with
    | nil =>
        cases (List.cons.inj split).1
        cases update
    | cons first others =>
        have same : ToolEvent.start site.toolCallId "bash" args = first := (List.cons.inj split).1
        exact ⟨first, List.mem_cons_self, same ▸ rfl⟩
  case succeeded =>
    intro given resolved success
    cases resolved
    rw [texts, texts]
    exact ⟨stream, rfl, succeeded success⟩
  case aborted =>
    intro read member index inside here first
    cases member
    obtain ⟨sent, cancelled⟩ := aborted index inside here first
    rw [relay, cancelled]
    exact ⟨sent, rfl⟩
  case relayed =>
    intro read member quiet
    cases member
    rw [relay]
    exact relayed quiet

theorem gathered_texts (site : CallSite) (chunks : List ExecutionChunk) :
    (chunks.foldl BashOutput.add ⟨[], [], 0⟩).stdoutChunks =
        (chunks.filterMap (ExecutionChunk.update site.toolCallId)).filterMap
          (ToolEvent.dataOf "stdout") ∧
      (chunks.foldl BashOutput.add ⟨[], [], 0⟩).stderrChunks =
        (chunks.filterMap (ExecutionChunk.update site.toolCallId)).filterMap
          (ToolEvent.dataOf "stderr") ∧
      (chunks.foldl BashOutput.add ⟨[], [], 0⟩).exitCode = lastExitCode chunks := by
  refine ⟨?_, ?_, BashOutput.exitCode_foldl chunks _⟩
  · rw [dataOf_update "stdout" ExecutionChunk.stdoutText (by intro chunk; cases chunk <;> rfl)]
    exact BashOutput.stdout_foldl chunks _
  · rw [dataOf_update "stderr" ExecutionChunk.stderrText (by intro chunk; cases chunk <;> rfl)]
    exact BashOutput.stderr_foldl chunks _

section Body

variable (executeFn : ω → WorkspaceId → (command : JsValue) → BashOptions → ω × ChunkStream)
  (w : ω) (workspaceId : WorkspaceId) (params : JsValue) (site : CallSite)

/-- The `try` block of the tool, when its chunks come to an end, and the `catch` block to its. -/
theorem bashBody_protocol (args : List (String × JsValue)) (stream : ChunkStream)
    (asked : (executeFn w workspaceId (param params "command")
      ⟨(param params "timeout").orElse (.number (.ofNat 60000)), param params "cwd",
        param params "env"⟩).2 = stream)
    (ends : stream.ends ≠ .pending) (caught : ¬Escapes site stream) :
    BashProtocol site (some stream)
      (conclude "bash" site (.start site.toolCallId "bash" args ::
        (bashBody executeFn w workspaceId params site).2.1)
        (bashBody executeFn w workspaceId params site).2.2).1
      (conclude "bash" site (.start site.toolCallId "bash" args ::
        (bashBody executeFn w workspaceId params site).2.1)
        (bashBody executeFn w workspaceId params site).2.2).2 := by
  unfold bashBody
  simp only [asked]
  rcases quiet_or_first site stream.chunks.length with quiet | ⟨index, inside, here, first⟩
  · rw [readChunks_whole site stream.chunks quiet]
    obtain ⟨stdout, stderr, exit⟩ := gathered_texts site stream.chunks
    have unaborted : ∀ index < stream.chunks.length, site.aborted index = true → False := by
      intro index inside here
      rw [quiet index inside] at here
      cases here
    cases ended : stream.ends with
    | done =>
        refine framed_protocol updates_only ?_ ?_ ?_
        · intro _
          rw [← stdout, ← stderr, ← exit]
          exact ⟨_, rfl⟩
        · intro index inside here
          exact absurd here (unaborted index inside)
        · exact fun _ => rfl
    | threw error =>
        simp only [conclude]
        cases mapped : mapErrorToToolError error with
        | error thrown =>
            have unmappable := (mapErrorToToolError_throws_iff error).mp ⟨thrown, mapped⟩
            exact absurd ⟨quiet, error, ended, unmappable⟩ caught
        | ok toolError =>
            refine framed_protocol updates_only ?_ ?_ ?_
            · intro success
              cases success
            · intro index inside here
              exact absurd here (unaborted index inside)
            · exact fun _ => rfl
    | pending => exact absurd ended ends
  · rw [readChunks_aborted site stream.chunks index inside here first]
    refine framed_protocol updates_only ?_ ?_ ?_
    · intro success
      cases success
    · intro other within there before
      have same : other = index := by
        rcases Nat.lt_trichotomy other index with less | equal | more
        · rw [first other less] at there
          cases there
        · exact equal
        · rw [before index more] at here
          cases here
      rw [same]
      exact ⟨rfl, rfl⟩
    · intro quiet
      rw [quiet index inside] at here
      cases here

theorem bashBody_escapes (events : List ToolEvent) (stream : ChunkStream)
    (asked : (executeFn w workspaceId (param params "command")
      ⟨(param params "timeout").orElse (.number (.ofNat 60000)), param params "cwd",
        param params "env"⟩).2 = stream)
    (escapes : Escapes site stream) : ∃ thrown, (conclude "bash" site events
      (bashBody executeFn w workspaceId params site).2.2).2 = .rejected thrown := by
  obtain ⟨quiet, error, ended, unmappable⟩ := escapes
  obtain ⟨thrown, throws⟩ := (mapErrorToToolError_throws_iff error).mpr unmappable
  refine ⟨thrown, ?_⟩
  unfold bashBody
  simp only [asked, readChunks_whole site stream.chunks quiet, ended, conclude, throws]

/-- The bash tool keeps its protocol on exactly those calls whose chunks come to an end, be it with
an error or by an abort, where no error escapes the mapping of errors. -/
theorem bash_protocol_iff (context : Option ToolContext)
    (ends : ∀ stream ∈ bashStream executeFn w params context, stream.ends ≠ .pending) :
    BashProtocol site (bashStream executeFn w params context)
        ((createBashTool executeFn).execute w params site context).2.1
        ((createBashTool executeFn).execute w params site context).2.2 ↔
      ∀ stream ∈ bashStream executeFn w params context, ¬Escapes site stream := by
  unfold bashStream at ends ⊢
  unfold createBashTool executeTool
  simp only
  cases found : workspaceOf context with
  | none => exact refused_protocol_iff site _ rfl
  | some workspaceId =>
      rw [found] at ends
      cases access : params.member "command" with
      | error error => exact refused_protocol_iff site _ rfl
      | ok command =>
          rw [access] at ends
          simp only at ends ⊢
          cases given : command.truthy with
          | false => exact refused_protocol_iff site _ rfl
          | true =>
              rw [given] at ends
              constructor
              · rintro protocol stream ⟨⟩ escapes
                obtain ⟨thrown, rejects⟩ := bashBody_escapes executeFn w workspaceId params site
                  _ _ rfl escapes
                obtain ⟨result, resolved⟩ := protocol.resolves
                cases rejects.symm.trans resolved
              · intro caught
                exact bashBody_protocol executeFn w workspaceId params site _ _ rfl (ends _ rfl)
                  (caught _ rfl)

end Body

/-- A call that is aborted between its first two chunks and its third. -/
theorem aborted_call_keeps_protocol :
    ((createBashTool (fun (w : Unit) _ _ _ =>
        (w, ⟨[.stdout "a", .stderr "b", .stdout "c", .exit 3], .done⟩))).execute ()
      (.object [("command", .string "make")]) ⟨"call-1", fun index => decide (2 ≤ index), fun _ => 0⟩
      (some ⟨"ws-1", "run_0_a", "alice"⟩)).2.1.filter ToolEvent.isUpdate =
        [.update "call-1" "bash" "stdout" "a", .update "call-1" "bash" "stderr" "b"] := by
  have protocol := (bash_protocol_iff (fun (w : Unit) _ _ _ =>
      (w, ⟨[.stdout "a", .stderr "b", .stdout "c", .exit 3], .done⟩)) ()
    (.object [("command", .string "make")]) ⟨"call-1", fun index => decide (2 ≤ index), fun _ => 0⟩
    (some ⟨"ws-1", "run_0_a", "alice"⟩)
    (by
      intro stream asked
      cases asked
      intro pending
      cases pending)).mpr
    (by
      rintro stream asked ⟨-, error, threw, -⟩
      cases asked
      cases threw)
  exact (protocol.aborted _ rfl 2 (by decide) (by decide) (by decide)).1

/-- An `Error` whose message is an object. -/
def wordlessError : ThrownValue := ⟨true, none, .object [], none, some "Error: [object Object]"⟩

/-- The executor throws an error whose message is no text: the call rejects, and has no end event. -/
theorem wordless_error_escapes :
    ¬∀ (executeFn : Unit → WorkspaceId → JsValue → BashOptions → Unit × ChunkStream)
      (params : JsValue) (site : CallSite) (context : Option ToolContext),
      (∀ stream ∈ bashStream executeFn () params context, stream.ends ≠ .pending) →
        BashProtocol site (bashStream executeFn () params context)
          ((createBashTool executeFn).execute () params site context).2.1
          ((createBashTool executeFn).execute () params site context).2.2 := by
  intro always
  have protocol := always (fun w _ _ _ => (w, ⟨[], .threw wordlessError⟩))
    (.object [("command", .string "make")]) ⟨"call-1", fun _ => false, fun _ => 0⟩
    (some ⟨"ws-1", "run_0_a", "alice"⟩)
    (by
      intro stream asked
      cases asked
      intro pending
      cases pending)
  obtain ⟨result, resolved⟩ := protocol.resolves
  cases resolved

end Minerva
