import Minerva.Tools.StoreCalls

/-! The file tools are linearizable: the order in which Daytona takes up requests explains what the
calls have returned. -/

namespace Minerva

abbrev StoreServer := Server SandboxFiles (Option Nat × StoreRequest) StoreReply

namespace StoreCall

variable (service : FilesystemService)

def Names (call : StoreCall) (workspaceId : WorkspaceId) (path : String) : Prop :=
  workspaceOf call.context = some workspaceId ∧ ∃ userPath,
    param call.params "path" = .string userPath ∧ service.locate userPath workspaceId = .ok path

/-- What a call may ask for: a read for its file, a write for the upload of its content, if that is
not too large. -/
def Entitled (call : StoreCall) : StoreRequest → Prop
  | .getFileDetails workspaceId path => call.tool = .read ∧ call.Names service workspaceId path
  | .downloadFile workspaceId path => call.tool = .read ∧ call.Names service workspaceId path
  | .uploadFile workspaceId path bytes => call.tool = .write ∧ call.Names service workspaceId path ∧
    ∃ content, param call.params "content" = .string content ∧ bytes = fileBytes content ∧
      byteLength content call.encoding ≤ service.maxFileSize
  | .alter _ _ _ => False

/-- A call asks for at most one download or upload. -/
def Single (server : StoreServer) (id : Nat) : Prop :=
  ∀ number number' request request', server.Asked number (some id, request) →
    server.Asked number' (some id, request') → request.decisive = true →
      request'.decisive = true → number = number'

def Fulfilled (server : StoreServer) (id : Nat) (result : ToolResult) : Prop :=
  match result.data with
  | none => True
  | some (.read content _ _ _) => ∃ number workspaceId path bytes, content = blobText bytes ∧
    (number, (some id, .downloadFile workspaceId path), .file (some bytes)) ∈ server.order
  | some (.write _ _ _) => ∃ number workspaceId path bytes,
    (number, (some id, .uploadFile workspaceId path bytes), .done) ∈ server.order
  | some (.bash _ _ _ _ _) => False

/-- Where a call stands, and what it has asked for. -/
def Stands (call : StoreCall) (server : StoreServer) (id : Nat) : Prop :=
  match call.stage with
  | .locating workspaceId _ => workspaceOf call.context = some workspaceId ∧
    ∀ number request, ¬server.Asked number (some id, request)
  | .inspecting number workspaceId path =>
    server.Asked number (some id, .getFileDetails workspaceId path) ∧
      ∀ number request, server.Asked number (some id, request) → request.decisive = false
  | .downloading number workspaceId path =>
    server.Asked number (some id, .downloadFile workspaceId path)
  | .uploading number => ∃ workspaceId path bytes,
    server.Asked number (some id, .uploadFile workspaceId path bytes)
  | .settled (.ok result) => Fulfilled server id result
  | .settled (.error _) => True

inductive Turns (server : StoreServer) (call : StoreCall) (now : Int) : Turn → Prop
  | fails (error : ToolResult) : error.data = none → Turns server call now (call.fail now error, none)
  | throws (error : ThrownValue) :
      Turns server call now ({ call with stage := .settled (.error error) }, none)
  | inspects (workspaceId : WorkspaceId) (cached : Bool) (path : String) :
      call.stage = .locating workspaceId cached →
      (workspaceOf call.context = some workspaceId →
        call.Entitled service (.getFileDetails workspaceId path)) →
      Turns server call now ({ call with stage := .inspecting server.next workspaceId path },
        some (.getFileDetails workspaceId path))
  | uploads (workspaceId : WorkspaceId) (cached : Bool) (path : String) (bytes : Bytes) :
      call.stage = .locating workspaceId cached →
      (workspaceOf call.context = some workspaceId →
        call.Entitled service (.uploadFile workspaceId path bytes)) →
      Turns server call now ({ call with stage := .uploading server.next },
        some (.uploadFile workspaceId path bytes))
  | downloads (number : Nat) (workspaceId : WorkspaceId) (path : String) :
      call.stage = .inspecting number workspaceId path →
      Turns server call now (call.download server.next workspaceId path)
  | reads (number : Nat) (workspaceId : WorkspaceId) (path : String) (bytes : Bytes) :
      call.stage = .downloading number workspaceId path →
      server.replies.get number = some (.file (some bytes)) →
      Turns server call now (call.succeed now
        (.read (blobText bytes) (jsLength (blobText bytes)) call.encoding false), none)
  | writes (number : Nat) (bytesWritten : JsValue) : call.stage = .uploading number →
      server.replies.get number = some .done →
      Turns server call now (call.succeed now
        (.write (param call.params "path") bytesWritten call.encoding), none)

variable {service} {noFile : WorkspaceId → String → ThrownValue} {server : StoreServer}
  {call : StoreCall} {now : Int} {turn : Turn}

theorem turns_caught (error : ThrownValue) :
    Turns service server call now (call.caught now error, none) := by
  unfold caught
  split
  · exact .fails _ rfl
  · exact .throws _

theorem turns_located {workspaceId : WorkspaceId} {cached : Bool} (available : Bool)
    (stage : call.stage = .locating workspaceId cached) :
    Turns service server call now (call.located service now server.next workspaceId available) := by
  unfold located
  split
  · exact turns_caught _
  · obtain ⟨tool, toolCallId, params, context, startTime, place, events⟩ := call
    cases tool with
    | read =>
        dsimp only
        split
        · rename_i userPath given
          split
          · exact turns_caught _
          · rename_i path located
            exact .inspects workspaceId cached path stage
              (fun known => ⟨rfl, known, userPath, given, located⟩)
        · exact turns_caught _
    | write =>
        dsimp only
        split
        · rename_i userPath content given text
          split
          · exact turns_caught _
          · rename_i path located
            split
            · exact turns_caught _
            · rename_i small
              exact .uploads workspaceId cached path _ stage (fun known =>
                ⟨rfl, ⟨known, userPath, given, located⟩, content, text, rfl, Nat.le_of_not_lt small⟩)
        · exact turns_caught _

theorem turns_replied {number : Nat} {reply : StoreReply}
    (awaited : call.stage.awaited = some number) (came : server.replies.get number = some reply)
    (goes : call.replied service noFile now server.next reply = some turn) :
    Turns service server call now turn := by
  unfold replied at goes
  split at goes
  · rename_i own workspaceId path size stage
    split at goes
    · cases goes
      exact turns_caught _
    · cases goes
      exact .downloads own workspaceId path stage
  · rename_i own workspaceId path bytes stage
    rw [stage] at awaited
    cases awaited
    split at goes
    · cases goes
      exact turns_caught _
    · cases goes
      exact .reads _ workspaceId path _ stage came
  · rename_i own stage
    rw [stage] at awaited
    cases awaited
    split at goes
    · cases goes
      exact turns_caught _
    · cases goes
      exact .writes _ _ stage came
  · cases goes

theorem turns_rejected {error : ThrownValue}
    (goes : call.rejected now server.next error = some turn) :
    Turns service server call now turn := by
  unfold rejected at goes
  split at goes
  · rename_i own workspaceId path stage
    cases goes
    exact .downloads own workspaceId path stage
  · cases goes
    exact turns_caught _
  · cases goes
    exact turns_caught _
  · cases goes

section Others

variable {server' : StoreServer} {id : Nat}
  (same : ∀ number request, server'.Asked number (some id, request) ↔
    server.Asked number (some id, request))

include same

theorem Single.of_same (single : Single server id) : Single server' id := by
  intro number number' request request' asked asked'
  exact single number number' request request' ((same _ _).mp asked) ((same _ _).mp asked')

theorem Stands.of_same (grown : ∀ entry ∈ server.order, entry ∈ server'.order)
    (stands : call.Stands server id) : call.Stands server' id := by
  unfold Stands at stands ⊢
  split at stands
  · exact ⟨stands.1, fun number request asked => stands.2 number request ((same _ _).mp asked)⟩
  · exact ⟨(same _ _).mpr stands.1,
      fun number request asked => stands.2 number request ((same _ _).mp asked)⟩
  · exact (same _ _).mpr stands
  · obtain ⟨workspaceId, path, bytes, asked⟩ := stands
    exact ⟨workspaceId, path, bytes, (same _ _).mpr asked⟩
  · unfold Fulfilled at stands ⊢
    split at stands
    · trivial
    · obtain ⟨number, workspaceId, path, bytes, shown, listed⟩ := stands
      exact ⟨number, workspaceId, path, bytes, shown, grown _ listed⟩
    · obtain ⟨number, workspaceId, path, bytes, listed⟩ := stands
      exact ⟨number, workspaceId, path, bytes, grown _ listed⟩
    · exact stands
  · exact stands

end Others

theorem execute_stands {id : Nat} (sandboxes : List WorkspaceId) (tool : FileTool)
    (toolCallId : String) (params : JsValue) (context : Option ToolContext)
    (unasked : ∀ number request, ¬server.Asked number (some id, request)) :
    (execute sandboxes now tool toolCallId params context).Stands server id := by
  unfold execute
  split
  · trivial
  · rename_i workspaceId known
    split
    · trivial
    · split
      · trivial
      · exact ⟨known, unasked⟩

theorem single_send {id : Nat} (sent : StoreRequest)
    (undecided : ∀ number request, server.Asked number (some id, request) →
      request.decisive = false) : Single (server.send (some id, sent)) id := by
  have newest : ∀ number request, (server.send (some id, sent)).Asked number (some id, request) →
      request.decisive = true → number = server.next := by
    intro number request asked decisive
    rcases Server.asked_of_send asked with ⟨now, -⟩ | before
    · exact now
    · rw [undecided number request before] at decisive
      cases decisive
  intro number number' request request' asked asked' decisive decisive'
  rw [newest number request asked decisive, newest number' request' asked' decisive']

section Own

variable {files : SandboxFiles} {id : Nat} (sound : Server.Sound sandboxFiles files server)

include sound

theorem asked_by_others {owner : Option Nat} (sent : StoreRequest) (other : some id ≠ owner)
    (number : Nat) (request : StoreRequest) :
    (server.send (owner, sent)).Asked number (some id, request) ↔
      server.Asked number (some id, request) := by
  constructor
  · intro asked
    rcases Server.asked_of_send asked with ⟨-, same⟩ | before
    · exact absurd (congrArg Prod.fst same) other
    · exact before
  · exact sound.send_keeps _

theorem answered {number : Nat} {request : Option Nat × StoreRequest} {reply : StoreReply}
    (asked : server.Asked number request) (came : server.replies.get number = some reply) :
    (number, request, reply) ∈ server.order := by
  obtain ⟨other, listed⟩ := sound.replied number reply came
  rw [sound.unique asked (.inr ⟨reply, listed⟩)]
  exact listed

theorem Turns.stands (turned : Turns service server call now turn) (single : Single server id)
    (stands : call.Stands server id) :
    let server' := match turn.2 with
      | none => server
      | some request => server.send (some id, request)
    turn.1.Stands server' id ∧ Single server' id := by
  cases turned with
  | fails error failed =>
      refine ⟨?_, single⟩
      simp only [Stands, fail, Fulfilled, failed]
  | throws error => exact ⟨trivial, single⟩
  | inspects workspaceId cached path stage names =>
      rw [Stands, stage] at stands
      have own : ∀ number request,
          (server.send (some id, .getFileDetails workspaceId path)).Asked number (some id, request) →
            request.decisive = false := by
        intro number request asked
        rcases Server.asked_of_send asked with ⟨-, same⟩ | before
        · cases same
          rfl
        · exact absurd before (stands.2 number request)
      exact ⟨⟨Server.asked_send _, own⟩,
        single_send _ (fun number request asked => absurd asked (stands.2 number request))⟩
  | uploads workspaceId cached path bytes stage names =>
      rw [Stands, stage] at stands
      exact ⟨⟨workspaceId, path, bytes, Server.asked_send _⟩,
        single_send _ (fun number request asked => absurd asked (stands.2 number request))⟩
  | downloads number workspaceId path stage =>
      rw [Stands, stage] at stands
      exact ⟨Server.asked_send _, single_send _ stands.2⟩
  | reads number workspaceId path bytes stage came =>
      rw [Stands, stage] at stands
      exact ⟨⟨number, workspaceId, path, bytes, rfl, answered sound stands came⟩, single⟩
  | writes number bytesWritten stage came =>
      rw [Stands, stage] at stands
      obtain ⟨workspaceId, path, bytes, asked⟩ := stands
      exact ⟨⟨number, workspaceId, path, bytes, answered sound asked came⟩, single⟩

end Own

theorem Turns.asks (turned : Turns service server call now turn) {id : Nat}
    (stands : call.Stands server id)
    (entitled : ∀ number request, server.Asked number (some id, request) →
      call.Entitled service request) :
    ∀ request ∈ turn.2, call.Entitled service request := by
  intro request member
  cases turned with
  | fails error failed => cases member
  | throws error => cases member
  | inspects workspaceId cached path stage names =>
      cases member
      rw [Stands, stage] at stands
      exact names stands.1
  | uploads workspaceId cached path bytes stage names =>
      cases member
      rw [Stands, stage] at stands
      exact names stands.1
  | downloads number workspaceId path stage =>
      cases member
      rw [Stands, stage] at stands
      exact entitled number (.getFileDetails workspaceId path) stands.1
  | reads number workspaceId path bytes stage came => cases member
  | writes number bytesWritten stage came => cases member

theorem Turns.entitled (turned : Turns service server call now turn) (request : StoreRequest) :
    turn.1.Entitled service request ↔ call.Entitled service request := by
  cases turned <;> rfl

def data (call : StoreCall) : Option ToolData :=
  match call.stage with
  | .settled (.ok result) => result.data
  | _ => none

/-- What a call has to show for in the order of what Daytona has done: nothing that it may not ask
for, at most one download or upload, and where it has succeeded the download that its content comes
from, or its upload. -/
structure Accounted (service : FilesystemService) (files : SandboxFiles)
    (order : List (Nat × (Option Nat × StoreRequest) × StoreReply)) (id : Nat)
    (call : StoreCall) : Prop where
  own : ∀ number request reply, (number, (some id, request), reply) ∈ order →
    call.Entitled service request
  once : ∀ number number' request request' reply reply',
    (number, (some id, request), reply) ∈ order → (number', (some id, request'), reply') ∈ order →
      request.decisive = true → request'.decisive = true → number = number'
  reads : ∀ content size encoding truncated,
    call.data = some (.read content size encoding truncated) →
      ∃ earlier number workspaceId path reply later bytes,
        order = earlier ++ (number, (some id, .downloadFile workspaceId path), reply) :: later ∧
          Server.after sandboxFiles files earlier workspaceId path = some bytes ∧
          content = blobText bytes
  writes : ∀ path bytesWritten encoding, call.data = some (.write path bytesWritten encoding) →
    ∃ number workspaceId located bytes,
      (number, (some id, .uploadFile workspaceId located bytes), .done) ∈ order

end StoreCall

namespace StoreCalls

variable {service : FilesystemService} {noFile : WorkspaceId → String → ThrownValue}
  {s s' t : StoreCalls}

inductive Steps (service : FilesystemService) (s : StoreCalls) : StoreCalls → Prop
  | begins (id : Nat) (tool : FileTool) (toolCallId : String) (params : JsValue)
      (context : Option ToolContext) : s.calls.get id = none → Steps service s
        { s with
          calls := s.calls.set id (.execute s.sandboxes s.now tool toolCallId params context) }
  | turns (id : Nat) (call : StoreCall) (turn : StoreCall.Turn) (sandboxes : List WorkspaceId) :
      s.calls.get id = some call → call.Turns service s.server s.now turn →
        Steps service s { s.advance id turn with sandboxes }
  | serves (number : Nat) (server : StoreServer) :
      s.server.serve sandboxFiles number = some server → Steps service s { s with server }
  | alters (workspaceId : WorkspaceId) (path : String) (file : Option Bytes) :
      Steps service s { s with server := s.server.send (none, .alter workspaceId path file) }
  | passes (sandboxes : List WorkspaceId) (now : Int) : Steps service s { s with sandboxes, now }

theorem steps_of_step {label : Label} (moved : s.step service noFile label = some s') :
    Steps service s s' := by
  cases label with
  | call id tool toolCallId params context =>
      simp only [step] at moved
      split at moved
      · cases moved
      · rename_i free
        cases moved
        exact .begins id tool toolCallId params context free
  | located id found =>
      obtain ⟨call, known, goes⟩ := Option.bind_eq_some_iff.mp moved
      split at goes
      · rename_i workspaceId cached stage
        cases goes
        exact .turns id call _ _ known (StoreCall.turns_located _ stage)
      · cases goes
  | serve number =>
      obtain ⟨server, taken, rfl⟩ := Option.map_eq_some_iff.mp moved
      exact .serves number server taken
  | receive id =>
      obtain ⟨call, known, goes⟩ := Option.bind_eq_some_iff.mp moved
      obtain ⟨reply, came, goes⟩ := Option.bind_eq_some_iff.mp goes
      obtain ⟨number, awaited, came⟩ := Option.bind_eq_some_iff.mp came
      obtain ⟨turn, turned, rfl⟩ := Option.map_eq_some_iff.mp goes
      exact .turns id call turn _ known (StoreCall.turns_replied awaited came turned)
  | reject id error =>
      obtain ⟨call, known, goes⟩ := Option.bind_eq_some_iff.mp moved
      obtain ⟨turn, turned, rfl⟩ := Option.map_eq_some_iff.mp goes
      exact .turns id call turn _ known (StoreCall.turns_rejected turned)
  | alter workspaceId path file =>
      cases moved
      exact .alters workspaceId path file
  | recache sandboxes =>
      cases moved
      exact .passes sandboxes s.now
  | tick elapsed =>
      cases moved
      exact .passes s.sandboxes _

/-- Daytona has answered in the order of the requests, and each call has asked for what it may and
rests on what it was answered. -/
structure Kept (service : FilesystemService) (files : SandboxFiles) (s : StoreCalls) : Prop where
  sound : Server.Sound sandboxFiles files s.server
  entitled : ∀ number id request, s.server.Asked number (some id, request) →
    ∃ call, s.calls.get id = some call ∧ call.Entitled service request
  single : ∀ id, StoreCall.Single s.server id
  stands : ∀ id call, s.calls.get id = some call → call.Stands s.server id

theorem Kept.entitled_call {files : SandboxFiles} (kept : Kept service files s) {id number : Nat}
    {call : StoreCall} {request : StoreRequest} (found : s.calls.get id = some call)
    (asked : s.server.Asked number (some id, request)) : call.Entitled service request := by
  obtain ⟨own, same, entitled⟩ := kept.entitled number id request asked
  cases found.symm.trans same
  exact entitled

theorem kept_init (files : SandboxFiles) (now : Int) : Kept service files (init files now) where
  sound := Server.sound_init
  entitled number id request asked := by
    rcases asked with waiting | ⟨reply, listed⟩
    · cases waiting
    · cases listed
  single id number number' request request' asked := by
    rcases asked with waiting | ⟨reply, listed⟩
    · cases waiting
    · cases listed
  stands id call found := by cases found

theorem Kept.next {files : SandboxFiles} (kept : Kept service files s) (moved : Steps service s s') :
    Kept service files s' := by
  cases moved with
  | begins id tool toolCallId params context free =>
      have unasked : ∀ number request, ¬s.server.Asked number (some id, request) := by
        intro number request asked
        obtain ⟨call, found, -⟩ := kept.entitled number id request asked
        rw [free] at found
        cases found
      refine ⟨kept.sound, ?_, kept.single, ?_⟩
      · intro number other request asked
        obtain ⟨call, found, entitled⟩ := kept.entitled number other request asked
        have different : other ≠ id := by
          rintro rfl
          exact unasked number request asked
        exact ⟨call, (EsMap.get_set_of_ne _ _ _ _ different).trans found, entitled⟩
      · intro other call found
        rcases EsMap.get_set_cases _ _ found with ⟨rfl, rfl⟩ | ⟨-, before⟩
        · exact StoreCall.execute_stands _ _ _ _ _ unasked
        · exact kept.stands other call before
  | turns id call turn sandboxes found turned =>
      obtain ⟨stands, single⟩ := turned.stands kept.sound (kept.single id) (kept.stands id call found)
      have asks := turned.asks (kept.stands id call found)
        (fun _ _ asked => kept.entitled_call found asked)
      have same := turned.entitled
      obtain ⟨next, sent⟩ := turn
      have others : ∀ other, other ≠ id → ∀ number request,
          (s.advance id (next, sent)).server.Asked number (some other, request) ↔
            s.server.Asked number (some other, request) := by
        intro other different number request
        cases sent with
        | none => exact Iff.rfl
        | some sent =>
            exact StoreCall.asked_by_others kept.sound sent (by simpa using different) number request
      refine ⟨?_, ?_, ?_, ?_⟩
      · cases sent with
        | none => exact kept.sound
        | some sent => exact kept.sound.send _
      · intro number other request asked
        by_cases own : other = id
        · subst own
          refine ⟨next, EsMap.get_set_self _ _ _, (same request).mpr ?_⟩
          cases sent with
          | none => exact kept.entitled_call found asked
          | some sent =>
              rcases Server.asked_of_send asked with ⟨-, sent_now⟩ | earlier
              · cases sent_now
                exact asks request rfl
              · exact kept.entitled_call found earlier
        · obtain ⟨owner, known, entitled⟩ :=
            kept.entitled number other request ((others other own number request).mp asked)
          exact ⟨owner, (EsMap.get_set_of_ne _ _ _ _ own).trans known, entitled⟩
      · intro other
        by_cases own : other = id
        · subst own
          exact single
        · exact (kept.single other).of_same (others other own)
      · intro other after held
        rcases EsMap.get_set_cases _ _ held with ⟨rfl, rfl⟩ | ⟨different, before⟩
        · exact stands
        · refine (kept.stands other after before).of_same (others other different) ?_
          intro entry listed
          cases sent with
          | none => exact listed
          | some sent => exact listed
  | serves number server taken =>
      have same := Server.asked_serve taken
      obtain ⟨request, -, -, order, -⟩ := Server.served_cases taken
      refine ⟨kept.sound.serve taken, ?_, ?_, ?_⟩
      · intro other id request asked
        exact kept.entitled other id request ((same _ _).mp asked)
      · intro id
        exact (kept.single id).of_same (fun _ _ => same _ _)
      · intro id call found
        refine (kept.stands id call found).of_same (fun _ _ => same _ _) ?_
        intro entry listed
        rw [order]
        exact List.mem_append_left _ listed
  | alters workspaceId path file =>
      have same (id : Nat) := StoreCall.asked_by_others kept.sound
        (.alter workspaceId path file) (Option.some_ne_none id)
      refine ⟨kept.sound.send _, ?_, ?_, ?_⟩
      · intro number id request asked
        exact kept.entitled number id request ((same id number request).mp asked)
      · intro id
        exact (kept.single id).of_same (same id)
      · intro id call found
        exact (kept.stands id call found).of_same (same id) (fun _ listed => listed)
  | passes sandboxes now => exact ⟨kept.sound, kept.entitled, kept.single, kept.stands⟩

section

variable {files : SandboxFiles} {id : Nat} {call : StoreCall}

theorem Kept.fulfilled (kept : Kept service files s) (found : s.calls.get id = some call)
    {data : ToolData} (returned : call.data = some data) :
    ∃ result, result.data = some data ∧ StoreCall.Fulfilled s.server id result := by
  have stands := kept.stands id call found
  unfold StoreCall.data at returned
  split at returned
  · rename_i result stage
    rw [StoreCall.Stands, stage] at stands
    exact ⟨result, returned, stands⟩
  · cases returned

theorem Kept.accounted (kept : Kept service files s) (found : s.calls.get id = some call) :
    call.Accounted service files s.server.order id where
  own number request reply listed := kept.entitled_call found (.inr ⟨reply, listed⟩)
  once number number' request request' reply reply' listed listed' :=
    kept.single id number number' request request' (.inr ⟨reply, listed⟩) (.inr ⟨reply', listed'⟩)
  reads content size encoding truncated returned := by
    obtain ⟨result, shown, fulfilled⟩ := kept.fulfilled found returned
    rw [StoreCall.Fulfilled, shown] at fulfilled
    obtain ⟨number, workspaceId, path, bytes, same, listed⟩ := fulfilled
    obtain ⟨earlier, later, split⟩ := List.append_of_mem listed
    have answered := kept.sound.explains earlier number _ _ later split
    injection answered with held
    exact ⟨earlier, number, workspaceId, path, _, later, bytes, split, held.symm, same⟩
  writes path bytesWritten encoding returned := by
    obtain ⟨result, shown, fulfilled⟩ := kept.fulfilled found returned
    rw [StoreCall.Fulfilled, shown] at fulfilled
    exact fulfilled

theorem Kept.decided (kept : Kept service files s) (found : s.calls.get id = some call)
    {data : ToolData} (returned : call.data = some data) :
    ∃ number request reply, (number, (some id, request), reply) ∈ s.server.order ∧
      request.decisive = true := by
  obtain ⟨result, shown, fulfilled⟩ := kept.fulfilled found returned
  rw [StoreCall.Fulfilled, shown] at fulfilled
  cases data with
  | read content size encoding truncated =>
      obtain ⟨number, workspaceId, path, bytes, -, listed⟩ := fulfilled
      exact ⟨number, _, _, listed, rfl⟩
  | write path bytesWritten encoding =>
      obtain ⟨number, workspaceId, path, bytes, listed⟩ := fulfilled
      exact ⟨number, _, _, listed, rfl⟩
  | bash stdout stderr exitCode duration truncated => exact fulfilled.elim

theorem order_grows (moved : Steps service s s') :
    s.server.order <+: s'.server.order := by
  cases moved with
  | begins id tool toolCallId params context free => exact List.prefix_rfl
  | turns id call turn sandboxes found turned =>
      obtain ⟨next, sent⟩ := turn
      cases sent <;> exact List.prefix_rfl
  | serves number server taken =>
      obtain ⟨request, -, -, order, -⟩ := Server.served_cases taken
      exact ⟨_, order.symm⟩
  | alters workspaceId path file => exact List.prefix_rfl
  | passes sandboxes now => exact List.prefix_rfl

end

section

variable (service) (noFile) (files : SandboxFiles) (now : Int) {labels : List Label}

/-- However calls of the read and write tools overlap, and whatever else happens to the files: the
order in which Daytona has taken up requests explains the files and what the calls have returned,
and it keeps real time. It grows at its end only; what a call asks for is taken up after the call
has begun, and its download or upload before it succeeds. -/
theorem file_calls_linearize
    (reached : Transition.Reach (step service noFile) Transition.Free (init files now) s)
    (path : Transition.Path (step service noFile) Transition.Free s labels t) :
    t.server.state = Server.after sandboxFiles files t.server.order ∧
      Server.Explains sandboxFiles files t.server.order ∧
      (∀ id call, t.calls.get id = some call →
        call.Accounted service files t.server.order id) ∧
      ∃ later, t.server.order = s.server.order ++ later ∧
        (∀ id, s.calls.get id = none → ∀ entry ∈ s.server.order, entry.2.1.1 ≠ some id) ∧
        ∀ id call data, s.calls.get id = some call → call.data = some data →
          ∀ entry ∈ later, entry.2.1.1 = some id → entry.2.1.2.decisive = false := by
  have kept : Kept service files s := reached.invariant (Kept service files) (kept_init files now)
    (fun _ _ _ _ before moved => before.next (steps_of_step moved))
  obtain ⟨kept', later, grown⟩ := path.invariant
    (fun u => Kept service files u ∧ s.server.order <+: u.server.order) ⟨kept, List.prefix_rfl⟩
    (fun _ _ _ _ before moved => ⟨before.1.next (steps_of_step moved),
      before.2.trans (order_grows (steps_of_step moved))⟩)
  refine ⟨kept'.sound.state, kept'.sound.explains,
    fun id call found => kept'.accounted found, later, grown.symm, ?_, ?_⟩
  · rintro id free ⟨number, ⟨owner, request⟩, reply⟩ listed rfl
    obtain ⟨call, found, -⟩ := kept.entitled number id request (.inr ⟨reply, listed⟩)
    rw [free] at found
    cases found
  · rintro id call data found returned ⟨number', ⟨owner, request'⟩, reply'⟩ listed' rfl
    -- the decisive request of the call has been taken up before
    obtain ⟨number, request, reply, listed, decisive⟩ := kept.decided found returned
    by_contra again
    have whole := kept'.sound.once
    rw [← grown, List.map_append] at whole
    have same := kept'.single id number number' request request'
      (.inr ⟨reply, grown ▸ List.mem_append_left _ listed⟩)
      (.inr ⟨reply', grown ▸ List.mem_append_right _ listed'⟩) decisive
      (Bool.eq_true_of_not_eq_false again)
    have before : number ∈ s.server.order.map Prod.fst := List.mem_map_of_mem listed
    have after : number' ∈ later.map Prod.fst := List.mem_map_of_mem listed'
    exact List.disjoint_of_nodup_append whole before (same ▸ after)

end

/-- A write that is taken up while a read of the same file is under way, and a command that removes
the file after the read. -/
def overlappingLabels : List Label :=
  [.call 0 .write "call-1" (.object [("path", .string "a.txt"), ("content", .string "one")])
      (some ⟨"ws-1", "run_0_a", "alice"⟩),
    .call 1 .read "call-2" (.object [("path", .string "./a.txt")])
      (some ⟨"ws-1", "run_0_a", "alice"⟩),
    .located 0 true, .located 1 true, .serve 1, .receive 1, .serve 0, .alter "ws-1"
      "/workspace/a.txt" none, .serve 2, .serve 3, .receive 1, .receive 0]

def contentRead (call : StoreCall) : Option String :=
  match call.data with
  | some (.read content _ _ _) => some content
  | _ => none

theorem overlapping_read_sees_write : ∃ (t : StoreCalls) (call : StoreCall),
    t.calls.get 1 = some call ∧ contentRead call = some "one" ∧
      call.Accounted .default (fun _ _ => none) t.server.order 1 := by
  have ran : (Transition.exec (Transition.guarded
      (step FilesystemService.default fun _ _ => .error "no such file") Transition.Free)
      (init (fun _ _ => none) 0) overlappingLabels).map
        (fun t => (t.calls.get 1).bind contentRead) = some (some "one") := by decide +kernel
  obtain ⟨t, went, observed⟩ := Option.map_eq_some_iff.mp ran
  obtain ⟨call, found, shown⟩ := Option.bind_eq_some_iff.mp observed
  have accounted := (file_calls_linearize FilesystemService.default
    (fun _ _ => .error "no such file") (fun _ _ => none) 0 .refl
    (Transition.path_of_exec _ went)).2.2.1 1 call found
  exact ⟨t, call, found, shown, accounted⟩

end StoreCalls

end Minerva
