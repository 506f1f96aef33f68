import Minerva.Tools.BashCalls

namespace Minerva

namespace BashCall

variable {call : BashCall} {now : Int} {next : BashCall × List SessionRequest}

theorem caught_settled (error : ThrownValue) :
    ∃ outcome, (call.caught now error).stage = .settled outcome := by
  unfold caught
  split <;> exact ⟨_, rfl⟩

theorem ended_params {ends : ChunksEnd} {after : BashCall} (ended : call.ended now ends = some after) :
    after.params = call.params := by
  cases ends with
  | done =>
      cases ended
      rfl
  | threw error =>
      cases ended
      unfold caught
      split <;> rfl
  | pending => cases ended

theorem ended_settled {ends : ChunksEnd} {after : BashCall}
    (ended : call.ended now ends = some after) : ∃ outcome, after.stage = .settled outcome := by
  cases ends with
  | done =>
      cases ended
      exact ⟨_, rfl⟩
  | threw error =>
      cases ended
      exact caught_settled error
  | pending => cases ended

/-- What passes before the deletion of a session: it is refused, or it is created and then the
command runs in it. -/
def Opened (call : BashCall) (session : DaytonaSession) (passed : List SessionMessage) : Prop :=
  (∃ error, passed = [.asks (.createSession session), .answers (.rejected error)]) ∨
    ∃ reply, passed = [.asks (.createSession session), .answers .created,
      .asks (.executeSessionCommand session call.command call.timeoutMs), .answers reply]

def Passed (call : BashCall) (passed : List SessionMessage) : Prop :=
  match call.stage with
  | .locating _ _ => passed = []
  | .creating session => passed = [.asks (.createSession session)]
  | .executing session => passed = [.asks (.createSession session), .answers .created,
      .asks (.executeSessionCommand session call.command call.timeoutMs)]
  | .yielding session _ _ => call.Opened session passed
  | .deleting session _ => ∃ opened, call.Opened session opened ∧
      passed = opened ++ [.asks (.deleteSession session)]
  | .returning session _ => ∃ opened, call.Opened session opened ∧
      passed = opened ++ [.asks (.deleteSession session)]
  | .settled _ => passed = [] ∨ ∃ session opened last, call.Opened session opened ∧
      passed = opened ++ [.asks (.deleteSession session), .answers last]

theorem Opened.of_params {other : BashCall} {session : DaytonaSession}
    {passed : List SessionMessage} (opened : call.Opened session passed)
    (same : other.params = call.params) : other.Opened session passed := by
  unfold Opened command timeoutMs at opened ⊢
  rw [same]
  exact opened

theorem Opened.proceed {session : DaytonaSession} {passed : List SessionMessage}
    (opened : call.Opened session passed) (left : ChunkStream) :
    (call.proceed session left).1.Passed
      (passed ++ (call.proceed session left).2.map .asks) := by
  obtain ⟨chunks, ends⟩ := left
  cases chunks with
  | nil => exact ⟨passed, opened, rfl⟩
  | cons chunk chunks =>
      simp only [BashCall.proceed, List.map_nil, List.append_nil]
      exact opened

theorem Opened.replied {session : DaytonaSession} {passed : List SessionMessage}
    {reply : SessionReply} (opened : call.Opened session (passed ++ [.answers reply]))
    (left : ChunkStream) :
    (call.proceed session left).1.Passed (passed ++
      (BashTurn.replied reply).messages (call.proceed session left).2) := by
  rw [BashTurn.messages, ← List.append_assoc]
  exact opened.proceed left

theorem Passed.turn {turn : BashTurn} {passed : List SessionMessage} (before : call.Passed passed)
    (turns : Turns call now turn next) : next.1.Passed (passed ++ turn.messages next.2) := by
  cases turns with
  | locates workspaceId cached found random sessionId stage =>
      simp only [Passed, stage] at before
      rw [before]
      rfl
  | lost workspaceId cached found random stage =>
      simp only [Passed, stage] at before
      obtain ⟨outcome, settled⟩ := @caught_settled call now
        (SandboxError.workspaceNotFound workspaceId).thrown
      rw [before, Passed, settled]
      exact .inl rfl
  | creates session stage =>
      simp only [Passed, stage] at before
      rw [before]
      rfl
  | refuses session error stage =>
      simp only [Passed, stage] at before
      have opened : call.Opened session (passed ++ [.answers (.rejected error)]) := by
        rw [before]
        exact .inl ⟨error, rfl⟩
      exact opened.replied _
  | fails session error stage =>
      simp only [Passed, stage] at before
      have opened : call.Opened session (passed ++ [.answers (.rejected error)]) := by
        rw [before]
        exact .inr ⟨_, rfl⟩
      exact opened.replied _
  | executes session output exitCode stage =>
      simp only [Passed, stage] at before
      have opened : call.Opened session (passed ++ [.answers (.result output exitCode)]) := by
        rw [before]
        exact .inr ⟨_, rfl⟩
      exact opened.replied _
  | ends session ends reply after stage ended =>
      obtain ⟨outcome, settled⟩ := ended_settled ended
      simp only [Passed, stage] at before
      obtain ⟨opened, opens, rfl⟩ := before
      rw [Passed, settled]
      refine .inr ⟨session, opened, reply, opens.of_params (ended_params ended), ?_⟩
      exact List.append_assoc _ _ _
  | returns session error reply stage =>
      simp only [Passed, stage] at before
      obtain ⟨opened, opens, rfl⟩ := before
      exact .inr ⟨session, opened, reply, opens, List.append_assoc _ _ _⟩
  | cancels session chunk left stage aborted =>
      simp only [Passed, stage] at before
      exact ⟨passed, before, rfl⟩
  | reads session chunk left stage quiet =>
      simp only [Passed, stage] at before
      have opened : (call.gather chunk).Opened session passed := before
      exact opened.proceed left

theorem Passed.whole {passed : List SessionMessage} (before : call.Passed passed) :
    ∃ session opened last, call.Opened session opened ∧
      passed <+: opened ++ [.asks (.deleteSession session), .answers last] ∧
      ∀ outcome, call.stage = .settled outcome →
        passed = [] ∨ passed = opened ++ [.asks (.deleteSession session), .answers last] := by
  have going {stage : BashStage} {P : Prop} (here : call.stage = stage)
      (unsettled : ∀ outcome, stage ≠ .settled outcome) :
      ∀ outcome, call.stage = .settled outcome → P := fun outcome settled =>
    absurd (here.symm.trans settled) (unsettled outcome)
  unfold Passed at before
  split at before
  · rename_i workspaceId cached stage
    refine ⟨⟨workspaceId, ""⟩, _, .deleted, .inr ⟨.created, rfl⟩, ?_, going stage (by simp)⟩
    rw [before]
    exact List.nil_prefix
  · rename_i session stage
    refine ⟨session, _, .deleted, .inr ⟨.created, rfl⟩, ?_, going stage (by simp)⟩
    rw [before]
    exact ⟨_, rfl⟩
  · rename_i session stage
    refine ⟨session, _, .deleted, .inr ⟨.created, rfl⟩, ?_, going stage (by simp)⟩
    rw [before]
    exact ⟨_, rfl⟩
  · rename_i session chunk left stage
    exact ⟨session, passed, .deleted, before, List.prefix_append _ _, going stage (by simp)⟩
  · rename_i session ends stage
    obtain ⟨opened, opens, rfl⟩ := before
    refine ⟨session, opened, .deleted, opens, ⟨[.answers .deleted], ?_⟩, going stage (by simp)⟩
    exact List.append_assoc _ _ _
  · rename_i session error stage
    obtain ⟨opened, opens, rfl⟩ := before
    refine ⟨session, opened, .deleted, opens, ⟨[.answers .deleted], ?_⟩, going stage (by simp)⟩
    exact List.append_assoc _ _ _
  · rcases before with rfl | ⟨session, opened, last, opens, rfl⟩
    · exact ⟨⟨"", ""⟩, _, .deleted, .inr ⟨.created, rfl⟩, List.nil_prefix, fun _ _ => .inl rfl⟩
    · exact ⟨session, opened, last, opens, List.prefix_refl _, fun _ _ => .inr rfl⟩

theorem left_proceed (session : DaytonaSession) (left : ChunkStream) :
    (call.proceed session left).1.left ≤ left.chunks.length + 1 := by
  obtain ⟨chunks, ends⟩ := left
  cases chunks with
  | nil => exact Nat.le_refl _
  | cons chunk chunks => exact Nat.le_refl _

theorem flows_proceed (session : DaytonaSession) {left : ChunkStream} (flows : left.ends ≠ .pending) :
    (call.proceed session left).1.stage.Flows := by
  obtain ⟨chunks, ends⟩ := left
  cases chunks with
  | nil => exact flows
  | cons chunk chunks => exact flows

section Failed

variable (workspaceId : WorkspaceId) (command : String) (timeoutMs : JsNumber) (error : ThrownValue)

theorem chunks_sessionFailed :
    (Minerva.sessionFailed workspaceId command timeoutMs error).chunks.length ≤ 2 := by
  unfold Minerva.sessionFailed
  split
  · split
    · exact Nat.zero_le 2
    · split
      · exact Nat.zero_le 2
      · exact Nat.le_refl 2
  · exact Nat.le_refl 2

theorem ends_sessionFailed :
    (Minerva.sessionFailed workspaceId command timeoutMs error).ends ≠ .pending := by
  unfold Minerva.sessionFailed
  split
  · split
    · simp
    · split <;> simp
  · simp

end Failed

theorem left_of_stage {stage : BashStage} (here : call.stage = stage) : call.left = stage.left := by
  rw [left, here]

theorem settled_of_left (none : call.left = 0) : ∃ result, call.stage = .settled result := by
  cases stage : call.stage with
  | settled result => exact ⟨result, rfl⟩
  | _ =>
      rw [left_of_stage stage] at none
      cases none

theorem left_sessionFailed (session : DaytonaSession) (error : ThrownValue) (more : 4 ≤ call.left) :
    (call.sessionFailed session error).1.left < call.left := by
  have short := chunks_sessionFailed session.workspaceId call.command call.timeoutMs error
  have bound := @left_proceed call session
    (Minerva.sessionFailed session.workspaceId call.command call.timeoutMs error)
  rw [sessionFailed]
  omega

theorem left_turn {turn : BashTurn} (turns : Turns call now turn next) :
    next.1.left < call.left := by
  cases turns with
  | locates workspaceId cached found random sessionId stage =>
      rw [left_of_stage stage]
      exact Nat.lt_succ_self 5
  | lost workspaceId cached found random stage =>
      obtain ⟨outcome, settled⟩ := @caught_settled call now
        (SandboxError.workspaceNotFound workspaceId).thrown
      rw [left_of_stage stage, left_of_stage settled]
      exact Nat.succ_pos 5
  | creates session stage =>
      rw [left_of_stage stage]
      exact Nat.lt_succ_self 4
  | refuses session error stage =>
      exact left_sessionFailed session error ((left_of_stage stage).symm ▸ Nat.le_succ 4)
  | fails session error stage =>
      exact left_sessionFailed session error ((left_of_stage stage).symm ▸ Nat.le_refl 4)
  | executes session output exitCode stage =>
      have short : (((output.filter (fun output => output ≠ "")).map ExecutionChunk.stdout).toList ++
          [ExecutionChunk.exit (exitCode.getD 0)]).length ≤ 2 := by
        cases output.filter (fun output => output ≠ "") <;> simp
      have bound := @left_proceed call session
        ⟨((output.filter (fun output => output ≠ "")).map ExecutionChunk.stdout).toList ++
          [.exit (exitCode.getD 0)], .done⟩
      have more : call.left = 4 := left_of_stage stage
      dsimp only at bound
      omega
  | ends session ends reply after stage ended =>
      obtain ⟨outcome, settled⟩ := ended_settled ended
      rw [left_of_stage settled, left_of_stage stage]
      exact Nat.zero_lt_one
  | returns session error reply stage =>
      rw [left_of_stage stage]
      exact Nat.zero_lt_one
  | cancels session chunk left stage aborted =>
      rw [left_of_stage stage]
      exact Nat.lt_add_left _ Nat.one_lt_two
  | reads session chunk left stage quiet =>
      have more : call.left = left.chunks.length + 2 := left_of_stage stage
      rw [more]
      exact Nat.lt_succ_of_le (left_proceed session left)

theorem flows_turn {turn : BashTurn} (before : call.stage.Flows) (turns : Turns call now turn next) :
    next.1.stage.Flows := by
  cases turns with
  | locates workspaceId cached found random sessionId stage => exact trivial
  | lost workspaceId cached found random stage =>
      obtain ⟨outcome, settled⟩ := @caught_settled call now
        (SandboxError.workspaceNotFound workspaceId).thrown
      rw [settled]
      exact trivial
  | creates session stage => exact trivial
  | refuses session error stage => exact flows_proceed session (ends_sessionFailed _ _ _ error)
  | fails session error stage => exact flows_proceed session (ends_sessionFailed _ _ _ error)
  | executes session output exitCode stage => exact flows_proceed session (by simp)
  | ends session ends reply after stage ended =>
      obtain ⟨outcome, settled⟩ := ended_settled ended
      rw [settled]
      exact trivial
  | returns session error reply stage => exact trivial
  | cancels session chunk left stage aborted => exact trivial
  | reads session chunk left stage quiet =>
      rw [stage] at before
      exact flows_proceed session before

theorem goes_on (now : Int) (flows : call.stage.Flows)
    (unsettled : ∀ result, call.stage ≠ .settled result) : ∃ turn, call.turn now turn ≠ none := by
  cases stage : call.stage with
  | locating workspaceId cached => exact ⟨.located true "", by simp [BashCall.turn, stage]⟩
  | creating session => exact ⟨.replied .created, by simp [BashCall.turn, stage]⟩
  | executing session => exact ⟨.replied (.result none none), by simp [BashCall.turn, stage]⟩
  | yielding session chunk left =>
      refine ⟨.read, ?_⟩
      simp only [BashCall.turn, stage]
      split <;> simp
  | deleting session ends =>
      refine ⟨.replied .deleted, ?_⟩
      rw [stage] at flows
      cases ends with
      | done => simp [BashCall.turn, stage, ended]
      | threw error => simp [BashCall.turn, stage, ended]
      | pending => exact absurd rfl flows
  | returning session error => exact ⟨.replied .deleted, by simp [BashCall.turn, stage]⟩
  | settled result => exact absurd stage (unsettled result)

theorem execute_stage (sandboxes : List WorkspaceId) (now : Int) (toolCallId : String)
    (params : JsValue) (context : Option ToolContext) :
    (∃ workspaceId cached, (execute sandboxes now toolCallId params context).stage =
      .locating workspaceId cached) ∨
    ∃ result, (execute sandboxes now toolCallId params context).stage = .settled result := by
  unfold execute
  split
  · exact .inr ⟨_, rfl⟩
  · split
    · exact .inr ⟨_, rfl⟩
    · split
      · exact .inr ⟨_, rfl⟩
      · exact .inl ⟨_, _, rfl⟩

theorem execute_left (sandboxes : List WorkspaceId) (now : Int) (toolCallId : String)
    (params : JsValue) (context : Option ToolContext) :
    (execute sandboxes now toolCallId params context).left ≤ 6 ∧
      (execute sandboxes now toolCallId params context).stage.Flows := by
  rcases execute_stage sandboxes now toolCallId params context with ⟨workspaceId, cached, stage⟩ |
    ⟨result, stage⟩
  · rw [left, stage]
    exact ⟨Nat.le_refl 6, trivial⟩
  · rw [left, stage]
    exact ⟨Nat.zero_le 6, trivial⟩

theorem execute_passed (sandboxes : List WorkspaceId) (now : Int) (toolCallId : String)
    (params : JsValue) (context : Option ToolContext) :
    (execute sandboxes now toolCallId params context).Passed [] := by
  rcases execute_stage sandboxes now toolCallId params context with ⟨workspaceId, cached, stage⟩ |
    ⟨result, stage⟩
  · simp only [Passed, stage]
  · simp only [Passed, stage, true_or]

end BashCall

namespace BashCalls

variable {s s' : BashCalls} {id : Nat}

/-- Whatever calls of the bash tool run side by side and whatever Daytona answers: what passes
between a call and Daytona is about one session, which is asked for first; the command is run in it
if Daytona has created it, and not else; and its deletion is asked for last. A call that has settled
has had the answer to that, unless nothing has passed. -/
theorem sessions_are_deleted (now : Int) (s : BashCalls)
    (reached : Transition.Reach step Transition.Free (init now) s) (id : Nat) (call : BashCall)
    (found : s.calls.get id = some call) :
    ∃ session opened last, call.Opened session opened ∧
      s.messagesOf id <+: opened ++ [.asks (.deleteSession session), .answers last] ∧
      ∀ outcome, call.stage = .settled outcome → s.messagesOf id = [] ∨
        s.messagesOf id = opened ++ [.asks (.deleteSession session), .answers last] := by
  have passed := each_call (fun call passed => call.Passed passed) BashCall.execute_passed
    (fun _ _ _ _ _ before turned => before.turn turned) (fun _ _ before => before) reached
  exact (passed id call found).whole

/-- A call whose session is not created. -/
theorem failed_session_is_deleted : ∃ (s : BashCalls) (call : BashCall)
    (outcome : Except ThrownValue ToolResult), s.calls.get 1 = some call ∧
      call.stage = .settled outcome ∧ ∃ session opened last, call.Opened session opened ∧
        opened.length = 2 ∧
        s.messagesOf 1 = opened ++ [.asks (.deleteSession session), .answers last] := by
  have ran : (Transition.exec (Transition.guarded step Transition.Free) (init 0)
      sideBySideLabels).map (fun s => (((s.calls.get 1).map BashCall.left),
        (s.messagesOf 1).length)) = some (some 0, 4) := by decide +kernel
  obtain ⟨s, reached, observed⟩ := Transition.reach_of_observed _ _ ran
  obtain ⟨left, length⟩ := Prod.mk.inj observed
  obtain ⟨call, found, none⟩ := Option.map_eq_some_iff.mp left
  obtain ⟨outcome, settled⟩ := BashCall.settled_of_left none
  obtain ⟨session, opened, last, opens, -, whole⟩ := sessions_are_deleted 0 s reached 1 call found
  rcases whole outcome settled with nothing | all
  · rw [nothing] at length
    cases length
  · refine ⟨s, call, outcome, found, settled, session, opened, last, opens, ?_, all⟩
    rw [all, List.length_append] at length
    exact Nat.add_right_cancel length

theorem turnsOf_skip {label : Label} (other : label.takenBy id = false) (labels : List Label) :
    turnsOf id (label :: labels) = turnsOf id labels := by
  simp [turnsOf, other]

theorem left_path {labels : List Label} {call : BashCall}
    (path : Transition.Path step Transition.Free s labels s') (found : s.calls.get id = some call) :
    ∃ after, s'.calls.get id = some after ∧ turnsOf id labels + after.left ≤ call.left := by
  induction path generalizing call with
  | nil => exact ⟨call, found, Nat.le_of_eq (Nat.zero_add _)⟩
  | @cons s t u label rest _ moved _ ih =>
      cases steps_of_step moved with
      | begins other toolCallId params context free =>
          have different : id ≠ other := by
            rintro rfl
            rw [free] at found
            cases found
          rw [turnsOf_skip rfl]
          exact ih (by rw [EsMap.get_set_of_ne _ _ _ _ different, found])
      | turns other turn before next sandboxes found' turned =>
          by_cases same : other = id
          · subst same
            cases found.symm.trans found'
            obtain ⟨after, ends, bound⟩ := ih (EsMap.get_set_self _ _ _)
            have closer := BashCall.left_turn turned
            have counted : turnsOf other (.turn other turn :: rest) = turnsOf other rest + 1 := by
              simp [turnsOf, Label.takenBy]
            exact ⟨after, ends, by omega⟩
          · have skipped : Label.takenBy id (.turn other turn) = false := decide_eq_false same
            rw [turnsOf_skip skipped]
            exact ih (by rw [EsMap.get_set_of_ne _ _ _ _ (Ne.symm same), found])
      | aborts other before found' =>
          rw [turnsOf_skip rfl]
          by_cases same : other = id
          · subst same
            cases found.symm.trans found'
            exact @ih { call with aborted := true } (EsMap.get_set_self _ _ _)
          · exact ih (by rw [EsMap.get_set_of_ne _ _ _ _ (Ne.symm same), found])
      | passes _ sandboxes now other =>
          have skipped : label.takenBy id = false := by
            cases label with
            | turn id turn => exact absurd rfl (other id turn)
            | _ => rfl
          rw [turnsOf_skip skipped]
          exact ih found

/-- A call waits for no other call: it has settled by its sixth turn, and until then something that
it waits for can come. -/
theorem bash_calls_settle (now : Int) (s s' : BashCalls) (labels : List Label)
    (reached : Transition.Reach step Transition.Free (init now) s)
    (path : Transition.Path step Transition.Free s labels s') (id : Nat) (call : BashCall)
    (found : s.calls.get id = some call) :
    ∃ after, s'.calls.get id = some after ∧
      (6 ≤ turnsOf id labels → ∃ result, after.stage = .settled result) ∧
      ((∃ result, after.stage = .settled result) ∨ ∃ turn, s'.step (.turn id turn) ≠ none) := by
  have sound {s : BashCalls} (reached : Transition.Reach step Transition.Free (init now) s) :=
    each_call (fun call _ => call.left ≤ 6 ∧ call.stage.Flows) BashCall.execute_left
      (fun _ _ _ _ _ before turned => ⟨(Nat.le_of_lt (BashCall.left_turn turned)).trans before.1,
        BashCall.flows_turn before.2 turned⟩)
      (fun _ _ before => before) reached
  obtain ⟨after, found', bound⟩ := left_path path found
  have short := (sound reached id call found).1
  have flows := (sound (path.reach reached) id after found').2
  refine ⟨after, found', ?_, ?_⟩
  · intro taken
    have none : after.left = 0 := by omega
    exact BashCall.settled_of_left none
  · by_cases settled : ∃ result, after.stage = .settled result
    · exact .inl settled
    · obtain ⟨turn, goes⟩ := BashCall.goes_on s'.now flows (not_exists.mp settled)
      refine .inr ⟨turn, ?_⟩
      simpa [step, found'] using goes

theorem aborted_call_settles : ∃ (s : BashCalls) (call : BashCall),
    s.calls.get 1 = some call ∧ ((∃ result, call.stage = .settled result) ∨
      ∃ turn, s.step (.turn 1 turn) ≠ none) ∧ turnsOf 1 (sideBySideLabels.drop 2) = 4 := by
  have ran : (Transition.exec (Transition.guarded step Transition.Free) (init 0)
      (sideBySideLabels.take 2)).map (fun s => ((s.calls.get 1).map BashCall.left,
        (Transition.exec (Transition.guarded step Transition.Free) s
          (sideBySideLabels.drop 2)).map BashCalls.now)) = some (some 6, some 0) := by decide +kernel
  obtain ⟨s, reached, observed⟩ := Transition.reach_of_observed _ _ ran
  obtain ⟨left, continued⟩ := Prod.mk.inj observed
  obtain ⟨call, found, -⟩ := Option.map_eq_some_iff.mp left
  obtain ⟨s', path, -⟩ := Option.map_eq_some_iff.mp continued
  obtain ⟨after, found', -, goes⟩ := bash_calls_settle 0 s s' _ reached
    (Transition.path_of_exec _ path) 1 call found
  exact ⟨s', after, found', goes, by decide⟩

end BashCalls

end Minerva
