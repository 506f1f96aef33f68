import Minerva.Library.Lanes
import Minerva.Library.Refinement
import Minerva.Services.Queue

/-! The run queue against one FIFO list for each user. `remove` and `getPosition` look a run up in
`runToUser` and take the empty user id for a missing one. -/

namespace Minerva

inductive QueueCall where
  | enqueue (runId : RunId) (userId : UserId)
  | dequeue (userId : UserId)
  | peek (userId : UserId)
  | remove (runId : RunId)
  | getPosition (runId : RunId)
  | getLength (userId : UserId)
  | clear

inductive QueueReply where
  | enqueued (position : Nat)
  | run (runId : Option RunId)
  | removed (found : Bool)
  | position (position : Option Nat)
  | length (length : Nat)
  | cleared
  deriving DecidableEq

namespace QueueCall

def answer (q : InMemoryRunQueue) : QueueCall → InMemoryRunQueue × QueueReply
  | .enqueue runId userId => ((q.enqueue runId userId).1, .enqueued (q.enqueue runId userId).2)
  | .dequeue userId => ((q.dequeue userId).1, .run (q.dequeue userId).2)
  | .peek userId => (q, .run (q.peek userId))
  | .remove runId => ((q.remove runId).1, .removed (q.remove runId).2)
  | .getPosition runId => (q, .position (q.getPosition runId))
  | .getLength userId => (q, .length (q.getLength userId))
  | .clear => (q.clear, .cleared)

/-- The answers of one FIFO list for each user. -/
noncomputable def specified (lanes : UserId → List RunId) :
    QueueCall → (UserId → List RunId) × QueueReply
  | .enqueue runId userId => (Lanes.push lanes userId runId, .enqueued (lanes userId).length)
  | .dequeue userId => (Lanes.pop lanes userId, .run (lanes userId).head?)
  | .peek userId => (lanes, .run (lanes userId).head?)
  | .remove runId => (Lanes.withdraw lanes runId, .removed (Lanes.home lanes runId).isSome)
  | .getPosition runId => (lanes, .position (Lanes.place lanes runId))
  | .getLength userId => (lanes, .length (lanes userId).length)
  | .clear => (Lanes.empty, .cleared)

/-- No run is enqueued again while it is in a list. -/
def Fresh (lanes : UserId → List RunId) : QueueCall → Prop
  | .enqueue runId _ => ∀ userId, runId ∉ lanes userId
  | _ => True

/-- No run of the user with the empty id is removed or asked for. -/
def Keyed (lanes : UserId → List RunId) : QueueCall → Prop
  | .remove runId => runId ∉ lanes ""
  | .getPosition runId => runId ∉ lanes ""
  | _ => True

end QueueCall

namespace InMemoryRunQueue

variable {q : InMemoryRunQueue} {runId : RunId} {userId : UserId}

theorem Indexed.home_eq_some (ok : q.Indexed) (member : runId ∈ q.getUserRuns userId) :
    Lanes.home q.getUserRuns runId = some userId :=
  Lanes.home_eq_some member fun _ other => ok.same_user other member

theorem Indexed.place_eq_some (ok : q.Indexed) {position : Nat}
    (here : (q.getUserRuns userId)[position]? = some runId) :
    Lanes.place q.getUserRuns runId = some position := by
  rw [Lanes.place, ok.home_eq_some (List.mem_of_getElem? here), Option.bind_some]
  exact (idxOf?_eq_some_of_nodup (ok.distinct userId)).mpr here

theorem Indexed.getPosition_keyed (ok : q.Indexed) (keyed : runId ∉ q.getUserRuns "") :
    q.getPosition runId = Lanes.place q.getUserRuns runId := by
  by_cases held : ∃ userId, runId ∈ q.getUserRuns userId
  · obtain ⟨userId, member⟩ := held
    obtain ⟨position, here⟩ := List.mem_iff_getElem?.mp member
    have named : userId ≠ "" := by
      rintro rfl
      exact keyed member
    rw [ok.place_eq_some here]
    exact ok.getPosition_eq_some.mpr ⟨userId, named, here⟩
  · have nowhere := not_exists.mp held
    rw [Lanes.place, Lanes.home_eq_none nowhere, Option.bind_none, Option.eq_none_iff_forall_ne_some]
    intro position found
    obtain ⟨userId, _, here⟩ := ok.getPosition_eq_some.mp found
    exact nowhere userId (List.mem_of_getElem? here)

theorem Indexed.getPosition_unkeyed (ok : q.Indexed) (member : runId ∈ q.getUserRuns "") :
    q.getPosition runId = none := by
  rw [Option.eq_none_iff_forall_ne_some]
  intro position found
  obtain ⟨userId, named, here⟩ := ok.getPosition_eq_some.mp found
  exact named (ok.same_user (List.mem_of_getElem? here) member)

theorem Indexed.removed_keyed (ok : q.Indexed) (keyed : runId ∉ q.getUserRuns "") :
    (q.remove runId).1.getUserRuns = Lanes.withdraw q.getUserRuns runId := by
  funext user
  rw [getUserRuns_remove, Lanes.withdraw]
  by_cases held : ∃ userId, runId ∈ q.getUserRuns userId
  · obtain ⟨userId, member⟩ := held
    have named : userId ≠ "" := by
      rintro rfl
      exact keyed member
    rw [ok.home_eq_some member, ok.indexed userId runId member]
    simp only [Function.update_apply]
    by_cases same : user = userId
    · rw [if_pos ⟨congrArg some same.symm, same ▸ named⟩, if_pos same, same]
    · rw [if_neg (fun both => same (Option.some.inj both.1).symm), if_neg same]
  · have nowhere := not_exists.mp held
    rw [Lanes.home_eq_none nowhere]
    split
    · exact List.erase_of_not_mem (nowhere user)
    · rfl

/-- The lists of a user that the queue holds, and its index over them. -/
def Represents (q : InMemoryRunQueue) (lanes : UserId → List RunId) : Prop :=
  q.Indexed ∧ q.getUserRuns = lanes

/-- A call is answered as specified, unless it looks up a run of the user with the empty id. -/
theorem Represents.agree (q : InMemoryRunQueue) (lanes : UserId → List RunId) (call : QueueCall)
    (represents : q.Represents lanes) :
    (call.answer q).2 = (call.specified lanes).2 ↔ call.Keyed lanes := by
  obtain ⟨ok, rfl⟩ := represents
  cases call with
  | enqueue runId userId =>
      exact iff_of_true (congrArg QueueReply.enqueued (q.enqueue_position runId userId)) trivial
  | dequeue userId =>
      exact iff_of_true (congrArg QueueReply.run (q.dequeue_result userId)) trivial
  | peek userId => exact iff_of_true (congrArg QueueReply.run (q.peek_eq_head userId)) trivial
  | remove runId =>
      simp only [QueueCall.answer, QueueCall.specified, QueueCall.Keyed, QueueReply.removed.injEq]
      rw [remove_result]
      by_cases keyed : runId ∈ q.getUserRuns ""
      · rw [ok.getPosition_unkeyed keyed, ok.home_eq_some keyed]
        simp [keyed]
      · rw [ok.getPosition_keyed keyed, Lanes.isSome_place]
        exact iff_of_true rfl keyed
  | getPosition runId =>
      simp only [QueueCall.answer, QueueCall.specified, QueueCall.Keyed, QueueReply.position.injEq]
      by_cases keyed : runId ∈ q.getUserRuns ""
      · obtain ⟨position, here⟩ := List.mem_iff_getElem?.mp keyed
        rw [ok.getPosition_unkeyed keyed, ok.place_eq_some here]
        simp [keyed]
      · exact iff_of_true (ok.getPosition_keyed keyed) keyed
  | getLength userId => exact iff_of_true (congrArg QueueReply.length (q.getLength_eq userId)) trivial
  | clear => exact iff_of_true rfl trivial

/-- A call changes the lists as specified, unless it removes a run of the user with the empty id. -/
theorem Represents.keep (q : InMemoryRunQueue) (lanes : UserId → List RunId) (call : QueueCall)
    (represents : q.Represents lanes) (fresh : call.Fresh lanes) (keyed : call.Keyed lanes) :
    (call.answer q).1.Represents (call.specified lanes).1 := by
  obtain ⟨ok, rfl⟩ := represents
  cases call with
  | enqueue runId userId =>
      refine ⟨ok.enqueue runId userId fresh, ?_⟩
      funext user
      simp only [QueueCall.answer, QueueCall.specified, Lanes.push, Function.update_apply]
      rw [getUserRuns_enqueue]
  | dequeue userId =>
      refine ⟨ok.dequeue userId, ?_⟩
      funext user
      simp only [QueueCall.answer, QueueCall.specified, Lanes.pop, Function.update_apply]
      rw [getUserRuns_dequeue]
  | peek userId => exact ⟨ok, rfl⟩
  | remove runId => exact ⟨ok.remove runId, ok.removed_keyed keyed⟩
  | getPosition runId => exact ⟨ok, rfl⟩
  | getLength userId => exact ⟨ok, rfl⟩
  | clear => exact ⟨.empty, rfl⟩

theorem represents_empty : empty.Represents Lanes.empty := ⟨.empty, rfl⟩

/-- The queue answers like one FIFO list for each user exactly as long as nobody removes or asks
for a run of the user with the empty id. -/
theorem answers_are_fifo_iff (calls : List QueueCall)
    (fresh : Refinement.Along QueueCall.specified QueueCall.Fresh Lanes.empty calls) :
    Refinement.answers QueueCall.answer empty calls =
        Refinement.answers QueueCall.specified Lanes.empty calls ↔
      Refinement.Along QueueCall.specified QueueCall.Keyed Lanes.empty calls :=
  Refinement.answers_eq_iff
    (fun q lanes call represents _ => Represents.agree q lanes call represents)
    Represents.keep represents_empty calls fresh

/-- Two runs of one user; the first one is removed and the second one leased. -/
theorem second_run_follows_in_fifo_order :
    Refinement.answers QueueCall.specified Lanes.empty
        [.enqueue "a" "alice", .enqueue "b" "alice", .getPosition "b", .remove "a",
          .dequeue "alice"] =
      [.enqueued 0, .enqueued 1, .position (some 1), .removed true, .run (some "b")] := by
  have answered : Refinement.answers QueueCall.answer empty
        [.enqueue "a" "alice", .enqueue "b" "alice", .getPosition "b", .remove "a",
          .dequeue "alice"] =
      [.enqueued 0, .enqueued 1, .position (some 1), .removed true, .run (some "b")] := by
    decide +kernel
  rw [← answered, eq_comm]
  apply (answers_are_fifo_iff _ ?_).mpr
  · simp [Refinement.Along, QueueCall.Keyed, QueueCall.specified, Lanes.push, Lanes.empty]
  · simp [Refinement.Along, QueueCall.Fresh, QueueCall.specified, Lanes.push, Lanes.empty,
      Function.update_apply]

/-- The only run of the user with the empty id has no position. -/
theorem unkeyed_run_has_no_position :
    ¬∀ calls : List QueueCall,
      Refinement.Along QueueCall.specified QueueCall.Fresh Lanes.empty calls →
        Refinement.answers QueueCall.answer empty calls =
          Refinement.answers QueueCall.specified Lanes.empty calls := by
  intro always
  have fresh : Refinement.Along QueueCall.specified QueueCall.Fresh Lanes.empty
      [.enqueue "a" "", .getPosition "a"] := by
    simp [Refinement.Along, QueueCall.Fresh, Lanes.empty]
  have answered : Refinement.answers QueueCall.answer empty [.enqueue "a" "", .getPosition "a"] =
      [.enqueued 0, .position none] := by decide +kernel
  have waits : (empty.enqueue "a" "").1.Represents (Lanes.push Lanes.empty "" "a") :=
    represents_empty.keep empty Lanes.empty (.enqueue "a" "") fresh.1 trivial
  have same := always _ fresh
  rw [answered] at same
  have position : QueueReply.position none =
      .position (Lanes.place (Lanes.push Lanes.empty "" "a") "a") :=
    (List.cons.inj (List.cons.inj same).2).1
  have here : ((empty.enqueue "a" "").1.getUserRuns "")[0]? = some "a" := by decide +kernel
  rw [← waits.2, waits.1.place_eq_some here] at position
  cases position

end InMemoryRunQueue

end Minerva
