import Minerva.Library.EsMap
import Minerva.Library.Transition
import Minerva.Sandbox.Errors

/-! `WorkspaceManager` with its provisioning strategies. A call is suspended at every `await`;
what the Daytona client answers there is the reply of the step that resumes it. -/

namespace Minerva

structure Workspace where
  id : WorkspaceId
  userId : UserId
  createdAt : Int
  lastUsedAt : Int
  isReused : Bool
  rootPath : String
  deriving DecidableEq

inductive WorkspaceStrategy where
  | perRun
  | perUser

inductive WorkspaceProvisioningStrategy where
  | perRun
  | perUser (workspaces : EsMap UserId Workspace)

def createProvisioningStrategy : WorkspaceStrategy → WorkspaceProvisioningStrategy
  | .perRun => .perRun
  | .perUser => .perUser .empty

namespace WorkspaceProvisioningStrategy

def shouldReuse : WorkspaceProvisioningStrategy → UserId → Option Workspace
  | .perRun, _ => none
  | .perUser workspaces, userId => workspaces.get userId

def markUsed : WorkspaceProvisioningStrategy → Workspace → WorkspaceProvisioningStrategy
  | .perRun, _ => .perRun
  | .perUser workspaces, workspace => .perUser (workspaces.set workspace.userId workspace)

/-- The loop stops at the first entry with this workspace. -/
def markDestroyed : WorkspaceProvisioningStrategy → WorkspaceId → WorkspaceProvisioningStrategy
  | .perRun, _ => .perRun
  | .perUser workspaces, workspaceId =>
    match workspaces.entries.find? (fun entry => entry.2.id = workspaceId) with
    | some (userId, _) => .perUser (workspaces.delete userId)
    | none => .perUser workspaces

end WorkspaceProvisioningStrategy

def getWorkspaceRoot : String := "/workspace"

structure WorkspaceManager where
  strategy : WorkspaceProvisioningStrategy
  workspaces : EsMap WorkspaceId Workspace

inductive WorkspacePc where
  /-- for `strategy.shouldReuse`, which has looked already -/
  | deciding (userId : UserId) (existing : Option Workspace)
  /-- for `client.getWorkspace` -/
  | verifying (userId : UserId) (existing : Workspace)
  /-- for `client.createWorkspace` -/
  | creating (userId : UserId)
  /-- for `client.destroyWorkspace` -/
  | destroying (workspaceId : WorkspaceId)

inductive ClientReply where
  | settled
  | found (present : Bool)
  | created (workspaceId : WorkspaceId)
  | destroyed
  | failed (message : String)
  deriving DecidableEq

inductive WorkspaceOutcome where
  | await (pc : WorkspacePc)
  | returned (userId : UserId) (workspace : Workspace) (isReused : Bool)
  | threw (error : SandboxError)
  | finished

namespace WorkspaceManager

def init (strategy : WorkspaceStrategy) : WorkspaceManager :=
  ⟨createProvisioningStrategy strategy, .empty⟩

def getWorkspace (m : WorkspaceManager) (workspaceId : WorkspaceId) :
    Except SandboxError Workspace :=
  match m.workspaces.get workspaceId with
  | some workspace => .ok workspace
  | none => .error (.workspaceNotFound workspaceId)

def record (m : WorkspaceManager) (workspace : Workspace) : WorkspaceManager :=
  ⟨m.strategy.markUsed workspace, m.workspaces.set workspace.id workspace⟩

def forget (m : WorkspaceManager) (workspaceId : WorkspaceId) : WorkspaceManager :=
  ⟨m.strategy.markDestroyed workspaceId, m.workspaces.delete workspaceId⟩

def getOrCreateWorkspace (m : WorkspaceManager) (userId : UserId) : WorkspaceOutcome :=
  .await (.deciding userId (m.strategy.shouldReuse userId))

def destroyWorkspace (m : WorkspaceManager) (workspaceId : WorkspaceId) : WorkspaceOutcome :=
  match m.workspaces.get workspaceId with
  | some _ => .await (.destroying workspaceId)
  | none => .threw (.workspaceNotFound workspaceId)

/-- A call goes on after its `await`; none where the awaited call has no such reply. -/
def resume (m : WorkspaceManager) (now : Int) :
    WorkspacePc → ClientReply → Option (WorkspaceManager × WorkspaceOutcome)
  | .deciding userId (some existing), .settled => some (m, .await (.verifying userId existing))
  | .deciding userId none, .settled => some (m, .await (.creating userId))
  | .verifying userId existing, .found true =>
    let workspace := { existing with lastUsedAt := now, isReused := true }
    some (m.record workspace, .returned userId workspace true)
  | .verifying userId _, .found false => some (m, .await (.creating userId))
  | .creating userId, .created id =>
    let workspace :=
      { id, userId, createdAt := now, lastUsedAt := now, isReused := false,
        rootPath := getWorkspaceRoot }
    some (m.record workspace, .returned userId workspace false)
  | .creating userId, .failed message => some (m, .threw (.workspaceCreation message (some userId)))
  | .destroying workspaceId, .destroyed => some (m.forget workspaceId, .finished)
  -- the error is logged and swallowed
  | .destroying _, .failed _ => some (m, .finished)
  | _, _ => none

end WorkspaceManager

structure WorkspaceAnswer where
  userId : UserId
  workspace : Workspace
  isReused : Bool

/-- The manager, its calls in progress, what it has returned and what Daytona has created. -/
structure Workspaces where
  manager : WorkspaceManager
  calls : Nat → Option WorkspacePc
  answers : List WorkspaceAnswer
  created : List (WorkspaceId × UserId)

inductive WorkspaceStep where
  | getOrCreateWorkspace (call : Nat) (userId : UserId)
  | destroyWorkspace (call : Nat) (workspaceId : WorkspaceId)
  | resume (call : Nat) (now : Int) (reply : ClientReply)

def WorkspaceStep.creates : WorkspaceStep → Option WorkspaceId
  | .resume _ _ (.created id) => some id
  | _ => none

namespace Workspaces

def init (strategy : WorkspaceStrategy) : Workspaces :=
  ⟨WorkspaceManager.init strategy, fun _ => none, [], []⟩

def settle (w : Workspaces) (call : Nat) : WorkspaceOutcome → Workspaces
  | .await pc => { w with calls := Function.update w.calls call (some pc) }
  | .returned userId workspace isReused =>
    { w with
      calls := Function.update w.calls call none
      answers := w.answers ++ [⟨userId, workspace, isReused⟩] }
  | .threw _ => { w with calls := Function.update w.calls call none }
  | .finished => { w with calls := Function.update w.calls call none }

def provision (w : Workspaces) : WorkspacePc → ClientReply → Workspaces
  | .creating userId, .created id => { w with created := (id, userId) :: w.created }
  | _, _ => w

def step (w : Workspaces) : WorkspaceStep → Option Workspaces
  | .getOrCreateWorkspace call userId =>
    match w.calls call with
    | some _ => none
    | none => some (w.settle call (w.manager.getOrCreateWorkspace userId))
  | .destroyWorkspace call workspaceId =>
    match w.calls call with
    | some _ => none
    | none => some (w.settle call (w.manager.destroyWorkspace workspaceId))
  | .resume call now reply =>
    match w.calls call with
    | none => none
    | some pc =>
      match w.manager.resume now pc reply with
      | none => none
      | some (manager, outcome) =>
        some (({ w with manager }.provision pc reply).settle call outcome)

/-- The ids that Daytona creates are fresh. -/
def Fresh (w : Workspaces) (label : WorkspaceStep) : Prop :=
  ∀ id ∈ label.creates, ∀ owned ∈ w.created, owned.1 ≠ id

instance (w : Workspaces) (label : WorkspaceStep) : Decidable (Fresh w label) :=
  inferInstanceAs (Decidable (∀ id ∈ label.creates, ∀ owned ∈ w.created, owned.1 ≠ id))

end Workspaces

end Minerva
