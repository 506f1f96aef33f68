import Minerva.Runtime.Serialization
import Minerva.Sandbox.Loyalty

/-! The service together with its sandbox adapter. While `executeRun` waits in
`getOrCreateWorkspace`, the calls of the `WorkspaceManager` go on beside everything else. -/

namespace Minerva

structure Assignment where
  runId : RunId
  userId : UserId
  workspaceId : WorkspaceId

structure Hosting where
  runtime : Runtime
  workspaces : Workspaces
  /-- what the manager has come to for a task, before the adapter has gone on -/
  answered : EsMap Nat (Except SandboxError WorkspaceAnswer)
  /-- the sandboxes that the adapter has cached -/
  sandboxes : List WorkspaceId
  assigned : List Assignment

namespace Hosting

inductive Label where
  | runtime (label : Runtime.Label)
  /-- Daytona answers the call of the manager that a task waits for -/
  | client (id : Nat) (reply : ClientReply)
  /-- `getOrCreateWorkspace` of the adapter goes on after the manager, and after Daytona has found
  the sandbox or not -/
  | adapter (id : Nat) (found : Bool)
  /-- a workspace is destroyed through the adapter, by whomever -/
  | destroyWorkspace (call : Nat) (workspaceId : WorkspaceId)
  | destroying (call : Nat) (reply : ClientReply)

def init (strategy : WorkspaceStrategy) (config : RunManagerConfig) (now : Int) : Hosting :=
  ⟨Runtime.init config now, Workspaces.init strategy, .empty, [], []⟩

/-- The calls of the manager for tasks, and those of others. -/
def taskCall (id : Nat) : Nat := 2 * id

def otherCall (call : Nat) : Nat := 2 * call + 1

def awaitsAdapter (h : Hosting) : Runtime.Label → Bool
  | .reply id _ =>
    match h.runtime.tasks.get id with
    | some (.executing _ _ .provisioning) => true
    | _ => false
  | _ => false

def asks (h : Hosting) : Runtime.Label → Option (Nat × UserId)
  | .reply id .imported =>
    match h.runtime.tasks.get id with
    | some (.executing _ run .importing) => some (id, run.userId)
    | _ => none
  | _ => none

def record (h : Hosting) (id : Nat) :
    WorkspaceOutcome → EsMap Nat (Except SandboxError WorkspaceAnswer)
  | .returned userId workspace isReused =>
    h.answered.set id (.ok ⟨userId, workspace, isReused⟩)
  | .threw error => h.answered.set id (.error error)
  | .await _ => h.answered
  | .finished => h.answered

def now (h : Hosting) : Int := h.runtime.service.now

def step (h : Hosting) : Label → Option Hosting
  | .runtime label =>
    if h.awaitsAdapter label then none
    else
      (h.runtime.step label).bind (fun runtime =>
        match h.asks label with
        | none => some { h with runtime }
        | some (id, userId) =>
          (h.workspaces.step (.getOrCreateWorkspace (taskCall id) userId)).map
            (fun workspaces => { h with runtime, workspaces }))
  | .client id reply =>
    match h.workspaces.calls (taskCall id) with
    | none => none
    | some pc =>
      (h.workspaces.manager.resume h.now pc reply).bind (fun resumed =>
        (h.workspaces.step (.resume (taskCall id) h.now reply)).map
          (fun workspaces => { h with workspaces, answered := h.record id resumed.2 }))
  | .adapter id found =>
    match h.answered.get id, h.runtime.tasks.get id with
    | some (.ok answer), some (.executing _ run _) =>
      let workspace := answer.workspace
      (h.runtime.step (.reply id (.workspace workspace.id))).map (fun runtime =>
        { h with
          runtime
          answered := h.answered.delete id
          sandboxes := if found then workspace.id :: h.sandboxes else h.sandboxes
          assigned := h.assigned ++ [⟨run.id, run.userId, workspace.id⟩] })
    | some (.error error), some (.executing _ _ _) =>
      (h.runtime.step (.reply id (.rejected (.error error.message)))).map (fun runtime =>
        { h with runtime, answered := h.answered.delete id })
    | _, _ => none
  | .destroyWorkspace call workspaceId =>
    (h.workspaces.step (.destroyWorkspace (otherCall call) workspaceId)).map
      (fun workspaces => { h with workspaces })
  | .destroying call reply =>
    match h.workspaces.calls (otherCall call) with
    | some (.destroying workspaceId) =>
      (h.workspaces.step (.resume (otherCall call) h.now reply)).map (fun workspaces =>
        { h with workspaces, sandboxes := h.sandboxes.filter (fun id => id ≠ workspaceId) })
    | _ => none

/-- Generated run ids are not in use, and the ids of new workspaces neither. -/
def Fresh (h : Hosting) : Label → Prop
  | .runtime label => h.runtime.FreshRun label
  | .client id reply => h.workspaces.Fresh (.resume (taskCall id) h.now reply)
  | _ => True

instance (h : Hosting) : ∀ label, Decidable (h.Fresh label)
  | .runtime _ => inferInstanceAs (Decidable (Runtime.FreshRun _ _))
  | .client _ _ => inferInstanceAs (Decidable (Workspaces.Fresh _ _))
  | .adapter _ _ | .destroyWorkspace _ _ | .destroying _ _ => instDecidableTrue

end Hosting

namespace WorkspaceOutcome

def waiting : WorkspaceOutcome → Option WorkspacePc
  | .await pc => some pc
  | _ => none

def answer : WorkspaceOutcome → Option WorkspaceAnswer
  | .returned userId workspace isReused => some ⟨userId, workspace, isReused⟩
  | _ => none

end WorkspaceOutcome

namespace Workspaces

variable (w : Workspaces) (call : Nat) (outcome : WorkspaceOutcome) (pc : WorkspacePc)
  (reply : ClientReply)

@[simp] theorem settle_calls :
    (w.settle call outcome).calls = Function.update w.calls call outcome.waiting := by
  cases outcome <;> rfl

@[simp] theorem settle_answers :
    (w.settle call outcome).answers = w.answers ++ outcome.answer.toList := by
  cases outcome <;> simp [settle, WorkspaceOutcome.answer]

@[simp] theorem settle_manager : (w.settle call outcome).manager = w.manager := by
  cases outcome <;> rfl

@[simp] theorem settle_created : (w.settle call outcome).created = w.created := by
  cases outcome <;> rfl

@[simp] theorem provision_calls : (w.provision pc reply).calls = w.calls := by
  unfold provision
  split <;> rfl

@[simp] theorem provision_answers : (w.provision pc reply).answers = w.answers := by
  unfold provision
  split <;> rfl

@[simp] theorem provision_manager : (w.provision pc reply).manager = w.manager := by
  unfold provision
  split <;> rfl

theorem created_provision : w.created ⊆ (w.provision pc reply).created := by
  unfold provision
  split
  · exact List.subset_cons_self _ _
  · exact List.Subset.refl _

variable {w call outcome pc reply}

theorem step_resume {t : Workspaces} {now : Int} (waits : w.calls call = some pc)
    (moved : w.step (.resume call now reply) = some t) :
    ∃ manager outcome, w.manager.resume now pc reply = some (manager, outcome) ∧
      t = ({ w with manager }.provision pc reply).settle call outcome := by
  simp only [step, waits] at moved
  split at moved
  · cases moved
  · rename_i manager outcome goes
    cases moved
    exact ⟨manager, outcome, goes, rfl⟩

theorem resume_user {m manager : WorkspaceManager} {now : Int} {userId : UserId}
    (mine : pc.userId = some userId) (goes : m.resume now pc reply = some (manager, outcome)) :
    (∀ next ∈ outcome.waiting, next.userId = some userId) ∧
      ∀ answer ∈ outcome.answer, answer.userId = userId := by
  unfold WorkspaceManager.resume at goes
  split at goes <;> cases goes <;> cases mine <;>
    simp [WorkspaceOutcome.waiting, WorkspaceOutcome.answer, WorkspacePc.userId]

end Workspaces

namespace Runtime

theorem provisioning_waits {w w' : Runtime} {label : Label} (moved : w.step label = some w')
    {id : Nat} {userId : UserId} {run : Run}
    (found : w.tasks.get id = some (.executing userId run .provisioning))
    (unanswered : ∀ reply, label ≠ .reply id reply) :
    w'.tasks.get id = some (.executing userId run .provisioning) := by
  have apart {other : Nat} {outcome : Outcome} (different : id ≠ other) :
      (w.store other outcome).tasks.get id = some (.executing userId run .provisioning) := by
    rw [get_store, Function.update_of_ne different, found]
  have spawned {other : Nat} (free : w.tasks.get other = none) : id ≠ other := by
    rintro rfl
    rw [found] at free
    cases free
  cases steps_of_step moved with
  | creates other random owner body free => exact apart (spawned free)
  | requests other runId owner body free => exact apart (spawned free)
  | fires other timer runId timeoutManager free due => exact apart (spawned free)
  | resumes other random task outcome found' goes =>
      apply apart
      rintro rfl
      cases found.symm.trans found'
      cases goes
  | replies other reply userId' run' pc outcome found' answer =>
      apply apart
      rintro rfl
      exact unanswered reply rfl
  | passes _ _ passing =>
      rw [passing.stores.2.1]
      exact found

theorem userOf_step {w w' : Runtime} {label : Label} (fresh : w.FreshRun label)
    (moved : w.step label = some w') {runId : RunId} {userId : UserId}
    (held : w.service.runManager.userOf runId = some userId) :
    w'.service.runManager.userOf runId = some userId := by
  rcases step_cases fresh moved with ⟨id, moves⟩ | passes
  · exact moves.userOf held
  · rw [passes.stores.1]
    exact held

end Runtime

namespace Hosting

inductive Steps (h : Hosting) : Label → Hosting → Prop
  | serves (label : Runtime.Label) (runtime : Runtime)
      (moved : h.runtime.step label = some runtime) (apart : h.awaitsAdapter label = false) :
      Steps h (.runtime label) { h with runtime }
  | asks (id : Nat) (userId : UserId) (run : Run) (runtime : Runtime)
      (found : h.runtime.tasks.get id = some (.executing userId run .importing))
      (moved : h.runtime.step (.reply id .imported) = some runtime)
      (idle : h.workspaces.calls (taskCall id) = none) :
      Steps h (.runtime (.reply id .imported))
        { h with
          runtime
          workspaces := h.workspaces.settle (taskCall id)
            (h.workspaces.manager.getOrCreateWorkspace run.userId) }
  | answers (id : Nat) (reply : ClientReply) (pc : WorkspacePc) (manager : WorkspaceManager)
      (outcome : WorkspaceOutcome) (waits : h.workspaces.calls (taskCall id) = some pc)
      (goes : h.workspaces.manager.resume h.now pc reply = some (manager, outcome)) :
      Steps h (.client id reply)
        { h with
          workspaces := ({ h.workspaces with manager }.provision pc reply).settle (taskCall id)
            outcome
          answered := h.record id outcome }
  | assigns (id : Nat) (found : Bool) (answer : WorkspaceAnswer) (userId : UserId) (run : Run)
      (pc : ExecPc) (runtime : Runtime) (sandboxes : List WorkspaceId)
      (answered : h.answered.get id = some (.ok answer))
      (executing : h.runtime.tasks.get id = some (.executing userId run pc))
      (moved : h.runtime.step (.reply id (.workspace answer.workspace.id)) = some runtime) :
      Steps h (.adapter id found)
        { h with
          runtime
          answered := h.answered.delete id
          sandboxes
          assigned := h.assigned ++ [⟨run.id, run.userId, answer.workspace.id⟩] }
  | fails (id : Nat) (found : Bool) (error : SandboxError) (runtime : Runtime)
      (answered : h.answered.get id = some (.error error))
      (moved : h.runtime.step (.reply id (.rejected (.error error.message))) = some runtime) :
      Steps h (.adapter id found) { h with runtime, answered := h.answered.delete id }
  | others (label : Label) (served : WorkspaceStep) (workspaces : Workspaces)
      (sandboxes : List WorkspaceId) (moved : h.workspaces.step served = some workspaces)
      (uncreating : served.creates = none)
      (calls : ∀ id, workspaces.calls (taskCall id) = h.workspaces.calls (taskCall id))
      (answers : workspaces.answers = h.workspaces.answers)
      (created : h.workspaces.created ⊆ workspaces.created) :
      Steps h label { h with workspaces, sandboxes }

variable {h h' : Hosting} {label : Label}

theorem taskCall_ne_otherCall (id call : Nat) : taskCall id ≠ otherCall call := by
  unfold taskCall otherCall
  omega

theorem taskCall_injective {id other : Nat} (same : taskCall id = taskCall other) : id = other := by
  unfold taskCall at same
  omega

theorem asks_eq_some {label : Runtime.Label} {id : Nat} {userId : UserId}
    (asked : h.asks label = some (id, userId)) : label = .reply id .imported ∧
      ∃ user run, h.runtime.tasks.get id = some (.executing user run .importing) ∧
        userId = run.userId := by
  unfold asks at asked
  split at asked
  · split at asked
    · rename_i user run found
      cases asked
      exact ⟨rfl, user, run, found, rfl⟩
    · cases asked
  · cases asked

theorem steps_of_step (moved : h.step label = some h') : Steps h label h' := by
  cases label with
  | runtime label =>
      simp only [step] at moved
      split at moved
      · cases moved
      · rename_i apart
        obtain ⟨runtime, goes, rest⟩ := Option.bind_eq_some_iff.mp moved
        split at rest
        · cases rest
          exact .serves label runtime goes (by simpa using apart)
        · rename_i id userId asked
          obtain ⟨rfl, user, run, found, rfl⟩ := asks_eq_some asked
          obtain ⟨workspaces, called, rfl⟩ := Option.map_eq_some_iff.mp rest
          simp only [Workspaces.step] at called
          split at called <;> cases called
          rename_i idle
          exact .asks id user run runtime found goes idle
  | client id reply =>
      simp only [step] at moved
      split at moved
      · cases moved
      · rename_i pc waits
        obtain ⟨⟨manager, outcome⟩, goes, rest⟩ := Option.bind_eq_some_iff.mp moved
        obtain ⟨workspaces, called, rfl⟩ := Option.map_eq_some_iff.mp rest
        obtain ⟨manager', outcome', goes', rfl⟩ := Workspaces.step_resume waits called
        cases goes.symm.trans goes'
        exact .answers id reply pc manager outcome waits goes
  | adapter id found =>
      simp only [step] at moved
      split at moved
      · rename_i answer userId run pc answered executing
        obtain ⟨runtime, goes, rfl⟩ := Option.map_eq_some_iff.mp moved
        exact .assigns id found answer userId run pc runtime _ answered executing goes
      · rename_i error userId run pc answered executing
        obtain ⟨runtime, goes, rfl⟩ := Option.map_eq_some_iff.mp moved
        exact .fails id found error runtime answered goes
      · cases moved
  | destroyWorkspace call workspaceId =>
      obtain ⟨workspaces, goes, rfl⟩ := Option.map_eq_some_iff.mp moved
      have called := goes
      simp only [Workspaces.step] at called
      split at called <;> cases called
      refine .others _ _ _ h.sandboxes goes rfl ?_ ?_ ?_
      · intro id
        rw [Workspaces.settle_calls, Function.update_of_ne (taskCall_ne_otherCall id call)]
      · rw [Workspaces.settle_answers]
        unfold WorkspaceManager.destroyWorkspace
        split <;> exact List.append_nil _
      · rw [Workspaces.settle_created]
        exact List.Subset.refl _
  | destroying call reply =>
      simp only [step] at moved
      split at moved
      · rename_i workspaceId waits
        obtain ⟨workspaces, goes, rfl⟩ := Option.map_eq_some_iff.mp moved
        obtain ⟨manager, outcome, resumed, rfl⟩ := Workspaces.step_resume waits goes
        have silent : outcome.answer = none ∧ (WorkspaceStep.resume (otherCall call) h.now
            reply).creates = none := by
          unfold WorkspaceManager.resume at resumed
          split at resumed <;> cases resumed <;> rename_i same <;> cases same <;> exact ⟨rfl, rfl⟩
        refine .others _ _ _ _ goes silent.2 ?_ ?_ ?_
        · intro id
          rw [Workspaces.settle_calls, Function.update_of_ne (taskCall_ne_otherCall id call),
            Workspaces.provision_calls]
        · rw [Workspaces.settle_answers, Workspaces.provision_answers, silent.1]
          exact List.append_nil _
        · rw [Workspaces.settle_created]
          exact Workspaces.created_provision { h.workspaces with manager } _ reply
      · cases moved

theorem runtime_of_step (fresh : h.Fresh label) (moved : h.step label = some h') :
    h'.runtime = h.runtime ∨ ∃ served, h.runtime.FreshRun served ∧
      h.runtime.step served = some h'.runtime := by
  have uncreated (id : Nat) (reply : Reply) : h.runtime.FreshRun (.reply id reply) := by
    rintro runId ⟨⟩
  cases steps_of_step moved with
  | serves label runtime goes apart => exact .inr ⟨label, fresh, goes⟩
  | asks id userId run runtime found goes idle => exact .inr ⟨_, uncreated _ _, goes⟩
  | answers id reply pc manager outcome waits goes => exact .inl rfl
  | assigns id found answer userId run pc runtime sandboxes answered executing goes =>
      exact .inr ⟨_, uncreated _ _, goes⟩
  | fails id found error runtime answered goes => exact .inr ⟨_, uncreated _ _, goes⟩
  | others label served workspaces sandboxes goes uncreating calls answers created => exact .inl rfl

theorem workspaces_of_step (fresh : h.Fresh label) (moved : h.step label = some h') :
    h'.workspaces = h.workspaces ∨ ∃ served, h.workspaces.Fresh served ∧
      h.workspaces.step served = some h'.workspaces := by
  cases steps_of_step moved with
  | serves label runtime goes apart => exact .inl rfl
  | asks id userId run runtime found goes idle =>
      refine .inr ⟨.getOrCreateWorkspace (taskCall id) run.userId, ?_, ?_⟩
      · rintro created ⟨⟩
      · simp only [Workspaces.step, idle]
  | answers id reply pc manager outcome waits goes =>
      refine .inr ⟨.resume (taskCall id) h.now reply, fresh, ?_⟩
      simp only [Workspaces.step, waits, goes]
  | assigns id found answer userId run pc runtime sandboxes answered executing goes => exact .inl rfl
  | fails id found error runtime answered goes => exact .inl rfl
  | others label served workspaces sandboxes goes uncreating calls answers created =>
      refine .inr ⟨served, ?_, goes⟩
      rw [Workspaces.Fresh, uncreating]
      rintro created ⟨⟩

variable {strategy : WorkspaceStrategy} {config : RunManagerConfig} {start : Int}

theorem runtime_of_reach (reached : Transition.Reach step Fresh (init strategy config start) h) :
    Transition.Reach Runtime.step Runtime.FreshRun (Runtime.init config start) h.runtime := by
  apply reached.project Hosting.runtime
  intro s label u _ fresh moved
  rcases runtime_of_step fresh moved with same | ⟨served, meets, goes⟩
  · rw [same]
    exact .refl
  · exact .next .refl meets goes

theorem workspaces_of_reach
    (reached : Transition.Reach step Fresh (init strategy config start) h) :
    Transition.Reach Workspaces.step Workspaces.Fresh (Workspaces.init strategy) h.workspaces := by
  apply reached.project Hosting.workspaces
  intro s label u _ fresh moved
  rcases workspaces_of_step fresh moved with same | ⟨served, meets, goes⟩
  · rw [same]
    exact .refl
  · exact .next .refl meets goes

end Hosting

end Minerva
