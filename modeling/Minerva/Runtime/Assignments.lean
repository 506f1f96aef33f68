import Minerva.Runtime.Hosting

namespace Minerva

namespace Hosting

variable {h h' : Hosting} {label : Label} {strategy : WorkspaceStrategy} {config : RunManagerConfig}
  {start : Int}

def Provisions (h : Hosting) (id : Nat) (user : UserId) : Prop :=
  ∃ userId run, h.runtime.tasks.get id = some (.executing userId run .provisioning) ∧
    user = run.userId

def Returned (h : Hosting) (user : UserId) (workspaceId : WorkspaceId) : Prop :=
  ∃ answer ∈ h.workspaces.answers, answer.userId = user ∧ answer.workspace.id = workspaceId

/-- Every call of the manager for a task, and every answer, is for the user of its run. -/
structure Attributed (h : Hosting) : Prop where
  awaiting : ∀ id pc, h.workspaces.calls (taskCall id) = some pc →
    h.answered.get id = none ∧ ∃ user, pc.userId = some user ∧ h.Provisions id user
  answering : ∀ id answer, h.answered.get id = some (.ok answer) →
    answer ∈ h.workspaces.answers ∧ h.Provisions id answer.userId
  erring : ∀ id error, h.answered.get id = some (.error error) → ∃ user, h.Provisions id user
  assigned : ∀ a ∈ h.assigned, h.Returned a.userId a.workspaceId ∧
    h.runtime.service.runManager.userOf a.runId = some a.userId

theorem Attributed.init (strategy : WorkspaceStrategy) (config : RunManagerConfig) (start : Int) :
    (Hosting.init strategy config start).Attributed where
  awaiting := by
    rintro id pc ⟨⟩
  answering := by
    rintro id answer ⟨⟩
  erring := by
    rintro id error ⟨⟩
  assigned := by
    rintro a ⟨⟩

theorem Returned.mono {user : UserId} {workspaceId : WorkspaceId}
    (returned : h.Returned user workspaceId)
    (grows : h.workspaces.answers ⊆ h'.workspaces.answers) : h'.Returned user workspaceId := by
  obtain ⟨answer, member, own, same⟩ := returned
  exact ⟨answer, grows member, own, same⟩

theorem Provisions.waits {id : Nat} {user : UserId} (provisions : h.Provisions id user)
    {served : Runtime.Label} (goes : h.runtime.step served = some h'.runtime)
    (unanswered : ∀ reply, served ≠ .reply id reply) : h'.Provisions id user := by
  obtain ⟨userId, run, found, mine⟩ := provisions
  exact ⟨userId, run, Runtime.provisioning_waits goes found unanswered, mine⟩

theorem Provisions.awaits {id : Nat} {user : UserId} (provisions : h.Provisions id user)
    {served : Runtime.Label} (apart : h.awaitsAdapter served = false) (reply : Reply) :
    served ≠ .reply id reply := by
  obtain ⟨userId, run, found, -⟩ := provisions
  rintro rfl
  simp [awaitsAdapter, found] at apart

theorem get_record_of_ne {id other : Nat} (different : other ≠ id) (outcome : WorkspaceOutcome) :
    (h.record id outcome).get other = h.answered.get other := by
  cases outcome with
  | returned userId workspace isReused => exact EsMap.get_set_of_ne _ _ _ _ different
  | threw error => exact EsMap.get_set_of_ne _ _ _ _ different
  | await pc => rfl
  | finished => rfl

theorem get_record_self {id : Nat} (unanswered : h.answered.get id = none)
    (outcome : WorkspaceOutcome) :
    (∀ answer, (h.record id outcome).get id = some (.ok answer) → answer ∈ outcome.answer) ∧
      ((∃ pc, pc ∈ outcome.waiting) → (h.record id outcome).get id = none) := by
  cases outcome <;> simp [record, WorkspaceOutcome.answer, WorkspaceOutcome.waiting, unanswered]

theorem Attributed.answer (attributed : h.Attributed) {id : Nat} {reply : Reply} {runtime : Runtime}
    {result : Except SandboxError WorkspaceAnswer} (answered : h.answered.get id = some result)
    (goes : h.runtime.step (.reply id reply) = some runtime) (sandboxes : List WorkspaceId)
    {assigned : List Assignment}
    (kept : ∀ a ∈ assigned, h.Returned a.userId a.workspaceId ∧
      runtime.service.runManager.userOf a.runId = some a.userId) :
    Attributed { h with runtime, answered := h.answered.delete id, sandboxes, assigned } := by
  have stays {other : Nat} {user : UserId} (different : other ≠ id)
      (provisions : h.Provisions other user) :
      Provisions { h with runtime, answered := h.answered.delete id, sandboxes, assigned } other
        user := by
    apply provisions.waits goes
    rintro reply ⟨⟩
    exact different rfl
  have other_of_get {other : Nat} {result : Except SandboxError WorkspaceAnswer}
      (found : (h.answered.delete id).get other = some result) :
      other ≠ id ∧ h.answered.get other = some result := EsMap.get_of_get_delete _ _ found
  constructor
  · intro other pc waits
    obtain ⟨unanswered, user, mine, provisions⟩ := attributed.awaiting other pc waits
    have different : other ≠ id := by
      rintro rfl
      rw [answered] at unanswered
      cases unanswered
    refine ⟨?_, user, mine, stays different provisions⟩
    exact (EsMap.get_delete_of_ne _ _ _ different).trans unanswered
  · intro other answer found
    obtain ⟨different, earlier⟩ := other_of_get found
    obtain ⟨member, provisions⟩ := attributed.answering other answer earlier
    exact ⟨member, stays different provisions⟩
  · intro other error found
    obtain ⟨different, earlier⟩ := other_of_get found
    obtain ⟨user, provisions⟩ := attributed.erring other error earlier
    exact ⟨user, stays different provisions⟩
  · exact kept

theorem Attributed.step (attributed : h.Attributed) (serial : h.runtime.Serial)
    (fresh : h.Fresh label) (moved : h.step label = some h') : h'.Attributed := by
  have users {runId : RunId} {userId : UserId}
      (held : h.runtime.service.runManager.userOf runId = some userId) :
      h'.runtime.service.runManager.userOf runId = some userId := by
    rcases runtime_of_step fresh moved with same | ⟨served, meets, goes⟩
    · rw [same]
      exact held
    · exact Runtime.userOf_step meets goes held
  have assigned : ∀ a ∈ h.assigned, h.Returned a.userId a.workspaceId ∧
      h'.runtime.service.runManager.userOf a.runId = some a.userId :=
    fun a member => ⟨(attributed.assigned a member).1, users (attributed.assigned a member).2⟩
  cases steps_of_step moved with
  | serves label runtime goes apart =>
      have stays {id : Nat} {user : UserId} (provisions : h.Provisions id user) :
          Provisions { h with runtime } id user :=
        provisions.waits goes (provisions.awaits apart)
      constructor
      · intro id pc waits
        obtain ⟨unanswered, user, mine, provisions⟩ := attributed.awaiting id pc waits
        exact ⟨unanswered, user, mine, stays provisions⟩
      · intro id answer answered
        obtain ⟨member, provisions⟩ := attributed.answering id answer answered
        exact ⟨member, stays provisions⟩
      · intro id error answered
        obtain ⟨user, provisions⟩ := attributed.erring id error answered
        exact ⟨user, stays provisions⟩
      · exact assigned
  | asks id userId run runtime found goes idle =>
      have here : runtime.tasks.get id = some (.executing userId run .provisioning) := by
        simp only [Runtime.step, found, RunExecutionService.replied, Option.map_some,
          Option.some.injEq] at goes
        rw [← goes, Runtime.get_store, Function.update_self]
      have elsewhere {other : Nat} {user : UserId} (provisions : h.Provisions other user) :
          other ≠ id := by
        rintro rfl
        obtain ⟨user', run', found', -⟩ := provisions
        cases found.symm.trans found'
      have stays {other : Nat} {user : UserId} (provisions : h.Provisions other user) :
          ∃ userId run, runtime.tasks.get other = some (.executing userId run .provisioning) ∧
            user = run.userId := by
        have different := elsewhere provisions
        obtain ⟨user', run', found', mine⟩ := provisions
        refine ⟨user', run', Runtime.provisioning_waits goes found' ?_, mine⟩
        rintro reply ⟨⟩
        exact different rfl
      constructor
      · intro other pc waits
        simp only [Workspaces.settle_calls, Function.update_apply] at waits
        split at waits
        · rename_i same
          cases taskCall_injective same
          cases waits
          refine ⟨?_, run.userId, rfl, userId, run, here, rfl⟩
          show h.answered.get id = none
          cases answered : h.answered.get id with
          | none => rfl
          | some result =>
              cases result with
              | ok answer => exact absurd rfl (elsewhere (attributed.answering id answer answered).2)
              | error error =>
                  obtain ⟨user, provisions⟩ := attributed.erring id error answered
                  exact absurd rfl (elsewhere provisions)
        · obtain ⟨unanswered, user, mine, provisions⟩ := attributed.awaiting other pc waits
          exact ⟨unanswered, user, mine, stays provisions⟩
      · intro other answer answered
        obtain ⟨member, provisions⟩ := attributed.answering other answer answered
        refine ⟨?_, stays provisions⟩
        rw [Workspaces.settle_answers]
        exact List.mem_append_left _ member
      · intro other error answered
        obtain ⟨user, provisions⟩ := attributed.erring other error answered
        exact ⟨user, stays provisions⟩
      · intro a member
        refine ⟨(assigned a member).1.mono ?_, (assigned a member).2⟩
        rw [Workspaces.settle_answers]
        exact List.subset_append_left _ _
  | answers id reply pc manager outcome waits goes =>
      obtain ⟨unanswered, user, mine, provisions⟩ := attributed.awaiting id pc waits
      obtain ⟨waiting, answer⟩ := Workspaces.resume_user mine goes
      obtain ⟨returned, silent⟩ := get_record_self unanswered outcome
      have grows : h.workspaces.answers ⊆ (({ h.workspaces with manager }.provision pc
          reply).settle (taskCall id) outcome).answers := by
        rw [Workspaces.settle_answers, Workspaces.provision_answers]
        exact List.subset_append_left _ _
      constructor
      · intro other next waits'
        simp only [Workspaces.settle_calls, Workspaces.provision_calls, Function.update_apply]
          at waits'
        split at waits'
        · rename_i same
          cases taskCall_injective same
          exact ⟨silent ⟨next, waits'⟩, user, waiting next waits', provisions⟩
        · rename_i apart
          have different : other ≠ id := fun same => apart (congrArg taskCall same)
          obtain ⟨unanswered', user', mine', provisions'⟩ := attributed.awaiting other next waits'
          exact ⟨(get_record_of_ne different outcome).trans unanswered', user', mine', provisions'⟩
      · intro other given answered
        by_cases same : other = id
        · subst same
          have inside := returned given answered
          refine ⟨?_, ?_⟩
          · rw [Workspaces.settle_answers]
            exact List.mem_append_right _ (Option.mem_toList.mpr inside)
          · rw [answer given inside]
            exact provisions
        · obtain ⟨member, provisions'⟩ := attributed.answering other given
            ((get_record_of_ne same outcome).symm.trans answered)
          exact ⟨grows member, provisions'⟩
      · intro other error answered
        by_cases same : other = id
        · subst same
          exact ⟨user, provisions⟩
        · exact attributed.erring other error ((get_record_of_ne same outcome).symm.trans answered)
      · intro a member
        exact ⟨(assigned a member).1.mono grows, (assigned a member).2⟩
  | assigns id found answer userId run pc runtime sandboxes answered executing goes =>
      obtain ⟨member, user, run', found', mine⟩ := attributed.answering id answer answered
      cases executing.symm.trans found'
      apply attributed.answer answered goes sandboxes
      intro a listed
      rcases List.mem_append.mp listed with earlier | new
      · exact assigned a earlier
      · cases List.mem_singleton.mp new
        refine ⟨⟨answer, member, mine, rfl⟩, users ?_⟩
        exact (serial.executions.mine id _ run executing rfl).2.2
  | fails id found error runtime answered goes =>
      exact attributed.answer answered goes h.sandboxes assigned
  | others label served workspaces sandboxes goes uncreating calls answers created =>
      constructor
      · intro id pc waits
        exact attributed.awaiting id pc ((calls id).symm.trans waits)
      · intro id answer answered
        obtain ⟨member, provisions⟩ := attributed.answering id answer answered
        exact ⟨answers ▸ member, provisions⟩
      · exact attributed.erring
      · intro a member
        exact ⟨(assigned a member).1.mono (by rw [answers]; exact List.Subset.refl _),
          (assigned a member).2⟩

theorem attributed_of_reach
    (reached : Transition.Reach step Fresh (init strategy config start) h) : h.Attributed := by
  apply reached.invariant_given (fun h => h.runtime.Serial) Attributed
    (fun s earlier => Runtime.serial_of_reach (fun _ _ fresh => fresh) (runtime_of_reach earlier))
    (Attributed.init strategy config start)
  intro s label u fresh serial attributed moved
  exact attributed.step serial fresh moved

end Hosting

namespace Workspaces

variable {w t : Workspaces}

/-- With a workspace per run nothing is held for reuse, and every workspace that is returned has
just been created. -/
def Unheld (w : Workspaces) : Prop :=
  w.manager.strategy = .perRun ∧ ∀ call pc, w.calls call = some pc → pc.existing = none

theorem Unheld.resume (unheld : w.Unheld) {call : Nat} {now : Int} {pc : WorkspacePc}
    {reply : ClientReply} {manager : WorkspaceManager} {outcome : WorkspaceOutcome}
    (waits : w.calls call = some pc)
    (goes : w.manager.resume now pc reply = some (manager, outcome)) :
    manager.strategy = .perRun ∧ (∀ next ∈ outcome.waiting, next.existing = none) ∧
      ∀ answer ∈ outcome.answer, ∃ userId, pc = .creating userId ∧
        reply = .created answer.workspace.id := by
  obtain ⟨perRun, calls⟩ := unheld
  have nothing := calls call pc waits
  unfold WorkspaceManager.resume at goes
  split at goes <;> cases goes <;>
    simp_all [WorkspacePc.existing, WorkspaceOutcome.waiting, WorkspaceOutcome.answer,
      WorkspaceManager.record, WorkspaceManager.forget, WorkspaceProvisioningStrategy.markUsed,
      WorkspaceProvisioningStrategy.markDestroyed]

theorem Unheld.settle {call : Nat} {outcome : WorkspaceOutcome} (unheld : w.Unheld)
    (waiting : ∀ next ∈ outcome.waiting, next.existing = none) : (w.settle call outcome).Unheld := by
  refine ⟨?_, ?_⟩
  · rw [settle_manager]
    exact unheld.1
  · intro other pc waits
    rw [settle_calls, Function.update_apply] at waits
    split at waits
    · exact waiting pc waits
    · exact unheld.2 other pc waits

theorem Unheld.step {label : WorkspaceStep} (unheld : w.Unheld) (moved : w.step label = some t) :
    t.Unheld := by
  cases label with
  | getOrCreateWorkspace call userId =>
      simp only [Workspaces.step] at moved
      split at moved <;> cases moved
      apply unheld.settle
      intro next waits
      have perRun := unheld.1
      cases waits
      simp [WorkspacePc.existing, perRun, WorkspaceProvisioningStrategy.shouldReuse]
  | destroyWorkspace call workspaceId =>
      simp only [Workspaces.step] at moved
      split at moved <;> cases moved
      apply unheld.settle
      intro next waits
      unfold WorkspaceManager.destroyWorkspace at waits
      split at waits <;> cases waits
      rfl
  | resume call now reply =>
      cases waits : w.calls call with
      | none => simp [Workspaces.step, waits] at moved
      | some pc =>
          obtain ⟨manager, outcome, goes, rfl⟩ := step_resume waits moved
          obtain ⟨perRun, waiting, -⟩ := unheld.resume waits goes
          apply Unheld.settle _ waiting
          refine ⟨?_, ?_⟩
          · rw [provision_manager]
            exact perRun
          · intro other pc' waits'
            rw [provision_calls] at waits'
            exact unheld.2 other pc' waits'

end Workspaces

namespace Hosting

variable {h h' : Hosting} {label : Label} {config : RunManagerConfig} {start : Int}

def workspaceOf : Except SandboxError WorkspaceAnswer → Option WorkspaceId
  | .ok answer => some answer.workspace.id
  | .error _ => none

structure Exclusive (h : Hosting) : Prop where
  unheld : h.workspaces.Unheld
  apart : Keyed.Apart workspaceOf h.answered.get
  once : (h.assigned.map Assignment.workspaceId).Nodup
  fresh : ∀ id result workspaceId, h.answered.get id = some result →
    workspaceOf result = some workspaceId → workspaceId ∉ h.assigned.map Assignment.workspaceId
  created : ∀ id result workspaceId, h.answered.get id = some result →
    workspaceOf result = some workspaceId → workspaceId ∈ h.workspaces.created.map Prod.fst
  kept : ∀ a ∈ h.assigned, a.workspaceId ∈ h.workspaces.created.map Prod.fst

theorem Exclusive.init (config : RunManagerConfig) (start : Int) :
    (Hosting.init .perRun config start).Exclusive where
  unheld := by
    refine ⟨rfl, ?_⟩
    rintro call pc ⟨⟩
  apart := by
    rintro id other result result' workspaceId ⟨⟩
  once := List.nodup_nil
  fresh := by
    rintro id result workspaceId ⟨⟩
  created := by
    rintro id result workspaceId ⟨⟩
  kept := by
    rintro a ⟨⟩

theorem Exclusive.grow (exclusive : h.Exclusive) (runtime : Runtime) {workspaces : Workspaces}
    (sandboxes : List WorkspaceId) (unheld : workspaces.Unheld)
    (grows : h.workspaces.created ⊆ workspaces.created) :
    Exclusive { h with runtime, workspaces, sandboxes } where
  unheld := unheld
  apart := exclusive.apart
  once := exclusive.once
  fresh := exclusive.fresh
  created := fun id result workspaceId found held =>
    List.map_subset Prod.fst grows (exclusive.created id result workspaceId found held)
  kept := fun a member => List.map_subset Prod.fst grows (exclusive.kept a member)

theorem Exclusive.drop (exclusive : h.Exclusive) (runtime : Runtime) (id : Nat) :
    Exclusive { h with runtime, answered := h.answered.delete id } where
  unheld := exclusive.unheld
  apart := by
    show Keyed.Apart workspaceOf (h.answered.delete id).get
    rw [EsMap.get_delete_eq_update]
    apply exclusive.apart.update
    rintro result workspaceId ⟨⟩
  once := exclusive.once
  fresh := fun other result workspaceId found held =>
    exclusive.fresh other result workspaceId (EsMap.get_of_get_delete _ _ found).2 held
  created := fun other result workspaceId found held =>
    exclusive.created other result workspaceId (EsMap.get_of_get_delete _ _ found).2 held
  kept := exclusive.kept

theorem Exclusive.set (exclusive : h.Exclusive) (id : Nat) {result : Except SandboxError WorkspaceAnswer}
    (fresh : ∀ workspaceId, workspaceOf result = some workspaceId →
      workspaceId ∈ h.workspaces.created.map Prod.fst ∧
      workspaceId ∉ h.assigned.map Assignment.workspaceId ∧
      ∀ other found, h.answered.get other = some found → workspaceOf found ≠ some workspaceId) :
    Exclusive { h with answered := h.answered.set id result } where
  unheld := exclusive.unheld
  apart := by
    show Keyed.Apart workspaceOf (h.answered.set id result).get
    rw [EsMap.get_set_eq_update]
    apply exclusive.apart.update
    intro given workspaceId same held other found there
    cases same
    intro same
    exact absurd same ((fresh workspaceId held).2.2 other found there)
  once := exclusive.once
  fresh := by
    intro other given workspaceId found held
    rcases EsMap.get_set_cases h.answered id found with ⟨-, rfl⟩ | ⟨-, earlier⟩
    · exact (fresh workspaceId held).2.1
    · exact exclusive.fresh other given workspaceId earlier held
  created := by
    intro other given workspaceId found held
    rcases EsMap.get_set_cases h.answered id found with ⟨-, rfl⟩ | ⟨-, earlier⟩
    · exact (fresh workspaceId held).1
    · exact exclusive.created other given workspaceId earlier held
  kept := exclusive.kept

theorem Exclusive.step (exclusive : h.Exclusive) (fresh : h.Fresh label)
    (moved : h.step label = some h') : h'.Exclusive := by
  have unheld : h'.workspaces.Unheld := by
    rcases workspaces_of_step fresh moved with same | ⟨served, -, goes⟩
    · rw [same]
      exact exclusive.unheld
    · exact exclusive.unheld.step goes
  cases steps_of_step moved with
  | serves label runtime goes apart =>
      exact exclusive.grow runtime h.sandboxes unheld (List.Subset.refl _)
  | asks id userId run runtime found goes idle =>
      apply exclusive.grow runtime h.sandboxes unheld
      rw [Workspaces.settle_created]
      exact List.Subset.refl _
  | answers id reply pc manager outcome waits goes =>
      have grows : h.workspaces.created ⊆ (({ h.workspaces with manager }.provision pc
          reply).settle (taskCall id) outcome).created := by
        rw [Workspaces.settle_created]
        exact Workspaces.created_provision { h.workspaces with manager } pc reply
      have grown := exclusive.grow h.runtime h.sandboxes unheld grows
      cases outcome with
      | await next => exact grown
      | finished => exact grown
      | threw error =>
          apply grown.set id
          rintro workspaceId ⟨⟩
      | returned userId workspace isReused =>
          apply grown.set id
          rintro workspaceId ⟨⟩
          obtain ⟨user, rfl, rfl⟩ := (exclusive.unheld.resume waits goes).2.2 _ rfl
          have unused : workspace.id ∉ h.workspaces.created.map Prod.fst := by
            intro member
            obtain ⟨owned, listed, same⟩ := List.mem_map.mp member
            exact fresh workspace.id rfl owned listed same
          refine ⟨List.mem_map_of_mem List.mem_cons_self, ?_, ?_⟩
          · intro member
            obtain ⟨a, listed, same⟩ := List.mem_map.mp member
            exact unused (same ▸ exclusive.kept a listed)
          · intro other found there held
            exact unused (exclusive.created other found workspace.id there held)
  | assigns id found answer userId run pc runtime sandboxes answered executing goes =>
      have dropped := (exclusive.drop runtime id).grow runtime sandboxes unheld
        (List.Subset.refl _)
      have unassigned := exclusive.fresh id _ answer.workspace.id answered rfl
      refine ⟨dropped.unheld, dropped.apart, ?_, ?_, dropped.created, ?_⟩
      · rw [List.map_append]
        exact exclusive.once.append (List.nodup_singleton _) (by simpa using unassigned)
      · intro other result workspaceId found' held
        obtain ⟨different, earlier⟩ := EsMap.get_of_get_delete _ _ found'
        rw [List.map_append, List.mem_append, not_or]
        refine ⟨exclusive.fresh other result workspaceId earlier held, ?_⟩
        intro same
        rw [List.map_singleton, List.mem_singleton] at same
        subst same
        exact different (exclusive.apart other id result _ _ earlier answered held rfl)
      · intro a member
        rcases List.mem_append.mp member with earlier | new
        · exact exclusive.kept a earlier
        · rw [List.mem_singleton.mp new]
          exact exclusive.created id _ _ answered rfl
  | fails id found error runtime answered goes => exact exclusive.drop runtime id
  | others label served workspaces sandboxes goes uncreating calls answers created =>
      exact exclusive.grow h.runtime sandboxes unheld created

theorem exclusive_of_reach
    (reached : Transition.Reach step Fresh (init .perRun config start) h) : h.Exclusive := by
  apply reached.invariant Exclusive (Exclusive.init config start)
  intro s label u fresh exclusive moved
  exact exclusive.step fresh moved

/-- However executions, the calls of the manager and the destruction of workspaces are interleaved,
and whatever Daytona answers, where only its new workspaces have new ids: no workspace is given to
runs of two users, no two executions in progress have the same workspace, and with a workspace per
run none is given to two runs. -/
theorem executions_never_share_a_workspace (strategy : WorkspaceStrategy)
    (config : RunManagerConfig) (start : Int) (h : Hosting)
    (reached : Transition.Reach step Fresh (init strategy config start) h) :
    (∀ a ∈ h.assigned, ∀ b ∈ h.assigned, a.workspaceId = b.workspaceId → a.userId = b.userId) ∧
      (∀ id other task task' run run', h.runtime.tasks.get id = some task →
        h.runtime.tasks.get other = some task' → task.runs = some run → task'.runs = some run' →
        ∀ a ∈ h.assigned, ∀ b ∈ h.assigned, a.runId = run.id → b.runId = run'.id →
          a.workspaceId = b.workspaceId → id = other) ∧
      (strategy = .perRun → (h.assigned.map Assignment.workspaceId).Nodup) := by
  have attributed := attributed_of_reach reached
  have loyal := Workspaces.loyal_of_reach (workspaces_of_reach reached)
  have serial := Runtime.serial_of_reach (fun _ _ fresh => fresh) (runtime_of_reach reached)
  have users : ∀ a ∈ h.assigned, ∀ b ∈ h.assigned, a.workspaceId = b.workspaceId →
      a.userId = b.userId := by
    intro a member b member' same
    obtain ⟨⟨answer, listed, own, here⟩, -⟩ := attributed.assigned a member
    obtain ⟨⟨answer', listed', own', here'⟩, -⟩ := attributed.assigned b member'
    obtain ⟨mine, owned⟩ := loyal.answers answer listed
    obtain ⟨mine', owned'⟩ := loyal.answers answer' listed'
    rw [Workspaces.Owned, mine, own, here, same] at owned
    rw [Workspaces.Owned, mine', own', here'] at owned'
    exact loyal.unique _ _ _ owned owned'
  refine ⟨users, ?_, ?_⟩
  · intro id other task task' run run' found found' runs runs' a member b member' named named' same
    obtain ⟨loop, -, mine⟩ := serial.executions.mine id task run found runs
    obtain ⟨loop', -, mine'⟩ := serial.executions.mine other task' run' found' runs'
    have user : run.userId = a.userId := by
      have held := (attributed.assigned a member).2
      rw [named, mine] at held
      exact Option.some.inj held
    have user' : run'.userId = b.userId := by
      have held := (attributed.assigned b member').2
      rw [named', mine'] at held
      exact Option.some.inj held
    rw [user, users a member b member' same] at loop
    rw [user'] at loop'
    exact serial.loops.single id other task task' _ found found' loop loop'
  · rintro rfl
    exact (exclusive_of_reach reached).once

def givenLabels (id : Nat) (random : String) (owner : OwnerPrincipal) (workspaceId : WorkspaceId) :
    List Label :=
  ([.createRun id random owner ⟨some "pack", some "hello", none⟩,
    .resume id "", .resume id "", .resume id "",
    .resume id "t", .resume id "", .resume id "", .resume id "", .resume id "",
    .reply id (.health true "openai" ""), .reply id .imported] : List Runtime.Label).map .runtime ++
  [.client id .settled, .client id (.created workspaceId), .adapter id true]

theorem two_users_have_two_workspaces :
    ∃ h : Hosting, h.assigned.map Assignment.userId = ["acme:alice", "acme:bob"] ∧
      ((h.runtime.tasks.get 0).bind Task.runs).map Run.id = some "run_0_a" ∧
      ((h.runtime.tasks.get 1).bind Task.runs).map Run.id = some "run_0_b" ∧
      (∀ a ∈ h.assigned, ∀ b ∈ h.assigned, a.workspaceId = b.workspaceId → a.userId = b.userId) ∧
      (∀ a ∈ h.assigned, ∀ b ∈ h.assigned, a.runId = "run_0_a" → b.runId = "run_0_b" →
        a.workspaceId ≠ b.workspaceId) ∧
      (h.assigned.map Assignment.workspaceId).Nodup := by
  have ran : (Transition.exec (Transition.guarded step Fresh) (init .perRun .default 0)
      (givenLabels 0 "a" ⟨"acme", "alice"⟩ "ws-1" ++ givenLabels 1 "b" ⟨"acme", "bob"⟩ "ws-2")).map
        (fun h => (h.assigned.map Assignment.userId,
          ((h.runtime.tasks.get 0).bind Task.runs).map Run.id,
          ((h.runtime.tasks.get 1).bind Task.runs).map Run.id)) =
      some (["acme:alice", "acme:bob"], some "run_0_a", some "run_0_b") := by decide +kernel
  obtain ⟨h, reached, observed⟩ := Transition.reach_of_observed _ _ ran
  obtain ⟨users, both⟩ := Prod.mk.inj observed
  obtain ⟨first, second⟩ := Prod.mk.inj both
  obtain ⟨loyal, apart, once⟩ := executions_never_share_a_workspace .perRun .default 0 h reached
  refine ⟨h, users, first, second, loyal, ?_, once rfl⟩
  intro a member b member' named named' same
  obtain ⟨run, holds, here⟩ := Option.map_eq_some_iff.mp first
  obtain ⟨run', holds', here'⟩ := Option.map_eq_some_iff.mp second
  obtain ⟨task, found, runs⟩ := Option.bind_eq_some_iff.mp holds
  obtain ⟨task', found', runs'⟩ := Option.bind_eq_some_iff.mp holds'
  have one := apart 0 1 task task' run run' found found' runs runs' a member b member'
    (named.trans here.symm) (named'.trans here'.symm) same
  cases one

end Hosting

end Minerva
