import Minerva.Sandbox.Workspaces

namespace Minerva

namespace WorkspaceProvisioningStrategy

variable (strategy : WorkspaceProvisioningStrategy)

theorem shouldReuse_markUsed (workspace : Workspace) (userId : UserId) {held : Workspace}
    (found : (strategy.markUsed workspace).shouldReuse userId = some held) :
    (userId = workspace.userId ∧ held = workspace) ∨ strategy.shouldReuse userId = some held := by
  cases strategy with
  | perRun => cases found
  | perUser workspaces =>
      simp only [markUsed, shouldReuse, EsMap.get_set] at found ⊢
      by_cases own : userId = workspace.userId
      · rw [if_pos own] at found
        exact .inl ⟨own, (Option.some.inj found).symm⟩
      · rw [if_neg own] at found
        exact .inr found

def Unshared : Prop := ∀ user other left right,
  strategy.shouldReuse user = some left → strategy.shouldReuse other = some right →
    left.id = right.id → user = other

theorem shouldReuse_markDestroyed (unshared : strategy.Unshared) (workspaceId : WorkspaceId)
    (userId : UserId) {held : Workspace}
    (found : (strategy.markDestroyed workspaceId).shouldReuse userId = some held) :
    strategy.shouldReuse userId = some held ∧ held.id ≠ workspaceId := by
  cases strategy with
  | perRun => cases found
  | perUser workspaces =>
      simp only [markDestroyed] at found
      cases search : workspaces.entries.find? (fun entry => entry.2.id = workspaceId) with
      | none =>
          simp only [search, shouldReuse] at found ⊢
          have member := (EsMap.get_eq_some_iff workspaces userId held).mp found
          exact ⟨found, by simpa using List.find?_eq_none.mp search _ member⟩
      | some entry =>
          obtain ⟨user, dropped⟩ := entry
          simp only [search, shouldReuse] at found ⊢
          obtain ⟨other, earlier⟩ := EsMap.get_of_get_delete _ _ found
          refine ⟨earlier, ?_⟩
          intro id
          have dropped_id : dropped.id = workspaceId := by simpa using List.find?_some search
          have listed : workspaces.get user = some dropped :=
            (EsMap.get_eq_some_iff workspaces user dropped).mpr (List.mem_of_find?_eq_some search)
          exact other (unshared userId user held dropped earlier listed (id.trans dropped_id.symm))

end WorkspaceProvisioningStrategy

namespace WorkspacePc

def existing : WorkspacePc → Option Workspace
  | .deciding _ existing => existing
  | .verifying _ existing => some existing
  | .creating _ => none
  | .destroying _ => none

def userId : WorkspacePc → Option UserId
  | .deciding userId _ => some userId
  | .verifying userId _ => some userId
  | .creating userId => some userId
  | .destroying _ => none

end WorkspacePc

namespace Workspaces

/-- Daytona has created the workspace for the user that its record names. -/
def Owned (created : List (WorkspaceId × UserId)) (workspace : Workspace) : Prop :=
  (workspace.id, workspace.userId) ∈ created

/-- The maps of the manager and of its strategy agree on who owns what. -/
structure Coupled (created : List (WorkspaceId × UserId)) (m : WorkspaceManager) : Prop where
  filed : ∀ id workspace, m.workspaces.get id = some workspace →
    workspace.id = id ∧ Owned created workspace
  held : ∀ userId workspace, m.strategy.shouldReuse userId = some workspace →
    workspace.userId = userId ∧
      ∃ kept, m.workspaces.get workspace.id = some kept ∧ kept.userId = userId

def Unique (created : List (WorkspaceId × UserId)) : Prop :=
  ∀ id user other, (id, user) ∈ created → (id, other) ∈ created → user = other

variable {created more : List (WorkspaceId × UserId)} {m : WorkspaceManager}

theorem Coupled.owned (coupled : Coupled created m) {userId : UserId} {workspace : Workspace}
    (found : m.strategy.shouldReuse userId = some workspace) :
    (workspace.id, userId) ∈ created := by
  obtain ⟨-, kept, filed, owner⟩ := coupled.held userId workspace found
  have ⟨id, owned⟩ := coupled.filed workspace.id kept filed
  rw [Owned, id, owner] at owned
  exact owned

theorem Coupled.unshared (coupled : Coupled created m) (unique : Unique created) :
    m.strategy.Unshared := by
  intro user other left right first second same
  have left_owned := coupled.owned first
  rw [same] at left_owned
  exact unique right.id user other left_owned (coupled.owned second)

theorem Coupled.mono (coupled : Coupled created m) (grows : created ⊆ more) : Coupled more m where
  filed id workspace found :=
    have ⟨same, owned⟩ := coupled.filed id workspace found
    ⟨same, grows owned⟩
  held := coupled.held

theorem Coupled.record (coupled : Coupled created m) (unique : Unique created)
    (workspace : Workspace) (owned : Owned created workspace) :
    Coupled created (m.record workspace) where
  filed id kept found := by
    simp only [WorkspaceManager.record, EsMap.get_set] at found
    by_cases same : id = workspace.id
    · rw [if_pos same] at found
      cases found
      exact ⟨same.symm, owned⟩
    · rw [if_neg same] at found
      exact coupled.filed id kept found
  held userId held found := by
    rcases m.strategy.shouldReuse_markUsed workspace userId found with ⟨rfl, rfl⟩ | before
    · exact ⟨rfl, held, EsMap.get_set_self _ _ _, rfl⟩
    · obtain ⟨own, kept, filed, owner⟩ := coupled.held userId held before
      refine ⟨own, ?_⟩
      simp only [WorkspaceManager.record, EsMap.get_set]
      by_cases same : held.id = workspace.id
      · rw [if_pos same]
        have known := coupled.owned before
        rw [same] at known
        exact ⟨workspace, rfl, unique workspace.id _ _ owned known⟩
      · rw [if_neg same]
        exact ⟨kept, filed, owner⟩

theorem Coupled.forget (coupled : Coupled created m) (unique : Unique created)
    (workspaceId : WorkspaceId) : Coupled created (m.forget workspaceId) where
  filed id kept found := by
    exact coupled.filed id kept (EsMap.get_of_get_delete _ _ found).2
  held userId held found := by
    have ⟨before, other⟩ := m.strategy.shouldReuse_markDestroyed (coupled.unshared unique)
      workspaceId userId found
    obtain ⟨own, kept, filed, owner⟩ := coupled.held userId held before
    refine ⟨own, kept, ?_, owner⟩
    simp only [WorkspaceManager.forget, EsMap.get_delete]
    rw [if_neg other]
    exact filed

structure Loyal (w : Workspaces) : Prop where
  unique : Unique w.created
  coupled : Coupled w.created w.manager
  calls : ∀ call pc, w.calls call = some pc → ∀ workspace ∈ pc.existing,
    pc.userId = some workspace.userId ∧ Owned w.created workspace
  answers : ∀ answer ∈ w.answers,
    answer.workspace.userId = answer.userId ∧ Owned w.created answer.workspace

def Sincere (created : List (WorkspaceId × UserId)) : WorkspaceOutcome → Prop
  | .await pc => ∀ workspace ∈ pc.existing,
    pc.userId = some workspace.userId ∧ Owned created workspace
  | .returned userId workspace _ => workspace.userId = userId ∧ Owned created workspace
  | .threw _ => True
  | .finished => True

variable {w : Workspaces}

theorem Loyal.settle (loyal : Loyal w) (call : Nat) {outcome : WorkspaceOutcome}
    (sincere : Sincere w.created outcome) : Loyal (w.settle call outcome) := by
  have cleared : ∀ id pc, Function.update w.calls call none id = some pc → w.calls id = some pc := by
    intro id pc found
    by_cases same : id = call
    · subst same
      simp at found
    · rwa [Function.update_of_ne same] at found
  cases outcome with
  | await pc =>
      refine ⟨loyal.unique, loyal.coupled, ?_, loyal.answers⟩
      intro id next found
      by_cases same : id = call
      · subst same
        simp only [Workspaces.settle, Function.update_self] at found
        cases found
        exact sincere
      · simp only [Workspaces.settle, Function.update_of_ne same] at found
        exact loyal.calls id next found
  | returned userId workspace isReused =>
      refine ⟨loyal.unique, loyal.coupled, ?_, ?_⟩
      · intro id pc found
        exact loyal.calls id pc (cleared id pc found)
      · intro answer member
        rcases List.mem_append.mp member with earlier | last
        · exact loyal.answers answer earlier
        · cases List.mem_singleton.mp last
          exact sincere
  | threw _ =>
      exact ⟨loyal.unique, loyal.coupled, fun id pc found => loyal.calls id pc (cleared id pc found),
        loyal.answers⟩
  | finished =>
      exact ⟨loyal.unique, loyal.coupled, fun id pc found => loyal.calls id pc (cleared id pc found),
        loyal.answers⟩

theorem Loyal.provision (loyal : Loyal w) (pc : WorkspacePc) (reply : ClientReply)
    (fresh : ∀ id, reply = .created id → ∀ owned ∈ w.created, owned.1 ≠ id) :
    Loyal (w.provision pc reply) := by
  unfold Workspaces.provision
  split
  · rename_i userId id
    have grows : w.created ⊆ (id, userId) :: w.created := List.subset_cons_self _ _
    refine ⟨?_, loyal.coupled.mono grows, ?_, ?_⟩
    · intro shared user other first second
      rcases List.mem_cons.mp first with new | first <;>
        rcases List.mem_cons.mp second with also | second
      · cases new
        cases also
        rfl
      · cases new
        exact absurd rfl (fresh id rfl _ second)
      · cases also
        exact absurd rfl (fresh id rfl _ first)
      · exact loyal.unique shared user other first second
    · intro call waiting found workspace member
      have ⟨own, owned⟩ := loyal.calls call waiting found workspace member
      exact ⟨own, grows owned⟩
    · intro answer member
      have ⟨own, owned⟩ := loyal.answers answer member
      exact ⟨own, grows owned⟩
  · exact loyal

/-- One resumed call keeps the maps coupled and waits or answers sincerely. -/
theorem Loyal.resume (loyal : Loyal w) {call : Nat} {pc : WorkspacePc} {now : Int}
    {reply : ClientReply} {manager : WorkspaceManager} {outcome : WorkspaceOutcome}
    (waits : w.calls call = some pc)
    (fresh : ∀ id, reply = .created id → ∀ owned ∈ w.created, owned.1 ≠ id)
    (resumed : w.manager.resume now pc reply = some (manager, outcome)) :
    Loyal ({ w with manager }.provision pc reply) ∧
      Sincere ({ w with manager }.provision pc reply).created outcome := by
  have known := loyal.calls call pc waits
  have grown := loyal.provision pc reply fresh
  unfold WorkspaceManager.resume at resumed
  split at resumed <;> cases resumed
  · exact ⟨loyal, known⟩
  · exact ⟨loyal, nofun⟩
  · rename_i userId existing
    obtain ⟨own, owned⟩ := known existing rfl
    have coupled := loyal.coupled.record loyal.unique
      { existing with lastUsedAt := now, isReused := true } owned
    exact ⟨⟨loyal.unique, coupled, loyal.calls, loyal.answers⟩, (Option.some.inj own).symm, owned⟩
  · exact ⟨loyal, nofun⟩
  · rename_i userId id
    have owned : Owned ((id, userId) :: w.created)
        { id, userId, createdAt := now, lastUsedAt := now, isReused := false,
          rootPath := getWorkspaceRoot } := List.mem_cons_self
    have coupled := grown.coupled.record grown.unique _ owned
    exact ⟨⟨grown.unique, coupled, grown.calls, grown.answers⟩, rfl, owned⟩
  · exact ⟨loyal, trivial⟩
  · have coupled := loyal.coupled.forget loyal.unique
    exact ⟨⟨loyal.unique, coupled _, loyal.calls, loyal.answers⟩, trivial⟩
  · exact ⟨loyal, trivial⟩

theorem Loyal.step {w t : Workspaces} {label : WorkspaceStep} (loyal : Loyal w)
    (fresh : Fresh w label) (moved : w.step label = some t) : Loyal t := by
  cases label with
  | getOrCreateWorkspace call userId =>
      simp only [Workspaces.step] at moved
      split at moved <;> cases moved
      apply loyal.settle
      intro workspace found
      have held : w.manager.strategy.shouldReuse userId = some workspace := found
      have own := (loyal.coupled.held userId workspace held).1
      have owned := loyal.coupled.owned held
      rw [← own] at owned
      exact ⟨congrArg some own.symm, owned⟩
  | destroyWorkspace call workspaceId =>
      simp only [Workspaces.step] at moved
      split at moved <;> cases moved
      apply loyal.settle
      unfold WorkspaceManager.destroyWorkspace
      split
      · exact nofun
      · trivial
  | resume call now reply =>
      simp only [Workspaces.step] at moved
      split at moved
      · cases moved
      · rename_i pc waits
        split at moved <;> cases moved
        rename_i manager outcome resumed
        have fresh_id : ∀ id, reply = .created id → ∀ owned ∈ w.created, owned.1 ≠ id := by
          rintro id rfl
          exact fresh id rfl
        have ⟨kept, sincere⟩ := loyal.resume waits fresh_id resumed
        exact kept.settle call sincere

theorem loyal_of_reach {strategy : WorkspaceStrategy}
    (run : Transition.Reach Workspaces.step Fresh (Workspaces.init strategy) w) : Loyal w := by
  apply run.invariant Loyal
  · have nothing : ∀ userId,
        (createProvisioningStrategy strategy).shouldReuse userId = none := by
      intro userId
      cases strategy <;> rfl
    refine ⟨nofun, ⟨nofun, ?_⟩, nofun, nofun⟩
    intro userId workspace found
    rw [Workspaces.init, WorkspaceManager.init, nothing] at found
    cases found
  · intro s label t fresh loyal moved
    exact loyal.step fresh moved

/-- A workspace is only ever returned for the user it was created for, and what the strategy holds
for a user the manager holds too. -/
theorem workspaces_stay_with_their_user
    (run : Transition.Reach Workspaces.step Fresh (Workspaces.init .perUser) w) :
    (∀ answer ∈ w.answers, answer.workspace.userId = answer.userId) ∧
      (∀ answer ∈ w.answers, ∀ other ∈ w.answers, answer.workspace.id = other.workspace.id →
        answer.userId = other.userId) ∧
      ∀ userId workspace, w.manager.strategy.shouldReuse userId = some workspace →
        ∃ kept, w.manager.workspaces.get workspace.id = some kept ∧ kept.id = workspace.id ∧
          kept.userId = userId := by
  have loyal := loyal_of_reach run
  refine ⟨?_, ?_, ?_⟩
  · intro answer member
    exact (loyal.answers answer member).1
  · intro answer member other also same
    have ⟨own, owned⟩ := loyal.answers answer member
    have ⟨others, owned'⟩ := loyal.answers other also
    rw [Owned, own, same] at owned
    rw [Owned, others] at owned'
    exact loyal.unique _ _ _ owned owned'
  · intro userId workspace found
    obtain ⟨-, kept, filed, owner⟩ := loyal.coupled.held userId workspace found
    exact ⟨kept, filed, (loyal.coupled.filed workspace.id kept filed).1, owner⟩

/-- A workspace is destroyed while a second call of its user verifies it, and then returned. -/
def reuseRacesDestruction : List WorkspaceStep :=
  [.getOrCreateWorkspace 0 "alice", .resume 0 1 .settled, .resume 0 2 (.created "ws-1"),
    .getOrCreateWorkspace 1 "alice", .resume 1 3 .settled, .destroyWorkspace 2 "ws-1",
    .resume 2 4 .destroyed, .resume 1 5 (.found true)]

theorem raced_workspace_stays :
    ∃ w : Workspaces, w.answers.map (fun answer => (answer.workspace.id, answer.isReused)) =
        [("ws-1", false), ("ws-1", true)] ∧
      (∀ answer ∈ w.answers, answer.workspace.userId = answer.userId) ∧
      ∀ userId workspace, w.manager.strategy.shouldReuse userId = some workspace →
        ∃ kept, w.manager.workspaces.get workspace.id = some kept ∧ kept.id = workspace.id ∧
          kept.userId = userId := by
  have ran : (Transition.exec (Transition.guarded step Fresh) (init .perUser)
      reuseRacesDestruction).map
        (fun w => w.answers.map (fun answer => (answer.workspace.id, answer.isReused))) =
      some [("ws-1", false), ("ws-1", true)] := by decide +kernel
  obtain ⟨w, reached, observed⟩ := Transition.reach_of_observed _ _ ran
  have ⟨own, _, held⟩ := workspaces_stay_with_their_user reached
  exact ⟨w, observed, own, held⟩

end Workspaces

end Minerva
