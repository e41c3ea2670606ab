import NexusLb.Scheduler.Core

/-!
# Backends and frontends joining and leaving

The registration handlers and what they run under the mutex.  `AddBackend` pins a new
backend to the first static workload no backend holds, or else lets it take unassigned
workload.  `RemoveBackend` hands a departing backend's whole load to the first idle
backend that `Assign`s it, or else releases its static pin, or returns its throughput to
its sessions as unassigned workload.  `RemoveFrontend` drops a departing frontend's
subscriptions and removes the sessions left without a subscriber from their backends.
The backups inside a backend's instances only change what the next
`UpdateModelTableRpc` carries and are not modelled; the scheduler's own
`backup_backends` are.
-/

namespace NexusLb.Sched

namespace Scheduler

variable (cfg : Config) (policy : Policy)

/-- `RegisterFrontend(frontend)`: the node id must be new (`CHECK`). -/
def registerFrontend (frontend : Nat) (s : Scheduler) : Option Scheduler :=
  if frontend ∈ s.frontends then none
  else some { s with frontends := s.frontends.insert frontend ⟨[]⟩ }

/-! ### `AddBackend` -/

/-- The first static workload that no backend is pinned to. -/
def unassignedStaticWorkload (s : Scheduler) : Option Nat :=
  (List.range cfg.staticWorkloads.length).find? fun id => id ∉ s.assignedStaticWorkloads

/-- A session the pinned backend serves: it gets a `SessionInfo` if it has none, and
records the backend's weight. -/
def recordStaticSession (backend : BackendDelegate) (acc : Scheduler × Changes)
    (session : String) : Scheduler × Changes :=
  let s := { acc.1 with
    sessionTable := acc.1.sessionTable.emplace session (SessionInfo.empty true) }
  (s.modifySession session fun info =>
      { info with
        backendWeights :=
          info.backendWeights.emplace backend.nodeId (backend.getModelWeight policy session) },
    { acc.2 with sessions := acc.2.sessions.insert session })

/-- The registered backends among some ids join the changed backends. -/
def insertRegistered (s : Scheduler) (changed backends : List Nat) : List Nat :=
  backends.foldl (fun changed b => if b ∈ s.backends then changed.insert b else changed) changed

/-- A session the pinned backend backs up: it gets a `SessionInfo` if it has none and
records the backup, and the backends serving it push their model tables. -/
def recordBackupSession (backend : Nat) (acc : Scheduler × Changes) (session : String) :
    Scheduler × Changes :=
  let s := { acc.1 with
    sessionTable := acc.1.sessionTable.emplace session (SessionInfo.empty true) }
  match s.sessionTable.lookup session with
  | some info =>
    if backend ∈ info.backupBackends then (s, acc.2)
    else
      (s.modifySession session fun info =>
          { info with backupBackends := info.backupBackends.insert backend },
        { acc.2 with backends := insertRegistered s acc.2.backends info.backendWeights.keyList })
  -- the `emplace` above makes the session present
  | none => (s, acc.2)

/-- The backend loads every model of static workload `id` and takes the workload's id. -/
def loadStaticWorkload (backend : BackendDelegate) (id : Nat) : BackendDelegate :=
  ((cfg.staticWorkloads.getD id []).foldl
    (fun backend model => backend.loadStaticModel policy model) backend).setWorkloadId id

theorem info_loadStaticWorkload (backend : BackendDelegate) (id : Nat) :
    (loadStaticWorkload cfg policy backend id).info = backend.info :=
  BackendDelegate.info_foldl_loadStaticModel policy _ _

@[simp] theorem workloadId_loadStaticWorkload (backend : BackendDelegate) (id : Nat) :
    (loadStaticWorkload cfg policy backend id).workloadId = id := rfl

/-- `AddBackend`'s first branch: the new backend is pinned to static workload `id`,
loads its models and becomes a backup where the workload says so. -/
def pinStaticWorkload (backend : BackendDelegate) (id : Nat) (s : Scheduler) :
    Scheduler × Changes :=
  let pinned := loadStaticWorkload cfg policy backend id
  let s := { s with
    assignedStaticWorkloads := s.assignedStaticWorkloads.insert id backend.nodeId
    backends := s.backends.insert backend.nodeId pinned }
  let acc := pinned.getModelSessions.foldl (recordStaticSession policy pinned) (s,
    ⟨[], [backend.nodeId]⟩)
  pinned.getBackupModelSessions.foldl (recordBackupSession backend.nodeId) acc

/-- `AddBackend(backend)`, after `backends_` took the new backend. -/
def addBackend (backend : BackendDelegate) (s : Scheduler) : Option Scheduler := do
  let (s, changes) ←
    match unassignedStaticWorkload cfg s with
    | some id => some (pinStaticWorkload cfg policy backend id s)
    | none => allocateUnassignedWorkloads policy s ⟨[], []⟩
  (s.updateModelTables changes.backends).updateModelRoutes changes.sessions

/-- `RegisterBackend(backend)`: the node id must be new (`CHECK`). -/
def registerBackend (info : BackendInfo) (s : Scheduler) : Option Scheduler :=
  if info.nodeId ∈ s.backends then none
  else
    addBackend cfg policy (.fresh info)
      { s with backends := s.backends.insert info.nodeId (.fresh info) }

/-! ### `RemoveBackend` -/

/-- `RemoveBackend`'s first step for one session of the departing backend: the backend
leaves the session's weights. -/
def dropWeights (departing : Nat) (acc : Scheduler × Changes) (session : String) :
    Scheduler × Changes :=
  if session ∈ acc.1.sessionTable ∧ session ∉ acc.2.sessions then
    (acc.1.modifySession session fun info =>
        { info with backendWeights := info.backendWeights.erase departing },
      { acc.2 with sessions := acc.2.sessions.insert session })
  else acc

/-- The first idle backend that `Assign`s the departing backend's load, as it is after
taking it over. -/
def findAssignee (departing : BackendDelegate) (s : Scheduler) : Option (Nat × BackendDelegate) :=
  s.backends.entries.findSome? fun entry =>
    if entry.2.isIdle then (entry.2.assign policy departing).map (entry.1, ·) else none

/-- A session the departing backend backed up moves the backup to the assignee, and the
backends serving it push their model tables. -/
def moveBackup (departing assignee : Nat) (acc : Scheduler × Changes) (session : String) :
    Option (Scheduler × Changes) := do
  let info ← acc.1.sessionTable.lookup session
  pure (acc.1.modifySession session (fun info =>
      { info with backupBackends := (info.backupBackends.erase departing).insert assignee }),
    { acc.2 with backends := insertRegistered acc.1 acc.2.backends info.backendWeights.keyList })

/-- `RemoveBackend` when idle backend `assignee` took the load over: it records its
throughputs as the sessions' weights, keeps the static pin and takes over the backups. -/
def migrate (departing : BackendDelegate) (assignee : Nat) (assigned : BackendDelegate)
    (acc : Scheduler × Changes) : Option (Scheduler × Changes) := do
  let s := { acc.1 with backends := acc.1.backends.insert assignee assigned }
  let s ← departing.getModelSessions.foldlM (fun s session => s.atSession session fun info =>
      { info with
        backendWeights := info.backendWeights.emplace assigned.nodeId
          (assigned.getModelThroughput session) }) s
  let s :=
    if 0 ≤ assigned.workloadId then
      { s with
        assignedStaticWorkloads :=
          s.assignedStaticWorkloads.emplace assigned.workloadId.toNat assigned.nodeId }
    else s
  departing.getBackupModelSessions.foldlM (moveBackup departing.nodeId assigned.nodeId)
    (s, { acc.2 with backends := acc.2.backends.insert assigned.nodeId })

/-- A session the departing backend backed up drops it from its backups, and the
backends serving it push their model tables. -/
def dropBackup (departing : Nat) (acc : Scheduler × Changes) (session : String) :
    Option (Scheduler × Changes) := do
  let info ← acc.1.sessionTable.lookup session
  if departing ∈ info.backupBackends then
    pure (acc.1.modifySession session (fun info =>
        { info with backupBackends := info.backupBackends.erase departing }),
      { acc.2 with backends := insertRegistered acc.1 acc.2.backends info.backendWeights.keyList })
  else pure acc

/-- `RemoveBackend` when no idle backend takes the load: the backups are dropped; a
static pin is released, or else the departing throughput becomes unassigned workload
that the other backends take as far as they can. -/
def requeue (departing : BackendDelegate) (acc : Scheduler × Changes) :
    Option (Scheduler × Changes) := do
  let (s, changes) ← departing.getBackupModelSessions.foldlM (dropBackup departing.nodeId) acc
  if 0 ≤ departing.workloadId then
    pure ({ s with
      assignedStaticWorkloads := s.assignedStaticWorkloads.erase departing.workloadId.toNat },
      changes)
  else
    let s ← departing.getModelSessions.foldlM (fun s session => s.atSession session fun info =>
        { info with
          unassignedWorkload := info.unassignedWorkload + departing.getModelThroughput session }) s
    allocateUnassignedWorkloads policy s changes

/-- `RemoveBackend(backend)`, after `backends_` dropped the backend. -/
def removeBackend (departing : BackendDelegate) (s : Scheduler) : Option Scheduler :=
  if departing.isIdle then some s
  else do
    let acc := departing.getModelSessions.foldl (dropWeights departing.nodeId) (s, ⟨[], []⟩)
    let (s, changes) ←
      match findAssignee policy departing acc.1 with
      | some (assignee, assigned) => migrate departing assignee assigned acc
      | none => requeue policy departing acc
    (s.updateModelTables changes.backends).updateModelRoutes changes.sessions

/-- `UnregisterBackend(node_id)`: the backend must be registered (`CHECK`). -/
def unregisterBackend (b : Nat) (s : Scheduler) : Option Scheduler := do
  let backend ← s.backends.lookup b
  removeBackend policy backend { s with backends := s.backends.erase backend.nodeId }

/-! ### `RemoveFrontend` -/

/-- A session left without subscribers is unloaded from one backend of its weights;
`GetBackend` of a backend that is not registered is dereferenced as null. -/
def unloadFrom (session : String) (acc : Scheduler × List Nat) (b : Nat) :
    Option (Scheduler × List Nat) := do
  let _ ← acc.1.backends.lookup b
  pure (acc.1.modifyBackend b (BackendDelegate.unloadModel session), acc.2.insert b)

theorem unloadFrom_eq_some {session : String} {acc acc' : Scheduler × List Nat} {b : Nat}
    (h : unloadFrom session acc b = some acc') :
    acc' = (acc.1.modifyBackend b (BackendDelegate.unloadModel session), acc.2.insert b) := by
  cases hb : acc.1.backends.lookup b <;> simp [unloadFrom, hb] at h
  exact h.symm

/-- One subscription of the departing frontend: it leaves the subscribers, and a session
left without any is unloaded and removed. -/
def unsubscribeSession (frontend : Nat) (acc : Scheduler × List Nat) (session : String) :
    Option (Scheduler × List Nat) := do
  let info ← acc.1.sessionTable.lookup session
  let (remove, info) := info.unsubscribe frontend
  let s := { acc.1 with sessionTable := acc.1.sessionTable.insert session info }
  if remove then
    let (s, updated) ← info.backendWeights.keyList.foldlM (unloadFrom session) (s, acc.2)
    pure ({ s with sessionTable := s.sessionTable.erase session }, updated)
  else pure (s, acc.2)

/-- `RemoveFrontend(frontend)`, after `frontends_` dropped the frontend. -/
def removeFrontend (frontend : Nat) (subscriptions : List String) (s : Scheduler) :
    Option Scheduler := do
  let (s, updated) ← subscriptions.foldlM (unsubscribeSession frontend) (s, [])
  pure (s.updateModelTables updated)

/-- `UnregisterFrontend(node_id)`: the frontend must be registered (`CHECK`). -/
def unregisterFrontend (frontend : Nat) (s : Scheduler) : Option Scheduler := do
  let delegate ← s.frontends.lookup frontend
  removeFrontend frontend delegate.subscribeModels { s with
    frontends := s.frontends.erase frontend }

end Scheduler

end NexusLb.Sched
