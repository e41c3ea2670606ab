import NexusLb.Scheduler.Delegate
import Mathlib.Data.List.Sort

/-!
# The global scheduler: state, routes and placement

`Scheduler` holds what `Scheduler::mutex_` guards: the frontends, the backend delegates,
`session_table_` and `assigned_static_workloads_`.  Every handler holds the mutex from
start to end, so each is one function of the state, and `none` is a fault of the C++
code (an `at` that throws, a failed `CHECK`, a null delegate dereferenced, an
out-of-range read of a rate history).  A model session is its canonical id; this source
never shares one `SessionInfo` between two keys, so its `model_sessions` is the session
its key names.  The RPCs the scheduler makes (`UpdateModelTableRpc`,
`UpdateModelRoutesRpc`) are recorded in order in `effects`.  This module holds the
state, `GetModelRoute`, `UpdateModelRoutes`, `FindBestBackend`,
`AllocateUnassignedWorkloads`, `LoadModel` and `ReportWorkload`.
-/

namespace NexusLb.Sched

/-- The `1e-3` that the scheduler compares rates with. -/
def tolerance : ℚ := mkRat 1 1000

/-- Modelled from the spec: the scheduler's `SessionInfo` of one model session, absent
from src/. -/
structure SessionInfo where
  backendWeights : Table Nat ℚ
  /-- `workloads`: the latest rate each frontend reported for the session. -/
  workloads : Table Nat ℚ
  rpsHistory : List ℚ
  unassignedWorkload : ℚ
  /-- `session_subscribers[session]`. -/
  subscribers : List Nat
  backupBackends : List Nat
  hasStaticWorkload : Bool

/-- `std::make_shared<SessionInfo>()`, flagged when a static workload creates it. -/
def SessionInfo.empty (hasStaticWorkload : Bool) : SessionInfo :=
  ⟨∅, ∅, [], 0, [], [], hasStaticWorkload⟩

/-- Modelled from the spec: `SessionInfo::TotalThroughput()`, the sum of the recorded
weights. -/
def SessionInfo.totalThroughput (info : SessionInfo) : ℚ :=
  (info.backendWeights.entries.map Sigma.snd).sum

/-- Modelled from the spec: `SubscribeModelSession(frontend, session)`. -/
def SessionInfo.subscribe (frontend : Nat) (info : SessionInfo) : SessionInfo :=
  { info with subscribers := info.subscribers.insert frontend }

/-- Modelled from the spec: `UnsubscribleModelSession(frontend, session)`; the frontend
leaves, and, as the spec's lifecycle has it, the session is to be removed once no
subscriber is left (`has_static_workload` is not read). -/
def SessionInfo.unsubscribe (frontend : Nat) (info : SessionInfo) : Bool × SessionInfo :=
  let info := { info with subscribers := info.subscribers.erase frontend }
  (info.subscribers.isEmpty, info)

/-- Modelled from the spec: the scheduler's `FrontendDelegate`, absent from src/; the
sessions it subscribes to. -/
structure FrontendDelegate where
  subscribeModels : List String

/-- Modelled from the spec: `FrontendDelegate::SubscribeModel(session)`. -/
def FrontendDelegate.subscribeModel (session : String) (frontend : FrontendDelegate) :
    FrontendDelegate :=
  { frontend with subscribeModels := frontend.subscribeModels.insert session }

/-- The flags and the workload file the scheduler reads at start-up. -/
structure Config where
  /-- `FLAGS_beacon`, the beacon interval in seconds. -/
  beacon : Nat
  /-- `FLAGS_avg_interval`, in seconds. -/
  avgInterval : Nat
  /-- `static_workloads_`, as `LoadWorkloadFile` reads it. -/
  staticWorkloads : List (List StaticModel)

/-- `history_len_`. -/
def Config.historyLen (cfg : Config) : Nat :=
  (cfg.avgInterval * 3 + cfg.beacon - 1) / cfg.beacon

/-- An RPC the scheduler makes. -/
inductive Effect
  /-- `UpdateModelTableRpc()` to a backend. -/
  | updateModelTable (backend : Nat)
  /-- `UpdateModelRoutesRpc(updates)` to a frontend. -/
  | updateModelRoutes (frontend : Nat) (routes : List ModelRouteProto)
  deriving DecidableEq

/-- The state guarded by `Scheduler::mutex_`. -/
structure Scheduler where
  frontends : Table Nat FrontendDelegate
  backends : Table Nat BackendDelegate
  sessionTable : Table String SessionInfo
  assignedStaticWorkloads : Table Nat Nat
  effects : List Effect

/-- The scheduler as `Scheduler::Scheduler` leaves it. -/
def Scheduler.init : Scheduler := ⟨∅, ∅, ∅, ∅, []⟩

/-- The sessions and backends a handler changed, whose routes and model tables it
pushes at its end (`changed_sessions`, `changed_backends`). -/
structure Changes where
  sessions : List String
  backends : List Nat

/-- A `LoadModelRequest`: the frontend, the session (with a resizable model's default
image size filled in) and `estimate_workload`. -/
structure LoadModelRequest where
  nodeId : Nat
  modelSession : String
  estimateWorkload : ℚ

/-- A `WorkloadStatsProto`: the rate a frontend measured for each session. -/
structure WorkloadStats where
  nodeId : Nat
  modelStats : List (String × ℚ)

/-- A candidate of `FindBestBackend`: the backend, the prepared instance and the
occupancy it would reach. -/
abbrev ModelLoad := Nat × InstanceInfo × ℚ

namespace Scheduler

variable (policy : Policy)

/-- `session_table_.at(session)->...`: a change to a session that throws when the
session is absent. -/
def atSession (session : String) (f : SessionInfo → SessionInfo) (s : Scheduler) :
    Option Scheduler :=
  (s.sessionTable.lookup session).map fun info =>
    { s with sessionTable := s.sessionTable.insert session (f info) }

/-- A change through a `SessionInfo` pointer the handler holds. -/
def modifySession (session : String) (f : SessionInfo → SessionInfo) (s : Scheduler) :
    Scheduler :=
  { s with sessionTable := s.sessionTable.modify session f }

/-- A change through a `BackendDelegate` pointer the handler holds. -/
def modifyBackend (backend : Nat) (f : BackendDelegate → BackendDelegate) (s : Scheduler) :
    Scheduler :=
  { s with backends := s.backends.modify backend f }

/-- `UpdateModelTableRpc()` on each of the backends. -/
def updateModelTables (backends : List Nat) (s : Scheduler) : Scheduler :=
  { s with effects := s.effects ++ backends.map .updateModelTable }

@[simp]
theorem sessionTable_modifySession (session : String) (f : SessionInfo → SessionInfo)
    (s : Scheduler) : (s.modifySession session f).sessionTable = s.sessionTable.modify session f :=
  rfl

@[simp]
theorem sessionTable_modifyBackend (backend : Nat) (f : BackendDelegate → BackendDelegate)
    (s : Scheduler) : (s.modifyBackend backend f).sessionTable = s.sessionTable := rfl

@[simp]
theorem backends_modifyBackend (backend : Nat) (f : BackendDelegate → BackendDelegate)
    (s : Scheduler) : (s.modifyBackend backend f).backends = s.backends.modify backend f := rfl

@[simp]
theorem sessionTable_updateModelTables (backends : List Nat) (s : Scheduler) :
    (s.updateModelTables backends).sessionTable = s.sessionTable := rfl

@[simp]
theorem backends_updateModelTables (backends : List Nat) (s : Scheduler) :
    (s.updateModelTables backends).backends = s.backends := rfl

/-- `GetModelRoute(session, route)`: every backend of the session's weights, with its
weight as throughput. -/
def getModelRoute (s : Scheduler) (session : String) : Option ModelRouteProto := do
  let info ← s.sessionTable.lookup session
  let rates ← info.backendWeights.entries.mapM fun entry =>
    (s.backends.lookup entry.1).map fun backend => (⟨backend.info, entry.2⟩ : BackendRate)
  pure ⟨session, rates⟩

/-- The routes `UpdateModelRoutes` gathers for one session, appended to the update of
each of its subscribers. -/
def gatherRoutes (s : Scheduler) (updates : Table Nat (List ModelRouteProto)) (session : String) :
    Option (Table Nat (List ModelRouteProto)) :=
  (((s.sessionTable.lookup session).map SessionInfo.subscribers).getD []).foldlM
    (fun updates frontend => do
      let route ← s.getModelRoute session
      pure (updates.insert frontend ((updates.lookup frontend).getD [] ++ [route])))
    updates

/-- `UpdateModelRoutes(sessions)`: the routes of the changed sessions, gathered per
subscribing frontend and sent to those still registered. -/
def updateModelRoutes (sessions : List String) (s : Scheduler) : Option Scheduler := do
  let updates ← sessions.foldlM s.gatherRoutes ∅
  let sent := updates.entries.filter fun entry => entry.1 ∈ s.frontends
  pure { s with effects := s.effects ++ sent.map fun entry => .updateModelRoutes entry.1 entry.2 }

/-! ### Placement -/

/-- One pass of `FindBestBackend`'s loop over `backends_`: the candidates with the
highest throughput and with the highest occupancy so far. -/
def considerBackend (session : String) (rate : ℚ) (skips : List Nat)
    (best : Option ModelLoad × Option ModelLoad) (entry : Σ _ : Nat, BackendDelegate) :
    Option ModelLoad × Option ModelLoad :=
  if entry.1 ∈ skips ∨ 0 ≤ entry.2.workloadId ∨ (|rate| < tolerance ∧ entry.2.isIdle = false) then
    best
  else
    match entry.2.prepareLoadModel policy session rate with
    | none => best
    | some (inst, occupancy) =>
      let load : ModelLoad := (entry.1, inst, occupancy)
      (if best.1.all fun maxTp => maxTp.2.1.throughput < inst.throughput then some load else best.1,
        if best.2.all fun maxOcc => maxOcc.2.2 < occupancy then some load else best.2)

/-- `FindBestBackend(session, rate, skips)`: the backend to place the session on and the
instance it would get. -/
def findBestBackend (s : Scheduler) (session : String) (rate : ℚ) (skips : List Nat) :
    Option (Nat × InstanceInfo) :=
  let best := s.backends.entries.foldl (considerBackend policy session rate skips) (none, none)
  let chosen :=
    if |rate| < tolerance then best.1
    else
      match best.1 with
      | some maxTp => if maxTp.2.1.throughput < rate then best.1 else best.2
      -- no candidate: both loads are null
      | none => none
  chosen.map fun load => (load.1, load.2.1)

/-- The placement loop of `AllocateUnassignedWorkloads` for one session: the rate left,
the state and the changes once the rate is placed or no backend takes more.  The C++
`while` loop has no bound; the model runs `fuel` passes, and running out of them counts
as the call not returning. -/
def allocateSession (session : String) :
    Nat → ℚ → Scheduler × Changes → Option (ℚ × Scheduler × Changes)
  | 0, _, _ => none
  | fuel + 1, rate, acc =>
    if tolerance < rate then
      (findBestBackend policy acc.1 session rate []).elim (some (rate, acc)) fun placed =>
        allocateSession session fuel (rate - placed.2.throughput)
          (((acc.1.modifyBackend placed.1 (BackendDelegate.loadModel placed.2)).modifySession
              session fun info =>
                { info with
                  backendWeights :=
                    info.backendWeights.emplace placed.1 (placed.2.getWeight policy) }),
            ⟨acc.2.sessions.insert session, acc.2.backends.insert placed.1⟩)
    else some (rate, acc)

/-- One session of `AllocateUnassignedWorkloads`: its placement loop, then the rate left
becomes its `unassigned_workload`.  The rate read is the one the sort saw: no earlier
session of the loop changes this one. -/
def allocateOwed (acc : Scheduler × Changes) (entry : Σ _ : String, SessionInfo) :
    Option (Scheduler × Changes) := do
  let (rate, s, changes) ←
    allocateSession policy entry.1 policy.passes entry.2.unassignedWorkload acc
  let rate := if |rate| < tolerance then 0 else rate
  pure (s.modifySession entry.1 fun info => { info with unassignedWorkload := max 0 rate }, changes)

/-- `AllocateUnassignedWorkloads(changed_sessions, changed_backends)`: the sessions that
are owed more than `1e-3`, largest debt first, each placed as far as backends take it. -/
def allocateUnassignedWorkloads (s : Scheduler) (changes : Changes) :
    Option (Scheduler × Changes) :=
  let owed := s.sessionTable.entries.filter fun entry => tolerance < entry.2.unassignedWorkload
  if owed.isEmpty then some (s, changes)
  else
    (owed.insertionSort fun a b => b.2.unassignedWorkload ≤ a.2.unassignedWorkload).foldlM
      (allocateOwed policy) (s, changes)

/-! ### `LoadModel` and `ReportWorkload` -/

/-- The placement loop of `LoadModel`: the backends chosen and their instances, or
`none` (`NOT_ENOUGH_BACKENDS`).  Every pass skips the backends already chosen, so one
pass more than there are backends always ends the loop. -/
def placeWorkload (s : Scheduler) (session : String) :
    Nat → ℚ → List Nat → Option (List (Nat × InstanceInfo))
  | 0, _, _ => none
  | fuel + 1, workload, used =>
    if tolerance < workload then
      (findBestBackend policy s session workload used).elim none fun placed =>
        (placed :: ·) <$> placeWorkload s session fuel (workload - placed.2.throughput)
          (placed.1 :: used)
    else some []

/-- The backends `LoadModel` assigns a new session to: for a zero workload the one best
idle backend, otherwise backends until the workload is covered. -/
def assignBackends (s : Scheduler) (session : String) (workload : ℚ) :
    Option (List (Nat × InstanceInfo)) :=
  if workload = 0 then (findBestBackend policy s session workload []).map ([·])
  else placeWorkload policy s session (s.backends.entries.length + 1) workload []

/-- One backend of `LoadModel`'s commit: it loads its instance and pushes its model
table, and the new session records its weight. -/
def loadAssigned (acc : Scheduler × Table Nat ℚ) (assigned : Nat × InstanceInfo) :
    Scheduler × Table Nat ℚ :=
  (((acc.1.modifyBackend assigned.1 (BackendDelegate.loadModel assigned.2)).updateModelTables
      [assigned.1]),
    acc.2.emplace assigned.1 (assigned.2.getWeight policy))

/-- A frontend subscribes to a session (`SubscribeModel`, `SubscribeModelSession`). -/
def subscribe (frontend : Nat) (session : String) (s : Scheduler) : Scheduler :=
  { s with
    frontends := s.frontends.modify frontend (FrontendDelegate.subscribeModel session)
    sessionTable := s.sessionTable.modify session (SessionInfo.subscribe frontend) }

/-- `LoadModel`'s commit for a new session: each chosen backend loads its instance, the
session is created with their weights, and the frontend subscribes to it. -/
def commitSession (frontend : Nat) (session : String) (assigned : List (Nat × InstanceInfo))
    (s : Scheduler) : Scheduler :=
  let (s, weights) := assigned.foldl (loadAssigned policy) (s, ∅)
  let info := { SessionInfo.empty false with backendWeights := weights }
  subscribe frontend session { s with sessionTable := s.sessionTable.emplace session info }

/-- The reply of `LoadModel`: its status and, on success, the session's route. -/
abbrev LoadModelReply := CtrlStatus × Option ModelRouteProto

/-- `LoadModel(request, reply)`. -/
def loadModel (db : ModelDatabase) (request : LoadModelRequest) (s : Scheduler) :
    Option (LoadModelReply × Scheduler) :=
  let session := request.modelSession
  if db.hasModelInfo session = false then some ((.modelNotFound, none), s)
  else if request.nodeId ∉ s.frontends then some ((.ctrlServerNotRegistered, none), s)
  else if session ∈ s.sessionTable then
    (s.getModelRoute session).map fun route =>
      ((.ctrlOk, some route), subscribe request.nodeId session s)
  else
    match assignBackends policy s session request.estimateWorkload with
    | none => some ((.notEnoughBackends, none), s)
    | some assigned =>
      let s := commitSession policy request.nodeId session assigned s
      (s.getModelRoute session).map fun route => ((.ctrlOk, some route), s)

/-- What `LoadModel` can do: nothing, subscribe the frontend to a session that exists,
or commit a new session on the backends it assigned. -/
theorem loadModel_cases {db : ModelDatabase} {request : LoadModelRequest} {s s' : Scheduler}
    {reply : LoadModelReply} (h : s.loadModel policy db request = some (reply, s')) :
    s' = s ∨
      (request.modelSession ∈ s.sessionTable ∧
        s' = s.subscribe request.nodeId request.modelSession) ∨
      ∃ assigned, request.modelSession ∉ s.sessionTable ∧
        s.assignBackends policy request.modelSession request.estimateWorkload = some assigned ∧
        s' = s.commitSession policy request.nodeId request.modelSession assigned := by
  unfold loadModel at h
  dsimp only at h
  by_cases hinfo : db.hasModelInfo request.modelSession = false
  · rw [if_pos hinfo] at h; cases h; exact .inl rfl
  rw [if_neg hinfo] at h
  by_cases hfrontend : request.nodeId ∉ s.frontends
  · rw [if_pos hfrontend] at h; cases h; exact .inl rfl
  rw [if_neg hfrontend] at h
  by_cases hsession : request.modelSession ∈ s.sessionTable
  · rw [if_pos hsession] at h
    obtain ⟨route, -, h⟩ := Option.map_eq_some'.mp h
    cases h
    exact .inr (.inl ⟨hsession, rfl⟩)
  rw [if_neg hsession] at h
  cases hassigned : s.assignBackends policy request.modelSession request.estimateWorkload with
  | none => rw [hassigned] at h; cases h; exact .inl rfl
  | some assigned =>
    rw [hassigned] at h
    obtain ⟨route, -, h⟩ := Option.map_eq_some'.mp h
    cases h
    exact .inr (.inr ⟨assigned, hsession, rfl, rfl⟩)

/-- `ReportWorkload(request)`: each reported rate becomes the frontend's workload of
the session; the frontend must be registered and every session present. -/
def reportWorkload (request : WorkloadStats) (s : Scheduler) : Option Scheduler :=
  if request.nodeId ∈ s.frontends then
    request.modelStats.foldlM (fun s stats => s.atSession stats.1 fun info =>
      { info with workloads := info.workloads.insert request.nodeId stats.2 }) s
  else none

end Scheduler

end NexusLb.Sched
