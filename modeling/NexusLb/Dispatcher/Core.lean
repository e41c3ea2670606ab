import NexusLb.Drr.Route
import Mathlib.Data.Rat.Floor

/-!
# The dispatcher and its critical sections

`Dispatcher` holds the maps that `Dispatcher::mutex_` guards: frontends, backends, the
DRR route of each model session (by its canonical string id) and the session contexts.
Whatever a handler does under one `lock_guard` is one function, and whatever it does
between two locks (the model-loading loop of a backend registration, the
`UpdateBackendList` calls, the second half of `DispatchRequest`) is a continuation,
`Pending`, that the system resumes later; `System.step` runs one section, so the
reachable states of `System` are those of every interleaving of any number of
concurrent calls.  The calls the dispatcher makes on its delegates (`AddInstanceInfo`,
`SendLoadModelCommand`, `UpdateBackendList`, `EnqueueBatchPlan`) are recorded in order
in `effects`.
-/

namespace NexusLb.Dispatch

/-- The dispatcher's `InstanceInfo(model_session, backend_id, profile)`.

Modelled from the spec: `inst_info.h` is not part of the source; following the
spec's "InstanceInfo = (session, backend_id, profile view)" and the delayed
scheduler's `InstanceContext`, its `max_batch` is the profile's largest batch whose
latency fits the session's SLA. -/
structure InstanceInfo where
  modelSession : String
  backendId : Nat
  profile : ModelProfile
  maxBatch : Nat

/-- Builds the instance of a session on a backend from the profile found for it. -/
def InstanceInfo.make (db : ModelDatabase) (session : String) (backendId : Nat)
    (profile : ModelProfile) : InstanceInfo :=
  ⟨session, backendId, profile, profile.maxBatchWithFullBudget (db.latencySla session)⟩

/-- The dispatcher's view of one backend (`BackendDelegate`): its identity and the
instances added to it, keyed by session id. -/
structure BackendDelegate where
  info : BackendInfo
  instances : Table String InstanceInfo

/-- `BackendDelegate::AddInstanceInfo(model_sess_id, inst)`. -/
def BackendDelegate.addInstanceInfo (session : String) (inst : InstanceInfo)
    (backend : BackendDelegate) : BackendDelegate :=
  { backend with instances := backend.instances.insert session inst }

/-- The dispatcher's `ModelSessionContext`: the session and its instances, keyed by
backend node id. -/
structure ModelSessionContext where
  modelSession : String
  instances : Table Nat InstanceInfo

/-- `ModelSessionContext::AddInstanceInfo(backend_id, inst)`. -/
def ModelSessionContext.addInstanceInfo (backendId : Nat) (inst : InstanceInfo)
    (ctx : ModelSessionContext) : ModelSessionContext :=
  { ctx with instances := ctx.instances.insert backendId inst }

/-- The part of a `QueryProto` that the dispatcher reads or stamps. -/
structure Query where
  modelSessionId : String
  globalId : Nat
  frontendRecvNs : Nat
  dispatcherSchedNs : Nat
  dispatcherDispatchNs : Nat
  deriving DecidableEq

/-- `BatchPlanProto` as `DispatchRequest` builds it. -/
structure BatchPlan where
  planId : Nat
  modelSessionId : String
  queriesWithoutInput : List Query
  execTimeNs : Nat
  deadlineNs : Nat
  expectedFinishTimeNs : Int
  deriving DecidableEq

/-- A call the dispatcher makes on a delegate. -/
inductive Effect
  /-- `AddInstanceInfo(model_sess_id, inst)` on the delegate of node `backend`. -/
  | addInstanceInfo (backend : Nat) (session : String)
  /-- The RPC `SendLoadModelCommand(model_session, max_batch)` to node `backend`. -/
  | loadModelCommand (backend : Nat) (session : String) (maxBatch : Nat)
  /-- The RPC `UpdateBackendList(update)` to node `frontend`. -/
  | updateBackendList (frontend : Nat) (backends : List BackendInfo)
  /-- The RPC `EnqueueBatchPlan(plan)` to node `backend`. -/
  | enqueueBatchPlan (backend : Nat) (plan : BatchPlan)
  deriving DecidableEq

/-- The state guarded by `Dispatcher::mutex_`, the two atomic counters, and the
calls made so far.  A `FrontendDelegate` holds nothing a modelled function reads
besides its node id, the key of `frontends`. -/
structure Dispatcher where
  frontends : Table Nat Unit
  backends : Table Nat BackendDelegate
  models : Table String ModelRoute
  sessions : Table String ModelSessionContext
  nextGlobalId : Nat
  nextPlanId : Nat
  effects : List Effect

/-- A dispatcher that has just started. -/
def Dispatcher.init : Dispatcher := ⟨∅, ∅, ∅, ∅, 0, 0, []⟩

/-- How a dispatcher handler can bring the process down. -/
inductive Fault
  /-- `CHECK_EQ(models_.count(model_sess_id), 0)` fails in `HandleLoadModel`. -/
  | modelRouteExists
  /-- `GetBackend` fails inside `DispatchRequest`. -/
  | drr (fault : DrrFault)
  /-- `inst_info->profile()` dereferences the null `GetInstanceInfo` result. -/
  | missingInstanceInfo
  deriving DecidableEq

/-- A `ModelRoute()` as `models_[id] = ModelRoute()` creates it. -/
def freshRoute : ModelRoute := ⟨"", [], 0, 0, fun _ => none, 0⟩

namespace Dispatcher

variable (db : ModelDatabase)

/-! ## `HandleRegister` -/

/-- The first critical section of `HandleRegister` for a frontend. -/
def registerFrontend (frontend : Nat) (d : Dispatcher) : Except CtrlStatus Dispatcher :=
  if frontend ∈ d.frontends then .error .ctrlFrontendNodeIdConflict
  else .ok { d with frontends := d.frontends.insert frontend () }

/-- The first critical section of `HandleRegister` for a backend: the backend is
added and the call keeps its copy of `sessions_`, of which only the keys are read
again (the contexts are shared with the table). -/
def registerBackend (info : BackendInfo) (d : Dispatcher) :
    Except CtrlStatus (Dispatcher × List String) :=
  if info.nodeId ∈ d.backends then .error .ctrlBackendNodeIdConflict
  else .ok ({ d with backends := d.backends.insert info.nodeId ⟨info, ∅⟩ }, d.sessions.keyList)

/-- The backends' identities, as `update.add_backends()` copies them. -/
def backendInfos (d : Dispatcher) : List BackendInfo :=
  d.backends.entries.map fun entry => entry.2.info

/-- The body of both model-loading loops, for the session `session` whose context
is `sessions_[sessionKey]` and the backend whose delegate is `backends_[backendId]`:
`none` when the database has no profile for the session on the backend's GPU (the
reply becomes `CTRL_INVALID_LOAD_MODEL_REQUEST`); otherwise the instance is added to
the backend and to the session, and the backend is sent `LoadModel`. -/
def loadSession (backendId : Nat) (info : BackendInfo) (sessionKey session : String)
    (d : Dispatcher) : Option Dispatcher :=
  (db.profileOn info session).map fun profile =>
    let inst := InstanceInfo.make db session info.nodeId profile
    { d with
      backends := d.backends.modify backendId (BackendDelegate.addInstanceInfo session inst)
      sessions :=
        d.sessions.modify sessionKey (ModelSessionContext.addInstanceInfo info.nodeId inst)
      effects := d.effects ++ [.addInstanceInfo backendId session,
        .loadModelCommand backendId session inst.maxBatch] }

/-- One iteration of the loading loop of a backend registration, on the session of
its snapshot stored under `sessionKey`. -/
def loadFromSnapshot (info : BackendInfo) (sessionKey : String) (d : Dispatcher) :
    Dispatcher :=
  match d.sessions.lookup sessionKey with
  | none => d
  | some ctx => (d.loadSession db info.nodeId info sessionKey ctx.modelSession).getD d

/-! ## `HandleLoadModel` -/

/-- The route `HandleLoadModel` gives a new session: every registered backend, at
throughput `1` ("Adaptor to the old API"). -/
def loadModelRoute (d : Dispatcher) (session : String) : ModelRouteProto :=
  ⟨session, d.backends.entries.map fun entry => ⟨entry.2.info, 1⟩⟩

/-- One iteration of the loop of `HandleLoadModel` over `backends_`. -/
def loadOnBackend (session : String) (acc : CtrlStatus × Dispatcher)
    (entry : Σ _ : Nat, BackendDelegate) : CtrlStatus × Dispatcher :=
  match acc.2.loadSession db entry.1 entry.2.info session session with
  | none => (.ctrlInvalidLoadModelRequest, acc.2)
  | some d => (acc.1, d)

/-- `Dispatcher::HandleLoadModel`, one critical section. -/
def handleLoadModel (session : String) (d : Dispatcher) :
    Except Fault (CtrlStatus × Dispatcher) :=
  if !db.hasModelInfo session then .ok (.modelNotFound, d)
  else if session ∈ d.sessions then .ok (.ctrlOk, d)
  else if session ∈ d.models then .error .modelRouteExists
  else
    let d1 := { d with
      models := d.models.insert session (freshRoute.update (d.loadModelRoute session))
      sessions := d.sessions.insert session ⟨session, ∅⟩ }
    .ok (d1.backends.entries.foldl (loadOnBackend db session) (.ctrlOk, d1))

/-! ## `UpdateModelRoutes` -/

/-- One route of `Dispatcher::UpdateModelRoutes`: the table of its session, created
empty when missing, is updated. -/
def updateModelRoute (d : Dispatcher) (route : ModelRouteProto) : Dispatcher :=
  let r := (d.models.lookup route.modelSessionId).getD freshRoute
  { d with models := d.models.insert route.modelSessionId (r.update route) }

/-- `Dispatcher::UpdateModelRoutes`, one critical section. -/
def updateModelRoutes (routes : List ModelRouteProto) (d : Dispatcher) : Dispatcher :=
  routes.foldl updateModelRoute d

/-! ## `DispatchRequest` -/

/-- The critical section of `Dispatcher::DispatchRequest`, after the query was
stamped with `dispatcher_sched_ns` and its `global_id`: the reply status, and the
node id of the backend to send to if its delegate was found. -/
def dispatchLocked (query : Query) (d : Dispatcher) :
    Except Fault (CtrlStatus × Option Nat × Dispatcher) :=
  match d.models.lookup query.modelSessionId with
  | none => .ok (.modelNotFound, none, d)
  | some route =>
    match route.getBackend with
    | .error fault => .error (.drr fault)
    | .ok (info, route') =>
      let d' := { d with models := d.models.insert query.modelSessionId route' }
      .ok (.ctrlOk, if info.nodeId ∈ d.backends then some info.nodeId else none, d')

/-- The rest of `DispatchRequest`, outside the lock: the plan for one query, sent
to the backend.  `now` and `dispatchNs` are the two clock readings it takes. -/
def dispatchSend (backend : BackendDelegate) (query : Query) (now dispatchNs : Nat)
    (d : Dispatcher) : Except Fault Dispatcher :=
  match backend.instances.lookup query.modelSessionId with
  | none => .error .missingInstanceInfo
  | some inst =>
    let execTimeNs := now + 5000000
    let plan : BatchPlan :=
      { planId := d.nextPlanId
        modelSessionId := query.modelSessionId
        queriesWithoutInput := [{ query with dispatcherDispatchNs := dispatchNs }]
        execTimeNs := execTimeNs
        deadlineNs := query.frontendRecvNs + db.latencySla query.modelSessionId * 1000
        expectedFinishTimeNs :=
          Int.floor ((execTimeNs : ℚ) + inst.profile.forwardLatencyUs 1 * 1000) }
    .ok { d with
      nextPlanId := d.nextPlanId + 1
      effects := d.effects ++ [.enqueueBatchPlan backend.info.nodeId plan] }

end Dispatcher

/-! ## Interleaving -/

/-- A handler call between two of its critical sections. -/
inductive Pending
  /-- A registered frontend, before it takes the lock again to list the backends. -/
  | frontendListing (frontend : Nat)
  /-- A frontend registration about to send its `UpdateBackendList`. -/
  | frontendNotify (frontend : Nat) (backends : List BackendInfo)
  /-- A backend registration in its loading loop, with the keys of its snapshot of
  `sessions_` still to visit; with none left, it takes the lock to copy `frontends_`. -/
  | backendLoading (backend : BackendInfo) (sessions : List String)
  /-- A backend registration sending `UpdateBackendList` to the frontends left. -/
  | backendNotify (backend : BackendInfo) (frontends : List Nat)
  /-- A `DispatchRequest` that found the delegate of node `backend`, before it
  builds and sends the plan. -/
  | dispatchSend (backend : Nat) (query : Query)
  deriving DecidableEq

/-- The dispatcher with the calls in flight. -/
structure System where
  dispatcher : Dispatcher
  pending : List Pending

/-- A request arriving, or a call in flight moving on by one section. -/
inductive Action
  | registerFrontend (nodeId : Nat)
  | registerBackend (info : BackendInfo)
  | loadModel (session : String)
  | updateModelRoutes (routes : List ModelRouteProto)
  /-- A query arriving, with the clock reading `dispatcher_sched_ns`. -/
  | dispatchRequest (query : Query) (schedNs : Nat)
  /-- The call `call` moves on; `now` and `dispatchNs` are the clock readings
  that the second half of `DispatchRequest` takes. -/
  | resume (call : Pending) (now dispatchNs : Nat)

namespace System

variable (db : ModelDatabase)

/-- Runs the next section of a call in flight: the dispatcher after it, and the
call's continuation if it is not finished.  A delegate that a call holds is the
one in the table, since the dispatcher never removes delegates. -/
def resumeCall (now dispatchNs : Nat) (d : Dispatcher) :
    Pending → Option (Dispatcher × Option Pending)
  | .frontendListing frontend => some (d, some (.frontendNotify frontend d.backendInfos))
  | .frontendNotify frontend backends =>
    some ({ d with effects := d.effects ++ [.updateBackendList frontend backends] }, none)
  | .backendLoading info [] => some (d, some (.backendNotify info d.frontends.keyList))
  | .backendLoading info (sessionKey :: sessions) =>
    some (d.loadFromSnapshot db info sessionKey, some (.backendLoading info sessions))
  | .backendNotify _ [] => some (d, none)
  | .backendNotify info (frontend :: frontends) =>
    some ({ d with effects := d.effects ++ [.updateBackendList frontend [info]] },
      some (.backendNotify info frontends))
  | .dispatchSend backendId query =>
    match d.backends.lookup backendId with
    | none => none
    | some backend =>
      match d.dispatchSend db backend query now dispatchNs with
      | .error _ => none
      | .ok d' => some (d', none)

/-- One step of the system: a new call runs its first critical section, or a call
in flight moves on.  `none` when the step is not possible or brings the process
down. -/
def step (s : System) : Action → Option System
  | .registerFrontend frontend =>
    match s.dispatcher.registerFrontend frontend with
    | .error _ => some s
    | .ok d => some ⟨d, s.pending ++ [.frontendListing frontend]⟩
  | .registerBackend info =>
    match s.dispatcher.registerBackend info with
    | .error _ => some s
    | .ok (d, sessions) => some ⟨d, s.pending ++ [.backendLoading info sessions]⟩
  | .loadModel session =>
    match s.dispatcher.handleLoadModel db session with
    | .error _ => none
    | .ok (_, d) => some ⟨d, s.pending⟩
  | .updateModelRoutes routes => some ⟨s.dispatcher.updateModelRoutes routes, s.pending⟩
  | .dispatchRequest query schedNs =>
    let d := s.dispatcher
    let query := { query with globalId := d.nextGlobalId, dispatcherSchedNs := schedNs }
    match Dispatcher.dispatchLocked query { d with nextGlobalId := d.nextGlobalId + 1 } with
    | .error _ => none
    | .ok (_, backend, d') =>
      some ⟨d', s.pending ++ (backend.map fun b => .dispatchSend b query).toList⟩
  | .resume call now dispatchNs =>
    if call ∈ s.pending then
      (resumeCall db now dispatchNs s.dispatcher call).map fun (d, next) =>
        ⟨d, s.pending.erase call ++ next.toList⟩
    else none

/-- The system as the process starts. -/
def init : System := ⟨Dispatcher.init, []⟩

/-- The states reachable by any interleaving of the sections of any calls. -/
inductive Reachable : System → Prop
  | init : Reachable init
  | step {s s' : System} {action : Action} :
      Reachable s → step db s action = some s' → Reachable s'

/-- Runs a list of steps in order. -/
def run (s : System) : List Action → Option System
  | [] => some s
  | action :: actions => (step db s action).bind fun s' => run s' actions

theorem reachable_run {s s' : System} {actions : List Action} (hs : Reachable db s)
    (h : run db s actions = some s') : Reachable db s' := by
  induction actions generalizing s with
  | nil => cases h; exact hs
  | cons action actions ih =>
    simp only [run] at h
    cases hstep : step db s action with
    | none => simp [hstep] at h
    | some s1 => simp only [hstep, Option.bind_some] at h; exact ih (hs.step hstep) h

theorem run_append (s : System) (actions actions' : List Action) :
    run db s (actions ++ actions') = (run db s actions).bind fun s' => run db s' actions' := by
  induction actions generalizing s with
  | nil => rfl
  | cons action actions ih => rw [List.cons_append, run, run, Option.bind_assoc]; simp only [ih]

/-- A run from the start that does not stop ends in a reachable state. -/
theorem reachable_getD_run {actions : List Action} (h : (run db init actions).isSome) :
    Reachable db ((run db init actions).getD init) := by
  obtain ⟨s, hs⟩ := Option.isSome_iff_exists.mp h
  rw [hs]
  exact reachable_run db .init hs

end System

end NexusLb.Dispatch
