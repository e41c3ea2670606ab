import NexusLb.Basic

/-!
# The DRR route table

`ModelRoute` is the dispatcher's per-session selector: deficit round robin over
the backends of one route, each with a quantum kept by node id.  `update` embeds
`ModelRoute::Update`, which replaces the backend list but keeps the quanta of the
backends that survive and tries to keep the pointer on the backend it was on.
`getBackend` embeds `ModelRoute::GetBackend`, one `probe` per loop iteration, with
its three ways of failing kept as `DrrFault`s.
-/

namespace NexusLb

/-- `std::numeric_limits<double>::max()`, the seed of the minimum in `Update`. -/
def doubleMax : ℚ := (2 - (1 / 2) ^ 52) * 2 ^ 1023

/-- The dispatcher's route table of one model session (`class ModelRoute`). -/
structure ModelRoute where
  modelSessionId : String
  backends : List BackendRate
  totalThroughput : ℚ
  minRate : ℚ
  /-- `backend_quanta_`, an `unordered_map` keyed by node id. -/
  backendQuanta : Nat → Option ℚ
  currentDrrIndex : Nat

/-- How `ModelRoute::GetBackend` can fail. -/
inductive DrrFault
  /-- `backends_[current_drr_index_]` reads past the end of the vector. -/
  | indexOutOfRange
  /-- `backend_quanta_.at(backend_id)` throws `std::out_of_range`. -/
  | quantumMissing
  /-- `CHECK_LE(i, backends_.size()) << "DRR could not decide."` fires. -/
  | couldNotDecide
  deriving DecidableEq, Repr

namespace ModelRoute

/-- The node ids of a backend list, in order. -/
def nodeIds (backends : List BackendRate) : List Nat :=
  backends.map (·.info.nodeId)

/-- The node id under `current_drr_index_`, or `0` when there are no backends. -/
def currentDrrBackendId (r : ModelRoute) : Nat :=
  match r.backends[r.currentDrrIndex]? with
  | some backend => backend.info.nodeId
  | none => 0

/-- `backend_quanta_.emplace(backend_id, rate)`. -/
def emplaceQuantum (quanta : Nat → Option ℚ) (backend : BackendRate) : Nat → Option ℚ :=
  fun id =>
    if id = backend.info.nodeId then
      match quanta id with
      | some quantum => some quantum
      | none => some backend.throughput
    else quanta id

/-- `backend_idx[id]`: the position of the first backend with that node id. -/
def backendIdx (backends : List BackendRate) (id : Nat) : Option Nat :=
  backends.findIdx? (·.info.nodeId = id)

/-- `ModelRoute::Update(route)`. -/
def update (route : ModelRouteProto) (r : ModelRoute) : ModelRoute :=
  let backends := route.backendRate
  let quanta := backends.foldl emplaceQuantum r.backendQuanta
  { modelSessionId := route.modelSessionId
    backends := backends
    totalThroughput := backends.foldl (fun total backend => total + backend.throughput) 0
    minRate := backends.foldl (fun rate backend => min rate backend.throughput) doubleMax
    backendQuanta := fun id => if id ∈ nodeIds backends then quanta id else none
    currentDrrIndex :=
      match backendIdx backends r.currentDrrBackendId with
      | some index => index
      | none => if backends = [] then 0 else r.currentDrrIndex % backends.length }

/-- `backend_quanta_[id] = quantum` on a key that is present. -/
def setQuantum (r : ModelRoute) (id : Nat) (quantum : ℚ) : ModelRoute :=
  { r with backendQuanta := Function.update r.backendQuanta id (some quantum) }

/-- After a probe that found the quantum short: `backend_quanta_[backend_id] += rate`
and `current_drr_index_ = (current_drr_index_ + 1) % backends_.size()`. -/
def moveOn (r : ModelRoute) (backend : BackendRate) (quantum : ℚ) : ModelRoute :=
  { r.setQuantum backend.info.nodeId (quantum + backend.throughput) with
    currentDrrIndex := (r.currentDrrIndex + 1) % r.backends.length }

/-- One iteration of the loop of `ModelRoute::GetBackend`: `some` the backend it
returns, or `none` after it credited the backend's rate and moved the pointer on. -/
def probe (r : ModelRoute) : Except DrrFault (Option BackendInfo × ModelRoute) :=
  match r.backends[r.currentDrrIndex]? with
  | none => .error .indexOutOfRange
  | some backend =>
    match r.backendQuanta backend.info.nodeId with
    | none => .error .quantumMissing
    | some quantum =>
      if r.minRate ≤ quantum then
        .ok (some backend.info, r.setQuantum backend.info.nodeId (quantum - r.minRate))
      else
        .ok (none, r.moveOn backend quantum)

/-- The loop of `ModelRoute::GetBackend`, allowed `checks` more unsuccessful probes:
the next unsuccessful probe after those fails the `CHECK_LE`.  So
`getBackendLoop k` returns within at most `k + 1` probes or fails. -/
def getBackendLoop : Nat → ModelRoute → Except DrrFault (BackendInfo × ModelRoute)
  | checks, r =>
    match r.probe, checks with
    | .error fault, _ => .error fault
    | .ok (some info, r'), _ => .ok (info, r')
    | .ok (none, _), 0 => .error .couldNotDecide
    | .ok (none, r'), checks + 1 => getBackendLoop checks r'

/-- `ModelRoute::GetBackend()`.  The check `CHECK_LE(i, backends_.size())` passes
for the unsuccessful probes `i = 0, …, size`, so `size + 1` of them are allowed. -/
def getBackend (r : ModelRoute) : Except DrrFault (BackendInfo × ModelRoute) :=
  getBackendLoop (r.backends.length + 1) r

/-- `k` consecutive calls of `GetBackend`, with the backends they return in order. -/
def getBackendRun : Nat → ModelRoute → Except DrrFault (List BackendInfo × ModelRoute)
  | 0, r => .ok ([], r)
  | k + 1, r =>
    match r.getBackend with
    | .error fault => .error fault
    | .ok (info, r') =>
      match getBackendRun k r' with
      | .error fault => .error fault
      | .ok (infos, r'') => .ok (info :: infos, r'')

/-! ## Small lemmas -/

@[simp] theorem setQuantum_backends (r : ModelRoute) (id : Nat) (q : ℚ) :
    (r.setQuantum id q).backends = r.backends := rfl

@[simp] theorem setQuantum_minRate (r : ModelRoute) (id : Nat) (q : ℚ) :
    (r.setQuantum id q).minRate = r.minRate := rfl

@[simp] theorem setQuantum_currentDrrIndex (r : ModelRoute) (id : Nat) (q : ℚ) :
    (r.setQuantum id q).currentDrrIndex = r.currentDrrIndex := rfl

@[simp] theorem setQuantum_backendQuanta (r : ModelRoute) (id : Nat) (q : ℚ) :
    (r.setQuantum id q).backendQuanta = Function.update r.backendQuanta id (some q) := rfl

@[simp] theorem moveOn_backends (r : ModelRoute) (backend : BackendRate) (q : ℚ) :
    (r.moveOn backend q).backends = r.backends := rfl

@[simp] theorem moveOn_minRate (r : ModelRoute) (backend : BackendRate) (q : ℚ) :
    (r.moveOn backend q).minRate = r.minRate := rfl

@[simp] theorem moveOn_currentDrrIndex (r : ModelRoute) (backend : BackendRate) (q : ℚ) :
    (r.moveOn backend q).currentDrrIndex = (r.currentDrrIndex + 1) % r.backends.length := rfl

@[simp] theorem moveOn_backendQuanta (r : ModelRoute) (backend : BackendRate) (q : ℚ) :
    (r.moveOn backend q).backendQuanta =
      Function.update r.backendQuanta backend.info.nodeId (some (q + backend.throughput)) := rfl

@[simp] theorem update_backends (route : ModelRouteProto) (r : ModelRoute) :
    (r.update route).backends = route.backendRate := rfl

@[simp] theorem update_minRate (route : ModelRouteProto) (r : ModelRoute) :
    (r.update route).minRate =
      route.backendRate.foldl (fun rate backend => min rate backend.throughput) doubleMax := rfl

/-- Everything one probe can do: it reads the backend under the pointer and its
quantum, then either returns the backend after paying `min_rate_`, or credits the
backend's rate and moves the pointer on. -/
theorem probe_cases {r r' : ModelRoute} {out : Option BackendInfo}
    (h : r.probe = .ok (out, r')) :
    ∃ backend quantum, r.backends[r.currentDrrIndex]? = some backend ∧
      r.backendQuanta backend.info.nodeId = some quantum ∧
      ((r.minRate ≤ quantum ∧ out = some backend.info ∧
          r' = r.setQuantum backend.info.nodeId (quantum - r.minRate)) ∨
        (quantum < r.minRate ∧ out = none ∧ r' = r.moveOn backend quantum)) := by
  unfold probe at h
  split at h
  · cases h
  · rename_i backend hbackend
    split at h
    · cases h
    · rename_i quantum hquantum
      refine ⟨backend, quantum, hbackend, hquantum, ?_⟩
      split at h
      · cases h
        exact .inl ⟨‹_›, rfl, rfl⟩
      · cases h
        exact .inr ⟨lt_of_not_le ‹_›, rfl, rfl⟩

theorem getBackendLoop_of_probe_error {checks : Nat} {r : ModelRoute} {fault : DrrFault}
    (h : r.probe = .error fault) : getBackendLoop checks r = .error fault := by
  rw [getBackendLoop.eq_def]; simp [h]

theorem getBackendLoop_of_probe_some {checks : Nat} {r r' : ModelRoute} {info : BackendInfo}
    (h : r.probe = .ok (some info, r')) : getBackendLoop checks r = .ok (info, r') := by
  rw [getBackendLoop.eq_def]; simp [h]

theorem getBackendLoop_zero_of_probe_none {r r' : ModelRoute}
    (h : r.probe = .ok (none, r')) : getBackendLoop 0 r = .error .couldNotDecide := by
  rw [getBackendLoop.eq_def]; simp [h]

theorem getBackendLoop_succ_of_probe_none {checks : Nat} {r r' : ModelRoute}
    (h : r.probe = .ok (none, r')) : getBackendLoop (checks + 1) r = getBackendLoop checks r' := by
  rw [getBackendLoop.eq_def]; simp [h]

/-- When the backend under the pointer has at least `min_rate_` left, `GetBackend`
returns it at once and charges it `min_rate_`. -/
theorem getBackend_of_quantum {r : ModelRoute} {backend : BackendRate} {quantum : ℚ}
    (hb : r.backends[r.currentDrrIndex]? = some backend)
    (hq : r.backendQuanta backend.info.nodeId = some quantum) (hle : r.minRate ≤ quantum) :
    r.getBackend = .ok (backend.info, r.setQuantum backend.info.nodeId (quantum - r.minRate)) :=
  getBackendLoop_of_probe_some (by simp [probe, hb, hq, hle])

/-- Induction along the probes of one call: a property of the table and of the
backends returned so far, kept by every probe, holds when the call returns. -/
theorem getBackendLoop_induction (motive : ModelRoute → List BackendInfo → Prop)
    (none_step : ∀ r r' infos, motive r infos → r.probe = .ok (none, r') → motive r' infos)
    (some_step : ∀ r r' infos info,
      motive r infos → r.probe = .ok (some info, r') → motive r' (infos ++ [info]))
    {checks : Nat} {r r' : ModelRoute} {info : BackendInfo} (infos : List BackendInfo)
    (h : getBackendLoop checks r = .ok (info, r')) (hr : motive r infos) :
    motive r' (infos ++ [info]) := by
  induction checks generalizing r with
  | zero =>
    rcases hp : r.probe with fault | ⟨_ | info', r''⟩
    · rw [getBackendLoop_of_probe_error hp] at h; cases h
    · rw [getBackendLoop_zero_of_probe_none hp] at h; cases h
    · rw [getBackendLoop_of_probe_some hp] at h; cases h; exact some_step _ _ _ _ hr hp
  | succ checks ih =>
    rcases hp : r.probe with fault | ⟨_ | info', r''⟩
    · rw [getBackendLoop_of_probe_error hp] at h; cases h
    · rw [getBackendLoop_succ_of_probe_none hp] at h; exact ih h (none_step _ _ _ hr hp)
    · rw [getBackendLoop_of_probe_some hp] at h; cases h; exact some_step _ _ _ _ hr hp

/-- A loop that returned with `k` unsuccessful probes allowed returns the same with
one more allowed: the bound only matters when it is reached. -/
theorem getBackendLoop_succ_of_ok {checks : Nat} {r r' : ModelRoute} {info : BackendInfo}
    (h : getBackendLoop checks r = .ok (info, r')) :
    getBackendLoop (checks + 1) r = .ok (info, r') := by
  induction checks generalizing r with
  | zero =>
    rcases hp : r.probe with fault | ⟨_ | info', r''⟩
    · rw [getBackendLoop_of_probe_error hp] at h; cases h
    · rw [getBackendLoop_zero_of_probe_none hp] at h; cases h
    · rwa [getBackendLoop_of_probe_some hp] at h ⊢
  | succ checks ih =>
    rcases hp : r.probe with fault | ⟨_ | info', r''⟩
    · rw [getBackendLoop_of_probe_error hp] at h; cases h
    · rw [getBackendLoop_succ_of_probe_none hp] at h ⊢; exact ih h
    · rwa [getBackendLoop_of_probe_some hp] at h ⊢

/-- `GetBackend` keeps the backend list and returns one of its backends. -/
theorem getBackendLoop_mem {checks : Nat} {r r' : ModelRoute} {info : BackendInfo}
    (h : getBackendLoop checks r = .ok (info, r')) :
    r'.backends = r.backends ∧ info.nodeId ∈ nodeIds r.backends := by
  refine (getBackendLoop_induction
    (fun r' infos => r'.backends = r.backends ∧ ∀ i ∈ infos, i.nodeId ∈ nodeIds r.backends)
    (fun _ _ _ hr hp => ?_) (fun _ _ _ _ hr hp => ?_) [] h ⟨rfl, by simp⟩).imp_right
    fun hall => hall info (by simp)
  · obtain ⟨_, _, -, -, ⟨-, hout, -⟩ | ⟨-, -, rfl⟩⟩ := probe_cases hp
    · cases hout
    · exact hr
  · obtain ⟨backend, _, hb, -, ⟨-, hout, rfl⟩ | ⟨-, hout, -⟩⟩ := probe_cases hp
    · cases hout
      refine ⟨hr.1, fun i hi => ?_⟩
      rcases List.mem_append.mp hi with hi | hi
      · exact hr.2 i hi
      · rw [List.mem_singleton.mp hi, ← hr.1]
        exact List.mem_map_of_mem _ (List.getElem?_mem hb)
    · cases hout

end ModelRoute

end NexusLb
