import NexusLb.Basic

/-!
# The global scheduler's view of a backend

`BackendDelegate` and `InstanceInfo` are not part of the repository, so this module
models them from the spec (section 3): a delegate holds one instance per model session
it serves, the static workload it is pinned to (`workload_id() ≥ 0`, `-1` when none) and
the sessions it backs up.  What the spec leaves open, the capacity arithmetic, the
weight an instance carries and the rates a spill-out reports, is a `Policy`, and every
result holds for every policy; a result that needs more of the delegate says so with
one of the predicates at the end of the module.
-/

namespace NexusLb.Sched

/-- Modelled from the spec: `InstanceInfo`, absent from src/; the model keeps the session
an instance serves and the rate it sustains at its planned batch. -/
structure InstanceInfo where
  modelSession : String
  throughput : ℚ
  deriving DecidableEq

/-- One entry of a static workload in the workload file: a model session, loaded as
an instance, or kept as a backup when flagged so. -/
structure StaticModel where
  modelSession : String
  backup : Bool
  deriving DecidableEq

/-- Modelled from the spec: `BackendDelegate`, absent from src/. -/
structure BackendDelegate where
  info : BackendInfo
  workloadId : Int
  models : Table String InstanceInfo
  backupModels : List String
  deriving DecidableEq

/-- A backend as its registration builds it: pinned to nothing, serving nothing. -/
def BackendDelegate.fresh (info : BackendInfo) : BackendDelegate := ⟨info, -1, ∅, []⟩

/-- Modelled from the spec: what the spec leaves open about `BackendDelegate` and
`InstanceInfo`, and how long the model runs `AllocateUnassignedWorkloads`' unbounded
placement loop. -/
structure Policy where
  /-- What `PrepareLoadModel(session, rate)` would place: the instance's throughput and
  the backend's occupancy with it, or nothing. -/
  placement : BackendDelegate → String → ℚ → Option (ℚ × ℚ)
  /-- `GetWeight()` of an instance. -/
  weight : InstanceInfo → ℚ
  /-- The throughput `UpdateModelThroughput(session, rate)` settles on. -/
  resize : BackendDelegate → String → ℚ → ℚ
  /-- The throughput of a statically configured instance on a GPU. -/
  staticThroughput : BackendInfo → String → ℚ
  /-- Whether an idle backend can take over all of another's load (`Assign`). -/
  fits : BackendDelegate → BackendDelegate → Bool
  /-- `Occupancy()`. -/
  occupancy : BackendDelegate → ℚ
  /-- `overload()`. -/
  overload : BackendDelegate → Bool
  /-- Whether `SpillOutWorkload` spills a session of an overloaded backend. -/
  spills : BackendDelegate → String → Bool
  /-- The rate `SpillOutWorkload` reports for a session it spills. -/
  spillRate : BackendDelegate → String → ℚ
  /-- How many passes of one session's placement loop the model runs; a run that needs
  more counts as not returning. -/
  passes : Nat

/-- Modelled from the spec: `InstanceInfo::GetWeight()`, the weight routes give an
instance; the spec lists it among an instance's derived fields without deriving it. -/
def InstanceInfo.getWeight (inst : InstanceInfo) (policy : Policy) : ℚ := policy.weight inst

namespace Policy

/-- `PrepareLoadModel` refuses a session the backend already serves. -/
def RefusesServed (policy : Policy) : Prop :=
  ∀ backend session rate, session ∈ backend.models → policy.placement backend session rate = none

/-- Every instance weighs its throughput: `GetWeight()` is `throughput`. -/
def WeighsThroughput (policy : Policy) : Prop :=
  ∀ inst, policy.weight inst = inst.throughput

/-- `view` cannot tell any instance's weight from its throughput. -/
def WeighsUnder (policy : Policy) (view : ℚ → ℚ) : Prop :=
  ∀ inst, view (policy.weight inst) = view inst.throughput

/-- Under `WeighsThroughput` the identity takes every weight to the instance's throughput,
as the exact records ask. -/
theorem WeighsThroughput.id_view {policy : Policy} (hweigh : policy.WeighsThroughput) :
    policy.WeighsUnder id :=
  hweigh

/-- `SpillOutWorkload` reports each session it spills at no less than the throughput the
backend served it at. -/
def SpillsServedRate (policy : Policy) : Prop :=
  ∀ backend session inst, backend.models.lookup session = some inst →
    policy.spills backend session = true → inst.throughput ≤ policy.spillRate backend session

end Policy

namespace BackendDelegate

variable (policy : Policy)

/-- Modelled from the spec: `node_id()`. -/
def nodeId (backend : BackendDelegate) : Nat := backend.info.nodeId

/-- Modelled from the spec: `IsIdle()`, the backend serves no session. -/
def isIdle (backend : BackendDelegate) : Bool := backend.models.entries.isEmpty

/-- Modelled from the spec: `GetModelSessions()`. -/
def getModelSessions (backend : BackendDelegate) : List String := backend.models.keyList

/-- Modelled from the spec: `GetBackupModelSessions()`. -/
def getBackupModelSessions (backend : BackendDelegate) : List String := backend.backupModels

/-- The rate at which the backend serves a session, if it serves it. -/
def rateOf (backend : BackendDelegate) (session : String) : Option ℚ :=
  (backend.models.lookup session).map InstanceInfo.throughput

/-- The weight of the backend's instance of a session, if it serves it. -/
def weightOf (backend : BackendDelegate) (session : String) : Option ℚ :=
  (backend.models.lookup session).map fun inst => inst.getWeight policy

/-- Modelled from the spec: `GetModelThroughput(session)`, zero for a session the
backend does not serve. -/
def getModelThroughput (backend : BackendDelegate) (session : String) : ℚ :=
  (backend.rateOf session).getD 0

/-- Modelled from the spec: `GetModelWeight(session)`, zero for a session the backend
does not serve. -/
def getModelWeight (backend : BackendDelegate) (session : String) : ℚ :=
  (backend.weightOf policy session).getD 0

/-- Modelled from the spec: `PrepareLoadModel(session, rate)`, "hypothetical placement
without committing": the instance the policy would place and the occupancy the backend
would reach with it. -/
def prepareLoadModel (backend : BackendDelegate) (session : String) (rate : ℚ) :
    Option (InstanceInfo × ℚ) :=
  (policy.placement backend session rate).map fun placed => (⟨session, placed.1⟩, placed.2)

/-- Modelled from the spec: `LoadModel(inst_info)`; the delegate holds one instance per
session, so a session already served keeps its instance. -/
def loadModel (inst : InstanceInfo) (backend : BackendDelegate) : BackendDelegate :=
  { backend with models := backend.models.emplace inst.modelSession inst }

/-- Modelled from the spec: `LoadModel(yaml_node)` for one entry of a static workload. -/
def loadStaticModel (model : StaticModel) (backend : BackendDelegate) : BackendDelegate :=
  if model.backup then
    { backend with backupModels := backend.backupModels.insert model.modelSession }
  else
    backend.loadModel ⟨model.modelSession, policy.staticThroughput backend.info model.modelSession⟩

/-- Modelled from the spec: `set_workload_id(id)`. -/
def setWorkloadId (id : Int) (backend : BackendDelegate) : BackendDelegate :=
  { backend with workloadId := id }

/-- Modelled from the spec: `UnloadModel(session)`. -/
def unloadModel (session : String) (backend : BackendDelegate) : BackendDelegate :=
  { backend with models := backend.models.erase session }

/-- Modelled from the spec: `UpdateModelThroughput(session, rate)`, the new throughput,
and the backend with the instance resized to it. -/
def updateModelThroughput (session : String) (rate : ℚ) (backend : BackendDelegate) :
    ℚ × BackendDelegate :=
  match backend.models.lookup session with
  | some inst =>
    let throughput := policy.resize backend session rate
    (throughput,
      { backend with
        models := backend.models.insert session { inst with throughput := throughput } })
  | none => (0, backend)

/-- Modelled from the spec: `Assign(other)` on an idle backend, "bulk reassign all of
other's instances to self if it fits"; the backend also takes the other's static pin and
backups. -/
def assign (backend other : BackendDelegate) : Option BackendDelegate :=
  if policy.fits backend other then
    some { backend with
      workloadId := other.workloadId
      models := other.models
      backupModels := other.backupModels }
  else none

/-- Modelled from the spec: `SpillOutWorkload(&spillout)`, the sessions spilled with the
rates reported for them, and the backend without them. -/
def spillOutWorkload (backend : BackendDelegate) : List (String × ℚ) × BackendDelegate :=
  let spilled := backend.models.entries.filter fun entry => policy.spills backend entry.1
  (spilled.map fun entry => (entry.1, policy.spillRate backend entry.1),
    { backend with
      models := spilled.foldl (fun models entry => models.erase entry.1) backend.models })

/-! ### The rate at which a backend serves a session, operation by operation -/

@[simp]
theorem getModelWeight_eq (backend : BackendDelegate) (session : String) :
    backend.getModelWeight policy session = (backend.weightOf policy session).getD 0 := rfl

@[simp]
theorem getModelThroughput_eq (backend : BackendDelegate) (session : String) :
    backend.getModelThroughput session = (backend.rateOf session).getD 0 := rfl

theorem rateOf_eq_none {backend : BackendDelegate} {session : String} :
    backend.rateOf session = none ↔ session ∉ backend.models := by
  simp [rateOf, AList.lookup_eq_none]

@[simp]
theorem rateOf_fresh (info : BackendInfo) (session : String) :
    (fresh info).rateOf session = none := rfl

theorem isIdle_iff {backend : BackendDelegate} :
    backend.isIdle ↔ ∀ session, backend.rateOf session = none := by
  simp only [isIdle, List.isEmpty_iff, rateOf_eq_none]
  constructor
  · intro h session hmem
    rw [AList.mem_keys, AList.keys, List.keys, h] at hmem
    exact List.not_mem_nil _ hmem
  · intro h
    exact List.eq_nil_iff_forall_not_mem.mpr fun entry hentry =>
      h entry.1 (AList.mem_keys.mpr (List.mem_map_of_mem _ hentry))

theorem mem_getModelSessions {backend : BackendDelegate} {session : String} :
    session ∈ backend.getModelSessions ↔ (backend.rateOf session).isSome := by
  simp [getModelSessions, rateOf, AList.lookup_isSome]

/-- A backend's rates, read from the sessions it lists and their throughputs. -/
theorem rateOf_eq_ite (backend : BackendDelegate) (session : String) :
    backend.rateOf session =
      if session ∈ backend.getModelSessions then some (backend.getModelThroughput session)
      else none := by
  split
  · obtain ⟨rate, hrate⟩ := Option.isSome_iff_exists.mp (mem_getModelSessions.mp ‹_›)
    simp [hrate]
  · exact Option.not_isSome_iff_eq_none.mp (mt mem_getModelSessions.mpr ‹_›)

/-- A backend's weights, read from the sessions it lists and their weights. -/
theorem weightOf_eq_ite (backend : BackendDelegate) (session : String) :
    backend.weightOf policy session =
      if session ∈ backend.getModelSessions then some (backend.getModelWeight policy session)
      else none := by
  by_cases hmem : session ∈ backend.getModelSessions <;>
    simp only [hmem, if_true, if_false, getModelWeight_eq] <;>
    cases hinst : backend.models.lookup session <;>
    simp_all [weightOf, mem_getModelSessions, rateOf]

/-- Under a `view` that takes every instance's weight to its throughput, a backend's
weights and rates look alike. -/
theorem weightOf_map {view : ℚ → ℚ} (hview : policy.WeighsUnder view)
    (backend : BackendDelegate) (session : String) :
    (backend.weightOf policy session).map view = (backend.rateOf session).map view := by
  simp only [weightOf, rateOf, Option.map_map]
  exact congrArg (Option.map · _) (funext hview)

/-- Under a `view` that takes every instance's weight to its throughput, the weight
`GetModelWeight` reads for a served session looks like the rate the backend serves it at. -/
theorem getModelWeight_map {view : ℚ → ℚ} (hview : policy.WeighsUnder view)
    {backend : BackendDelegate} {session : String} (hserved : (backend.rateOf session).isSome) :
    (some (backend.getModelWeight policy session)).map view =
      (backend.rateOf session).map view := by
  obtain ⟨inst, hinst⟩ := Option.isSome_iff_exists.mp (by simpa [rateOf] using hserved)
  simp [weightOf, rateOf, hinst, InstanceInfo.getWeight, hview _]

/-- When every instance weighs its throughput, `GetModelWeight` is `GetModelThroughput`. -/
theorem getModelWeight_of_weighs (hweigh : policy.WeighsThroughput) (backend : BackendDelegate)
    (session : String) :
    backend.getModelWeight policy session = backend.getModelThroughput session := by
  cases hinst : backend.models.lookup session <;>
    simp [weightOf, rateOf, hinst, InstanceInfo.getWeight, hweigh _]

/-- A prepared placement is an instance of the session asked for. -/
theorem prepareLoadModel_spec {backend : BackendDelegate} {session : String} {rate : ℚ}
    {inst : InstanceInfo} {occupancy : ℚ}
    (h : backend.prepareLoadModel policy session rate = some (inst, occupancy)) :
    inst.modelSession = session ∧ (policy.RefusesServed → backend.rateOf session = none) := by
  obtain ⟨placed, hplaced, hinst⟩ := Option.map_eq_some'.mp h
  cases hinst
  refine ⟨rfl, fun hrefuse => rateOf_eq_none.mpr fun hmem => ?_⟩
  rw [hrefuse backend session rate hmem] at hplaced
  cases hplaced

theorem rateOf_loadModel (inst : InstanceInfo) (backend : BackendDelegate) (session : String) :
    (backend.loadModel inst).rateOf session =
      (backend.rateOf session).or
        (if session = inst.modelSession then some inst.throughput else none) := by
  simp only [rateOf, loadModel, Table.lookup_emplace]
  cases backend.models.lookup session <;> split <;> simp

theorem rateOf_unloadModel (session : String) (backend : BackendDelegate) (session' : String) :
    (backend.unloadModel session).rateOf session' =
      if session' = session then none else backend.rateOf session' := by
  split
  · subst session'; simp [rateOf, unloadModel]
  · simp [rateOf, unloadModel, AList.lookup_erase_ne ‹_›]

/-- Unloading a session that a load has just added gives the backend back. -/
theorem unloadModel_loadModel {inst : InstanceInfo} {backend : BackendDelegate}
    (hfresh : backend.rateOf inst.modelSession = none) :
    (backend.loadModel inst).unloadModel inst.modelSession = backend := by
  have hnot := rateOf_eq_none.mp hfresh
  cases backend
  simp only [loadModel, unloadModel, Table.emplace, if_neg hnot, Table.erase_insert_of_not_mem hnot]

@[simp]
theorem workloadId_loadStaticModel (model : StaticModel) (backend : BackendDelegate) :
    (backend.loadStaticModel policy model).workloadId = backend.workloadId := by
  unfold loadStaticModel; split <;> rfl

@[simp]
theorem info_loadStaticModel (model : StaticModel) (backend : BackendDelegate) :
    (backend.loadStaticModel policy model).info = backend.info := by
  unfold loadStaticModel; split <;> rfl

theorem info_foldl_loadStaticModel (models : List StaticModel) (backend : BackendDelegate) :
    (models.foldl (fun backend model => backend.loadStaticModel policy model) backend).info =
      backend.info := by
  induction models generalizing backend with
  | nil => rfl
  | cons model models ih => rw [List.foldl_cons, ih, info_loadStaticModel]

@[simp]
theorem info_updateModelThroughput (session : String) (rate : ℚ) (backend : BackendDelegate) :
    (backend.updateModelThroughput policy session rate).2.info = backend.info := by
  unfold updateModelThroughput; split <;> rfl

/-- Resizing a served session changes its rate to the new throughput and nothing else;
resizing a session the backend does not serve changes nothing. -/
theorem rateOf_updateModelThroughput (session : String) (rate : ℚ) (backend : BackendDelegate)
    (session' : String) :
    (backend.updateModelThroughput policy session rate).2.rateOf session' =
      if session' = session ∧ (backend.rateOf session).isSome then
        some (backend.updateModelThroughput policy session rate).1
      else backend.rateOf session' := by
  unfold updateModelThroughput
  split
  · rename_i inst hinst
    by_cases hsession : session' = session
    · subst session'; simp [rateOf, hinst]
    · simp [rateOf, hsession, AList.lookup_insert_ne hsession]
  · simp_all [rateOf]

theorem rateOf_assign {other backend backend' : BackendDelegate}
    (h : backend.assign policy other = some backend') : backend'.rateOf = other.rateOf := by
  unfold assign at h
  split at h
  · cases h; rfl
  · cases h

theorem assign_spec {other backend backend' : BackendDelegate}
    (h : backend.assign policy other = some backend') :
    backend'.info = backend.info ∧ backend'.workloadId = other.workloadId ∧
      backend'.models = other.models ∧ backend'.backupModels = other.backupModels := by
  unfold assign at h
  split at h
  · cases h; exact ⟨rfl, rfl, rfl, rfl⟩
  · cases h

private theorem lookup_foldl_erase (entries : List (Σ _ : String, InstanceInfo))
    (models : Table String InstanceInfo) (session : String) :
    (entries.foldl (fun models entry => models.erase entry.1) models).lookup session =
      if session ∈ entries.map Sigma.fst then none else models.lookup session := by
  induction entries generalizing models with
  | nil => simp
  | cons entry entries ih =>
    rw [List.foldl_cons, ih]
    by_cases hsession : session = entry.1
    · subst hsession; simp
    · rw [AList.lookup_erase_ne hsession]
      split_ifs <;> simp_all

/-- A spill-out drops exactly the sessions it reports. -/
theorem rateOf_spillOutWorkload (backend : BackendDelegate) (session : String) :
    (backend.spillOutWorkload policy).2.rateOf session =
      if session ∈ (backend.spillOutWorkload policy).1.map Prod.fst then none
      else backend.rateOf session := by
  simp only [spillOutWorkload, rateOf, lookup_foldl_erase, List.map_map]
  split_ifs <;> simp_all [Function.comp_def]

@[simp]
theorem info_spillOutWorkload (backend : BackendDelegate) :
    (backend.spillOutWorkload policy).2.info = backend.info := rfl

@[simp]
theorem workloadId_spillOutWorkload (backend : BackendDelegate) :
    (backend.spillOutWorkload policy).2.workloadId = backend.workloadId := rfl

@[simp]
theorem workloadId_updateModelThroughput (session : String) (rate : ℚ)
    (backend : BackendDelegate) :
    (backend.updateModelThroughput policy session rate).2.workloadId = backend.workloadId := by
  unfold updateModelThroughput; split <;> rfl

@[simp]
theorem workloadId_unloadModel (session : String) (backend : BackendDelegate) :
    (backend.unloadModel session).workloadId = backend.workloadId := rfl

@[simp]
theorem workloadId_loadModel (inst : InstanceInfo) (backend : BackendDelegate) :
    (backend.loadModel inst).workloadId = backend.workloadId := rfl

end BackendDelegate

end NexusLb.Sched
