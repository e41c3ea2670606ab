import NexusLb.Scheduler.Frame

/-!
# Backends that join and leave: sessions and static pins

`RegisterBackend` followed at once by `UnregisterBackend` of the same node id undoes
itself when the new backend takes nothing (no static workload waits, and no session
owes workload that `AllocateUnassignedWorkloads` would place on it); when a static
workload does wait, the `SessionInfo`s that the pinning creates outlive the backend.
`assigned_static_workloads_` maps each static workload id to the backend that runs it,
and each such backend carries the id as its `workload_id()`.  Every call but
`UnregisterBackend` keeps the two in agreement (`PinsAgree`), so until a backend leaves
they agree (`pins_agree_without_departures`); when an idle backend takes a pinned
backend's load over, the migration records the new pin with `emplace`, which keeps the
departed backend's entry.
-/

namespace NexusLb.Sched

namespace Scheduler

variable {cfg : Config} {policy : Policy} {db : ModelDatabase}

theorem allocateUnassignedWorkloads_of_settled {s : Scheduler} {changes : Changes}
    (hsettled : ∀ entry ∈ s.sessionTable.entries, entry.2.unassignedWorkload ≤ tolerance) :
    allocateUnassignedWorkloads policy s changes = some (s, changes) := by
  have howed : (s.sessionTable.entries.filter fun entry =>
      tolerance < entry.2.unassignedWorkload) = [] :=
    List.filter_eq_nil_iff.mpr fun entry hentry => by simpa using hsettled entry hentry
  simp [allocateUnassignedWorkloads, howed]

@[simp]
theorem updateModelTables_nil (s : Scheduler) : s.updateModelTables [] = s := by
  cases s; simp [updateModelTables]

@[simp]
theorem updateModelRoutes_nil (s : Scheduler) : s.updateModelRoutes [] = some s := by
  cases s; simp [updateModelRoutes]

/-- Which static workload waits depends on the pins only. -/
@[simp]
theorem unassignedStaticWorkload_setBackends (s : Scheduler)
    (backends : Table Nat BackendDelegate) :
    unassignedStaticWorkload cfg { s with backends := backends } = unassignedStaticWorkload cfg s :=
  rfl

theorem removeBackend_of_isIdle {departing : BackendDelegate} (hidle : departing.isIdle)
    (s : Scheduler) : removeBackend policy departing s = some s := by
  simp [removeBackend, hidle]

/-- With no static workload waiting and no workload owed, a backend that joins and
leaves at once leaves the scheduler as it found it. -/
theorem register_unregister_identity {σ : Scheduler} {info : BackendInfo}
    (hfresh : info.nodeId ∉ σ.backends) (hstatic : unassignedStaticWorkload cfg σ = none)
    (hsettled : ∀ entry ∈ σ.sessionTable.entries, entry.2.unassignedWorkload ≤ tolerance) :
    ((step cfg policy db σ (.registerBackend info)).bind fun s =>
      step cfg policy db s (.unregisterBackend info.nodeId)) = some σ := by
  let joined : Scheduler := { σ with backends := σ.backends.insert info.nodeId (.fresh info) }
  have hnothing :
      allocateUnassignedWorkloads policy joined ⟨[], []⟩ = some (joined, ⟨[], []⟩) :=
    allocateUnassignedWorkloads_of_settled hsettled
  have hjoin : step cfg policy db σ (.registerBackend info) = some joined := by
    simp [step, registerBackend, hfresh, addBackend, hstatic, joined, hnothing]
  rw [hjoin, Option.some_bind]
  simp only [step, unregisterBackend, joined, AList.lookup_insert, Option.bind_eq_bind,
    Option.some_bind, removeBackend_of_isIdle (show (BackendDelegate.fresh info).isIdle from rfl)]
  simp [BackendDelegate.nodeId, BackendDelegate.fresh, Table.erase_insert_of_not_mem hfresh]

theorem register_unregister_identity_pinned :
    2 ∉ pinnedState.backends ∧ unassignedStaticWorkload pinningConfig pinnedState = none ∧
      (∀ entry ∈ pinnedState.sessionTable.entries, entry.2.unassignedWorkload ≤ tolerance) ∧
      ((step pinningConfig pinningPolicy anyModel pinnedState
        (.registerBackend ⟨2, "gpu", "uuid-2"⟩)).bind
        fun s => step pinningConfig pinningPolicy anyModel s (.unregisterBackend 2)) =
        some pinnedState :=
  ⟨by decide, by decide, by decide,
    register_unregister_identity (by decide) (by decide) (by decide)⟩

/-- A backend that joins while a static workload waits, and leaves at once, leaves
behind the session of the workload: the keys of `session_table_` differ from the
start's. -/
theorem join_leave_keeps_static_session :
    1 ∉ init.backends ∧
      ((step pinningConfig pinningPolicy anyModel init (.registerBackend ⟨1, "gpu", "uuid-1"⟩)).bind
        fun s => step pinningConfig pinningPolicy anyModel s (.unregisterBackend 1)).map
        (fun s => s.sessionTable.keyList) = some ["s"] ∧
      init.sessionTable.keyList = [] := by
  decide

/-! ### Pins and workload ids -/

/-- `assigned_static_workloads_` pins each workload to a registered backend that carries
its id, and each registered backend that carries an id is the one its workload is
pinned to: the map is a bijection onto the pinned backends. -/
structure PinsAgree (s : Scheduler) : Prop where
  pinned : ∀ id b, s.assignedStaticWorkloads.lookup id = some b →
    ∃ backend, s.backends.lookup b = some backend ∧ backend.workloadId = id
  carried : ∀ b backend, s.backends.lookup b = some backend → 0 ≤ backend.workloadId →
    s.assignedStaticWorkloads.lookup backend.workloadId.toNat = some b

theorem PinsAgree.samePins {s s' : Scheduler} (hp : PinsAgree s) (h : SamePins s s') :
    PinsAgree s' := by
  constructor
  · intro id b hid
    obtain ⟨backend, hb, hid'⟩ := hp.pinned id b (h.pins ▸ hid)
    have := h.workloadIds b
    rw [hb, Option.map_some'] at this
    obtain ⟨backend', hb', hsame⟩ := Option.map_eq_some'.mp this
    exact ⟨backend', hb', hsame.trans hid'⟩
  · intro b backend' hb' hnonneg
    have := h.workloadIds b
    rw [hb', Option.map_some'] at this
    obtain ⟨backend, hb, hsame⟩ := Option.map_eq_some'.mp this.symm
    rw [h.pins, ← hsame]
    exact hp.carried b backend hb (hsame ▸ hnonneg)

theorem PinsAgree.init : PinsAgree init :=
  ⟨fun _ _ h => (by cases h), fun _ _ h => (by cases h)⟩

/-- A backend that holds no workload, registered at `b`, which no pin names. -/
theorem PinsAgree.insertUnpinned {s : Scheduler} (hp : PinsAgree s) {b : Nat}
    {backend : BackendDelegate} (hunpinned : ∀ id, s.assignedStaticWorkloads.lookup id ≠ some b)
    (hwid : backend.workloadId < 0) :
    PinsAgree { s with backends := s.backends.insert b backend } := by
  constructor
  · intro id b' hid
    obtain ⟨backend', hb, hwid'⟩ := hp.pinned id b' hid
    have hne : b' ≠ b := fun heq => hunpinned id (heq ▸ hid)
    exact ⟨backend', (AList.lookup_insert_ne hne).trans hb, hwid'⟩
  · intro b' backend' hb hnonneg
    by_cases hbn : b' = b
    · subst b'
      simp only [AList.lookup_insert, Option.some.injEq] at hb
      subst hb
      omega
    · exact hp.carried b' backend' ((AList.lookup_insert_ne hbn).symm.trans hb) hnonneg

/-- Static workload `id`, which no backend holds, pinned to backend `b`, which holds none. -/
theorem PinsAgree.pin {s : Scheduler} (hp : PinsAgree s) {id b : Nat}
    {backend : BackendDelegate} (hfree : id ∉ s.assignedStaticWorkloads)
    (hunpinned : ∀ id', s.assignedStaticWorkloads.lookup id' ≠ some b)
    (hwid : backend.workloadId = id) :
    PinsAgree { s with
      assignedStaticWorkloads := s.assignedStaticWorkloads.insert id b
      backends := s.backends.insert b backend } := by
  constructor
  · intro id' b' hid
    by_cases hsame : id' = id
    · subst id'
      simp only [AList.lookup_insert, Option.some.injEq] at hid
      subst b'
      exact ⟨backend, AList.lookup_insert _, hwid⟩
    · rw [AList.lookup_insert_ne hsame] at hid
      obtain ⟨backend', hb, hwid'⟩ := hp.pinned id' b' hid
      have hne : b' ≠ b := fun heq => hunpinned id' (heq ▸ hid)
      exact ⟨backend', (AList.lookup_insert_ne hne).trans hb, hwid'⟩
  · intro b' backend' hb hnonneg
    by_cases hbn : b' = b
    · subst b'
      simp only [AList.lookup_insert, Option.some.injEq] at hb
      subst hb
      rw [hwid, Int.toNat_ofNat]
      exact AList.lookup_insert _
    · rw [AList.lookup_insert_ne hbn] at hb
      have hcarried := hp.carried b' backend' hb hnonneg
      have hne : backend'.workloadId.toNat ≠ id := fun heq =>
        hfree (AList.lookup_isSome.mp (by rw [← heq, hcarried]; rfl))
      exact (AList.lookup_insert_ne hne).trans hcarried

/-! The frontend handlers and `LoadModel` change subscriptions, never pins. -/

section Frontends

theorem samePins_loadModel {db : ModelDatabase} {request : LoadModelRequest} {s s' : Scheduler}
    {reply : LoadModelReply} (h : s.loadModel policy db request = some (reply, s')) :
    SamePins s s' := by
  rcases loadModel_cases policy h with rfl | ⟨-, rfl⟩ | ⟨assigned, -, -, rfl⟩
  · exact .refl _
  · exact .of_backends rfl rfl
  · exact (Untouched.foldl untouched_loadAssigned (s, ∅)).samePins.trans
      (.of_backends rfl rfl)

theorem samePins_foldlM_unloadFrom {session : String} {bs : List Nat}
    {acc acc' : Scheduler × List Nat} (h : bs.foldlM (unloadFrom session) acc = some acc') :
    SamePins acc.1 acc'.1 :=
  foldlM_invariant (fun acc' : Scheduler × List Nat => SamePins acc.1 acc'.1)
    (fun _ _ _ _ hacc hstep => by
      obtain rfl := unloadFrom_eq_some hstep
      exact hacc.trans (SamePins.modifyBackend (BackendDelegate.workloadId_unloadModel _)))
    (.refl _) h

theorem samePins_removeFrontend {frontend : Nat} {subscriptions : List String} {s s' : Scheduler}
    (h : removeFrontend frontend subscriptions s = some s') : SamePins s s' := by
  obtain ⟨⟨s1, updated⟩, hloop, h⟩ := Option.bind_eq_some.mp h
  cases h
  refine (foldlM_invariant (fun acc : Scheduler × List Nat => SamePins s acc.1)
    (fun acc session acc' _ hacc hstep => hacc.trans ?_) (.refl s) hloop).trans
    (.of_backends rfl rfl)
  obtain ⟨info, -, hstep⟩ := Option.bind_eq_some.mp hstep
  simp only [SessionInfo.unsubscribe] at hstep
  split at hstep
  · obtain ⟨⟨s2, updated⟩, hunload, hstep⟩ := Option.bind_eq_some.mp hstep
    cases hstep
    exact SamePins.trans (by exact .of_backends rfl rfl)
      ((samePins_foldlM_unloadFrom hunload).trans (.of_backends rfl rfl))
  · cases hstep; exact .of_backends rfl rfl

theorem samePins_registerFrontend {s s' : Scheduler} {frontend : Nat}
    (h : registerFrontend frontend s = some s') : SamePins s s' := by
  unfold Scheduler.registerFrontend at h
  split at h
  · cases h
  · cases h; exact .of_backends rfl rfl

theorem samePins_unregisterFrontend {s s' : Scheduler} {frontend : Nat}
    (h : unregisterFrontend frontend s = some s') : SamePins s s' := by
  obtain ⟨_, -, h⟩ := Option.bind_eq_some.mp h
  exact SamePins.trans (by exact .of_backends rfl rfl) (samePins_removeFrontend h)

end Frontends

/-- A joining backend that no pin names keeps the pins in agreement: it is pinned to
the first workload no backend holds, or left unpinned. -/
theorem PinsAgree.registerBackend {s s' : Scheduler} (hp : PinsAgree s) {info : BackendInfo}
    (h : registerBackend cfg policy info s = some s') : PinsAgree s' := by
  unfold Scheduler.registerBackend at h
  split at h
  · cases h
  rename_i hfresh
  have hunpinned : ∀ id, s.assignedStaticWorkloads.lookup id ≠ some info.nodeId := by
    intro id hid
    obtain ⟨_, hb, -⟩ := hp.pinned id _ hid
    exact hfresh (AList.lookup_isSome.mp (by rw [hb]; rfl))
  have hp1 : PinsAgree { s with backends := s.backends.insert info.nodeId (.fresh info) } :=
    hp.insertUnpinned hunpinned (show (-1 : Int) < 0 by decide)
  unfold Scheduler.addBackend at h
  dsimp only at h
  split at h
  · rename_i id hid
    obtain ⟨⟨s2, changes⟩, hpin, h⟩ := Option.bind_eq_some.mp h
    have hfree : id ∉ s.assignedStaticWorkloads := by simpa using List.find?_some hid
    have hp2 := (hp1.pin hfree hunpinned (workloadId_loadStaticWorkload cfg policy _ id)).samePins
      (untouched_pinStaticWorkload (.fresh info) id
        { s with backends := s.backends.insert info.nodeId (.fresh info) }).samePins
    rw [Option.some.inj hpin] at hp2
    exact hp2.samePins (SamePins.publish h)
  · obtain ⟨⟨s2, changes⟩, halloc, h⟩ := Option.bind_eq_some.mp h
    exact (hp1.samePins (untouched_allocateUnassignedWorkloads halloc).samePins).samePins
      (SamePins.publish h)

/-! ### Runs in which no backend leaves -/

/-- `UnregisterBackend`, the one call that takes a backend away. -/
def Action.removesBackend : Action → Bool
  | .unregisterBackend _ => true
  | _ => false

/-- Every call but `UnregisterBackend` keeps the pins in agreement. -/
theorem PinsAgree.step {s s' : Scheduler} (hp : PinsAgree s) {action : Action}
    (hstay : action.removesBackend = false) (h : step cfg policy db s action = some s') :
    PinsAgree s' := by
  cases action with
  | registerFrontend frontend => exact hp.samePins (samePins_registerFrontend h)
  | registerBackend info => exact hp.registerBackend h
  | unregisterFrontend frontend => exact hp.samePins (samePins_unregisterFrontend h)
  | unregisterBackend b => cases hstay
  | loadModel request =>
    obtain ⟨⟨reply, s'⟩, hload, rfl⟩ := Option.map_eq_some'.mp h
    exact hp.samePins (samePins_loadModel hload)
  | reportWorkload request => exact hp.samePins (untouched_reportWorkload h).samePins
  | beaconCheck =>
    obtain ⟨⟨trigger, s'⟩, hbeacon, rfl⟩ := Option.map_eq_some'.mp h
    exact hp.samePins (untouched_beaconCheck hbeacon).samePins
  | epochSchedule => exact hp.samePins (untouched_epochSchedule h).samePins

/-- A run with no `UnregisterBackend` keeps the pins in agreement. -/
theorem PinsAgree.run {s s' : Scheduler} (hp : PinsAgree s) {actions : List Action}
    (hstay : ∀ action ∈ actions, action.removesBackend = false)
    (h : run cfg policy db s actions = some s') : PinsAgree s' := by
  induction actions generalizing s with
  | nil => cases h; exact hp
  | cons action actions ih =>
    obtain ⟨s1, hstep, hrest⟩ := Option.bind_eq_some.mp h
    exact ih (hp.step (hstay action (.head _)) hstep) (fun a ha => hstay a (.tail _ ha)) hrest

/-- Until a backend leaves, each entry of `assigned_static_workloads_` names a registered
backend that runs that workload, and each backend that runs a static workload is the
one its entry names. -/
theorem pins_agree_without_departures {actions : List Action} {s : Scheduler}
    (hstay : ∀ action ∈ actions, action.removesBackend = false)
    (h : run cfg policy db init actions = some s) : PinsAgree s :=
  PinsAgree.init.run hstay h

theorem pins_agree_without_departures_pinned :
    PinsAgree pinnedState ∧ pinnedState.assignedStaticWorkloads.lookup 0 = some 1 :=
  ⟨pins_agree_without_departures (by decide)
    (show run pinningConfig pinningPolicy anyModel init
      [.registerBackend ⟨1, "gpu", "uuid-1"⟩] = some pinnedState from rfl), by decide⟩

/-! ### The pin of a migrated static workload -/

/-- Backend `1` is pinned to the static workload, idle backend `2` joins, and backend
`1` leaves: `RemoveBackend` hands its load to backend `2` through `Assign`. -/
def migratedState : Scheduler :=
  (run pinningConfig pinningPolicy anyModel init
    [.registerBackend ⟨1, "gpu", "uuid-1"⟩, .registerBackend ⟨2, "gpu", "uuid-2"⟩,
      .unregisterBackend 1]).getD init

/-- After the migration backend `2` runs static workload `0`, but
`assigned_static_workloads_` still pins `0` to backend `1`, which is gone. -/
theorem static_workload_pinned_to_departed_backend :
    Reachable pinningConfig pinningPolicy anyModel migratedState ∧
      migratedState.assignedStaticWorkloads.lookup 0 = some 1 ∧ 1 ∉ migratedState.backends ∧
      (migratedState.backends.lookup 2).map BackendDelegate.workloadId = some 0 :=
  ⟨reachable_getD_run _ _ _ (by decide), by decide⟩

end Scheduler

end NexusLb.Sched
