import NexusLb.Scheduler.Rates

/-!
# Recorded weights agree with the backends

Every handler keeps `Consistent view` for each `view` under which an instance's weight
looks like its throughput: the paths that write weights (`LoadModel`'s commit,
`AddBackend`'s static pinning, `AllocateUnassignedWorkloads`, `EpochSchedule`'s resizing,
`RemoveBackend`'s migration) record the weight or the throughput of an instance the
backend serves, and the paths that unload an instance drop its weight with it.  Under a
constant view this holds for every delegate: the backends a session's weights name are
registered and serve it (`weights_name_serving_backends`).  Under `id` it needs every
instance to weigh its throughput, and then each weight is the backend's `GetModelWeight`
(`recorded_weight_is_model_weight`); otherwise the migration, which records
`GetModelThroughput`, breaks it (`migration_records_throughput`).
-/

namespace NexusLb.Sched

/-- Two optional rates that look alike under `view` still do once each falls back on a
value that looks like the other's. -/
theorem map_or_congr {view : ℚ → ℚ} {r h x y : Option ℚ} (hrh : r.map view = h.map view)
    (hxy : x.map view = y.map view) : (r.or x).map view = (h.or y).map view := by
  cases r <;> cases h <;> simp_all

namespace Scheduler

variable {policy : Policy} {view : ℚ → ℚ}

/-- One placing pass of `AllocateUnassignedWorkloads`'s loop: the backend loads the
instance and the session records its weight. -/
def placeInstance (policy : Policy) (session : String) (b : Nat) (inst : InstanceInfo)
    (s : Scheduler) : Scheduler :=
  (s.modifyBackend b (BackendDelegate.loadModel inst)).modifySession session fun info =>
    { info with backendWeights := info.backendWeights.emplace b (inst.getWeight policy) }

namespace Consistent

variable {s s' : Scheduler}

/-- A pass of `AllocateUnassignedWorkloads`' placement loop keeps the records consistent:
a backend new to the session serves it and is recorded with its weight, and a backend
that served it already keeps its instance and its weight (both `emplace`s are ignored). -/
theorem place (hview : policy.WeighsUnder view)
    (hc : Consistent view s) {b : Nat} {session : String} {inst : InstanceInfo}
    (hb : b ∈ s.backends) (hinst : inst.modelSession = session)
    (hmem : session ∈ s.sessionTable) :
    Consistent view (placeInstance policy session b inst s) := by
  refine ⟨hc.keyed.modifyBackend fun _ => rfl, fun b' session' => ?_⟩
  rw [placeInstance,
    recordedRate_modify_emplace (s := s.modifyBackend b (BackendDelegate.loadModel inst))
    (fun _ => rfl) hmem, recordedRate_modifyBackend,
    hostedRate_modifySession, hostedRate_modify_loadModel inst hb]
  by_cases hsession : session' = session <;> by_cases hb' : b' = b
  · subst hsession hb'
    rw [if_pos rfl, if_pos rfl, if_pos rfl, if_pos hinst.symm]
    exact map_or_congr (hc.rates b' session') (by simp [InstanceInfo.getWeight, hview _])
  · rw [if_pos hsession, if_neg hb', if_neg hb', Option.or_none]
    exact hc.rates b' session'
  · have hother : session' ≠ inst.modelSession := hinst ▸ hsession
    rw [if_neg hsession, if_pos hb', if_neg hother, Option.or_none, hb']
    exact hc.rates b session'
  · rw [if_neg hsession, if_neg hb']
    exact hc.rates b' session'

/-- The placement loop of `AllocateUnassignedWorkloads` for one session keeps the
records consistent and every session in the table. -/
theorem allocateSession (hview : policy.WeighsUnder view)
    (hc : Consistent view s) {session : String} {fuel : Nat} {rate rate' : ℚ}
    {changes changes' : Changes} (hmem : session ∈ s.sessionTable)
    (h : Scheduler.allocateSession policy session fuel rate (s, changes) =
      some (rate', s', changes')) :
    Consistent view s' ∧ ∀ session', session' ∈ s.sessionTable → session' ∈ s'.sessionTable := by
  induction fuel generalizing rate s changes with
  | zero => cases h
  | succ fuel ih =>
    rw [Scheduler.allocateSession] at h
    split at h
    · cases hbest : findBestBackend policy s session rate [] with
      | none =>
        simp only [hbest, Option.elim_none, Option.some.injEq] at h
        cases h
        exact ⟨hc, fun _ => id⟩
      | some placed =>
        obtain ⟨b, inst⟩ := placed
        simp only [hbest, Option.elim_some] at h
        obtain ⟨backend, hb, -, -, -, hinst⟩ := findBestBackend_spec policy hbest
        obtain ⟨hc', hkeep⟩ :=
          ih (hc.place hview (AList.lookup_isSome.mp (by simp [hb])) hinst hmem)
          (by simpa [placeInstance] using hmem) h
        exact ⟨hc', fun session' hs => hkeep session' (by simpa [placeInstance] using hs)⟩
    · cases h; exact ⟨hc, fun _ => id⟩

/-- `AllocateUnassignedWorkloads` keeps the records consistent and every session in the
table. -/
theorem allocateUnassignedWorkloads (hview : policy.WeighsUnder view)
    (hc : Consistent view s) {changes changes' : Changes}
    (h : Scheduler.allocateUnassignedWorkloads policy s changes = some (s', changes')) :
    Consistent view s' ∧ ∀ session, session ∈ s.sessionTable → session ∈ s'.sessionTable := by
  dsimp only [Scheduler.allocateUnassignedWorkloads] at h
  split at h
  · cases h; exact ⟨hc, fun _ => id⟩
  · refine foldlM_invariant
      (fun acc : Scheduler × Changes => Consistent view acc.1 ∧
        ∀ session, session ∈ s.sessionTable → session ∈ acc.1.sessionTable)
      (fun acc entry acc' hentry hacc hpass => ?_) ⟨hc, fun _ => id⟩ h
    have howed := (List.perm_insertionSort _ _).subset hentry
    have hmem : entry.1 ∈ acc.1.sessionTable :=
      hacc.2 _ (AList.mem_keys.mpr (List.mem_map_of_mem Sigma.fst (List.mem_filter.mp howed).1))
    obtain ⟨⟨rate, s1, changes1⟩, hloop, hpass⟩ := Option.bind_eq_some.mp hpass
    obtain ⟨hc1, hkeep⟩ := hacc.1.allocateSession hview hmem hloop
    cases hpass
    exact ⟨hc1.modifySession fun _ => rfl, fun session hs => by simpa using hkeep _ (hacc.2 _ hs)⟩

/-- A loop that changes sessions but not their weights keeps the records consistent. -/
theorem foldl_modifySession (hc : Consistent view s) {α : Type} (l : List α) {key : α → String}
    {f : α → SessionInfo → SessionInfo}
    (hf : ∀ x info, (f x info).backendWeights = info.backendWeights) :
    Consistent view (l.foldl (fun s x => s.modifySession (key x) (f x)) s) := by
  induction l generalizing s with
  | nil => exact hc
  | cons x l ih => exact ih (hc.modifySession (hf x))

theorem registerFrontend (hc : Consistent view s) {frontend : Nat}
    (h : s.registerFrontend frontend = some s') : Consistent view s' := by
  unfold Scheduler.registerFrontend at h
  split at h
  · cases h
  · cases h; exact hc.congr rfl rfl

theorem reportWorkload (hc : Consistent view s) {request : WorkloadStats}
    (h : s.reportWorkload request = some s') : Consistent view s' := by
  unfold Scheduler.reportWorkload at h
  split at h
  · exact hc.foldlM_atSession h fun _ _ => rfl
  · cases h

theorem beaconCheck (hc : Consistent view s) {cfg : Config} {trigger : Bool}
    (h : s.beaconCheck cfg = some (trigger, s')) : Consistent view s' := by
  obtain ⟨_, -, h⟩ := Option.map_eq_some'.mp h
  cases h
  exact hc.foldl_modifySession _ fun _ _ => rfl

end Consistent

/-! ### `LoadModel` -/

/-- `LoadModel`'s commit: while the chosen backends load their instances of `session`,
the weights of the new session keep looking like the rates at which they serve it, and
nothing else moves. -/
theorem foldl_loadAssigned (hview : policy.WeighsUnder view)
    {session : String} :
    ∀ (assigned : List (Nat × InstanceInfo)) (acc : Scheduler × Table Nat ℚ),
      (∀ p ∈ assigned, p.1 ∈ acc.1.backends ∧ p.2.modelSession = session) →
      Keyed acc.1 → (∀ b, (acc.2.lookup b).map view = (acc.1.hostedRate b session).map view) →
      let acc' := assigned.foldl (loadAssigned policy) acc
      Keyed acc'.1 ∧ acc'.1.sessionTable = acc.1.sessionTable ∧
        (∀ b session', session' ≠ session →
          acc'.1.hostedRate b session' = acc.1.hostedRate b session') ∧
        ∀ b, (acc'.2.lookup b).map view = (acc'.1.hostedRate b session).map view
  | [], acc, _, hk, hweights => ⟨hk, rfl, fun _ _ _ => rfl, hweights⟩
  | (b, inst) :: assigned, acc, hassigned, hk, hweights => by
    simp only [List.foldl_cons]
    obtain ⟨hb, hinst⟩ := hassigned (b, inst) (List.mem_cons_self _ _)
    dsimp only at hb hinst
    have hrate := hostedRate_modify_loadModel inst hb
    obtain ⟨hk', htable, hother, hweights'⟩ :=
      foldl_loadAssigned hview assigned (loadAssigned policy acc (b, inst))
        (fun p hp => by simpa [loadAssigned] using hassigned p (List.mem_cons_of_mem _ hp))
        (hk.modifyBackend fun _ => rfl)
        (fun b' => by
          simp only [loadAssigned, hostedRate_updateModelTables, hrate, Table.lookup_emplace,
            hinst, ite_true]
          by_cases hb' : b' = b
          · rw [if_pos hb', if_pos hb', hb']
            exact map_or_congr (hweights b) (by simp [InstanceInfo.getWeight, hview _])
          · rw [if_neg hb', if_neg hb', Option.or_none]
            exact hweights b')
    refine ⟨hk', htable, fun b' session' hsession => ?_, hweights'⟩
    have hother_session : session' ≠ inst.modelSession := hinst ▸ hsession
    rw [hother b' session' hsession]
    simp only [loadAssigned, hostedRate_updateModelTables, hrate, if_neg hother_session,
      Option.or_none]
    split_ifs with hb'
    · rw [hb']
    · rfl

theorem Consistent.loadModel (hview : policy.WeighsUnder view)
    (hc : Consistent view s) {db : ModelDatabase} {request : LoadModelRequest}
    {reply : LoadModelReply} (h : s.loadModel policy db request = some (reply, s')) :
    Consistent view s' := by
  have hsubscribe : ∀ {s : Scheduler}, Consistent view s →
      Consistent view (s.subscribe request.nodeId request.modelSession) := fun hc =>
    hc.congr rfl (recordedRate_modify_of_weights rfl fun _ => rfl)
  rcases loadModel_cases policy h with rfl | ⟨-, rfl⟩ | ⟨assigned, hfresh, hassigned, rfl⟩
  · exact hc
  · exact hsubscribe hc
  have hnone : ∀ b, s.hostedRate b request.modelSession = none := fun b =>
    hc.recorded_eq_none.mp (by simp [recordedRate, AList.lookup_eq_none.mpr hfresh])
  obtain ⟨hk, htable, hother, hweights⟩ := foldl_loadAssigned hview assigned (s, ∅)
    (assignBackends_spec policy hassigned) hc.keyed (fun b => by simp [hnone])
  refine hsubscribe ⟨hk, fun b session => ?_⟩
  change _ = ((assigned.foldl (loadAssigned policy) (s, ∅)).1.hostedRate b session).map view
  by_cases hsession : session = request.modelSession
  · subst hsession
    simpa [recordedRate, htable, Table.lookup_emplace_self hfresh] using hweights b
  · rw [hother b session hsession]
    simp only [recordedRate, Table.lookup_emplace_ne hsession, htable]
    exact hc.rates b session

/-! ### `RemoveFrontend` -/

/-- The unloading loop of a session left without subscribers: the backends it visits
stop serving the session, and nothing else moves. -/
theorem foldlM_unloadFrom {session : String} :
    ∀ (bs : List Nat) (acc acc' : Scheduler × List Nat),
      bs.foldlM (unloadFrom session) acc = some acc' → Keyed acc.1 →
      Keyed acc'.1 ∧ acc'.1.sessionTable = acc.1.sessionTable ∧
        ∀ b session', acc'.1.hostedRate b session' =
          if b ∈ bs ∧ session' = session then none else acc.1.hostedRate b session'
  | [], acc, acc', h, hk => by cases h; exact ⟨hk, rfl, fun _ _ => by simp⟩
  | b :: bs, acc, acc', h, hk => by
    obtain ⟨acc1, hstep, h⟩ := Option.bind_eq_some.mp h
    obtain rfl := unloadFrom_eq_some hstep
    obtain ⟨hk', htable, hrate⟩ := foldlM_unloadFrom bs _ acc' h (hk.modifyBackend fun _ => rfl)
    refine ⟨hk', htable, fun b' session' => ?_⟩
    rw [hrate, hostedRate_modify_unloadModel]
    by_cases hsession : session' = session <;> by_cases hb : b' = b <;> simp [hsession, hb]

theorem Consistent.unsubscribeSession {frontend : Nat} {session : String}
    {acc acc' : Scheduler × List Nat} (hc : Consistent view acc.1)
    (h : unsubscribeSession frontend acc session = some acc') : Consistent view acc'.1 := by
  obtain ⟨info, hinfo, h⟩ := Option.bind_eq_some.mp h
  have hleft : acc.1.sessionTable.insert session (info.unsubscribe frontend).2 =
      acc.1.sessionTable.modify session fun info => (info.unsubscribe frontend).2 := by
    simp [Table.modify, hinfo]
  have hc1 : Consistent view { acc.1 with
      sessionTable := acc.1.sessionTable.insert session (info.unsubscribe frontend).2 } :=
    hc.congr rfl (recordedRate_modify_of_weights hleft fun _ => rfl)
  simp only [SessionInfo.unsubscribe] at h hc1
  split at h
  · obtain ⟨⟨s2, updated⟩, hloop, h⟩ := Option.bind_eq_some.mp h
    cases h
    obtain ⟨hk, htable, hrate⟩ := foldlM_unloadFrom _ _ _ hloop hc1.keyed
    refine ⟨hk, fun b session' => ?_⟩
    show (({ s2 with sessionTable := s2.sessionTable.erase session } : Scheduler).recordedRate b
      session').map view = (s2.hostedRate b session').map view
    rw [recordedRate_erase (s := s2) rfl, hrate]
    by_cases hsession : session' = session
    · subst session'
      by_cases hb : b ∈ info.backendWeights
      · simp [hb]
      · have hkey : b ∉ info.backendWeights.keyList := fun h => hb (Table.mem_keyList.mp h)
        rw [if_pos rfl, if_neg fun h => hkey h.1, ← hc1.rates]
        simp [recordedRate, AList.lookup_eq_none.mpr hb]
    · simp only [hsession, if_false, and_false]
      rw [recordedRate_congr htable]
      exact hc1.rates b session'
  · cases h; exact hc1

theorem Consistent.removeFrontend {s s' : Scheduler} (hc : Consistent view s) {frontend : Nat}
    {subscriptions : List String} (h : removeFrontend frontend subscriptions s = some s') :
    Consistent view s' := by
  obtain ⟨⟨s1, updated⟩, hloop, h⟩ := Option.bind_eq_some.mp h
  cases h
  exact (foldlM_invariant (fun acc : Scheduler × List Nat => Consistent view acc.1)
    (fun _ _ _ _ hacc hstep => hacc.unsubscribeSession hstep) hc hloop).updateModelTables _

theorem Consistent.unregisterFrontend {s s' : Scheduler} (hc : Consistent view s) {frontend : Nat}
    (h : unregisterFrontend frontend s = some s') : Consistent view s' := by
  obtain ⟨_, -, h⟩ := Option.bind_eq_some.mp h
  have hc1 : Consistent view { s with frontends := s.frontends.erase frontend } := hc.congr rfl rfl
  exact hc1.removeFrontend h

/-! ### `AddBackend` -/

section AddBackend

variable {cfg : Config}

/-- A session the pinned backend serves records the backend's weight, unless it
records one there already. -/
theorem recordedRate_recordStaticSession (backend : BackendDelegate) (acc : Scheduler × Changes)
    (session : String) (b : Nat) (session' : String) :
    (recordStaticSession policy backend acc session).1.recordedRate b session' =
      if session' = session then
        (acc.1.recordedRate b session').or
          (if b = backend.nodeId then some (backend.getModelWeight policy session) else none)
      else acc.1.recordedRate b session' := by
  let s1 : Scheduler :=
    { acc.1 with sessionTable := acc.1.sessionTable.emplace session (SessionInfo.empty true) }
  have hmem : session ∈ s1.sessionTable := Table.mem_emplace.mpr (.inl rfl)
  have hempty : s1.recordedRate = acc.1.recordedRate := recordedRate_emplace_empty rfl rfl
  rw [← hempty]
  exact recordedRate_modify_emplace (fun _ => rfl) hmem b session'

theorem backends_foldl_recordStaticSession (backend : BackendDelegate) :
    ∀ (sessions : List String) (acc : Scheduler × Changes),
      (sessions.foldl (recordStaticSession policy backend) acc).1.backends = acc.1.backends
  | [], _ => rfl
  | _ :: sessions, _ => backends_foldl_recordStaticSession backend sessions _

/-- The loop of `AddBackend` over the pinned backend's sessions records its weight for
each of them that records none there yet. -/
theorem recordedRate_foldl_recordStaticSession (backend : BackendDelegate) :
    ∀ (sessions : List String) (acc : Scheduler × Changes) (b : Nat) (session : String),
      (sessions.foldl (recordStaticSession policy backend) acc).1.recordedRate b session =
        if session ∈ sessions then
          (acc.1.recordedRate b session).or
            (if b = backend.nodeId then some (backend.getModelWeight policy session) else none)
        else acc.1.recordedRate b session
  | [], _, _, _ => by simp
  | session' :: sessions, acc, b, session => by
    rw [List.foldl_cons, recordedRate_foldl_recordStaticSession backend sessions,
      recordedRate_recordStaticSession]
    by_cases hmem : session ∈ sessions <;> by_cases hsession : session = session' <;>
      simp [hmem, hsession, Option.or_assoc]

/-- The pinned backend's weights: a backend that sits under its own id and that no
session records yet ends up recorded at the rates it serves with. -/
theorem Consistent.foldl_recordStaticSession (hview : policy.WeighsUnder view)
    {s : Scheduler} {pinned : BackendDelegate}
    (hk : Keyed s) (hb : s.backends.lookup pinned.nodeId = some pinned)
    (hfresh : ∀ session, s.recordedRate pinned.nodeId session = none)
    (hrates : ∀ b session, b ≠ pinned.nodeId →
      (s.recordedRate b session).map view = (s.hostedRate b session).map view)
    (changes : Changes) :
    Consistent view
      (pinned.getModelSessions.foldl (recordStaticSession policy pinned) (s, changes)).1 := by
  have hbackends : (pinned.getModelSessions.foldl (recordStaticSession policy pinned)
      (s, changes)).1.backends = s.backends := backends_foldl_recordStaticSession pinned _ _
  refine ⟨fun b backend h => hk b backend (hbackends ▸ h), fun b session => ?_⟩
  rw [recordedRate_foldl_recordStaticSession, hostedRate_congr hbackends]
  by_cases hpinned : b = pinned.nodeId
  · subst b
    simp only [hfresh, Option.none_or, if_true, hostedRate, hb, Option.some_bind]
    rw [← pinned.weightOf_eq_ite policy session]
    exact pinned.weightOf_map policy hview session
  · simp only [hpinned, if_false, Option.or_none, ite_self]
    exact hrates b session hpinned

/-- Recording a backup moves no weight and no backend. -/
theorem recordBackupSession_frame (b : Nat) (acc : Scheduler × Changes) (session : String) :
    (recordBackupSession b acc session).1.backends = acc.1.backends ∧
      (recordBackupSession b acc session).1.recordedRate = acc.1.recordedRate := by
  have hempty : ({ acc.1 with
      sessionTable := acc.1.sessionTable.emplace session (SessionInfo.empty true) } :
        Scheduler).recordedRate = acc.1.recordedRate :=
    recordedRate_emplace_empty rfl rfl
  dsimp only [recordBackupSession]
  split
  · split
    · exact ⟨rfl, hempty⟩
    · refine ⟨rfl, ?_⟩
      rw [← hempty]
      exact recordedRate_modifySession fun _ => rfl
  · exact ⟨rfl, hempty⟩

theorem Consistent.foldl_recordBackupSession (b : Nat) :
    ∀ (sessions : List String) {acc : Scheduler × Changes}, Consistent view acc.1 →
      Consistent view (sessions.foldl (recordBackupSession b) acc).1
  | [], _, hc => hc
  | session :: sessions, acc, hc =>
    Consistent.foldl_recordBackupSession b sessions
      (hc.congr (recordBackupSession_frame b acc session).1
        (recordBackupSession_frame b acc session).2)

/-- Pinning an idle registered backend to a static workload keeps the records
consistent. -/
theorem Consistent.pinStaticWorkload (hview : policy.WeighsUnder view) {s : Scheduler}
    (hc : Consistent view s)
    {backend : BackendDelegate} (hb : s.backends.lookup backend.nodeId = some backend)
    (hidle : backend.isIdle) (id : Nat) :
    Consistent view (Scheduler.pinStaticWorkload cfg policy backend id s).1 := by
  dsimp only [Scheduler.pinStaticWorkload]
  have hid : (loadStaticWorkload cfg policy backend id).nodeId = backend.nodeId :=
    congrArg BackendInfo.nodeId (info_loadStaticWorkload cfg policy backend id)
  generalize loadStaticWorkload cfg policy backend id = pinned at hid ⊢
  let s1 : Scheduler := { s with
    assignedStaticWorkloads := s.assignedStaticWorkloads.insert id backend.nodeId
    backends := s.backends.insert backend.nodeId pinned }
  have hhosted : ∀ b session, s1.hostedRate b session =
      if b = backend.nodeId then pinned.rateOf session else s.hostedRate b session :=
    hostedRate_insert rfl
  refine Consistent.foldl_recordBackupSession _ _
    (Consistent.foldl_recordStaticSession hview (s := s1) (hc.keyed.insert rfl hid) ?_ ?_ ?_ _)
  · rw [hid]; exact AList.lookup_insert _
  · intro session
    rw [hid]
    show s.recordedRate backend.nodeId session = none
    exact hc.recorded_eq_none.mpr (by simp [hostedRate, hb, BackendDelegate.isIdle_iff.mp hidle])
  · intro b session hb'
    rw [hid] at hb'
    rw [hhosted, if_neg hb']
    exact hc.rates b session

theorem Consistent.addBackend (hview : policy.WeighsUnder view) {s s' : Scheduler}
    (hc : Consistent view s) {backend : BackendDelegate}
    (hb : s.backends.lookup backend.nodeId = some backend) (hidle : backend.isIdle)
    (h : Scheduler.addBackend cfg policy backend s = some s') : Consistent view s' := by
  unfold Scheduler.addBackend at h
  dsimp only at h
  split at h
  · rename_i id _
    obtain ⟨⟨s1, changes⟩, hpick, h⟩ := Option.bind_eq_some.mp h
    have hpin : Consistent view (Scheduler.pinStaticWorkload cfg policy backend id s).1 :=
      hc.pinStaticWorkload hview hb hidle id
    rw [Option.some.inj hpick] at hpin
    exact (hpin.updateModelTables _).updateModelRoutes h
  · obtain ⟨⟨s1, changes⟩, hpick, h⟩ := Option.bind_eq_some.mp h
    exact ((hc.allocateUnassignedWorkloads hview hpick).1.updateModelTables _).updateModelRoutes h

theorem Consistent.registerBackend (hview : policy.WeighsUnder view) {s s' : Scheduler}
    (hc : Consistent view s) {info : BackendInfo}
    (h : Scheduler.registerBackend cfg policy info s = some s') : Consistent view s' := by
  unfold Scheduler.registerBackend at h
  split at h
  · cases h
  · rename_i hfresh
    have hrates : ∀ b session, (s.recordedRate b session).map view =
        (if b = info.nodeId then (BackendDelegate.fresh info).rateOf session
          else s.hostedRate b session).map view := by
      intro b session
      rw [hc.rates]
      split
      · subst b; simp [hostedRate, AList.lookup_eq_none.mpr hfresh]
      · rfl
    let s1 : Scheduler := { s with backends := s.backends.insert info.nodeId (.fresh info) }
    have hinsert : s1.backends = s.backends.insert info.nodeId (.fresh info) := rfl
    have hc1 : Consistent view s1 := ⟨hc.keyed.insert hinsert rfl, fun b session =>
      (hrates b session).trans (by rw [hostedRate_insert hinsert])⟩
    have hb : s1.backends.lookup (BackendDelegate.fresh info).nodeId = some (.fresh info) :=
      AList.lookup_insert _
    exact hc1.addBackend hview hb rfl h

end AddBackend

/-! ### `RemoveBackend` -/

section RemoveBackend

theorem backends_dropWeights (d : Nat) (acc : Scheduler × Changes) (session : String) :
    (dropWeights d acc session).1.backends = acc.1.backends := by
  unfold dropWeights; split <;> rfl

theorem sessions_dropWeights (d : Nat) (acc : Scheduler × Changes) (session : String) :
    ∀ session' ∈ (dropWeights d acc session).2.sessions,
      session' = session ∨ session' ∈ acc.2.sessions := by
  unfold dropWeights
  split
  · intro session' h; simpa [List.mem_insert_iff] using h
  · exact fun _ => .inr

/-- One pass of `RemoveBackend`'s first loop: the session no longer records the
departing backend, whether this pass drops it or an earlier one did. -/
theorem recordedRate_dropWeights {d : Nat} {acc : Scheduler × Changes} {session : String}
    (hdone : ∀ session' ∈ acc.2.sessions, acc.1.recordedRate d session' = none) (b : Nat)
    (session' : String) :
    (dropWeights d acc session).1.recordedRate b session' =
      if b = d ∧ session' = session then none else acc.1.recordedRate b session' := by
  unfold dropWeights
  split
  · exact recordedRate_modify_erase (fun _ => rfl) b session'
  · rename_i hskip
    split_ifs with hdrop
    · rw [hdrop.1, hdrop.2]
      by_cases hmem : session ∈ acc.1.sessionTable
      · exact hdone session (not_not.mp fun hfresh => hskip ⟨hmem, hfresh⟩)
      · simp [recordedRate, AList.lookup_eq_none.mpr hmem]
    · rfl

/-- `RemoveBackend`'s first loop drops the departing backend from the weights of every
session it visits. -/
theorem foldl_dropWeights (d : Nat) :
    ∀ (sessions : List String) (acc : Scheduler × Changes),
      (∀ session ∈ acc.2.sessions, acc.1.recordedRate d session = none) →
      let acc' := sessions.foldl (dropWeights d) acc
      acc'.1.backends = acc.1.backends ∧ ∀ b session, acc'.1.recordedRate b session =
        if b = d ∧ session ∈ sessions then none else acc.1.recordedRate b session
  | [], _, _ => ⟨rfl, fun _ _ => by simp⟩
  | session :: sessions, acc, hdone => by
    have hdone' : ∀ session' ∈ (dropWeights d acc session).2.sessions,
        (dropWeights d acc session).1.recordedRate d session' = none := fun session' hmem => by
      rw [recordedRate_dropWeights hdone]
      rcases sessions_dropWeights d acc session session' hmem with rfl | hmem
      · simp
      · simp [hdone session' hmem]
    obtain ⟨hbackends, hrate⟩ := foldl_dropWeights d sessions _ hdone'
    refine ⟨hbackends.trans (backends_dropWeights d acc session), fun b session' => ?_⟩
    rw [List.foldl_cons, hrate, recordedRate_dropWeights hdone]
    by_cases hb : b = d <;> by_cases hsession : session' = session <;> simp [hb, hsession]

/-- A loop of `at` calls that records weight `w session` for backend `a` in each
session it visits, unless the session records one there already. -/
theorem foldlM_atSession_emplace {a : Nat} {w : String → ℚ} :
    ∀ (sessions : List String) (s s' : Scheduler),
      sessions.foldlM (fun s session => s.atSession session fun info =>
        { info with backendWeights := info.backendWeights.emplace a (w session) }) s = some s' →
      s'.backends = s.backends ∧ ∀ b session, s'.recordedRate b session =
        if session ∈ sessions then
          (s.recordedRate b session).or (if b = a then some (w session) else none)
        else s.recordedRate b session
  | [], _, _, h => by cases h; exact ⟨rfl, fun _ _ => by simp⟩
  | session :: sessions, s, s', h => by
    obtain ⟨s1, hstep, h⟩ := Option.bind_eq_some.mp h
    obtain ⟨hmem, rfl⟩ := atSession_eq_some.mp hstep
    obtain ⟨hbackends, hrate⟩ := foldlM_atSession_emplace sessions _ s' h
    refine ⟨hbackends, fun b session' => ?_⟩
    rw [hrate, recordedRate_modify_emplace (fun _ => rfl) hmem]
    by_cases hmem' : session' ∈ sessions <;> by_cases hsession : session' = session <;>
      simp [hmem', hsession, Option.or_assoc]

theorem Consistent.moveBackup {d a : Nat} {acc acc' : Scheduler × Changes} {session : String}
    (hc : Consistent view acc.1) (h : moveBackup d a acc session = some acc') :
    Consistent view acc'.1 := by
  obtain ⟨_, -, h⟩ := Option.bind_eq_some.mp h
  cases h
  exact hc.modifySession fun _ => rfl

theorem Consistent.dropBackup {d : Nat} {acc acc' : Scheduler × Changes} {session : String}
    (hc : Consistent view acc.1) (h : dropBackup d acc session = some acc') :
    Consistent view acc'.1 := by
  obtain ⟨_, -, h⟩ := Option.bind_eq_some.mp h
  split at h <;> cases h
  · exact hc.modifySession fun _ => rfl
  · exact hc

/-- The idle backend that took the departing backend's load over records it at the
rates it now serves it with. -/
theorem Consistent.migrate {departing assigned : BackendDelegate} {a : Nat}
    {acc acc' : Scheduler × Changes} (hc : Consistent view acc.1)
    (hassignee : acc.1.findAssignee policy departing = some (a, assigned))
    (h : migrate departing a assigned acc = some acc') : Consistent view acc'.1 := by
  obtain ⟨backend, hb, hidle, hassign⟩ := findAssignee_spec policy hassignee
  have hid : assigned.nodeId = a := by
    rw [BackendDelegate.nodeId, (BackendDelegate.assign_spec policy hassign).1]
    exact hc.keyed a backend hb
  have hrate := BackendDelegate.rateOf_assign policy hassign
  unfold Scheduler.migrate at h
  obtain ⟨s4, hloop, h⟩ := Option.bind_eq_some.mp h
  obtain ⟨hbackends, hrecorded⟩ := foldlM_atSession_emplace _ _ s4 hloop
  have hinsert : s4.backends = acc.1.backends.insert a assigned := hbackends
  have hc4 : Consistent view s4 := by
    refine ⟨hc.keyed.insert hinsert hid, fun b session => ?_⟩
    rw [hrecorded, hostedRate_insert hinsert, hid]
    show (if session ∈ departing.getModelSessions then
      (acc.1.recordedRate b session).or (if b = a then _ else none)
      else acc.1.recordedRate b session).map view = _
    by_cases hba : b = a
    · subst b
      have hfree : acc.1.recordedRate a session = none :=
        hc.recorded_eq_none.mpr (by simp [hostedRate, hb, BackendDelegate.isIdle_iff.mp hidle])
      rw [hfree, hrate, if_pos rfl, if_pos rfl, departing.rateOf_eq_ite]
      simp [hrate]
    · simp only [hba, if_false, Option.or_none, ite_self]
      exact hc.rates b session
  refine foldlM_invariant (fun acc : Scheduler × Changes => Consistent view acc.1)
    (fun _ _ _ _ hacc hstep => hacc.moveBackup hstep) ?_ h
  split
  · exact hc4.congr rfl rfl
  · exact hc4

theorem Consistent.requeue (hview : policy.WeighsUnder view) {departing : BackendDelegate}
    {acc acc' : Scheduler × Changes} (hc : Consistent view acc.1)
    (h : requeue policy departing acc = some acc') : Consistent view acc'.1 := by
  unfold Scheduler.requeue at h
  obtain ⟨⟨s1, changes⟩, hloop, h⟩ := Option.bind_eq_some.mp h
  have hc1 : Consistent view s1 :=
    foldlM_invariant (fun acc : Scheduler × Changes => Consistent view acc.1)
    (fun _ _ _ _ hacc hstep => hacc.dropBackup hstep) hc hloop
  dsimp only at h
  split at h
  · cases h; exact hc1.congr rfl rfl
  · obtain ⟨s2, hloop2, h⟩ := Option.bind_eq_some.mp h
    exact ((hc1.foldlM_atSession hloop2 fun _ _ => rfl).allocateUnassignedWorkloads hview h).1

/-- After `RemoveBackend`'s first loop the records agree with the backends again: the
departing backend, gone from `backends_`, is gone from the weights of every session it
served. -/
theorem Consistent.foldl_dropWeights {departing : BackendDelegate} {s : Scheduler} (hk : Keyed s)
    (hd : s.backends.lookup departing.nodeId = none)
    (hrates : ∀ b session, b ≠ departing.nodeId →
      (s.recordedRate b session).map view = (s.hostedRate b session).map view)
    (hdeparting : ∀ session,
      (s.recordedRate departing.nodeId session).map view = (departing.rateOf session).map view) :
    Consistent view
      (departing.getModelSessions.foldl (dropWeights departing.nodeId) (s, ⟨[], []⟩)).1 := by
  obtain ⟨hbackends, hrecorded⟩ :=
    Scheduler.foldl_dropWeights departing.nodeId departing.getModelSessions (s, ⟨[], []⟩) (by simp)
  refine ⟨fun b backend h => hk b backend (hbackends ▸ h), fun b session => ?_⟩
  rw [hrecorded, hostedRate_congr hbackends]
  by_cases hb : b = departing.nodeId
  · subst b
    by_cases hserved : session ∈ departing.getModelSessions
    · simp [hserved, hostedRate, hd]
    · simp only [hserved, and_false, if_false]
      rw [hdeparting, departing.rateOf_eq_ite, if_neg hserved]
      simp [hostedRate, hd]
  · simp only [hb, false_and, if_false]
    exact hrates b session hb

/-- `RemoveBackend` of a backend that left `backends_`, from a state where the records
agree with the backends everywhere but at the departing backend, which the records
still credit with what it served. -/
theorem Consistent.removeBackend (hview : policy.WeighsUnder view) {departing : BackendDelegate}
    {s s' : Scheduler} (h : removeBackend policy departing s = some s') (hk : Keyed s)
    (hd : s.backends.lookup departing.nodeId = none)
    (hrates : ∀ b session, b ≠ departing.nodeId →
      (s.recordedRate b session).map view = (s.hostedRate b session).map view)
    (hdeparting : ∀ session,
      (s.recordedRate departing.nodeId session).map view = (departing.rateOf session).map view) :
    Consistent view s' := by
  have hc2 := Consistent.foldl_dropWeights hk hd hrates hdeparting
  unfold Scheduler.removeBackend at h
  split at h
  · rename_i hidle
    cases h
    have hnone : departing.getModelSessions = [] := by
      simpa [BackendDelegate.isIdle, BackendDelegate.getModelSessions, Table.keyList] using hidle
    rwa [hnone] at hc2
  · dsimp only at h
    split at h
    · rename_i hassignee
      obtain ⟨⟨s3, changes⟩, hmove, h⟩ := Option.bind_eq_some.mp h
      exact ((hc2.migrate hassignee hmove).updateModelTables _).updateModelRoutes h
    · obtain ⟨⟨s3, changes⟩, hmove, h⟩ := Option.bind_eq_some.mp h
      exact ((hc2.requeue hview hmove).updateModelTables _).updateModelRoutes h

/-- Right after `backends_` dropped a registered backend, the records agree with the
backends everywhere but at the departing backend, which they still credit with what it
served: the state `RemoveBackend` starts from. -/
theorem Consistent.eraseBackend {s : Scheduler} (hc : Consistent view s) {b : Nat}
    {backend : BackendDelegate} (hb : s.backends.lookup b = some backend) :
    let s0 : Scheduler := { s with backends := s.backends.erase backend.nodeId }
    Keyed s0 ∧ s0.backends.lookup backend.nodeId = none ∧
      (∀ b' session, b' ≠ backend.nodeId →
        (s0.recordedRate b' session).map view = (s0.hostedRate b' session).map view) ∧
      ∀ session, (s0.recordedRate backend.nodeId session).map view =
        (backend.rateOf session).map view := by
  have hid := hc.keyed b backend hb
  have herase : ({ s with backends := s.backends.erase backend.nodeId } : Scheduler).backends =
      s.backends.erase backend.nodeId := rfl
  refine ⟨hc.keyed.erase herase, by simp, fun b' session hb' => ?_, fun session => ?_⟩
  · rw [hostedRate_erase herase, if_neg hb']
    exact hc.rates b' session
  · show (s.recordedRate backend.nodeId session).map view = _
    rw [hc.rates, hid]
    simp [hostedRate, hb, BackendDelegate.rateOf]

theorem Consistent.unregisterBackend (hview : policy.WeighsUnder view) {s s' : Scheduler}
    (hc : Consistent view s) {b : Nat}
    (h : unregisterBackend policy b s = some s') : Consistent view s' := by
  obtain ⟨backend, hb, h⟩ := Option.bind_eq_some.mp h
  obtain ⟨hk, hd, hrates, hdeparting⟩ := hc.eraseBackend hb
  exact Consistent.removeBackend hview h hk hd hrates hdeparting

end RemoveBackend

/-! ### `EpochSchedule` -/

section Epoch

variable {cfg : Config}

theorem recordedRate_unloadSession {s : Scheduler} (session : String) (b : Nat)
    (backend : BackendDelegate) (b' : Nat) (session' : String) :
    (unloadSession session b backend s).recordedRate b' session' =
      if b' = b ∧ session' = session then none else s.recordedRate b' session' :=
  recordedRate_modify_erase (s := { s with backends := s.backends.insert b _ }) (fun _ => rfl)
    b' session'

theorem hostedRate_unloadSession {s : Scheduler} (session : String) (b : Nat)
    (backend : BackendDelegate) (b' : Nat) (session' : String) :
    (unloadSession session b backend s).hostedRate b' session' =
      if b' = b then (backend.unloadModel session).rateOf session' else s.hostedRate b' session' :=
  hostedRate_insert rfl b' session'

theorem recordedRate_resizeSession {s : Scheduler} {session : String}
    (hmem : session ∈ s.sessionTable) (b : Nat) (backend : BackendDelegate) (b' : Nat)
    (session' : String) :
    (resizeSession policy session b backend s).recordedRate b' session' =
      if b' = b ∧ session' = session then some (backend.getModelWeight policy session)
      else s.recordedRate b' session' :=
  recordedRate_modify_insert (s := { s with backends := s.backends.insert b backend })
    (fun _ => rfl) hmem b' session'

theorem hostedRate_resizeSession {s : Scheduler} (session : String) (b : Nat)
    (backend : BackendDelegate) (b' : Nat) (session' : String) :
    (resizeSession policy session b backend s).hostedRate b' session' =
      if b' = b then backend.rateOf session' else s.hostedRate b' session' :=
  hostedRate_insert rfl b' session'

/-- The release and grow branches' unloading keeps the records consistent. -/
theorem Consistent.unloadSession {s : Scheduler} (hc : Consistent view s) {session : String}
    {b : Nat} {backend : BackendDelegate} (hb : s.backends.lookup b = some backend) :
    Consistent view (unloadSession session b backend s) := by
  refine ⟨hc.keyed.insert rfl (hc.keyed b backend hb), fun b' session' => ?_⟩
  rw [recordedRate_unloadSession, hostedRate_unloadSession, BackendDelegate.rateOf_unloadModel]
  by_cases hb' : b' = b
  · subst b'
    by_cases hsession : session' = session
    · simp [hsession]
    · simp only [hsession, and_false, if_false, if_true]
      simpa [hostedRate, hb] using hc.rates b session'
  · simp only [hb', false_and, if_false]
    exact hc.rates b' session'

/-- The release and grow branches' resizing of an instance that the session records
keeps the records consistent: the weight written is the resized instance's. -/
theorem Consistent.resizeSession (hview : policy.WeighsUnder view) {s : Scheduler}
    (hc : Consistent view s) {session : String} {b : Nat}
    {backend : BackendDelegate} {rate : ℚ} (hb : s.backends.lookup b = some backend)
    (hserved : (s.recordedRate b session).isSome) :
    Consistent view
      (resizeSession policy session b (backend.updateModelThroughput policy session rate).2 s) := by
  have hmem := mem_of_recordedRate_isSome hserved
  have hrate : (backend.rateOf session).isSome := by
    rwa [hc.isSome, hostedRate, hb, Option.some_bind] at hserved
  have hid : (backend.updateModelThroughput policy session rate).2.nodeId = b := by
    rw [BackendDelegate.nodeId, BackendDelegate.info_updateModelThroughput]
    exact hc.keyed b backend hb
  have hresized := BackendDelegate.rateOf_updateModelThroughput policy session rate backend
  refine ⟨hc.keyed.insert rfl hid, fun b' session' => ?_⟩
  rw [recordedRate_resizeSession hmem, hostedRate_resizeSession]
  by_cases hb' : b' = b
  · subst b'
    by_cases hsession : session' = session
    · subst session'
      rw [if_pos ⟨rfl, rfl⟩, if_pos rfl]
      exact BackendDelegate.getModelWeight_map policy hview (by simp [hresized, hrate])
    · rw [if_neg fun h => hsession h.2, if_pos rfl, hresized, if_neg fun h => hsession h.1]
      simpa [hostedRate, hb] using hc.rates b session'
  · simp only [hb', false_and, if_false]
    exact hc.rates b' session'

/-- The backends `EpochSchedule` adjusts for a session are among its weights, in
order. -/
theorem splitStatic_sublist {s : Scheduler} {weights : List (Σ _ : Nat, ℚ)}
    {estimate estimate' : ℚ} {adjust : List (Nat × ℚ)}
    (h : s.splitStatic weights estimate = some (estimate', adjust)) :
    adjust.Sublist (weights.map fun entry => (entry.1, entry.2)) := by
  have hloop : ∀ (weights : List (Σ _ : Nat, ℚ)) (acc result : ℚ × List (Nat × ℚ)),
      weights.foldlM (fun acc entry => do
        let backend ← s.backends.lookup entry.1
        pure (if 0 ≤ backend.workloadId then (acc.1 - entry.2, acc.2)
          else (acc.1, acc.2 ++ [(entry.1, entry.2)]))) acc = some result →
      ∃ l, l.Sublist (weights.map fun entry => (entry.1, entry.2)) ∧ result.2 = acc.2 ++ l := by
    intro weights
    induction weights with
    | nil => intro acc result h; cases h; exact ⟨[], List.nil_sublist _, by simp⟩
    | cons entry weights ih =>
      intro acc result h
      obtain ⟨acc1, hstep, h⟩ := Option.bind_eq_some.mp h
      obtain ⟨backend, -, hstep⟩ := Option.bind_eq_some.mp hstep
      cases hstep
      obtain ⟨l, hl, hresult⟩ := ih _ result h
      split at hresult
      · exact ⟨l, hl.cons _, hresult⟩
      · exact ⟨_ :: l, hl.cons₂ _, by simp [hresult]⟩
  obtain ⟨l, hl, hadjust⟩ := hloop weights (estimate, []) (estimate', adjust) h
  rw [show adjust = l by simpa using hadjust]
  exact hl

/-- The backends `EpochSchedule` adjusts for a session are distinct, and the session
records each of them. -/
theorem splitStatic_adjust {s : Scheduler} (session : String) {weights : Table Nat ℚ}
    {estimate estimate' : ℚ} {adjust : List (Nat × ℚ)}
    (h : s.splitStatic weights.entries estimate = some (estimate', adjust))
    (hweights : ∀ b, s.recordedRate b session = weights.lookup b) :
    ((sortByWeight adjust).map Prod.fst).Nodup ∧
      ∀ p ∈ sortByWeight adjust, (s.recordedRate p.1 session).isSome := by
  have hsub := splitStatic_sublist h
  have hperm := List.perm_insertionSort (fun a b : Nat × ℚ => b.2 ≤ a.2) adjust
  refine ⟨(hperm.map Prod.fst).nodup_iff.mpr ((hsub.map Prod.fst).nodup ?_), fun p hp => ?_⟩
  · simpa [List.map_map, Function.comp_def] using weights.nodupKeys
  · obtain ⟨entry, hentry, rfl⟩ := List.mem_map.mp (hsub.subset (hperm.mem_iff.mp hp))
    rw [hweights]
    exact Option.isSome_iff_exists.mpr ⟨_, AList.mem_lookup_iff.mpr hentry⟩

/-- Adjusting one backend leaves the session recorded on the backends the loop has
still to adjust. -/
theorem adjust_rest {s s' : Scheduler} {session : String} {b : Nat} {rest : List (Nat × ℚ)}
    (hfresh : b ∉ rest.map Prod.fst)
    (hsame : ∀ b', b' ≠ b → s'.recordedRate b' session = s.recordedRate b' session)
    (hserved : ∀ p ∈ rest, (s.recordedRate p.1 session).isSome) :
    ∀ p ∈ rest, (s'.recordedRate p.1 session).isSome := fun p hp => by
  rw [hsame p.1 fun h => hfresh (List.mem_map.mpr ⟨p, hp, h⟩)]
  exact hserved p hp

theorem recordedRate_unloadSession_ne {s : Scheduler} {session : String} {b b' : Nat}
    (backend : BackendDelegate) (hb : b' ≠ b) :
    (unloadSession session b backend s).recordedRate b' session = s.recordedRate b' session := by
  rw [recordedRate_unloadSession]; simp [hb]

theorem recordedRate_resizeSession_ne {s : Scheduler} {session : String} {b b' : Nat}
    (hmem : session ∈ s.sessionTable) (backend : BackendDelegate) (hb : b' ≠ b) :
    (resizeSession policy session b backend s).recordedRate b' session =
      s.recordedRate b' session := by
  rw [recordedRate_resizeSession hmem]; simp [hb]

/-- One resizing pass of the release or grow loop keeps the records consistent and the
session recorded on the backends still to adjust. -/
theorem Consistent.resizeSession_rest (hview : policy.WeighsUnder view) {s : Scheduler}
    (hc : Consistent view s)
    {session : String} {b : Nat} {backend : BackendDelegate} {rest : List (Nat × ℚ)} (rate : ℚ)
    (hb : s.backends.lookup b = some backend) (hserved_b : (s.recordedRate b session).isSome)
    (hfresh : b ∉ rest.map Prod.fst) (hserved : ∀ p ∈ rest, (s.recordedRate p.1 session).isSome) :
    let resized := (backend.updateModelThroughput policy session rate).2
    Consistent view (Scheduler.resizeSession policy session b resized s) ∧
      ∀ p ∈ rest,
        ((Scheduler.resizeSession policy session b resized s).recordedRate p.1 session).isSome :=
  ⟨hc.resizeSession hview hb hserved_b, adjust_rest hfresh
    (fun _ => recordedRate_resizeSession_ne (mem_of_recordedRate_isSome hserved_b) _) hserved⟩

/-- The adjusting loop of the release branch keeps the records consistent. -/
theorem Consistent.releaseLoop (hview : policy.WeighsUnder view) {session : String} :
    ∀ (adjust : List (Nat × ℚ)) (estimate : ℚ) {s : Scheduler} {result : ℚ × Scheduler},
      releaseLoop policy session adjust estimate s = some result →
      (adjust.map Prod.fst).Nodup → (∀ p ∈ adjust, (s.recordedRate p.1 session).isSome) →
      Consistent view s → Consistent view result.2
  | [], _, _, _, h, _, _, hc => by cases h; exact hc
  | (b, weight) :: rest, estimate, s, result, h, hnodup, hserved, hc => by
    obtain ⟨hfresh, hnodup⟩ := List.nodup_cons.mp hnodup
    have hserved_b := hserved (b, weight) (List.mem_cons_self _ _)
    replace hserved := fun p hp => hserved p (List.mem_cons_of_mem _ hp)
    rw [Scheduler.releaseLoop] at h
    split at h
    · obtain ⟨backend, hb, h⟩ := Option.bind_eq_some.mp h
      exact Consistent.releaseLoop hview rest estimate h hnodup
        (adjust_rest hfresh (fun _ => recordedRate_unloadSession_ne backend) hserved)
        (hc.unloadSession hb)
    · split at h
      · obtain ⟨backend, hb, h⟩ := Option.bind_eq_some.mp h
        obtain ⟨hc', hkeep⟩ := hc.resizeSession_rest hview estimate hb hserved_b hfresh hserved
        generalize backend.updateModelThroughput policy session estimate = resized at h hc' hkeep
        obtain ⟨throughput, resized⟩ := resized
        exact Consistent.releaseLoop hview rest _ h hnodup hkeep hc'
      · exact Consistent.releaseLoop hview rest _ h hnodup hserved hc

/-- The adjusting loop of the grow branch keeps the records consistent. -/
theorem Consistent.growLoop (hview : policy.WeighsUnder view) {session : String} :
    ∀ (adjust : List (Nat × ℚ)) (estimate : ℚ) {s : Scheduler} {overloaded : List Nat}
      {result : ℚ × Scheduler × List Nat},
      growLoop policy session adjust estimate (s, overloaded) = some result →
      (adjust.map Prod.fst).Nodup → (∀ p ∈ adjust, (s.recordedRate p.1 session).isSome) →
      Consistent view s → Consistent view result.2.1
  | [], _, _, _, _, h, _, _, hc => by cases h; exact hc
  | (b, weight) :: rest, estimate, s, overloaded, result, h, hnodup, hserved, hc => by
    obtain ⟨hfresh, hnodup⟩ := List.nodup_cons.mp hnodup
    have hserved_b := hserved (b, weight) (List.mem_cons_self _ _)
    replace hserved := fun p hp => hserved p (List.mem_cons_of_mem _ hp)
    rw [Scheduler.growLoop] at h
    split at h
    · obtain ⟨backend, hb, h⟩ := Option.bind_eq_some.mp h
      exact Consistent.growLoop hview rest estimate h hnodup
        (adjust_rest hfresh (fun _ => recordedRate_unloadSession_ne backend) hserved)
        (hc.unloadSession hb)
    · obtain ⟨backend, hb, h⟩ := Option.bind_eq_some.mp h
      obtain ⟨hc', hkeep⟩ := hc.resizeSession_rest hview estimate hb hserved_b hfresh hserved
      generalize backend.updateModelThroughput policy session estimate = resized at h hc' hkeep
      obtain ⟨throughput, resized⟩ := resized
      exact Consistent.growLoop hview rest _ h hnodup hkeep hc'

/-- `EpochSchedule`'s sizing of one session keeps the records consistent. -/
theorem Consistent.scheduleSession (hview : policy.WeighsUnder view)
    {acc acc' : Scheduler × List String × List Nat} {session : String} (hc : Consistent view acc.1)
    (h : scheduleSession cfg policy acc session = some acc') :
    Consistent view acc'.1 := by
  rcases scheduleSession_cases h with ⟨h, -⟩ | ⟨info, debt, hinfo, ⟨h, -⟩ |
      ⟨_, _, _, _, hsplit, hloop, h, -⟩ | ⟨_, _, _, _, _, hsplit, hloop, h, -⟩⟩ <;> rw [h]
  · exact hc
  · exact hc.modifySession fun _ => rfl
  · obtain ⟨hnodup, hserved⟩ := splitStatic_adjust session hsplit fun b => by
      simp [recordedRate, hinfo]
    exact Consistent.releaseLoop hview _ _ hloop hnodup hserved (hc.modifySession fun _ => rfl)
  · obtain ⟨hnodup, hserved⟩ := splitStatic_adjust session hsplit fun b => by
      simp [recordedRate, hinfo]
    exact (Consistent.growLoop hview _ _ hloop hnodup hserved
      (hc.modifySession fun _ => rfl)).modifySession fun _ => rfl

/-- A loop of `at` calls that drops backend `a` from the weights of every session it
visits. -/
theorem foldlM_atSession_erase {α : Type} {a : Nat} {key : α → String}
    {f : α → SessionInfo → SessionInfo} :
    ∀ (l : List α) (s s' : Scheduler), l.foldlM (fun s x => s.atSession (key x) (f x)) s = some s' →
      (∀ x info, (f x info).backendWeights = info.backendWeights.erase a) →
      s'.backends = s.backends ∧ ∀ b session, s'.recordedRate b session =
        if b = a ∧ session ∈ l.map key then none else s.recordedRate b session
  | [], _, _, h, _ => by cases h; exact ⟨rfl, fun _ _ => by simp⟩
  | x :: l, s, s', h, hf => by
    obtain ⟨s1, hstep, h⟩ := Option.bind_eq_some.mp h
    obtain ⟨-, rfl⟩ := atSession_eq_some.mp hstep
    obtain ⟨hbackends, hrate⟩ := foldlM_atSession_erase l _ s' h hf
    refine ⟨hbackends, fun b session => ?_⟩
    rw [hrate, recordedRate_modify_erase (hf x)]
    by_cases hb : b = a <;> by_cases hsession : session = key x <;> simp [hb, hsession]

/-- `EpochSchedule`'s spilling of one overloaded backend keeps the records consistent:
the spilled sessions leave its weights as they leave its instances. -/
theorem Consistent.spillOut {s s' : Scheduler} (hc : Consistent view s) {b : Nat}
    (h : spillOut policy s b = some s') : Consistent view s' := by
  unfold Scheduler.spillOut at h
  split at h
  · cases h; exact hc
  · rename_i backend hb
    have hid := hc.keyed b backend hb
    have hrest := BackendDelegate.rateOf_spillOutWorkload policy backend
    have hinfo := BackendDelegate.info_spillOutWorkload policy backend
    generalize backend.spillOutWorkload policy = out at h hrest hinfo
    obtain ⟨spilled, rest⟩ := out
    obtain ⟨hbackends, hrecorded⟩ := foldlM_atSession_erase spilled _ s' h fun _ _ => rfl
    have hinsert : s'.backends = s.backends.insert b rest := hbackends
    refine ⟨hc.keyed.insert hinsert (by rw [BackendDelegate.nodeId, hinfo]; exact hid),
      fun b' session => ?_⟩
    rw [hrecorded, hostedRate_insert hinsert, hid, hrest]
    by_cases hb' : b' = b
    · subst b'
      by_cases hspilled : session ∈ spilled.map Prod.fst
      · simp [hspilled]
      · simp only [hspilled, and_false, if_false]
        exact (hc.rates b session).trans (by simp [hostedRate, hb])
    · simp only [hb', false_and, if_false]
      exact hc.rates b' session

theorem Consistent.epochSchedule (hview : policy.WeighsUnder view) {s s' : Scheduler}
    (hc : Consistent view s)
    (h : epochSchedule cfg policy s = some s') : Consistent view s' := by
  unfold Scheduler.epochSchedule at h
  obtain ⟨⟨s1, changed, overloaded⟩, hsched, h⟩ := Option.bind_eq_some.mp h
  have hc1 : Consistent view s1 :=
    foldlM_invariant (fun acc : Scheduler × List String × List Nat => Consistent view acc.1)
      (fun _ _ _ _ hacc hstep => hacc.scheduleSession hview hstep) hc hsched
  obtain ⟨s2, hspill, h⟩ := Option.bind_eq_some.mp h
  have hc2 : Consistent view s2 :=
    foldlM_invariant (Consistent view) (fun _ _ _ _ hacc hstep => hacc.spillOut hstep) hc1 hspill
  obtain ⟨⟨s3, changes⟩, halloc, h⟩ := Option.bind_eq_some.mp h
  obtain ⟨s4, hroutes, h⟩ := Option.bind_eq_some.mp h
  obtain ⟨_, -, h⟩ := Option.bind_eq_some.mp h
  cases h
  exact ((hc2.allocateUnassignedWorkloads hview halloc).1.updateModelTables _).updateModelRoutes
    hroutes

end Epoch

/-! ### Every run -/

variable {cfg : Config} {db : ModelDatabase}

theorem Consistent.step (hview : policy.WeighsUnder view)
    {s s' : Scheduler} (hc : Consistent view s) {action : Action}
    (h : step cfg policy db s action = some s') : Consistent view s' := by
  cases action with
  | registerFrontend frontend => exact hc.registerFrontend h
  | registerBackend info => exact hc.registerBackend hview h
  | unregisterFrontend frontend => exact hc.unregisterFrontend h
  | unregisterBackend b => exact hc.unregisterBackend hview h
  | loadModel request =>
    obtain ⟨⟨reply, s'⟩, hload, rfl⟩ := Option.map_eq_some'.mp h
    exact hc.loadModel hview hload
  | reportWorkload request => exact hc.reportWorkload h
  | beaconCheck =>
    obtain ⟨⟨trigger, s'⟩, hbeacon, rfl⟩ := Option.map_eq_some'.mp h
    exact hc.beaconCheck hbeacon
  | epochSchedule => exact hc.epochSchedule hview h

theorem Consistent.init : Consistent view init :=
  ⟨fun _ _ h => (by cases h), fun _ _ => rfl⟩

theorem Reachable.consistent (hview : policy.WeighsUnder view)
    {s : Scheduler} (hs : Reachable cfg policy db s) : Consistent view s := by
  induction hs with
  | init => exact Consistent.init
  | step _ hstep ih => exact ih.step hview hstep

/-- In every reachable state, whatever the delegate, a session records a weight for a
backend exactly when the backend serves it. -/
theorem Reachable.serving {s : Scheduler} (hs : Reachable cfg policy db s) :
    Consistent (fun _ => 0) s :=
  hs.consistent fun _ => rfl

/-- When every instance weighs its throughput, each weight of a reachable state is the
rate at which the backend serves the session. -/
theorem Reachable.exact (hweigh : policy.WeighsThroughput) {s : Scheduler}
    (hs : Reachable cfg policy db s) : Consistent id s :=
  hs.consistent fun inst => congrArg id (hweigh inst)

/-- `GetModelRoute` of a session succeeds once every backend of its weights is
registered. -/
theorem getModelRoute_isSome {s : Scheduler} {session : String} {info : SessionInfo}
    (hinfo : s.sessionTable.lookup session = some info)
    (hregistered : ∀ b ∈ info.backendWeights, b ∈ s.backends) :
    (s.getModelRoute session).isSome := by
  have hrates : ∀ entries : List (Σ _ : Nat, ℚ), (∀ entry ∈ entries, entry.1 ∈ s.backends) →
      (entries.mapM fun entry => (s.backends.lookup entry.1).map fun backend =>
        (⟨backend.info, entry.2⟩ : BackendRate)).isSome := by
    intro entries
    induction entries with
    | nil => exact fun _ => rfl
    | cons entry entries ih =>
      intro hentries
      obtain ⟨backend, hb⟩ := Option.isSome_iff_exists.mp
        (AList.lookup_isSome.mpr (hentries entry (List.mem_cons_self _ _)))
      obtain ⟨rates, hrest⟩ := Option.isSome_iff_exists.mp
        (ih fun entry' hentry => hentries entry' (List.mem_cons_of_mem _ hentry))
      rw [List.mapM_cons, hb, hrest]
      rfl
  obtain ⟨rates, hroute⟩ := Option.isSome_iff_exists.mp (hrates info.backendWeights.entries
    fun entry hentry =>
      hregistered entry.1 (Table.mem_keyList.mp (List.mem_map.mpr ⟨entry, hentry, rfl⟩)))
  simp only [getModelRoute, hinfo, Option.bind_eq_bind, Option.some_bind, hroute]
  rfl

/-- A backend that a session's weights name is registered and serves the session. -/
theorem Consistent.serving {s : Scheduler} (hc : Consistent view s) {session : String}
    {info : SessionInfo} (hinfo : s.sessionTable.lookup session = some info) {b : Nat}
    (hb : b ∈ info.backendWeights) :
    ∃ backend, s.backends.lookup b = some backend ∧ session ∈ backend.models := by
  have hrecorded : (s.recordedRate b session).isSome := by
    simp [recordedRate, hinfo, AList.lookup_isSome.mpr hb]
  obtain ⟨rate, hhosted⟩ := Option.isSome_iff_exists.mp (hc.isSome b session ▸ hrecorded)
  obtain ⟨backend, hbackend, hrate⟩ := Option.bind_eq_some.mp hhosted
  refine ⟨backend, hbackend, not_not.mp fun hmem => ?_⟩
  rw [← BackendDelegate.rateOf_eq_none, hrate] at hmem
  cases hmem

/-- In every reachable state the backends that a session's weights name are registered
and serve the session, and `GetModelRoute` of every session in the table succeeds. -/
theorem weights_name_serving_backends {s : Scheduler} (hs : Reachable cfg policy db s)
    {session : String} {info : SessionInfo} (hinfo : s.sessionTable.lookup session = some info) :
    (∀ b ∈ info.backendWeights,
      ∃ backend, s.backends.lookup b = some backend ∧ session ∈ backend.models) ∧
    (s.getModelRoute session).isSome := by
  refine ⟨fun b hb => hs.serving.serving hinfo hb, getModelRoute_isSome hinfo fun b hb => ?_⟩
  obtain ⟨backend, hbackend, -⟩ := hs.serving.serving hinfo hb
  exact AList.lookup_isSome.mp (by simp [hbackend])

theorem weights_name_serving_backends_pinned :
    ∃ info, pinnedState.sessionTable.lookup "s" = some info ∧
      (∀ b ∈ info.backendWeights,
        ∃ backend, pinnedState.backends.lookup b = some backend ∧ "s" ∈ backend.models) ∧
      (pinnedState.getModelRoute "s").isSome := by
  obtain ⟨info, hinfo⟩ := Option.isSome_iff_exists.mp
    (by decide : (pinnedState.sessionTable.lookup "s").isSome)
  exact ⟨info, hinfo, weights_name_serving_backends (reachable_getD_run _ _ _ (by decide)) hinfo⟩

/-- A deployment with no static workload. -/
def openConfig : Config := ⟨1, 10, []⟩

end Scheduler

end NexusLb.Sched
