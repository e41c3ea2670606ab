import NexusLb.Scheduler.Demand

/-!
# Demand across a backend's departure

`RemoveBackend` first takes the departing backend out of the weights of every session it
served, so each of them holds the weight recorded there less than before, and then gives
the backend's throughput back in one of three ways: an idle backend that `Assign`s the
whole load serves every session at the departing backend's rates and records them
(`GetModelThroughput`); failing that, an unpinned backend's throughput becomes the
sessions' debt, which `AllocateUnassignedWorkloads` places as far as it can; and a backend
pinned to a static workload only releases its pin.  When every instance weighs its
throughput, the weight taken off is the throughput given back, so across
`UnregisterBackend` from a reachable state each session holds exactly what it held when
the load is taken over, up to `1e-3` when it is requeued to a delegate that refuses
sessions a backend serves already, and the departing backend's throughput less when it
was pinned (`unregister_backend_keeps_demand`).
-/

namespace NexusLb.Sched

namespace Scheduler

variable {policy : Policy}

/-- A change that moves what each session holds by `δ` of the session. -/
def ShiftsHeld (δ : String → ℚ) (s s' : Scheduler) : Prop :=
  ∀ session, (s'.sessionTable.lookup session).map SessionInfo.held =
    (s.sessionTable.lookup session).map fun info => info.held + δ session

namespace ShiftsHeld

variable {δ δ' : String → ℚ} {s s' s'' : Scheduler}

theorem of_sessionTable (h : s'.sessionTable = s.sessionTable) : ShiftsHeld 0 s s' := by
  intro session
  rw [h]
  simp

theorem trans (h : ShiftsHeld δ s s') (h' : ShiftsHeld δ' s' s'') : ShiftsHeld (δ + δ') s s'' := by
  intro session
  have hmap := congrArg (Option.map (· + δ' session)) (h session)
  simp only [Option.map_map] at hmap
  rw [h' session]
  refine hmap.trans (congrArg (Option.map · _) (funext fun info => ?_))
  simp [add_assoc]

/-- What a session held, moved by `δ`. -/
theorem lookup (h : ShiftsHeld δ s s') {session : String} {info : SessionInfo}
    (hinfo : s.sessionTable.lookup session = some info) :
    ∃ info', s'.sessionTable.lookup session = some info' ∧ info'.held = info.held + δ session := by
  have hmap := h session
  rw [hinfo, Option.map_some'] at hmap
  obtain ⟨info', hinfo', hheld⟩ := Option.map_eq_some'.mp hmap
  exact ⟨info', hinfo', hheld⟩

/-- A change to one session's record that keeps what it holds. -/
theorem modifySession {session : String} {f : SessionInfo → SessionInfo}
    (hf : ∀ info, (f info).held = info.held) : ShiftsHeld 0 s (s.modifySession session f) := by
  intro session'
  rw [sessionTable_modifySession, Table.lookup_modify]
  split <;> cases s.sessionTable.lookup session' <;> simp [hf]

/-- A loop each of whose passes keeps what every session holds. -/
theorem foldlM {α : Type} {f : Scheduler × Changes → α → Option (Scheduler × Changes)}
    (hf : ∀ acc x acc', f acc x = some acc' → ShiftsHeld 0 acc.1 acc'.1) {l : List α}
    {acc acc' : Scheduler × Changes} (h : l.foldlM f acc = some acc') : ShiftsHeld 0 acc.1 acc'.1 :=
  foldlM_invariant (fun acc' => ShiftsHeld 0 acc.1 acc'.1)
    (fun _ _ _ _ hacc hstep => by simpa using hacc.trans (hf _ _ _ hstep)) (.of_sessionTable rfl) h

end ShiftsHeld

/-! ### The steps of `RemoveBackend` -/

theorem shiftsHeld_moveBackup {d a : Nat} {acc acc' : Scheduler × Changes} {session : String}
    (h : moveBackup d a acc session = some acc') : ShiftsHeld 0 acc.1 acc'.1 := by
  obtain ⟨_, -, h⟩ := Option.bind_eq_some.mp h
  cases h
  exact .modifySession fun _ => rfl

theorem shiftsHeld_dropBackup {d : Nat} {acc acc' : Scheduler × Changes} {session : String}
    (h : dropBackup d acc session = some acc') : ShiftsHeld 0 acc.1 acc'.1 := by
  obtain ⟨_, -, h⟩ := Option.bind_eq_some.mp h
  split at h <;> cases h
  · exact .modifySession fun _ => rfl
  · exact .of_sessionTable rfl

/-- Pushing the model tables and the routes keeps the session table. -/
theorem shiftsHeld_publish {s s' : Scheduler} {backends : List Nat} {sessions : List String}
    (h : (s.updateModelTables backends).updateModelRoutes sessions = some s') :
    ShiftsHeld 0 s s' := by
  obtain ⟨effects, rfl⟩ := updateModelRoutes_frame h
  exact .of_sessionTable rfl

/-- The departing backend's throughput is zero on a session it does not serve. -/
theorem getModelThroughput_ite (backend : BackendDelegate) (session : String) :
    (if session ∈ backend.getModelSessions then backend.getModelThroughput session else 0) =
      backend.getModelThroughput session := by
  rw [BackendDelegate.getModelThroughput_eq, backend.rateOf_eq_ite]
  split <;> rfl

/-- A loop of `at` calls over distinct sessions, each of which adds `δ` of its session to
what the session holds. -/
theorem shiftsHeld_foldlM_atSession {f : String → SessionInfo → SessionInfo} {δ : String → ℚ}
    {P : SessionInfo → Prop} (hf : ∀ x info, P info → (f x info).held = info.held + δ x) :
    ∀ (l : List String) {s s' : Scheduler}, l.foldlM (fun s x => s.atSession x (f x)) s = some s' →
      l.Nodup → (∀ x ∈ l, ∀ info, s.sessionTable.lookup x = some info → P info) →
      ShiftsHeld (fun session => if session ∈ l then δ session else 0) s s'
  | [], _, _, h, _, _ => by cases h; simpa using ShiftsHeld.of_sessionTable rfl
  | x :: l, s, s', h, hnodup, hP => by
    obtain ⟨s1, hstep, h⟩ := Option.bind_eq_some.mp h
    obtain ⟨-, rfl⟩ := atSession_eq_some.mp hstep
    obtain ⟨hfresh, hnodup⟩ := List.nodup_cons.mp hnodup
    have hrest := shiftsHeld_foldlM_atSession hf l h hnodup fun y hy info hinfo =>
      hP y (List.mem_cons_of_mem _ hy) info (by
        rwa [sessionTable_modifySession,
          Table.lookup_modify_ne fun heq : y = x => hfresh (heq ▸ hy)] at hinfo)
    intro session
    rw [hrest session, sessionTable_modifySession, Table.lookup_modify]
    split
    · rename_i hsession
      subst hsession
      cases hinfo : s.sessionTable.lookup session with
      | none => rfl
      | some info => simp [hf session info (hP session (List.mem_cons_self _ _) info hinfo), hfresh]
    · simp [*]

/-- One pass of `RemoveBackend`'s first loop, from records that already dropped the
departing backend from the sessions an earlier pass visited: the pass leaves its session
without the backend, and every other session as it was. -/
theorem dropWeights_spec {d : Nat} {s : Scheduler} {acc : Scheduler × Changes} (session : String)
    (hacc : ∀ x, acc.1.sessionTable.lookup x =
      if x ∈ acc.2.sessions then
        (s.sessionTable.lookup x).map fun info =>
          { info with backendWeights := info.backendWeights.erase d }
      else s.sessionTable.lookup x) :
    (∀ x, (dropWeights d acc session).1.sessionTable.lookup x =
      if x = session then
        (s.sessionTable.lookup x).map fun info =>
          { info with backendWeights := info.backendWeights.erase d }
      else acc.1.sessionTable.lookup x) ∧
    ∀ x, (dropWeights d acc session).1.sessionTable.lookup x =
      if x ∈ (dropWeights d acc session).2.sessions then
        (s.sessionTable.lookup x).map fun info =>
          { info with backendWeights := info.backendWeights.erase d }
      else s.sessionTable.lookup x := by
  unfold dropWeights
  split
  · rename_i hnew
    have hsession := hacc session
    rw [if_neg hnew.2] at hsession
    refine ⟨fun x => ?_, fun x => ?_⟩ <;>
      rw [sessionTable_modifySession, Table.lookup_modify] <;> split
    · rename_i hx; subst hx; rw [hsession]
    · rfl
    · rename_i hx; subst hx; simp [hsession, List.mem_insert_iff]
    · rename_i hx; simp [hx, List.mem_insert_iff, hacc x]
  · rename_i hskip
    refine ⟨fun x => ?_, hacc⟩
    split
    · rename_i hx
      subst hx
      rw [hacc x]
      split
      · rfl
      · rename_i hfresh
        have hmissing : acc.1.sessionTable.lookup x = none :=
          AList.lookup_eq_none.mpr fun hmem => hskip ⟨hmem, hfresh⟩
        rw [hacc x, if_neg hfresh] at hmissing
        rw [hmissing]; rfl
    · rfl

/-- What `RemoveBackend`'s first loop leaves in every session's record. -/
theorem lookup_foldl_dropWeights {d : Nat} {s : Scheduler} :
    ∀ (sessions : List String) (acc : Scheduler × Changes),
      (∀ x, acc.1.sessionTable.lookup x =
        if x ∈ acc.2.sessions then
          (s.sessionTable.lookup x).map fun info =>
            { info with backendWeights := info.backendWeights.erase d }
        else s.sessionTable.lookup x) →
      ∀ x, (sessions.foldl (dropWeights d) acc).1.sessionTable.lookup x =
        if x ∈ sessions then
          (s.sessionTable.lookup x).map fun info =>
            { info with backendWeights := info.backendWeights.erase d }
        else acc.1.sessionTable.lookup x
  | [], _, _, _ => by simp
  | session :: sessions, acc, hacc, x => by
    obtain ⟨hframe, hacc'⟩ := dropWeights_spec session hacc
    rw [List.foldl_cons, lookup_foldl_dropWeights sessions _ hacc' x, hframe x]
    by_cases hx : x ∈ sessions <;> by_cases hxs : x = session <;> simp [hx, hxs]

/-- `RemoveBackend`'s first loop, after `backends_` dropped a registered backend: each
session holds the throughput the backend served it at less. -/
theorem shiftsHeld_foldl_dropWeights {s : Scheduler}
    (hc : Consistent id s) {backend : BackendDelegate}
    (hb : s.backends.lookup backend.nodeId = some backend) :
    ShiftsHeld (fun session => -backend.getModelThroughput session) s
      (backend.getModelSessions.foldl (dropWeights backend.nodeId)
        ({ s with backends := s.backends.erase backend.nodeId }, ⟨[], []⟩)).1 := by
  intro session
  rw [lookup_foldl_dropWeights (s := s) backend.getModelSessions
    ({ s with backends := s.backends.erase backend.nodeId }, ⟨[], []⟩)
    (fun x => (if_neg (List.not_mem_nil x)).symm) session]
  cases hinfo : s.sessionTable.lookup session with
  | none => split <;> rfl
  | some info =>
    have hweight : info.backendWeights.lookup backend.nodeId = backend.rateOf session := by
      have hrate := hc.eq backend.nodeId session
      rwa [recordedRate, hinfo, Option.some_bind, hostedRate, hb, Option.some_bind] at hrate
    split
    · simp only [Option.map_some', Option.some_inj, SessionInfo.held,
        SessionInfo.totalThroughput_erase, hweight, BackendDelegate.getModelThroughput_eq]
      ring
    · rename_i hnot
      have hzero : backend.getModelThroughput session = 0 := by
        rw [← getModelThroughput_ite, if_neg hnot]
      simp only [hzero, neg_zero, add_zero]

theorem findAssignee_congr {s s' : Scheduler} (h : s'.backends = s.backends)
    (departing : BackendDelegate) :
    s'.findAssignee policy departing = s.findAssignee policy departing := by
  simp only [findAssignee, h]

/-- `RemoveBackend` when idle backend `a` took the load over: the sessions hold the
throughput it now serves them at, which is the departing backend's. -/
theorem shiftsHeld_migrate {departing assigned : BackendDelegate} {a : Nat}
    {acc acc' : Scheduler × Changes} (hc : Consistent id acc.1)
    (hassignee : acc.1.findAssignee policy departing = some (a, assigned))
    (h : migrate departing a assigned acc = some acc') :
    ShiftsHeld departing.getModelThroughput acc.1 acc'.1 := by
  obtain ⟨backend, hb, hidle, hassign⟩ := findAssignee_spec policy hassignee
  have hid : assigned.nodeId = a := by
    rw [BackendDelegate.nodeId, (BackendDelegate.assign_spec policy hassign).1]
    exact hc.keyed a backend hb
  have hthroughput : assigned.getModelThroughput = departing.getModelThroughput := by
    funext session
    rw [BackendDelegate.getModelThroughput_eq, BackendDelegate.getModelThroughput_eq,
      BackendDelegate.rateOf_assign policy hassign]
  unfold Scheduler.migrate at h
  obtain ⟨s4, hloop, h⟩ := Option.bind_eq_some.mp h
  have hmove := shiftsHeld_foldlM_atSession (P := fun info => assigned.nodeId ∉ info.backendWeights)
    (fun x info hfree => by
      simp only [SessionInfo.held, SessionInfo.totalThroughput_emplace hfree, hthroughput]
      ring)
    _ hloop departing.models.nodupKeys fun x _ info hinfo hmem => by
      have hrate := hc.eq a x
      rw [recordedRate, show acc.1.sessionTable.lookup x = some info from hinfo, Option.some_bind,
        hostedRate, hb, Option.some_bind, BackendDelegate.isIdle_iff.mp hidle, ← hid] at hrate
      exact AList.lookup_eq_none.mp hrate hmem
  simp only [hthroughput, getModelThroughput_ite] at hmove
  have hpin : ShiftsHeld 0 s4 (if 0 ≤ assigned.workloadId then
      { s4 with assignedStaticWorkloads :=
          s4.assignedStaticWorkloads.emplace assigned.workloadId.toNat assigned.nodeId }
      else s4) := by
    split <;> exact .of_sessionTable rfl
  simpa using (hmove.trans hpin).trans (ShiftsHeld.foldlM (fun _ _ _ => shiftsHeld_moveBackup) h)

/-- `RemoveBackend` when no idle backend takes the load: a pinned backend's sessions keep
the loss, an unpinned backend's throughput becomes their debt, which is placed up to
`1e-3`. -/
theorem requeue_held (hrefuse : policy.RefusesServed) (hweigh : policy.WeighsThroughput)
    {departing : BackendDelegate} {acc acc' : Scheduler × Changes}
    (hc : Consistent id acc.1) (h : requeue policy departing acc = some acc') {session : String}
    {info : SessionInfo} (hinfo : acc.1.sessionTable.lookup session = some info) :
    ∃ info', acc'.1.sessionTable.lookup session = some info' ∧
      (0 ≤ departing.workloadId → info'.held = info.held) ∧
      (departing.workloadId < 0 →
        info.held + departing.getModelThroughput session - tolerance ≤ info'.held) := by
  unfold Scheduler.requeue at h
  obtain ⟨⟨s1, changes⟩, hloop, h⟩ := Option.bind_eq_some.mp h
  have hc1 : Consistent id s1 :=
    foldlM_invariant (fun acc : Scheduler × Changes => Consistent id acc.1)
    (fun _ _ _ _ hacc hstep => hacc.dropBackup hstep) hc hloop
  obtain ⟨info1, hinfo1, hheld1⟩ :=
    (ShiftsHeld.foldlM (fun _ _ _ => shiftsHeld_dropBackup) hloop).lookup hinfo
  dsimp only at h
  split at h
  · rename_i hpinned
    cases h
    exact ⟨info1, hinfo1, fun _ => by simpa using hheld1,
      fun hneg => absurd hpinned (not_le.mpr hneg)⟩
  · rename_i hunpinned
    obtain ⟨s2, hloop2, h⟩ := Option.bind_eq_some.mp h
    have hdebt := shiftsHeld_foldlM_atSession (P := fun _ => True) (fun x info _ => by
      simp only [SessionInfo.held, SessionInfo.totalThroughput]
      ring) _ hloop2 departing.models.nodupKeys fun _ _ _ _ => trivial
    simp only [getModelThroughput_ite] at hdebt
    obtain ⟨info2, hinfo2, hheld2⟩ := hdebt.lookup hinfo1
    obtain ⟨info', hinfo', hheld'⟩ := allocateUnassignedWorkloads_held hrefuse hweigh
      (hc1.foldlM_atSession hloop2 fun _ _ => rfl) h hinfo2
    refine ⟨info', hinfo', fun hpinned => absurd hpinned hunpinned, fun _ => ?_⟩
    simp only [Pi.zero_apply, add_zero] at hheld1
    rw [hheld2, hheld1] at hheld'
    exact hheld'

variable {cfg : Config} {db : ModelDatabase}

/-- When every instance weighs its throughput and `PrepareLoadModel` refuses a session a
backend serves already: from a reachable state, after a registered backend leaves, every
session holds (weights plus `unassigned_workload`) exactly what it held when an idle
backend took the load over; exactly the departing backend's throughput for it less when
none did and the backend was pinned to a static workload; and what it held up to `1e-3`
when none did and the backend was not pinned. -/
theorem unregister_backend_keeps_demand (hweigh : policy.WeighsThroughput)
    (hrefuse : policy.RefusesServed) {s s' : Scheduler} (hs : Reachable cfg policy db s)
    {b : Nat} {backend : BackendDelegate} (hb : s.backends.lookup b = some backend)
    (h : unregisterBackend policy b s = some s') {session : String} {info : SessionInfo}
    (hinfo : s.sessionTable.lookup session = some info) :
    ∃ info', s'.sessionTable.lookup session = some info' ∧
      (findAssignee policy backend { s with backends := s.backends.erase b } ≠ none →
        info'.held = info.held) ∧
      (findAssignee policy backend { s with backends := s.backends.erase b } = none →
        0 ≤ backend.workloadId → info'.held = info.held - backend.getModelThroughput session) ∧
      (findAssignee policy backend { s with backends := s.backends.erase b } = none →
        backend.workloadId < 0 → info.held - tolerance ≤ info'.held) := by
  have hc := hs.exact hweigh
  obtain rfl : backend.nodeId = b := hc.keyed b backend hb
  obtain ⟨hk, hd, hrates, hdeparting⟩ := hc.eraseBackend hb
  obtain ⟨backend', hb', hremove⟩ := Option.bind_eq_some.mp h
  obtain rfl : backend = backend' := Option.some_inj.mp (hb.symm.trans hb')
  clear h
  unfold removeBackend at hremove
  split at hremove
  · rename_i hidle
    cases hremove
    have hnone : backend.getModelThroughput session = 0 := by
      rw [BackendDelegate.getModelThroughput_eq, BackendDelegate.isIdle_iff.mp hidle]; rfl
    exact ⟨info, hinfo, fun _ => rfl, fun _ _ => by rw [hnone, sub_zero],
      fun _ _ => sub_le_self _ tolerance_pos.le⟩
  · obtain ⟨info1, hinfo1, hheld1⟩ := (shiftsHeld_foldl_dropWeights hc hb).lookup hinfo
    have hc1 := Consistent.foldl_dropWeights hk hd hrates hdeparting
    have hfind := @findAssignee_congr policy _ _
      (Scheduler.foldl_dropWeights backend.nodeId backend.getModelSessions
        ({ s with backends := s.backends.erase backend.nodeId }, ⟨[], []⟩) (by simp)).1 backend
    dsimp only at hremove hfind
    split at hremove
    · rename_i a assigned hassignee
      obtain ⟨⟨s3, changes⟩, hmove, h⟩ := Option.bind_eq_some.mp hremove
      obtain ⟨info', hinfo', hheld'⟩ :=
        ((shiftsHeld_migrate hc1 hassignee hmove).trans (shiftsHeld_publish h)).lookup hinfo1
      rw [← hfind, hassignee] at *
      refine ⟨info', hinfo', fun _ => ?_, fun hnone => absurd hnone (Option.some_ne_none _),
        fun hnone => absurd hnone (Option.some_ne_none _)⟩
      simp only [Pi.add_apply, Pi.zero_apply, add_zero] at hheld'
      rw [hheld', hheld1]
      ring
    · rename_i hnone
      obtain ⟨⟨s3, changes⟩, hmove, h⟩ := Option.bind_eq_some.mp hremove
      obtain ⟨info3, hinfo3, hpinned, hunpinned⟩ := requeue_held hrefuse hweigh hc1 hmove hinfo1
      obtain ⟨info', hinfo', hheld'⟩ := (shiftsHeld_publish h).lookup hinfo3
      rw [← hfind, hnone] at *
      simp only [Pi.zero_apply, add_zero] at hheld'
      refine ⟨info', hinfo', fun hsome => absurd rfl hsome, fun _ hw => ?_, fun _ hw => ?_⟩
      · rw [hheld', hpinned hw, hheld1]
        ring
      · linarith [hunpinned hw, hheld1, hheld']

/-- Backend `1` is pinned to the static workload serving `"s"` and backend `2` joins idle. -/
def handoverState : Scheduler :=
  (run pinningConfig pinningPolicy anyModel init
    [.registerBackend ⟨1, "gpu", "uuid-1"⟩, .registerBackend ⟨2, "gpu", "uuid-2"⟩]).getD init

/-- Frontend `7` loads `m` at `6` on two backends of `placingPolicy`, `4` on each. -/
def sharedState : Scheduler :=
  (run openConfig placingPolicy anyModel init
    [.registerFrontend 7, .registerBackend ⟨1, "gpu", "uuid-1"⟩,
      .registerBackend ⟨2, "gpu", "uuid-2"⟩, .loadModel ⟨7, "m", 6⟩]).getD init

/-- The three ways out, each from a reachable state: pinned backend `1` leaves with no
backend to take its load and `"s"` loses the `10` it served; it leaves with idle backend
`2` registered, which takes the load over, and `"s"` keeps what it held; and unpinned
backend `1` leaves while backend `2` serves `m` too, and `m` keeps what it held up to
`1e-3`, its `4` owed. -/
theorem unregister_backend_keeps_demand_cases :
    (∃ info info', pinnedState.sessionTable.lookup "s" = some info ∧
      (unregisterBackend pinningPolicy 1 pinnedState).bind (·.sessionTable.lookup "s") =
        some info' ∧ info'.held = info.held - 10) ∧
    (∃ info info', handoverState.sessionTable.lookup "s" = some info ∧
      (unregisterBackend pinningPolicy 1 handoverState).bind (·.sessionTable.lookup "s") =
        some info' ∧ info'.held = info.held) ∧
    (∃ info info', sharedState.sessionTable.lookup "m" = some info ∧
      (unregisterBackend placingPolicy 1 sharedState).bind (·.sessionTable.lookup "m") =
        some info' ∧ info.held - tolerance ≤ info'.held) := by
  refine ⟨?_, ?_, ?_⟩
  · have hb := (Option.some_get (show (pinnedState.backends.lookup 1).isSome by decide)).symm
    obtain ⟨s', h⟩ := Option.isSome_iff_exists.mp
      (show (unregisterBackend pinningPolicy 1 pinnedState).isSome by decide)
    obtain ⟨info, hinfo⟩ := Option.isSome_iff_exists.mp
      (show (pinnedState.sessionTable.lookup "s").isSome by decide)
    obtain ⟨info', hinfo', -, hpinned, -⟩ := unregister_backend_keeps_demand (fun _ => rfl)
      (fun _ _ _ _ => rfl) (reachable_getD_run _ _ _ (by decide)) hb h hinfo
    exact ⟨info, info', hinfo, by rw [h]; exact hinfo', hpinned (by decide) (by decide)⟩
  · have hb := (Option.some_get (show (handoverState.backends.lookup 1).isSome by decide)).symm
    obtain ⟨s', h⟩ := Option.isSome_iff_exists.mp
      (show (unregisterBackend pinningPolicy 1 handoverState).isSome by decide)
    obtain ⟨info, hinfo⟩ := Option.isSome_iff_exists.mp
      (show (handoverState.sessionTable.lookup "s").isSome by decide)
    obtain ⟨info', hinfo', hassigned, -, -⟩ := unregister_backend_keeps_demand (fun _ => rfl)
      (fun _ _ _ _ => rfl) (reachable_getD_run _ _ _ (by decide)) hb h hinfo
    exact ⟨info, info', hinfo, by rw [h]; exact hinfo', hassigned (by decide)⟩
  · have hb := (Option.some_get
      (show (sharedState.backends.lookup 1).isSome by with_unfolding_all decide)).symm
    obtain ⟨s', h⟩ := Option.isSome_iff_exists.mp
      (show (unregisterBackend placingPolicy 1 sharedState).isSome by with_unfolding_all decide)
    obtain ⟨info, hinfo⟩ := Option.isSome_iff_exists.mp
      (show (sharedState.sessionTable.lookup "m").isSome by with_unfolding_all decide)
    obtain ⟨info', hinfo', -, -, hrequeued⟩ := unregister_backend_keeps_demand (fun _ => rfl)
      placingPolicy_refusesServed
        (reachable_getD_run _ _ _ (by with_unfolding_all decide)) hb h hinfo
    exact ⟨info, info', hinfo, by rw [h]; exact hinfo',
      hrequeued (by with_unfolding_all decide) (by with_unfolding_all decide)⟩

end Scheduler

end NexusLb.Sched
