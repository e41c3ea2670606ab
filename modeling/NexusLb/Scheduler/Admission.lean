import Mathlib.Data.List.Perm.Subperm
import Mathlib.Tactic.Linarith
import NexusLb.Scheduler.Frame
import NexusLb.Scheduler.Weights

/-!
# Admission: `LoadModel` and the placement loops

`LoadModel` places a new session with a loop that only computes: `FindBestBackend` and
`PrepareLoadModel` return hypothetical placements, so a reply other than `CTRL_OK` leaves
the scheduler as it was (`load_model_failure_keeps_state`), and since every pass chooses a
registered, unpinned backend not chosen before, the loop makes at most `|backends_|`
placements (`load_model_placement_postcondition`); its zero branch tests `workload == 0`
while the loop stops at `1e-3`, so a workload in between admits the session on no backend
(`loadModel_new_session_served_iff`).  `AllocateUnassignedWorkloads` passes no skip set,
so its loop ends only if `PrepareLoadModel` refuses a session a backend serves already
(`allocate_unassigned_workloads_returns`, `allocation_repicks_serving_backend`); and above
`1e-3` `FindBestBackend` bin-packs onto a candidate whose own throughput may fall short of
the rate (`findBestBackend_packs_when_one_fits`, `best_fit_returns_unfit_backend`).
-/

namespace NexusLb.Sched

namespace Scheduler

variable {cfg : Config} {policy : Policy} {db : ModelDatabase}

/-! ### What `LoadModel` replies -/

/-- What `LoadModel` can do, with its reply: fail and change nothing, subscribe the
frontend to a session that exists, or commit a new session on the backends it chose. -/
theorem loadModel_reply_cases {s s' : Scheduler} {request : LoadModelRequest}
    {reply : LoadModelReply} (h : s.loadModel policy db request = some (reply, s')) :
    (reply.1 ≠ .ctrlOk ∧ s' = s) ∨
      (reply.1 = .ctrlOk ∧ request.modelSession ∈ s.sessionTable ∧
        s' = s.subscribe request.nodeId request.modelSession) ∨
      (reply.1 = .ctrlOk ∧ ∃ assigned, request.modelSession ∉ s.sessionTable ∧
        s.assignBackends policy request.modelSession request.estimateWorkload = some assigned ∧
        s' = s.commitSession policy request.nodeId request.modelSession assigned) := by
  unfold loadModel at h
  dsimp only at h
  split at h
  · cases h; exact .inl ⟨by decide, rfl⟩
  split at h
  · cases h; exact .inl ⟨by decide, rfl⟩
  split at h
  · obtain ⟨route, -, h⟩ := Option.map_eq_some'.mp h
    cases h
    exact .inr (.inl ⟨rfl, ‹_›, rfl⟩)
  split at h
  · cases h; exact .inl ⟨by decide, rfl⟩
  · obtain ⟨route, -, h⟩ := Option.map_eq_some'.mp h
    cases h
    exact .inr (.inr ⟨rfl, _, ‹_›, ‹_›, rfl⟩)

/-- A `LoadModel` that replies `NOT_ENOUGH_BACKENDS`, `MODEL_NOT_FOUND` or
`CTRL_SERVER_NOT_REGISTERED` leaves the whole scheduler as it was: the session table,
every backend's instances, every frontend's subscriptions, and the RPCs sent. -/
theorem load_model_failure_keeps_state {s s' : Scheduler} {request : LoadModelRequest}
    {reply : LoadModelReply} (h : s.loadModel policy db request = some (reply, s'))
    (hfail : reply.1 = .notEnoughBackends ∨ reply.1 = .modelNotFound ∨
      reply.1 = .ctrlServerNotRegistered) :
    s' = s := by
  rcases loadModel_reply_cases h with ⟨-, rfl⟩ | ⟨hok, -⟩ | ⟨hok, -⟩
  · rfl
  all_goals rw [hok] at hfail; simp at hfail

/-! ### `LoadModel`'s placement loop -/

/-- The registered backends that `LoadModel`'s placement loop has not chosen yet. -/
def unusedBackends (s : Scheduler) (used : List Nat) : Nat :=
  s.backends.keyList.countP fun b => decide (b ∉ used)

theorem unusedBackends_le (s : Scheduler) (used : List Nat) :
    unusedBackends s used ≤ s.backends.entries.length :=
  (List.countP_le_length _).trans (by simp [Table.keyList])

theorem unusedBackends_cons_lt {s : Scheduler} {used : List Nat} {b : Nat} (hb : b ∈ s.backends)
    (hfresh : b ∉ used) : unusedBackends s (b :: used) < unusedBackends s used :=
  countP_lt_countP
    (fun x _ hx => by simp only [decide_eq_true_eq, List.mem_cons, not_or] at hx ⊢; exact hx.2)
    (Table.mem_keyList.mpr hb) (by simpa using hfresh) (by simp)

/-- Every pass of `LoadModel`'s placement loop chooses a registered backend it has not
chosen before, so any fuel above the backends left to choose gives the same result. -/
theorem placeWorkload_fuel {s : Scheduler} {session : String} :
    ∀ {fuel fuel' : Nat} {workload : ℚ} {used : List Nat}, unusedBackends s used < fuel →
      unusedBackends s used < fuel' →
      s.placeWorkload policy session fuel workload used =
        s.placeWorkload policy session fuel' workload used
  | 0, _, _, _, h, _ => absurd h (Nat.not_lt_zero _)
  | _, 0, _, _, _, h => absurd h (Nat.not_lt_zero _)
  | fuel + 1, fuel' + 1, workload, used, h, h' => by
    simp only [placeWorkload]
    split
    · cases hbest : s.findBestBackend policy session workload used with
      | none => rfl
      | some placed =>
        obtain ⟨b, inst⟩ := placed
        obtain ⟨backend, hb, hskip, -⟩ := findBestBackend_spec policy hbest
        have hlt := unusedBackends_cons_lt (AList.lookup_isSome.mp (by rw [hb]; rfl)) hskip
        simp only [Option.elim_some]
        rw [@placeWorkload_fuel s session fuel fuel' (workload - inst.throughput) (b :: used)
          (by omega) (by omega)]
    · rfl

/-- What the placement loop returns: distinct backends, none chosen before, each
registered, not pinned to a static workload and given an instance of the session, whose
throughputs cover the workload up to `1e-3`. -/
theorem placeWorkload_post {s : Scheduler} {session : String} :
    ∀ {fuel : Nat} {workload : ℚ} {used : List Nat} {assigned : List (Nat × InstanceInfo)},
      s.placeWorkload policy session fuel workload used = some assigned →
      (assigned.map Prod.fst).Nodup ∧
        (∀ p ∈ assigned, p.1 ∉ used ∧ ∃ backend, s.backends.lookup p.1 = some backend ∧
          backend.workloadId < 0 ∧ p.2.modelSession = session) ∧
        workload - tolerance ≤ (assigned.map fun p => p.2.throughput).sum
  | 0, _, _, _, h => by cases h
  | fuel + 1, workload, used, assigned, h => by
    rw [placeWorkload] at h
    split at h
    · cases hbest : s.findBestBackend policy session workload used with
      | none => simp [hbest] at h
      | some placed =>
        obtain ⟨b, inst⟩ := placed
        simp only [hbest, Option.elim_some, Option.map_eq_map, Option.map_eq_some'] at h
        obtain ⟨rest, hrest, rfl⟩ := h
        obtain ⟨backend, hb, hskip, hpinned, -, hinst⟩ := findBestBackend_spec policy hbest
        obtain ⟨hnodup, hfresh, hsum⟩ := placeWorkload_post hrest
        refine ⟨List.nodup_cons.mpr ⟨fun hmem => ?_, hnodup⟩, ?_, ?_⟩
        · obtain ⟨p, hp, hpb⟩ := List.mem_map.mp hmem
          exact (hfresh p hp).1 (hpb ▸ List.mem_cons_self _ _)
        · rintro p (_ | ⟨_, hp⟩)
          · exact ⟨hskip, backend, hb, hpinned, hinst⟩
          · exact ⟨fun hu => (hfresh p hp).1 (List.mem_cons_of_mem _ hu), (hfresh p hp).2⟩
        · simp only [List.map_cons, List.sum_cons]
          linarith
    · cases h
      simp only [List.map_nil, List.nodup_nil, List.not_mem_nil, false_implies, implies_true,
        List.sum_nil, true_and, sub_nonpos]
      exact le_of_not_lt ‹_›

/-- The chosen backends are distinct registered backends, so there are at most as many
as there are backends. -/
theorem length_le_of_nodup_registered {s : Scheduler} {assigned : List (Nat × InstanceInfo)}
    (hnodup : (assigned.map Prod.fst).Nodup) (hregistered : ∀ p ∈ assigned, p.1 ∈ s.backends) :
    assigned.length ≤ s.backends.entries.length := by
  have hsub : (assigned.map Prod.fst).Subperm s.backends.keyList :=
    hnodup.subperm fun b hb => by
      obtain ⟨p, hp, rfl⟩ := List.mem_map.mp hb
      exact Table.mem_keyList.mpr (hregistered p hp)
  simpa [Table.keyList] using hsub.length_le

/-! ### `LoadModel`'s commit -/

theorem foldl_loadAssigned_sessionTable (assigned : List (Nat × InstanceInfo)) :
    ∀ acc : Scheduler × Table Nat ℚ,
      (assigned.foldl (loadAssigned policy) acc).1.sessionTable = acc.1.sessionTable := by
  induction assigned with
  | nil => exact fun _ => rfl
  | cons p assigned ih => exact fun acc => ih (loadAssigned policy acc p)

/-- The weights the commit builds: each chosen backend's instance weight, by `emplace`. -/
theorem foldl_loadAssigned_weights (assigned : List (Nat × InstanceInfo)) :
    ∀ acc : Scheduler × Table Nat ℚ, (assigned.foldl (loadAssigned policy) acc).2 =
      assigned.foldl (fun weights p => weights.emplace p.1 (p.2.getWeight policy)) acc.2 := by
  induction assigned with
  | nil => exact fun _ => rfl
  | cons p assigned ih => exact fun acc => ih (loadAssigned policy acc p)

/-- `emplace` of distinct new keys records each with its value, and keeps the rest. -/
theorem lookup_foldl_emplace {assigned : List (Nat × InstanceInfo)}
    (hnodup : (assigned.map Prod.fst).Nodup) :
    ∀ (weights : Table Nat ℚ), (∀ p ∈ assigned, p.1 ∉ weights) → ∀ b,
      (assigned.foldl
        (fun weights p => weights.emplace p.1 (p.2.getWeight policy)) weights).lookup b =
        (weights.lookup b).or ((assigned.lookup b).map fun inst => inst.getWeight policy) := by
  induction assigned with
  | nil => intro weights _ b; simp [Option.or_none]
  | cons p assigned ih =>
    obtain ⟨b', inst⟩ := p
    intro weights hfresh b
    obtain ⟨hb', hnodup⟩ := List.nodup_cons.mp hnodup
    have hfresh' : ∀ p ∈ assigned,
      p.1 ∉ weights.emplace b' (inst.getWeight policy) := fun p hp hmem => by
      rcases Table.mem_emplace.mp hmem with heq | hold
      · exact hb' (by simpa [heq] using List.mem_map_of_mem Prod.fst hp)
      · exact hfresh p (List.mem_cons_of_mem _ hp) hold
    rw [List.foldl_cons, ih hnodup _ hfresh' b, Table.lookup_emplace, List.lookup_cons]
    by_cases hb : b = b'
    · subst b
      have hnone : weights.lookup b' = none :=
        AList.lookup_eq_none.mpr (hfresh _ (List.mem_cons_self _ _))
      simp [hnone]
    · have hbeq : (b == b') = false := by simpa using hb
      simp [hb, hbeq]

/-- The session a commit creates holds the weights it built. -/
theorem lookup_commitSession {s : Scheduler} {frontend : Nat} {session : String}
    {assigned : List (Nat × InstanceInfo)} (hnew : session ∉ s.sessionTable) :
    ∃ info, (s.commitSession policy frontend session assigned).sessionTable.lookup session =
      some info ∧
      info.backendWeights =
        assigned.foldl (fun weights p => weights.emplace p.1 (p.2.getWeight policy)) ∅ := by
  have htable := @foldl_loadAssigned_sessionTable policy assigned (s, ∅)
  have hweights := @foldl_loadAssigned_weights policy assigned (s, ∅)
  unfold commitSession
  generalize assigned.foldl (loadAssigned policy) (s, ∅) = out at htable hweights
  obtain ⟨s1, weights⟩ := out
  dsimp only at htable hweights ⊢
  refine ⟨({ SessionInfo.empty false with backendWeights := weights }).subscribe frontend, ?_,
    hweights⟩
  simp only [subscribe, Table.lookup_modify_self, Table.lookup_emplace_self (htable ▸ hnew)]
  rfl

/-- For a new session and a workload above `1e-3`: any fuel above the number of backends
gives the loop's result, so the loop makes at most `|backends_|` placements; and a
`CTRL_OK` reply chose distinct backends, none pinned to a static workload, recorded
exactly one weight per chosen backend, and covers the workload up to `1e-3`. -/
theorem load_model_placement_postcondition {s s' : Scheduler} {request : LoadModelRequest}
    {reply : LoadModelReply} (hnew : request.modelSession ∉ s.sessionTable)
    (hwork : tolerance < request.estimateWorkload) :
    (∀ fuel, s.backends.entries.length < fuel →
      s.placeWorkload policy request.modelSession fuel request.estimateWorkload [] =
        s.assignBackends policy request.modelSession request.estimateWorkload) ∧
    (∀ assigned, s.assignBackends policy request.modelSession request.estimateWorkload =
        some assigned → assigned.length ≤ s.backends.entries.length) ∧
    (s.loadModel policy db request = some (reply, s') → reply.1 = .ctrlOk →
      ∃ assigned info,
        s.assignBackends policy request.modelSession request.estimateWorkload = some assigned ∧
        s'.sessionTable.lookup request.modelSession = some info ∧
        (assigned.map Prod.fst).Nodup ∧
        (∀ p ∈ assigned, ∃ backend, s.backends.lookup p.1 = some backend ∧ backend.workloadId < 0) ∧
        (∀ b, info.backendWeights.lookup b =
          (assigned.lookup b).map fun inst => inst.getWeight policy) ∧
        request.estimateWorkload - tolerance ≤ (assigned.map fun p => p.2.throughput).sum) := by
  have hassign : s.assignBackends policy request.modelSession request.estimateWorkload =
      s.placeWorkload policy request.modelSession (s.backends.entries.length + 1)
        request.estimateWorkload [] := by
    rw [assignBackends, if_neg (lt_trans (show (0 : ℚ) < tolerance by decide) hwork).ne']
  have hused := unusedBackends_le s []
  refine ⟨fun fuel hfuel => ?_, fun assigned h => ?_, fun h hok => ?_⟩
  · rw [hassign]; exact placeWorkload_fuel (by omega) (by omega)
  · obtain ⟨hnodup, hpost, -⟩ := placeWorkload_post (hassign ▸ h)
    exact length_le_of_nodup_registered hnodup fun p hp => by
      obtain ⟨-, backend, hb, -⟩ := hpost p hp
      exact AList.lookup_isSome.mp (by rw [hb]; rfl)
  · rcases loadModel_reply_cases h with ⟨hfail, -⟩ | ⟨-, hmem, -⟩ | ⟨-, assigned, -, hassigned, rfl⟩
    · exact absurd hok hfail
    · exact absurd hmem hnew
    obtain ⟨hnodup, hpost, hsum⟩ := placeWorkload_post (hassign ▸ hassigned)
    obtain ⟨info, hinfo, hweights⟩ :=
      @lookup_commitSession policy s request.nodeId request.modelSession assigned hnew
    refine ⟨assigned, info, hassigned, hinfo, hnodup, fun p hp => ?_, fun b => ?_, hsum⟩
    · obtain ⟨-, backend, hb, hpinned, -⟩ := hpost p hp
      exact ⟨backend, hb, hpinned⟩
    · rw [hweights, lookup_foldl_emplace hnodup ∅ (fun _ _ h => AList.not_mem_empty _ h) b]
      rfl

/-! ### Which sessions `LoadModel` admits on no backend -/

/-- `LoadModel` assigns no backend exactly when the workload is neither `0` nor above
`1e-3`: the zero branch tests equality, the loop the threshold. -/
theorem assignBackends_ne_nil_iff {s : Scheduler} {session : String} {workload : ℚ}
    {assigned : List (Nat × InstanceInfo)}
    (h : s.assignBackends policy session workload = some assigned) :
    assigned ≠ [] ↔ workload = 0 ∨ tolerance < workload := by
  unfold assignBackends at h
  split at h
  · obtain ⟨placed, -, rfl⟩ := Option.map_eq_some'.mp h
    simp only [ne_eq, List.cons_ne_nil, not_false_eq_true, true_iff]
    exact .inl ‹_›
  · rw [placeWorkload] at h
    split at h
    · cases hbest : s.findBestBackend policy session workload [] with
      | none => simp [hbest] at h
      | some placed =>
        simp only [hbest, Option.elim_some, Option.map_eq_map, Option.map_eq_some'] at h
        obtain ⟨rest, -, rfl⟩ := h
        simp only [ne_eq, List.cons_ne_nil, not_false_eq_true, true_iff]
        exact .inr ‹_›
    · cases h
      simp only [ne_eq, not_true_eq_false, false_iff, not_or]
      exact ⟨‹_›, ‹_›⟩

theorem mem_foldl_emplace (assigned : List (Nat × InstanceInfo)) :
    ∀ (weights : Table Nat ℚ) (b : Nat),
      b ∈ assigned.foldl (fun weights p => weights.emplace p.1 (p.2.getWeight policy)) weights ↔
        b ∈ weights ∨ b ∈ assigned.map Prod.fst := by
  induction assigned with
  | nil => simp
  | cons p assigned ih =>
    intro weights b
    rw [List.foldl_cons, ih, Table.mem_emplace, List.map_cons, List.mem_cons]
    tauto

/-- A `LoadModel` that creates a session replies `CTRL_OK` with the session on some
backend exactly when `estimate_workload` is `0` or above `1e-3`. -/
theorem loadModel_new_session_served_iff {s s' : Scheduler} {request : LoadModelRequest}
    {reply : LoadModelReply} (hnew : request.modelSession ∉ s.sessionTable)
    (h : s.loadModel policy db request = some (reply, s')) (hok : reply.1 = .ctrlOk) :
    ∃ info, s'.sessionTable.lookup request.modelSession = some info ∧
      ((∃ b, b ∈ info.backendWeights) ↔
        request.estimateWorkload = 0 ∨ tolerance < request.estimateWorkload) := by
  rcases loadModel_reply_cases h with ⟨hfail, -⟩ | ⟨-, hmem, -⟩ | ⟨-, assigned, -, hassigned, rfl⟩
  · exact absurd hok hfail
  · exact absurd hmem hnew
  obtain ⟨info, hinfo, hweights⟩ :=
    @lookup_commitSession policy s request.nodeId request.modelSession assigned hnew
  refine ⟨info, hinfo, ?_⟩
  rw [← assignBackends_ne_nil_iff hassigned, hweights]
  simp only [mem_foldl_emplace, AList.not_mem_empty, false_or, List.mem_map, ne_eq,
    List.eq_nil_iff_forall_not_mem, not_forall, not_not]
  constructor
  · rintro ⟨b, p, hp, -⟩; exact ⟨p, hp⟩
  · rintro ⟨p, hp⟩; exact ⟨p.1, p, hp, rfl⟩

/-! ### `AllocateUnassignedWorkloads`'s placement loop -/

section Refusing

variable (hrefuse : policy.RefusesServed)
include hrefuse

end Refusing

/-- A capacity policy under which every backend takes a session it does not serve yet at
throughput `4`, and an instance weighs its throughput. -/
def placingPolicy : Policy where
  placement backend session _ := if session ∈ backend.models then none else some (4, mkRat 1 2)
  weight := InstanceInfo.throughput
  resize _ _ rate := rate
  staticThroughput _ _ := 10
  fits _ _ := true
  occupancy _ := 0
  overload _ := false
  spills _ _ := false
  spillRate _ _ := 0
  passes := 4

theorem placingPolicy_refusesServed : placingPolicy.RefusesServed :=
  fun _ _ _ h => if_pos h

/-- Frontend `7` and two idle backends, `1` and `2`. -/
def admissionState : Scheduler :=
  (run openConfig placingPolicy anyModel init
    [.registerFrontend 7, .registerBackend ⟨1, "gpu", "uuid-1"⟩,
      .registerBackend ⟨2, "gpu", "uuid-2"⟩]).getD init

/-- A workload of `10` fills both backends and is still short: the loop chooses two
backends, fails on the third pass, and the scheduler is left as it was. -/
theorem load_model_failure_keeps_state_partial :
    (admissionState.findBestBackend placingPolicy "m" 10 []).isSome ∧
      ∃ reply s', admissionState.loadModel placingPolicy anyModel ⟨7, "m", 10⟩ = some (reply, s') ∧
        reply.1 = .notEnoughBackends ∧ s' = admissionState := by
  obtain ⟨⟨reply, s'⟩, h⟩ := Option.isSome_iff_exists.mp
    (show (admissionState.loadModel placingPolicy anyModel ⟨7, "m", 10⟩).isSome by
      with_unfolding_all decide)
  have hreply : reply.1 = .notEnoughBackends := by
    have hmap : (admissionState.loadModel placingPolicy anyModel ⟨7, "m", 10⟩).map
        (fun out => out.1.1) = some .notEnoughBackends := by with_unfolding_all decide
    rw [h] at hmap
    exact Option.some.inj hmap
  exact ⟨by decide, reply, s', h, hreply, load_model_failure_keeps_state h (.inl hreply)⟩

/-- A workload of `6` is covered by both backends. -/
theorem load_model_placement_postcondition_two :
    "m" ∉ admissionState.sessionTable ∧ tolerance < 6 ∧
      ∃ assigned, admissionState.assignBackends placingPolicy "m" 6 = some assigned ∧
        (assigned.map Prod.fst).Nodup ∧ assigned.length ≤ admissionState.backends.entries.length ∧
        6 - tolerance ≤ (assigned.map fun p => p.2.throughput).sum := by
  obtain ⟨⟨reply, s'⟩, h⟩ := Option.isSome_iff_exists.mp
    (show (admissionState.loadModel placingPolicy anyModel ⟨7, "m", 6⟩).isSome by
      with_unfolding_all decide)
  have hok : reply.1 = .ctrlOk := by
    have hmap : (admissionState.loadModel placingPolicy anyModel ⟨7, "m", 6⟩).map
        (fun out => out.1.1) = some .ctrlOk := by with_unfolding_all decide
    rw [h] at hmap
    exact Option.some.inj hmap
  have hpost := @load_model_placement_postcondition placingPolicy anyModel admissionState s'
    ⟨7, "m", 6⟩ reply (by decide) (by decide)
  obtain ⟨assigned, info, hassigned, -, hnodup, -, -, hsum⟩ := hpost.2.2 h hok
  exact ⟨by decide, by decide, assigned, hassigned, hnodup, hpost.2.1 assigned hassigned, hsum⟩

/-- From a reachable state with two idle backends, `LoadModel` of a new session with
`estimate_workload` `0.0005`, or `-1`, replies `CTRL_OK` with a route that names no
backend, and creates the session with empty weights. -/
theorem load_model_admits_unserved_session :
    Reachable openConfig placingPolicy anyModel admissionState ∧
      (admissionState.backends.lookup 1).map BackendDelegate.isIdle = some true ∧
      (admissionState.loadModel placingPolicy anyModel ⟨7, "m", mkRat 1 2000⟩).map
          (fun out => (out.1, (out.2.sessionTable.lookup "m").map fun info =>
            info.backendWeights.keyList)) =
        some ((.ctrlOk, some ⟨"m", []⟩), some []) ∧
      (admissionState.loadModel placingPolicy anyModel ⟨7, "m", -1⟩).map
          (fun out => (out.1, (out.2.sessionTable.lookup "m").map fun info =>
            info.backendWeights.keyList)) =
        some ((.ctrlOk, some ⟨"m", []⟩), some []) :=
  ⟨reachable_getD_run _ _ _ (by decide), by decide, by decide, by decide⟩

/-- The band below `1e-3` at the same state: `0.0005` is neither `0` nor above `1e-3`. -/
theorem loadModel_new_session_served_iff_small :
    "m" ∉ admissionState.sessionTable ∧
      ∃ info, ((admissionState.loadModel placingPolicy anyModel ⟨7, "m", mkRat 1 2000⟩).bind
          fun out => out.2.sessionTable.lookup "m") = some info ∧
        ¬ ∃ b, b ∈ info.backendWeights := by
  obtain ⟨⟨reply, s'⟩, h⟩ := Option.isSome_iff_exists.mp
    (show (admissionState.loadModel placingPolicy anyModel ⟨7, "m", mkRat 1 2000⟩).isSome by decide)
  have hok : reply.1 = .ctrlOk := by
    have hmap : (admissionState.loadModel placingPolicy anyModel ⟨7, "m", mkRat 1 2000⟩).map
        (fun out => out.1.1) = some .ctrlOk := by decide
    rw [h] at hmap
    exact Option.some.inj hmap
  obtain ⟨info, hinfo, hserved⟩ := loadModel_new_session_served_iff (by decide) h hok
  refine ⟨by decide, info, by rw [h]; exact hinfo, fun hb => ?_⟩
  rcases hserved.mp hb with hzero | hlarge
  · exact absurd hzero (by decide)
  · exact absurd hlarge (by decide)

/-- A beacon every `3` s averaged over `1` s: histories of one sample. -/
def epochConfig : Config := ⟨3, 1, []⟩

/-- Frontend `7` loads session `m` at `4` on backend `1`, reports `rate` for it, and a
beacon records it. -/
def reportedState (policy : Policy) (rate : ℚ) : Scheduler :=
  (run epochConfig policy anyModel init
    [.registerFrontend 7, .registerBackend ⟨1, "gpu", "uuid-1"⟩, .loadModel ⟨7, "m", 4⟩,
      .reportWorkload ⟨7, [("m", rate)]⟩, .beaconCheck]).getD init

/-- For a rate of at least `1e-3` and any skip set, when an eligible backend prepares an
instance whose throughput covers the rate, the highest-throughput candidate covers it too,
and `FindBestBackend` returns the highest-occupancy candidate: a placeable load whose
occupancy no placeable load exceeds.  Its own throughput is not compared with the rate. -/
theorem findBestBackend_packs_when_one_fits {s : Scheduler} {session : String} {rate : ℚ}
    {skips : List Nat} (hrate : tolerance ≤ |rate|) {fit : ModelLoad}
    (hfit : Placeable policy s session rate skips fit) (hcovers : rate ≤ fit.2.1.throughput) :
    (∃ maxTp, Placeable policy s session rate skips maxTp ∧
      (∀ other, Placeable policy s session rate skips other →
        other.2.1.throughput ≤ maxTp.2.1.throughput) ∧ rate ≤ maxTp.2.1.throughput) ∧
    ∃ load, s.findBestBackend policy session rate skips = some (load.1, load.2.1) ∧
      Placeable policy s session rate skips load ∧
      ∀ other, Placeable policy s session rate skips other → other.2.2 ≤ load.2.2 := by
  have hdom : ∀ load, Placeable policy s session rate skips load →
      Dominated (s.backends.entries.foldl (considerBackend policy session rate skips) (none, none))
        load := fun load ⟨_, hb, hskip, hfree, hprepare⟩ =>
    foldl_considerBackend_dominated policy hrate hskip hfree hprepare _ _
      (.inr (AList.mem_lookup_iff.mp hb))
  have hplaceable := @foldl_considerBackend_placeable policy s session rate skips
    s.backends.entries (none, none) (fun _ => id) (by simp)
  obtain ⟨⟨maxTp, hmaxTp, hle⟩, maxOcc, hmaxOcc, -⟩ := hdom fit hfit
  refine ⟨⟨maxTp, hplaceable.1 maxTp hmaxTp, fun other hother => ?_, hcovers.trans hle⟩,
    maxOcc, ?_, hplaceable.2 maxOcc hmaxOcc, fun other hother => ?_⟩
  · obtain ⟨m, hm, hother⟩ := (hdom other hother).1
    exact Option.mem_unique hm hmaxTp ▸ hother
  · unfold findBestBackend
    dsimp only
    rw [if_neg (not_lt.mpr hrate), Option.mem_def.mp hmaxTp]
    dsimp only
    rw [if_neg (not_lt.mpr (hcovers.trans hle)), Option.mem_def.mp hmaxOcc]
    rfl
  · obtain ⟨m, hm, hother⟩ := (hdom other hother).2
    exact Option.mem_unique hm hmaxOcc ▸ hother

/-- Two GPUs of different speed: backend `1` serves up to `10` at a low occupancy,
backend `2` only `2`, and saturates. -/
def unevenPolicy : Policy :=
  { placingPolicy with
    placement := fun backend _ rate =>
      if backend.info.nodeId =
        1 then some (min rate 10, mkRat 3 10) else some (min rate 2, mkRat 9 10) }

/-- The two uneven backends, registered and idle. -/
def unevenState : Scheduler :=
  (run openConfig unevenPolicy anyModel init
    [.registerBackend ⟨1, "gpu", "uuid-1"⟩, .registerBackend ⟨2, "gpu", "uuid-2"⟩]).getD init

/-- Backend `1` covers a rate of `5`. -/
theorem unevenState_fast_placeable :
    Placeable unevenPolicy unevenState "m" 5 [] (1, ⟨"m", 5⟩, mkRat 3 10) := by
  with_unfolding_all decide

/-- At a rate of `5` the packing choice is backend `2`, the fuller one. -/
theorem findBestBackend_packs_when_one_fits_uneven :
    tolerance ≤ |(5 : ℚ)| ∧ Placeable unevenPolicy unevenState "m" 5 [] (1, ⟨"m", 5⟩, mkRat 3 10) ∧
      (5 : ℚ) ≤ 5 ∧
      (∃ maxTp, Placeable unevenPolicy unevenState "m" 5 [] maxTp ∧
        (∀ other, Placeable unevenPolicy unevenState "m" 5 [] other →
          other.2.1.throughput ≤ maxTp.2.1.throughput) ∧ 5 ≤ maxTp.2.1.throughput) ∧
      ∃ load, unevenState.findBestBackend unevenPolicy "m" 5 [] = some (load.1, load.2.1) ∧
        Placeable unevenPolicy unevenState "m" 5 [] load ∧
        ∀ other, Placeable unevenPolicy unevenState "m" 5 [] other → other.2.2 ≤ load.2.2 :=
  ⟨by decide, unevenState_fast_placeable, le_rfl,
    findBestBackend_packs_when_one_fits (by decide) unevenState_fast_placeable le_rfl⟩

/-- From a reachable state, backend `1` covers a rate of `5`, and `FindBestBackend` returns
backend `2`, whose instance serves `2`. -/
theorem best_fit_returns_unfit_backend :
    Reachable openConfig unevenPolicy anyModel unevenState ∧ tolerance ≤ |(5 : ℚ)| ∧
      Placeable unevenPolicy unevenState "m" 5 [] (1, ⟨"m", 5⟩, mkRat 3 10) ∧
      unevenState.findBestBackend unevenPolicy "m" 5 [] = some (2, ⟨"m", 2⟩) ∧ (2 : ℚ) < 5 :=
  ⟨reachable_getD_run openConfig unevenPolicy anyModel (by decide), by decide,
    unevenState_fast_placeable, by with_unfolding_all decide, by decide⟩

end Scheduler

end NexusLb.Sched
