import NexusLb.Scheduler.Admission
import NexusLb.Scheduler.Frame

/-!
# Backends pinned to a static workload

The spec treats a backend pinned to a static workload (`workload_id() ≥ 0`) as fixed
capacity: its throughput counts, but it is never resized or released.  `EpochSchedule`
leaves the pinned backends out of its release and grow loops (`splitStatic`), and so out
of the overloaded backends it spills; `FindBestBackend` skips them, so neither
`AllocateUnassignedWorkloads` nor `LoadModel`'s placement loads onto them.  The loops of
`NexusLb.Scheduler.Frame` hand each write the fact that its backend is not pinned, and
`KeepsPinned` is read off them: a pinned backend keeps its delegate, its instances and
their throughputs included.
-/

namespace NexusLb.Sched

namespace Scheduler

variable {cfg : Config} {policy : Policy} {db : ModelDatabase}

/-- Every backend pinned to a static workload keeps its delegate: its instances with
their throughputs, its pin and its backups. -/
def KeepsPinned (s s' : Scheduler) : Prop :=
  ∀ b backend, s.backends.lookup b = some backend → 0 ≤ backend.workloadId →
    s'.backends.lookup b = some backend

namespace KeepsPinned

variable {s s' s'' : Scheduler}

theorem refl (s : Scheduler) : KeepsPinned s s := fun _ _ hb _ => hb

theorem trans (h : KeepsPinned s s') (h' : KeepsPinned s' s'') : KeepsPinned s s'' :=
  fun b backend hb hpinned => h' b backend (h b backend hb hpinned) hpinned

theorem of_backends (hbackends : s'.backends = s.backends) : KeepsPinned s s' :=
  fun _ _ hb _ => hbackends ▸ hb

/-- A write to a backend that is not pinned. -/
theorem modify {b : Nat} {f : BackendDelegate → BackendDelegate} (hfree : Unpinned s b) :
    KeepsPinned s { s with backends := s.backends.modify b f } := fun b' backend hb hpinned => by
  have hne : b' ≠ b := by
    rintro rfl
    exact absurd (hfree backend hb) (not_lt.mpr hpinned)
  exact (Table.lookup_modify_ne hne).trans hb

/-- A backend that is not pinned replaced by another. -/
theorem insert {b : Nat} {backend' : BackendDelegate} (hfree : Unpinned s b) :
    KeepsPinned s { s with backends := s.backends.insert b backend' } :=
      fun b' backend hb hpinned => by
  have hne : b' ≠ b := by
    rintro rfl
    exact absurd (hfree backend hb) (not_lt.mpr hpinned)
  exact (AList.lookup_insert_ne hne).trans hb

theorem publish {backends : List Nat} {sessions : List String}
    (h : (s.updateModelTables backends).updateModelRoutes sessions = some s') : KeepsPinned s s' :=
      by
  obtain ⟨effects, rfl⟩ := updateModelRoutes_frame h
  exact of_backends rfl

theorem foldlM_atSession {α : Type} {l : List α} {key : α → String}
    {f : α → SessionInfo → SessionInfo}
    (h : l.foldlM (fun s x => s.atSession (key x) (f x)) s = some s') : KeepsPinned s s' :=
  foldlM_invariant (KeepsPinned s) (fun _ _ _ _ hacc hstep => by
    obtain ⟨-, rfl⟩ := atSession_eq_some.mp hstep
    exact hacc.trans (of_backends rfl)) (refl s) h

end KeepsPinned

theorem unpinned_of_lookup {s : Scheduler} {b : Nat} {backend : BackendDelegate}
    (hb : s.backends.lookup b = some backend) (hfree : backend.workloadId < 0) : Unpinned s b :=
  fun _ hb' => by rw [hb] at hb'; cases hb'; exact hfree

/-! ### `EpochSchedule` -/

/-- Spilling a backend that is not pinned writes to no other backend. -/
theorem keepsPinned_spillOut {s s' : Scheduler} {b : Nat} (hfree : Unpinned s b)
    (h : spillOut policy s b = some s') : KeepsPinned s s' := by
  unfold spillOut at h
  split at h
  · cases h; exact .refl s
  · generalize BackendDelegate.spillOutWorkload policy _ = out at h
    obtain ⟨spilled, rest⟩ := out
    exact (KeepsPinned.insert hfree).trans (.foldlM_atSession h)

theorem keepsPinned_epochSchedule {s s' : Scheduler} (h : epochSchedule cfg policy s = some s') :
    KeepsPinned s s' :=
  epochSchedule_induction KeepsPinned .refl .trans
    (fun _ _ _ _ hb hfree => (KeepsPinned.insert (unpinned_of_lookup hb hfree)).trans
      (.of_backends rfl))
    (fun _ _ _ _ _ hb hfree => (KeepsPinned.insert (unpinned_of_lookup hb hfree)).trans
      (.of_backends rfl))
    (fun _ _ _ => .of_backends rfl)
    (fun _ _ _ _ _ hb hfree => (KeepsPinned.modify (unpinned_of_lookup hb hfree)).trans
      (.of_backends rfl))
    (fun _ _ _ hfree h => keepsPinned_spillOut hfree h) (fun _ _ _ _ h => .publish h) h

/-! ### `LoadModel` -/

/-- The backends `LoadModel`'s placement chooses are not pinned. -/
theorem assignBackends_unpinned {s : Scheduler} {session : String} {workload : ℚ}
    {assigned : List (Nat × InstanceInfo)}
    (h : s.assignBackends policy session workload = some assigned) :
    ∀ p ∈ assigned, Unpinned s p.1 := by
  unfold assignBackends at h
  split at h
  · obtain ⟨⟨b, inst⟩, hbest, rfl⟩ := Option.map_eq_some'.mp h
    obtain ⟨backend, hb, -, hfree, -⟩ := findBestBackend_spec policy hbest
    intro p hp
    rw [List.mem_singleton.mp hp]
    exact unpinned_of_lookup hb hfree
  · intro p hp
    obtain ⟨-, backend, hb, hfree, -⟩ := (placeWorkload_post h).2.1 p hp
    exact unpinned_of_lookup hb hfree

/-- `LoadModel`'s commit loads only on the backends it was given. -/
theorem keepsPinned_foldl_loadAssigned :
    ∀ (assigned : List (Nat × InstanceInfo)) (acc : Scheduler × Table Nat ℚ),
      (∀ p ∈ assigned, Unpinned acc.1 p.1) →
        KeepsPinned acc.1 (assigned.foldl (loadAssigned policy) acc).1
  | [], _, _ => .refl _
  | p :: rest, acc, hfree =>
    (KeepsPinned.modify (hfree p (List.mem_cons_self _ _))).trans
      (keepsPinned_foldl_loadAssigned rest _ fun q hq =>
        (untouched_loadAssigned acc p).samePins.unpinned (hfree q (List.mem_cons_of_mem _ hq)))

theorem keepsPinned_loadModel {s s' : Scheduler} {request : LoadModelRequest}
    {reply : LoadModelReply} (h : s.loadModel policy db request = some (reply, s')) :
    KeepsPinned s s' := by
  rcases loadModel_cases policy h with rfl | ⟨-, rfl⟩ | ⟨assigned, -, hassigned, rfl⟩
  · exact .refl _
  · exact .of_backends rfl
  · exact (keepsPinned_foldl_loadAssigned assigned (s, ∅) (assignBackends_unpinned hassigned)).trans
      (.of_backends rfl)

/-- From every scheduler state, `EpochSchedule`
(its release and grow loops, the spilling of the backends the growth overloaded, and
`AllocateUnassignedWorkloads`) and `LoadModel` (its placement and commit) unload, resize,
spill and load only backends that are not pinned to a static workload: every backend
with `workload_id() ≥ 0` keeps its delegate, instances and throughputs included. -/
theorem pinned_backends_fixed_capacity (s : Scheduler) :
    (∀ s', epochSchedule cfg policy s = some s' → KeepsPinned s s') ∧
      ∀ request reply s', s.loadModel policy db request = some (reply, s') → KeepsPinned s s' :=
  ⟨fun _ h => keepsPinned_epochSchedule h, fun _ _ _ h => keepsPinned_loadModel h⟩

/-- One static workload, serving `"s"`, and one beacon per history. -/
def pinnedConfig : Config := ⟨3, 1, [[⟨"s", false⟩]]⟩

/-- Backend `1` pinned to the static workload, backend `2` idle, and a rate of `1`
recorded for `"s"`. -/
def pinnedDeployment : Scheduler :=
  (run pinnedConfig placingPolicy anyModel init
    [.registerFrontend 7, .registerBackend ⟨1, "gpu", "uuid-1"⟩,
      .registerBackend ⟨2, "gpu", "uuid-2"⟩, .reportWorkload ⟨7, [("s", 1)]⟩,
      .beaconCheck]).getD init

/-- In `pinnedDeployment` the epoch releases `"s"` down to its rate and `LoadModel` places a
new session, and backend `1`, pinned, keeps its delegate through both. -/
theorem pinned_backends_fixed_capacity_deployment :
    (pinnedDeployment.backends.lookup 1).map BackendDelegate.workloadId = some 0 ∧
      (∃ s', epochSchedule pinnedConfig placingPolicy pinnedDeployment = some s' ∧
        KeepsPinned pinnedDeployment s') ∧
      ∃ reply s', pinnedDeployment.loadModel placingPolicy anyModel ⟨7, "m", 3⟩ = some (reply, s') ∧
        KeepsPinned pinnedDeployment s' := by
  obtain ⟨s', h⟩ := Option.isSome_iff_exists.mp
    (show (epochSchedule pinnedConfig placingPolicy pinnedDeployment).isSome by
      with_unfolding_all decide)
  obtain ⟨⟨reply, s''⟩, h'⟩ := Option.isSome_iff_exists.mp
    (show (pinnedDeployment.loadModel placingPolicy anyModel ⟨7, "m", 3⟩).isSome by
      with_unfolding_all decide)
  have hfixed :=
    @pinned_backends_fixed_capacity pinnedConfig placingPolicy anyModel pinnedDeployment
  exact ⟨by with_unfolding_all decide, ⟨s', h, hfixed.1 s' h⟩, reply, s'', h', hfixed.2 _ _ _ h'⟩

end Scheduler

end NexusLb.Sched
