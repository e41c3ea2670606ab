import NexusLb.Drr.Route
import Mathlib.Tactic.Linarith

/-!
# The DRR invariant, and why `GetBackend` always decides

Every route table reachable by `Update`s with nonnegative throughputs and by
`GetBackend` calls on nonempty tables keeps its pointer in range, keys its quanta by
exactly the node ids of its backends, and keeps every quantum nonnegative.  From
there a call cannot fail: an unsuccessful probe lifts the probed backend's quantum
to at least `min_rate_`, so the number of backends still below `min_rate_` drops at
every unsuccessful probe, and the call returns within `|backends_| + 1` probes.
-/

namespace NexusLb.ModelRoute

/-- The invariant of a reachable route table. -/
structure DrrInvariant (r : ModelRoute) : Prop where
  indexInRange : r.backends ≠ [] → r.currentDrrIndex < r.backends.length
  quantaKeys : ∀ id, (r.backendQuanta id).isSome ↔ id ∈ nodeIds r.backends
  quantaNonneg : ∀ id quantum, r.backendQuanta id = some quantum → 0 ≤ quantum
  ratesNonneg : ∀ backend ∈ r.backends, 0 ≤ backend.throughput
  minRateLe : ∀ backend ∈ r.backends, r.minRate ≤ backend.throughput
  minRateNonneg : r.backends ≠ [] → 0 ≤ r.minRate

/-- Route tables reachable from a freshly constructed `ModelRoute()` (no backends, no
quanta, and any values in its other fields) by `Update`s whose throughputs are
nonnegative and by `GetBackend` calls made while the table has backends. -/
inductive Reachable : ModelRoute → Prop
  | init (sessionId : String) (total rate : ℚ) (index : Nat) :
      Reachable ⟨sessionId, [], total, rate, fun _ => none, index⟩
  | update {r : ModelRoute} (route : ModelRouteProto)
      (hrates : ∀ backend ∈ route.backendRate, 0 ≤ backend.throughput) :
      Reachable r → Reachable (r.update route)
  | getBackend {r r' : ModelRoute} {info : BackendInfo} :
      Reachable r → r.backends ≠ [] → r.getBackend = .ok (info, r') → Reachable r'

/-! ## `Update` -/

theorem mem_nodeIds {backends : List BackendRate} {id : Nat} :
    id ∈ nodeIds backends ↔ ∃ backend ∈ backends, backend.info.nodeId = id := by
  simp [nodeIds]

theorem foldl_emplaceQuantum_isSome (backends : List BackendRate) (quanta : Nat → Option ℚ)
    (id : Nat) :
    (backends.foldl emplaceQuantum quanta id).isSome ↔
      (quanta id).isSome ∨ id ∈ nodeIds backends := by
  induction backends generalizing quanta with
  | nil => simp [nodeIds]
  | cons backend backends ih =>
    rw [List.foldl_cons, ih]
    by_cases hid : id = backend.info.nodeId
    · subst hid
      cases hq : quanta backend.info.nodeId <;> simp [emplaceQuantum, nodeIds, hq]
    · simp [emplaceQuantum, nodeIds, hid]

/-- A quantum after the emplacements is an old quantum or the rate of a backend
with that node id. -/
theorem foldl_emplaceQuantum_eq_some {backends : List BackendRate}
    {quanta : Nat → Option ℚ} {id : Nat} {quantum : ℚ}
    (h : backends.foldl emplaceQuantum quanta id = some quantum) :
    quanta id = some quantum ∨ ∃ backend ∈ backends, backend.throughput = quantum := by
  induction backends generalizing quanta with
  | nil => exact .inl h
  | cons backend backends ih =>
    rcases ih h with h' | ⟨b, hb, rfl⟩
    · unfold emplaceQuantum at h'
      split_ifs at h' with hid
      · split at h' <;> simp_all
      · exact .inl h'
    · exact .inr ⟨b, List.mem_cons_of_mem _ hb, rfl⟩

theorem foldl_min_le (backends : List BackendRate) (seed : ℚ) :
    backends.foldl (fun rate backend => min rate backend.throughput) seed ≤ seed ∧
      ∀ backend ∈ backends,
        backends.foldl (fun rate backend => min rate backend.throughput) seed ≤
          backend.throughput := by
  induction backends generalizing seed with
  | nil => simp
  | cons backend backends ih =>
    obtain ⟨hseed, hall⟩ := ih (min seed backend.throughput)
    simp only [List.foldl_cons, List.mem_cons, forall_eq_or_imp]
    exact ⟨hseed.trans (min_le_left _ _), hseed.trans (min_le_right _ _), hall⟩

theorem le_foldl_min {backends : List BackendRate} {seed bound : ℚ} (hseed : bound ≤ seed)
    (hall : ∀ backend ∈ backends, bound ≤ backend.throughput) :
    bound ≤ backends.foldl (fun rate backend => min rate backend.throughput) seed := by
  induction backends generalizing seed with
  | nil => exact hseed
  | cons backend backends ih =>
    exact ih (le_min hseed (hall backend (List.mem_cons_self _ _)))
      fun b hb => hall b (List.mem_cons_of_mem _ hb)

theorem doubleMax_pos : 0 < doubleMax := by norm_num [doubleMax]

theorem update_currentDrrIndex_lt (route : ModelRouteProto) (r : ModelRoute)
    (hne : route.backendRate ≠ []) :
    (r.update route).currentDrrIndex < route.backendRate.length := by
  simp only [update]
  split
  · rename_i index hindex
    exact (List.findIdx?_eq_some_iff_findIdx_eq.1 hindex).1
  · simp only [hne, if_false]
    exact Nat.mod_lt _ (List.length_pos.2 hne)

/-- `Update` with nonnegative throughputs establishes the invariant from any table
whose quanta are nonnegative. -/
theorem update_invariant {r : ModelRoute} (route : ModelRouteProto)
    (hrates : ∀ backend ∈ route.backendRate, 0 ≤ backend.throughput)
    (hquanta : ∀ id quantum, r.backendQuanta id = some quantum → 0 ≤ quantum) :
    DrrInvariant (r.update route) where
  indexInRange := update_currentDrrIndex_lt route r
  quantaKeys id := by
    simp only [update]
    split_ifs with hid
    · simp [foldl_emplaceQuantum_isSome, hid]
    · simpa using hid
  quantaNonneg id quantum h := by
    simp only [update] at h
    split_ifs at h
    rcases foldl_emplaceQuantum_eq_some h with h' | ⟨backend, hb, rfl⟩
    · exact hquanta id quantum h'
    · exact hrates backend hb
  ratesNonneg := hrates
  minRateLe := (foldl_min_le route.backendRate doubleMax).2
  minRateNonneg _ := le_foldl_min doubleMax_pos.le hrates

/-! ## `GetBackend` -/

/-- On a table with the invariant and backends, a probe finds its backend and
quantum: neither the indexing nor `backend_quanta_.at` can fail. -/
theorem probe_ok {r : ModelRoute} (hinv : DrrInvariant r) (hne : r.backends ≠ []) :
    ∃ result, r.probe = .ok result := by
  have hlt := hinv.indexInRange hne
  obtain ⟨quantum, hquantum⟩ := Option.isSome_iff_exists.1
    ((hinv.quantaKeys (r.backends[r.currentDrrIndex]).info.nodeId).2
      (mem_nodeIds.2 ⟨_, List.getElem_mem hlt, rfl⟩))
  unfold probe
  simp only [List.getElem?_eq_getElem hlt, hquantum]
  split_ifs <;> exact ⟨_, rfl⟩

theorem probe_invariant {r r' : ModelRoute} {out : Option BackendInfo}
    (hinv : DrrInvariant r) (h : r.probe = .ok (out, r')) : DrrInvariant r' := by
  obtain ⟨backend, quantum, hbackend, hquantum, ⟨hle, -, rfl⟩ | ⟨-, -, rfl⟩⟩ := probe_cases h
  all_goals
    have hmem : backend ∈ r.backends := List.getElem?_mem hbackend
    have hq := hinv.quantaNonneg _ _ hquantum
  · refine ⟨hinv.indexInRange, fun id => ?_, fun id q hq' => ?_, hinv.ratesNonneg,
      hinv.minRateLe, hinv.minRateNonneg⟩
    · by_cases hid : id = backend.info.nodeId
      · subst hid; simp [← hinv.quantaKeys, hquantum]
      · simpa [Function.update_noteq hid] using hinv.quantaKeys id
    · by_cases hid : id = backend.info.nodeId
      · subst hid; simp at hq'; linarith
      · exact hinv.quantaNonneg id q (by simpa [Function.update_noteq hid] using hq')
  · have hpos : 0 < r.backends.length := List.length_pos_of_mem hmem
    refine ⟨fun _ => Nat.mod_lt _ hpos, fun id => ?_, fun id q hq' => ?_, hinv.ratesNonneg,
      hinv.minRateLe, hinv.minRateNonneg⟩
    · by_cases hid : id = backend.info.nodeId
      · subst hid; simp [← hinv.quantaKeys, hquantum]
      · simpa [Function.update_noteq hid] using hinv.quantaKeys id
    · by_cases hid : id = backend.info.nodeId
      · subst hid; simp at hq'; linarith [hinv.ratesNonneg backend hmem]
      · exact hinv.quantaNonneg id q (by simpa [Function.update_noteq hid] using hq')

theorem getBackendLoop_invariant {checks : Nat} {r r' : ModelRoute} {info : BackendInfo}
    (hinv : DrrInvariant r) (h : getBackendLoop checks r = .ok (info, r')) :
    DrrInvariant r' :=
  getBackendLoop_induction (fun r _ => DrrInvariant r)
    (fun _ _ _ hinv hp => probe_invariant hinv hp)
    (fun _ _ _ _ hinv hp => probe_invariant hinv hp) [] h hinv

/-- Every reachable route table satisfies the invariant. -/
theorem reachable_invariant {r : ModelRoute} (h : Reachable r) : DrrInvariant r := by
  induction h with
  | init => exact ⟨fun h => absurd rfl h, by simp [nodeIds], by simp, by simp, by simp,
      fun h => absurd rfl h⟩
  | update route hrates _ ih => exact update_invariant route hrates ih.quantaNonneg
  | getBackend _ _ hget ih => exact getBackendLoop_invariant ih hget

/-! ## Termination of `GetBackend` -/

/-- The number of backends whose quantum is still below `min_rate_`. -/
def lowCount (r : ModelRoute) : Nat :=
  r.backends.countP fun backend => decide ((r.backendQuanta backend.info.nodeId).getD 0 < r.minRate)

/-- An unsuccessful probe takes the probed backend out of the low ones and adds
none, so the count of low backends drops. -/
theorem lowCount_lt_of_probe_none {r r' : ModelRoute} (hinv : DrrInvariant r)
    (h : r.probe = .ok (none, r')) : lowCount r' < lowCount r := by
  obtain ⟨backend, quantum, hbackend, hquantum, ⟨-, hout, -⟩ | ⟨hlow, -, rfl⟩⟩ :=
    probe_cases h
  · cases hout
  have hmem : backend ∈ r.backends := List.getElem?_mem hbackend
  have hlift : r.minRate ≤ quantum + backend.throughput := by
    linarith [hinv.quantaNonneg _ _ hquantum, hinv.minRateLe backend hmem]
  unfold lowCount
  refine countP_lt_countP (fun b _ hb => ?_) hmem (by simpa [hquantum] using hlow) ?_
  · by_cases hid : b.info.nodeId = backend.info.nodeId
    · simp [hid] at hb; linarith
    · simpa [Function.update_noteq hid] using hb
  · simpa using hlift

/-- From a table with the invariant and backends, the loop returns as soon as it is
allowed as many unsuccessful probes as there are low backends. -/
theorem getBackendLoop_ok_of_lowCount_le {checks : Nat} {r : ModelRoute}
    (hinv : DrrInvariant r) (hne : r.backends ≠ []) (hlow : lowCount r ≤ checks) :
    ∃ info r', getBackendLoop checks r = .ok (info, r') := by
  induction checks generalizing r with
  | zero =>
    obtain ⟨⟨_ | info, r'⟩, hp⟩ := probe_ok hinv hne
    · exact absurd (lowCount_lt_of_probe_none hinv hp) (by omega)
    · exact ⟨info, r', getBackendLoop_of_probe_some hp⟩
  | succ checks ih =>
    obtain ⟨⟨_ | info, r'⟩, hp⟩ := probe_ok hinv hne
    · have hinv' := probe_invariant hinv hp
      obtain ⟨backend, quantum, -, -, ⟨-, hout, -⟩ | ⟨-, -, rfl⟩⟩ := probe_cases hp
      · cases hout
      rw [getBackendLoop_succ_of_probe_none hp]
      exact ih hinv' hne (by have := lowCount_lt_of_probe_none hinv hp; omega)
    · exact ⟨info, r', getBackendLoop_of_probe_some hp⟩

theorem lowCount_le_length (r : ModelRoute) : lowCount r ≤ r.backends.length :=
  List.countP_le_length _

/-- Every route table reachable by `Update`s with
nonnegative throughputs and `GetBackend` calls on nonempty tables keeps its pointer
in range, keys `backend_quanta_` by exactly its backends' node ids and keeps every
quantum nonnegative; and on such a table with backends, `GetBackend` returns after at
most `|backends_| + 1` probes (the loop allowed `|backends_|` unsuccessful probes
already returns), so neither `backend_quanta_.at` nor the `CHECK_LE` can fail. -/
theorem drr_reachable_invariant_getBackend_returns {r : ModelRoute} (h : Reachable r) :
    DrrInvariant r ∧
      (r.backends ≠ [] → ∃ info r', getBackendLoop r.backends.length r = .ok (info, r') ∧
        r.getBackend = .ok (info, r')) := by
  have hinv := reachable_invariant h
  refine ⟨hinv, fun hne => ?_⟩
  obtain ⟨info, r', hloop⟩ := getBackendLoop_ok_of_lowCount_le hinv hne (lowCount_le_length r)
  exact ⟨info, r', hloop, getBackendLoop_succ_of_ok hloop⟩

/-- The route of the spec's fairness scenario: backends `1` and `2` at rates `2` and
`1`. -/
def twoToOneRoute : ModelRouteProto :=
  ⟨"model", [⟨⟨1, "gpu", "uuid-1"⟩, 2⟩, ⟨⟨2, "gpu", "uuid-2"⟩, 1⟩]⟩

theorem drr_reachable_invariant_two_to_one :
    Reachable ((⟨"model", [], 0, 0, fun _ => none, 0⟩ : ModelRoute).update twoToOneRoute) ∧
      DrrInvariant ((⟨"model", [], 0, 0, fun _ => none, 0⟩ : ModelRoute).update twoToOneRoute) ∧
      (((⟨"model", [], 0, 0, fun _ => none, 0⟩ : ModelRoute).update twoToOneRoute).backends ≠
          [] →
        ∃ info r', getBackendLoop 2
            ((⟨"model", [], 0, 0, fun _ => none, 0⟩ : ModelRoute).update twoToOneRoute) =
              .ok (info, r') ∧
          ((⟨"model", [], 0, 0, fun _ => none, 0⟩ : ModelRoute).update twoToOneRoute).getBackend =
            .ok (info, r')) := by
  have hr : Reachable ((⟨"model", [], 0, 0, fun _ => none, 0⟩ : ModelRoute).update
      twoToOneRoute) :=
    Reachable.update twoToOneRoute (by simp [twoToOneRoute]) (Reachable.init "model" 0 0 0)
  exact ⟨hr, drr_reachable_invariant_getBackend_returns hr⟩

end NexusLb.ModelRoute
