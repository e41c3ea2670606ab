import NexusLb.Drr.Fairness
import Mathlib.Data.Rat.Floor

/-!
# The quantum bound of a route table

Between two `Update`s, `GetBackend` keeps every backend's quantum below its rate plus
`min_rate_`: a probe that returns a backend takes `min_rate_` off a quantum that was at
least `min_rate_`, and a probe that moves on adds the rate to a quantum that was below
it; so the backend under the pointer is returned only so many times in a row.  `Update`
does not restore the bound: a backend already in the route keeps its quantum
(`backend_quanta_.emplace`), and the new rates and `min_rate_` may be far below it.  The
bound holds under the updates that fit every kept quantum (`FitReachable`), and fails
after an update that lowers the rates (`staleRoute`).
-/

namespace NexusLb.ModelRoute

/-- Every backend's quantum is below its rate plus `min_rate_`. -/
def QuantaBelow (r : ModelRoute) : Prop :=
  ∀ backend ∈ r.backends, r.quantumOf backend < backend.throughput + r.minRate

/-- How many of the next `k` calls of `GetBackend` return at their first probe, one
after another: the calls that return the backend under the pointer without moving the
pointer on. -/
def streak : Nat → ModelRoute → Nat
  | 0, _ => 0
  | k + 1, r =>
    match r.probe with
    | .ok (some _, r') => streak k r' + 1
    | _ => 0

/-! ## `GetBackend` keeps the bound -/

theorem nodeId_inj_of_nodup {backends : List BackendRate} (hnodup : (nodeIds backends).Nodup)
    {b c : BackendRate} (hb : b ∈ backends) (hc : c ∈ backends)
    (h : c.info.nodeId = b.info.nodeId) : c = b :=
  List.inj_on_of_nodup_map hnodup hc hb h

theorem probe_quantaBelow {r r' : ModelRoute} {out : Option BackendInfo}
    (hnodup : (nodeIds r.backends).Nodup) (hinv : DrrInvariant r) (hbelow : QuantaBelow r)
    (h : r.probe = .ok (out, r')) : QuantaBelow r' := by
  obtain ⟨backend, quantum, hbackend, hquantum, hstep⟩ := probe_cases h
  have hmem : backend ∈ r.backends := List.getElem?_mem hbackend
  have hmin := hinv.minRateNonneg (List.ne_nil_of_mem hmem)
  have hold : quantum < backend.throughput + r.minRate := by
    simpa [quantumOf, hquantum] using hbelow backend hmem
  rcases hstep with ⟨-, -, rfl⟩ | ⟨hlow, -, rfl⟩
  all_goals
    intro c hc
    by_cases hid : c.info.nodeId = backend.info.nodeId
    · obtain rfl := nodeId_inj_of_nodup hnodup hmem hc hid
      simp only [quantumOf, setQuantum_backendQuanta, moveOn_backendQuanta, setQuantum_minRate,
        moveOn_minRate, Function.update_same, Option.getD_some]
      linarith
    · simpa [quantumOf, Function.update_noteq hid] using hbelow c hc

/-- What a route table keeps between two `Update`s, as long as its node ids are
distinct. -/
structure QuantumBound (r : ModelRoute) : Prop where
  invariant : DrrInvariant r
  nodup : (nodeIds r.backends).Nodup
  minRatePos : r.backends ≠ [] → 0 < r.minRate
  below : QuantaBelow r

theorem QuantumBound.probe {r r' : ModelRoute} {out : Option BackendInfo} (hb : QuantumBound r)
    (h : r.probe = .ok (out, r')) : QuantumBound r' := by
  obtain ⟨backend, quantum, -, -, ⟨-, -, rfl⟩ | ⟨-, -, rfl⟩⟩ := probe_cases h
  all_goals exact ⟨probe_invariant hb.invariant h, hb.nodup, hb.minRatePos,
    probe_quantaBelow hb.nodup hb.invariant hb.below h⟩

theorem QuantumBound.getBackend {r r' : ModelRoute} {info : BackendInfo} (hb : QuantumBound r)
    (h : r.getBackend = .ok (info, r')) : QuantumBound r' :=
  getBackendLoop_induction (fun r _ => QuantumBound r) (fun _ _ _ hb hp => hb.probe hp)
    (fun _ _ _ _ hb hp => hb.probe hp) [] h hb

/-! ## What `Update` leaves -/

/-- An `emplace` never replaces a quantum. -/
theorem foldl_emplaceQuantum_of_some {backends : List BackendRate} {quanta : Nat → Option ℚ}
    {id : Nat} {quantum : ℚ} (h : quanta id = some quantum) :
    backends.foldl emplaceQuantum quanta id = some quantum := by
  induction backends generalizing quanta with
  | nil => exact h
  | cons backend backends ih =>
    refine ih ?_
    unfold emplaceQuantum
    split_ifs <;> simp [h]

/-- A backend without a quantum gets its rate, when no other backend of the route has
its node id. -/
theorem foldl_emplaceQuantum_of_none {backends : List BackendRate} {quanta : Nat → Option ℚ}
    {backend : BackendRate} (hnodup : (nodeIds backends).Nodup) (hmem : backend ∈ backends)
    (hnone : quanta backend.info.nodeId = none) :
    backends.foldl emplaceQuantum quanta backend.info.nodeId = some backend.throughput := by
  induction backends generalizing quanta with
  | nil => cases hmem
  | cons c backends ih =>
    obtain ⟨hfresh, hnodup⟩ := List.nodup_cons.mp hnodup
    rw [List.foldl_cons]
    rcases List.mem_cons.mp hmem with rfl | hmem
    · exact foldl_emplaceQuantum_of_some (by simp [emplaceQuantum, hnone])
    · have hne : backend.info.nodeId ≠ c.info.nodeId := fun h =>
        hfresh (show c.info.nodeId ∈ nodeIds backends by rw [← h]; exact List.mem_map_of_mem _ hmem)
      exact ih hnodup hmem (by simp [emplaceQuantum, hne, hnone])

/-- After an `Update` with positive rates and distinct node ids, a backend new to the
table has its rate as quantum, and a backend the table had keeps its quantum. -/
theorem update_quantumOf {r : ModelRoute} {route : ModelRouteProto}
    (hnodup : (nodeIds route.backendRate).Nodup) {backend : BackendRate}
    (hmem : backend ∈ route.backendRate) :
    (r.update route).backendQuanta backend.info.nodeId =
      (r.backendQuanta backend.info.nodeId).or (some backend.throughput) := by
  simp only [update, List.mem_map_of_mem _ hmem, nodeIds, if_true]
  cases hq : r.backendQuanta backend.info.nodeId with
  | none => exact foldl_emplaceQuantum_of_none hnodup hmem hq
  | some quantum => exact foldl_emplaceQuantum_of_some hq

/-- An `Update` with positive rates and distinct node ids under which every kept quantum
is below its backend's new rate plus the new `min_rate_` establishes the bound. -/
theorem update_quantumBound {r : ModelRoute} (route : ModelRouteProto)
    (hpos : ∀ backend ∈ route.backendRate, 0 < backend.throughput)
    (hnodup : (nodeIds route.backendRate).Nodup)
    (hfit : ∀ backend ∈ route.backendRate, ∀ quantum,
      r.backendQuanta backend.info.nodeId = some quantum →
        quantum < backend.throughput + (r.update route).minRate)
    (hquanta : ∀ id quantum, r.backendQuanta id = some quantum → 0 ≤ quantum) :
    QuantumBound (r.update route) where
  invariant := update_invariant route (fun b hb => (hpos b hb).le) hquanta
  nodup := hnodup
  minRatePos _ := foldl_min_pos doubleMax_pos hpos
  below backend hmem := by
    rw [quantumOf, update_quantumOf hnodup hmem]
    cases hq : r.backendQuanta backend.info.nodeId with
    | none =>
      have hmin : 0 < (r.update route).minRate := foldl_min_pos doubleMax_pos hpos
      simpa using hmin
    | some quantum => exact hfit backend hmem quantum hq

/-- Route tables reachable from a freshly constructed `ModelRoute()` by `GetBackend`
calls on tables with backends, and by `Update`s with positive throughputs and distinct
node ids under which every quantum a backend keeps is below its new rate plus the new
`min_rate_`. -/
inductive FitReachable : ModelRoute → Prop
  | init (sessionId : String) (total rate : ℚ) (index : Nat) :
      FitReachable ⟨sessionId, [], total, rate, fun _ => none, index⟩
  | update {r : ModelRoute} (route : ModelRouteProto)
      (hpos : ∀ backend ∈ route.backendRate, 0 < backend.throughput)
      (hnodup : (nodeIds route.backendRate).Nodup)
      (hfit : ∀ backend ∈ route.backendRate, ∀ quantum,
        r.backendQuanta backend.info.nodeId = some quantum →
          quantum < backend.throughput + (r.update route).minRate) :
      FitReachable r → FitReachable (r.update route)
  | getBackend {r r' : ModelRoute} {info : BackendInfo} :
      FitReachable r → r.backends ≠ [] → r.getBackend = .ok (info, r') → FitReachable r'

theorem FitReachable.quantumBound {r : ModelRoute} (h : FitReachable r) : QuantumBound r := by
  induction h with
  | init => exact ⟨reachable_invariant (.init _ _ _ _), by simp [nodeIds], fun h => absurd rfl h,
      by simp [QuantaBelow]⟩
  | update route hpos hnodup hfit _ ih =>
    exact update_quantumBound route hpos hnodup hfit ih.invariant.quantaNonneg
  | getBackend _ _ hget ih => exact ih.getBackend hget

/-! ## Returns in a row -/

/-- Each call that returns the backend under the pointer at its first probe takes
`min_rate_` off its quantum. -/
theorem streak_mul_le {r : ModelRoute} {backend : BackendRate} {quantum : ℚ}
    (hb : r.backends[r.currentDrrIndex]? = some backend)
    (hq : r.backendQuanta backend.info.nodeId = some quantum) (h0 : 0 ≤ quantum) (k : Nat) :
    (streak k r : ℚ) * r.minRate ≤ quantum := by
  induction k generalizing r quantum with
  | zero => simpa [streak] using h0
  | succ k ih =>
    simp only [streak, probe, hb, hq]
    split_ifs with hle
    · have hk := @ih (r.setQuantum backend.info.nodeId (quantum - r.minRate)) (quantum - r.minRate)
        (by simpa using hb) (by simp) (sub_nonneg.mpr hle)
      push_cast
      simp only [setQuantum_minRate] at hk
      rw [add_mul, one_mul]
      exact le_sub_iff_add_le.mp hk
    · simpa using h0

/-- A quantum of `k` times `min_rate_` makes the next `k` calls return the backend
under the pointer at once. -/
theorem streak_of_le {r : ModelRoute} {backend : BackendRate} {quantum : ℚ}
    (hb : r.backends[r.currentDrrIndex]? = some backend)
    (hq : r.backendQuanta backend.info.nodeId = some quantum) (hmin : 0 ≤ r.minRate) (k : Nat)
    (hk : (k : ℚ) * r.minRate ≤ quantum) : streak k r = k := by
  induction k generalizing r quantum with
  | zero => rfl
  | succ k ih =>
    have hle : r.minRate ≤ quantum := by
      push_cast at hk; nlinarith [mul_nonneg (Nat.cast_nonneg k : (0 : ℚ) ≤ k) hmin]
    simp only [streak, probe, hb, hq, if_pos hle]
    rw [@ih (r.setQuantum backend.info.nodeId (quantum - r.minRate)) (quantum - r.minRate)
      (by simpa using hb) (by simp) hmin
      (by push_cast at hk; simp only [setQuantum_minRate]; linarith)]

/-- In every route table reachable by
`GetBackend` calls and by `Update`s with positive throughputs and distinct node ids that
fit every quantum they keep, each backend's quantum is below its rate plus `min_rate_`,
and the backend under the pointer is returned at most `⌈(rate + min_rate_) / min_rate_⌉`
times in a row before the pointer moves on. -/
theorem quantum_bound_under_fitting_updates {r : ModelRoute} (h : FitReachable r) :
    QuantaBelow r ∧ ∀ backend, r.backends[r.currentDrrIndex]? = some backend → ∀ k,
      (streak k r : ℤ) ≤ ⌈(backend.throughput + r.minRate) / r.minRate⌉ := by
  have hbound := h.quantumBound
  refine ⟨hbound.below, fun backend hb k => ?_⟩
  have hmem : backend ∈ r.backends := List.getElem?_mem hb
  have hpos := hbound.minRatePos (List.ne_nil_of_mem hmem)
  obtain ⟨quantum, hq⟩ := Option.isSome_iff_exists.mp
    ((hbound.invariant.quantaKeys _).2 (List.mem_map_of_mem _ hmem))
  have hbelow : quantum < backend.throughput + r.minRate := by
    simpa [quantumOf, hq] using hbound.below backend hmem
  have hstreak := streak_mul_le hb hq (hbound.invariant.quantaNonneg _ _ hq) k
  have hlt : (streak k r : ℚ) < (backend.throughput + r.minRate) / r.minRate := by
    rw [lt_div_iff₀ hpos]; linarith
  exact_mod_cast hlt.le.trans (Int.le_ceil _)

/-- Backends `1` and `2` at rate `10`, then the same backends at rate `1`. -/
def fastThenSlow : ModelRoute :=
  (⟨"model", [], 0, 0, fun _ => none, 0⟩ : ModelRoute).update
    ⟨"model", [⟨⟨1, "gpu", "uuid-1"⟩, 10⟩, ⟨⟨2, "gpu", "uuid-2"⟩, 10⟩]⟩

/-- The table after both updates. -/
def staleRoute : ModelRoute :=
  fastThenSlow.update ⟨"model", [⟨⟨1, "gpu", "uuid-1"⟩, 1⟩, ⟨⟨2, "gpu", "uuid-2"⟩, 1⟩]⟩

theorem quantum_bound_under_fitting_updates_first :
    FitReachable fastThenSlow ∧ QuantaBelow fastThenSlow ∧
      ∀ backend, fastThenSlow.backends[fastThenSlow.currentDrrIndex]? = some backend → ∀ k,
        (streak k fastThenSlow : ℤ) ≤
          ⌈(backend.throughput + fastThenSlow.minRate) / fastThenSlow.minRate⌉ := by
  have h : FitReachable fastThenSlow :=
    .update _ (by simp) (by decide) (fun _ _ _ h => by cases h) (.init "model" 0 0 0)
  exact ⟨h, quantum_bound_under_fitting_updates h⟩

/-- After the second update, backend `1` keeps the quantum `10` it was given at rate
`10`, while its rate and `min_rate_` are now `1`: it is returned `10` times in a row,
where the bound allows `⌈(1 + 1) / 1⌉ = 2`. -/
theorem update_keeps_stale_quantum :
    Reachable staleRoute ∧ (∀ backend ∈ staleRoute.backends, 0 < backend.throughput) ∧
      (nodeIds staleRoute.backends).Nodup ∧ ¬ QuantaBelow staleRoute ∧
      staleRoute.backends[staleRoute.currentDrrIndex]? = some ⟨⟨1, "gpu", "uuid-1"⟩, 1⟩ ∧
      streak 10 staleRoute = 10 ∧ ⌈(1 + staleRoute.minRate) / staleRoute.minRate⌉ = 2 := by
  have hmin : staleRoute.minRate = 1 := by
    simp only [staleRoute, update_minRate, List.foldl_cons, List.foldl_nil]
    norm_num [doubleMax]
  have hq : staleRoute.backendQuanta 1 = some 10 := by decide
  have hb : staleRoute.backends[staleRoute.currentDrrIndex]? =
      some ⟨⟨1, "gpu", "uuid-1"⟩, 1⟩ := by decide
  refine ⟨.update _ (by simp) (.update _ (by simp) (.init "model" 0 0 0)), by simp [staleRoute],
    by decide, fun hbelow => ?_, hb, streak_of_le hb hq (by rw [hmin]; norm_num) 10
      (by rw [hmin]; norm_num), by rw [hmin]; norm_num⟩
  have h1 := hbelow ⟨⟨1, "gpu", "uuid-1"⟩, 1⟩ (by simp [staleRoute])
  simp only [quantumOf, hq, hmin, Option.getD_some] at h1
  norm_num at h1

end NexusLb.ModelRoute
