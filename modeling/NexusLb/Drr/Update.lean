import NexusLb.Drr.Quantum

/-!
# `GetBackend` after an `Update`: a zero rate, and a route sent again

`Update` sets `min_rate_` to the least throughput of the route, with no floor, and keeps
every quantum it finds.  A route with a zero throughput makes `min_rate_` zero, so every
probe returns the backend under the pointer, charges it nothing and leaves the table as
it was: no other backend is ever returned, whatever its rate.  A route sent again to a
table that holds it changes nothing `GetBackend` reads (backends, quanta, `min_rate_`,
pointer), so the calls that follow return the same backends; the exception is a freshly
constructed table sent the empty route, whose `min_rate_` and pointer `Update` sets for
the first time.
-/

namespace NexusLb.ModelRoute

/-- A freshly constructed `ModelRoute()`, with its scalar fields zero. -/
def freshTable : ModelRoute := ⟨"m", [], 0, 0, fun _ => none, 0⟩

/-- `GetBackend` changes only the quanta and the pointer. -/
theorem getBackendLoop_backends_minRate {checks : Nat} {r r' : ModelRoute} {info : BackendInfo}
    (h : getBackendLoop checks r = .ok (info, r')) :
    r'.backends = r.backends ∧ r'.minRate = r.minRate := by
  have hprobe : ∀ {r₁ r₂ : ModelRoute} {out : Option BackendInfo}, r₁.probe = .ok (out, r₂) →
      r₂.backends = r₁.backends ∧ r₂.minRate = r₁.minRate := fun hp => by
    obtain ⟨_, _, -, -, ⟨-, -, rfl⟩ | ⟨-, -, rfl⟩⟩ := probe_cases hp <;> exact ⟨rfl, rfl⟩
  refine getBackendLoop_induction (fun r' _ => r'.backends = r.backends ∧ r'.minRate = r.minRate)
    (fun _ _ _ hr hp => ?_) (fun _ _ _ _ hr hp => ?_) [] h ⟨rfl, rfl⟩ <;>
    exact ⟨(hprobe hp).1.trans hr.1, (hprobe hp).2.trans hr.2⟩

/-- `min_rate_` of a reachable table with backends is the least of their throughputs, as
the last `Update` set it. -/
theorem Reachable.minRate_eq {r : ModelRoute} (h : Reachable r) (hne : r.backends ≠ []) :
    r.minRate = r.backends.foldl (fun rate backend => min rate backend.throughput) doubleMax := by
  induction h with
  | init => exact absurd rfl hne
  | update => rfl
  | getBackend _ _ hget ih =>
    obtain ⟨hbackends, hmin⟩ := getBackendLoop_backends_minRate hget
    rw [hbackends] at hne ⊢
    rw [hmin, ih hne]

/-! ## A zero rate -/

/-- With `min_rate_` zero, `GetBackend` returns the backend under the pointer at its
first probe and leaves the table as it was. -/
theorem getBackend_of_minRate_zero {r : ModelRoute} (hinv : DrrInvariant r)
    (hzero : r.minRate = 0) {backend : BackendRate}
    (hb : r.backends[r.currentDrrIndex]? = some backend) :
    r.getBackend = .ok (backend.info, r) := by
  obtain ⟨quantum, hq⟩ := Option.isSome_iff_exists.mp
    ((hinv.quantaKeys _).mpr (mem_nodeIds.mpr ⟨backend, List.getElem?_mem hb, rfl⟩))
  have hkept : r.setQuantum backend.info.nodeId (quantum - r.minRate) = r := by
    rw [hzero, sub_zero, setQuantum, ← hq, Function.update_eq_self]
  rw [getBackend_of_quantum hb hq (hzero ▸ hinv.quantaNonneg _ _ hq), hkept]

theorem getBackendRun_of_minRate_zero {r : ModelRoute} (hinv : DrrInvariant r)
    (hzero : r.minRate = 0) {backend : BackendRate}
    (hb : r.backends[r.currentDrrIndex]? = some backend) (K : Nat) :
    getBackendRun K r = .ok (List.replicate K backend.info, r) := by
  induction K with
  | zero => rfl
  | succ K ih =>
    simp [getBackendRun, getBackend_of_minRate_zero hinv hzero hb, ih, List.replicate_succ]

/-- An `Update` whose throughputs are nonnegative, one of them zero, sets `min_rate_` to
zero. -/
theorem update_minRate_eq_zero (route : ModelRouteProto) (r : ModelRoute)
    (hrates : ∀ backend ∈ route.backendRate, 0 ≤ backend.throughput)
    (hzero : ∃ backend ∈ route.backendRate, backend.throughput = 0) :
    (r.update route).minRate = 0 := by
  obtain ⟨backend, hmem, hb⟩ := hzero
  rw [update_minRate]
  exact le_antisymm (hb ▸ (foldl_min_le _ _).2 backend hmem) (le_foldl_min doubleMax_pos.le hrates)

/-- After an `Update` of a reachable table with nonnegative throughputs one of which is
zero, every run of `GetBackend` calls returns the backend under the pointer at each call
and leaves the table as it is: no other backend of the route is returned, whatever its
rate. -/
theorem update_zero_rate_runs {r : ModelRoute} (hr : Reachable r) (route : ModelRouteProto)
    (hrates : ∀ backend ∈ route.backendRate, 0 ≤ backend.throughput)
    (hzero : ∃ backend ∈ route.backendRate, backend.throughput = 0) {backend : BackendRate}
    (hb : route.backendRate[(r.update route).currentDrrIndex]? = some backend) (K : Nat) :
    getBackendRun K (r.update route) = .ok (List.replicate K backend.info, r.update route) :=
  getBackendRun_of_minRate_zero (reachable_invariant (hr.update route hrates))
    (update_minRate_eq_zero route r hrates hzero) hb K

/-- Backend `1` at rate `0`, then backend `2` at rate `1`. -/
def zeroThenOne : ModelRouteProto :=
  ⟨"m", [⟨⟨1, "gpu", "uuid-1"⟩, 0⟩, ⟨⟨2, "gpu", "uuid-2"⟩, 1⟩]⟩

/-- A fresh table sent `zeroThenOne` returns backend `1`, of rate `0`, at every call, and
never backend `2`, of rate `1`. -/
theorem zero_rate_starves_backend :
    Reachable (freshTable.update zeroThenOne) ∧
      ∀ K, getBackendRun K (freshTable.update zeroThenOne) =
        .ok (List.replicate K ⟨1, "gpu", "uuid-1"⟩, freshTable.update zeroThenOne) := by
  have hrates : ∀ backend ∈ zeroThenOne.backendRate, 0 ≤ backend.throughput := by
    simp [zeroThenOne]
  refine ⟨.update zeroThenOne hrates (.init "m" 0 0 0), fun K => ?_⟩
  have hb : zeroThenOne.backendRate[(freshTable.update zeroThenOne).currentDrrIndex]? =
      some ⟨⟨1, "gpu", "uuid-1"⟩, 0⟩ := rfl
  exact update_zero_rate_runs (.init "m" 0 0 0) zeroThenOne hrates
    ⟨_, List.mem_cons_self _ _, rfl⟩ hb K

/-! ## A route sent again -/

/-- `backend_idx` finds a backend at its own position when the node ids are distinct. -/
theorem backendIdx_of_getElem? {backends : List BackendRate} (hnodup : (nodeIds backends).Nodup)
    {i : Nat} {backend : BackendRate} (hb : backends[i]? = some backend) :
    backendIdx backends backend.info.nodeId = some i := by
  obtain ⟨hi, rfl⟩ := List.getElem?_eq_some_iff.mp hb
  rw [backendIdx, List.findIdx?_eq_some_iff_getElem]
  refine ⟨hi, by simp, fun j hji hj => ?_⟩
  have hj' : j < (nodeIds backends).length := by simp [nodeIds]; omega
  have hi' : i < (nodeIds backends).length := by simpa [nodeIds] using hi
  have heq : (nodeIds backends)[j] = (nodeIds backends)[i] := by simpa [nodeIds] using hj
  exact absurd (hnodup.getElem_inj_iff.mp heq) (by omega)

/-- `Update` with the route a table holds keeps its quanta: each backend of the route has
one, which `emplace` keeps, and no other node id has one. -/
theorem update_backendQuanta_same {r : ModelRoute} (hinv : DrrInvariant r)
    {route : ModelRouteProto} (hsame : r.backends = route.backendRate) :
    (r.update route).backendQuanta = r.backendQuanta := by
  funext id
  have hkeys := hinv.quantaKeys id
  rw [hsame] at hkeys
  simp only [update]
  split_ifs with hid
  · obtain ⟨quantum, hq⟩ := Option.isSome_iff_exists.mp (hkeys.mpr hid)
    rw [foldl_emplaceQuantum_of_some hq, hq]
  · exact (Option.not_isSome_iff_eq_none.mp (mt hkeys.mp hid)).symm

/-- `Update` with the nonempty route a table holds, with distinct node ids, finds the
backend under the pointer where it was. -/
theorem update_currentDrrIndex_same {r : ModelRoute} (hinv : DrrInvariant r)
    {route : ModelRouteProto} (hsame : r.backends = route.backendRate)
    (hnodup : (nodeIds route.backendRate).Nodup) (hne : route.backendRate ≠ []) :
    (r.update route).currentDrrIndex = r.currentDrrIndex := by
  have hlt : r.currentDrrIndex < r.backends.length := hinv.indexInRange (hsame ▸ hne)
  have hb : route.backendRate[r.currentDrrIndex]? = some r.backends[r.currentDrrIndex] := by
    rw [← List.getElem?_eq_getElem hlt, hsame]
  have hid : r.currentDrrBackendId = r.backends[r.currentDrrIndex].info.nodeId := by
    simp [currentDrrBackendId, List.getElem?_eq_getElem hlt]
  simp only [update, hid, backendIdx_of_getElem? hnodup hb]

/-- A table with another session id and total throughput makes the same choices. -/
theorem probe_relabel (r : ModelRoute) (sessionId : String) (total : ℚ) :
    probe { r with modelSessionId := sessionId, totalThroughput := total } =
      r.probe.map fun p => (p.1,
        { p.2 with modelSessionId := sessionId, totalThroughput := total }) := by
  unfold probe
  cases hb : r.backends[r.currentDrrIndex]? with
  | none => simp [hb, Except.map]
  | some backend =>
    cases hq : r.backendQuanta backend.info.nodeId with
    | none => simp [hb, hq, Except.map]
    | some quantum =>
      by_cases hle : r.minRate ≤ quantum <;> simp [hb, hq, hle, setQuantum, moveOn, Except.map]

theorem getBackendLoop_relabel (sessionId : String) (total : ℚ) :
    ∀ (checks : Nat) (r : ModelRoute),
      getBackendLoop checks { r with modelSessionId := sessionId, totalThroughput := total } =
        (getBackendLoop checks r).map fun p =>
          (p.1, { p.2 with modelSessionId := sessionId, totalThroughput := total })
  | checks, r => by
    have hrelabel := probe_relabel r sessionId total
    rcases hp : r.probe with fault | ⟨_ | info, r'⟩ <;> rw [hp] at hrelabel
    · rw [getBackendLoop_of_probe_error hrelabel, getBackendLoop_of_probe_error hp]; rfl
    · cases checks with
      | zero =>
        rw [getBackendLoop_zero_of_probe_none hrelabel, getBackendLoop_zero_of_probe_none hp]; rfl
      | succ checks =>
        rw [getBackendLoop_succ_of_probe_none hrelabel, getBackendLoop_succ_of_probe_none hp]
        exact getBackendLoop_relabel sessionId total checks r'
    · rw [getBackendLoop_of_probe_some hrelabel, getBackendLoop_of_probe_some hp]; rfl

theorem getBackendRun_relabel (sessionId : String) (total : ℚ) :
    ∀ (K : Nat) (r : ModelRoute),
      getBackendRun K { r with modelSessionId := sessionId, totalThroughput := total } =
        (getBackendRun K r).map fun p =>
          (p.1, { p.2 with modelSessionId := sessionId, totalThroughput := total })
  | 0, _ => rfl
  | K + 1, r => by
    have hcall : getBackend { r with modelSessionId := sessionId, totalThroughput := total } =
        r.getBackend.map fun p =>
          (p.1, { p.2 with modelSessionId := sessionId, totalThroughput := total }) :=
      getBackendLoop_relabel sessionId total _ r
    rw [getBackendRun, getBackendRun, hcall]
    rcases r.getBackend with fault | ⟨info, r'⟩
    · rfl
    · simp only [Except.map]
      rw [getBackendRun_relabel sessionId total K r']
      rcases getBackendRun K r' with fault | ⟨infos, r''⟩ <;> rfl

/-- A table that agrees with `r` on everything `GetBackend` reads is `r` with another
session id and total throughput. -/
theorem eq_relabel_of {x r : ModelRoute} (hbackends : x.backends = r.backends)
    (hquanta : x.backendQuanta = r.backendQuanta) (hmin : x.minRate = r.minRate)
    (hindex : x.currentDrrIndex = r.currentDrrIndex) :
    x = { r with modelSessionId := x.modelSessionId, totalThroughput := x.totalThroughput } := by
  cases x
  cases r
  simp only at hbackends hquanta hmin hindex
  subst hbackends hquanta hmin hindex
  rfl

/-- A table without backends fails every `GetBackend` at its first read. -/
theorem getBackendRun_of_backends_nil {r : ModelRoute} (hnil : r.backends = []) (K : Nat) :
    getBackendRun (K + 1) r = .error .indexOutOfRange := by
  have hprobe : r.probe = .error .indexOutOfRange := by simp [probe, hnil]
  simp [getBackendRun, getBackend, getBackendLoop_of_probe_error hprobe]

/-- A reachable table that `Update` has set up at least once. -/
inductive Updated : ModelRoute → Prop
  | update {r : ModelRoute} (route : ModelRouteProto)
      (hrates : ∀ backend ∈ route.backendRate, 0 ≤ backend.throughput) :
      Reachable r → Updated (r.update route)
  | getBackend {r r' : ModelRoute} {info : BackendInfo} :
      Updated r → r.backends ≠ [] → r.getBackend = .ok (info, r') → Updated r'

/-- An updated table without backends was last sent the empty route, which set
`min_rate_` to `std::numeric_limits<double>::max()` and the pointer to `0`. -/
theorem Updated.of_backends_nil {r : ModelRoute} (h : Updated r) (hnil : r.backends = []) :
    r.minRate = doubleMax ∧ r.currentDrrIndex = 0 := by
  induction h with
  | update route _ _ =>
    change route.backendRate = [] at hnil
    simp [ModelRoute.update, hnil, backendIdx]
  | getBackend _ hne hget _ =>
    exact absurd ((getBackendLoop_backends_minRate hget).1 ▸ hnil) hne

/-- `Update` with the route a reachable table already holds (node ids distinct) keeps its
backends and quanta, and the `GetBackend` calls that follow return the same backends; it
also keeps `min_rate_` and the pointer, unless the route is empty and the table was never
updated. -/
theorem update_same_route {r : ModelRoute} (hr : Reachable r) {route : ModelRouteProto}
    (hsame : r.backends = route.backendRate) (hnodup : (nodeIds route.backendRate).Nodup) :
    (r.update route).backends = r.backends ∧ (r.update route).backendQuanta = r.backendQuanta ∧
      (∀ K, ((r.update route).getBackendRun K).map Prod.fst = (r.getBackendRun K).map Prod.fst) ∧
      (route.backendRate ≠ [] ∨ Updated r → (r.update route).minRate = r.minRate ∧
        (r.update route).currentDrrIndex = r.currentDrrIndex) := by
  have hinv := reachable_invariant hr
  have hquanta := update_backendQuanta_same hinv hsame
  have hkept : route.backendRate ≠ [] ∨ Updated r → (r.update route).minRate = r.minRate ∧
      (r.update route).currentDrrIndex = r.currentDrrIndex := by
    intro hcase
    by_cases hne : route.backendRate = []
    · obtain ⟨hmin, hindex⟩ :=
        (hcase.resolve_left (not_not.mpr hne)).of_backends_nil (hsame.trans hne)
      rw [hmin, hindex]
      simp [update, hne, backendIdx]
    · exact ⟨by rw [update_minRate, hr.minRate_eq (hsame ▸ hne), hsame],
        update_currentDrrIndex_same hinv hsame hnodup hne⟩
  refine ⟨hsame.symm, hquanta, fun K => ?_, hkept⟩
  by_cases hne : route.backendRate = []
  · cases K with
    | zero => rfl
    | succ K =>
      rw [getBackendRun_of_backends_nil hne, getBackendRun_of_backends_nil (hsame.trans hne)]
  · obtain ⟨hmin, hindex⟩ := hkept (.inl hne)
    rw [eq_relabel_of hsame.symm hquanta hmin hindex, getBackendRun_relabel]
    rcases getBackendRun K r with fault | ⟨infos, r'⟩ <;> rfl

/-- A table that `Update` gave the backends `1` and `2`, sent the same route again, and a
table that `Update` gave the empty route, sent it again. -/
theorem update_same_route_two_to_one :
    (Reachable (freshTable.update twoToOneRoute) ∧
      (freshTable.update twoToOneRoute).backends = twoToOneRoute.backendRate ∧
      (nodeIds twoToOneRoute.backendRate).Nodup ∧
      ((freshTable.update twoToOneRoute).update twoToOneRoute).backends =
          (freshTable.update twoToOneRoute).backends ∧
      ((freshTable.update twoToOneRoute).update twoToOneRoute).backendQuanta =
          (freshTable.update twoToOneRoute).backendQuanta ∧
      (∀ K, (((freshTable.update twoToOneRoute).update twoToOneRoute).getBackendRun K).map
          Prod.fst = ((freshTable.update twoToOneRoute).getBackendRun K).map Prod.fst) ∧
      ((freshTable.update twoToOneRoute).update twoToOneRoute).minRate =
          (freshTable.update twoToOneRoute).minRate ∧
      ((freshTable.update twoToOneRoute).update twoToOneRoute).currentDrrIndex =
          (freshTable.update twoToOneRoute).currentDrrIndex) ∧
    (Updated (freshTable.update ⟨"m", []⟩) ∧
      ((freshTable.update ⟨"m", []⟩).update ⟨"m", []⟩).minRate =
          (freshTable.update ⟨"m", []⟩).minRate ∧
      ((freshTable.update ⟨"m", []⟩).update ⟨"m", []⟩).currentDrrIndex =
          (freshTable.update ⟨"m", []⟩).currentDrrIndex) := by
  have hr : Reachable (freshTable.update twoToOneRoute) :=
    .update twoToOneRoute (by simp [twoToOneRoute]) (.init "m" 0 0 0)
  have hnodup : (nodeIds twoToOneRoute.backendRate).Nodup := by decide
  obtain ⟨hbackends, hquanta, hruns, hkept⟩ := update_same_route hr rfl hnodup
  have hnil : ∀ backend ∈ (⟨"m", []⟩ : ModelRouteProto).backendRate, 0 ≤ backend.throughput :=
    fun _ h => absurd h (List.not_mem_nil _)
  have hempty : Updated (freshTable.update ⟨"m", []⟩) := .update _ hnil (.init "m" 0 0 0)
  exact ⟨⟨hr, rfl, hnodup, hbackends, hquanta, hruns, hkept (.inl (by decide))⟩, hempty,
    (@update_same_route _ (.update _ hnil (.init "m" 0 0 0)) ⟨"m", []⟩ rfl
      List.nodup_nil).2.2.2 (.inr hempty)⟩

/-- A fresh table, which no `Update` has set up, holds the empty route; sent it, `Update`
sets `min_rate_`, which the constructor left at zero, to
`std::numeric_limits<double>::max()`. -/
theorem update_fresh_empty_sets_minRate :
    Reachable freshTable ∧ ¬ Updated freshTable ∧
      freshTable.backends = (⟨"m", []⟩ : ModelRouteProto).backendRate ∧
      (nodeIds (⟨"m", []⟩ : ModelRouteProto).backendRate).Nodup ∧
      (freshTable.update ⟨"m", []⟩).minRate ≠ freshTable.minRate :=
  ⟨.init "m" 0 0 0, fun h => doubleMax_pos.ne (h.of_backends_nil rfl).1, rfl, List.nodup_nil,
    doubleMax_pos.ne'⟩

end NexusLb.ModelRoute
