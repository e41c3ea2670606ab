import NexusLb.Drr.Invariant
import Mathlib.Algebra.BigOperators.Fin
import Mathlib.Algebra.Order.BigOperators.Group.Finset
import Mathlib.Algebra.Order.Field.Basic
import Mathlib.Tactic.FieldSimp
import Mathlib.Tactic.GCongr
import Mathlib.Tactic.LinearCombination

/-!
# DRR fairness

After an `Update` with distinct node ids and positive throughputs, the backends that
`GetBackend` returns follow the rates: over any number `K` of calls, backend `b` is
returned `K * rate_b / Σ rate` times up to a constant that depends on the route and the
quanta at the time of the `Update`, never on `K`.  The proof counts the pointer's
passes: every position has been passed `base` or `base + 1` times, the extra pass going
to the positions between the start and the pointer (`extraPass`), and each return pays
`min_rate_`, so a backend's quantum plus what it was paid equals its first quantum plus
its passes times its rate, and quanta stay bounded.
-/

namespace NexusLb.ModelRoute

/-- The quantum of a backend, `0` when it has none. -/
def quantumOf (r : ModelRoute) (backend : BackendRate) : ℚ :=
  (r.backendQuanta backend.info.nodeId).getD 0

/-- How many of the returned backends carry the node id of `backend`. -/
def servedCount (infos : List BackendInfo) (backend : BackendRate) : ℕ :=
  infos.countP (·.nodeId = backend.info.nodeId)

/-- The constant of the fairness law: twice the sum, over the backends, of the
largest value the backend's quantum can reach plus its rate, over `min_rate_`. -/
def fairnessBound (r : ModelRoute) : ℚ :=
  2 * (r.backends.map fun backend =>
      max (r.quantumOf backend) (r.minRate + backend.throughput) + backend.throughput).sum /
    r.minRate

/-! ## Counting passes -/

/-- How far position `x` lies past the starting position `start`, going round a
list of length `n`. -/
def passOffset (start n x : ℕ) : ℕ :=
  if start ≤ x then x - start else x + n - start

/-- `1` when the pointer, now at `p`, has passed position `x` once more than it has
passed `p` since it left `start`. -/
def extraPass (start n x p : ℕ) : ℕ :=
  if passOffset start n x < passOffset start n p then 1 else 0

theorem extraPass_le_one (start n x p : ℕ) : extraPass start n x p ≤ 1 := by
  unfold extraPass; split_ifs <;> omega

theorem extraPass_self (start n x : ℕ) : extraPass start n x start = 0 := by
  simp [extraPass, passOffset]

theorem passOffset_lt {start n x : ℕ} (hs : start < n) (hx : x < n) :
    passOffset start n x < n := by
  unfold passOffset; split_ifs <;> omega

/-- Positions of the list lie at distinct offsets from the start. -/
theorem passOffset_inj {start n x p : ℕ} (hs : start < n) (hx : x < n) (hp : p < n)
    (h : passOffset start n x = passOffset start n p) : x = p := by
  unfold passOffset at h; split_ifs at h <;> omega

/-- One place on, the offset grows by one, unless the pointer is back at the start. -/
theorem passOffset_succ {start n p : ℕ} (hs : start < n) (hp : p < n) :
    passOffset start n ((p + 1) % n) =
      if (p + 1) % n = start then 0 else passOffset start n p + 1 := by
  by_cases hwrap : p + 1 < n
  · rw [Nat.mod_eq_of_lt hwrap]; unfold passOffset; split_ifs <;> omega
  · rw [show p + 1 = n by omega, Nat.mod_self]; unfold passOffset; split_ifs <;> omega

/-- The position just before the start is the farthest from it. -/
theorem passOffset_last {start n p : ℕ} (hs : start < n) (hp : p < n)
    (h : (p + 1) % n = start) : passOffset start n p = n - 1 := by
  by_cases hwrap : p + 1 < n
  · rw [Nat.mod_eq_of_lt hwrap] at h; unfold passOffset; split_ifs <;> omega
  · rw [show p + 1 = n by omega, Nat.mod_self] at h; unfold passOffset; split_ifs <;> omega

/-- Moving the pointer on from `p` gives `p` one more pass; when the pointer comes
back to its start, every position has one more pass and the base count grows. -/
theorem extraPass_advance {start n x p : ℕ} (hs : start < n) (hx : x < n) (hp : p < n) :
    extraPass start n x p + (if x = p then 1 else 0) =
      extraPass start n x ((p + 1) % n) + (if (p + 1) % n = start then 1 else 0) := by
  have hlt := passOffset_lt hs hx
  have hsame : x = p ↔ passOffset start n x = passOffset start n p :=
    ⟨fun h => h ▸ rfl, passOffset_inj hs hx hp⟩
  unfold extraPass
  rw [passOffset_succ hs hp]
  simp only [hsame]
  by_cases hstart : (p + 1) % n = start
  · have hlast := passOffset_last hs hp hstart
    simp only [hstart, if_true]
    split_ifs <;> omega
  · simp only [hstart, if_false]
    split_ifs <;> omega

/-! ## The run invariant -/

section Run

variable {r0 : ModelRoute}

/-- What a run of `GetBackend` calls from `r0` keeps, for the backends `infos` it
has returned so far: the pointer has passed each position `base` or `base + 1`
times, and a quantum plus what its backend was paid is its first quantum plus its
passes times its rate. -/
structure FairRun (r0 r : ModelRoute) (infos : List BackendInfo) : Prop where
  start : r0.currentDrrIndex < r0.backends.length
  backends : r.backends = r0.backends
  minRate : r.minRate = r0.minRate
  invariant : DrrInvariant r
  staircase : ∃ base : ℕ, ∀ i : Fin r0.backends.length,
    r.quantumOf r0.backends[i.1] + servedCount infos r0.backends[i.1] * r0.minRate =
      r0.quantumOf r0.backends[i.1] +
        (base + extraPass r0.currentDrrIndex r0.backends.length i r.currentDrrIndex) *
          r0.backends[i.1].throughput
  bounded : ∀ i : Fin r0.backends.length,
    r.quantumOf r0.backends[i.1] ≤
      max (r0.quantumOf r0.backends[i.1]) (r0.minRate + r0.backends[i.1].throughput)
  total : ∑ i : Fin r0.backends.length, servedCount infos r0.backends[i.1] = infos.length

theorem fairRun_start (hinv : DrrInvariant r0) (hne : r0.backends ≠ []) :
    FairRun r0 r0 [] where
  start := hinv.indexInRange hne
  backends := rfl
  minRate := rfl
  invariant := hinv
  staircase := ⟨0, fun i => by simp [servedCount, extraPass_self]⟩
  bounded _ := le_max_left _ _
  total := by simp [servedCount]

variable (hnodup : (nodeIds r0.backends).Nodup)
include hnodup

theorem nodeId_inj {i j : Fin r0.backends.length}
    (h : r0.backends[i.1].info.nodeId = r0.backends[j.1].info.nodeId) : i = j := by
  have hlen : (nodeIds r0.backends).length = r0.backends.length := List.length_map _ _
  have key : (nodeIds r0.backends).get (Fin.cast hlen.symm i) =
      (nodeIds r0.backends).get (Fin.cast hlen.symm j) := by
    simpa [nodeIds] using h
  simpa [Fin.ext_iff] using (List.Nodup.get_inj_iff hnodup).1 key

/-- Setting the quantum of the backend at position `p` changes the quantum of no
other position. -/
theorem quantumOf_setQuantum (r : ModelRoute) (p i : Fin r0.backends.length) (q : ℚ) :
    (r.setQuantum r0.backends[p.1].info.nodeId q).quantumOf r0.backends[i.1] =
      if i = p then q else r.quantumOf r0.backends[i.1] := by
  by_cases hip : i = p
  · subst hip; simp [quantumOf]
  · have hne : r0.backends[i.1].info.nodeId ≠ r0.backends[p.1].info.nodeId :=
      fun h => hip (nodeId_inj hnodup h)
    simp [quantumOf, Function.update_noteq hne, hip]

theorem quantumOf_moveOn {r : ModelRoute} (p i : Fin r0.backends.length) {quantum : ℚ}
    (hq : r.quantumOf r0.backends[p.1] = quantum) :
    (r.moveOn r0.backends[p.1] quantum).quantumOf r0.backends[i.1] =
      r.quantumOf r0.backends[i.1] + (if i = p then 1 else 0) * r0.backends[i.1].throughput := by
  have h := quantumOf_setQuantum hnodup r p i (quantum + r0.backends[p.1].throughput)
  simp only [quantumOf, setQuantum_backendQuanta, moveOn_backendQuanta] at h ⊢
  rw [h]
  split_ifs with hip
  · subst hip; simp [← hq, quantumOf]
  · simp

theorem servedCount_append_at (infos : List BackendInfo) (p i : Fin r0.backends.length) :
    servedCount (infos ++ [r0.backends[p.1].info]) r0.backends[i.1] =
      servedCount infos r0.backends[i.1] + if i = p then 1 else 0 := by
  by_cases hip : i = p
  · subst hip; simp [servedCount]
  · have hne : r0.backends[p.1].info.nodeId ≠ r0.backends[i.1].info.nodeId :=
      fun h => hip (nodeId_inj hnodup h.symm)
    simp [servedCount, hne, hip]

omit hnodup in
/-- The position under the pointer of a state of the run. -/
theorem pointer_backend {r : ModelRoute} {infos : List BackendInfo} {backend : BackendRate}
    (hrun : FairRun r0 r infos) (h : r.backends[r.currentDrrIndex]? = some backend) :
    ∃ p : Fin r0.backends.length, p.1 = r.currentDrrIndex ∧ r0.backends[p.1] = backend := by
  rw [hrun.backends] at h
  obtain ⟨hlt, hget⟩ := List.getElem?_eq_some_iff.1 h
  exact ⟨⟨_, hlt⟩, rfl, hget⟩

/-- An unsuccessful probe keeps the run invariant: the probed position gains a pass
and is credited its rate. -/
theorem fairRun_probe_none {r r' : ModelRoute} {infos : List BackendInfo}
    (hrun : FairRun r0 r infos) (h : r.probe = .ok (none, r')) : FairRun r0 r' infos := by
  obtain ⟨backend, quantum, hbackend, hquantum, ⟨-, hout, -⟩ | ⟨hlow, -, rfl⟩⟩ :=
    probe_cases h
  · cases hout
  obtain ⟨p, hp, rfl⟩ := pointer_backend hrun hbackend
  obtain ⟨base, hstair⟩ := hrun.staircase
  have hq : r.quantumOf r0.backends[p.1] = quantum := by simp [quantumOf, hquantum]
  have hlen : r.backends.length = r0.backends.length := by rw [hrun.backends]
  refine ⟨hrun.start, hrun.backends, hrun.minRate, probe_invariant hrun.invariant h,
    ⟨base + if (r.currentDrrIndex + 1) % r0.backends.length = r0.currentDrrIndex then 1 else 0,
      fun i => ?_⟩, fun i => ?_, hrun.total⟩
  · have hadv := congrArg (Nat.cast : ℕ → ℚ) (extraPass_advance hrun.start i.2 (hp ▸ p.2))
    have hip : (i.1 = r.currentDrrIndex) ↔ i = p := by rw [← hp, Fin.val_inj]
    simp only [hip] at hadv
    push_cast at hadv
    rw [quantumOf_moveOn hnodup p i hq, moveOn_currentDrrIndex, hlen]
    push_cast
    linear_combination hstair i + r0.backends[i.1].throughput * hadv
  · rw [quantumOf_moveOn hnodup p i hq]
    split_ifs with hip
    · subst hip
      rw [hrun.minRate] at hlow
      exact le_max_of_le_right (by rw [hq, one_mul]; exact add_le_add_right hlow.le _)
    · simpa using hrun.bounded i

/-- A successful probe keeps the run invariant: the returned backend pays
`min_rate_` and is counted once more. -/
theorem fairRun_probe_some {r r' : ModelRoute} {infos : List BackendInfo} {info : BackendInfo}
    (hrun : FairRun r0 r infos) (h : r.probe = .ok (some info, r')) :
    FairRun r0 r' (infos ++ [info]) := by
  obtain ⟨backend, quantum, hbackend, hquantum, ⟨hhigh, hout, rfl⟩ | ⟨-, hout, -⟩⟩ :=
    probe_cases h
  swap
  · cases hout
  cases hout
  obtain ⟨p, hp, rfl⟩ := pointer_backend hrun hbackend
  obtain ⟨base, hstair⟩ := hrun.staircase
  have hq : r.quantumOf r0.backends[p.1] = quantum := by simp [quantumOf, hquantum]
  refine ⟨hrun.start, hrun.backends, hrun.minRate, probe_invariant hrun.invariant h,
    ⟨base, fun i => ?_⟩, fun i => ?_, ?_⟩
  · rw [quantumOf_setQuantum hnodup, setQuantum_currentDrrIndex, servedCount_append_at hnodup]
    have := hstair i
    split_ifs with hip
    · subst hip
      push_cast at this ⊢
      rw [hrun.minRate]
      linear_combination this - hq
    · simpa using this
  · rw [quantumOf_setQuantum hnodup]
    have := hrun.bounded i
    split_ifs with hip
    · subst hip
      rw [hq] at this
      exact (sub_le_self _ (hrun.invariant.minRateNonneg
        (List.ne_nil_of_mem (List.getElem?_mem hbackend)))).trans this
    · exact this
  · simp only [servedCount_append_at hnodup, Finset.sum_add_distrib, Finset.sum_ite_eq',
      Finset.mem_univ, if_true, hrun.total, List.length_append, List.length_singleton]

/-- A whole `GetBackend` call keeps the run invariant. -/
theorem fairRun_getBackendLoop {checks : ℕ} {r r' : ModelRoute} {infos : List BackendInfo}
    {info : BackendInfo} (hrun : FairRun r0 r infos)
    (h : getBackendLoop checks r = .ok (info, r')) : FairRun r0 r' (infos ++ [info]) :=
  getBackendLoop_induction (FairRun r0)
    (fun _ _ _ hrun hp => fairRun_probe_none hnodup hrun hp)
    (fun _ _ _ _ hrun hp => fairRun_probe_some hnodup hrun hp) infos h hrun

/-- Any number `K` of further calls return, each with one backend, and keep the run
invariant. -/
theorem fairRun_getBackendRun (hne : r0.backends ≠ []) (K : ℕ) {r : ModelRoute}
    {infos : List BackendInfo} (hrun : FairRun r0 r infos) :
    ∃ infos' r', getBackendRun K r = .ok (infos', r') ∧ infos'.length = K ∧
      FairRun r0 r' (infos ++ infos') := by
  induction K generalizing r infos with
  | zero => exact ⟨[], r, rfl, rfl, by simpa using hrun⟩
  | succ K ih =>
    obtain ⟨info, r1, hloop⟩ := getBackendLoop_ok_of_lowCount_le hrun.invariant
      (hrun.backends ▸ hne) (lowCount_le_length r)
    obtain ⟨infos', r', hrest, hlen, hfair⟩ := ih (fairRun_getBackendLoop hnodup hrun hloop)
    refine ⟨info :: infos', r', ?_, by simp [hlen], by simpa using hfair⟩
    simp [getBackendRun, getBackend, getBackendLoop_succ_of_ok hloop, hrest]

end Run

/-! ## The counting bound -/

/-- The arithmetic behind the fairness law.  If each count satisfies
`c i * m = base * rate i + E i` with `|E i| ≤ bound i` and the counts add up to `K`,
then each count is within `2 * Σ bound / m` of its share `K * rate i / Σ rate`. -/
theorem abs_sub_share_le {n : ℕ} (rate c E bound : Fin n → ℚ) (base m K : ℚ)
    (hm : 0 < m) (hrate : ∀ i, 0 ≤ rate i) (hR : 0 < ∑ i, rate i)
    (hc : ∀ i, c i * m = base * rate i + E i) (hK : ∑ i, c i = K)
    (hE : ∀ i, |E i| ≤ bound i) (i : Fin n) :
    |c i - K * rate i / ∑ j, rate j| ≤ 2 * (∑ j, bound j) / m := by
  set R := ∑ j, rate j
  set S := ∑ j, bound j
  have hKm : K * m = base * R + ∑ j, E j := by
    rw [← hK, Finset.sum_mul, Finset.mul_sum, ← Finset.sum_add_distrib]
    exact Finset.sum_congr rfl fun j _ => hc j
  have hkey : m * (c i * R - K * rate i) = E i * R - rate i * ∑ j, E j := by
    linear_combination R * hc i - rate i * hKm
  have hEi : |E i| ≤ S := (hE i).trans
    (Finset.single_le_sum (fun j _ => (abs_nonneg _).trans (hE j)) (Finset.mem_univ i))
  have hsumE : |∑ j, E j| ≤ S :=
    (Finset.abs_sum_le_sum_abs _ _).trans (Finset.sum_le_sum fun j _ => hE j)
  have hri : rate i ≤ R := Finset.single_le_sum (fun j _ => hrate j) (Finset.mem_univ i)
  have habs : |m * (c i * R - K * rate i)| ≤ 2 * S * R := by
    rw [hkey]
    calc |E i * R - rate i * ∑ j, E j|
        ≤ |E i| * R + rate i * |∑ j, E j| := by
          refine (abs_sub _ _).trans (le_of_eq ?_)
          rw [abs_mul, abs_mul, abs_of_pos hR, abs_of_nonneg (hrate i)]
      _ ≤ S * R + R * S :=
        add_le_add (mul_le_mul_of_nonneg_right hEi hR.le)
          (mul_le_mul hri hsumE (abs_nonneg _) hR.le)
      _ = 2 * S * R := by ring
  have hshare : c i - K * rate i / R = m * (c i * R - K * rate i) / (m * R) := by
    rw [mul_div_mul_left _ _ hm.ne', sub_div, mul_div_cancel_right₀ _ hR.ne']
  rw [hshare, abs_div, abs_of_pos (mul_pos hm hR), div_le_div_iff₀ (mul_pos hm hR) hm]
  calc |m * (c i * R - K * rate i)| * m ≤ 2 * S * R * m :=
        mul_le_mul_of_nonneg_right habs hm.le
    _ = 2 * S * (m * R) := by ring

/-! ## The fairness law -/

theorem quantumOf_nonneg {r : ModelRoute} (hinv : DrrInvariant r) (backend : BackendRate) :
    0 ≤ r.quantumOf backend := by
  unfold quantumOf
  cases h : r.backendQuanta backend.info.nodeId
  · simp
  · exact hinv.quantaNonneg _ _ h

/-- What the staircase leaves over on a backend: the quantum it gave up since `r0`
plus the pass the pointer may still owe it, at most its first cap plus one rate. -/
theorem FairRun.residual_le {r0 r : ModelRoute} {infos : List BackendInfo}
    (hfair : FairRun r0 r infos) (hinv0 : DrrInvariant r0) (i : Fin r0.backends.length)
    (hrate : 0 ≤ r0.backends[i.1].throughput) :
    |r0.quantumOf r0.backends[i.1] - r.quantumOf r0.backends[i.1] +
        extraPass r0.currentDrrIndex r0.backends.length i r.currentDrrIndex *
          r0.backends[i.1].throughput| ≤
      max (r0.quantumOf r0.backends[i.1]) (r0.minRate + r0.backends[i.1].throughput) +
        r0.backends[i.1].throughput := by
  have h0 := quantumOf_nonneg hinv0 r0.backends[i.1]
  have h1 := quantumOf_nonneg hfair.invariant r0.backends[i.1]
  have h2 := hfair.bounded i
  have hextra : (extraPass r0.currentDrrIndex r0.backends.length i r.currentDrrIndex : ℚ) ≤ 1 := by
    exact_mod_cast extraPass_le_one _ _ _ _
  have hmax :=
    le_max_left (r0.quantumOf r0.backends[i.1]) (r0.minRate + r0.backends[i.1].throughput)
  have hpass := mul_le_of_le_one_left hrate hextra
  have hpass' : 0 ≤ (extraPass r0.currentDrrIndex r0.backends.length i r.currentDrrIndex : ℚ) *
      r0.backends[i.1].throughput := mul_nonneg (Nat.cast_nonneg _) hrate
  rw [abs_le]
  constructor <;> linarith only [h0, h1, h2, hmax, hpass, hpass', hrate]

theorem foldl_min_pos {backends : List BackendRate} {seed : ℚ} (hseed : 0 < seed)
    (hpos : ∀ backend ∈ backends, 0 < backend.throughput) :
    0 < backends.foldl (fun rate backend => min rate backend.throughput) seed := by
  induction backends generalizing seed with
  | nil => exact hseed
  | cons backend backends ih =>
    exact ih (lt_min hseed (hpos backend (List.mem_cons_self _ _)))
      fun b hb => hpos b (List.mem_cons_of_mem _ hb)

/-- Let `r` be a reachable route table, updated with a route of at least one backend,
distinct node ids and positive throughputs.  Then for every `K` the next `K` calls of
`GetBackend` return, and each backend `b` of the route is returned `K * rate_b / Σ rate`
times up to `fairnessBound` of the updated table: a constant read off the route and the
quanta right after the `Update`, not off `K`.  `Reachable` admits only earlier routes with
nonnegative throughputs: a table that was once sent a negative rate is outside it, and its
quanta can be negative. -/
theorem drr_fairness {r : ModelRoute} (hr : Reachable r) (route : ModelRouteProto)
    (hne : route.backendRate ≠ []) (hnodup : (nodeIds route.backendRate).Nodup)
    (hpos : ∀ backend ∈ route.backendRate, 0 < backend.throughput) (K : ℕ) :
    ∃ infos r', getBackendRun K (r.update route) = .ok (infos, r') ∧
      ∀ backend ∈ route.backendRate,
        |(servedCount infos backend : ℚ) -
            K * backend.throughput / (route.backendRate.map (·.throughput)).sum| ≤
          fairnessBound (r.update route) := by
  set r0 := r.update route with hr0
  have hinv0 : DrrInvariant r0 :=
    reachable_invariant (Reachable.update route (fun b hb => (hpos b hb).le) hr)
  obtain ⟨infos, r', hrun, hlen, hfair⟩ :=
    fairRun_getBackendRun hnodup hne K (fairRun_start hinv0 hne)
  refine ⟨infos, r', hrun, fun backend hb => ?_⟩
  obtain ⟨i, hi, rfl⟩ := List.getElem_of_mem hb
  obtain ⟨base, hstair⟩ := hfair.staircase
  have hm : 0 < r0.minRate := foldl_min_pos doubleMax_pos hpos
  have key := abs_sub_share_le (fun j : Fin r0.backends.length => r0.backends[j.1].throughput)
    (fun j => (servedCount ([] ++ infos) r0.backends[j.1] : ℚ))
    (fun j => r0.quantumOf r0.backends[j.1] - r'.quantumOf r0.backends[j.1] +
      extraPass r0.currentDrrIndex r0.backends.length j r'.currentDrrIndex *
        r0.backends[j.1].throughput)
    (fun j => max (r0.quantumOf r0.backends[j.1]) (r0.minRate + r0.backends[j.1].throughput) +
      r0.backends[j.1].throughput)
    base r0.minRate K hm (fun j => (hpos _ (List.getElem_mem j.2)).le)
    (Finset.sum_pos (fun j _ => hpos _ (List.getElem_mem j.2)) ⟨⟨0, List.length_pos.2 hne⟩,
      Finset.mem_univ _⟩)
    (fun j => by linear_combination hstair j)
    (by rw [← hlen]; exact_mod_cast hfair.total)
    (fun j => hfair.residual_le hinv0 j (hpos _ (List.getElem_mem j.2)).le)
    ⟨i, hi⟩
  have hR : ∑ j : Fin r0.backends.length, r0.backends[j.1].throughput =
      (route.backendRate.map (·.throughput)).sum :=
    Fin.sum_univ_get' r0.backends (·.throughput)
  have hS : ∑ j : Fin r0.backends.length,
      (max (r0.quantumOf r0.backends[j.1]) (r0.minRate + r0.backends[j.1].throughput) +
        r0.backends[j.1].throughput) =
      (r0.backends.map fun backend =>
        max (r0.quantumOf backend) (r0.minRate + backend.throughput) + backend.throughput).sum :=
    Fin.sum_univ_get' r0.backends fun backend =>
      max (r0.quantumOf backend) (r0.minRate + backend.throughput) + backend.throughput
  rw [hR, hS] at key
  simpa [fairnessBound] using key


theorem drr_fairness_two_to_one :
    Reachable ⟨"model", [], 0, 0, fun _ => none, 0⟩ ∧ twoToOneRoute.backendRate ≠ [] ∧
      (nodeIds twoToOneRoute.backendRate).Nodup ∧
      (∀ backend ∈ twoToOneRoute.backendRate, 0 < backend.throughput) ∧
      ∃ infos r', getBackendRun 3000
          ((⟨"model", [], 0, 0, fun _ => none, 0⟩ : ModelRoute).update twoToOneRoute) =
            .ok (infos, r') ∧
        ∀ backend ∈ twoToOneRoute.backendRate,
          |(servedCount infos backend : ℚ) - 3000 * backend.throughput /
              (twoToOneRoute.backendRate.map (·.throughput)).sum| ≤
            fairnessBound ((⟨"model", [], 0, 0, fun _ => none, 0⟩ : ModelRoute).update
              twoToOneRoute) := by
  have hr := Reachable.init "model" 0 0 0
  have hne : twoToOneRoute.backendRate ≠ [] := by simp [twoToOneRoute]
  have hnodup : (nodeIds twoToOneRoute.backendRate).Nodup := by decide
  have hpos : ∀ backend ∈ twoToOneRoute.backendRate, 0 < backend.throughput := by
    simp [twoToOneRoute]
  exact ⟨hr, hne, hnodup, hpos, drr_fairness hr twoToOneRoute hne hnodup hpos 3000⟩

end NexusLb.ModelRoute
