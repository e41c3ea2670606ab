import NexusLb.Scheduler.Epoch

/-!
# What the scheduler records and what its backends serve

`session_table_` records, for each session, a weight per backend (`backend_weights`);
each backend delegate holds an instance per session it serves, with a throughput.
`recordedRate` and `hostedRate` read the two views at one backend and one session, and
`Consistent` says that they agree everywhere, as far as a `view` of the rates tells them
apart.  This module gives the lemmas that later proofs read the two views through, and
the spec lemmas of the functions that choose backends (`FindBestBackend`, `LoadModel`'s
placement loop, the `Assign` search of `RemoveBackend`).
-/

namespace NexusLb.Sched

namespace Scheduler

variable (policy : Policy)

/-- The rate at which backend `b` serves `session`, as its delegate holds it. -/
def hostedRate (s : Scheduler) (b : Nat) (session : String) : Option ℚ :=
  (s.backends.lookup b).bind fun backend => backend.rateOf session

/-- The weight that `session_table_` records for `session` on backend `b`. -/
def recordedRate (s : Scheduler) (b : Nat) (session : String) : Option ℚ :=
  (s.sessionTable.lookup session).bind fun info => info.backendWeights.lookup b

/-- Every delegate sits under its own node id. -/
def Keyed (s : Scheduler) : Prop :=
  ∀ b backend, s.backends.lookup b = some backend → backend.nodeId = b

/-- The scheduler's records agree with its backends as far as `view` tells rates apart:
every delegate sits under its own node id, and a session records a weight for a backend
exactly when the backend serves it, the weight looking under `view` like the throughput.
Under a constant `view` this is agreement on who serves what; under `id` each weight is
the throughput. -/
structure Consistent (view : ℚ → ℚ) (s : Scheduler) : Prop where
  keyed : Keyed s
  rates : ∀ b session, (s.recordedRate b session).map view = (s.hostedRate b session).map view

/-! ### The two views under updates of the tables -/

section Views

variable {s s' : Scheduler}

theorem hostedRate_congr (h : s'.backends = s.backends) : s'.hostedRate = s.hostedRate := by
  funext b session; simp [hostedRate, h]

theorem recordedRate_congr (h : s'.sessionTable = s.sessionTable) :
    s'.recordedRate = s.recordedRate := by
  funext b session; simp [recordedRate, h]

@[simp]
theorem recordedRate_modifyBackend (b : Nat) (f : BackendDelegate → BackendDelegate) :
    (s.modifyBackend b f).recordedRate = s.recordedRate := rfl

@[simp]
theorem hostedRate_modifySession (session : String) (f : SessionInfo → SessionInfo) :
    (s.modifySession session f).hostedRate = s.hostedRate := rfl

@[simp]
theorem recordedRate_updateModelTables (backends : List Nat) :
    (s.updateModelTables backends).recordedRate = s.recordedRate := rfl

@[simp]
theorem hostedRate_updateModelTables (backends : List Nat) :
    (s.updateModelTables backends).hostedRate = s.hostedRate := rfl

theorem hostedRate_insert {b : Nat} {backend : BackendDelegate}
    (h : s'.backends = s.backends.insert b backend) (b' : Nat) (session : String) :
    s'.hostedRate b' session = if b' =
      b then backend.rateOf session else s.hostedRate b' session := by
  split
  · subst b'; simp [hostedRate, h]
  · simp [hostedRate, h, AList.lookup_insert_ne ‹_›]

theorem hostedRate_erase {b : Nat} (h : s'.backends = s.backends.erase b) (b' : Nat)
    (session : String) :
    s'.hostedRate b' session = if b' = b then none else s.hostedRate b' session := by
  split
  · subst b'; simp [hostedRate, h]
  · simp [hostedRate, h, AList.lookup_erase_ne ‹_›]

theorem hostedRate_modify {b : Nat} {f : BackendDelegate → BackendDelegate}
    (h : s'.backends = s.backends.modify b f) (b' : Nat) (session : String) :
    s'.hostedRate b' session =
      if b' = b then ((s.backends.lookup b).map f).bind (·.rateOf session)
      else s.hostedRate b' session := by
  split
  · subst b'; simp [hostedRate, h]
  · simp [hostedRate, h, Table.lookup_modify_ne ‹_›]

/-- Loading an instance on a registered backend adds the rate at which it serves the
instance's session, unless it served the session already. -/
theorem hostedRate_modify_loadModel {b : Nat} (inst : InstanceInfo) (hb : b ∈ s.backends)
    (b' : Nat) (session : String) :
    (s.modifyBackend b (BackendDelegate.loadModel inst)).hostedRate b' session =
      if b' = b then
        (s.hostedRate b session).or
          (if session = inst.modelSession then some inst.throughput else none)
      else s.hostedRate b' session := by
  obtain ⟨backend, hbackend⟩ := Option.isSome_iff_exists.mp (AList.lookup_isSome.mpr hb)
  rw [hostedRate_modify rfl]
  split
  · simp [hbackend, hostedRate, BackendDelegate.rateOf_loadModel]
  · rfl

/-- Unloading a session from a backend stops it serving that session and nothing else. -/
theorem hostedRate_modify_unloadModel (b : Nat) (session : String) (b' : Nat)
    (session' : String) :
    (s.modifyBackend b (BackendDelegate.unloadModel session)).hostedRate b' session' =
      if b' = b ∧ session' = session then none else s.hostedRate b' session' := by
  rw [hostedRate_modify rfl]
  by_cases hb : b' = b
  · subst b'
    cases hbackend : s.backends.lookup b <;>
      simp [hbackend, hostedRate, BackendDelegate.rateOf_unloadModel]
  · simp [hb]

theorem recordedRate_modify {session : String} {f : SessionInfo → SessionInfo}
    (h : s'.sessionTable = s.sessionTable.modify session f) (b : Nat) (session' : String) :
    s'.recordedRate b session' =
      if session' = session then ((s.sessionTable.lookup session).map f).bind
        (·.backendWeights.lookup b)
      else s.recordedRate b session' := by
  split
  · subst session'; simp [recordedRate, h]
  · simp [recordedRate, h, Table.lookup_modify_ne ‹_›]

/-- A change to a session that leaves its weights leaves every recorded weight. -/
theorem recordedRate_modify_of_weights {session : String} {f : SessionInfo → SessionInfo}
    (h : s'.sessionTable = s.sessionTable.modify session f)
    (hf : ∀ info, (f info).backendWeights = info.backendWeights) : s'.recordedRate =
      s.recordedRate := by
  funext b session'
  rw [recordedRate_modify h]
  split
  · subst session'
    simp only [recordedRate]
    cases s.sessionTable.lookup session <;> simp [hf]
  · rfl

theorem recordedRate_modifySession {session : String} {f : SessionInfo → SessionInfo}
    (hf : ∀ info, (f info).backendWeights = info.backendWeights) :
    (s.modifySession session f).recordedRate = s.recordedRate :=
  recordedRate_modify_of_weights rfl hf

/-- A session drops backend `a` from its weights. -/
theorem recordedRate_modify_erase {session : String} {a : Nat} {f : SessionInfo → SessionInfo}
    (hf : ∀ info, (f info).backendWeights = info.backendWeights.erase a) (b : Nat)
    (session' : String) :
    (s.modifySession session f).recordedRate b session' =
      if b = a ∧ session' = session then none else s.recordedRate b session' := by
  rw [recordedRate_modify rfl]
  by_cases hsession : session' = session
  · subst session'
    cases hinfo : s.sessionTable.lookup session with
    | none => simp [recordedRate, hinfo]
    | some info =>
      by_cases hb : b = a
      · subst b; simp [hf]
      · simp [hf, hinfo, hb, recordedRate, AList.lookup_erase_ne hb]
  · simp [hsession]

/-- A session in the table records weight `w` for backend `a`, unless it records one. -/
theorem recordedRate_modify_emplace {session : String} {a : Nat} {w : ℚ}
    {f : SessionInfo → SessionInfo}
    (hf : ∀ info, (f info).backendWeights = info.backendWeights.emplace a w)
    (hmem : session ∈ s.sessionTable) (b : Nat) (session' : String) :
    (s.modifySession session f).recordedRate b session' =
      if session' = session then (s.recordedRate b session').or (if b = a then some w else none)
      else s.recordedRate b session' := by
  obtain ⟨info, hinfo⟩ := Option.isSome_iff_exists.mp (AList.lookup_isSome.mpr hmem)
  rw [recordedRate_modify rfl]
  split
  · subst session'; simp [recordedRate, hinfo, hf, Table.lookup_emplace]
  · rfl

/-- A session in the table records weight `w` for backend `a`, whatever it recorded. -/
theorem recordedRate_modify_insert {session : String} {a : Nat} {w : ℚ}
    {f : SessionInfo → SessionInfo}
    (hf : ∀ info, (f info).backendWeights = info.backendWeights.insert a w)
    (hmem : session ∈ s.sessionTable) (b : Nat) (session' : String) :
    (s.modifySession session f).recordedRate b session' =
      if b = a ∧ session' = session then some w else s.recordedRate b session' := by
  obtain ⟨info, hinfo⟩ := Option.isSome_iff_exists.mp (AList.lookup_isSome.mpr hmem)
  rw [recordedRate_modify rfl]
  by_cases hsession : session' = session
  · subst session'
    by_cases hb : b = a
    · subst b; simp [hinfo, hf]
    · simp [hinfo, hf, hb, AList.lookup_insert_ne hb, recordedRate]
  · simp [hsession]

theorem mem_of_recordedRate_isSome {b : Nat} {session : String}
    (h : (s.recordedRate b session).isSome) : session ∈ s.sessionTable := by
  unfold recordedRate at h
  cases hinfo : s.sessionTable.lookup session
  · simp [hinfo] at h
  · exact AList.lookup_isSome.mp (by simp [hinfo])

theorem recordedRate_erase {session : String}
    (h : s'.sessionTable = s.sessionTable.erase session) (b : Nat) (session' : String) :
    s'.recordedRate b session' = if session' = session then none else s.recordedRate b session' :=
      by
  split
  · subst session'; simp [recordedRate, h]
  · simp [recordedRate, h, AList.lookup_erase_ne ‹_›]

/-- Creating a session that is not there yet, with no weights, records no weight. -/
theorem recordedRate_emplace_empty {session : String} {info : SessionInfo}
    (hinfo : info.backendWeights = ∅) (h : s'.sessionTable = s.sessionTable.emplace session info) :
    s'.recordedRate = s.recordedRate := by
  funext b session'
  by_cases hsession : session' = session
  · subst session'
    by_cases hmem : session ∈ s.sessionTable
    · simp [recordedRate, h, Table.lookup_emplace_of_mem hmem]
    · simp [recordedRate, h, Table.lookup_emplace_self hmem, hinfo,
        AList.lookup_eq_none.mpr hmem]
  · simp [recordedRate, h, Table.lookup_emplace_ne hsession]

/-- `UpdateModelRoutes` only sends. -/
theorem updateModelRoutes_frame {sessions : List String}
    (h : s.updateModelRoutes sessions = some s') :
    ∃ effects, s' = { s with effects := effects } := by
  obtain ⟨updates, -, h⟩ := Option.bind_eq_some.mp h
  cases h
  exact ⟨_, rfl⟩

theorem atSession_eq_some {session : String} {f : SessionInfo → SessionInfo} :
    s.atSession session f = some s' ↔ session ∈ s.sessionTable ∧ s' = s.modifySession session f :=
      by
  unfold atSession modifySession Table.modify
  constructor
  · intro h
    obtain ⟨info, hinfo, rfl⟩ := Option.map_eq_some'.mp h
    exact ⟨AList.lookup_isSome.mp (by simp [hinfo]), by simp [hinfo]⟩
  · rintro ⟨hmem, rfl⟩
    obtain ⟨info, hinfo⟩ := Option.isSome_iff_exists.mp (AList.lookup_isSome.mpr hmem)
    simp [hinfo]

end Views

/-! ### `Consistent` under updates that keep both views -/

theorem Keyed.modifyBackend {s : Scheduler} (hk : Keyed s) {b : Nat}
    {f : BackendDelegate → BackendDelegate} (hf : ∀ backend, (f backend).info = backend.info) :
    Keyed (s.modifyBackend b f) := by
  intro b' backend' h
  simp only [backends_modifyBackend, Table.lookup_modify] at h
  split at h
  · obtain ⟨backend, hbackend, rfl⟩ := Option.map_eq_some'.mp h
    simp only [BackendDelegate.nodeId, hf]
    exact hk _ _ hbackend
  · exact hk _ _ h

theorem Keyed.insert {s s' : Scheduler} (hk : Keyed s) {b : Nat} {backend : BackendDelegate}
    (h : s'.backends = s.backends.insert b backend) (hb : backend.nodeId = b) : Keyed s' := by
  intro b' backend' h'
  rw [h] at h'
  by_cases hb' : b' = b
  · subst b'
    rw [AList.lookup_insert] at h'
    cases h'
    exact hb
  · exact hk _ _ (by rwa [AList.lookup_insert_ne hb'] at h')

theorem Keyed.erase {s s' : Scheduler} (hk : Keyed s) {b : Nat}
    (h : s'.backends = s.backends.erase b) : Keyed s' := by
  intro b' backend' h'
  rw [h] at h'
  by_cases hb' : b' = b
  · subst b'; simp at h'
  · exact hk _ _ (by rwa [AList.lookup_erase_ne hb'] at h')

namespace Consistent

variable {view : ℚ → ℚ} {s s' : Scheduler}

/-- A session records a weight for a backend exactly when the backend serves it. -/
theorem isSome (hc : Consistent view s) (b : Nat) (session : String) :
    (s.recordedRate b session).isSome = (s.hostedRate b session).isSome := by
  simpa only [Option.isSome_map'] using congrArg Option.isSome (hc.rates b session)

theorem recorded_eq_none (hc : Consistent view s) {b : Nat} {session : String} :
    s.recordedRate b session = none ↔ s.hostedRate b session = none := by
  rw [← Option.not_isSome_iff_eq_none, ← Option.not_isSome_iff_eq_none, hc.isSome]

/-- Under `id`, each weight is the rate at which the backend serves the session. -/
theorem eq (hc : Consistent id s) (b : Nat) (session : String) :
    s.recordedRate b session = s.hostedRate b session := by
  simpa using hc.rates b session

theorem congr (hc : Consistent view s) (hb : s'.backends = s.backends)
    (hr : s'.recordedRate = s.recordedRate) : Consistent view s' :=
  ⟨fun b backend h => hc.keyed b backend (hb ▸ h), fun b session => by
    rw [hr, hostedRate_congr hb, hc.rates]⟩

/-- A change to a session that leaves its weights keeps the records consistent. -/
theorem modifySession (hc : Consistent view s) {session : String} {f : SessionInfo → SessionInfo}
    (hf : ∀ info, (f info).backendWeights = info.backendWeights) :
    Consistent view (s.modifySession session f) :=
  hc.congr rfl (recordedRate_modify_of_weights rfl hf)

theorem atSession (hc : Consistent view s) {session : String} {f : SessionInfo → SessionInfo}
    (hf : ∀ info, (f info).backendWeights = info.backendWeights)
    (h : s.atSession session f = some s') : Consistent view s' := by
  obtain ⟨-, rfl⟩ := atSession_eq_some.mp h
  exact hc.modifySession hf

theorem updateModelTables (hc : Consistent view s) (backends : List Nat) :
    Consistent view (s.updateModelTables backends) :=
  hc.congr rfl rfl

theorem updateModelRoutes (hc : Consistent view s) {sessions : List String}
    (h : s.updateModelRoutes sessions = some s') : Consistent view s' := by
  obtain ⟨effects, rfl⟩ := updateModelRoutes_frame h
  exact hc.congr rfl rfl

/-- A session whose weights a loop of `at` calls leaves alone stays consistent. -/
theorem foldlM_atSession (hc : Consistent view s) {α : Type} {l : List α} {key : α → String}
    {f : α → SessionInfo → SessionInfo}
    (h : l.foldlM (fun s x => s.atSession (key x) (f x)) s = some s')
    (hf : ∀ x info, (f x info).backendWeights = info.backendWeights) : Consistent view s' :=
  foldlM_invariant (Consistent view) (fun _ x _ _ hacc hstep => hacc.atSession (hf x) hstep) hc h

end Consistent

/-! ### Choosing backends -/

/-- What `FindBestBackend` returns is a registered backend that is not skipped, not
pinned to a static workload, and on which the placement was prepared. -/
def Placeable (s : Scheduler) (session : String) (rate : ℚ) (skips : List Nat)
    (load : ModelLoad) : Prop :=
  ∃ backend, s.backends.lookup load.1 = some backend ∧ load.1 ∉ skips ∧ backend.workloadId < 0 ∧
    backend.prepareLoadModel policy session rate = some (load.2.1, load.2.2)

instance (s : Scheduler) (session : String) (rate : ℚ) (skips : List Nat) (load : ModelLoad) :
    Decidable (Placeable policy s session rate skips load) :=
  decidable_of_iff (∃ backend ∈ s.backends.lookup load.1, load.1 ∉ skips ∧
      backend.workloadId < 0 ∧
        backend.prepareLoadModel policy session rate = some (load.2.1, load.2.2))
    (by simp only [Option.mem_def, Placeable])

theorem considerBackend_placeable {s : Scheduler} {session : String} {rate : ℚ}
    {skips : List Nat} {best : Option ModelLoad × Option ModelLoad}
    {entry : Σ _ : Nat, BackendDelegate} (hentry : entry ∈ s.backends.entries)
    (hbest : (∀ load ∈ best.1, Placeable policy s session rate skips load) ∧
      ∀ load ∈ best.2, Placeable policy s session rate skips load) :
    let best' := considerBackend policy session rate skips best entry
    (∀ load ∈ best'.1, Placeable policy s session rate skips load) ∧
      ∀ load ∈ best'.2, Placeable policy s session rate skips load := by
  unfold considerBackend
  split
  · exact hbest
  · rename_i hguard
    split
    · exact hbest
    · rename_i inst occupancy hprepare
      have hload : Placeable policy s session rate skips (entry.1, inst, occupancy) :=
        ⟨entry.2, AList.mem_lookup_iff.mpr hentry, fun h => hguard (.inl h),
          by have := hguard; push_neg at this; exact this.2.1, hprepare⟩
      have hkeep : ∀ {c : Prop} [Decidable c] {o : Option ModelLoad},
          (∀ load ∈ o, Placeable policy s session rate skips load) →
          ∀ load ∈ (if c then some (entry.1, inst, occupancy) else o),
            Placeable policy s session rate skips load := by
        intro c _ o ho load hmem
        split at hmem
        · obtain rfl := Option.mem_some_iff.mp hmem; exact hload
        · exact ho load hmem
      exact ⟨hkeep hbest.1, hkeep hbest.2⟩

/-- The running bests of `FindBestBackend`'s loop over registered backends are placeable. -/
theorem foldl_considerBackend_placeable {s : Scheduler} {session : String} {rate : ℚ}
    {skips : List Nat} : ∀ (entries : List (Σ _ : Nat, BackendDelegate))
      (best : Option ModelLoad × Option ModelLoad),
        (∀ entry ∈ entries, entry ∈ s.backends.entries) →
      ((∀ load ∈ best.1, Placeable policy s session rate skips load) ∧
        ∀ load ∈ best.2, Placeable policy s session rate skips load) →
      let best' := entries.foldl (considerBackend policy session rate skips) best
      (∀ load ∈ best'.1, Placeable policy s session rate skips load) ∧
        ∀ load ∈ best'.2, Placeable policy s session rate skips load
  | [], _, _, hbest => hbest
  | entry :: entries, _, hentries, hbest =>
    foldl_considerBackend_placeable entries _ (fun e he => hentries e (List.mem_cons_of_mem _ he))
      (considerBackend_placeable policy (hentries entry (List.mem_cons_self _ _)) hbest)

theorem findBestBackend_spec {s : Scheduler} {session : String} {rate : ℚ} {skips : List Nat}
    {b : Nat} {inst : InstanceInfo}
    (h : s.findBestBackend policy session rate skips = some (b, inst)) :
    ∃ backend, s.backends.lookup b = some backend ∧ b ∉ skips ∧ backend.workloadId < 0 ∧
      (policy.RefusesServed → backend.rateOf session = none) ∧ inst.modelSession = session := by
  obtain ⟨h1, h2⟩ :=
    foldl_considerBackend_placeable policy s.backends.entries (none, none) (fun _ => id) (by simp)
  unfold findBestBackend at h
  obtain ⟨load, hchosen, hload⟩ := Option.map_eq_some'.mp h
  have hplaceable : Placeable policy s session rate skips load := by
    split at hchosen
    · exact h1 load hchosen
    · split at hchosen
      · split at hchosen
        · exact h1 load hchosen
        · exact h2 load hchosen
      · cases hchosen
  obtain ⟨backend, hb, hskip, hpinned, hprepare⟩ := hplaceable
  cases hload
  obtain ⟨hsession, hfree⟩ := BackendDelegate.prepareLoadModel_spec policy hprepare
  exact ⟨backend, hb, hskip, hpinned, hfree, hsession⟩

/-! ### The running bests -/

section RunningBests

/-- One update of a running best, as `FindBestBackend` keeps its two: the candidate kept
scores at least the load just prepared and at least the one kept before. -/
theorem keepBest_le {f : ModelLoad → ℚ} {o : Option ModelLoad} (load : ModelLoad) {v : ℚ}
    (hv : v ≤ f load ∨ ∃ m ∈ o, v ≤ f m) :
    ∃ m ∈ (if o.all (fun m => f m < f load) then some load else o), v ≤ f m := by
  split
  · rename_i hall
    refine ⟨load, rfl, hv.elim id fun ⟨m, hm, hle⟩ => ?_⟩
    obtain rfl := Option.mem_def.mp hm
    exact hle.trans (by simpa using hall : f m < f load).le
  · rename_i hall
    cases o with
    | none => simp at hall
    | some m =>
      have hle : f load ≤ f m := not_lt.mp (by simpa using hall)
      exact ⟨m, rfl, hv.elim (·.trans hle) fun ⟨_, hm, hle'⟩ => by cases hm; exact hle'⟩

/-- A load that `FindBestBackend`'s running bests dominate: the highest-throughput
candidate has at least its throughput, the highest-occupancy one at least its occupancy. -/
def Dominated (best : Option ModelLoad × Option ModelLoad) (load : ModelLoad) : Prop :=
  (∃ m ∈ best.1, load.2.1.throughput ≤ m.2.1.throughput) ∧ ∃ m ∈ best.2, load.2.2 ≤ m.2.2

variable {session : String} {rate : ℚ} {skips : List Nat}
    {best : Option ModelLoad × Option ModelLoad}
  {load : ModelLoad}

theorem considerBackend_dominated (hbest : Dominated best load) (entry : Σ _ : Nat,
    BackendDelegate) :
    Dominated (considerBackend policy session rate skips best entry) load := by
  unfold considerBackend
  split
  · exact hbest
  · split
    · exact hbest
    · dsimp only
      exact ⟨keepBest_le (_, _, _) (.inr hbest.1), keepBest_le (_, _, _) (.inr hbest.2)⟩

/-- Under a rate of at least `1e-3` no busy backend is passed over, so the pass over an
eligible backend keeps a load dominating the one it prepared. -/
theorem considerBackend_dominates {backend : BackendDelegate} (hrate : tolerance ≤ |rate|)
    (hskip : load.1 ∉ skips) (hfree : backend.workloadId < 0)
    (hprepare : backend.prepareLoadModel policy session rate = some (load.2.1, load.2.2)) :
    Dominated (considerBackend policy session rate skips best ⟨load.1, backend⟩) load := by
  have hguard : ¬(load.1 ∈ skips ∨ 0 ≤ backend.workloadId ∨
      (|rate| < tolerance ∧ backend.isIdle = false)) := by
    rintro (h | h | ⟨h, -⟩)
    exacts [hskip h, not_le.mpr hfree h, not_lt.mpr hrate h]
  unfold considerBackend
  dsimp only
  rw [if_neg hguard, hprepare]
  exact ⟨keepBest_le (_, _, _) (.inl le_rfl), keepBest_le (_, _, _) (.inl le_rfl)⟩

/-- Once an eligible backend's load is dominated, or its entry is still ahead, the rest of
the loop ends dominating it. -/
theorem foldl_considerBackend_dominated {backend : BackendDelegate} (hrate : tolerance ≤ |rate|)
    (hskip : load.1 ∉ skips) (hfree : backend.workloadId < 0)
    (hprepare : backend.prepareLoadModel policy session rate = some (load.2.1, load.2.2)) :
    ∀ (entries : List (Σ _ : Nat, BackendDelegate)) (best : Option ModelLoad × Option ModelLoad),
      (Dominated best load ∨ ⟨load.1, backend⟩ ∈ entries) →
      Dominated (entries.foldl (considerBackend policy session rate skips) best) load
  | [], _, h => h.resolve_right (List.not_mem_nil _)
  | entry :: entries, best, h =>
    foldl_considerBackend_dominated hrate hskip hfree hprepare entries _ <| by
      rcases h with h | h
      · exact .inl (considerBackend_dominated policy h entry)
      · rcases List.mem_cons.mp h with rfl | h
        · exact .inl (considerBackend_dominates policy hrate hskip hfree hprepare)
        · exact .inr h

end RunningBests

/-- The backend `RemoveBackend` hands the load to was idle, and is what `Assign` made
of it. -/
theorem findAssignee_spec {s : Scheduler} {departing assigned : BackendDelegate} {a : Nat}
    (h : s.findAssignee policy departing = some (a, assigned)) :
    ∃ backend, s.backends.lookup a = some backend ∧ backend.isIdle ∧
      backend.assign policy departing = some assigned := by
  obtain ⟨entry, hentry, h⟩ := List.exists_of_findSome?_eq_some h
  split at h
  · obtain ⟨assigned', hassign, hpair⟩ := Option.map_eq_some'.mp h
    cases hpair
    exact ⟨entry.2, AList.mem_lookup_iff.mpr hentry, ‹_›, hassign⟩
  · cases h

/-- The backends `LoadModel`'s placement loop chooses are registered, and each gets an
instance of the session. -/
theorem placeWorkload_spec {s : Scheduler} {session : String} {fuel : Nat} {workload : ℚ}
    {used : List Nat} {assigned : List (Nat × InstanceInfo)}
    (h : s.placeWorkload policy session fuel workload used = some assigned) :
    ∀ p ∈ assigned, p.1 ∈ s.backends ∧ p.2.modelSession = session := by
  induction fuel generalizing workload used assigned with
  | zero => cases h
  | succ fuel ih =>
    rw [placeWorkload] at h
    split at h
    · cases hbest : s.findBestBackend policy session workload used with
      | none => simp [hbest] at h
      | some placed =>
        obtain ⟨b, inst⟩ := placed
        simp only [hbest, Option.elim_some, Option.map_eq_map, Option.map_eq_some'] at h
        obtain ⟨rest, hrest, rfl⟩ := h
        obtain ⟨backend, hb, -, -, -, hinst⟩ := findBestBackend_spec policy hbest
        rintro p (_ | ⟨_, hp⟩)
        · exact ⟨AList.lookup_isSome.mp (by simp [hb]), hinst⟩
        · exact ih hrest p hp
    · cases h; simp

theorem assignBackends_spec {s : Scheduler} {session : String} {workload : ℚ}
    {assigned : List (Nat × InstanceInfo)}
    (h : s.assignBackends policy session workload = some assigned) :
    ∀ p ∈ assigned, p.1 ∈ s.backends ∧ p.2.modelSession = session := by
  unfold assignBackends at h
  split at h
  · obtain ⟨⟨b, inst⟩, hbest, rfl⟩ := Option.map_eq_some'.mp h
    obtain ⟨backend, hb, -, -, -, hinst⟩ := findBestBackend_spec policy hbest
    simp only [List.mem_singleton]
    rintro p rfl
    exact ⟨AList.lookup_isSome.mp (by simp [hb]), hinst⟩
  · exact placeWorkload_spec policy h

end Scheduler

end NexusLb.Sched
