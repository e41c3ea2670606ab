import NexusLb.Dispatcher.Frame
import Mathlib.Algebra.BigOperators.Group.List

/-!
# Model loading is exactly-once

A session reaches a backend along one of two paths: `HandleLoadModel` walks `backends_`
under the lock, and a backend registration walks its copy of `sessions_` outside it.
The copy is taken in the section that adds the backend, so a session is either in the
copy and loaded by the registration, or added later and loaded by `HandleLoadModel`,
never both.  The invariant counts, for each pair of backend and session, the calls made
and the visits that the registrations in flight still owe it; once all calls have
returned, every pair whose GPU has a profile for the session has had exactly one
`AddInstanceInfo` and one `LoadModel`, and the other pairs none.
-/

namespace NexusLb.Dispatch

/-- `AddInstanceInfo` calls for `session` on the delegate of node `backend`. -/
def addCount (backend : Nat) (session : String) (effects : List Effect) : Nat :=
  effects.count (.addInstanceInfo backend session)

/-- Whether a call is a `LoadModel` command for `session` sent to node `backend`. -/
def Effect.isLoadModelCommand (backend : Nat) (session : String) : Effect → Bool
  | .loadModelCommand b s _ => b == backend && s == session
  | _ => false

/-- `LoadModel` commands for `session` sent to node `backend`. -/
def loadCount (backend : Nat) (session : String) (effects : List Effect) : Nat :=
  effects.countP (Effect.isLoadModelCommand backend session)

/-- The visits of `session` that a call in flight still owes node `backend`. -/
def owedBy (backend : Nat) (session : String) : Pending → Nat
  | .backendLoading info sessions => if info.nodeId = backend then sessions.count session else 0
  | _ => 0

/-- The visits of `session` that the calls in flight still owe node `backend`. -/
def owedLoads (backend : Nat) (session : String) (pending : List Pending) : Nat :=
  (pending.map (owedBy backend session)).sum

section Counting

variable {b : Nat} {k : String}

@[simp] theorem addCount_append (effects effects' : List Effect) :
    addCount b k (effects ++ effects') = addCount b k effects + addCount b k effects' :=
  List.count_append _ _ _

@[simp] theorem loadCount_append (effects effects' : List Effect) :
    loadCount b k (effects ++ effects') = loadCount b k effects + loadCount b k effects' :=
  List.countP_append _ _ _

@[simp] theorem addCount_updateBackendList (f : Nat) (infos : List BackendInfo) :
    addCount b k [.updateBackendList f infos] = 0 := by simp [addCount]

@[simp] theorem loadCount_updateBackendList (f : Nat) (infos : List BackendInfo) :
    loadCount b k [.updateBackendList f infos] = 0 := by simp [loadCount, Effect.isLoadModelCommand]

@[simp] theorem owedLoads_append (pending pending' : List Pending) :
    owedLoads b k (pending ++ pending') = owedLoads b k pending + owedLoads b k pending' := by
  simp [owedLoads, List.sum_append]

theorem owedLoads_erase {call : Pending} {pending : List Pending} (h : call ∈ pending) :
    owedLoads b k (pending.erase call) + owedBy b k call = owedLoads b k pending := by
  unfold owedLoads
  rw [((List.perm_cons_erase h).map _).sum_eq, List.map_cons, List.sum_cons, add_comm]

variable (db : ModelDatabase)

open Dispatcher

theorem addCount_loadEffects (backendId : Nat) (info : BackendInfo) (session : String) :
    addCount b k (loadEffects db backendId info session) =
      if backendId = b ∧ session = k ∧ (db.profileOn info session).isSome then 1 else 0 := by
  unfold loadEffects
  cases db.profileOn info session with
  | none => simp [addCount]
  | some profile =>
    by_cases h : backendId = b ∧ session = k
    · obtain ⟨rfl, rfl⟩ := h; simp [addCount]
    · simp only [addCount, List.count_cons, List.count_nil, Effect.addInstanceInfo.injEq, h]
      simp

theorem loadCount_loadEffects (backendId : Nat) (info : BackendInfo) (session : String) :
    loadCount b k (loadEffects db backendId info session) =
      addCount b k (loadEffects db backendId info session) := by
  unfold loadEffects
  cases db.profileOn info session with
  | none => rfl
  | some profile =>
    by_cases hb : backendId = b <;> by_cases hk : session = k <;>
      simp [addCount, loadCount, Effect.isLoadModelCommand, List.countP_cons, List.count_cons, hb,
        hk]

/-- The loads that `HandleLoadModel` makes for a new session, at one pair: one when
the backend is registered and its GPU has a profile. -/
theorem addCount_loadModel (d : Dispatcher) (session : String) :
    addCount b k
      (d.backends.entries.flatMap fun entry => loadEffects db entry.1 entry.2.info session) =
      ((d.infoOf b).map fun info =>
        if session = k ∧ (db.profileOn info session).isSome then 1 else 0).getD 0 := by
  have hterm : ∀ entry : Σ _ : Nat, BackendDelegate,
      addCount b k (loadEffects db entry.1 entry.2.info session) =
        if entry.1 = b then
          (if session = k ∧ (db.profileOn entry.2.info session).isSome then 1 else 0) else 0 := by
    intro entry
    rw [addCount_loadEffects]
    by_cases h : entry.1 = b <;> simp [h]
  simp only [addCount, List.flatMap, List.count, List.countP_flatten, List.map_map,
    Function.comp_def] at hterm ⊢
  simp only [hterm, infoOf, Option.map_map, Function.comp_def]
  exact Table.sum_entries_eq_lookup d.backends b
    fun backend => if session = k ∧ (db.profileOn backend.info session).isSome then 1 else 0

theorem loadCount_loadModel (d : Dispatcher) (session : String) :
    loadCount b k
      (d.backends.entries.flatMap fun entry => loadEffects db entry.1 entry.2.info session) =
      addCount b k (d.backends.entries.flatMap fun entry =>
        loadEffects db entry.1 entry.2.info session) := by
  induction d.backends.entries with
  | nil => rfl
  | cons entry entries ih => simp [ih, loadCount_loadEffects]

end Counting

namespace System

variable (db : ModelDatabase)

open Dispatcher

/-- Every load a pair of backend and session is owed is made once, counting the
calls made so far and the visits that the registrations in flight still owe. -/
structure LoadsAccounted (s : System) : Prop where
  /-- `AddInstanceInfo` and `LoadModel` go together. -/
  paired : ∀ b k, loadCount b k s.dispatcher.effects = addCount b k s.dispatcher.effects
  /-- Nothing is made or owed for a backend or a session that is not registered. -/
  unregistered : ∀ b k, s.dispatcher.infoOf b = none ∨ k ∉ s.dispatcher.sessions →
    addCount b k s.dispatcher.effects = 0 ∧ owedLoads b k s.pending = 0
  /-- With a profile, a load is made or owed once. -/
  withProfile : ∀ {b k info}, s.dispatcher.infoOf b = some info → k ∈ s.dispatcher.sessions →
    (db.profileOn info k).isSome → addCount b k s.dispatcher.effects + owedLoads b k s.pending = 1
  /-- Without one, none is made. -/
  withoutProfile : ∀ {b k info}, s.dispatcher.infoOf b = some info → db.profileOn info k = none →
    addCount b k s.dispatcher.effects = 0

/-- A step that makes no load and adds no node or session keeps the count. -/
theorem LoadsAccounted.quiet {s s' : System} (hla : LoadsAccounted db s)
    (hinfo : s'.dispatcher.infoOf = s.dispatcher.infoOf)
    (hsessions : ∀ k, k ∈ s'.dispatcher.sessions ↔ k ∈ s.dispatcher.sessions)
    (hadd : ∀ b k, addCount b k s'.dispatcher.effects = addCount b k s.dispatcher.effects)
    (hload : ∀ b k, loadCount b k s'.dispatcher.effects = loadCount b k s.dispatcher.effects)
    (howed : ∀ b k, owedLoads b k s'.pending = owedLoads b k s.pending) :
    LoadsAccounted db s' where
  paired b k := by rw [hadd, hload, hla.paired]
  unregistered b k h := by
    rw [hadd, howed]; exact hla.unregistered b k (by rwa [hinfo, hsessions] at h)
  withProfile hb hk hp := by
    rw [hadd, howed]; exact hla.withProfile (hinfo ▸ hb) ((hsessions _).mp hk) hp
  withoutProfile hb hp := by rw [hadd]; exact hla.withoutProfile (hinfo ▸ hb) hp

/-- A section that keeps the nodes and only adds calls that are not loads. -/
theorem LoadsAccounted.sameNodes {s s' : System} (hla : LoadsAccounted db s)
    (hsame : SameNodes s.dispatcher s'.dispatcher) (extra : List Effect)
    (he : s'.dispatcher.effects = s.dispatcher.effects ++ extra)
    (hextra : ∀ b k, addCount b k extra = 0 ∧ loadCount b k extra = 0)
    (howed : ∀ b k, owedLoads b k s'.pending = owedLoads b k s.pending) :
    LoadsAccounted db s' :=
  hla.quiet db hsame.infoOf (fun _ => hsame.mem_sessions) (fun b k => by simp [he, hextra b k])
    (fun b k => by simp [he, hextra b k]) howed

theorem LoadsAccounted.registerBackend {s : System} (hla : LoadsAccounted db s)
    {info : BackendInfo} (hnew : info.nodeId ∉ s.dispatcher.backends) :
    LoadsAccounted db ⟨{ s.dispatcher with
        backends := s.dispatcher.backends.insert info.nodeId ⟨info, ∅⟩ },
      s.pending ++ [.backendLoading info s.dispatcher.sessions.keyList]⟩ := by
  have hfresh : s.dispatcher.infoOf info.nodeId = none := by
    simpa [← infoOf_isSome] using hnew
  have hkeys : ∀ k,
    s.dispatcher.sessions.keyList.count k = if k ∈ s.dispatcher.sessions then 1 else 0 := by
    intro k
    split
    · exact List.count_eq_one_of_mem s.dispatcher.sessions.nodupKeys (by simpa)
    · exact List.count_eq_zero_of_not_mem (by simpa)
  have howed : ∀ b k,
    owedLoads b k (s.pending ++ [.backendLoading info s.dispatcher.sessions.keyList]) =
      owedLoads b k s.pending + if info.nodeId = b ∧ k ∈ s.dispatcher.sessions then 1 else 0 := by
    intro b k
    rw [owedLoads_append]
    congr 1
    by_cases hb : info.nodeId = b <;> simp [owedLoads, owedBy, hkeys, hb]
  refine ⟨hla.paired, fun b k h => ?_, fun {b k _} hb hk hp => ?_, fun {b k _} hb hp => ?_⟩
  · rw [howed]
    rw [infoOf_insert] at h
    by_cases hbi : b = info.nodeId
    · subst hbi
      have hk : k ∉ s.dispatcher.sessions := by simpa using h
      simpa [hk] using hla.unregistered _ k (.inr hk)
    · have hold := hla.unregistered b k (by simpa [hbi] using h)
      simp [hold, Ne.symm hbi]
  · rw [howed]
    rw [infoOf_insert] at hb
    by_cases hbi : b = info.nodeId
    · subst hbi
      simp [hla.unregistered _ k (.inl hfresh), hk]
    · rw [if_neg hbi] at hb
      simp [hla.withProfile hb hk hp, Ne.symm hbi]
  · rw [infoOf_insert] at hb
    by_cases hbi : b = info.nodeId
    · subst hbi; exact (hla.unregistered _ k (.inl hfresh)).1
    · rw [if_neg hbi] at hb; exact hla.withoutProfile hb hp

theorem LoadsAccounted.loadModel {s : System} (hla : LoadsAccounted db s) {session : String}
    {d' : Dispatcher} (hnew : session ∉ s.dispatcher.sessions)
    (hinfo : d'.infoOf = s.dispatcher.infoOf)
    (hsessions : ∀ k,
      d'.sessionOf k = if k = session then some session else s.dispatcher.sessionOf k)
    (he : d'.effects = s.dispatcher.effects ++ s.dispatcher.backends.entries.flatMap fun entry =>
      loadEffects db entry.1 entry.2.info session) :
    LoadsAccounted db ⟨d', s.pending⟩ := by
  have hmem : ∀ k, k ∈ d'.sessions ↔ k = session ∨ k ∈ s.dispatcher.sessions := by
    intro k
    rw [← sessionOf_isSome, ← sessionOf_isSome, hsessions]
    split <;> simp_all
  refine ⟨fun b k => ?_, fun b k h => ?_, fun {b k info} hb hk hp => ?_, fun {b k info} hb hp => ?_⟩
  · dsimp only
    rw [he, loadCount_append, addCount_append, loadCount_loadModel, hla.paired]
  · dsimp only at h ⊢
    rw [hinfo, hmem] at h
    rw [he, addCount_append, addCount_loadModel]
    rcases h with h | h
    · obtain ⟨hadd, howed⟩ := hla.unregistered b k (.inl h)
      simp [h, hadd, howed]
    · push_neg at h
      obtain ⟨hadd, howed⟩ := hla.unregistered b k (.inr h.2)
      simp only [Ne.symm h.1, false_and, if_false, hadd, howed, zero_add, and_true]
      cases s.dispatcher.infoOf b <;> rfl
  · dsimp only at hb hk ⊢
    rw [hinfo] at hb
    rw [he, addCount_append, addCount_loadModel, hb]
    rcases (hmem k).mp hk with rfl | hk
    · obtain ⟨hadd, howed⟩ := hla.unregistered b k (.inr hnew)
      simp [hp, hadd, howed]
    · have hne : session ≠ k := fun h => hnew (h ▸ hk)
      simpa [hne] using hla.withProfile hb hk hp
  · dsimp only at hb ⊢
    rw [hinfo] at hb
    rw [he, addCount_append, addCount_loadModel, hb, hla.withoutProfile hb hp]
    simp only [Option.map_some', Option.getD_some, zero_add, ite_eq_right_iff, one_ne_zero,
      imp_false, not_and]
    rintro rfl
    simp [hp]

/-- One visit of a backend registration's loading loop makes the load it owed when
the backend's GPU has a profile for the session, and nothing otherwise. -/
theorem LoadsAccounted.loadStep {s : System} (hwf : WellFormed s) (hla : LoadsAccounted db s)
    {info : BackendInfo} {sessionKey : String} {sessions : List String}
    (hmem : .backendLoading info (sessionKey :: sessions) ∈ s.pending) :
    LoadsAccounted db ⟨s.dispatcher.loadFromSnapshot db info sessionKey,
      s.pending.erase (.backendLoading info (sessionKey :: sessions)) ++
        [.backendLoading info sessions]⟩ := by
  obtain ⟨hinfo, hkeys⟩ := hwf.pendingOk _ hmem
  obtain ⟨ctx, hctx⟩ := Option.isSome_iff_exists.mp
    (AList.lookup_isSome.mpr (hkeys sessionKey (List.mem_cons_self _ _)))
  have hname : ctx.modelSession = sessionKey := hwf.sessionKeys (by simp [sessionOf, hctx])
  obtain ⟨hsame, he⟩ := loadFromSnapshot_spec db s.dispatcher info sessionKey
  simp only [hctx, hname] at he
  -- the visit pays off exactly the pair it is owed for
  have howed : ∀ b k,
    owedLoads b k (s.pending.erase (.backendLoading info (sessionKey :: sessions)) ++
      [.backendLoading info sessions]) + (if info.nodeId = b ∧ sessionKey = k then 1 else 0) =
      owedLoads b k s.pending := by
    intro b k
    rw [← owedLoads_erase hmem, owedLoads_append, add_assoc]
    by_cases hb : info.nodeId = b <;> by_cases hk : sessionKey = k <;>
      simp [owedLoads, owedBy, List.count_cons, hb, hk]
  have hsession : ∀ {b i}, s.dispatcher.infoOf b = some i → info.nodeId = b → i = info :=
    fun hb hbi => Option.some.inj (hb.symm.trans (hbi ▸ hinfo))
  refine ⟨fun b k => ?_, fun b k h => ?_, fun {b k i} hb hk hp => ?_, fun {b k i} hb hp => ?_⟩
  all_goals simp only [he, addCount_append, loadCount_append, loadCount_loadEffects,
    addCount_loadEffects]
  · rw [hla.paired]
  · rw [hsame.infoOf, hsame.mem_sessions] at h
    obtain ⟨hadd, hzero⟩ := hla.unregistered b k h
    have hrest := howed b k
    have hpair : ¬(info.nodeId = b ∧ sessionKey = k) := by
      intro hpair; rw [if_pos hpair] at hrest; omega
    rw [if_neg hpair] at hrest
    rw [if_neg fun h => hpair ⟨h.1, h.2.1⟩]
    omega
  · rw [hsame.infoOf] at hb
    have hold := hla.withProfile hb (hsame.mem_sessions.mp hk) hp
    have hrest := howed b k
    by_cases hpair : info.nodeId = b ∧ sessionKey = k
    · obtain ⟨rfl, rfl⟩ := hpair
      cases hsession hb rfl
      rw [if_pos ⟨rfl, rfl⟩] at hrest
      rw [if_pos ⟨rfl, rfl, hp⟩]
      omega
    · rw [if_neg hpair] at hrest
      rw [if_neg fun h => hpair ⟨h.1, h.2.1⟩]
      omega
  · rw [hsame.infoOf] at hb
    rw [hla.withoutProfile hb hp, if_neg]
    rintro ⟨rfl, rfl, hsome⟩
    cases hsession hb rfl
    simp [hp] at hsome

theorem LoadsAccounted.resume {s : System} (hwf : WellFormed s) (hla : LoadsAccounted db s)
    {call : Pending} {now dispatchNs : Nat} {d' : Dispatcher} {next : Option Pending}
    (hmem : call ∈ s.pending)
      (h : resumeCall db now dispatchNs s.dispatcher call = some (d', next)) :
    LoadsAccounted db ⟨d', s.pending.erase call ++ next.toList⟩ := by
  have hsame := resumeCall_sameNodes db h
  have howed : ∀ b k, owedLoads b k (s.pending.erase call ++ next.toList) + owedBy b k call =
      owedLoads b k s.pending + owedLoads b k next.toList := by
    intro b k; rw [owedLoads_append, add_right_comm, owedLoads_erase hmem]
  have hquiet : ∀ extra, d'.effects = s.dispatcher.effects ++ extra →
      (∀ b k, addCount b k extra = 0 ∧ loadCount b k extra = 0) →
      (∀ b k, owedLoads b k next.toList = owedBy b k call) →
      LoadsAccounted db ⟨d', s.pending.erase call ++ next.toList⟩ :=
    fun extra he hextra hnext => hla.sameNodes db hsame extra he hextra
      (fun b k => by have := howed b k; rw [hnext] at this; simpa using this)
  cases call with
  | frontendListing f => cases h; exact hquiet [] (by simp) (fun _ _ => ⟨rfl, rfl⟩) (fun _ _ => rfl)
  | frontendNotify f infos => cases h; exact hquiet _ rfl (by simp) (fun _ _ => rfl)
  | backendNotify info frontends =>
    cases frontends with
    | nil => cases h; exact hquiet [] (by simp) (fun _ _ => ⟨rfl, rfl⟩) (fun _ _ => rfl)
    | cons frontend frontends => cases h; exact hquiet _ rfl (by simp) (fun _ _ => rfl)
  | dispatchSend backendId query =>
    simp only [resumeCall] at h
    split at h
    · cases h
    · split at h
      · cases h
      · cases h
        obtain ⟨-, plan, he⟩ := dispatchSend_ok db ‹_›
        exact hquiet _ he (by simp [addCount, loadCount, Effect.isLoadModelCommand])
          (fun _ _ => rfl)
  | backendLoading info sessions =>
    cases sessions with
    | nil =>
      cases h
      exact hquiet [] (by simp) (fun _ _ => ⟨rfl, rfl⟩) (fun _ _ => by simp [owedLoads, owedBy])
    | cons sessionKey sessions =>
      cases h
      exact hla.loadStep db hwf hmem

theorem Transition.loadsAccounted {s s' : System} (h : Transition db s s') (hwf : WellFormed s)
    (hla : LoadsAccounted db s) : LoadsAccounted db s' := by
  cases h with
  | stutter => exact hla
  | registerFrontend frontend hnew =>
    exact hla.quiet db rfl (fun _ => .rfl) (fun _ _ => rfl) (fun _ _ => rfl)
      (fun _ _ => by simp [owedLoads, owedBy])
  | registerBackend info hnew => exact hla.registerBackend db hnew
  | loadModel session hload =>
    rcases handleLoadModel_ok db hload with rfl | ⟨hnew, -, hinfo, hsessions, he⟩
    · exact hla
    · exact hla.loadModel db hnew hinfo hsessions he
  | updateModelRoutes routes =>
    obtain ⟨hsame, he⟩ := updateModelRoutes_sameNodes routes s.dispatcher
    exact hla.sameNodes db hsame [] (by simpa using he) (fun _ _ => ⟨rfl, rfl⟩) (fun _ _ => rfl)
  | @dispatch query status backend d' hlocked =>
    obtain ⟨hsame, he⟩ := dispatchLocked_ok hlocked
    have hcount : SameNodes s.dispatcher
        { s.dispatcher with nextGlobalId := s.dispatcher.nextGlobalId + 1 } :=
      sameNodes_of_eq rfl rfl rfl
    exact hla.sameNodes db (hcount.trans hsame) [] (by simpa using he) (fun _ _ => ⟨rfl, rfl⟩)
      (fun _ _ => by cases backend <;> simp [owedLoads, owedBy])
  | resume call hmem hres => exact hla.resume db hwf hmem hres

theorem reachable_loadsAccounted {s : System} (h : Reachable db s) : LoadsAccounted db s := by
  induction h with
  | init =>
    refine ⟨fun _ _ => rfl, fun _ _ _ => ⟨rfl, rfl⟩, fun hb => ?_, fun hb => ?_⟩ <;>
      simp [infoOf, init, Dispatcher.init] at hb
  | step hs hstep ih =>
    exact (step_transition db hstep).loadsAccounted db (reachable_wellFormed db hs) ih

/-- Once all calls have returned, each registered backend has had one
`AddInstanceInfo` and been sent one `LoadModel` for each loaded session that its
GPU has a profile for, and none for the other loaded sessions. -/
theorem loading_exactly_once {s : System} (hs : Reachable db s) (hdone : s.pending = [])
    {b : Nat} {info : BackendInfo} (hb : s.dispatcher.infoOf b = some info)
    {session : String} (hsession : session ∈ s.dispatcher.sessions) :
    addCount b session s.dispatcher.effects =
        (if (db.profileOn info session).isSome then 1 else 0) ∧
      loadCount b session s.dispatcher.effects =
        (if (db.profileOn info session).isSome then 1 else 0) := by
  have hla := reachable_loadsAccounted db hs
  have hadd : addCount b session s.dispatcher.effects =
      if (db.profileOn info session).isSome then 1 else 0 := by
    cases hp : db.profileOn info session with
    | none => simpa using hla.withoutProfile hb hp
    | some profile =>
      simpa [hdone, owedLoads] using hla.withProfile hb hsession (by simp [hp])
  exact ⟨hadd, (hla.paired b session).trans hadd⟩

/-- A database with a profile for every session on GPU `"gpu-a"` only. -/
def oneProfile : ModelDatabase :=
  ⟨fun _ => true,
    fun device _ _ => if device = "gpu-a" then some ⟨fun _ => 1, fun _ => 4⟩ else none,
    fun _ => 100⟩

/-- Backend 1 registers; session `"m"` is loaded while its registration is in flight;
backend 2, whose GPU has no profile, registers and walks its copy holding `"m"`. -/
def loadDuringRegistration : List Action :=
  let gpuA : BackendInfo := ⟨1, "gpu-a", "uuid-a"⟩
  let gpuB : BackendInfo := ⟨2, "gpu-b", "uuid-b"⟩
  [.registerBackend gpuA, .loadModel "m", .registerBackend gpuB,
    .resume (.backendLoading gpuA []) 0 0, .resume (.backendNotify gpuA []) 0 0,
    .resume (.backendLoading gpuB ["m"]) 0 0, .resume (.backendLoading gpuB []) 0 0,
    .resume (.backendNotify gpuB []) 0 0]

/-- Where `loadDuringRegistration` ends. -/
def loadedAfterRegistration : System := (run oneProfile init loadDuringRegistration).getD init

theorem loading_exactly_once_during_registration :
    loadedAfterRegistration.pending = [] ∧
      loadedAfterRegistration.dispatcher.infoOf 1 = some ⟨1, "gpu-a", "uuid-a"⟩ ∧
      "m" ∈ loadedAfterRegistration.dispatcher.sessions ∧
      addCount 1 "m" loadedAfterRegistration.dispatcher.effects = 1 ∧
      loadCount 1 "m" loadedAfterRegistration.dispatcher.effects = 1 := by
  have hs : Reachable oneProfile loadedAfterRegistration :=
    reachable_getD_run oneProfile (by decide)
  have hdone : loadedAfterRegistration.pending = [] := by decide
  have hinfo : loadedAfterRegistration.dispatcher.infoOf 1 = some ⟨1, "gpu-a", "uuid-a"⟩ := by
    decide
  have hm : "m" ∈ loadedAfterRegistration.dispatcher.sessions := by decide
  exact ⟨hdone, hinfo, hm, by
    simpa [oneProfile,
      ModelDatabase.profileOn] using loading_exactly_once oneProfile hs hdone hinfo hm⟩

end System

end NexusLb.Dispatch
