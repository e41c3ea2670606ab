import NexusLb.Dispatcher.Core

/-!
# What one step of the dispatcher can change

Every step of `System` is one of the `Transition`s: a registration that adds one
node, a `HandleLoadModel` that adds one session, a section that only touches routes,
counters or calls, or a call in flight moving on.  The facts that every dispatcher
invariant relies on are stated here once: the sections other than the two
registrations and `HandleLoadModel` keep the nodes and sessions (`SameNodes`), no
step removes a node, a session or a call made (`Grows`), and the keys of the tables
agree with what they hold (`WellFormed`).
-/

namespace NexusLb.Dispatch

namespace Dispatcher

variable (db : ModelDatabase)

/-- The identity of the delegate registered under node id `b`. -/
def infoOf (d : Dispatcher) (b : Nat) : Option BackendInfo :=
  (d.backends.lookup b).map BackendDelegate.info

/-- The model session of the context stored under `key`. -/
def sessionOf (d : Dispatcher) (key : String) : Option String :=
  (d.sessions.lookup key).map ModelSessionContext.modelSession

theorem infoOf_isSome {d : Dispatcher} {b : Nat} : (d.infoOf b).isSome ↔ b ∈ d.backends := by
  simp [infoOf, AList.lookup_isSome]

theorem sessionOf_isSome {d : Dispatcher} {k : String} :
    (d.sessionOf k).isSome ↔ k ∈ d.sessions := by
  simp [sessionOf, AList.lookup_isSome]

/-- Two dispatchers with the same frontends, backend identities and sessions: what
differs lies in the instance tables, the routes, the counters or the calls made. -/
structure SameNodes (d d' : Dispatcher) : Prop where
  frontends : d'.frontends = d.frontends
  infoOf : d'.infoOf = d.infoOf
  sessionOf : d'.sessionOf = d.sessionOf

theorem SameNodes.refl (d : Dispatcher) : SameNodes d d := ⟨rfl, rfl, rfl⟩

theorem SameNodes.trans {d d' d'' : Dispatcher} (h : SameNodes d d') (h' : SameNodes d' d'') :
    SameNodes d d'' :=
  ⟨h'.frontends.trans h.frontends, h'.infoOf.trans h.infoOf, h'.sessionOf.trans h.sessionOf⟩

theorem SameNodes.mem_sessions {d d' : Dispatcher} (h : SameNodes d d') {k : String} :
    k ∈ d'.sessions ↔ k ∈ d.sessions := by
  rw [← sessionOf_isSome, ← sessionOf_isSome, h.sessionOf]

/-- A section that only touches the routes and the counters. -/
theorem sameNodes_of_eq {d d' : Dispatcher} (hf : d'.frontends = d.frontends)
    (hb : d'.backends = d.backends) (hs : d'.sessions = d.sessions) : SameNodes d d' :=
  ⟨hf, by unfold infoOf; rw [hb], by unfold sessionOf; rw [hs]⟩

/-- What a backend registration adds to the identities. -/
theorem infoOf_insert (d : Dispatcher) (info : BackendInfo) (b : Nat) :
    infoOf { d with backends := d.backends.insert info.nodeId ⟨info, ∅⟩ } b =
      if b = info.nodeId then some info else d.infoOf b := by
  unfold infoOf
  split
  · subst b; simp
  · rw [AList.lookup_insert_ne ‹_›]

/-! ## The loading loops -/

/-- The calls that loading `session` on the backend of node `backendId` makes: none
without a profile, `AddInstanceInfo` then `LoadModel` with one. -/
def loadEffects (backendId : Nat) (info : BackendInfo) (session : String) : List Effect :=
  match db.profileOn info session with
  | none => []
  | some profile =>
    [.addInstanceInfo backendId session,
      .loadModelCommand backendId session
        (InstanceInfo.make db session info.nodeId profile).maxBatch]

/-- Loading a session keeps the nodes and makes the calls of `loadEffects`. -/
theorem loadSession_getD (d : Dispatcher) (backendId : Nat) (info : BackendInfo)
    (sessionKey session : String) :
    SameNodes d ((d.loadSession db backendId info sessionKey session).getD d) ∧
      ((d.loadSession db backendId info sessionKey session).getD d).effects =
        d.effects ++ loadEffects db backendId info session := by
  unfold loadSession loadEffects
  cases db.profileOn info session with
  | none => exact ⟨SameNodes.refl d, by simp⟩
  | some profile =>
    refine ⟨⟨rfl, ?_, ?_⟩, rfl⟩
    · funext b
      simp only [infoOf, Option.map_some', Option.getD_some, Table.lookup_modify]
      split <;> simp [Option.map_map, Function.comp_def, BackendDelegate.addInstanceInfo]
    · funext k
      simp only [sessionOf, Option.map_some', Option.getD_some, Table.lookup_modify]
      split <;> simp [Option.map_map, Function.comp_def, ModelSessionContext.addInstanceInfo]

theorem loadFromSnapshot_spec (d : Dispatcher) (info : BackendInfo) (sessionKey : String) :
    SameNodes d (d.loadFromSnapshot db info sessionKey) ∧
      (d.loadFromSnapshot db info sessionKey).effects =
        d.effects ++ match d.sessions.lookup sessionKey with
          | none => []
          | some ctx => loadEffects db info.nodeId info ctx.modelSession := by
  unfold loadFromSnapshot
  cases d.sessions.lookup sessionKey with
  | none => exact ⟨SameNodes.refl d, by simp⟩
  | some ctx => exact loadSession_getD db d _ _ _ _

theorem foldl_loadOnBackend (session : String) (entries : List (Σ _ : Nat, BackendDelegate))
    (acc : CtrlStatus × Dispatcher) :
    SameNodes acc.2 (entries.foldl (loadOnBackend db session) acc).2 ∧
      (entries.foldl (loadOnBackend db session) acc).2.effects =
        acc.2.effects ++ entries.flatMap fun entry =>
          loadEffects db entry.1 entry.2.info session := by
  induction entries generalizing acc with
  | nil => exact ⟨SameNodes.refl _, by simp⟩
  | cons entry entries ih =>
    have hstep : (loadOnBackend db session acc entry).2 =
        (acc.2.loadSession db entry.1 entry.2.info session session).getD acc.2 := by
      unfold loadOnBackend; split <;> simp_all
    obtain ⟨hsame, heffects⟩ := loadSession_getD db acc.2 entry.1 entry.2.info session session
    obtain ⟨hsame', heffects'⟩ := ih (loadOnBackend db session acc entry)
    rw [hstep] at hsame' heffects'
    exact ⟨hsame.trans hsame', by simp [heffects', heffects]⟩

/-- What a successful `HandleLoadModel` does: nothing, or it adds the new session
and loads it on every backend whose GPU has a profile for it. -/
theorem handleLoadModel_ok {session : String} {d d' : Dispatcher} {status : CtrlStatus}
    (h : d.handleLoadModel db session = .ok (status, d')) :
    d' = d ∨
      (session ∉ d.sessions ∧ d'.frontends = d.frontends ∧ d'.infoOf = d.infoOf ∧
        (∀ k, d'.sessionOf k = if k = session then some session else d.sessionOf k) ∧
        d'.effects = d.effects ++ d.backends.entries.flatMap fun entry =>
          loadEffects db entry.1 entry.2.info session) := by
  unfold handleLoadModel at h
  split at h
  · cases h; exact .inl rfl
  split at h
  · cases h; exact .inl rfl
  split at h
  · cases h
  rename_i hsession _
  have hd := congrArg Prod.snd (Except.ok.inj h)
  subst hd
  obtain ⟨hsame, heffects⟩ := foldl_loadOnBackend db session _ (CtrlStatus.ctrlOk,
    { d with
      models := d.models.insert session (freshRoute.update (d.loadModelRoute session))
      sessions := d.sessions.insert session ⟨session, ∅⟩ })
  refine .inr ⟨hsession, hsame.frontends, hsame.infoOf, fun k => ?_, heffects⟩
  rw [hsame.sessionOf]
  unfold sessionOf
  split
  · subst k; simp
  · rw [AList.lookup_insert_ne ‹_›]

/-! ## The other sections -/

theorem updateModelRoutes_sameNodes (routes : List ModelRouteProto) (d : Dispatcher) :
    SameNodes d (d.updateModelRoutes routes) ∧ (d.updateModelRoutes routes).effects = d.effects :=
      by
  unfold updateModelRoutes
  induction routes generalizing d with
  | nil => exact ⟨SameNodes.refl d, rfl⟩
  | cons route routes ih =>
    have hfirst : SameNodes d (d.updateModelRoute route) := sameNodes_of_eq rfl rfl rfl
    obtain ⟨hsame, heffects⟩ := ih (d.updateModelRoute route)
    exact ⟨hfirst.trans hsame, heffects⟩

theorem dispatchLocked_ok {query : Query} {d d' : Dispatcher} {status : CtrlStatus}
    {backend : Option Nat} (h : dispatchLocked query d = .ok (status, backend, d')) :
    SameNodes d d' ∧ d'.effects = d.effects := by
  unfold dispatchLocked at h
  split at h
  · cases h; exact ⟨SameNodes.refl d, rfl⟩
  · split at h
    · cases h
    · cases h; exact ⟨sameNodes_of_eq rfl rfl rfl, rfl⟩

theorem dispatchSend_ok {backend : BackendDelegate} {query : Query} {now dispatchNs : Nat}
    {d d' : Dispatcher} (h : d.dispatchSend db backend query now dispatchNs = .ok d') :
    SameNodes d d' ∧ ∃ plan,
      d'.effects = d.effects ++ [.enqueueBatchPlan backend.info.nodeId plan] := by
  unfold dispatchSend at h
  split at h
  · cases h
  · cases h; exact ⟨sameNodes_of_eq rfl rfl rfl, _, rfl⟩

/-- No step removes a frontend, a backend, its identity or a session, and the calls
made only grow. -/
structure Grows (d d' : Dispatcher) : Prop where
  frontends : ∀ {f}, f ∈ d.frontends → f ∈ d'.frontends
  infoOf : ∀ {b info}, d.infoOf b = some info → d'.infoOf b = some info
  sessionOf : ∀ {k session}, d.sessionOf k = some session → d'.sessionOf k = some session
  effects : d.effects <+: d'.effects

theorem SameNodes.grows {d d' : Dispatcher} (h : SameNodes d d') (he : d.effects <+: d'.effects) :
    Grows d d' :=
  ⟨fun hf => h.frontends ▸ hf, fun hb => h.infoOf ▸ hb, fun hk => h.sessionOf ▸ hk, he⟩

end Dispatcher

/-! ## Steps -/

namespace System

variable (db : ModelDatabase)

open Dispatcher

/-- Everything a step can be, with the guards it passed. -/
inductive Transition (s : System) : System → Prop
  /-- A registration refused for a node id conflict. -/
  | stutter : Transition s s
  | registerFrontend (frontend : Nat) (hnew : frontend ∉ s.dispatcher.frontends) :
      Transition s ⟨{ s.dispatcher with frontends := s.dispatcher.frontends.insert frontend () },
        s.pending ++ [.frontendListing frontend]⟩
  | registerBackend (info : BackendInfo) (hnew : info.nodeId ∉ s.dispatcher.backends) :
      Transition s ⟨{ s.dispatcher with
          backends := s.dispatcher.backends.insert info.nodeId ⟨info, ∅⟩ },
        s.pending ++ [.backendLoading info s.dispatcher.sessions.keyList]⟩
  | loadModel (session : String) {status : CtrlStatus} {d' : Dispatcher}
      (h : s.dispatcher.handleLoadModel db session = .ok (status, d')) :
      Transition s ⟨d', s.pending⟩
  | updateModelRoutes (routes : List ModelRouteProto) :
      Transition s ⟨s.dispatcher.updateModelRoutes routes, s.pending⟩
  | dispatch (query : Query) {status : CtrlStatus} {backend : Option Nat} {d' : Dispatcher}
      (h : dispatchLocked query { s.dispatcher with
        nextGlobalId := s.dispatcher.nextGlobalId + 1 } =
        .ok (status, backend, d')) :
      Transition s ⟨d', s.pending ++ (backend.map fun b => .dispatchSend b query).toList⟩
  | resume (call : Pending) {now dispatchNs : Nat} {d' : Dispatcher} {next : Option Pending}
      (hmem : call ∈ s.pending)
      (h : resumeCall db now dispatchNs s.dispatcher call = some (d', next)) :
      Transition s ⟨d', s.pending.erase call ++ next.toList⟩

theorem step_transition {s s' : System} {action : Action} (h : step db s action = some s') :
    Transition db s s' := by
  cases action with
  | registerFrontend frontend =>
    by_cases hf : frontend ∈ s.dispatcher.frontends
    · simp [step, registerFrontend, hf] at h; subst h; exact .stutter
    · simp [step, registerFrontend, hf] at h; subst h; exact .registerFrontend frontend hf
  | registerBackend info =>
    by_cases hb : info.nodeId ∈ s.dispatcher.backends
    · simp [step, registerBackend, hb] at h; subst h; exact .stutter
    · simp [step, registerBackend, hb] at h; subst h; exact .registerBackend info hb
  | loadModel session =>
    simp only [step] at h
    split at h
    · cases h
    · cases h; exact .loadModel session ‹_›
  | updateModelRoutes routes => cases h; exact .updateModelRoutes routes
  | dispatchRequest query schedNs =>
    simp only [step] at h
    split at h
    · cases h
    · cases h; exact .dispatch _ ‹_›
  | resume call now dispatchNs =>
    simp only [step] at h
    split at h
    · obtain ⟨⟨d', next⟩, hres, rfl⟩ := Option.map_eq_some'.mp h
      exact .resume call ‹_› hres
    · cases h

/-- A call in flight moving on keeps the nodes and sessions. -/
theorem resumeCall_sameNodes {now dispatchNs : Nat} {d d' : Dispatcher} {call : Pending}
    {next : Option Pending} (h : resumeCall db now dispatchNs d call = some (d', next)) :
    SameNodes d d' := by
  cases call with
  | frontendListing frontend => cases h; exact SameNodes.refl d
  | frontendNotify frontend backends => cases h; exact sameNodes_of_eq rfl rfl rfl
  | backendLoading info sessions =>
    cases sessions with
    | nil => cases h; exact SameNodes.refl d
    | cons sessionKey sessions => cases h; exact (loadFromSnapshot_spec db d info sessionKey).1
  | backendNotify info frontends =>
    cases frontends with
    | nil => cases h; exact SameNodes.refl d
    | cons frontend frontends => cases h; exact sameNodes_of_eq rfl rfl rfl
  | dispatchSend backendId query =>
    simp only [resumeCall] at h
    split at h
    · cases h
    · split at h
      · cases h
      · cases h; exact (dispatchSend_ok db ‹_›).1

theorem resumeCall_effects {now dispatchNs : Nat} {d d' : Dispatcher} {call : Pending}
    {next : Option Pending} (h : resumeCall db now dispatchNs d call = some (d', next)) :
    d.effects <+: d'.effects := by
  cases call with
  | frontendListing frontend => cases h; exact List.prefix_refl _
  | frontendNotify frontend backends => cases h; exact List.prefix_append _ _
  | backendLoading info sessions =>
    cases sessions with
    | nil => cases h; exact List.prefix_refl _
    | cons sessionKey sessions =>
      cases h; rw [(loadFromSnapshot_spec db d info sessionKey).2]; exact List.prefix_append _ _
  | backendNotify info frontends =>
    cases frontends with
    | nil => cases h; exact List.prefix_refl _
    | cons frontend frontends => cases h; exact List.prefix_append _ _
  | dispatchSend backendId query =>
    simp only [resumeCall] at h
    split at h
    · cases h
    · split at h
      · cases h
      · cases h
        obtain ⟨_, plan, heffects⟩ := dispatchSend_ok db ‹_›
        rw [heffects]; exact List.prefix_append _ _

theorem Transition.grows {s s' : System} (h : Transition db s s') :
    Grows s.dispatcher s'.dispatcher := by
  cases h with
  | stutter => exact (SameNodes.refl _).grows (List.prefix_refl _)
  | registerFrontend frontend hnew =>
    refine ⟨fun hf => (AList.mem_insert _).mpr (.inr hf), id, id, List.prefix_refl _⟩
  | registerBackend info hnew =>
    refine ⟨id, fun {b _} hb => ?_, id, List.prefix_refl _⟩
    have hne : b ≠ info.nodeId := by
      rintro rfl; exact hnew (infoOf_isSome.mp (by simp [hb]))
    rwa [infoOf_insert, if_neg hne]
  | loadModel session h =>
    rcases handleLoadModel_ok db h with rfl | ⟨hnew, hf, hi, hk, he⟩
    · exact (SameNodes.refl _).grows (List.prefix_refl _)
    · refine ⟨fun hf' => hf ▸ hf', fun hb => hi ▸ hb, fun {k _} hs => ?_,
        he ▸ List.prefix_append _ _⟩
      rw [hk k, if_neg]
      · exact hs
      · rintro rfl; exact hnew (sessionOf_isSome.mp (by simp [hs]))
  | updateModelRoutes routes =>
    obtain ⟨hsame, he⟩ := updateModelRoutes_sameNodes routes s.dispatcher
    exact hsame.grows (he ▸ List.prefix_refl _)
  | dispatch query h =>
    obtain ⟨hsame, he⟩ := dispatchLocked_ok h
    have hcount : SameNodes s.dispatcher
        { s.dispatcher with nextGlobalId := s.dispatcher.nextGlobalId + 1 } :=
      sameNodes_of_eq rfl rfl rfl
    exact (hcount.trans hsame).grows ⟨[], by simp [he]⟩
  | resume call hmem h =>
    exact (resumeCall_sameNodes db h).grows (resumeCall_effects db h)

/-! ## Well-formedness -/

/-- What a call in flight relies on: a backend registration holds the identity
stored for its node, and the sessions it has still to visit are in the table. -/
def PendingOk (d : Dispatcher) : Pending → Prop
  | .backendLoading info sessions =>
    d.infoOf info.nodeId = some info ∧ ∀ k ∈ sessions, k ∈ d.sessions
  | .backendNotify info _ => d.infoOf info.nodeId = some info
  | _ => True

theorem PendingOk.grow {d d' : Dispatcher} (hg : Grows d d') {call : Pending}
    (h : PendingOk d call) : PendingOk d' call := by
  cases call with
  | backendLoading info sessions =>
    refine ⟨hg.infoOf h.1, fun k hk => ?_⟩
    obtain ⟨session, hs⟩ := Option.isSome_iff_exists.mp (sessionOf_isSome.mpr (h.2 k hk))
    exact sessionOf_isSome.mp (by simp [hg.sessionOf hs])
  | backendNotify info frontends => exact hg.infoOf h
  | _ => trivial

/-- The keys of the tables agree with what they hold, and every call in flight can
rely on what it holds. -/
structure WellFormed (s : System) : Prop where
  backendKeys : ∀ {b info}, s.dispatcher.infoOf b = some info → info.nodeId = b
  sessionKeys : ∀ {k session}, s.dispatcher.sessionOf k = some session → session = k
  pendingOk : ∀ call ∈ s.pending, PendingOk s.dispatcher call

theorem resumeCall_next_ok {now dispatchNs : Nat} {d d' : Dispatcher} {call next : Pending}
    (h : resumeCall db now dispatchNs d call = some (d', some next)) (hok : PendingOk d call) :
    PendingOk d' next := by
  have hsame := resumeCall_sameNodes db h
  cases call with
  | frontendListing frontend => cases h; trivial
  | frontendNotify frontend backends => cases h
  | backendLoading info sessions =>
    cases sessions with
    | nil => cases h; exact hok.1
    | cons sessionKey sessions =>
      cases h
      exact ⟨(congrFun hsame.infoOf _).trans hok.1,
        fun k hk => hsame.mem_sessions.mpr (hok.2 k (.tail _ hk))⟩
  | backendNotify info frontends =>
    cases frontends with
    | nil => cases h
    | cons frontend frontends => cases h; exact (congrFun hsame.infoOf _).trans hok
  | dispatchSend backendId query =>
    simp only [resumeCall] at h
    split at h
    · cases h
    · split at h <;> cases h

theorem Transition.wellFormed {s s' : System} (h : Transition db s s') (hwf : WellFormed s) :
    WellFormed s' := by
  have hg := h.grows
  have hkeep : ∀ call ∈ s.pending, PendingOk s'.dispatcher call :=
    fun call hc => (hwf.pendingOk call hc).grow hg
  cases h with
  | stutter => exact hwf
  | registerFrontend frontend hnew =>
    refine ⟨hwf.backendKeys, hwf.sessionKeys, fun call hc => ?_⟩
    rcases List.mem_append.mp hc with hc | hc
    · exact hkeep call hc
    · rw [List.mem_singleton.mp hc]; trivial
  | registerBackend info hnew =>
    refine ⟨fun {b _} hb => ?_, hwf.sessionKeys, fun call hc => ?_⟩
    · rw [infoOf_insert] at hb
      split at hb
      · rename_i hb'
        cases hb; exact hb'.symm
      · exact hwf.backendKeys hb
    · rcases List.mem_append.mp hc with hc | hc
      · exact hkeep call hc
      · rw [List.mem_singleton.mp hc]
        exact ⟨by simp [infoOf_insert], fun k hk => by simpa using hk⟩
  | loadModel session h =>
    rcases handleLoadModel_ok db h with rfl | ⟨hnew, hf, hi, hk, he⟩
    · exact hwf
    · refine ⟨fun hb => hwf.backendKeys (hi ▸ hb), fun {k _} hs => ?_, hkeep⟩
      rw [hk k] at hs
      split at hs
      · rename_i hs'
        cases hs; exact hs'.symm
      · exact hwf.sessionKeys hs
  | updateModelRoutes routes =>
    obtain ⟨hsame, -⟩ := updateModelRoutes_sameNodes routes s.dispatcher
    exact ⟨fun hb => hwf.backendKeys (hsame.infoOf ▸ hb),
      fun hs => hwf.sessionKeys (hsame.sessionOf ▸ hs), hkeep⟩
  | @dispatch query status backend d' h =>
    obtain ⟨hsame, -⟩ := dispatchLocked_ok h
    have hsame' := (sameNodes_of_eq rfl rfl rfl).trans hsame
    refine ⟨fun hb => hwf.backendKeys (hsame'.infoOf ▸ hb),
      fun hs => hwf.sessionKeys (hsame'.sessionOf ▸ hs), fun call hc => ?_⟩
    rcases List.mem_append.mp hc with hc | hc
    · exact hkeep call hc
    · cases backend <;> simp at hc
      rw [hc]; trivial
  | @resume call now dispatchNs d' next hmem h =>
    have hsame := resumeCall_sameNodes db h
    refine ⟨fun hb => hwf.backendKeys (hsame.infoOf ▸ hb),
      fun hs => hwf.sessionKeys (hsame.sessionOf ▸ hs), fun call' hc => ?_⟩
    rcases List.mem_append.mp hc with hc | hc
    · exact hkeep call' (List.mem_of_mem_erase hc)
    · cases next with
      | none => cases hc
      | some next =>
        rw [List.mem_singleton.mp hc]
        exact resumeCall_next_ok db h (hwf.pendingOk call hmem)

theorem reachable_wellFormed {s : System} (h : Reachable db s) : WellFormed s := by
  induction h with
  | init => exact ⟨fun hb => by simp [infoOf, init, Dispatcher.init] at hb,
      fun hs => by simp [sessionOf, init, Dispatcher.init] at hs, fun _ hc => by cases hc⟩
  | step _ hstep ih => exact (step_transition db hstep).wellFormed db ih

end System

end NexusLb.Dispatch
