import NexusLb.Scheduler.Admission
import NexusLb.Scheduler.Subscriptions

/-!
# A frontend's visit leaves no trace

A frontend that registers, loads a session that is not loaded yet and unregisters goes
through `RegisterFrontend`, `LoadModel` and `UnregisterFrontend` in turn.  `LoadModel`
places the new session on backends that do not serve it, loads an instance on each and
creates the session with the frontend as its only subscriber; `RemoveFrontend` then finds
the session without subscribers, unloads it from every backend of its weights, which are
exactly the backends `LoadModel` chose, and erases it.  The backends chosen do not serve
the session when `PrepareLoadModel` refuses a session a backend serves, or when no backend
serves it, as in every reachable state (`Reachable.freshFor`); then the visit gives back
the frontends, `session_table_`, the static pins and every backend, and leaves only the
RPCs sent (`frontend_visit_leaves_no_trace`).
-/

namespace NexusLb.Sched

namespace Scheduler

variable {cfg : Config} {policy : Policy} {db : ModelDatabase}

/-! ### What `LoadModel` commits -/

/-- A backend `LoadModel` chooses for `session` does not serve it yet: the delegate refuses
a session a backend serves, or no registered backend serves `session`. -/
def FreshFor (policy : Policy) (s : Scheduler) (session : String) : Prop :=
  policy.RefusesServed ∨
    ∀ b backend, s.backends.lookup b = some backend → backend.rateOf session = none

/-- In a reachable state no backend serves a session that is not in `session_table_`: it
would record a weight there. -/
theorem Reachable.freshFor {s : Scheduler} (hs : Reachable cfg policy db s) {session : String}
    (hnew : session ∉ s.sessionTable) : FreshFor policy s session := by
  refine .inr fun b backend hb => ?_
  have hrecorded : s.recordedRate b session = none := by
    simp [recordedRate, AList.lookup_eq_none.mpr hnew]
  have hhosted := hs.serving.recorded_eq_none.mp hrecorded
  rwa [hostedRate, hb, Option.some_bind] at hhosted

theorem FreshFor.frontends {s : Scheduler} {session : String} (h : FreshFor policy s session)
    (frontends : Table Nat FrontendDelegate) :
    FreshFor policy { s with frontends := frontends } session :=
  h

/-- The placement loop chooses registered backends that do not serve the session. -/
theorem placeWorkload_fresh {s : Scheduler} {session : String} (hfree : FreshFor policy s session) :
    ∀ {fuel : Nat} {workload : ℚ} {used : List Nat} {assigned : List (Nat × InstanceInfo)},
      s.placeWorkload policy session fuel workload used = some assigned →
      ∀ p ∈ assigned, ∃ backend, s.backends.lookup p.1 = some backend ∧
        backend.rateOf session = none ∧ p.2.modelSession = session
  | 0, _, _, _, h => by cases h
  | fuel + 1, workload, used, assigned, h => by
    rw [placeWorkload] at h
    split at h
    · cases hbest : s.findBestBackend policy session workload used with
      | none => simp [hbest] at h
      | some placed =>
        simp only [hbest, Option.elim_some, Option.map_eq_map, Option.map_eq_some'] at h
        obtain ⟨rest, hrest, rfl⟩ := h
        obtain ⟨backend, hb, -, -, hrefused, hinst⟩ := findBestBackend_spec policy hbest
        intro p hp
        rcases List.mem_cons.mp hp with rfl | hp
        · exact ⟨backend, hb, hfree.elim hrefused fun h => h _ _ hb, hinst⟩
        · exact placeWorkload_fresh hfree hrest p hp
    · cases h
      simp

/-- The backends `LoadModel` assigns a new session are distinct, registered, and do not
serve the session yet. -/
theorem assignBackends_fresh {s : Scheduler} {session : String} {workload : ℚ}
    {assigned : List (Nat × InstanceInfo)} (hfree : FreshFor policy s session)
    (h : s.assignBackends policy session workload = some assigned) :
    (assigned.map Prod.fst).Nodup ∧ ∀ p ∈ assigned, ∃ backend,
      s.backends.lookup p.1 = some backend ∧ backend.rateOf session = none ∧
        p.2.modelSession = session := by
  unfold assignBackends at h
  split at h
  · obtain ⟨⟨b, inst⟩, hbest, rfl⟩ := Option.map_eq_some'.mp h
    obtain ⟨backend, hb, -, -, hrefused, hinst⟩ := findBestBackend_spec policy hbest
    exact ⟨List.nodup_singleton _,
      by simpa using ⟨backend, hb, hfree.elim hrefused fun h => h _ _ hb, hinst⟩⟩
  · exact ⟨(placeWorkload_post h).1, placeWorkload_fresh hfree h⟩

/-- `LoadModel`'s loading changes only the backends and the RPCs sent: each chosen
backend loads its instance. -/
theorem foldl_loadAssigned_spec {assigned : List (Nat × InstanceInfo)}
    (hnodup : (assigned.map Prod.fst).Nodup) :
    ∀ acc : Scheduler × Table Nat ℚ,
      let s' := (assigned.foldl (loadAssigned policy) acc).1
      s' = { acc.1 with backends := s'.backends, effects := s'.effects } ∧
        acc.1.effects <+: s'.effects ∧
        ∀ b, (b ∉ assigned.map Prod.fst → s'.backends.lookup b = acc.1.backends.lookup b) ∧
          ∀ inst, (b, inst) ∈ assigned →
            s'.backends.lookup b =
              (acc.1.backends.lookup b).map (BackendDelegate.loadModel inst) := by
  induction assigned with
  | nil => exact fun acc => ⟨rfl, List.prefix_refl _, fun b => ⟨fun _ => rfl, by simp⟩⟩
  | cons p assigned ih =>
    intro acc
    simp only [List.foldl_cons]
    obtain ⟨hp, hnodup⟩ := List.nodup_cons.mp hnodup
    obtain ⟨hsame, heffects, hlookup⟩ := ih hnodup (loadAssigned policy acc p)
    refine ⟨hsame.trans rfl, (List.prefix_append _ _).trans heffects, fun b => ⟨fun hb => ?_,
      fun inst hinst => ?_⟩⟩
    · have hbp : b ≠ p.1 := fun heq => hb (heq ▸ List.mem_cons_self _ _)
      rw [(hlookup b).1 fun hmem => hb (List.mem_cons_of_mem _ hmem)]
      exact Table.lookup_modify_ne hbp
    · rcases List.mem_cons.mp hinst with rfl | hinst
      · rw [(hlookup _).1 hp]
        exact Table.lookup_modify_self
      · have hbp : b ≠ p.1 := fun heq => hp (heq ▸ List.mem_map_of_mem Prod.fst hinst)
        rw [(hlookup b).2 inst hinst]
        exact congrArg _ (Table.lookup_modify_ne hbp)

/-! ### What `RemoveFrontend` undoes -/

/-- `RemoveFrontend`'s unloading of a removed session from the backends `bs` changes only
the backends: each of `bs` loses its instance of the session. -/
theorem foldlM_unloadFrom_spec {session : String} :
    ∀ {bs : List Nat} {acc acc' : Scheduler × List Nat}, bs.Nodup →
      bs.foldlM (unloadFrom session) acc = some acc' →
      acc'.1 = { acc.1 with backends := acc'.1.backends } ∧
        ∀ b, acc'.1.backends.lookup b =
          if b ∈ bs then (acc.1.backends.lookup b).map (BackendDelegate.unloadModel session)
          else acc.1.backends.lookup b
  | [], acc, acc', _, h => by cases h; exact ⟨rfl, fun b => by simp⟩
  | b0 :: bs, acc, acc', hnodup, h => by
    obtain ⟨acc1, hstep, hrest⟩ := Option.bind_eq_some.mp h
    obtain rfl := unloadFrom_eq_some hstep
    obtain ⟨hb0, hnodup⟩ := List.nodup_cons.mp hnodup
    obtain ⟨hsame, hlookup⟩ := foldlM_unloadFrom_spec hnodup hrest
    refine ⟨hsame.trans rfl, fun b => ?_⟩
    rw [hlookup b]
    by_cases hb : b = b0
    · subst hb
      simp [hb0]
    · simp [hb, Table.lookup_modify_ne hb]

/-- `UnregisterFrontend` of a frontend that subscribes to nothing only drops it. -/
theorem unregisterFrontend_idle {s : Scheduler} {f : Nat} (hf : s.frontends.lookup f = some ⟨[]⟩) :
    unregisterFrontend f s = some { s with frontends := s.frontends.erase f } := by
  simp [unregisterFrontend, removeFrontend, hf, updateModelTables]

/-- `UnregisterFrontend` of the only subscriber of the one session it subscribes to: the
frontend goes, the session goes, and every backend of the session's weights unloads it. -/
theorem unregisterFrontend_sole {s : Scheduler} {f : Nat} {session : String}
    {info : SessionInfo} (hf : s.frontends.lookup f = some ⟨[session]⟩)
    (hinfo : s.sessionTable.lookup session = some info) (hsub : info.subscribers = [f])
    (hregistered : ∀ b ∈ info.backendWeights, b ∈ s.backends) :
    ∃ s', unregisterFrontend f s = some s' ∧ s'.frontends = s.frontends.erase f ∧
      s'.sessionTable =
        (s.sessionTable.insert session { info with subscribers := [] }).erase session ∧
      s'.assignedStaticWorkloads = s.assignedStaticWorkloads ∧
      (∀ b, s'.backends.lookup b = if b ∈ info.backendWeights then
        (s.backends.lookup b).map (BackendDelegate.unloadModel session) else s.backends.lookup b) ∧
      s.effects <+: s'.effects := by
  let s0 : Scheduler := { s with
    frontends := s.frontends.erase f
    sessionTable := s.sessionTable.insert session { info with subscribers := [] } }
  obtain ⟨acc, hacc⟩ := Option.isSome_iff_exists.mp (foldlM_unloadFrom_isSome session (s0, [])
    fun b hb => hregistered b (Table.mem_keyList.mp hb))
  obtain ⟨hsame, hlookup⟩ :=
    foldlM_unloadFrom_spec (show info.backendWeights.keyList.Nodup from AList.nodupKeys _) hacc
  refine ⟨{ acc.1 with sessionTable := acc.1.sessionTable.erase session }.updateModelTables acc.2,
    ?_, ?_, ?_, ?_, fun b => ?_, ?_⟩
  · simp [unregisterFrontend, removeFrontend, unsubscribeSession, SessionInfo.unsubscribe, hf,
      hinfo,
      hsub, hacc, s0]
  · rw [hsame]; rfl
  · rw [hsame]; rfl
  · rw [hsame]; rfl
  · refine (hlookup b).trans ?_
    simp only [Table.mem_keyList]
  · rw [hsame]
    exact List.prefix_append _ _

/-! ### The visit -/

/-- Registering a frontend and unregistering it before it subscribes to anything gives the
scheduler back. -/
theorem unregisterFrontend_registered {s : Scheduler} {f : Nat} (hf : f ∉ s.frontends) :
    unregisterFrontend f { s with frontends := s.frontends.insert f ⟨[]⟩ } = some s := by
  rw [unregisterFrontend_idle (AList.lookup_insert _), Table.erase_insert_of_not_mem hf]

/-- `LoadModel`'s commit of a new session for a frontend that has just registered: the
session can be routed, and the frontend's `UnregisterFrontend` then gives back the
scheduler before the frontend came, up to the backends' order and the RPCs sent. -/
theorem unregisterFrontend_commitSession {s : Scheduler} {f : Nat} (hf : f ∉ s.frontends)
    {session : String} (hnew : session ∉ s.sessionTable) (hfree : FreshFor policy s session)
    {workload : ℚ}
    {assigned : List (Nat × InstanceInfo)}
    (hassigned : assignBackends policy { s with frontends := s.frontends.insert f ⟨[]⟩ } session
      workload = some assigned) :
    ((commitSession policy f session assigned
        { s with frontends := s.frontends.insert f ⟨[]⟩ }).getModelRoute session).isSome ∧
      ∃ s', unregisterFrontend f (commitSession policy f session assigned
          { s with frontends := s.frontends.insert f ⟨[]⟩ }) = some s' ∧
        s'.frontends = s.frontends ∧ s'.sessionTable = s.sessionTable ∧
        s'.assignedStaticWorkloads = s.assignedStaticWorkloads ∧
        (∀ b, s'.backends.lookup b = s.backends.lookup b) ∧ s.effects <+: s'.effects := by
  obtain ⟨hnodup, hfresh⟩ := assignBackends_fresh (hfree.frontends _) hassigned
  have hweights := @foldl_loadAssigned_weights policy assigned
    ({ s with frontends := s.frontends.insert f ⟨[]⟩ }, ∅)
  have hspec := @foldl_loadAssigned_spec policy assigned hnodup
    ({ s with frontends := s.frontends.insert f ⟨[]⟩ }, ∅)
  dsimp only at hspec
  unfold commitSession
  generalize assigned.foldl (loadAssigned policy)
    ({ s with frontends := s.frontends.insert f ⟨[]⟩ }, ∅) = out at hweights hspec
  obtain ⟨t, weights⟩ := out
  obtain ⟨hsame, heffects, hlookup⟩ := hspec
  dsimp only at hweights hsame heffects hlookup ⊢
  have htable : t.sessionTable = s.sessionTable := (congrArg Scheduler.sessionTable hsame).trans rfl
  have hfrontends : t.frontends = s.frontends.insert f ⟨[]⟩ :=
    (congrArg Scheduler.frontends hsame).trans rfl
  have hpins : t.assignedStaticWorkloads = s.assignedStaticWorkloads :=
    (congrArg Scheduler.assignedStaticWorkloads hsame).trans rfl
  have hmem : ∀ b, b ∈ weights ↔ b ∈ assigned.map Prod.fst := fun b => by
    simp [hweights, mem_foldl_emplace]
  -- each chosen backend serves its new instance
  have hloaded : ∀ p ∈ assigned, ∃ backend, s.backends.lookup p.1 = some backend ∧
      t.backends.lookup p.1 = some (backend.loadModel p.2) ∧
      (backend.loadModel p.2).unloadModel session = backend := fun p hp => by
    obtain ⟨backend, hb, hrate, hsession⟩ := hfresh p hp
    refine ⟨backend, hb, by rw [(hlookup p.1).2 p.2 hp, hb]; rfl, ?_⟩
    rw [← hsession] at hrate ⊢
    exact BackendDelegate.unloadModel_loadModel hrate
  have hregistered : ∀ b ∈ weights, b ∈ t.backends := fun b hb => by
    obtain ⟨p, hp, rfl⟩ := List.mem_map.mp ((hmem b).mp hb)
    obtain ⟨_, -, hlookup', -⟩ := hloaded p hp
    exact AList.lookup_isSome.mp (by simp [hlookup'])
  have hinfo : ((t.sessionTable.emplace session
      { SessionInfo.empty false with backendWeights := weights }).modify session
        (SessionInfo.subscribe f)).lookup session =
      some ({ SessionInfo.empty false with backendWeights := weights }.subscribe f) := by
    rw [Table.lookup_modify_self, Table.lookup_emplace_self (htable ▸ hnew)]
    rfl
  refine ⟨getModelRoute_isSome hinfo hregistered, ?_⟩
  obtain ⟨s', hs', hfrontends', htable', hpins', hlookup', heffects'⟩ :=
    unregisterFrontend_sole (f := f) (s := subscribe f session { t with sessionTable :=
        (t.sessionTable.emplace session { SessionInfo.empty false with
          backendWeights := weights }) })
      (by simp [subscribe, hfrontends, Table.modify_insert_self, FrontendDelegate.subscribeModel])
      hinfo (by simp [SessionInfo.subscribe, SessionInfo.empty]) hregistered
  refine ⟨s', hs', ?_, ?_, hpins'.trans hpins,
    fun b => ?_, heffects.trans (heffects'.trans ?_)⟩
  · rw [hfrontends', subscribe, hfrontends, Table.modify_insert_self,
      Table.erase_insert_of_not_mem hf]
  · rw [htable', subscribe, htable, Table.emplace, if_neg hnew, Table.modify_insert_self,
      AList.insert_insert, Table.erase_insert_of_not_mem hnew]
  · rw [hlookup' b]
    by_cases hb : b ∈ assigned.map Prod.fst
    · obtain ⟨p, hp, rfl⟩ := List.mem_map.mp hb
      obtain ⟨backend, hback, hload, hunload⟩ := hloaded p hp
      refine (if_pos ((hmem _).mpr hb)).trans ?_
      exact (congrArg (Option.map _) hload).trans ((congrArg some hunload).trans hback.symm)
    · exact (if_neg (mt (hmem b).mp hb)).trans ((hlookup b).1 hb)
  · exact List.prefix_refl _

/-- A frontend that registers, asks `LoadModel` for a session nobody has loaded, and
unregisters leaves no trace but the RPCs sent: the frontends, `session_table_` and the
static pins come back as they were, and every backend as it was.  This holds whatever
`LoadModel` answers, from any state of the scheduler in which the backends chosen cannot
serve the session already. -/
theorem frontend_visit_leaves_no_trace {s : Scheduler} {f : Nat} (hf : f ∉ s.frontends)
    {session : String} (hnew : session ∉ s.sessionTable) (hfree : FreshFor policy s session)
    (workload : ℚ) :
    ∃ s', run cfg policy db s [.registerFrontend f, .loadModel ⟨f, session, workload⟩,
        .unregisterFrontend f] = some s' ∧
      s'.frontends = s.frontends ∧ s'.sessionTable = s.sessionTable ∧
      s'.assignedStaticWorkloads = s.assignedStaticWorkloads ∧
      (∀ b, s'.backends.lookup b = s.backends.lookup b) ∧ s.effects <+: s'.effects := by
  have hrun : ∀ r, loadModel policy db ⟨f, session, workload⟩
      { s with frontends := s.frontends.insert f ⟨[]⟩ } = some r →
      run cfg policy db s [.registerFrontend f, .loadModel ⟨f, session, workload⟩,
        .unregisterFrontend f] = unregisterFrontend f r.2 := fun r hr => by
    simp [run, step, registerFrontend, hf, hr]
  have hidle := unregisterFrontend_registered hf
  by_cases hdb : db.hasModelInfo session = false
  · exact ⟨s, (hrun ((.modelNotFound, none), _) (by simp [loadModel, hdb])).trans hidle,
      rfl, rfl, rfl, fun _ => rfl, List.prefix_refl _⟩
  cases hassigned : assignBackends policy { s with frontends := s.frontends.insert f ⟨[]⟩ }
    session workload with
  | none =>
    exact ⟨s, (hrun ((.notEnoughBackends, none), _)
        (by simp [loadModel, hdb, hnew, hassigned])).trans hidle,
      rfl, rfl, rfl, fun _ => rfl, List.prefix_refl _⟩
  | some assigned =>
    obtain ⟨hroute, s', hs', hrest⟩ := unregisterFrontend_commitSession hf hnew hfree hassigned
    obtain ⟨route, hroute⟩ := Option.isSome_iff_exists.mp hroute
    have hload : loadModel policy db ⟨f, session, workload⟩
        { s with frontends := s.frontends.insert f ⟨[]⟩ } = some ((.ctrlOk, some route),
          commitSession policy f session assigned { s with
            frontends := s.frontends.insert f ⟨[]⟩ }) := by
      unfold loadModel
      dsimp only
      rw [if_neg hdb, if_neg (not_not.mpr ((AList.mem_insert _).mpr (.inl rfl))), if_neg hnew,
        hassigned]
      simp only [hroute, Option.map_some']
    exact ⟨s', (hrun _ hload).trans hs', hrest⟩

/-- A visit that loads a session of rate `5` on the two uneven backends, which serve
nothing yet. -/
theorem frontend_visit_leaves_no_trace_uneven :
    7 ∉ unevenState.frontends ∧ "m" ∉ unevenState.sessionTable ∧
      FreshFor unevenPolicy unevenState "m" ∧
      ∃ s', run openConfig unevenPolicy anyModel unevenState [.registerFrontend 7,
          .loadModel ⟨7, "m", 5⟩, .unregisterFrontend 7] = some s' ∧
        s'.frontends = unevenState.frontends ∧ s'.sessionTable = unevenState.sessionTable ∧
        s'.assignedStaticWorkloads = unevenState.assignedStaticWorkloads ∧
        (∀ b, s'.backends.lookup b = unevenState.backends.lookup b) ∧
        unevenState.effects <+: s'.effects :=
  have hnew : "m" ∉ unevenState.sessionTable := by with_unfolding_all decide
  have hfree : FreshFor unevenPolicy unevenState "m" :=
    (reachable_getD_run openConfig unevenPolicy anyModel (by decide)).freshFor hnew
  ⟨by with_unfolding_all decide, hnew, hfree,
    frontend_visit_leaves_no_trace (by with_unfolding_all decide) hnew hfree 5⟩

end Scheduler

end NexusLb.Sched
