import NexusLb.Dispatcher.Plans
import NexusLb.Dispatcher.Tables

/-!
# A backend that joins after a session never serves it

`HandleLoadModel` gives a new session a route through every backend registered at that
moment, and afterwards only `UpdateModelRoutes` changes which backends a route names: a
backend registration sends the new backend `LoadModel` for every session but adds it to
no route.  `RouteStep` says once what every other step does to the routes, to the
`DispatchRequest`s in flight and to the plans sent.  Without route pushes every node that
a route names, that a call in flight is bound for, or that was sent a plan, is a
registered backend (`Registered`), so a `DispatchRequest` that replies `CTRL_OK` never
drops its query (`acknowledged_query_never_dropped`); and a node that a session's route
does not name is never sent a plan of it (`Bypasses`, `late_backend_never_serves`).
-/

namespace NexusLb.Dispatch

open ModelRoute (nodeIds)

namespace Dispatcher

variable (db : ModelDatabase)

theorem Grows.mem_backends {d d' : Dispatcher} (hg : Grows d d') {b : Nat}
    (hb : b ∈ d.backends) : b ∈ d'.backends := by
  obtain ⟨info, hinfo⟩ := Option.isSome_iff_exists.mp (infoOf_isSome.mpr hb)
  exact infoOf_isSome.mp (by simp [hg.infoOf hinfo])

/-- A section that sends no plan adds no `EnqueueBatchPlan` call. -/
theorem mem_of_sentPlans_eq {effects effects' : List Effect} (hpre : effects <+: effects')
    (hplans : sentPlans effects' = sentPlans effects) {b : Nat} {plan : BatchPlan}
    (h : .enqueueBatchPlan b plan ∈ effects') : .enqueueBatchPlan b plan ∈ effects := by
  obtain ⟨t, rfl⟩ := hpre
  rw [sentPlans_append, List.append_right_eq_self] at hplans
  rcases List.mem_append.mp h with h | h
  · exact h
  · have hplan : plan ∈ sentPlans t := List.mem_filterMap.mpr ⟨_, h, rfl⟩
    rw [hplans] at hplan
    cases hplan

/-- A successful `HandleLoadModel` keeps the route of every session that has one, and a
route it adds names only registered backends. -/
theorem handleLoadModel_routes {session : String} {d d' : Dispatcher} {status : CtrlStatus}
    (hkeys : ∀ {b info}, d.infoOf b = some info → info.nodeId = b)
    (h : d.handleLoadModel db session = .ok (status, d')) :
    (∀ k ∈ d.models, d'.models.lookup k = d.models.lookup k) ∧
      ∀ k r, d'.models.lookup k = some r → k ∈ d.models ∨ ∀ b ∈ nodeIds r.backends,
        b ∈ d.backends := by
  have hkeep : (∀ k ∈ d.models, d.models.lookup k = d.models.lookup k) ∧
      ∀ k r, d.models.lookup k = some r →
        k ∈ d.models ∨ ∀ b ∈ nodeIds r.backends, b ∈ d.backends :=
    ⟨fun _ _ => rfl, fun k _ hk => .inl (AList.lookup_isSome.mp (by simp [hk]))⟩
  unfold handleLoadModel at h
  split at h
  · cases h; exact hkeep
  split at h
  · cases h; exact hkeep
  split at h
  · cases h
  rename_i hroute
  have hd := congrArg Prod.snd (Except.ok.inj h)
  subst hd
  rw [foldl_loadOnBackend_models]
  refine ⟨fun k hk => AList.lookup_insert_ne fun hks => hroute (hks ▸ hk), fun k r hk => ?_⟩
  by_cases hks : k = session
  · subst hks
    rw [AList.lookup_insert] at hk
    cases hk
    refine .inr fun b hb => ?_
    simp only [ModelRoute.update_backends, loadModelRoute, nodeIds, List.map_map, List.mem_map,
      Function.comp_def] at hb
    obtain ⟨entry, hentry, rfl⟩ := hb
    have hlookup : d.backends.lookup entry.1 = some entry.2 := AList.mem_lookup_iff.mpr hentry
    have hinfo : d.infoOf entry.1 = some entry.2.info := by simp [infoOf, hlookup]
    rw [hkeys hinfo]
    exact infoOf_isSome.mp (by simp [hinfo])
  · rw [AList.lookup_insert_ne hks] at hk
    exact .inl (AList.lookup_isSome.mp (by simp [hk]))

/-- The first section of `DispatchRequest` keeps every route's backends and adds no
route, and hands the query to a registered backend that the query's route names. -/
theorem dispatchLocked_routes {query : Query} {d d' : Dispatcher} {status : CtrlStatus}
    {backend : Option Nat} (h : dispatchLocked query d = .ok (status, backend, d')) :
    (∀ k r, d.models.lookup k = some r →
      ∃ r', d'.models.lookup k = some r' ∧ r'.backends = r.backends) ∧
      (∀ k ∈ d'.models, k ∈ d.models) ∧
      ∀ b ∈ backend, b ∈ d.backends ∧
        ∃ r, d.models.lookup query.modelSessionId = some r ∧ b ∈ nodeIds r.backends := by
  unfold dispatchLocked at h
  split at h
  · cases h; exact ⟨fun k r hk => ⟨r, hk, rfl⟩, fun _ => id, by simp⟩
  · rename_i route hroute
    split at h
    · cases h
    · rename_i info route' hget
      cases h
      obtain ⟨hsame, hmem⟩ := ModelRoute.getBackendLoop_mem hget
      refine ⟨fun k r hk => ?_, fun k hk => ?_, fun b hb => ?_⟩
      · by_cases hks : k = query.modelSessionId
        · subst hks
          rw [hroute] at hk
          cases hk
          exact ⟨route', AList.lookup_insert _, hsame⟩
        · exact ⟨r, (AList.lookup_insert_ne hks).trans hk, rfl⟩
      · rcases (AList.mem_insert _).mp hk with rfl | hk
        · exact AList.lookup_isSome.mp (by simp [hroute])
        · exact hk
      · split at hb
        · obtain rfl := Option.mem_some_iff.mp hb
          exact ⟨‹_›, route, hroute, hmem⟩
        · cases hb

end Dispatcher

namespace System

variable (db : ModelDatabase)

open Dispatcher

/-- The second half of a `DispatchRequest` sends one plan, of the query's session, to the
backend registered under the node the call is bound for. -/
theorem resumeCall_dispatchSend_plan {now dispatchNs : Nat} {d d' : Dispatcher} {b : Nat}
    {query : Query} {next : Option Pending}
    (h : resumeCall db now dispatchNs d (.dispatchSend b query) = some (d', next)) :
    ∃ info plan, d.infoOf b = some info ∧ plan.modelSessionId = query.modelSessionId ∧
      d'.effects = d.effects ++ [.enqueueBatchPlan info.nodeId plan] := by
  simp only [resumeCall] at h
  split at h
  · cases h
  · rename_i backend hb
    split at h
    · cases h
    · rename_i hsend
      cases h
      unfold dispatchSend at hsend
      split at hsend
      · cases hsend
      · cases hsend
        exact ⟨backend.info, _, by simp [infoOf, hb], rfl, rfl⟩

/-- What a step other than a route push does to the routes, to the `DispatchRequest`s in
flight and to the plans sent: a route keeps its backends, and a new one names only
registered backends; a new `DispatchRequest` in flight is bound for a registered backend
that its session's route names; a new plan goes to the backend of a `DispatchRequest`
that was in flight, and is of that request's session. -/
structure RouteStep (s s' : System) : Prop where
  kept : ∀ k r, s.dispatcher.models.lookup k = some r →
    ∃ r', s'.dispatcher.models.lookup k = some r' ∧ r'.backends = r.backends
  fresh : ∀ k r, s'.dispatcher.models.lookup k = some r →
    k ∈ s.dispatcher.models ∨ ∀ b ∈ nodeIds r.backends, b ∈ s.dispatcher.backends
  inFlight : ∀ b query, Pending.dispatchSend b query ∈ s'.pending →
    Pending.dispatchSend b query ∈ s.pending ∨ b ∈ s.dispatcher.backends ∧
      ∃ r, s.dispatcher.models.lookup query.modelSessionId = some r ∧ b ∈ nodeIds r.backends
  sent : ∀ b plan, Effect.enqueueBatchPlan b plan ∈ s'.dispatcher.effects →
    Effect.enqueueBatchPlan b plan ∈ s.dispatcher.effects ∨
      ∃ query, Pending.dispatchSend b query ∈ s.pending ∧ plan.modelSessionId = query.modelSessionId

/-- A step that keeps the routes, sends no plan and starts no `DispatchRequest`. -/
theorem RouteStep.of_models {s s' : System} (hmodels : s'.dispatcher.models = s.dispatcher.models)
    (hsent : ∀ b plan, Effect.enqueueBatchPlan b plan ∈ s'.dispatcher.effects →
      Effect.enqueueBatchPlan b plan ∈ s.dispatcher.effects)
    (hpending : ∀ b query, Pending.dispatchSend b query ∈ s'.pending →
      Pending.dispatchSend b query ∈ s.pending) : RouteStep s s' :=
  ⟨fun _ r hk => ⟨r, hmodels ▸ hk, rfl⟩,
    fun k _ hk => .inl (AList.lookup_isSome.mp (by simp [← hmodels, hk])),
    fun b query hq => .inl (hpending b query hq), fun b plan hp => .inl (hsent b plan hp)⟩

theorem step_routeStep {s s' : System} {action : Action} (h : step db s action = some s')
    (hpush : action.pushesRoutes = false) (hwf : WellFormed s) : RouteStep s s' := by
  have hpre := (Transition.grows db (step_transition db h)).effects
  cases action with
  | registerFrontend frontend =>
    by_cases hf : frontend ∈ s.dispatcher.frontends <;>
      simp [step, Dispatcher.registerFrontend, hf] at h <;> subst h <;>
      exact .of_models rfl (fun _ _ => id) (fun _ _ hq => by simpa using hq)
  | registerBackend info =>
    by_cases hb : info.nodeId ∈ s.dispatcher.backends <;>
      simp [step, Dispatcher.registerBackend, hb] at h <;> subst h <;>
      exact .of_models rfl (fun _ _ => id) (fun _ _ hq => by simpa using hq)
  | loadModel session =>
    simp only [step] at h
    split at h
    · cases h
    · rename_i status d' hload
      cases h
      obtain ⟨hkept, hfresh⟩ := handleLoadModel_routes db hwf.backendKeys hload
      refine ⟨fun k r hk => ⟨r, ?_, rfl⟩, hfresh, fun _ _ hq => .inl hq,
        fun _ _ hp => .inl (mem_of_sentPlans_eq hpre (sameIds_handleLoadModel db hload).plans hp)⟩
      rw [hkept k (AList.lookup_isSome.mp (by simp [hk])), hk]
  | updateModelRoutes routes => cases hpush
  | dispatchRequest query schedNs =>
    simp only [step] at h
    split at h
    · cases h
    · rename_i status backend d' hlocked
      cases h
      obtain ⟨hkept, hmem, hbound⟩ := dispatchLocked_routes hlocked
      refine ⟨hkept, fun k _ hk => .inl (hmem k (AList.lookup_isSome.mp (by simp [hk]))),
        fun b q hq => ?_,
        fun _ _ hp => .inl (mem_of_sentPlans_eq hpre (sameIds_dispatchLocked hlocked).plans hp)⟩
      rcases List.mem_append.mp hq with hq | hq
      · exact .inl hq
      · cases backend with
        | none => cases hq
        | some b' =>
          obtain ⟨rfl, rfl⟩ := Pending.dispatchSend.inj (List.mem_singleton.mp hq)
          exact .inr (hbound b rfl)
  | resume call now dispatchNs =>
    simp only [step] at h
    split at h
    · rename_i hcall
      obtain ⟨⟨d', next⟩, hres, rfl⟩ := Option.map_eq_some'.mp h
      have hmodels := resumeCall_models db hres
      refine ⟨fun _ r hk => ⟨r, hmodels ▸ hk, rfl⟩,
        fun k _ hk => .inl (AList.lookup_isSome.mp (by simp [← hmodels, hk])),
        fun b q hq => .inl ?_, fun b plan hp => ?_⟩
      · rcases List.mem_append.mp hq with hq | hq
        · exact List.mem_of_mem_erase hq
        · cases resumeCall_next_query db hres _ (Option.mem_toList.mp hq)
      · by_cases hq : call.query? = none
        · exact .inl (mem_of_sentPlans_eq (resumeCall_effects db hres)
            (resumeCall_sameIds db hres hq).plans hp)
        · cases call <;> simp only [Pending.query?, not_true_eq_false] at hq
          rename_i b' q
          obtain ⟨info, plan', hinfo, hsession, heffects⟩ := resumeCall_dispatchSend_plan db hres
          rw [heffects] at hp
          rcases List.mem_append.mp hp with hp | hp
          · exact .inl hp
          · obtain ⟨rfl, rfl⟩ := Effect.enqueueBatchPlan.inj (List.mem_singleton.mp hp)
            rw [hwf.backendKeys hinfo]
            exact .inr ⟨q, hcall, hsession⟩
    · cases h

/-! ## Registered backends -/

/-- Every node that a route names, that a `DispatchRequest` in flight is bound for, or
that was sent a plan, is a registered backend. -/
structure Registered (s : System) : Prop where
  routes : ∀ k r, s.dispatcher.models.lookup k = some r →
    ∀ b ∈ nodeIds r.backends, b ∈ s.dispatcher.backends
  inFlight : ∀ b query, Pending.dispatchSend b query ∈ s.pending → b ∈ s.dispatcher.backends
  sent : ∀ b plan, Effect.enqueueBatchPlan b plan ∈ s.dispatcher.effects → b ∈ s.dispatcher.backends

theorem Registered.step {s s' : System} (hr : Registered s) (h : RouteStep s s')
    (hg : Grows s.dispatcher s'.dispatcher) : Registered s' := by
  refine ⟨fun k r hk b hb => ?_, fun b q hq => ?_, fun b plan hp => ?_⟩
  · rcases h.fresh k r hk with hmem | hall
    · obtain ⟨r0, hr0⟩ := Option.isSome_iff_exists.mp (AList.lookup_isSome.mpr hmem)
      obtain ⟨r', hr', hsame⟩ := h.kept k r0 hr0
      obtain rfl := Option.some.inj (hr'.symm.trans hk)
      exact hg.mem_backends (hr.routes k r0 hr0 b (hsame ▸ hb))
    · exact hg.mem_backends (hall b hb)
  · rcases h.inFlight b q hq with hq | ⟨hb, -⟩
    · exact hg.mem_backends (hr.inFlight b q hq)
    · exact hg.mem_backends hb
  · rcases h.sent b plan hp with hp | ⟨q, hq, -⟩
    · exact hg.mem_backends (hr.sent b plan hp)
    · exact hg.mem_backends (hr.inFlight b q hq)

theorem ReachableWithoutPushes.registered {s : System} (h : ReachableWithoutPushes db s) :
    Registered s := by
  induction h with
  | init => exact ⟨fun _ _ hk => by simp [System.init, Dispatcher.init] at hk, nofun, nofun⟩
  | step hs hpush hstep ih =>
    exact ih.step (step_routeStep db hstep hpush (reachable_wellFormed db hs.reachable))
      (Transition.grows db (step_transition db hstep))

theorem reachableWithoutPushes_run {s s' : System} {actions : List Action}
    (hs : ReachableWithoutPushes db s) (hpush : ∀ action ∈ actions, action.pushesRoutes = false)
    (h : run db s actions = some s') : ReachableWithoutPushes db s' := by
  induction actions generalizing s with
  | nil => cases h; exact hs
  | cons action actions ih =>
    obtain ⟨s1, hstep, hrest⟩ := Option.bind_eq_some.mp h
    exact ih (hs.step (hpush action (List.mem_cons_self _ _)) hstep)
      (fun a ha => hpush a (List.mem_cons_of_mem _ ha)) hrest

theorem reachableWithoutPushes_getD_run {actions : List Action} (h : (run db init actions).isSome)
    (hpush : ∀ action ∈ actions, action.pushesRoutes = false) :
    ReachableWithoutPushes db ((run db init actions).getD init) := by
  obtain ⟨s, hs⟩ := Option.isSome_iff_exists.mp h
  rw [hs]
  exact reachableWithoutPushes_run db .init hpush hs

/-- In every state
reached without route pushes, under any interleaving of the calls' sections, a
`DispatchRequest` whose first section replies `CTRL_OK` finds the delegate of the backend
`GetBackend` picks: the branch that logs "Cannot find BackendDelegate" and drops the
query after the `CTRL_OK` reply is never taken. -/
theorem acknowledged_query_never_dropped {s : System} (hs : ReachableWithoutPushes db s) :
    ∀ query status backend d', dispatchLocked query s.dispatcher = .ok (status, backend, d') →
      status = .ctrlOk → ∃ b ∈ backend, b ∈ s.dispatcher.backends := by
  intro query status backend d' h hok
  unfold dispatchLocked at h
  split at h
  · cases h; cases hok
  · rename_i route hroute
    split at h
    · cases h
    · rename_i info route' hget
      cases h
      have hreg := (ReachableWithoutPushes.registered db hs).routes _ route hroute info.nodeId
        (ModelRoute.getBackendLoop_mem hget).2
      exact ⟨info.nodeId, by simp [hreg], hreg⟩

/-! ## A session that bypasses a node -/

/-- Node `b` gets none of session `x`'s queries: the route of `x` does not name `b`, no
`DispatchRequest` of `x` in flight is bound for `b`, and no plan of `x` went to `b`. -/
structure Bypasses (x : String) (b : Nat) (s : System) : Prop where
  route : ∃ r, s.dispatcher.models.lookup x = some r ∧ b ∉ nodeIds r.backends
  inFlight : ∀ query, Pending.dispatchSend b query ∈ s.pending → query.modelSessionId ≠ x
  sent : ∀ plan, Effect.enqueueBatchPlan b plan ∈ s.dispatcher.effects → plan.modelSessionId ≠ x

theorem Bypasses.step {x : String} {b : Nat} {s s' : System} (hb : Bypasses x b s)
    (h : RouteStep s s') : Bypasses x b s' := by
  obtain ⟨r, hr, hnot⟩ := hb.route
  obtain ⟨r', hr', hsame⟩ := h.kept x r hr
  refine ⟨⟨r', hr', hsame ▸ hnot⟩, fun q hq hqx => ?_, fun plan hp => ?_⟩
  · rcases h.inFlight b q hq with hq | ⟨-, r0, hr0, hmem⟩
    · exact hb.inFlight q hq hqx
    · rw [hqx, hr] at hr0
      cases hr0
      exact hnot hmem
  · rcases h.sent b plan hp with hp | ⟨q, hq, hsession⟩
    · exact hb.sent plan hp
    · rw [hsession]
      exact hb.inFlight q hq

/-- A loaded session bypasses every node that is not registered. -/
theorem Registered.bypasses {s : System} (hr : Registered s) {x : String}
    (hx : x ∈ s.dispatcher.models) {b : Nat} (hb : b ∉ s.dispatcher.backends) :
    Bypasses x b s := by
  obtain ⟨r, hrx⟩ := Option.isSome_iff_exists.mp (AList.lookup_isSome.mpr hx)
  exact ⟨⟨r, hrx, fun hmem => hb (hr.routes x r hrx b hmem)⟩,
    fun q hq => absurd (hr.inFlight b q hq) hb, fun plan hp => absurd (hr.sent b plan hp) hb⟩

theorem Bypasses.run {x : String} {b : Nat} {s s' : System} {actions : List Action}
    (hs : Reachable db s) (hb : Bypasses x b s)
    (hpush : ∀ action ∈ actions, action.pushesRoutes = false) (h : run db s actions = some s') :
    Bypasses x b s' := by
  induction actions generalizing s with
  | nil => cases h; exact hb
  | cons action actions ih =>
    obtain ⟨s1, hstep, hrest⟩ := Option.bind_eq_some.mp h
    exact ih (hs.step hstep)
      (hb.step (step_routeStep db hstep (hpush action (List.mem_cons_self _ _))
        (reachable_wellFormed db hs)))
      (fun a ha => hpush a (List.mem_cons_of_mem _ ha)) hrest

/-- Take a state reached
without route pushes in which session `x` is loaded and node `b` is not registered.
Along every run from there without route pushes, under any interleaving of the calls'
sections, no batch plan of `x` is sent to `b`, whether or not `b` registers meanwhile
and is sent `LoadModel` for `x`. -/
theorem late_backend_never_serves {s s' : System} {actions : List Action}
    (hs : ReachableWithoutPushes db s) {x : String} (hx : x ∈ s.dispatcher.models) {b : Nat}
    (hb : b ∉ s.dispatcher.backends) (hpush : ∀ action ∈ actions, action.pushesRoutes = false)
    (h : run db s actions = some s') :
    ∀ plan, Effect.enqueueBatchPlan b plan ∈ s'.dispatcher.effects → plan.modelSessionId ≠ x :=
  (((ReachableWithoutPushes.registered db hs).bypasses hx hb).run db hs.reachable hpush h).sent

/-- Backend 1 registers and session `"m"` is loaded. -/
def loadOnFirst : List Action :=
  let gpuA : BackendInfo := ⟨1, "gpu-a", "uuid-a"⟩
  [.registerBackend gpuA, .resume (.backendLoading gpuA []) 0 0,
    .resume (.backendNotify gpuA []) 0 0, .loadModel "m"]

/-- Where `loadOnFirst` ends. -/
def loadedOnFirst : System := (run oneProfile init loadOnFirst).getD init

theorem loadedOnFirst_reachable : ReachableWithoutPushes oneProfile loadedOnFirst :=
  @reachableWithoutPushes_getD_run oneProfile loadOnFirst (by decide) (by decide)

theorem acknowledged_query_never_dropped_loaded :
    ReachableWithoutPushes oneProfile loadedOnFirst ∧
      ∀ query status backend d', dispatchLocked query loadedOnFirst.dispatcher =
          .ok (status, backend, d') →
        status = .ctrlOk → ∃ b ∈ backend, b ∈ loadedOnFirst.dispatcher.backends :=
  ⟨loadedOnFirst_reachable, acknowledged_query_never_dropped oneProfile loadedOnFirst_reachable⟩

/-- Backend 2, on a GPU with a profile for `"m"`, registers and walks its copy of the
sessions, which holds `"m"`. -/
def lateJoin : List Action :=
  let gpuB : BackendInfo := ⟨2, "gpu-a", "uuid-b"⟩
  [.registerBackend gpuB, .resume (.backendLoading gpuB ["m"]) 0 0,
    .resume (.backendLoading gpuB []) 0 0, .resume (.backendNotify gpuB []) 0 0]

/-- Where `lateJoin` ends. -/
def lateJoined : System := (run oneProfile loadedOnFirst lateJoin).getD init

theorem run_lateJoin : run oneProfile loadedOnFirst lateJoin = some lateJoined := by
  obtain ⟨s, hs⟩ := Option.isSome_iff_exists.mp
    (show (run oneProfile loadedOnFirst lateJoin).isSome by decide)
  rw [lateJoined, hs]
  rfl

/-- Two queries for `"m"` arrive, one after the other, and each goes on to its backend. -/
def dispatchTwice : List Action :=
  [.dispatchRequest mQuery 0, .resume (.dispatchSend 1 mQuery) 0 0,
    .dispatchRequest mQuery 0, .resume (.dispatchSend 1 { mQuery with globalId := 1 }) 0 0]

/-- After `lateJoin`, both queries of `dispatchTwice` go to backend 1, the one backend the
route of `"m"` names, which is sent a plan for each. -/
theorem run_dispatchTwice :
    ∃ s plan plan', run oneProfile lateJoined dispatchTwice = some s ∧ s.pending = [] ∧
      s.dispatcher.effects =
        lateJoined.dispatcher.effects ++ [.enqueueBatchPlan 1 plan, .enqueueBatchPlan 1 plan'] ∧
      plan.planId = 0 ∧ plan'.planId = 1 ∧ plan.modelSessionId = "m" ∧
      plan'.modelSessionId = "m" ∧ plan.queriesWithoutInput = [mQuery] ∧
      plan'.queriesWithoutInput = [{ mQuery with globalId := 1 }] := by
  have hr : (freshRoute.update ⟨"m", [⟨⟨1, "gpu-a", "uuid-a"⟩, 1⟩]⟩).Reachable :=
    .update _ (by simp) freshRoute_reachable
  have hstart : lateJoined.dispatcher.nextGlobalId = 0 ∧ lateJoined.dispatcher.nextPlanId = 0 ∧
      lateJoined.pending = [] := by decide
  obtain ⟨backend, inst, hb, hinst, hnode⟩ : ∃ backend inst,
      lateJoined.dispatcher.backends.lookup 1 = some backend ∧
        backend.instances.lookup "m" = some inst ∧ backend.info.nodeId = 1 := ⟨_, _, rfl, rfl, rfl⟩
  obtain ⟨s1, r1, plan, h1, hp1, hb1, hr1, hr1', hs1, hg1, hn1, he1, hid, hsession, hqueries⟩ :=
    @run_dispatch_single oneProfile lateJoined mQuery mQuery 0 1 _ backend inst 0 0 (by rfl) hr rfl
      hb hinst (by rw [hstart.1]; rfl) (by simp [hstart.2.2])
  obtain ⟨s2, -, plan', h2, hp2, -, -, -, -, -, -, he2, hid', hsession', hqueries'⟩ :=
    @run_dispatch_single oneProfile s1 mQuery { mQuery with globalId := 1 } 0 1 _ backend inst 0 0
      hr1 hr1' hs1 (hb1 ▸ hb) hinst (by rw [hg1, hstart.1]; rfl) (by simp [hp1, hstart.2.2])
  refine ⟨s2, plan, plan', ?_, by rw [hp2, hp1, hstart.2.2], ?_, by rw [hid, hstart.2.1],
    by rw [hid', hn1, hstart.2.1], hsession, hsession', hqueries, hqueries'⟩
  · rw [show dispatchTwice = [_, _] ++ [_, _] from rfl, run_append, h1, Option.some_bind, h2]
  · rw [he2, he1, hnode]
    simp

/-- Two queries for `"m"` after `lateJoin`: the plans sent for them carry plan ids 0 and 1,
and their queries the global ids 0 and 1. -/
theorem plans_never_repeat_dispatched_twice :
    ∃ s, run oneProfile lateJoined dispatchTwice = some s ∧
      (sentPlans s.dispatcher.effects).map BatchPlan.planId = [0, 1] ∧
      (stampedQueries s).map Query.globalId = [0, 1] ∧
      ((sentPlans s.dispatcher.effects).map BatchPlan.planId).Nodup ∧
      (∀ plan ∈ sentPlans s.dispatcher.effects, ∃ query, plan.queriesWithoutInput = [query]) ∧
      ((stampedQueries s).map Query.globalId).Nodup := by
  obtain ⟨s, plan, plan', hrun, hpending, heffects, hid, hid', -, -, hq, hq'⟩ := run_dispatchTwice
  have hs : Reachable oneProfile s :=
    reachable_run oneProfile
      (reachable_run oneProfile loadedOnFirst_reachable.reachable run_lateJoin)
      hrun
  have hnone : sentPlans lateJoined.dispatcher.effects = [] := by decide
  have hplans : sentPlans s.dispatcher.effects = [plan, plan'] := by
    rw [heffects, sentPlans_append, hnone]
    rfl
  refine ⟨s, hrun, by simp [hplans, hid, hid'], ?_, plans_never_repeat oneProfile hs⟩
  simp [stampedQueries, hplans, hpending, hq, hq', mQuery]

/-- Backend 2 is sent `LoadModel` for `"m"` but none of its plans: after it joins, both
queries for `"m"` go to backend 1. -/
theorem late_backend_never_serves_joined :
    ReachableWithoutPushes oneProfile loadedOnFirst ∧ "m" ∈ loadedOnFirst.dispatcher.models ∧
      2 ∉ loadedOnFirst.dispatcher.backends ∧
      (∀ action ∈ lateJoin ++ dispatchTwice, action.pushesRoutes = false) ∧
      ∃ s, run oneProfile loadedOnFirst (lateJoin ++ dispatchTwice) = some s ∧
        Effect.loadModelCommand 2 "m" 4 ∈ s.dispatcher.effects ∧
        (∃ plan, Effect.enqueueBatchPlan 1 plan ∈ s.dispatcher.effects ∧
          plan.modelSessionId = "m") ∧
        ∀ plan, Effect.enqueueBatchPlan 2 plan ∈ s.dispatcher.effects →
          plan.modelSessionId ≠ "m" := by
  obtain ⟨s, plan, _, hrun, -, heffects, -, -, hsession, -⟩ := run_dispatchTwice
  have hpush : ∀ action ∈ lateJoin ++ dispatchTwice, action.pushesRoutes = false := by decide
  have hrun' : run oneProfile loadedOnFirst (lateJoin ++ dispatchTwice) = some s := by
    rw [run_append, run_lateJoin, Option.some_bind, hrun]
  have hx : "m" ∈ loadedOnFirst.dispatcher.models := by decide
  have hb : 2 ∉ loadedOnFirst.dispatcher.backends := by decide
  have hload : Effect.loadModelCommand 2 "m" 4 ∈ lateJoined.dispatcher.effects := by decide
  exact ⟨loadedOnFirst_reachable, hx, hb, hpush, s, hrun', by simp [heffects, hload],
    ⟨plan, by simp [heffects], hsession⟩,
    late_backend_never_serves oneProfile loadedOnFirst_reachable hx hb hpush hrun'⟩

end System

end NexusLb.Dispatch
