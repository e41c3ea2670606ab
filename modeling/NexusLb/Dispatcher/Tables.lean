import NexusLb.Dispatcher.Routes
import NexusLb.Drr.Invariant

/-!
# The dispatcher's route tables are DRR tables

Every `ModelRoute` the dispatcher holds is built by the calls that
`NexusLb.Drr.Invariant` covers: `HandleLoadModel` creates one and `Update`s it with
every registered backend at throughput `1`, `UpdateModelRoutes` `Update`s one with each
route pushed to it, and `DispatchRequest` calls `GetBackend` on it.  So, as long as the
pushed routes carry nonnegative throughputs, every route table of every reachable
dispatcher is a reachable DRR table, and the first critical section of
`DispatchRequest` brings the process down exactly when the query's session has a route
without backends (`dispatch_stops_only_on_empty_route`); on a route that names one
backend, the query goes to it (`run_dispatch_single`).
-/

namespace NexusLb.Dispatch

/-- Whether every route an action pushes carries nonnegative throughputs. -/
def Action.pushesNonnegRates : Action → Bool
  | .updateModelRoutes routes =>
    routes.all fun route => route.backendRate.all fun backend => decide (0 ≤ backend.throughput)
  | _ => true

namespace Dispatcher

variable (db : ModelDatabase)

/-- Every route table the dispatcher holds is a reachable DRR table. -/
def RoutesDrr (d : Dispatcher) : Prop :=
  ∀ session r, d.models.lookup session = some r → ModelRoute.Reachable r

theorem freshRoute_reachable : ModelRoute.Reachable freshRoute := .init "" 0 0 0

/-- A reachable DRR table on a route with backends always answers `GetBackend`. -/
theorem getBackend_ok_of_reachable {r : ModelRoute} (hr : ModelRoute.Reachable r)
    (hne : r.backends ≠ []) : ∃ info r', r.getBackend = .ok (info, r') := by
  obtain ⟨info, r', hloop⟩ := ModelRoute.getBackendLoop_ok_of_lowCount_le
    (ModelRoute.reachable_invariant hr) hne (ModelRoute.lowCount_le_length r)
  exact ⟨info, r', ModelRoute.getBackendLoop_succ_of_ok hloop⟩

theorem RoutesDrr.insert {d d' : Dispatcher} (hd : RoutesDrr d) {session : String}
    {r : ModelRoute} (hr : ModelRoute.Reachable r)
      (hmodels : d'.models = d.models.insert session r) :
    RoutesDrr d' := by
  intro k r' hk
  rw [hmodels] at hk
  by_cases hks : k = session
  · subst hks
    rw [AList.lookup_insert] at hk
    cases hk
    exact hr
  · rw [AList.lookup_insert_ne hks] at hk
    exact hd k r' hk

/-- `HandleLoadModel` adds the table of a new session, `Update`d at throughput `1`. -/
theorem handleLoadModel_routesDrr {session : String} {d d' : Dispatcher} {status : CtrlStatus}
    (h : d.handleLoadModel db session = .ok (status, d')) (hd : RoutesDrr d) : RoutesDrr d' := by
  unfold handleLoadModel at h
  split at h
  · cases h; exact hd
  split at h
  · cases h; exact hd
  split at h
  · cases h
  have hd' := congrArg Prod.snd (Except.ok.inj h)
  subst hd'
  have hrates : ∀ backend ∈ (d.loadModelRoute session).backendRate, 0 ≤ backend.throughput := by
    simp only [loadModelRoute, List.mem_map]
    rintro _ ⟨_, -, rfl⟩
    exact zero_le_one
  exact hd.insert (.update _ hrates freshRoute_reachable)
    (foldl_loadOnBackend_models db session _ _)

theorem updateModelRoute_routesDrr {d : Dispatcher} (hd : RoutesDrr d) {route : ModelRouteProto}
    (hrates : ∀ backend ∈ route.backendRate, 0 ≤ backend.throughput) :
    RoutesDrr (d.updateModelRoute route) := by
  have hr : ModelRoute.Reachable ((d.models.lookup route.modelSessionId).getD freshRoute) := by
    cases hlookup : d.models.lookup route.modelSessionId with
    | none => exact freshRoute_reachable
    | some r => exact hd _ r hlookup
  exact hd.insert (.update route hrates hr) rfl

theorem updateModelRoutes_routesDrr {routes : List ModelRouteProto}
    (hrates : ∀ route ∈ routes, ∀ backend ∈ route.backendRate, 0 ≤ backend.throughput) :
    ∀ {d : Dispatcher}, RoutesDrr d → RoutesDrr (d.updateModelRoutes routes) := by
  induction routes with
  | nil => exact id
  | cons route routes ih =>
    intro d hd
    exact ih (fun r hr => hrates r (List.mem_cons_of_mem _ hr))
      (updateModelRoute_routesDrr hd (hrates route (List.mem_cons_self _ _)))

/-- `DispatchRequest` stores the table its `GetBackend` left, which was called on a
table with backends since it returned. -/
theorem dispatchLocked_routesDrr {query : Query} {d d' : Dispatcher} {status : CtrlStatus}
    {backend : Option Nat} (h : dispatchLocked query d = .ok (status, backend, d'))
    (hd : RoutesDrr d) : RoutesDrr d' := by
  unfold dispatchLocked at h
  split at h
  · cases h; exact hd
  · rename_i route hroute
    split at h
    · cases h
    · rename_i info route' hget
      cases h
      have hne : route.backends ≠ [] := fun hnil => by
        rw [System.getBackend_of_backends_nil hnil] at hget
        cases hget
      exact hd.insert (.getBackend (hd _ route hroute) hne hget) rfl

end Dispatcher

namespace System

variable (db : ModelDatabase)

open Dispatcher

/-- The states reachable when every route pushed by `UpdateModelRoutes` carries
nonnegative throughputs. -/
inductive ReachableNonneg : System → Prop
  | init : ReachableNonneg init
  | step {s s' : System} {action : Action} : ReachableNonneg s →
      action.pushesNonnegRates = true → step db s action = some s' → ReachableNonneg s'

theorem ReachableNonneg.reachable {s : System} (h : ReachableNonneg db s) : Reachable db s := by
  induction h with
  | init => exact .init
  | step _ _ hstep ih => exact ih.step hstep

theorem reachableNonneg_run {s s' : System} {actions : List Action} (hs : ReachableNonneg db s)
    (hrates : ∀ action ∈ actions, action.pushesNonnegRates = true)
    (h : run db s actions = some s') : ReachableNonneg db s' := by
  induction actions generalizing s with
  | nil => cases h; exact hs
  | cons action actions ih =>
    obtain ⟨s1, hstep, hrest⟩ := Option.bind_eq_some.mp h
    exact ih (hs.step (hrates action (List.mem_cons_self _ _)) hstep)
      (fun a ha => hrates a (List.mem_cons_of_mem _ ha)) hrest

theorem step_routesDrr {s s' : System} {action : Action} (h : step db s action = some s')
    (hrates : action.pushesNonnegRates = true) (hd : RoutesDrr s.dispatcher) :
    RoutesDrr s'.dispatcher := by
  cases action with
  | registerFrontend frontend =>
    by_cases hf : frontend ∈ s.dispatcher.frontends <;>
      simp [step, Dispatcher.registerFrontend, hf] at h <;> subst h <;> exact hd
  | registerBackend info =>
    by_cases hb : info.nodeId ∈ s.dispatcher.backends <;>
      simp [step, Dispatcher.registerBackend, hb] at h <;> subst h <;> exact hd
  | loadModel session =>
    simp only [step] at h
    split at h
    · cases h
    · cases h; exact handleLoadModel_routesDrr db ‹_› hd
  | updateModelRoutes routes =>
    cases h
    simp only [Action.pushesNonnegRates, List.all_eq_true, decide_eq_true_eq] at hrates
    exact updateModelRoutes_routesDrr hrates hd
  | dispatchRequest query schedNs =>
    simp only [step] at h
    split at h
    · cases h
    · rename_i hlocked
      cases h
      exact dispatchLocked_routesDrr hlocked hd
  | resume call now dispatchNs =>
    simp only [step] at h
    split at h
    · obtain ⟨⟨d', next⟩, hres, rfl⟩ := Option.map_eq_some'.mp h
      exact fun k r hk => hd k r (resumeCall_models db hres ▸ hk)
    · cases h

theorem ReachableNonneg.routesDrr {s : System} (h : ReachableNonneg db s) :
    RoutesDrr s.dispatcher := by
  induction h with
  | init => intro k r hk; simp [System.init, Dispatcher.init] at hk
  | step _ hrates hstep ih => exact step_routesDrr db hstep hrates ih

/-- `DispatchRequest` on a reachable route that names only backend `b`, a registered
one, goes on to `b`, and the route still names `b` alone. -/
theorem step_dispatchRequest_single {s : System} {query : Query} {schedNs b : Nat}
    {route : ModelRoute} (hroute : s.dispatcher.models.lookup query.modelSessionId = some route)
    (hr : route.Reachable) (hsingle : ModelRoute.nodeIds route.backends = [b])
    (hb : b ∈ s.dispatcher.backends) :
    ∃ route', route'.Reachable ∧ ModelRoute.nodeIds route'.backends = [b] ∧
      step db s (.dispatchRequest query schedNs) =
        some ⟨{ s.dispatcher with
            nextGlobalId := s.dispatcher.nextGlobalId + 1
            models := s.dispatcher.models.insert query.modelSessionId route' },
          s.pending ++ [.dispatchSend b
            { query with globalId := s.dispatcher.nextGlobalId, dispatcherSchedNs := schedNs }]⟩ :=
              by
  have hne : route.backends ≠ [] := fun h => by simp [h, ModelRoute.nodeIds] at hsingle
  obtain ⟨info, route', hget⟩ := getBackend_ok_of_reachable hr hne
  obtain ⟨hsame, hmem⟩ := ModelRoute.getBackendLoop_mem hget
  have hinfo : info.nodeId = b := by simpa [hsingle] using hmem
  refine ⟨route', .getBackend hr hne hget, hsame ▸ hsingle, ?_⟩
  rw [step_dispatchRequest_found db hroute hget (hinfo ▸ hb), hinfo]

/-- A `DispatchRequest` on a route that names only backend `b`, then its second half:
`b` is sent one plan, under the next plan id, with the stamped query, and the route
still names `b` alone. -/
theorem run_dispatch_single {s : System} {query stamped : Query} {schedNs b : Nat}
    {route : ModelRoute} {backend : BackendDelegate} {inst : InstanceInfo} (now dispatchNs : Nat)
    (hroute : s.dispatcher.models.lookup query.modelSessionId = some route) (hr : route.Reachable)
    (hsingle : ModelRoute.nodeIds route.backends = [b])
    (hb : s.dispatcher.backends.lookup b = some backend)
    (hinst : backend.instances.lookup query.modelSessionId = some inst)
    (hstamp : { query with globalId := s.dispatcher.nextGlobalId, dispatcherSchedNs := schedNs } =
      stamped)
    (hfree : Pending.dispatchSend b stamped ∉ s.pending) :
    ∃ s' route' plan,
      run db s [.dispatchRequest query schedNs, .resume (.dispatchSend b stamped) now dispatchNs] =
        some s' ∧ s'.pending = s.pending ∧ s'.dispatcher.backends = s.dispatcher.backends ∧
      s'.dispatcher.models.lookup query.modelSessionId = some route' ∧ route'.Reachable ∧
      ModelRoute.nodeIds route'.backends = [b] ∧
      s'.dispatcher.nextGlobalId = s.dispatcher.nextGlobalId + 1 ∧
      s'.dispatcher.nextPlanId = s.dispatcher.nextPlanId + 1 ∧
      s'.dispatcher.effects = s.dispatcher.effects ++ [.enqueueBatchPlan backend.info.nodeId plan] ∧
      plan.planId = s.dispatcher.nextPlanId ∧ plan.modelSessionId = query.modelSessionId ∧
      plan.queriesWithoutInput = [{ stamped with dispatcherDispatchNs := dispatchNs }] := by
  obtain ⟨route', hr', hsingle', hstep⟩ :=
    step_dispatchRequest_single db hroute hr hsingle (AList.lookup_isSome.mp (by simp [hb]))
  rw [hstamp] at hstep
  have hinst' : backend.instances.lookup stamped.modelSessionId = some inst := hstamp ▸ hinst
  obtain ⟨plan, hid, hsession, hqueries, hsend⟩ := step_resume_dispatchSend_found db
    (s := ⟨{ s.dispatcher with
        nextGlobalId := s.dispatcher.nextGlobalId + 1
        models := s.dispatcher.models.insert query.modelSessionId route' },
      s.pending ++ [.dispatchSend b stamped]⟩)
    now dispatchNs (List.mem_append_right s.pending (List.mem_singleton_self _)) hb hinst'
  refine ⟨⟨{ s.dispatcher with
      nextGlobalId := s.dispatcher.nextGlobalId + 1
      nextPlanId := s.dispatcher.nextPlanId + 1
      models := s.dispatcher.models.insert query.modelSessionId route'
      effects := s.dispatcher.effects ++ [.enqueueBatchPlan backend.info.nodeId plan] }, s.pending⟩,
    route', plan, ?_, rfl, rfl, AList.lookup_insert _, hr', hsingle', rfl, rfl, rfl, hid,
    hsession.trans (hstamp ▸ rfl), hqueries⟩
  simp [run, hstep, hsend, List.erase_append_right _ hfree]

/-- In every dispatcher state reached by any interleaving of calls whose pushed routes
carry nonnegative throughputs, every route table keeps the DRR invariant, and the first
critical section of `DispatchRequest` brings the process down exactly when the query's
session has a route without backends: a missing route gets `MODEL_NOT_FOUND`, and any
other route a backend of its own, through `GetBackend`. -/
theorem dispatch_stops_only_on_empty_route {s : System} (hs : ReachableNonneg db s) :
    (∀ session route, s.dispatcher.models.lookup session = some route →
      ModelRoute.DrrInvariant route) ∧
    (∀ query schedNs, step db s (.dispatchRequest query schedNs) = none ↔
      ∃ route, s.dispatcher.models.lookup query.modelSessionId = some route ∧
        route.backends = []) ∧
    (∀ query, s.dispatcher.models.lookup query.modelSessionId = none →
      s.dispatcher.dispatchLocked query = .ok (.modelNotFound, none, s.dispatcher)) ∧
    ∀ query route, s.dispatcher.models.lookup query.modelSessionId = some route →
      route.backends ≠ [] → ∃ info route', route.getBackend = .ok (info, route') ∧
        info.nodeId ∈ ModelRoute.nodeIds route.backends ∧
        s.dispatcher.dispatchLocked query = .ok (.ctrlOk,
          (if info.nodeId ∈ s.dispatcher.backends then some info.nodeId else none),
          { s.dispatcher with
            models := s.dispatcher.models.insert query.modelSessionId route' }) := by
  have hd := hs.routesDrr
  refine ⟨fun session route h => ModelRoute.reachable_invariant (hd session route h),
    fun query schedNs => ⟨fun hnone => ?_,
      fun ⟨route, hroute, hempty⟩ => step_dispatchRequest_of_backends_nil db hroute hempty⟩,
    fun query hnone => by simp only [Dispatcher.dispatchLocked, hnone],
    fun query route hroute hne => ?_⟩
  · cases hroute : s.dispatcher.models.lookup query.modelSessionId with
    | none => simp [step, dispatchLocked, hroute] at hnone
    | some route =>
      refine ⟨route, rfl, Classical.by_contradiction fun hne => ?_⟩
      obtain ⟨info, route', hget⟩ := getBackend_ok_of_reachable (hd _ route hroute) hne
      simp [step, dispatchLocked, hroute, hget] at hnone
  · obtain ⟨info, route', hget⟩ := getBackend_ok_of_reachable (hd _ route hroute) hne
    exact ⟨info, route', hget, (ModelRoute.getBackendLoop_mem hget).2,
      by simp only [Dispatcher.dispatchLocked, hroute, hget]⟩

/-- With session `"m"` loaded while no backend is registered, the only route has no
backends. -/
theorem dispatch_stops_only_on_empty_route_loaded :
    ReachableNonneg noProfiles loadedWithoutBackends ∧
    (∀ session route, loadedWithoutBackends.dispatcher.models.lookup session = some route →
      ModelRoute.DrrInvariant route) ∧
    (∀ query schedNs, step noProfiles loadedWithoutBackends (.dispatchRequest query schedNs) =
        none ↔
      ∃ route, loadedWithoutBackends.dispatcher.models.lookup query.modelSessionId =
        some route ∧ route.backends = []) ∧
    (∀ query, loadedWithoutBackends.dispatcher.models.lookup query.modelSessionId = none →
      loadedWithoutBackends.dispatcher.dispatchLocked query =
        .ok (.modelNotFound, none, loadedWithoutBackends.dispatcher)) ∧
    ∀ query route, loadedWithoutBackends.dispatcher.models.lookup query.modelSessionId =
        some route →
      route.backends ≠ [] → ∃ info route', route.getBackend = .ok (info, route') ∧
        info.nodeId ∈ ModelRoute.nodeIds route.backends ∧
        loadedWithoutBackends.dispatcher.dispatchLocked query = .ok (.ctrlOk,
          (if info.nodeId ∈ loadedWithoutBackends.dispatcher.backends then some info.nodeId
            else none),
          { loadedWithoutBackends.dispatcher with
            models :=
              loadedWithoutBackends.dispatcher.models.insert query.modelSessionId route' }) := by
  have hs : ReachableNonneg noProfiles loadedWithoutBackends := by
    obtain ⟨s, hrun⟩ := Option.isSome_iff_exists.mp
      (show (run noProfiles init [.loadModel "m"]).isSome by decide)
    rw [loadedWithoutBackends, hrun]
    exact reachableNonneg_run noProfiles .init (by decide) hrun
  exact ⟨hs, dispatch_stops_only_on_empty_route noProfiles hs⟩

end System

end NexusLb.Dispatch
