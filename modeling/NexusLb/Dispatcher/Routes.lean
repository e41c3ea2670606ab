import NexusLb.Dispatcher.Frame

/-!
# Routes, sessions and instances

`HandleLoadModel` creates a session's route and its context in one critical section,
puts every registered backend in the route, and loads the session on the backends whose
GPU has a profile for it.  Two laws the handlers rely on hold only in part: every route
belongs to a loaded session, so the `CHECK_EQ(models_.count(id), 0)` of
`HandleLoadModel` passes, only as long as no route is pushed by `UpdateModelRoutes`; and
a backend of a route holds an instance of the route's session only if its GPU has a
profile for it, so `DispatchRequest` can pick a backend and dereference the instance
`GetInstanceInfo` does not find.  A route may also have no backends at all, and
`DispatchRequest` calls `GetBackend` on it all the same, reading past the end of the
empty backend list.
-/

namespace NexusLb.Dispatch

/-- Whether an action pushes routes with `UpdateModelRoutes`. -/
def Action.pushesRoutes : Action → Bool
  | .updateModelRoutes _ => true
  | _ => false

namespace Dispatcher

variable (db : ModelDatabase)

/-- Every route belongs to a loaded session. -/
def RoutesLoaded (d : Dispatcher) : Prop :=
  ∀ k ∈ d.models, k ∈ d.sessions

theorem loadSession_getD_models (d : Dispatcher) (backendId : Nat) (info : BackendInfo)
    (sessionKey session : String) :
    ((d.loadSession db backendId info sessionKey session).getD d).models = d.models := by
  unfold loadSession
  cases db.profileOn info session <;> rfl

theorem foldl_loadOnBackend_models (session : String)
    (entries : List (Σ _ : Nat, BackendDelegate)) (acc : CtrlStatus × Dispatcher) :
    (entries.foldl (loadOnBackend db session) acc).2.models = acc.2.models := by
  induction entries generalizing acc with
  | nil => rfl
  | cons entry entries ih =>
    rw [List.foldl_cons, ih]
    unfold loadOnBackend
    split
    · rfl
    · rename_i h
      simpa [h] using loadSession_getD_models db acc.2 entry.1 entry.2.info session session

/-- `HandleLoadModel` adds a route only together with its session. -/
theorem handleLoadModel_routesLoaded {session : String} {d d' : Dispatcher} {status : CtrlStatus}
    (h : d.handleLoadModel db session = .ok (status, d')) (hr : RoutesLoaded d) :
    RoutesLoaded d' := by
  unfold handleLoadModel at h
  split at h
  · cases h; exact hr
  split at h
  · cases h; exact hr
  split at h
  · cases h
  have hd := congrArg Prod.snd (Except.ok.inj h)
  subst hd
  intro k hk
  rw [foldl_loadOnBackend_models] at hk
  obtain ⟨hsame, -⟩ := foldl_loadOnBackend db session _ (CtrlStatus.ctrlOk,
    { d with
      models := d.models.insert session (freshRoute.update (d.loadModelRoute session))
      sessions := d.sessions.insert session ⟨session, ∅⟩ })
  rw [hsame.mem_sessions]
  simp only [AList.mem_insert] at hk ⊢
  exact hk.imp_right (hr k)

/-- `HandleLoadModel` does not fail its check where every route has its session. -/
theorem handleLoadModel_ne_error {d : Dispatcher} (hr : RoutesLoaded d) (session : String)
    (fault : Fault) : d.handleLoadModel db session ≠ .error fault := by
  unfold handleLoadModel
  split
  · simp
  split
  · simp
  split
  · rename_i _ hsession hroute
    exact absurd (hr session hroute) hsession
  · simp

theorem dispatchLocked_routesLoaded {query : Query} {d d' : Dispatcher} {status : CtrlStatus}
    {backend : Option Nat} (h : dispatchLocked query d = .ok (status, backend, d'))
    (hr : RoutesLoaded d) : RoutesLoaded d' := by
  unfold dispatchLocked at h
  split at h
  · cases h; exact hr
  · rename_i route hroute
    split at h
    · cases h
    · cases h
      intro k hk
      rcases (AList.mem_insert _).mp hk with rfl | hk
      · exact hr _ (AList.lookup_isSome.mp (by simp [hroute]))
      · exact hr k hk

theorem resumeCall_models {now dispatchNs : Nat} {d d' : Dispatcher} {call : Pending}
    {next : Option Pending} (h : System.resumeCall db now dispatchNs d call = some (d', next)) :
    d'.models = d.models := by
  cases call with
  | frontendListing frontend => cases h; rfl
  | frontendNotify frontend backends => cases h; rfl
  | backendLoading info sessions =>
    cases sessions with
    | nil => cases h; rfl
    | cons sessionKey sessions =>
      cases h
      unfold loadFromSnapshot
      split
      · rfl
      · exact loadSession_getD_models db d _ _ _ _
  | backendNotify info frontends =>
    cases frontends with
    | nil => cases h; rfl
    | cons frontend frontends => cases h; rfl
  | dispatchSend backendId query =>
    simp only [System.resumeCall] at h
    split at h
    · cases h
    · split at h
      · cases h
      · rename_i h'
        cases h
        unfold dispatchSend at h'
        split at h'
        · cases h'
        · cases h'; rfl

end Dispatcher

namespace System

variable (db : ModelDatabase)

open Dispatcher

/-- The states reachable when no route is ever pushed by `UpdateModelRoutes`. -/
inductive ReachableWithoutPushes : System → Prop
  | init : ReachableWithoutPushes init
  | step {s s' : System} {action : Action} : ReachableWithoutPushes s →
      action.pushesRoutes = false → step db s action = some s' → ReachableWithoutPushes s'

theorem ReachableWithoutPushes.reachable {s : System} (h : ReachableWithoutPushes db s) :
    Reachable db s := by
  induction h with
  | init => exact .init
  | step _ _ hstep ih => exact ih.step hstep

theorem step_routesLoaded {s s' : System} {action : Action} (h : step db s action = some s')
    (hpush : action.pushesRoutes = false) (hr : RoutesLoaded s.dispatcher) :
    RoutesLoaded s'.dispatcher := by
  have hgrow := (step_transition db h).grows
  cases action with
  | registerFrontend frontend =>
    by_cases hf : frontend ∈ s.dispatcher.frontends <;>
      simp [step, Dispatcher.registerFrontend, hf] at h <;> subst h <;> exact hr
  | registerBackend info =>
    by_cases hb : info.nodeId ∈ s.dispatcher.backends <;>
      simp [step, Dispatcher.registerBackend, hb] at h <;> subst h <;> exact hr
  | loadModel session =>
    simp only [step] at h
    split at h
    · cases h
    · cases h; exact handleLoadModel_routesLoaded db ‹_› hr
  | updateModelRoutes routes => cases hpush
  | dispatchRequest query schedNs =>
    simp only [step] at h
    split at h
    · cases h
    · rename_i hlocked
      cases h; exact dispatchLocked_routesLoaded hlocked hr
  | resume call now dispatchNs =>
    simp only [step] at h
    split at h
    · obtain ⟨⟨d', next⟩, hres, rfl⟩ := Option.map_eq_some'.mp h
      intro k hk
      rw [resumeCall_models db hres] at hk
      obtain ⟨session, hs⟩ := Option.isSome_iff_exists.mp (sessionOf_isSome.mpr (hr k hk))
      exact sessionOf_isSome.mp (by simp [hgrow.sessionOf hs])
    · cases h

theorem reachableWithoutPushes_routesLoaded {s : System} (h : ReachableWithoutPushes db s) :
    RoutesLoaded s.dispatcher := by
  induction h with
  | init => intro k hk; simp [init, Dispatcher.init] at hk
  | step _ hpush hstep ih => exact step_routesLoaded db hstep hpush ih

/-- Without route pushes, `HandleLoadModel` never fails its check. -/
theorem handleLoadModel_check_holds {s : System} (h : ReachableWithoutPushes db s)
    (session : String) (fault : Fault) : s.dispatcher.handleLoadModel db session ≠ .error fault :=
  handleLoadModel_ne_error db (reachableWithoutPushes_routesLoaded db h) session fault

/-- A database that knows every model and has a profile for none. -/
def noProfiles : ModelDatabase := ⟨fun _ => true, fun _ _ _ => none, fun _ => 100⟩

/-- Where a route push for a session that is not loaded yet ends. -/
def routePushedFirst : System := (run noProfiles init [.updateModelRoutes [⟨"m", []⟩]]).getD init

/-- A route pushed for session `"m"` before `"m"` is loaded leaves a route without its
session, and loading `"m"` then fails `CHECK_EQ(models_.count(model_sess_id), 0)`. -/
theorem load_after_route_push_fails_check :
    Reachable noProfiles routePushedFirst ∧ "m" ∈ routePushedFirst.dispatcher.models ∧
      "m" ∉ routePushedFirst.dispatcher.sessions ∧
      routePushedFirst.dispatcher.handleLoadModel noProfiles "m" = .error .modelRouteExists ∧
      step noProfiles routePushedFirst (.loadModel "m") = none :=
  ⟨reachable_getD_run noProfiles (by decide), by decide, by decide, rfl, rfl⟩

/-! ## Backends without a profile -/

/-- The first section of `DispatchRequest` on a session whose route picks a backend
with a delegate: the call goes on to that backend. -/
theorem step_dispatchRequest_found {s : System} {query : Query} {schedNs : Nat}
    {route route' : ModelRoute} {info : BackendInfo}
    (hroute : s.dispatcher.models.lookup query.modelSessionId = some route)
    (hget : route.getBackend = .ok (info, route')) (hb : info.nodeId ∈ s.dispatcher.backends) :
    step db s (.dispatchRequest query schedNs) =
      some ⟨{ s.dispatcher with
          nextGlobalId := s.dispatcher.nextGlobalId + 1
          models := s.dispatcher.models.insert query.modelSessionId route' },
        s.pending ++ [.dispatchSend info.nodeId
          { query with globalId := s.dispatcher.nextGlobalId, dispatcherSchedNs := schedNs }]⟩ := by
  simp [step, dispatchLocked, hroute, hget, hb]

/-- The second half of `DispatchRequest` stops the process when the backend has no
instance of the query's session. -/
theorem step_resume_dispatchSend_missing {s : System} {b : Nat} {query : Query}
    {backend : BackendDelegate} {now dispatchNs : Nat}
    (hb : s.dispatcher.backends.lookup b = some backend)
    (hinst : backend.instances.lookup query.modelSessionId = none) :
    step db s (.resume (.dispatchSend b query) now dispatchNs) = none := by
  simp [step, resumeCall, hb, dispatchSend, hinst]

/-- The second half of `DispatchRequest`, when the backend holds an instance of the
query's session: the backend is sent one plan, under the next plan id, with the query. -/
theorem step_resume_dispatchSend_found {s : System} {b : Nat} {query : Query}
    {backend : BackendDelegate} {inst : InstanceInfo} (now dispatchNs : Nat)
    (hpend : Pending.dispatchSend b query ∈ s.pending)
    (hb : s.dispatcher.backends.lookup b = some backend)
    (hinst : backend.instances.lookup query.modelSessionId = some inst) :
    ∃ plan : BatchPlan, plan.planId = s.dispatcher.nextPlanId ∧
      plan.modelSessionId = query.modelSessionId ∧
      plan.queriesWithoutInput = [{ query with dispatcherDispatchNs := dispatchNs }] ∧
      step db s (.resume (.dispatchSend b query) now dispatchNs) =
        some ⟨{ s.dispatcher with
            nextPlanId := s.dispatcher.nextPlanId + 1
            effects := s.dispatcher.effects ++ [.enqueueBatchPlan backend.info.nodeId plan] },
          s.pending.erase (.dispatchSend b query)⟩ := by
  refine ⟨_, ?_, ?_, ?_, by simp [step, hpend, resumeCall, hb, dispatchSend, hinst]; rfl⟩ <;> rfl

/-- A backend whose GPU has no profile registers, then session `"m"` is loaded. -/
def unprofiledLoad : List Action :=
  let gpu : BackendInfo := ⟨1, "gpu", "uuid"⟩
  [.registerBackend gpu, .resume (.backendLoading gpu []) 0 0,
    .resume (.backendNotify gpu []) 0 0, .loadModel "m"]

/-- Where `unprofiledLoad` ends. -/
def unprofiledLoaded : System := (run noProfiles init unprofiledLoad).getD init

/-- A query for session `"m"`, stamped as the dispatcher's first. -/
def mQuery : Query := ⟨"m", 0, 0, 0, 0⟩

/-- The route that `HandleLoadModel` gives `"m"` in `unprofiledLoaded`. -/
def unprofiledRoute : ModelRouteProto := ⟨"m", [⟨⟨1, "gpu", "uuid"⟩, 1⟩]⟩

/-- After `unprofiledLoad`, backend 1 is in the route of `"m"` but holds no instance
of it; `DispatchRequest` for `"m"` picks backend 1, and its second half stops the
process on the null `GetInstanceInfo` result. -/
theorem dispatch_to_unprofiled_backend_faults :
    Reachable noProfiles unprofiledLoaded ∧
      (unprofiledLoaded.dispatcher.models.lookup "m").map
        (fun route => ModelRoute.nodeIds route.backends) = some [1] ∧
      (unprofiledLoaded.dispatcher.backends.lookup 1).map
        (fun backend => decide ("m" ∈ backend.instances)) = some false ∧
      (step noProfiles unprofiledLoaded (.dispatchRequest mQuery 0)).map System.pending =
        some [.dispatchSend 1 mQuery] ∧
      ((step noProfiles unprofiledLoaded (.dispatchRequest mQuery 0)).bind fun s =>
        step noProfiles s (.resume (.dispatchSend 1 mQuery) 0 0)) = none ∧
      (unprofiledLoaded.dispatcher.backends.lookup 1).map
        (fun backend => unprofiledLoaded.dispatcher.dispatchSend noProfiles backend mQuery 0 0) =
        some (.error .missingInstanceInfo) := by
  have hroute : unprofiledLoaded.dispatcher.models.lookup mQuery.modelSessionId =
      some (freshRoute.update unprofiledRoute) := by rfl
  have hget := @ModelRoute.getBackend_of_quantum (freshRoute.update unprofiledRoute)
    ⟨⟨1, "gpu", "uuid"⟩, 1⟩ 1 (by rfl) (by rfl) (by simp [unprofiledRoute])
  have hstep := @step_dispatchRequest_found noProfiles unprofiledLoaded mQuery 0 _ _ _
    hroute hget (by decide)
  have hb : unprofiledLoaded.dispatcher.backends.lookup 1 = some ⟨⟨1, "gpu", "uuid"⟩, ∅⟩ := by
    rfl
  refine ⟨reachable_getD_run noProfiles (by decide), by decide, by decide, ?_, ?_, by rw [hb]; rfl⟩
  · rw [hstep]; rfl
  · rw [hstep, Option.some_bind]
    exact step_resume_dispatchSend_missing noProfiles hb (by rfl)

/-! ## Routes without backends -/

/-- `GetBackend` on a route without backends reads `backends_[current_drr_index_]` past
the end of the empty vector. -/
theorem getBackend_of_backends_nil {r : ModelRoute} (h : r.backends = []) :
    r.getBackend = .error .indexOutOfRange :=
  ModelRoute.getBackendLoop_of_probe_error (by simp [ModelRoute.probe, h])

/-- `DispatchRequest` for a session whose route has no backends stops the process in
its first critical section: nothing checks the route before `GetBackend`. -/
theorem step_dispatchRequest_of_backends_nil {s : System} {query : Query} {schedNs : Nat}
    {route : ModelRoute} (hroute : s.dispatcher.models.lookup query.modelSessionId = some route)
    (hempty : route.backends = []) : step db s (.dispatchRequest query schedNs) = none := by
  simp [step, dispatchLocked, hroute, getBackend_of_backends_nil hempty]

/-- Session `"m"` loaded while no backend is registered. -/
def loadedWithoutBackends : System := (run noProfiles init [.loadModel "m"]).getD init

/-- `HandleLoadModel` gives `"m"` a route with no backends; a query for `"m"` then makes
`GetBackend` index the empty vector, where no `MODEL_NOT_FOUND` reply is set. -/
theorem dispatch_on_empty_route_faults :
    Reachable noProfiles loadedWithoutBackends ∧
      (loadedWithoutBackends.dispatcher.models.lookup "m").map
        (fun route => route.backends.isEmpty) = some true ∧
      step noProfiles loadedWithoutBackends (.dispatchRequest mQuery 0) = none :=
  ⟨reachable_getD_run noProfiles (by decide), by decide,
    @step_dispatchRequest_of_backends_nil noProfiles loadedWithoutBackends mQuery 0
      (freshRoute.update ⟨"m", []⟩) rfl rfl⟩

end System

end NexusLb.Dispatch
