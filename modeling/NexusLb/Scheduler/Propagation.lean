import NexusLb.Scheduler.Quiet

/-!
# Frontends hold the scheduler's routes

A frontend learns the route of a session it subscribes to in the reply to its
`LoadModel` and in the `UpdateModelRoutesRpc` calls that `UpdateModelRoutes` makes to
the subscribers of the sessions a handler changed.  `ControlPlane` pairs the scheduler
with the frontends' route tables, each holding the last route it was sent.  Every
handler names every session whose weights it changes (`NexusLb.Scheduler.Quiet`),
except `EpochSchedule` when a backend spills, so when no backend spills every registered
frontend holds the scheduler's current route for every session it subscribes to
(`frontends_hold_current_routes`) and sends the session only to backends that serve it
(`frontends_route_to_serving_backends`); a spill that no other backend can take breaks
both (`spill_leaves_stale_route`).
-/

namespace NexusLb.Sched

/-! ### The frontends' route tables -/

/-- A frontend takes a route in, in place of the one it held for that session. -/
def receive (tables : Nat → String → Option ModelRouteProto) (frontend : Nat)
    (route : ModelRouteProto) : Nat → String → Option ModelRouteProto :=
  fun f session => if f = frontend ∧ session = route.modelSessionId then some route
    else tables f session

/-- The routes one of the scheduler's calls carries to a frontend. -/
def Effect.routesTo (frontend : Nat) : Effect → List ModelRouteProto
  | .updateModelRoutes f routes => if f = frontend then routes else []
  | .updateModelTable _ => []

/-- The frontends take one of the scheduler's calls in. -/
def deliver (tables : Nat → String → Option ModelRouteProto) :
    Effect → Nat → String → Option ModelRouteProto
  | .updateModelRoutes frontend routes =>
    routes.foldl (fun tables route => receive tables frontend route) tables
  | .updateModelTable _ => tables

theorem foldl_receive_ne {frontend f : Nat} (hf : f ≠ frontend) (x : String) :
    ∀ (routes : List ModelRouteProto) (tables : Nat → String → Option ModelRouteProto),
      (routes.foldl (fun tables route => receive tables frontend route) tables) f x = tables f x
  | [], _ => rfl
  | route :: routes, tables => by
    rw [List.foldl_cons, foldl_receive_ne hf x routes]
    simp [receive, hf]

/-- Delivering routes that agree on session `x` leaves the frontend with that route, if one
of them is for `x`. -/
theorem foldl_receive_of_agree {frontend : Nat} {x : String} {route : ModelRouteProto} :
    ∀ (routes : List ModelRouteProto), (∀ r ∈ routes, r.modelSessionId = x → r = route) →
      ∀ tables : Nat → String → Option ModelRouteProto,
        (routes.foldl (fun tables route => receive tables frontend route) tables) frontend x =
          if ∃ r ∈ routes, r.modelSessionId = x then some route else tables frontend x
  | [], _, _ => by simp
  | r :: routes, hagree, tables => by
    rw [List.foldl_cons, foldl_receive_of_agree routes
      (fun r' hr' => hagree r' (List.mem_cons_of_mem _ hr'))]
    by_cases hr : r.modelSessionId = x
    · have hroute := hagree r (List.mem_cons_self _ _) hr
      subst hroute
      simp [receive, hr]
    · have hskip : receive tables frontend r frontend x = tables frontend x := by
        simp [receive, Ne.symm hr]
      simp [hskip, hr]

theorem deliver_of_agree {frontend : Nat} {x : String} {route : ModelRouteProto} (e : Effect)
    (hagree : ∀ r ∈ e.routesTo frontend, r.modelSessionId = x → r = route)
    (tables : Nat → String → Option ModelRouteProto) :
    deliver tables e frontend x =
      if ∃ r ∈ e.routesTo frontend,
        r.modelSessionId = x then some route else tables frontend x := by
  cases e with
  | updateModelTable b => simp [deliver, Effect.routesTo]
  | updateModelRoutes f routes =>
    by_cases hf : f = frontend
    · subst hf
      simp only [Effect.routesTo, if_true] at hagree ⊢
      exact foldl_receive_of_agree routes hagree tables
    · simp [deliver, Effect.routesTo, hf, foldl_receive_ne (Ne.symm hf)]

/-- The frontends take a run of calls in: a frontend sent routes for `x` that all agree
ends on that route. -/
theorem foldl_deliver_of_agree {frontend : Nat} {x : String} (route : ModelRouteProto) :
    ∀ (effects : List Effect),
      (∀ e ∈ effects, ∀ r ∈ e.routesTo frontend, r.modelSessionId = x → r = route) →
      ∀ tables : Nat → String → Option ModelRouteProto,
        (effects.foldl deliver tables) frontend x =
          if ∃ e ∈ effects, ∃ r ∈ e.routesTo frontend, r.modelSessionId = x then some route
          else tables frontend x
  | [], _, _ => by simp
  | e :: effects, hagree, tables => by
    rw [List.foldl_cons, foldl_deliver_of_agree route effects
      (fun e' he' => hagree e' (List.mem_cons_of_mem _ he')),
      deliver_of_agree e (hagree e (List.mem_cons_self _ _))]
    by_cases hlater : ∃ e ∈ effects, ∃ r ∈ e.routesTo frontend, r.modelSessionId = x
    · obtain ⟨e', he', hr⟩ := hlater
      rw [if_pos ⟨e', he', hr⟩, if_pos ⟨e', List.mem_cons_of_mem _ he', hr⟩]
    · by_cases hfirst : ∃ r ∈ e.routesTo frontend, r.modelSessionId = x
      · rw [if_neg hlater, if_pos hfirst, if_pos ⟨e, List.mem_cons_self _ _, hfirst⟩]
      · rw [if_neg hlater, if_neg hfirst, if_neg]
        rintro ⟨e', he', hr⟩
        rcases List.mem_cons.mp he' with rfl | he'
        · exact hfirst hr
        · exact hlater ⟨e', he', hr⟩

/-- Calls that carry no route for `x` to a frontend leave its route for `x`. -/
theorem foldl_deliver_of_none {frontend : Nat} {x : String} (effects : List Effect)
    (hnone : ∀ e ∈ effects, ∀ r ∈ e.routesTo frontend, r.modelSessionId ≠ x)
    (tables : Nat → String → Option ModelRouteProto) :
    (effects.foldl deliver tables) frontend x = tables frontend x := by
  rw [foldl_deliver_of_agree ⟨x, []⟩ effects (fun e he r hr hx => absurd hx (hnone e he r hr)),
    if_neg]
  rintro ⟨e, he, r, hr, hx⟩
  exact hnone e he r hr hx

namespace Scheduler

/-! ### `UpdateModelRoutes` -/

theorem getModelRoute_modelSessionId {s : Scheduler} {x : String} {route : ModelRouteProto}
    (h : s.getModelRoute x = some route) : route.modelSessionId = x := by
  obtain ⟨_, -, h⟩ := Option.bind_eq_some.mp h
  obtain ⟨_, -, h⟩ := Option.bind_eq_some.mp h
  cases h
  rfl

/-- What an `Option`-valued `mapM` returns comes from its inputs. -/
theorem exists_of_mem_mapM {α β : Type} {f : α → Option β} {b : β} :
    ∀ {l : List α} {l' : List β}, l.mapM f = some l' → b ∈ l' → ∃ a ∈ l, f a = some b
  | [], _, h, hb => by cases h; cases hb
  | a :: l, _, h, hb => by
    rw [List.mapM_cons] at h
    obtain ⟨b', hb', h⟩ := Option.bind_eq_some.mp h
    obtain ⟨l'', hl'', h⟩ := Option.bind_eq_some.mp h
    cases h
    rcases List.mem_cons.mp hb with rfl | hb
    · exact ⟨a, List.mem_cons_self _ _, hb'⟩
    · obtain ⟨a', ha', hfa⟩ := exists_of_mem_mapM hl'' hb
      exact ⟨a', List.mem_cons_of_mem _ ha', hfa⟩

/-- Every entry of a route `GetModelRoute` builds is a backend of the session's weights,
with the backend's info and the weight. -/
theorem mem_getModelRoute {s : Scheduler} {x : String} {route : ModelRouteProto}
    (h : s.getModelRoute x = some route) {rate : BackendRate} (hrate : rate ∈ route.backendRate) :
    ∃ info b backend, s.sessionTable.lookup x = some info ∧
      info.backendWeights.lookup b = some rate.throughput ∧ s.backends.lookup b = some backend ∧
      rate.info = backend.info := by
  obtain ⟨info, hinfo, h⟩ := Option.bind_eq_some.mp h
  obtain ⟨rates, hrates, h⟩ := Option.bind_eq_some.mp h
  cases h
  obtain ⟨entry, hentry, hmap⟩ := exists_of_mem_mapM hrates hrate
  obtain ⟨backend, hb, rfl⟩ := Option.map_eq_some'.mp hmap
  exact ⟨info, entry.1, backend, hinfo, AList.mem_lookup_iff.mpr hentry, hb, rfl⟩

/-- The subscribers of a session, none when it is missing. -/
def subscribersOf (s : Scheduler) (x : String) : List Nat :=
  ((s.sessionTable.lookup x).map SessionInfo.subscribers).getD []

/-- What `UpdateModelRoutes` gathers for one session: its route, for each subscriber. -/
theorem mem_gatherRoutes {s : Scheduler} {x : String} (f : Nat) (r : ModelRouteProto) :
    ∀ (subscribers : List Nat) {updates updates' : Table Nat (List ModelRouteProto)},
      subscribers.foldlM (fun updates frontend => do
          let route ← s.getModelRoute x
          pure (updates.insert frontend ((updates.lookup frontend).getD [] ++ [route])))
        updates = some updates' →
      (r ∈ (updates'.lookup f).getD [] ↔
        r ∈ (updates.lookup f).getD [] ∨ (f ∈ subscribers ∧ s.getModelRoute x = some r))
  | [], _, _, h => by cases h; simp
  | g :: subscribers, updates, updates', h => by
    obtain ⟨updates1, hstep, h⟩ := Option.bind_eq_some.mp h
    obtain ⟨route, hroute, hstep⟩ := Option.bind_eq_some.mp hstep
    cases hstep
    rw [mem_gatherRoutes f r subscribers h]
    by_cases hf : f = g
    · subst hf
      simp only [AList.lookup_insert, Option.getD_some, List.mem_append, List.mem_singleton,
        List.mem_cons_self, true_and, hroute, Option.some.injEq]
      constructor
      · rintro ((hr | rfl) | ⟨-, rfl⟩)
        · exact .inl hr
        · exact .inr rfl
        · exact .inr rfl
      · rintro (hr | rfl)
        · exact .inl (.inl hr)
        · exact .inl (.inr rfl)
    · simp [AList.lookup_insert_ne hf, hf]

/-- What `UpdateModelRoutes` gathers over the sessions it is given. -/
theorem mem_foldlM_gatherRoutes {s : Scheduler} (f : Nat) (r : ModelRouteProto) :
    ∀ (sessions : List String) {updates updates' : Table Nat (List ModelRouteProto)},
      sessions.foldlM s.gatherRoutes updates = some updates' →
      (r ∈ (updates'.lookup f).getD [] ↔ r ∈ (updates.lookup f).getD [] ∨
        ∃ x ∈ sessions, f ∈ s.subscribersOf x ∧ s.getModelRoute x = some r)
  | [], _, _, h => by cases h; simp
  | x :: sessions, updates, updates', h => by
    obtain ⟨updates1, hstep, h⟩ := Option.bind_eq_some.mp h
    rw [mem_foldlM_gatherRoutes f r sessions h, mem_gatherRoutes f r _ hstep]
    simp only [subscribersOf, List.mem_cons, exists_eq_or_imp, or_assoc]

/-- A subscriber of a session `UpdateModelRoutes` was given makes it read the route. -/
theorem getModelRoute_isSome_of_gatherRoutes {s : Scheduler} {x : String} {f : Nat} :
    ∀ (sessions : List String) {updates updates' : Table Nat (List ModelRouteProto)},
      sessions.foldlM s.gatherRoutes updates = some updates' → x ∈ sessions →
      f ∈ s.subscribersOf x → (s.getModelRoute x).isSome
  | [], _, _, _, hx, _ => absurd hx (List.not_mem_nil x)
  | y :: sessions, updates, updates', h, hx, hsub => by
    obtain ⟨updates1, hstep, h⟩ := Option.bind_eq_some.mp h
    rcases List.mem_cons.mp hx with rfl | hx
    · suffices ∀ (subscribers : List Nat) {updates updates' : Table Nat (List ModelRouteProto)},
          subscribers.foldlM (fun updates frontend => do
            let route ← s.getModelRoute x
            pure (updates.insert frontend ((updates.lookup frontend).getD [] ++ [route])))
            updates = some updates' → f ∈ subscribers → (s.getModelRoute x).isSome from
        this _ hstep hsub
      intro subscribers
      cases subscribers with
      | nil => exact fun _ hf => absurd hf (List.not_mem_nil f)
      | cons g subscribers =>
        intro _ _ h _
        obtain ⟨_, hstep, -⟩ := Option.bind_eq_some.mp h
        obtain ⟨route, hroute, -⟩ := Option.bind_eq_some.mp hstep
        simp [hroute]
    · exact getModelRoute_isSome_of_gatherRoutes sessions h hx hsub

/-- `UpdateModelRoutes` sends a registered frontend the route of every session it was
given that the frontend subscribes to, and no other route. -/
theorem deliver_updateModelRoutes {s s' : Scheduler} {sessions : List String}
    (h : s.updateModelRoutes sessions = some s') :
    ∃ effects, s'.effects = s.effects ++ effects ∧ ∀ tables f x,
      (effects.foldl deliver tables) f x =
        if f ∈ s.frontends ∧ x ∈ sessions ∧ f ∈ s.subscribersOf x then s.getModelRoute x
        else tables f x := by
  obtain ⟨updates, hupdates, h⟩ := Option.bind_eq_some.mp h
  cases h
  refine ⟨_, rfl, fun tables f x => ?_⟩
  have hsent : ∀ e ∈ (updates.entries.filter fun entry => entry.1 ∈ s.frontends).map
      (fun entry => Effect.updateModelRoutes entry.1 entry.2), ∀ r ∈ e.routesTo f,
      f ∈ s.frontends ∧ ∃ y ∈ sessions, f ∈ s.subscribersOf y ∧ s.getModelRoute y = some r := by
    simp only [List.mem_map, List.mem_filter, decide_eq_true_eq]
    rintro _ ⟨entry, ⟨hentry, hf⟩, rfl⟩ r hr
    simp only [Effect.routesTo] at hr
    split at hr
    · rename_i hkey
      subst hkey
      refine ⟨hf, ((mem_foldlM_gatherRoutes entry.1 r sessions hupdates).mp ?_).resolve_left
        (by simp)⟩
      rw [AList.mem_lookup_iff.mpr hentry]
      exact hr
    · cases hr
  split
  · rename_i hcond
    obtain ⟨hf, hx, hsub⟩ := hcond
    obtain ⟨route, hroute⟩ := Option.isSome_iff_exists.mp
      (getModelRoute_isSome_of_gatherRoutes sessions hupdates hx hsub)
    have hmem : route ∈ (updates.lookup f).getD [] :=
      (mem_foldlM_gatherRoutes f route sessions hupdates).mpr (.inr ⟨x, hx, hsub, hroute⟩)
    obtain ⟨routes, hlookup⟩ : ∃ routes, updates.lookup f = some routes := by
      cases hl : updates.lookup f with
      | none => rw [hl] at hmem; cases hmem
      | some routes => exact ⟨routes, rfl⟩
    rw [hlookup, Option.getD_some] at hmem
    rw [hroute, foldl_deliver_of_agree route _ (fun e he r hr hrx => ?_), if_pos]
    · refine ⟨.updateModelRoutes f routes, List.mem_map.mpr ⟨⟨f, routes⟩, List.mem_filter.mpr
        ⟨AList.mem_lookup_iff.mp hlookup, by simpa using hf⟩, rfl⟩, route, ?_,
        getModelRoute_modelSessionId hroute⟩
      simpa [Effect.routesTo] using hmem
    · obtain ⟨-, y, -, -, hy⟩ := hsent e he r hr
      have hyx : y = x := (getModelRoute_modelSessionId hy).symm.trans hrx
      subst hyx
      exact Option.some_inj.mp (hy.symm.trans hroute)
  · rename_i hcond
    refine foldl_deliver_of_none _ (fun e he r hr hrx => hcond ?_) tables
    obtain ⟨hf, y, hy, hsub, hroute⟩ := hsent e he r hr
    have hyx : y = x := (getModelRoute_modelSessionId hroute).symm.trans hrx
    subst hyx
    exact ⟨hf, hy, hsub⟩

end Scheduler

/-! ### The control plane -/

/-- The frontends take in the calls the scheduler made on its way from `s` to `s'`. -/
def delivered (s s' : Scheduler) (tables : Nat → String → Option ModelRouteProto) :
    Nat → String → Option ModelRouteProto :=
  (s'.effects.drop s.effects.length).foldl deliver tables

/-- A call that makes no call to a frontend changes no frontend's table. -/
theorem delivered_of_effects {s s' : Scheduler} (h : s'.effects = s.effects)
    (tables : Nat → String → Option ModelRouteProto) : delivered s s' tables = tables := by
  rw [delivered, h, List.drop_length]
  rfl

theorem delivered_append {s s' : Scheduler} {effects : List Effect}
    (h : s'.effects = s.effects ++ effects) (tables : Nat → String → Option ModelRouteProto) :
    delivered s s' tables = effects.foldl deliver tables := by
  rw [delivered, h, List.drop_left]

/-- Calls to backends carry no route. -/
theorem foldl_deliver_updateModelTable (backends : List Nat)
    (tables : Nat → String → Option ModelRouteProto) :
    (backends.map Effect.updateModelTable).foldl deliver tables = tables := by
  induction backends with
  | nil => rfl
  | cons _ _ ih => exact ih

theorem delivered_of_updateModelTables {s s' : Scheduler} {backends : List Nat}
    (h : s'.effects = s.effects ++ backends.map Effect.updateModelTable)
    (tables : Nat → String → Option ModelRouteProto) : delivered s s' tables = tables := by
  rw [delivered_append h, foldl_deliver_updateModelTable]

/-- The scheduler, with the route each frontend holds for each session. -/
structure ControlPlane where
  scheduler : Scheduler
  tables : Nat → String → Option ModelRouteProto

namespace ControlPlane

variable (cfg : Config) (policy : Policy) (db : ModelDatabase)

/-- No frontend holds a route. -/
def init : ControlPlane := ⟨.init, fun _ _ => none⟩

/-- One call to the scheduler: the frontends take in the calls it makes to them, and the
frontend that called `LoadModel` takes in the route of its reply. -/
def step (c : ControlPlane) : Scheduler.Action → Option ControlPlane
  | .loadModel request => (c.scheduler.loadModel policy db request).map fun out =>
    let tables := delivered c.scheduler out.2 c.tables
    ⟨out.2, match out.1.2 with
      | some route => receive tables request.nodeId route
      | none => tables⟩
  | action => (Scheduler.step cfg policy db c.scheduler action).map fun s' =>
    ⟨s', delivered c.scheduler s' c.tables⟩

/-- The control planes reachable from the start by any sequence of calls. -/
inductive Reachable : ControlPlane → Prop
  | init : Reachable init
  | step {c c' : ControlPlane} {action : Scheduler.Action} :
      Reachable c → step cfg policy db c action = some c' → Reachable c'

/-- Runs a list of calls in order. -/
def run (c : ControlPlane) : List Scheduler.Action → Option ControlPlane
  | [] => some c
  | action :: actions => (step cfg policy db c action).bind fun c' => run c' actions

theorem reachable_run {c c' : ControlPlane} {actions : List Scheduler.Action}
    (hc : Reachable cfg policy db c) (h : run cfg policy db c actions = some c') :
    Reachable cfg policy db c' := by
  induction actions generalizing c with
  | nil => cases h; exact hc
  | cons action actions ih =>
    obtain ⟨c1, hstep, hrest⟩ := Option.bind_eq_some.mp h
    exact ih (hc.step hstep) hrest

theorem reachable_getD_run {actions : List Scheduler.Action}
    (h : (run cfg policy db init actions).isSome) :
    Reachable cfg policy db ((run cfg policy db init actions).getD init) := by
  obtain ⟨c, hc⟩ := Option.isSome_iff_exists.mp h
  rw [hc]
  exact reachable_run cfg policy db .init hc

/-- The scheduler takes the same call. -/
theorem step_scheduler {c c' : ControlPlane} {action : Scheduler.Action}
    (h : step cfg policy db c action = some c') :
    Scheduler.step cfg policy db c.scheduler action = some c'.scheduler := by
  cases action
  case loadModel request =>
    obtain ⟨out, hout, rfl⟩ := Option.map_eq_some'.mp h
    simp [Scheduler.step, hout]
  all_goals
    obtain ⟨s', hs', rfl⟩ := Option.map_eq_some'.mp h
    exact hs'

theorem Reachable.scheduler {c : ControlPlane} (hc : Reachable cfg policy db c) :
    Scheduler.Reachable cfg policy db c.scheduler := by
  induction hc with
  | init => exact .init
  | step _ hstep ih => exact ih.step (step_scheduler cfg policy db hstep)

/-- Every registered frontend holds the scheduler's current route of every session it
subscribes to. -/
def Fresh (c : ControlPlane) : Prop :=
  ∀ f frontend, c.scheduler.frontends.lookup f = some frontend →
    ∀ x ∈ frontend.subscribeModels, c.tables f x = c.scheduler.getModelRoute x

section Fresh

variable {cfg policy db} {s s' : Scheduler} {tables : Nat → String → Option ModelRouteProto}

/-- A handler that ends in `UpdateModelRoutes` and changed no route outside the sessions it
names leaves the frontends on the current routes. -/
theorem Fresh.announced (hf : Fresh ⟨s, tables⟩) (hp : Scheduler.Subscribed s)
    (hp' : Scheduler.Subscribed s') (h : Scheduler.Announced s s') :
    Fresh ⟨s', delivered s s' tables⟩ := by
  obtain ⟨A, backends, s1, hquiet, hpublish⟩ := h
  obtain ⟨effects, heffects, hdeliver⟩ := Scheduler.deliver_updateModelRoutes hpublish
  obtain ⟨bs, hbs⟩ := hquiet.effects
  have htables : delivered s s' tables = effects.foldl deliver tables := by
    have hall : s'.effects = s.effects ++ (bs.map Effect.updateModelTable ++
        backends.map Effect.updateModelTable ++ effects) := by
      rw [heffects, Scheduler.updateModelTables, hbs]
      simp only [List.append_assoc]
    rw [delivered_append hall, List.foldl_append, List.foldl_append,
      foldl_deliver_updateModelTable, foldl_deliver_updateModelTable]
  obtain ⟨_, rfl⟩ := Scheduler.updateModelRoutes_frame hpublish
  intro f frontend hfrontend x hx
  dsimp only at hfrontend ⊢
  rw [htables, hdeliver]
  split
  · rfl
  · rename_i hnot
    have hfs : s.frontends.lookup f = some frontend := by rw [← hquiet.frontends]; exact hfrontend
    obtain ⟨info', hinfo', hsub⟩ := hp'.listed f frontend hfrontend x hx
    have hinfo1 : s1.sessionTable.lookup x = some info' := hinfo'
    have hxA : x ∉ A := fun hxA => hnot ⟨AList.lookup_isSome.mp (by simp [hfrontend]), hxA,
      by simpa [Scheduler.subscribersOf, hinfo1] using hsub⟩
    obtain ⟨info, hinfo, -⟩ := hp.listed f frontend hfs x hx
    refine (hf f frontend hfs x hx).trans ?_
    exact (hquiet.routes.getModelRoute_eq hxA (AList.lookup_isSome.mp (by simp [hinfo]))).symm

theorem Fresh.registerFrontend (hf : Fresh ⟨s, tables⟩) {g : Nat}
    (h : Scheduler.registerFrontend g s = some s') : Fresh ⟨s', delivered s s' tables⟩ := by
  unfold Scheduler.registerFrontend at h
  split at h
  · cases h
  cases h
  have hdelivered : delivered s { s with frontends := s.frontends.insert g ⟨[]⟩ } tables = tables :=
    delivered_of_effects rfl tables
  intro f frontend hfrontend x hx
  dsimp only at hfrontend ⊢
  rw [hdelivered]
  by_cases hfg : f = g
  · subst hfg
    rw [AList.lookup_insert, Option.some.injEq] at hfrontend
    subst hfrontend
    cases hx
  · exact hf f frontend ((AList.lookup_insert_ne hfg).symm.trans hfrontend) x hx

theorem Fresh.unregisterFrontend (hf : Fresh ⟨s, tables⟩) (hp' : Scheduler.Subscribed s')
    {g : Nat} (h : Scheduler.unregisterFrontend g s = some s') :
    Fresh ⟨s', delivered s s' tables⟩ := by
  obtain ⟨hroutes, hfrontends, bs, hbs⟩ := Scheduler.unregisterFrontend_routes h
  intro f frontend hfrontend x hx
  dsimp only at hfrontend ⊢
  rw [delivered_of_updateModelTables hbs]
  have hfs : s.frontends.lookup f = some frontend := by
    rw [hfrontends] at hfrontend
    by_cases hfg : f = g
    · subst hfg; rw [AList.lookup_erase] at hfrontend; cases hfrontend
    · rwa [AList.lookup_erase_ne hfg] at hfrontend
  obtain ⟨info, hinfo, -⟩ := hp'.listed f frontend hfrontend x hx
  refine (hf f frontend hfs x hx).trans ?_
  exact hroutes.getModelRoute_eq (List.not_mem_nil x) (AList.lookup_isSome.mp (by simp [hinfo]))

/-- `LoadModel`'s subscription, with the route of the reply taken in by the caller. -/
theorem Fresh.subscribes (hf : Fresh ⟨s, tables⟩) (hp : Scheduler.Subscribed s) {g : Nat}
    {y : String} (h : Scheduler.Subscribes g y s s') {route : ModelRouteProto}
    (hroute : s'.getModelRoute y = some route) :
    Fresh ⟨s', receive (delivered s s' tables) g route⟩ := by
  obtain ⟨bs, hbs⟩ := h.effects
  have hry : route.modelSessionId = y := Scheduler.getModelRoute_modelSessionId hroute
  intro f frontend hfrontend x hx
  dsimp only at hfrontend ⊢
  simp only [receive, delivered_of_updateModelTables hbs]
  by_cases hfx : f = g ∧ x = route.modelSessionId
  · rw [if_pos hfx, hfx.2, hry, hroute]
  · rw [if_neg hfx]
    obtain ⟨frontend0, hfs, hx0⟩ : ∃ frontend0, s.frontends.lookup f = some frontend0 ∧
        x ∈ frontend0.subscribeModels := by
      rw [h.frontends, Table.lookup_modify] at hfrontend
      split at hfrontend
      · rename_i hfg
        obtain ⟨frontend0, hfs, rfl⟩ := Option.map_eq_some'.mp hfrontend
        refine ⟨frontend0, hfs, ?_⟩
        rcases List.mem_insert_iff.mp hx with rfl | hx0
        · exact absurd ⟨hfg, hry.symm⟩ hfx
        · exact hx0
      · exact ⟨frontend, hfrontend, hx⟩
    obtain ⟨info, hinfo, -⟩ := hp.listed f frontend0 hfs x hx0
    refine (hf f frontend0 hfs x hx0).trans ?_
    exact (h.routes.getModelRoute_eq (List.not_mem_nil x)
      (AList.lookup_isSome.mp (by simp [hinfo]))).symm

/-- Every call from a reachable state, when no backend spills, keeps the frontends on the
current routes. -/
theorem Fresh.step (hspill : ∀ backend session, policy.spills backend session = false)
    {c c' : ControlPlane} (hs : Scheduler.Reachable cfg policy db c.scheduler) (hf : Fresh c)
    {action : Scheduler.Action} (h : step cfg policy db c action = some c') : Fresh c' := by
  have hp := hs.subscribed
  have hp' := (hs.step (step_scheduler cfg policy db h)).subscribed
  have hc := hs.serving
  cases action with
  | loadModel request =>
    obtain ⟨⟨reply, s'⟩, hload, rfl⟩ := Option.map_eq_some'.mp h
    rcases Scheduler.loadModel_reply hload with ⟨hnone, rfl⟩ | ⟨route, hreply, hroute, hsub⟩
    · simp only [hnone]
      rw [delivered_of_effects rfl]
      exact hf
    · simp only [hreply]
      exact hf.subscribes hp hsub hroute
  | registerFrontend g =>
    obtain ⟨s', hstep, rfl⟩ := Option.map_eq_some'.mp h
    exact hf.registerFrontend hstep
  | registerBackend info =>
    obtain ⟨s', hstep, rfl⟩ := Option.map_eq_some'.mp h
    exact hf.announced hp hp' (Scheduler.registerBackend_named hc hstep)
  | unregisterFrontend g =>
    obtain ⟨s', hstep, rfl⟩ := Option.map_eq_some'.mp h
    exact hf.unregisterFrontend hp' hstep
  | unregisterBackend b =>
    obtain ⟨s', hstep, rfl⟩ := Option.map_eq_some'.mp h
    exact hf.announced hp hp' (Scheduler.unregisterBackend_named hc hstep)
  | reportWorkload request =>
    obtain ⟨s', hstep, rfl⟩ := Option.map_eq_some'.mp h
    exact hf.announced hp hp' (.of_quiet (Scheduler.quiet_reportWorkload hstep))
  | beaconCheck =>
    obtain ⟨s', hstep, rfl⟩ := Option.map_eq_some'.mp h
    obtain ⟨⟨trigger, s''⟩, hbeacon, rfl⟩ := Option.map_eq_some'.mp hstep
    exact hf.announced hp hp' (.of_quiet (Scheduler.quiet_beaconCheck hbeacon))
  | epochSchedule =>
    obtain ⟨s', hstep, rfl⟩ := Option.map_eq_some'.mp h
    exact hf.announced hp hp' (Scheduler.epochSchedule_named hspill hstep)

/-- When no backend spills, every reachable control plane is fresh. -/
theorem Reachable.fresh (hspill : ∀ backend session, policy.spills backend session = false)
    {c : ControlPlane} (hc : Reachable cfg policy db c) : Fresh c := by
  induction hc with
  | init => intro f frontend h; cases h
  | step hc hstep ih => exact Fresh.step hspill (hc.scheduler _ _ _) ih hstep

end Fresh

end ControlPlane

/-- When no backend spills, in every state reached
by any sequence of calls, every registered frontend holds, for every session it subscribes
to, the route the scheduler computes for that session now. -/
theorem frontends_hold_current_routes {cfg : Config} {policy : Policy} {db : ModelDatabase}
    (hspill : ∀ backend session, policy.spills backend session = false) {c : ControlPlane}
    (hc : ControlPlane.Reachable cfg policy db c) :
    ∀ f frontend, c.scheduler.frontends.lookup f = some frontend →
      ∀ x ∈ frontend.subscribeModels, c.tables f x = c.scheduler.getModelRoute x :=
  hc.fresh hspill

/-- Frontend `7` and backend `1` join, the backend is pinned to the static workload
serving `"s"`, and the frontend loads `"s"`. -/
def pinnedControlPlane : ControlPlane :=
  (ControlPlane.run pinningConfig pinningPolicy anyModel .init
    [.registerFrontend 7, .registerBackend ⟨1, "gpu", "uuid-1"⟩, .loadModel ⟨7, "s", 1⟩]).getD .init

theorem frontends_hold_current_routes_pinned :
    (∀ backend session, pinningPolicy.spills backend session = false) ∧
      ControlPlane.Reachable pinningConfig pinningPolicy anyModel pinnedControlPlane ∧
      ∀ f frontend, pinnedControlPlane.scheduler.frontends.lookup f = some frontend →
        ∀ x ∈ frontend.subscribeModels,
          pinnedControlPlane.tables f x = pinnedControlPlane.scheduler.getModelRoute x := by
  have hspill : ∀ backend session, pinningPolicy.spills backend session = false := fun _ _ => rfl
  have hc : ControlPlane.Reachable pinningConfig pinningPolicy anyModel pinnedControlPlane :=
    ControlPlane.reachable_getD_run _ _ _ (by with_unfolding_all decide)
  exact ⟨hspill, hc, frontends_hold_current_routes hspill hc⟩

/-- When no backend spills, in every reachable state, every route a registered frontend
holds for a session it subscribes to sends the session only to registered backends that
serve it: each entry carries the backend's info and the weight recorded for it, which is
the rate at which the backend serves the session when every instance weighs its
throughput. -/
theorem frontends_route_to_serving_backends {cfg : Config} {policy : Policy}
    {db : ModelDatabase} (hspill : ∀ backend session, policy.spills backend session = false)
    {c : ControlPlane} (hc : ControlPlane.Reachable cfg policy db c) :
    ∀ f frontend, c.scheduler.frontends.lookup f = some frontend →
      ∀ x ∈ frontend.subscribeModels, ∀ route, c.tables f x = some route →
        ∀ rate ∈ route.backendRate, ∃ backend,
          c.scheduler.backends.lookup rate.info.nodeId = some backend ∧
            backend.info = rate.info ∧ (backend.rateOf x).isSome ∧
            (policy.WeighsThroughput → backend.rateOf x = some rate.throughput) := by
  intro f frontend hf x hx route hroute rate hrate
  have hs := hc.scheduler _ _ _
  rw [hc.fresh hspill f frontend hf x hx] at hroute
  obtain ⟨info, b, backend, hinfo, hweight, hb, hinfo'⟩ := Scheduler.mem_getModelRoute hroute hrate
  have hkey : rate.info.nodeId = b := hinfo' ▸ hs.serving.keyed b backend hb
  have hrecorded : c.scheduler.recordedRate b x = some rate.throughput := by
    rw [Scheduler.recordedRate, hinfo, Option.some_bind, hweight]
  have hhosted : c.scheduler.hostedRate b x = backend.rateOf x := by
    rw [Scheduler.hostedRate, hb, Option.some_bind]
  refine ⟨backend, hkey ▸ hb, hinfo'.symm, ?_, fun hweigh => ?_⟩
  · rw [← hhosted, ← hs.serving.isSome, hrecorded]
    rfl
  · rw [← hhosted, ← (hs.exact hweigh).eq, hrecorded]

theorem frontends_route_to_serving_backends_pinned :
    (∀ backend session, pinningPolicy.spills backend session = false) ∧
      ControlPlane.Reachable pinningConfig pinningPolicy anyModel pinnedControlPlane ∧
      ∀ f frontend, pinnedControlPlane.scheduler.frontends.lookup f = some frontend →
        ∀ x ∈ frontend.subscribeModels, ∀ route, pinnedControlPlane.tables f x = some route →
          ∀ rate ∈ route.backendRate, ∃ backend,
            pinnedControlPlane.scheduler.backends.lookup rate.info.nodeId = some backend ∧
              backend.info = rate.info ∧ (backend.rateOf x).isSome ∧
              (pinningPolicy.WeighsThroughput → backend.rateOf x = some rate.throughput) := by
  have hspill : ∀ backend session, pinningPolicy.spills backend session = false := fun _ _ => rfl
  have hc : ControlPlane.Reachable pinningConfig pinningPolicy anyModel pinnedControlPlane :=
    ControlPlane.reachable_getD_run _ _ _ (by with_unfolding_all decide)
  exact ⟨hspill, hc, frontends_route_to_serving_backends hspill hc⟩

/-! ### A spill the frontends never hear of -/

/-- Backend `1` serves every session at `4`, but `"y"` only while it is idle; it overloads
whenever it grows an instance, and then spills `"y"`. -/
def spillingPolicy : Policy where
  placement backend session _ :=
    if session = "y" ∧ backend.isIdle = false then none else some (4, mkRat 1 2)
  weight := InstanceInfo.throughput
  resize _ _ rate := rate
  staticThroughput _ _ := 10
  fits _ _ := true
  occupancy _ := 2
  overload _ := true
  spills _ session := session == "y"
  spillRate _ _ := 4
  passes := 4

/-- Frontend `7` loads `"y"` and then `"m"` on backend `1`, reports a rate of `8` for `"m"`,
and a beacon and an epoch follow: the epoch grows `"m"` to `8`, overloading the backend,
which spills `"y"`. -/
def staleControlPlane : ControlPlane :=
  (ControlPlane.run Scheduler.epochConfig spillingPolicy anyModel .init
    [.registerFrontend 7, .registerBackend ⟨1, "gpu", "uuid-1"⟩, .loadModel ⟨7, "y", 4⟩,
      .loadModel ⟨7, "m", 4⟩, .reportWorkload ⟨7, [("m", 8)]⟩, .beaconCheck,
      .epochSchedule]).getD .init

/-- `EpochSchedule` erases the overloaded
backend from `"y"`'s weights without adding `"y"` to `changed_sessions`, and no backend
takes `"y"` back, so frontend `7`, subscribed to `"y"`, still sends it to backend `1`,
which no longer serves it, while the scheduler's route for `"y"` names no backend.  Both
results above fail here without their no-spill hypothesis. -/
theorem spill_leaves_stale_route :
    ControlPlane.Reachable Scheduler.epochConfig spillingPolicy anyModel staleControlPlane ∧
      (staleControlPlane.scheduler.frontends.lookup 7).map FrontendDelegate.subscribeModels =
        some ["m", "y"] ∧
      staleControlPlane.tables 7 "y" = some ⟨"y", [⟨⟨1, "gpu", "uuid-1"⟩, 4⟩]⟩ ∧
      (staleControlPlane.scheduler.backends.lookup 1).map (BackendDelegate.rateOf · "y") =
        some none ∧
      staleControlPlane.scheduler.getModelRoute "y" = some ⟨"y", []⟩ :=
  ⟨ControlPlane.reachable_getD_run _ _ _ (by with_unfolding_all decide),
    by with_unfolding_all decide, by with_unfolding_all decide, by with_unfolding_all decide,
    by with_unfolding_all decide⟩

end NexusLb.Sched
