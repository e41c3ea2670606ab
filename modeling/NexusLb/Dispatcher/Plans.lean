import NexusLb.Dispatcher.Loading

/-!
# Plan ids and global ids are never handed out twice

`DispatchRequest` stamps its query with `next_global_id_.fetch_add(1)` before it takes
the lock, and the half of it that runs after the lock numbers the plan it sends with
`next_plan_id_.fetch_add(1)`.  Any number of `DispatchRequest`s run at once, and their
sections interleave with those of every other call.  `IdsFresh` keeps, under every
interleaving, each id handed out below its counter, so that the next one is fresh, and
the ids handed out pairwise distinct.  Over whole runs: no two `EnqueueBatchPlan` calls
carry the same plan id, each plan carries the one query it was built for, and no global id
is in two plans, or in a plan and a `DispatchRequest` still in flight
(`plans_never_repeat`).
-/

namespace NexusLb.Dispatch

/-- The plan an `EnqueueBatchPlan` call sends. -/
def Effect.plan? : Effect → Option BatchPlan
  | .enqueueBatchPlan _ plan => some plan
  | _ => none

/-- The batch plans sent, in the order of the calls. -/
def sentPlans (effects : List Effect) : List BatchPlan := effects.filterMap Effect.plan?

@[simp]
theorem sentPlans_append (effects effects' : List Effect) :
    sentPlans (effects ++ effects') = sentPlans effects ++ sentPlans effects' :=
  List.filterMap_append _ _ _

/-- The query that the second half of a `DispatchRequest` in flight holds. -/
def Pending.query? : Pending → Option Query
  | .dispatchSend _ query => some query
  | _ => none

/-- Every stamped query still held: those of the plans sent, then those of the
`DispatchRequest`s in flight. -/
def stampedQueries (s : System) : List Query :=
  (sentPlans s.dispatcher.effects).flatMap BatchPlan.queriesWithoutInput ++
    s.pending.filterMap Pending.query?

/-- Taking a call out of the calls in flight takes out its query, if it holds one. -/
theorem filterMap_query_erase {pending : List Pending} {call : Pending} (hmem : call ∈ pending) :
    (pending.filterMap Pending.query?).Perm
      (call.query?.toList ++ (pending.erase call).filterMap Pending.query?) := by
  have hperm := (List.perm_cons_erase hmem).filterMap Pending.query?
  cases hq : call.query? <;> simpa [List.filterMap_cons, hq] using hperm

namespace Dispatcher

variable (db : ModelDatabase)

/-- A section that hands out no id: it sends no plan and moves neither counter. -/
structure SameIds (d d' : Dispatcher) : Prop where
  plans : sentPlans d'.effects = sentPlans d.effects
  nextPlanId : d'.nextPlanId = d.nextPlanId
  nextGlobalId : d'.nextGlobalId = d.nextGlobalId

theorem SameIds.refl (d : Dispatcher) : SameIds d d := ⟨rfl, rfl, rfl⟩

theorem SameIds.trans {d d' d'' : Dispatcher} (h : SameIds d d') (h' : SameIds d' d'') :
    SameIds d d'' :=
  ⟨h'.plans.trans h.plans, h'.nextPlanId.trans h.nextPlanId, h'.nextGlobalId.trans h.nextGlobalId⟩

theorem sameIds_loadSession_getD (d : Dispatcher) (backendId : Nat) (info : BackendInfo)
    (sessionKey session : String) :
    SameIds d ((d.loadSession db backendId info sessionKey session).getD d) := by
  unfold loadSession
  cases db.profileOn info session with
  | none => exact .refl d
  | some profile => exact ⟨by simp [sentPlans, Effect.plan?], rfl, rfl⟩

theorem sameIds_foldl_loadOnBackend (session : String) :
    ∀ (entries : List (Σ _ : Nat, BackendDelegate)) (acc : CtrlStatus × Dispatcher),
      SameIds acc.2 (entries.foldl (loadOnBackend db session) acc).2
  | [], _ => .refl _
  | entry :: entries, acc => by
    have hstep : (loadOnBackend db session acc entry).2 =
        (acc.2.loadSession db entry.1 entry.2.info session session).getD acc.2 := by
      unfold loadOnBackend; split <;> simp_all
    refine SameIds.trans ?_ (sameIds_foldl_loadOnBackend session entries _)
    rw [hstep]
    exact sameIds_loadSession_getD db _ _ _ _ _

theorem sameIds_handleLoadModel {session : String} {d d' : Dispatcher} {status : CtrlStatus}
    (h : d.handleLoadModel db session = .ok (status, d')) : SameIds d d' := by
  unfold handleLoadModel at h
  split at h
  · cases h; exact .refl d
  split at h
  · cases h; exact .refl d
  split at h
  · cases h
  have hd := congrArg Prod.snd (Except.ok.inj h)
  subst hd
  refine SameIds.trans ?_ (sameIds_foldl_loadOnBackend db session _ _)
  exact ⟨rfl, rfl, rfl⟩

theorem sameIds_updateModelRoutes (routes : List ModelRouteProto) :
    ∀ d : Dispatcher, SameIds d (d.updateModelRoutes routes) := by
  induction routes with
  | nil => exact SameIds.refl
  | cons route routes ih =>
    intro d
    exact (⟨rfl, rfl, rfl⟩ : SameIds d (d.updateModelRoute route)).trans (ih _)

theorem sameIds_dispatchLocked {query : Query} {d d' : Dispatcher} {status : CtrlStatus}
    {backend : Option Nat} (h : dispatchLocked query d = .ok (status, backend, d')) :
    SameIds d d' := by
  unfold dispatchLocked at h
  split at h
  · cases h; exact .refl d
  · split at h
    · cases h
    · cases h; exact ⟨rfl, rfl, rfl⟩

end Dispatcher

namespace System

variable (db : ModelDatabase)

open Dispatcher

/-- No section continues into the second half of a `DispatchRequest`. -/
theorem resumeCall_next_query {now dispatchNs : Nat} {d d' : Dispatcher} {call : Pending}
    {next : Option Pending} (h : resumeCall db now dispatchNs d call = some (d', next)) :
    ∀ x ∈ next, x.query? = none := by
  cases call with
  | frontendListing frontend => cases h; simp [Pending.query?]
  | frontendNotify frontend backends => cases h; simp
  | backendLoading info sessions => cases sessions <;> cases h <;> simp [Pending.query?]
  | backendNotify info frontends => cases frontends <;> cases h <;> simp [Pending.query?]
  | dispatchSend backendId query =>
    simp only [resumeCall] at h
    split at h
    · cases h
    · split at h
      · cases h
      · cases h; simp

/-- The sections of a registration hand out no id. -/
theorem resumeCall_sameIds {now dispatchNs : Nat} {d d' : Dispatcher} {call : Pending}
    {next : Option Pending} (h : resumeCall db now dispatchNs d call = some (d', next))
    (hcall : call.query? = none) : SameIds d d' := by
  cases call with
  | frontendListing frontend => cases h; exact .refl d
  | frontendNotify frontend backends => cases h; exact ⟨by simp [sentPlans, Effect.plan?], rfl, rfl⟩
  | backendLoading info sessions =>
    cases sessions with
    | nil => cases h; exact .refl d
    | cons sessionKey sessions =>
      cases h
      unfold loadFromSnapshot
      split
      · exact .refl d
      · exact sameIds_loadSession_getD db d _ _ _ _
  | backendNotify info frontends =>
    cases frontends with
    | nil => cases h; exact .refl d
    | cons frontend frontends => cases h; exact ⟨by simp [sentPlans, Effect.plan?], rfl, rfl⟩
  | dispatchSend backendId query => cases hcall

/-- The second half of a `DispatchRequest` sends one plan, numbered with the plan
counter and carrying the call's query. -/
theorem resumeCall_dispatchSend {now dispatchNs : Nat} {d d' : Dispatcher} {b : Nat}
    {query : Query} {next : Option Pending}
    (h : resumeCall db now dispatchNs d (.dispatchSend b query) = some (d', next)) :
    d'.nextPlanId = d.nextPlanId + 1 ∧ d'.nextGlobalId = d.nextGlobalId ∧
      ∃ backend plan, d'.effects = d.effects ++ [.enqueueBatchPlan backend plan] ∧
        plan.planId = d.nextPlanId ∧
        plan.queriesWithoutInput = [{ query with dispatcherDispatchNs := dispatchNs }] := by
  simp only [resumeCall] at h
  split at h
  · cases h
  · split at h
    · cases h
    · rename_i hsend
      cases h
      unfold dispatchSend at hsend
      split at hsend
      · cases hsend
      · cases hsend; exact ⟨rfl, rfl, _, _, rfl, rfl, rfl⟩

/-- Every id handed out is below its counter, and none was handed out twice; each plan
sent carries one query. -/
structure IdsFresh (s : System) : Prop where
  planIds : ((sentPlans s.dispatcher.effects).map BatchPlan.planId).Nodup
  planBelow : ∀ plan ∈ sentPlans s.dispatcher.effects, plan.planId < s.dispatcher.nextPlanId
  single : ∀ plan ∈ sentPlans s.dispatcher.effects, ∃ query, plan.queriesWithoutInput = [query]
  globalIds : ((stampedQueries s).map Query.globalId).Nodup
  globalBelow : ∀ g ∈ (stampedQueries s).map Query.globalId, g < s.dispatcher.nextGlobalId

theorem IdsFresh.init : IdsFresh init :=
  ⟨by simp [System.init, Dispatcher.init, sentPlans],
    by simp [System.init, Dispatcher.init, sentPlans],
    by simp [System.init, Dispatcher.init, sentPlans],
      by simp [System.init, Dispatcher.init, stampedQueries, sentPlans],
    by simp [System.init, Dispatcher.init, stampedQueries, sentPlans]⟩

/-- A step that sends no plan, moves no counter back and keeps the queries in flight. -/
theorem IdsFresh.keep {s s' : System} (hi : IdsFresh s)
    (hplans : sentPlans s'.dispatcher.effects = sentPlans s.dispatcher.effects)
    (hplan : s.dispatcher.nextPlanId ≤ s'.dispatcher.nextPlanId)
    (hglobal : s.dispatcher.nextGlobalId ≤ s'.dispatcher.nextGlobalId)
    (hinflight : (s'.pending.filterMap Pending.query?).Perm (s.pending.filterMap Pending.query?)) :
    IdsFresh s' := by
  have hq : ((stampedQueries s').map Query.globalId).Perm
    ((stampedQueries s).map Query.globalId) := by
    unfold stampedQueries
    rw [hplans]
    exact (hinflight.append_left _).map _
  exact ⟨hplans ▸ hi.planIds, fun plan hp => (hi.planBelow plan (hplans ▸ hp)).trans_le hplan,
    fun plan hp => hi.single plan (hplans ▸ hp), hq.nodup_iff.mpr hi.globalIds,
    fun g hg => (hi.globalBelow g (hq.subset hg)).trans_le hglobal⟩

theorem IdsFresh.sameIds {s s' : System} (hi : IdsFresh s)
    (hids : SameIds s.dispatcher s'.dispatcher)
    (hinflight : (s'.pending.filterMap Pending.query?).Perm (s.pending.filterMap Pending.query?)) :
    IdsFresh s' :=
  hi.keep hids.plans hids.nextPlanId.ge hids.nextGlobalId.ge hinflight

/-- A `DispatchRequest` that found a backend holds a query stamped with the counter. -/
theorem IdsFresh.stamp {s s' : System} (hi : IdsFresh s)
    (hplans : sentPlans s'.dispatcher.effects = sentPlans s.dispatcher.effects)
    (hplan : s'.dispatcher.nextPlanId = s.dispatcher.nextPlanId)
    (hglobal : s'.dispatcher.nextGlobalId = s.dispatcher.nextGlobalId + 1) (query : Query)
    (hinflight : s'.pending.filterMap Pending.query? =
      s.pending.filterMap Pending.query? ++
        [{ query with globalId := s.dispatcher.nextGlobalId }]) :
    IdsFresh s' := by
  have hq : (stampedQueries s').map Query.globalId =
      (stampedQueries s).map Query.globalId ++ [s.dispatcher.nextGlobalId] := by
    simp [stampedQueries, hplans, hinflight]
  refine ⟨hplans ▸ hi.planIds, fun plan hp => hplan ▸ hi.planBelow plan (hplans ▸ hp),
    fun plan hp => hi.single plan (hplans ▸ hp), ?_, ?_⟩
  · rw [hq, List.nodup_append]
    exact ⟨hi.globalIds, List.nodup_singleton _,
      List.disjoint_singleton.mpr fun hmem => lt_irrefl _ (hi.globalBelow _ hmem)⟩
  · rw [hq, hglobal]
    intro g hg
    rcases List.mem_append.mp hg with hg | hg
    · exact Nat.lt_succ_of_lt (hi.globalBelow g hg)
    · rw [List.mem_singleton.mp hg]; exact Nat.lt_succ_self _

/-- The second half of a `DispatchRequest` moves its query from the calls in flight into
a plan numbered with the plan counter. -/
theorem IdsFresh.send {s s' : System} (hi : IdsFresh s) {query : Query} {backend : Nat}
    {plan : BatchPlan} {dispatchNs : Nat}
    (heffects : s'.dispatcher.effects = s.dispatcher.effects ++ [.enqueueBatchPlan backend plan])
    (hid : plan.planId = s.dispatcher.nextPlanId)
    (hqueries : plan.queriesWithoutInput = [{ query with dispatcherDispatchNs := dispatchNs }])
    (hplan : s'.dispatcher.nextPlanId = s.dispatcher.nextPlanId + 1)
    (hglobal : s'.dispatcher.nextGlobalId = s.dispatcher.nextGlobalId)
    (hinflight : (s.pending.filterMap Pending.query?).Perm
      (query :: s'.pending.filterMap Pending.query?)) : IdsFresh s' := by
  have hplans : sentPlans s'.dispatcher.effects = sentPlans s.dispatcher.effects ++ [plan] := by
    simp [heffects, sentPlans, Effect.plan?]
  have hq : ((stampedQueries s').map Query.globalId).Perm
      ((stampedQueries s).map Query.globalId) := by
    have hmove := ((hinflight.map Query.globalId).append_left
      (((sentPlans s.dispatcher.effects).flatMap BatchPlan.queriesWithoutInput).map
        Query.globalId)).symm
    simpa [stampedQueries, hplans, hqueries] using hmove
  have hfresh : plan.planId ∉ (sentPlans s.dispatcher.effects).map BatchPlan.planId := by
    simp only [List.mem_map, not_exists, not_and]
    intro other hother heq
    exact lt_irrefl _ (hid ▸ heq ▸ hi.planBelow other hother)
  refine ⟨?_, ?_, ?_, hq.nodup_iff.mpr hi.globalIds,
    fun g hg => hglobal ▸ hi.globalBelow g (hq.subset hg)⟩
  · rw [hplans, List.map_append, List.nodup_append]
    exact ⟨hi.planIds, List.nodup_singleton _,
      List.disjoint_singleton.mpr fun hmem => hfresh (by simpa using hmem)⟩
  · rw [hplans, hplan]
    intro other hother
    rcases List.mem_append.mp hother with hother | hother
    · exact Nat.lt_succ_of_lt (hi.planBelow other hother)
    · rw [List.mem_singleton.mp hother, hid]; exact Nat.lt_succ_self _
  · rw [hplans]
    intro other hother
    rcases List.mem_append.mp hother with hother | hother
    · exact hi.single other hother
    · rw [List.mem_singleton.mp hother]; exact ⟨_, hqueries⟩

theorem step_idsFresh {s s' : System} {action : Action} (h : step db s action = some s')
    (hi : IdsFresh s) : IdsFresh s' := by
  cases action with
  | registerFrontend frontend =>
    by_cases hf : frontend ∈ s.dispatcher.frontends <;>
      simp [step, Dispatcher.registerFrontend, hf] at h <;> subst h
    · exact hi
    · exact hi.sameIds ⟨rfl, rfl, rfl⟩ (by simp [Pending.query?])
  | registerBackend info =>
    by_cases hb : info.nodeId ∈ s.dispatcher.backends <;>
      simp [step, Dispatcher.registerBackend, hb] at h <;> subst h
    · exact hi
    · exact hi.sameIds ⟨rfl, rfl, rfl⟩ (by simp [Pending.query?])
  | loadModel session =>
    simp only [step] at h
    split at h
    · cases h
    · cases h; exact hi.sameIds (sameIds_handleLoadModel db ‹_›) (.refl _)
  | updateModelRoutes routes =>
    cases h
    exact hi.sameIds (sameIds_updateModelRoutes routes _) (.refl _)
  | dispatchRequest query schedNs =>
    simp only [step] at h
    split at h
    · cases h
    · rename_i status backend d' hlocked
      cases h
      obtain ⟨hplans, hplan, hglobal⟩ := sameIds_dispatchLocked hlocked
      cases backend with
      | none =>
        exact hi.keep hplans hplan.ge (by rw [hglobal]; exact Nat.le_succ _) (by simp)
      | some b =>
        exact hi.stamp hplans hplan hglobal { query with dispatcherSchedNs := schedNs }
          (by simp [Pending.query?])
  | resume call now dispatchNs =>
    simp only [step] at h
    split at h
    · rename_i hmem
      obtain ⟨⟨d', next⟩, hres, rfl⟩ := Option.map_eq_some'.mp h
      have hnext : (next.toList.filterMap Pending.query?) = [] := by
        cases next with
        | none => rfl
        | some x => simp [resumeCall_next_query db hres x rfl]
      have herase := filterMap_query_erase hmem
      cases hcall : call.query? with
      | none =>
        rw [hcall] at herase
        exact hi.sameIds (resumeCall_sameIds db hres hcall) (by simpa [hnext] using herase.symm)
      | some query =>
        cases call with
        | dispatchSend b query' =>
          cases hcall
          obtain ⟨hplan, hglobal, backend, plan, heffects, hid, hqueries⟩ :=
            resumeCall_dispatchSend db hres
          exact hi.send heffects hid hqueries hplan hglobal
            (by simpa [hnext, Pending.query?] using herase)
        | _ => cases hcall
    · cases h

theorem Reachable.idsFresh {s : System} (h : Reachable db s) : IdsFresh s := by
  induction h with
  | init => exact .init
  | step _ hstep ih => exact step_idsFresh db hstep ih

/-- In every state reached by any
interleaving of the dispatcher's calls, the plans sent with `EnqueueBatchPlan` carry
pairwise distinct plan ids, each carries one query, and the queries of all the plans sent
and of the `DispatchRequest`s still in flight carry pairwise distinct global ids. -/
theorem plans_never_repeat {s : System} (hs : Reachable db s) :
    ((sentPlans s.dispatcher.effects).map BatchPlan.planId).Nodup ∧
      (∀ plan ∈ sentPlans s.dispatcher.effects, ∃ query, plan.queriesWithoutInput = [query]) ∧
      ((stampedQueries s).map Query.globalId).Nodup :=
  have hi := hs.idsFresh
  ⟨hi.planIds, hi.single, hi.globalIds⟩

end System

end NexusLb.Dispatch
