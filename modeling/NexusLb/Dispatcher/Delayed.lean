import NexusLb.Dispatcher.Routes

/-!
# The delayed scheduler

`DelayedScheduler`, the dispatcher's deadline-aware variant, keeps per model session
its instances and a heap of its pending queries by deadline, per backend its instances,
and `queries_`, every pending query by global id.  As written, `AddModelSession` moves
its new context into `models_` and then reads the session through the emptied pointer,
so it never returns once it has added a session, and `AddBackend` does the same as soon
as a session is registered; `EnqueueQuery` stores the query in `queries_` before
`models_.at` looks its session up, so a query for an unknown session stays in `queries_`
after the exception.  `QueriesAgree`, the agreement of `queries_` with the heaps, is kept
by every call that returns and broken by the throwing `EnqueueQuery`; over whole runs,
calls that all return leave `models_` and `queries_` empty.
-/

namespace NexusLb.Delayed

open Dispatch (Query)

/-- `QueryContext(query_without_input, deadline)`: the query, its global id, and the time
by which it is due, in nanoseconds. -/
structure QueryContext where
  proto : Query
  globalId : Nat
  deadline : Nat
  deriving DecidableEq

/-- `InstanceContext(model_session, backend_id, profile)`: its `max_batch` is the largest
batch whose latency fits the session's SLA. -/
structure InstanceContext where
  modelSession : String
  backendId : Nat
  profile : ModelProfile
  maxBatch : Nat

/-- `ModelSessionContext`, under its `string_id`.  Its request counters are read by no
modelled function. -/
structure ModelSessionContext where
  stringId : String
  instances : Table Nat InstanceContext
  /-- `sorted_queries`, a heap by deadline. -/
  sortedQueries : List QueryContext

/-- `BackendContext`, with the identity of the dispatcher's delegate for the backend. -/
structure BackendContext where
  backendId : Nat
  delegate : BackendInfo
  instances : Table String InstanceContext
  nextAvailableTime : Nat

/-- The state guarded by `DelayedScheduler::mutex_`, and the `WorkFullSchedule` tasks
posted to the worker (whose body is empty). -/
structure DelayedScheduler where
  models : Table String ModelSessionContext
  backends : Table Nat BackendContext
  queries : Table Nat QueryContext
  posted : Nat

/-- A delayed scheduler that has just been constructed. -/
def DelayedScheduler.init : DelayedScheduler := ⟨∅, ∅, ∅, 0⟩

/-- How a call of the delayed scheduler stops short. -/
inductive Fault
  /-- A member read through a `shared_ptr` that `std::move` has emptied. -/
  | movedFrom
  /-- `models_.at(model_session_id)` throws `std::out_of_range`. -/
  | outOfRange
  deriving DecidableEq, Repr

/-! ## The heap of a session -/

/-- `OrderQueryContextByDeadlineASC(lhs, rhs)`: `lhs->deadline > rhs->deadline`.  As the
comparator of a heap it puts the earliest deadline on top. -/
def orderByDeadline (lhs rhs : QueryContext) : Bool := decide (rhs.deadline < lhs.deadline)

theorem orderByDeadline_eq_false {lhs rhs : QueryContext} :
    orderByDeadline lhs rhs = false ↔ lhs.deadline ≤ rhs.deadline := by
  simp [orderByDeadline]

/-- The loop of `std::push_heap`: the value held out of the heap rises from `hole` while
its parent orders below it, each such parent moving down into the hole, and then fills
the hole. -/
def siftUp (heap : List QueryContext) (value : QueryContext) (hole : Nat) : List QueryContext :=
  if 0 < hole then
    match heap[(hole - 1) / 2]? with
    | some parent =>
      if orderByDeadline parent value then siftUp (heap.set hole parent) value ((hole - 1) / 2)
      else heap.set hole value
    | none => heap.set hole value
  else heap.set hole value
termination_by hole
decreasing_by omega

theorem siftUp_of_late {heap : List QueryContext} {value parent : QueryContext} {hole : Nat}
    (hpos : 0 < hole) (hparent : heap[(hole - 1) / 2]? = some parent)
    (hlate : orderByDeadline parent value = true) :
    siftUp heap value hole = siftUp (heap.set hole parent) value ((hole - 1) / 2) := by
  rw [siftUp, if_pos hpos]
  simp only [hparent, hlate, if_true]

theorem siftUp_of_stop {heap : List QueryContext} {value : QueryContext} {hole : Nat}
    (hstop : 0 < hole → ∀ parent, heap[(hole - 1) / 2]? = some parent →
      orderByDeadline parent value = false) :
    siftUp heap value hole = heap.set hole value := by
  rw [siftUp]
  split
  · split
    · simp [hstop ‹_› _ ‹_›]
    · rfl
  · rfl

/-- The sift's own induction, its three ways to stop taken as one: the value rises past a
parent due after it, or it fills the hole, every parent of which is due no later. -/
theorem siftUp_induction (value : QueryContext)
    (motive : List QueryContext → Nat → List QueryContext → Prop)
    (rise : ∀ heap hole parent, 0 < hole → heap[(hole - 1) / 2]? = some parent →
      value.deadline < parent.deadline →
      motive (heap.set hole parent) ((hole - 1) / 2)
        (siftUp (heap.set hole parent) value ((hole - 1) / 2)) →
      motive heap hole (siftUp (heap.set hole parent) value ((hole - 1) / 2)))
    (stop : ∀ heap hole, (0 < hole → ∀ parent, heap[(hole - 1) / 2]? = some parent →
      parent.deadline ≤ value.deadline) → motive heap hole (heap.set hole value))
    (heap : List QueryContext) (hole : Nat) : motive heap hole (siftUp heap value hole) := by
  have hstop : ∀ {heap hole}, (0 < hole → ∀ parent, heap[(hole - 1) / 2]? = some parent →
      orderByDeadline parent value = false) → motive heap hole (siftUp heap value hole) :=
    fun h => siftUp_of_stop h ▸ stop _ _ fun hpos p hp => orderByDeadline_eq_false.mp (h hpos p hp)
  induction heap, value, hole using siftUp.induct with
  | case1 heap value hole hpos parent hparent hlate ih =>
    rw [siftUp_of_late hpos hparent hlate]
    exact rise heap hole parent hpos hparent (by simpa [orderByDeadline] using hlate)
      (ih rise stop @hstop)
  | case2 heap value hole _ parent hparent hearly =>
    exact hstop fun _ p hp => by
      rw [hparent] at hp
      cases hp
      simpa using hearly
  | case3 heap value hole _ hnone => exact hstop fun _ p hp => by rw [hnone] at hp; cases hp
  | case4 heap value hole hpos => exact hstop fun h => absurd h hpos

/-- `sorted_queries.push_back(qctx)` followed by `std::push_heap`. -/
def pushHeap (heap : List QueryContext) (value : QueryContext) : List QueryContext :=
  siftUp (heap ++ [value]) value heap.length

/-- Exchanging two entries of a list permutes it. -/
theorem set_swap_perm {α : Type} [DecidableEq α] {l : List α} {i j : Nat} (hi : i < l.length)
    (hj : j < l.length) : List.Perm ((l.set i l[j]).set j l[i]) l := by
  rw [List.perm_iff_count]
  intro a
  have hj' : j < (l.set i l[j]).length := by simpa using hj
  have hget : (l.set i l[j])[j] = l[j] := by
    rw [List.getElem_set]
    split_ifs with hij
    · subst hij; rfl
    · rfl
  have hi_le := List.boole_getElem_le_countP (· == a) l i hi
  rw [List.count_set _ _ _ _ hj', List.count_set _ _ _ _ hi, hget]
  simp only [List.count_eq_countP] at hi_le ⊢
  split_ifs at hi_le ⊢ <;> omega

/-- The sift only moves entries: it ends with a permutation of the heap with the value in
the hole. -/
theorem siftUp_perm (value : QueryContext) :
    ∀ (hole : Nat) (heap : List QueryContext), hole < heap.length →
      List.Perm (siftUp heap value hole) (heap.set hole value) := fun hole heap =>
  siftUp_induction value
    (fun heap hole out => hole < heap.length → List.Perm out (heap.set hole value))
    (fun heap hole parent hpos hparent _ ih hhole => by
      have hup : (hole - 1) / 2 < heap.length := by omega
      have hup' : (hole - 1) / 2 < (heap.set hole value).length := by simpa using hup
      have hhole' : hole < (heap.set hole value).length := by simpa using hhole
      -- the parent moved down and the value put in its place swap two entries
      have hswap : (heap.set hole parent).set ((hole - 1) / 2) value =
          ((heap.set hole value).set hole (heap.set hole value)[(hole - 1) / 2]).set
            ((hole - 1) / 2) (heap.set hole value)[hole] := by
        have hget : heap[(hole - 1) / 2] = parent :=
          Option.some.inj ((List.getElem?_eq_getElem hup).symm.trans hparent)
        simp [List.set_set, List.getElem_set_ne (show hole ≠ (hole - 1) / 2 by omega), hget]
      refine (ih (by simpa using hup)).trans ?_
      rw [hswap]
      exact set_swap_perm hhole' hup')
    (fun _ _ _ _ => List.Perm.refl _) heap hole

theorem pushHeap_perm (heap : List QueryContext) (value : QueryContext) :
    List.Perm (pushHeap heap value) (heap ++ [value]) := by
  have h := siftUp_perm value heap.length (heap ++ [value]) (by simp)
  rwa [List.set_append_right _ _ (le_refl _), Nat.sub_self, List.set_cons_zero] at h

@[simp]
theorem mem_pushHeap {heap : List QueryContext} {value x : QueryContext} :
    x ∈ pushHeap heap value ↔ x ∈ heap ∨ x = value := by
  simp [(pushHeap_perm heap value).mem_iff]

theorem nodup_pushHeap {heap : List QueryContext} {value : QueryContext} (hnodup : heap.Nodup)
    (hfresh : value ∉ heap) : (pushHeap heap value).Nodup :=
  (pushHeap_perm heap value).nodup_iff.mpr
    (List.nodup_append.mpr ⟨hnodup, List.nodup_singleton _, by simpa using hfresh⟩)

/-! ## Heap order

`std::push_heap` with `OrderQueryContextByDeadlineASC` keeps `sorted_queries` a heap for
that comparator: no entry's parent orders below it, so no entry is due before its parent
and the front is due first.  The sift works on a heap with a hole: the pairs of parent
and child off the hole are in order, the hole's children are due no earlier than its
parent, and the value held out is due no later than them. -/

/-- `std::is_heap` under `OrderQueryContextByDeadlineASC`: no entry's parent orders
below it. -/
def IsHeap (heap : List QueryContext) : Prop :=
  ∀ i, 0 < i → ∀ parent child, heap[(i - 1) / 2]? = some parent → heap[i]? = some child →
    orderByDeadline parent child = false

/-- What the sift needs of a heap with a hole at `hole` and `value` held out. -/
structure SiftOrder (heap : List QueryContext) (hole : Nat) (value : QueryContext) : Prop where
  /-- Every parent and child off the hole are in order. -/
  except : ∀ i, 0 < i → i ≠ hole → (i - 1) / 2 ≠ hole → ∀ parent child,
    heap[(i - 1) / 2]? = some parent → heap[i]? = some child → parent.deadline ≤ child.deadline
  /-- The hole's children are due no earlier than its parent. -/
  grand : 0 < hole → ∀ c, 0 < c → (c - 1) / 2 = hole → ∀ parent child,
    heap[(hole - 1) / 2]? = some parent → heap[c]? = some child → parent.deadline ≤ child.deadline
  /-- The value held out is due no later than the hole's children. -/
  below : ∀ c, 0 < c → (c - 1) / 2 = hole → ∀ child, heap[c]? = some child →
    value.deadline ≤ child.deadline

/-- A parent due after the value moves down into the hole, and the hole moves up. -/
theorem SiftOrder.move {heap : List QueryContext} {hole : Nat} {value parent : QueryContext}
    (o : SiftOrder heap hole value) (hpos : 0 < hole) (hlt : hole < heap.length)
    (hparent : heap[(hole - 1) / 2]? = some parent) (hlate : value.deadline < parent.deadline) :
    SiftOrder (heap.set hole parent) ((hole - 1) / 2) value := by
  have hread : ∀ {j x}, (heap.set hole parent)[j]? = some x →
      (j = hole ∧ x = parent) ∨ (j ≠ hole ∧ heap[j]? = some x) := by
    intro j x h
    by_cases hj : j = hole
    · subst hj; rw [List.getElem?_set_self hlt] at h; exact .inl ⟨rfl, (Option.some.inj h).symm⟩
    · rw [List.getElem?_set_ne (Ne.symm hj)] at h; exact .inr ⟨hj, h⟩
  -- the moved parent is due no later than the hole's other children
  have hsibling : ∀ c, 0 < c → (c - 1) / 2 = (hole - 1) / 2 → c ≠ hole → ∀ child,
      heap[c]? = some child → parent.deadline ≤ child.deadline := fun c hc hpc hch child h =>
    o.except c hc hch (by omega) parent child (hpc ▸ hparent) h
  have hup : 0 < (hole - 1) / 2 → ∀ g, heap[((hole - 1) / 2 - 1) / 2]? = some g →
      g.deadline ≤ parent.deadline :=
    fun hp g hg => o.except _ hp (by omega) (by omega) g parent hg hparent
  refine ⟨fun i hi hiq hpq p c hp hc => ?_, fun hp c hc hpc g child hg hch => ?_,
    fun c hc hpc child hch => ?_⟩
  · rcases hread hc with ⟨rfl, -⟩ | ⟨hih, hci⟩
    · exact absurd rfl hpq
    rcases hread hp with ⟨hph, rfl⟩ | ⟨hph, hpi⟩
    · exact o.grand hpos i hi hph p c hparent hci
    · exact o.except i hi hih hph p c hpi hci
  · rw [List.getElem?_set_ne (by omega)] at hg
    rcases hread hch with ⟨-, rfl⟩ | ⟨hch, h⟩
    · exact hup hp g hg
    · exact (hup hp g hg).trans (hsibling c hc hpc hch child h)
  · rcases hread hch with ⟨-, rfl⟩ | ⟨hch, h⟩
    · exact hlate.le
    · exact hlate.le.trans (hsibling c hc hpc hch child h)

/-- Filling the hole with the value, once its parent is due no later, leaves a heap. -/
theorem SiftOrder.finish {heap : List QueryContext} {hole : Nat} {value : QueryContext}
    (o : SiftOrder heap hole value) (hlt : hole < heap.length)
    (hstop : 0 < hole → ∀ parent, heap[(hole - 1) / 2]? = some parent →
      parent.deadline ≤ value.deadline) :
    IsHeap (heap.set hole value) := by
  intro i hi p c hp hc
  rw [orderByDeadline_eq_false]
  by_cases hih : i = hole
  · subst hih
    rw [List.getElem?_set_self hlt] at hc
    rw [List.getElem?_set_ne (by omega)] at hp
    cases hc
    exact hstop hi p hp
  · rw [List.getElem?_set_ne (Ne.symm hih)] at hc
    by_cases hph : (i - 1) / 2 = hole
    · rw [hph, List.getElem?_set_self hlt] at hp
      cases hp
      exact o.below i hi hph c hc
    · rw [List.getElem?_set_ne (Ne.symm hph)] at hp
      exact o.except i hi hih hph p c hp hc

/-- The loop of `std::push_heap` ends in a heap. -/
theorem siftUp_isHeap (value : QueryContext) :
    ∀ (hole : Nat) (heap : List QueryContext), hole < heap.length → SiftOrder heap hole value →
      IsHeap (siftUp heap value hole) := fun hole heap =>
  siftUp_induction value
    (fun heap hole out => hole < heap.length → SiftOrder heap hole value → IsHeap out)
    (fun _ _ _ hpos hparent hlate ih hlt o =>
      ih (by simp; omega) (o.move hpos hlt hparent hlate))
    (fun _ _ hstop hlt o => o.finish hlt hstop) heap hole

/-- `push_back` then `std::push_heap` keeps a heap a heap: the new last place has no
children, so the heap with its hole there is in order. -/
theorem pushHeap_isHeap {heap : List QueryContext} (hheap : IsHeap heap) (value : QueryContext) :
    IsHeap (pushHeap heap value) := by
  have hpast : ∀ c, 0 < c → (c - 1) / 2 = heap.length → (heap ++ [value])[c]? = none :=
    fun c _ hpc => List.getElem?_eq_none (by simp; omega)
  refine siftUp_isHeap value _ _ (by simp) ⟨fun i hi hih _ p c hp hc => ?_,
    fun _ c hc hpc _ _ _ hch => by simp [hpast c hc hpc] at hch,
    fun c hc hpc _ hch => by simp [hpast c hc hpc] at hch⟩
  have hin : i < heap.length := by
    have hlt := (List.getElem?_eq_some_iff.mp hc).1
    simp at hlt
    omega
  rw [List.getElem?_append_left hin] at hc
  rw [List.getElem?_append_left (by omega)] at hp
  exact orderByDeadline_eq_false.mp (hheap i hi p c hp hc)

/-- The front of a heap is due no later than any of its entries. -/
theorem IsHeap.front_le {heap : List QueryContext} (hheap : IsHeap heap) {front : QueryContext}
    (hfront : heap.head? = some front) : ∀ qctx ∈ heap, front.deadline ≤ qctx.deadline := by
  have hread : ∀ (i : Nat) (qctx : QueryContext), heap[i]? = some qctx →
      front.deadline ≤ qctx.deadline := by
    intro i
    induction i using Nat.strong_induction_on with
    | _ i ih =>
      intro qctx hq
      rcases Nat.eq_zero_or_pos i with rfl | hi
      · rw [← List.head?_eq_getElem?, hfront] at hq
        cases hq
        exact le_rfl
      · obtain ⟨hlt, -⟩ := List.getElem?_eq_some_iff.mp hq
        have hparent := List.getElem?_eq_getElem (show (i - 1) / 2 < heap.length by omega)
        exact (ih _ (by omega) _ hparent).trans
          (orderByDeadline_eq_false.mp (hheap i hi _ qctx hparent hq))
  intro qctx hq
  obtain ⟨i, hi⟩ := List.mem_iff_getElem?.mp hq
  exact hread i qctx hi

/-! ## The calls -/

namespace DelayedScheduler

variable (getBackend : Nat → Option BackendInfo) (db : ModelDatabase)

/-- `AddModelSession(model_session)`.  After `models_[mctx->string_id] = std::move(mctx)`,
`ModelSessionToProfileID(mctx->model_session)` reads through the emptied pointer, before
any instance is added. -/
def addModelSession (session : String) (s : DelayedScheduler) : DelayedScheduler × Option Fault :=
  let mctx : ModelSessionContext := ⟨session, ∅, []⟩
  if mctx.stringId ∈ s.models then (s, none)
  else ({ s with models := s.models.insert mctx.stringId mctx }, some .movedFrom)

/-- `AddBackend(backend_id)`, where `getBackend` is `dispatcher_.GetBackend`.  After
`backends_[backend_id] = std::move(bctx)`, the loop over `models_` reads
`bctx->delegate` through the emptied pointer at its first session. -/
def addBackend (backendId : Nat) (s : DelayedScheduler) : DelayedScheduler × Option Fault :=
  match getBackend backendId with
  | none => (s, none)
  | some delegate =>
    let bctx : BackendContext := ⟨backendId, delegate, ∅, 0⟩
    if bctx.backendId ∈ s.backends then (s, none)
    else
      let s := { s with backends := s.backends.insert backendId bctx }
      if s.models.entries.isEmpty then (s, none) else (s, some .movedFrom)

/-- The context `EnqueueQuery` makes of a query: its deadline is its arrival at the
frontend plus the session's latency SLA. -/
def queryContext (query : Query) : QueryContext :=
  ⟨query, query.globalId, query.frontendRecvNs + db.latencySla query.modelSessionId * 1000⟩

/-- `EnqueueQuery(query_without_input)`.  The query joins `queries_` before its session
is looked up. -/
def enqueueQuery (query : Query) (s : DelayedScheduler) : DelayedScheduler × Option Fault :=
  let qctx := queryContext db query
  if qctx.globalId ∈ s.queries then (s, none)
  else
    let s := { s with queries := s.queries.insert qctx.globalId qctx }
    match s.models.lookup qctx.proto.modelSessionId with
    | none => (s, some .outOfRange)
    | some mctx =>
      ({ s with
          models := s.models.insert qctx.proto.modelSessionId
            { mctx with sortedQueries := pushHeap mctx.sortedQueries qctx }
          posted := s.posted + 1 }, none)

/-- A call of the delayed scheduler. -/
inductive Call
  | addModelSession (session : String)
  | addBackend (backendId : Nat)
  | enqueueQuery (query : Query)

/-- One call. -/
def call (s : DelayedScheduler) : Call → DelayedScheduler × Option Fault
  | .addModelSession session => addModelSession session s
  | .addBackend backendId => addBackend getBackend backendId s
  | .enqueueQuery query => enqueueQuery db query s

/-- Runs calls in order until one stops short: the state, and the fault if any. -/
def run (s : DelayedScheduler) : List Call → DelayedScheduler × Option Fault
  | [] => (s, none)
  | c :: calls =>
    match call getBackend db s c with
    | (s', none) => run s' calls
    | stopped => stopped

/-! ## What each call does -/

variable {getBackend db}

theorem addModelSession_of_mem {session : String} {s : DelayedScheduler}
    (h : session ∈ s.models) : addModelSession session s = (s, none) := by
  simp [addModelSession, h]

/-- Once it has added a session, `AddModelSession` reads through the moved pointer. -/
theorem addModelSession_of_not_mem {session : String} {s : DelayedScheduler}
    (h : session ∉ s.models) :
    addModelSession session s =
      ({ s with models := s.models.insert session ⟨session, ∅, []⟩ }, some .movedFrom) := by
  simp [addModelSession, h]

/-- Once it has added a backend while some session is registered, `AddBackend` reads
through the moved pointer. -/
theorem addBackend_of_models {b : Nat} {delegate : BackendInfo} {s : DelayedScheduler}
    (hb : getBackend b = some delegate) (hfresh : b ∉ s.backends)
    (hmodels : s.models.entries ≠ []) :
    (addBackend getBackend b s).2 = some .movedFrom := by
  simp [addBackend, hb, hfresh, List.isEmpty_iff, hmodels]

/-- `AddBackend` leaves the sessions and the queries as it found them. -/
theorem addBackend_models_queries (b : Nat) (s : DelayedScheduler) :
    (addBackend getBackend b s).1.models = s.models ∧
      (addBackend getBackend b s).1.queries = s.queries := by
  unfold addBackend
  split
  · exact ⟨rfl, rfl⟩
  · dsimp only
    split_ifs <;> exact ⟨rfl, rfl⟩

theorem enqueueQuery_of_mem {query : Query} {s : DelayedScheduler}
    (h : query.globalId ∈ s.queries) : enqueueQuery db query s = (s, none) := by
  simp [enqueueQuery, queryContext, h]

/-- An `EnqueueQuery` for a session that `models_` does not hold throws after it stored
the query. -/
theorem enqueueQuery_of_lookup_none {query : Query} {s : DelayedScheduler}
    (hfresh : query.globalId ∉ s.queries) (hsession : s.models.lookup query.modelSessionId = none) :
    enqueueQuery db query s =
      ({ s with queries := s.queries.insert query.globalId (queryContext db query) },
        some .outOfRange) := by
  simp [enqueueQuery, queryContext, hfresh, hsession]

theorem enqueueQuery_of_lookup_some {query : Query} {s : DelayedScheduler}
    {mctx : ModelSessionContext} (hfresh : query.globalId ∉ s.queries)
    (hsession : s.models.lookup query.modelSessionId = some mctx) :
    enqueueQuery db query s =
      ({ s with
          queries := s.queries.insert query.globalId (queryContext db query)
          models := s.models.insert query.modelSessionId
            { mctx with sortedQueries := pushHeap mctx.sortedQueries (queryContext db query) }
          posted := s.posted + 1 }, none) := by
  simp [enqueueQuery, queryContext, hfresh, hsession]

/-! ## `queries_` and the heaps -/

/-- `queries_` and the heaps hold the same queries: a stored query is under its own
global id and in the heap of the session it names, and a heap holds, once each, stored
queries of its own session.  So each query is in exactly one heap. -/
structure QueriesAgree (s : DelayedScheduler) : Prop where
  stored : ∀ gid qctx, s.queries.lookup gid = some qctx → qctx.globalId = gid ∧
    ∃ mctx, s.models.lookup qctx.proto.modelSessionId = some mctx ∧ qctx ∈ mctx.sortedQueries
  queued : ∀ session mctx, s.models.lookup session = some mctx → mctx.sortedQueries.Nodup ∧
    ∀ qctx ∈ mctx.sortedQueries,
      qctx.proto.modelSessionId = session ∧ s.queries.lookup qctx.globalId = some qctx

theorem QueriesAgree.init : QueriesAgree init :=
  ⟨fun _ _ h => by simp [DelayedScheduler.init] at h,
    fun _ _ h => by simp [DelayedScheduler.init] at h⟩

/-- A successful `EnqueueQuery` keeps the agreement: the query joins `queries_` and the
heap of its session. -/
theorem QueriesAgree.enqueue {s : DelayedScheduler} (hagree : QueriesAgree s) {query : Query}
    {mctx : ModelSessionContext} (hfresh : query.globalId ∉ s.queries)
    (hsession : s.models.lookup query.modelSessionId = some mctx) :
    QueriesAgree (enqueueQuery db query s).1 := by
  rw [enqueueQuery_of_lookup_some hfresh hsession]
  set qctx := queryContext db query
  have hid : qctx.globalId = query.globalId := rfl
  have hsid : qctx.proto.modelSessionId = query.modelSessionId := rfl
  have hold : ∀ c, s.queries.lookup c.globalId = some c → c.globalId ≠ query.globalId :=
    fun c hc heq => hfresh (AList.lookup_isSome.mp (by rw [← heq, hc]; rfl))
  have hnew : qctx ∉ mctx.sortedQueries := fun hmem =>
    hold qctx ((hagree.queued _ _ hsession).2 qctx hmem).2 hid
  constructor
  · intro gid c hc
    by_cases hgid : gid = query.globalId
    · subst hgid
      simp only [AList.lookup_insert, Option.some.injEq] at hc
      subst hc
      exact ⟨hid, _, by rw [hsid, AList.lookup_insert], mem_pushHeap.mpr (.inr rfl)⟩
    · rw [AList.lookup_insert_ne hgid] at hc
      obtain ⟨rfl, mctx0, hmctx0, hmem⟩ := hagree.stored _ c hc
      refine ⟨rfl, ?_⟩
      by_cases hs : c.proto.modelSessionId = query.modelSessionId
      · rw [hs, hsession] at hmctx0
        cases hmctx0
        exact ⟨_, by rw [hs, AList.lookup_insert], mem_pushHeap.mpr (.inl hmem)⟩
      · exact ⟨mctx0, by rw [AList.lookup_insert_ne hs]; exact hmctx0, hmem⟩
  · intro session m hm
    by_cases hs : session = query.modelSessionId
    · subst hs
      simp only [AList.lookup_insert, Option.some.injEq] at hm
      subst hm
      obtain ⟨hnodup, hqueued⟩ := hagree.queued _ _ hsession
      refine ⟨nodup_pushHeap hnodup hnew, fun c hc => ?_⟩
      rcases mem_pushHeap.mp hc with hc | rfl
      · obtain ⟨hcs, hcq⟩ := hqueued c hc
        exact ⟨hcs, by rw [AList.lookup_insert_ne (hold c hcq)]; exact hcq⟩
      · exact ⟨hsid, by rw [hid, AList.lookup_insert]⟩
    · rw [AList.lookup_insert_ne hs] at hm
      obtain ⟨hnodup, hqueued⟩ := hagree.queued _ _ hm
      exact ⟨hnodup, fun c hc => ⟨(hqueued c hc).1,
        by rw [AList.lookup_insert_ne (hold c (hqueued c hc).2)]; exact (hqueued c hc).2⟩⟩

/-- Every call that returns keeps `queries_` and the heaps in agreement. -/
theorem QueriesAgree.step {s : DelayedScheduler} (hagree : QueriesAgree s) {c : Call}
    (h : (call getBackend db s c).2 = none) : QueriesAgree (call getBackend db s c).1 := by
  cases c with
  | addModelSession session =>
    by_cases hmem : session ∈ s.models
    · rwa [call, addModelSession_of_mem hmem]
    · simp [call, addModelSession_of_not_mem hmem] at h
  | addBackend b =>
    obtain ⟨hmodels, hqueries⟩ := @addBackend_models_queries getBackend b s
    exact ⟨fun gid qctx hq => by
        rw [call, hmodels]; rw [call, hqueries] at hq; exact hagree.stored gid qctx hq,
      fun session mctx hm => by
        rw [call, hqueries]; rw [call, hmodels] at hm; exact hagree.queued session mctx hm⟩
  | enqueueQuery query =>
    by_cases hfresh : query.globalId ∈ s.queries
    · rwa [call, enqueueQuery_of_mem hfresh]
    · cases hsession : s.models.lookup query.modelSessionId with
      | none => simp [call, enqueueQuery_of_lookup_none hfresh hsession] at h
      | some mctx => exact hagree.enqueue hfresh hsession

/-- An `EnqueueQuery` for a session that `models_` does not hold throws, and leaves its
query in `queries_` with no heap holding it: whatever agreement held before is gone. -/
theorem enqueueQuery_breaks_agreement {query : Query} {s : DelayedScheduler}
    (hfresh : query.globalId ∉ s.queries) (hsession : query.modelSessionId ∉ s.models) :
    (enqueueQuery db query s).2 = some .outOfRange ∧
      (enqueueQuery db query s).1.queries.lookup query.globalId = some (queryContext db query) ∧
      ¬ QueriesAgree (enqueueQuery db query s).1 := by
  rw [enqueueQuery_of_lookup_none hfresh (AList.lookup_eq_none.mpr hsession)]
  refine ⟨rfl, AList.lookup_insert _, fun hagree => ?_⟩
  obtain ⟨-, mctx, hmctx, -⟩ := hagree.stored _ _ (AList.lookup_insert _)
  have hfound : s.models.lookup query.modelSessionId = some mctx := hmctx
  exact hsession (AList.lookup_isSome.mp (by rw [hfound]; rfl))

/-- From the start, a query for session `"m"`, which no `AddModelSession` registered:
`EnqueueQuery` throws `std::out_of_range` and leaves global id `0` in `queries_`, while no
heap holds it. -/
theorem enqueue_for_unknown_session_keeps_query :
    QueriesAgree init ∧
      enqueueQuery Dispatch.System.noProfiles Dispatch.System.mQuery init =
        ({ init with
            queries := init.queries.insert 0 (queryContext Dispatch.System.noProfiles
              Dispatch.System.mQuery) }, some .outOfRange) ∧
      ¬ QueriesAgree (enqueueQuery Dispatch.System.noProfiles Dispatch.System.mQuery init).1 :=
  ⟨QueriesAgree.init, enqueueQuery_of_lookup_none (by decide) rfl,
    (enqueueQuery_breaks_agreement (by decide) (by decide)).2.2⟩

/-! ## Sessions meet backends -/

/-- The dispatcher knows one backend, node `1`. -/
def gpuOne (b : Nat) : Option BackendInfo := if b = 1 then some ⟨1, "gpu", "uuid-1"⟩ else none

/-- A database with a profile for every session on every GPU. -/
def everyProfile : ModelDatabase := ⟨fun _ => true, fun _ _ _ => some ⟨fun _ => 1, fun _ => 1⟩,
  fun _ => 100⟩

/-- Session `"m"` and backend `1`, which has a profile for it, are added in either order;
both runs stop at `AddModelSession`'s read through the moved pointer, and the session
that the first order registers has no instance on backend `1`. -/
theorem add_model_session_reads_moved_context :
    (run gpuOne everyProfile init [.addBackend 1, .addModelSession "m"]).2 = some .movedFrom ∧
      (run gpuOne everyProfile init [.addModelSession "m", .addBackend 1]).2 = some .movedFrom ∧
      ((run gpuOne everyProfile init [.addBackend 1, .addModelSession "m"]).1.models.lookup "m").map
        (fun mctx => mctx.instances.keyList) = some [] := by
  decide

/-! ## Runs -/

theorem run_cons_of_none {s : DelayedScheduler} {c : Call} {calls : List Call}
    (hc : (call getBackend db s c).2 = none) :
    run getBackend db s (c :: calls) = run getBackend db (call getBackend db s c).1 calls := by
  rcases hcall : call getBackend db s c with ⟨s', _ | f⟩
  · simp [run, hcall]
  · simp [hcall] at hc

theorem run_cons_of_some {s : DelayedScheduler} {c : Call} {calls : List Call}
    (hc : (call getBackend db s c).2 ≠ none) :
    run getBackend db s (c :: calls) = call getBackend db s c := by
  rcases hcall : call getBackend db s c with ⟨s', _ | f⟩
  · simp [hcall] at hc
  · simp [run, hcall]

/-- A delayed scheduler that holds no session and no query. -/
def Empty (s : DelayedScheduler) : Prop :=
  (∀ session, session ∉ s.models) ∧ ∀ gid, gid ∉ s.queries

/-- From a scheduler with no session and no query, a call that returns is an
`AddBackend` or the `EnqueueQuery` of a known global id, and leaves none. -/
theorem Empty.step {s : DelayedScheduler} (he : Empty s) {c : Call}
    (h : (call getBackend db s c).2 = none) : Empty (call getBackend db s c).1 := by
  cases c with
  | addModelSession session =>
    simp [call, addModelSession_of_not_mem (he.1 session)] at h
  | addBackend b =>
    obtain ⟨hmodels, hqueries⟩ := @addBackend_models_queries getBackend b s
    exact ⟨fun session => by rw [call, hmodels]; exact he.1 session,
      fun gid => by rw [call, hqueries]; exact he.2 gid⟩
  | enqueueQuery query =>
    simp [call, enqueueQuery_of_lookup_none (he.2 _) (AList.lookup_eq_none.mpr (he.1 _))] at h

theorem Empty.run {s : DelayedScheduler} (he : Empty s) {calls : List Call}
    (h : (DelayedScheduler.run getBackend db s calls).2 = none) :
    Empty (DelayedScheduler.run getBackend db s calls).1 := by
  induction calls generalizing s with
  | nil => exact he
  | cons c calls ih =>
    by_cases hc : (call getBackend db s c).2 = none
    · rw [run_cons_of_none hc] at h ⊢
      exact ih (he.step hc) h
    · rw [run_cons_of_some hc] at h
      exact absurd h hc

/-- In every sequence of calls from the start
that all return, `models_` and `queries_` stay empty: an `AddModelSession` that adds a
session and an `EnqueueQuery` of a new query never return. -/
theorem delayed_runs_stay_empty {calls : List Call} (h : (run getBackend db init calls).2 = none) :
    Empty (run getBackend db init calls).1 :=
  Empty.run ⟨fun _ => by simp [DelayedScheduler.init], fun _ => by simp [DelayedScheduler.init]⟩ h

theorem delayed_runs_stay_empty_backend :
    (run gpuOne everyProfile init [.addBackend 1, .addBackend 2]).2 = none ∧
      Empty (run gpuOne everyProfile init [.addBackend 1, .addBackend 2]).1 :=
  ⟨by decide, delayed_runs_stay_empty (by decide)⟩

/-! ## Heap order over runs -/

/-- Every session's `sorted_queries` is a heap under `OrderQueryContextByDeadlineASC`. -/
def HeapOrdered (models : Table String ModelSessionContext) : Prop :=
  ∀ session mctx, models.lookup session = some mctx → IsHeap mctx.sortedQueries

/-- The front of every session's `sorted_queries` is due no later than any query in it. -/
def FrontFirst (models : Table String ModelSessionContext) : Prop :=
  ∀ session mctx, models.lookup session = some mctx → ∀ front,
    mctx.sortedQueries.head? = some front →
    ∀ qctx ∈ mctx.sortedQueries, front.deadline ≤ qctx.deadline

theorem heapOrdered_init : HeapOrdered init.models :=
  fun _ _ h => by simp [DelayedScheduler.init] at h

theorem HeapOrdered.insert {models : Table String ModelSessionContext} (h : HeapOrdered models)
    {session : String} {mctx : ModelSessionContext} (hheap : IsHeap mctx.sortedQueries) :
    HeapOrdered (models.insert session mctx) := by
  intro session' mctx' hlookup
  by_cases hs : session' = session
  · subst hs
    rw [AList.lookup_insert] at hlookup
    cases hlookup
    exact hheap
  · rw [AList.lookup_insert_ne hs] at hlookup
    exact h _ _ hlookup

theorem HeapOrdered.frontFirst {models : Table String ModelSessionContext}
    (h : HeapOrdered models) :
    FrontFirst models :=
  fun session mctx hm _ hfront => (h session mctx hm).front_le hfront

/-- Every call keeps the heaps, the calls that stop short included: `AddModelSession`
adds an empty heap, and `EnqueueQuery` pushes on a heap or on none. -/
theorem HeapOrdered.step {s : DelayedScheduler} (h : HeapOrdered s.models) (c : Call) :
    HeapOrdered (call getBackend db s c).1.models := by
  cases c with
  | addModelSession session =>
    by_cases hmem : session ∈ s.models
    · rwa [call, addModelSession_of_mem hmem]
    · rw [call, addModelSession_of_not_mem hmem]
      exact h.insert fun _ _ _ _ hp => by simp at hp
  | addBackend b => rw [call, (addBackend_models_queries b s).1]; exact h
  | enqueueQuery query =>
    by_cases hfresh : query.globalId ∈ s.queries
    · rwa [call, enqueueQuery_of_mem hfresh]
    · cases hsession : s.models.lookup query.modelSessionId with
      | none => rwa [call, enqueueQuery_of_lookup_none hfresh hsession]
      | some mctx =>
        rw [call, enqueueQuery_of_lookup_some hfresh hsession]
        exact h.insert (pushHeap_isHeap (h _ _ hsession) _)

theorem HeapOrdered.run {s : DelayedScheduler} (h : HeapOrdered s.models) (calls : List Call) :
    HeapOrdered (DelayedScheduler.run getBackend db s calls).1.models := by
  induction calls generalizing s with
  | nil => exact h
  | cons c calls ih =>
    by_cases hc : (call getBackend db s c).2 = none
    · rw [run_cons_of_none hc]
      exact ih (h.step c)
    · rw [run_cons_of_some hc]
      exact h.step c

/-- From any scheduler whose heaps are heaps under
`OrderQueryContextByDeadlineASC` (the freshly constructed one among them), every sequence
of calls, and so every sequence of `EnqueueQuery` calls, leaves each session's
`sorted_queries` a heap whose front is due no later than any query in it. -/
theorem deadline_heap_order {s : DelayedScheduler} (hs : HeapOrdered s.models) (calls : List Call) :
    HeapOrdered (run getBackend db s calls).1.models ∧
      FrontFirst (run getBackend db s calls).1.models :=
  have h : HeapOrdered (run getBackend db s calls).1.models := hs.run calls
  ⟨h, h.frontFirst⟩

/-- Three queries of session `"m"`, due at `300`, `100` and `200` ns plus the SLA. -/
def enqueueThree : List Call :=
  [.enqueueQuery ⟨"m", 1, 300, 0, 0⟩, .enqueueQuery ⟨"m", 2, 100, 0, 0⟩,
    .enqueueQuery ⟨"m", 3, 200, 0, 0⟩]

/-- On the empty heap that `AddModelSession` leaves for `"m"`, the three `EnqueueQuery`
calls all return, and leave a heap with the earliest query at the front. -/
theorem deadline_heap_order_three :
    HeapOrdered (addModelSession "m" init).1.models ∧
      (run gpuOne Dispatch.System.noProfiles (addModelSession "m" init).1 enqueueThree).2 = none ∧
      HeapOrdered (run gpuOne Dispatch.System.noProfiles (addModelSession "m" init).1
          enqueueThree).1.models ∧
      FrontFirst (run gpuOne Dispatch.System.noProfiles (addModelSession "m" init).1
          enqueueThree).1.models := by
  have h0 : HeapOrdered (addModelSession "m" init).1.models := by
    rw [addModelSession_of_not_mem (by simp [DelayedScheduler.init])]
    exact heapOrdered_init.insert fun _ _ _ _ hp => by simp at hp
  exact ⟨h0, by decide, deadline_heap_order h0 enqueueThree⟩

end DelayedScheduler

end NexusLb.Delayed
