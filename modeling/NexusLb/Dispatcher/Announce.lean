import NexusLb.Dispatcher.Frame

/-!
# Every frontend hears of every backend

A frontend registration and a backend registration each add their node under the
lock, and each copies the other side's table in a later critical section; whichever
copy comes second sees the other node.  The invariant says, for every registered
frontend and backend, how the frontend has been or will be told: it was sent the
backend, its own registration has yet to list the backends (or holds a list with the
backend in it), or the backend's registration has yet to copy `frontends_` (or holds a
copy with the frontend in it).  So once all calls have returned, every registered
frontend has been sent every registered backend's `BackendInfo`.
-/

namespace NexusLb.Dispatch

namespace System

variable (db : ModelDatabase)

open Dispatcher

/-- How frontend `f` learns of the backend with identity `info`. -/
inductive Announced (s : System) (f : Nat) (info : BackendInfo) : Prop
  /-- It was sent an `UpdateBackendList` holding the backend. -/
  | sent (infos : List BackendInfo) (h : Effect.updateBackendList f infos ∈ s.dispatcher.effects)
      (hinfo : info ∈ infos)
  /-- Its registration has yet to list the backends. -/
  | listing (h : Pending.frontendListing f ∈ s.pending)
  /-- Its registration listed the backends, this one among them. -/
  | notifying (infos : List BackendInfo) (h : Pending.frontendNotify f infos ∈ s.pending)
      (hinfo : info ∈ infos)
  /-- The backend's registration has yet to copy `frontends_`. -/
  | loading (sessions : List String) (h : Pending.backendLoading info sessions ∈ s.pending)
  /-- The backend's registration copied `frontends_` and has yet to send to `f`. -/
  | announcing (frontends : List Nat) (h : Pending.backendNotify info frontends ∈ s.pending)
      (hf : f ∈ frontends)

/-- Every registered frontend learns of every registered backend. -/
def AllAnnounced (s : System) : Prop :=
  ∀ f ∈ s.dispatcher.frontends, ∀ {b info}, s.dispatcher.infoOf b = some info → Announced s f info

theorem mem_backendInfos {d : Dispatcher} {b : Nat} {info : BackendInfo}
    (h : d.infoOf b = some info) : info ∈ d.backendInfos := by
  obtain ⟨backend, hb, rfl⟩ := Option.map_eq_some'.mp h
  exact List.mem_map.mpr ⟨⟨b, backend⟩, AList.mem_lookup_iff.mp hb, rfl⟩

/-- A way of learning of a backend stays one while the calls made only grow and the
calls in flight stay in flight. -/
theorem Announced.keep {s s' : System} {f : Nat} {info : BackendInfo}
    (he : s.dispatcher.effects <+: s'.dispatcher.effects) (hp : ∀ p ∈ s.pending, p ∈ s'.pending) :
    Announced s f info → Announced s' f info
  | .sent infos h hinfo => .sent infos (he.subset h) hinfo
  | .listing h => .listing (hp _ h)
  | .notifying infos h hinfo => .notifying infos (hp _ h) hinfo
  | .loading sessions h => .loading sessions (hp _ h)
  | .announcing frontends h hf => .announcing frontends (hp _ h) hf

/-- A call in flight moving on keeps every way of learning of a backend, the ways
that rest on the call itself included. -/
theorem Announced.resume {s : System} {call : Pending} {now dispatchNs : Nat} {d' : Dispatcher}
    {next : Option Pending} (h : resumeCall db now dispatchNs s.dispatcher call = some (d', next))
    {f : Nat} (hf : f ∈ s.dispatcher.frontends) {b : Nat} {info : BackendInfo}
    (hb : s.dispatcher.infoOf b = some info) (hw : Announced s f info) :
    Announced ⟨d', s.pending.erase call ++ next.toList⟩ f info := by
  have he := resumeCall_effects db h
  have hkeep : ∀ p ∈ s.pending, p ≠ call → p ∈ s.pending.erase call ++ next.toList :=
    fun p hp hne => List.mem_append_left _ ((List.mem_erase_of_ne hne).mpr hp)
  have hnext : ∀ {p}, next = some p → p ∈ s.pending.erase call ++ next.toList := by
    rintro p rfl; simp
  cases hw with
  | sent infos hsent hinfo => exact .sent infos (he.subset hsent) hinfo
  | listing hl =>
    by_cases hc : Pending.frontendListing f = call
    · subst hc; cases h
      exact .notifying _ (hnext rfl) (mem_backendInfos hb)
    · exact .listing (hkeep _ hl hc)
  | notifying infos hn hinfo =>
    by_cases hc : Pending.frontendNotify f infos = call
    · subst hc; cases h
      exact .sent infos (by simp) hinfo
    · exact .notifying infos (hkeep _ hn hc) hinfo
  | loading sessions hl =>
    by_cases hc : Pending.backendLoading info sessions = call
    · subst hc
      cases sessions with
      | nil => cases h; exact .announcing _ (hnext rfl) (by simpa using hf)
      | cons sessionKey sessions => cases h; exact .loading sessions (hnext rfl)
    · exact .loading sessions (hkeep _ hl hc)
  | announcing frontends hn hfs =>
    by_cases hc : Pending.backendNotify info frontends = call
    · subst hc
      cases frontends with
      | nil => cases hfs
      | cons frontend frontends =>
        cases h
        rcases List.mem_cons.mp hfs with rfl | hfs
        · exact .sent [info] (by simp) (List.mem_singleton_self _)
        · exact .announcing frontends (hnext rfl) hfs
    · exact .announcing frontends (hkeep _ hn hc) hfs

theorem Transition.allAnnounced {s s' : System} (h : Transition db s s') (hall : AllAnnounced s) :
    AllAnnounced s' := by
  have hg := h.grows
  have hgrow : ∀ {pending : List Pending}, s.pending ⊆ s.pending ++ pending :=
    fun hp => List.mem_append_left _ hp
  intro f hf b info hb
  cases h with
  | stutter => exact hall f hf hb
  | registerFrontend frontend hnew =>
    rcases (AList.mem_insert _).mp hf with rfl | hf
    · exact .listing (by simp)
    · exact (hall f hf hb).keep hg.effects hgrow
  | registerBackend info' hnew =>
    rw [infoOf_insert] at hb
    split at hb
    · cases hb
      exact .loading s.dispatcher.sessions.keyList (by simp)
    · exact (hall f hf hb).keep hg.effects hgrow
  | loadModel session hload =>
    rcases handleLoadModel_ok db hload with rfl | ⟨-, hfe, hi, -, -⟩
    · exact hall f hf hb
    · exact (hall f (hfe ▸ hf) (hi ▸ hb)).keep hg.effects (fun _ => id)
  | updateModelRoutes routes =>
    obtain ⟨hsame, -⟩ := updateModelRoutes_sameNodes routes s.dispatcher
    exact (hall f (hsame.frontends ▸ hf) (hsame.infoOf ▸ hb)).keep hg.effects (fun _ => id)
  | @dispatch query status backend d' hlocked =>
    obtain ⟨hsame, -⟩ := dispatchLocked_ok hlocked
    exact (hall f (hsame.frontends ▸ hf) ((congrFun hsame.infoOf b).symm.trans hb)).keep
      hg.effects hgrow
  | @resume call now dispatchNs d' next hmem hres =>
    have hsame := resumeCall_sameNodes db hres
    have hf' : f ∈ s.dispatcher.frontends := hsame.frontends ▸ hf
    have hb' : s.dispatcher.infoOf b = some info := (congrFun hsame.infoOf b).symm.trans hb
    exact (hall f hf' hb').resume db hres hf' hb'

theorem reachable_allAnnounced {s : System} (h : Reachable db s) : AllAnnounced s := by
  induction h with
  | init => intro f hf; simp [init, Dispatcher.init] at hf
  | step _ hstep ih => exact (step_transition db hstep).allAnnounced db ih

/-- Once all calls have returned, every registered frontend has been sent the
`BackendInfo` of every registered backend in some `UpdateBackendList`. -/
theorem frontends_see_every_backend {s : System} (hs : Reachable db s) (hdone : s.pending = [])
    {f : Nat} (hf : f ∈ s.dispatcher.frontends) {b : Nat} {info : BackendInfo}
    (hb : s.dispatcher.infoOf b = some info) :
    ∃ infos, Effect.updateBackendList f infos ∈ s.dispatcher.effects ∧ info ∈ infos := by
  cases reachable_allAnnounced db hs f hf hb with
  | sent infos h hinfo => exact ⟨infos, h, hinfo⟩
  | listing h | notifying _ h _ | loading _ h | announcing _ h _ => simp [hdone] at h

/-- A database with no models, for runs that only register nodes. -/
def noModels : ModelDatabase := ⟨fun _ => false, fun _ _ _ => none, fun _ => 0⟩

/-- A frontend and a backend register at once: both are added before either copies
the other's table, so each side tells the frontend. -/
def crossedRegistrations : List Action :=
  let gpu : BackendInfo := ⟨2, "gpu", "uuid"⟩
  [.registerFrontend 1, .registerBackend gpu,
    .resume (.frontendListing 1) 0 0, .resume (.backendLoading gpu []) 0 0,
    .resume (.frontendNotify 1 [gpu]) 0 0, .resume (.backendNotify gpu [1]) 0 0,
    .resume (.backendNotify gpu []) 0 0]

/-- Where `crossedRegistrations` ends. -/
def crossedAfterRegistration : System := (run noModels init crossedRegistrations).getD init

theorem frontends_see_every_backend_crossed :
    crossedAfterRegistration.pending = [] ∧ 1 ∈ crossedAfterRegistration.dispatcher.frontends ∧
      crossedAfterRegistration.dispatcher.infoOf 2 = some ⟨2, "gpu", "uuid"⟩ ∧
      ∃ infos, Effect.updateBackendList 1 infos ∈ crossedAfterRegistration.dispatcher.effects ∧
        (⟨2, "gpu", "uuid"⟩ : BackendInfo) ∈ infos := by
  have hs : Reachable noModels crossedAfterRegistration := reachable_getD_run noModels (by decide)
  have hdone : crossedAfterRegistration.pending = [] := by decide
  have hf : 1 ∈ crossedAfterRegistration.dispatcher.frontends := by decide
  have hb : crossedAfterRegistration.dispatcher.infoOf 2 = some ⟨2, "gpu", "uuid"⟩ := by decide
  exact ⟨hdone, hf, hb, frontends_see_every_backend noModels hs hdone hf hb⟩

end System

end NexusLb.Dispatch
