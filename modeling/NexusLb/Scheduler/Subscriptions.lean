import NexusLb.Scheduler.Weights
import NexusLb.Scheduler.Frame

/-!
# Frontend subscriptions and `UnregisterFrontend`

`RemoveFrontend` reads `session_table_.at(session)` for every session the departing
frontend subscribes to, and dereferences `GetBackend` of every backend in the weights of a
session it removes; neither fails from a reachable state.  Every session a registered
frontend subscribes to is in `session_table_` and lists the frontend among its subscribers
(`Subscribed`): only `RemoveFrontend` removes a session, once no subscriber is left, only
`LoadModel` adds a subscription, and every other handler keeps the frontends and each
session's subscribers (`KeepsSubscribers`); with the weights naming the backends that
serve a session (`Consistent`), the departure goes through
(`unregister_frontend_completes`).
-/

namespace NexusLb.Sched

namespace Scheduler

variable {cfg : Config} {policy : Policy} {db : ModelDatabase}

/-- Every session a registered frontend subscribes to is in `session_table_` with the
frontend among its subscribers, and a frontend subscribes to a session once. -/
structure Subscribed (s : Scheduler) : Prop where
  nodup : ∀ f frontend, s.frontends.lookup f = some frontend → frontend.subscribeModels.Nodup
  listed : ∀ f frontend, s.frontends.lookup f = some frontend →
    ∀ session ∈ frontend.subscribeModels,
      ∃ info, s.sessionTable.lookup session = some info ∧ f ∈ info.subscribers

theorem Subscribed.keeps {s s' : Scheduler} (hp : Subscribed s) (h : KeepsSubscribers s s') :
    Subscribed s' := by
  refine ⟨fun f frontend hf => hp.nodup f frontend (h.frontends ▸ hf),
    fun f frontend hf session hsession => ?_⟩
  obtain ⟨info, hinfo, hsub⟩ := hp.listed f frontend (h.frontends ▸ hf) session hsession
  obtain ⟨info', hinfo', hsame⟩ := h.sessions session info hinfo
  exact ⟨info', hinfo', hsame ▸ hsub⟩

theorem Subscribed.init : Subscribed init :=
  ⟨fun _ _ h => (by cases h), fun _ _ h => (by cases h)⟩

/-! ### Backends that join and leave

`Frame` covers the loops these handlers share with the others; what is left is the
joining backend's pin and the departing backend's hand-over. -/

section Keeps

theorem keepsSubscribers_registerBackend {s s' : Scheduler} {info : BackendInfo}
    (h : registerBackend cfg policy info s = some s') : KeepsSubscribers s s' := by
  unfold Scheduler.registerBackend at h
  split at h
  · cases h
  unfold Scheduler.addBackend at h
  dsimp only at h
  have hjoin : KeepsSubscribers s
      { s with backends := s.backends.insert info.nodeId (.fresh info) } :=
    .of_sessionTable rfl rfl
  split at h
  · rename_i id _
    obtain ⟨⟨s2, changes⟩, hpin, h⟩ := Option.bind_eq_some.mp h
    have hpinned : Untouched _ (pinStaticWorkload cfg policy (.fresh info) id
        { s with backends := s.backends.insert info.nodeId (.fresh info) }).1 :=
      untouched_pinStaticWorkload _ _ _
    rw [Option.some.inj hpin] at hpinned
    exact (hjoin.trans (KeepsSubscribers.trans (by exact .of_sessionTable rfl rfl)
      hpinned.keepsSubscribers)).trans (.publish h)
  · obtain ⟨⟨s2, changes⟩, halloc, h⟩ := Option.bind_eq_some.mp h
    exact (hjoin.trans (untouched_allocateUnassignedWorkloads halloc).keepsSubscribers).trans
      (.publish h)

theorem keepsSubscribers_dropWeights (d : Nat) (acc : Scheduler × Changes) (session : String) :
    KeepsSubscribers acc.1 (dropWeights d acc session).1 := by
  unfold dropWeights
  split
  · exact .modifySession (by intro; rfl)
  · exact .refl _

theorem keepsSubscribers_moveBackup {d a : Nat} {acc acc' : Scheduler × Changes}
    {session : String} (h : moveBackup d a acc session = some acc') :
    KeepsSubscribers acc.1 acc'.1 := by
  obtain ⟨_, -, h⟩ := Option.bind_eq_some.mp h
  cases h
  exact .modifySession (by intro; rfl)

theorem keepsSubscribers_dropBackup {d : Nat} {acc acc' : Scheduler × Changes}
    {session : String} (h : dropBackup d acc session = some acc') :
    KeepsSubscribers acc.1 acc'.1 := by
  obtain ⟨_, -, h⟩ := Option.bind_eq_some.mp h
  split at h <;> cases h
  · exact .modifySession (by intro; rfl)
  · exact .refl _

theorem keepsSubscribers_migrate {departing assigned : BackendDelegate} {a : Nat}
    {acc acc' : Scheduler × Changes} (h : migrate departing a assigned acc = some acc') :
    KeepsSubscribers acc.1 acc'.1 := by
  unfold Scheduler.migrate at h
  obtain ⟨s1, hloop, h⟩ := Option.bind_eq_some.mp h
  have h1 : KeepsSubscribers acc.1 s1 := KeepsSubscribers.trans
    (by exact .of_sessionTable rfl rfl) (.foldlM_atSession (by intro _ _; rfl) hloop)
  refine foldlM_invariant (fun acc' : Scheduler × Changes => KeepsSubscribers acc.1 acc'.1)
    (fun _ _ _ _ hacc hstep => hacc.trans (keepsSubscribers_moveBackup hstep)) ?_ h
  split
  · exact h1.trans (.of_sessionTable rfl rfl)
  · exact h1

theorem keepsSubscribers_requeue {departing : BackendDelegate} {acc acc' : Scheduler × Changes}
    (h : requeue policy departing acc = some acc') : KeepsSubscribers acc.1 acc'.1 := by
  unfold Scheduler.requeue at h
  obtain ⟨⟨s1, changes⟩, hloop, h⟩ := Option.bind_eq_some.mp h
  have h1 : KeepsSubscribers acc.1 s1 :=
    foldlM_invariant (fun acc' : Scheduler × Changes => KeepsSubscribers acc.1 acc'.1)
      (fun _ _ _ _ hacc hstep => hacc.trans (keepsSubscribers_dropBackup hstep)) (.refl _) hloop
  dsimp only at h
  split at h
  · cases h; exact h1.trans (.of_sessionTable rfl rfl)
  · obtain ⟨s2, hloop2, h⟩ := Option.bind_eq_some.mp h
    exact (h1.trans (.foldlM_atSession (by intro _ _; rfl) hloop2)).trans
      (untouched_allocateUnassignedWorkloads h).keepsSubscribers

theorem keepsSubscribers_unregisterBackend {s s' : Scheduler} {b : Nat}
    (h : unregisterBackend policy b s = some s') : KeepsSubscribers s s' := by
  obtain ⟨departing, -, h⟩ := Option.bind_eq_some.mp h
  have hleave : KeepsSubscribers s { s with backends := s.backends.erase departing.nodeId } :=
    .of_sessionTable rfl rfl
  unfold Scheduler.removeBackend at h
  split at h
  · cases h; exact hleave
  have hdrop := hleave.trans (KeepsSubscribers.foldl (keepsSubscribers_dropWeights departing.nodeId)
    (l := departing.getModelSessions) (_, ⟨[], []⟩))
  dsimp only at h
  split at h
  · obtain ⟨⟨s3, changes⟩, hmove, h⟩ := Option.bind_eq_some.mp h
    exact (hdrop.trans (keepsSubscribers_migrate hmove)).trans (.publish h)
  · obtain ⟨⟨s3, changes⟩, hmove, h⟩ := Option.bind_eq_some.mp h
    exact (hdrop.trans (keepsSubscribers_requeue hmove)).trans (.publish h)

end Keeps

/-! ### Subscribing and unsubscribing -/

/-- A frontend that joins subscribes to nothing. -/
theorem Subscribed.registerFrontend {s s' : Scheduler} (hp : Subscribed s) {frontend : Nat}
    (h : registerFrontend frontend s = some s') : Subscribed s' := by
  unfold Scheduler.registerFrontend at h
  split at h
  · cases h
  cases h
  have hjoined : ∀ f delegate, (s.frontends.insert frontend ⟨[]⟩).lookup f = some delegate →
      delegate = ⟨[]⟩ ∨ s.frontends.lookup f = some delegate := fun f delegate hf => by
    by_cases hff : f = frontend
    · subst f
      simp only [AList.lookup_insert, Option.some.injEq] at hf
      exact .inl hf.symm
    · exact .inr ((AList.lookup_insert_ne hff).symm.trans hf)
  constructor
  · intro f delegate hf
    rcases hjoined f delegate hf with rfl | hf
    · exact List.nodup_nil
    · exact hp.nodup f delegate hf
  · intro f delegate hf session hsession
    rcases hjoined f delegate hf with rfl | hf
    · cases hsession
    · exact hp.listed f delegate hf session hsession

/-- `LoadModel`'s subscription of a frontend to a session in the table. -/
theorem Subscribed.subscribe {s : Scheduler} (hp : Subscribed s) {frontend : Nat}
    {session : String} (hmem : session ∈ s.sessionTable) :
    Subscribed (s.subscribe frontend session) := by
  have hgrow : ∀ f session',
      (∃ info, s.sessionTable.lookup session' = some info ∧ f ∈ info.subscribers) →
      ∃ info, (s.subscribe frontend session).sessionTable.lookup session' = some info ∧
        f ∈ info.subscribers := by
    rintro f session' ⟨info, hinfo, hf⟩
    by_cases hsame : session' = session
    · subst session'
      exact ⟨info.subscribe frontend, by simp [Scheduler.subscribe, hinfo],
        List.mem_insert_of_mem hf⟩
    · exact ⟨info, by simp [Scheduler.subscribe, Table.lookup_modify_ne hsame, hinfo], hf⟩
  constructor
  · intro f delegate hf
    simp only [Scheduler.subscribe, Table.lookup_modify] at hf
    split at hf
    · obtain ⟨delegate, hdelegate, rfl⟩ := Option.map_eq_some'.mp hf
      exact (hp.nodup _ delegate hdelegate).insert
    · exact hp.nodup f delegate hf
  · intro f delegate hf session' hsession'
    simp only [Scheduler.subscribe, Table.lookup_modify] at hf
    split at hf
    · rename_i hff
      subst hff
      obtain ⟨delegate, hdelegate, rfl⟩ := Option.map_eq_some'.mp hf
      rcases List.mem_insert_iff.mp hsession' with rfl | hold
      · obtain ⟨info, hinfo⟩ := Option.isSome_iff_exists.mp (AList.lookup_isSome.mpr hmem)
        exact ⟨info.subscribe f, by simp [Scheduler.subscribe, hinfo], List.mem_insert_self _ _⟩
      · exact hgrow _ _ (hp.listed _ delegate hdelegate session' hold)
    · exact hgrow _ _ (hp.listed f delegate hf session' hsession')

theorem Subscribed.loadModel {s s' : Scheduler} (hp : Subscribed s) {request : LoadModelRequest}
    {reply : LoadModelReply} (h : s.loadModel policy db request = some (reply, s')) :
    Subscribed s' := by
  rcases loadModel_cases policy h with rfl | ⟨hmem, rfl⟩ | ⟨assigned, -, -, rfl⟩
  · exact hp
  · exact hp.subscribe hmem
  · unfold commitSession
    have hloaded :=
      (Untouched.foldl (f := loadAssigned policy) untouched_loadAssigned (l := assigned) (s,
        ∅)).keepsSubscribers
    generalize assigned.foldl (loadAssigned policy) (s, ∅) = out at hloaded
    obtain ⟨s1, weights⟩ := out
    exact ((hp.keeps hloaded).keeps .emplace).subscribe (Table.mem_emplace.mpr (.inl rfl))

/-- A session whose last subscriber left can go: no registered frontend subscribes
to it. -/
theorem Subscribed.eraseSession {s : Scheduler} (hp : Subscribed s) {session : String}
    {info : SessionInfo} (hinfo : s.sessionTable.lookup session = some info)
    (hempty : info.subscribers = []) :
    Subscribed { s with sessionTable := s.sessionTable.erase session } := by
  refine ⟨hp.nodup, fun f delegate hf session' hsession' => ?_⟩
  obtain ⟨info', hinfo', hsub⟩ := hp.listed f delegate hf session' hsession'
  by_cases hsame : session' = session
  · subst session'
    rw [hinfo, Option.some.injEq] at hinfo'
    subst hinfo'
    rw [hempty] at hsub
    cases hsub
  · exact ⟨info', (AList.lookup_erase_ne hsame).trans hinfo', hsub⟩

/-- What one subscription of a departing frontend does to the tables: the session's
subscribers lose the frontend, and the session goes once none is left. -/
theorem unsubscribeSession_tables {frontend : Nat} {session : String}
    {acc acc' : Scheduler × List Nat} (h : unsubscribeSession frontend acc session = some acc') :
    ∃ info, acc.1.sessionTable.lookup session = some info ∧
      acc'.1.frontends = acc.1.frontends ∧ acc'.1.sessionTable =
        if (info.unsubscribe frontend).1 then
          (acc.1.sessionTable.insert session (info.unsubscribe frontend).2).erase session
        else acc.1.sessionTable.insert session (info.unsubscribe frontend).2 := by
  obtain ⟨info, hinfo, h⟩ := Option.bind_eq_some.mp h
  refine ⟨info, hinfo, ?_⟩
  generalize info.unsubscribe frontend = out at h ⊢
  obtain ⟨remove, left⟩ := out
  cases remove
  · cases h; exact ⟨rfl, rfl⟩
  · obtain ⟨⟨s2, updated⟩, hloop, h⟩ := Option.bind_eq_some.mp h
    cases h
    obtain ⟨hfrontends, htable⟩ := foldlM_invariant (fun acc' : Scheduler × List Nat =>
        acc'.1.frontends = acc.1.frontends ∧
          acc'.1.sessionTable = acc.1.sessionTable.insert session left)
      (fun _ _ _ _ hacc hstep => by obtain rfl := unloadFrom_eq_some hstep; exact hacc)
      (by exact ⟨rfl, rfl⟩) hloop
    exact ⟨hfrontends, congrArg (AList.erase session) htable⟩

/-- One subscription of a departing frontend, which is no longer registered. -/
theorem Subscribed.unsubscribeSession {frontend : Nat} {session : String}
    {acc acc' : Scheduler × List Nat} (hp : Subscribed acc.1)
    (hgone : frontend ∉ acc.1.frontends) (h : unsubscribeSession frontend acc session = some acc') :
    Subscribed acc'.1 ∧ frontend ∉ acc'.1.frontends := by
  obtain ⟨info, hinfo, hfrontends, htable⟩ := unsubscribeSession_tables h
  have hleft : Subscribed { acc.1 with
      sessionTable := acc.1.sessionTable.insert session (info.unsubscribe frontend).2 } := by
    refine ⟨hp.nodup, fun f delegate hf session' hsession' => ?_⟩
    obtain ⟨info', hinfo', hsub⟩ := hp.listed f delegate hf session' hsession'
    by_cases hsame : session' = session
    · subst session'
      rw [hinfo, Option.some.injEq] at hinfo'
      subst hinfo'
      have hff : f ≠ frontend := fun heq =>
        hgone (AList.lookup_isSome.mp (by rw [← heq, hf]; rfl))
      exact ⟨_, AList.lookup_insert _, (List.mem_erase_of_ne hff).mpr hsub⟩
    · exact ⟨info', (AList.lookup_insert_ne hsame).trans hinfo', hsub⟩
  refine ⟨?_, by rw [hfrontends]; exact hgone⟩
  split at htable
  · rename_i hempty
    have herased := hleft.eraseSession (AList.lookup_insert _) (List.isEmpty_iff.mp hempty)
    exact herased.keeps (.of_sessionTable hfrontends htable)
  · exact hleft.keeps (.of_sessionTable hfrontends htable)

theorem Subscribed.unregisterFrontend {s s' : Scheduler} (hp : Subscribed s) {frontend : Nat}
    (h : unregisterFrontend frontend s = some s') : Subscribed s' := by
  obtain ⟨_, -, h⟩ := Option.bind_eq_some.mp h
  obtain ⟨⟨s1, updated⟩, hloop, h⟩ := Option.bind_eq_some.mp h
  cases h
  have hkept : ∀ f delegate, (s.frontends.erase frontend).lookup f = some delegate →
      s.frontends.lookup f = some delegate := fun f delegate hf => by
    by_cases hff : f = frontend
    · subst f; rw [AList.lookup_erase] at hf; cases hf
    · rwa [AList.lookup_erase_ne hff] at hf
  have hleft : Subscribed { s with frontends := s.frontends.erase frontend } :=
    ⟨fun f delegate hf => hp.nodup f delegate (hkept f delegate hf),
      fun f delegate hf => hp.listed f delegate (hkept f delegate hf)⟩
  have hloop' := foldlM_invariant
    (fun acc : Scheduler × List Nat => Subscribed acc.1 ∧ frontend ∉ acc.1.frontends)
    (fun _ _ _ _ hacc hstep => Subscribed.unsubscribeSession (And.left hacc) (And.right hacc) hstep)
    ⟨hleft, fun hmem => (AList.mem_erase.mp hmem).1 rfl⟩ hloop
  exact hloop'.1.keeps (.of_sessionTable rfl rfl)

/-! ### Runs -/

theorem Subscribed.step {s s' : Scheduler} (hp : Subscribed s) {action : Action}
    (h : step cfg policy db s action = some s') : Subscribed s' := by
  cases action with
  | registerFrontend frontend => exact hp.registerFrontend h
  | registerBackend info => exact hp.keeps (keepsSubscribers_registerBackend h)
  | unregisterFrontend frontend => exact hp.unregisterFrontend h
  | unregisterBackend b => exact hp.keeps (keepsSubscribers_unregisterBackend h)
  | loadModel request =>
    obtain ⟨⟨reply, s'⟩, hload, rfl⟩ := Option.map_eq_some'.mp h
    exact hp.loadModel hload
  | reportWorkload request => exact hp.keeps (untouched_reportWorkload h).keepsSubscribers
  | beaconCheck =>
    obtain ⟨⟨trigger, s'⟩, hbeacon, rfl⟩ := Option.map_eq_some'.mp h
    exact hp.keeps (untouched_beaconCheck hbeacon).keepsSubscribers
  | epochSchedule => exact hp.keeps (untouched_epochSchedule h).keepsSubscribers

theorem Reachable.subscribed {s : Scheduler} (hs : Reachable cfg policy db s) : Subscribed s := by
  induction hs with
  | init => exact Subscribed.init
  | step _ hstep ih => exact ih.step hstep

/-! ### `UnregisterFrontend` goes through -/

/-- `RemoveFrontend`'s unloading of a removed session: `GetBackend` finds every
backend. -/
theorem foldlM_unloadFrom_isSome (session : String) :
    ∀ {bs : List Nat} (acc : Scheduler × List Nat), (∀ b ∈ bs, b ∈ acc.1.backends) →
      (bs.foldlM (unloadFrom session) acc).isSome
  | [], _, _ => rfl
  | b :: bs, acc, hbs => by
    obtain ⟨backend, hb⟩ :=
      Option.isSome_iff_exists.mp (AList.lookup_isSome.mpr (hbs b (.head _)))
    have hstep : unloadFrom session acc b =
        some (acc.1.modifyBackend b (BackendDelegate.unloadModel session), acc.2.insert b) := by
      simp [unloadFrom, hb]
    rw [List.foldlM_cons, hstep, Option.bind_eq_bind, Option.some_bind]
    exact foldlM_unloadFrom_isSome session _ fun b' hb' => by
      simpa only [backends_modifyBackend, Table.mem_modify] using hbs b' (.tail _ hb')

/-- One subscription of a departing frontend goes through when its session is in the
table and the records agree with the backends. -/
theorem unsubscribeSession_isSome (frontend : Nat) {session : String}
    {acc : Scheduler × List Nat} (hc : Consistent (fun _ => 0) acc.1)
      (hmem : session ∈ acc.1.sessionTable) :
    (unsubscribeSession frontend acc session).isSome := by
  obtain ⟨info, hinfo⟩ := Option.isSome_iff_exists.mp (AList.lookup_isSome.mpr hmem)
  have hregistered : ∀ b ∈ info.backendWeights.keyList, b ∈ acc.1.backends := fun b hb => by
    obtain ⟨backend, hbackend, -⟩ := hc.serving hinfo (Table.mem_keyList.mp hb)
    exact AList.lookup_isSome.mp (by rw [hbackend]; rfl)
  simp only [unsubscribeSession, hinfo, SessionInfo.unsubscribe, Option.bind_eq_bind,
    Option.some_bind]
  split
  · obtain ⟨out, hout⟩ := Option.isSome_iff_exists.mp
      (foldlM_unloadFrom_isSome session ({ acc.1 with
        sessionTable := acc.1.sessionTable.insert session
          { info with subscribers := info.subscribers.erase frontend } }, acc.2) hregistered)
    rw [hout]
    rfl
  · rfl

/-- The loop over a departing frontend's subscriptions goes through when they are
distinct sessions of the table and the records agree with the backends. -/
theorem foldlM_unsubscribeSession_isSome (frontend : Nat) :
    ∀ {sessions : List String} (acc : Scheduler × List Nat), sessions.Nodup →
      Consistent (fun _ => 0) acc.1 → (∀ session ∈ sessions, session ∈ acc.1.sessionTable) →
      (sessions.foldlM (unsubscribeSession frontend) acc).isSome
  | [], _, _, _, _ => rfl
  | session :: sessions, acc, hnodup, hc, hmem => by
    obtain ⟨acc', hstep⟩ := Option.isSome_iff_exists.mp
      (unsubscribeSession_isSome frontend hc (hmem session (.head _)))
    obtain ⟨info, -, -, htable⟩ := unsubscribeSession_tables hstep
    have hrest : ∀ session' ∈ sessions, session' ∈ acc'.1.sessionTable := by
      intro session' hs'
      have hne : session' ≠ session := fun heq => (List.nodup_cons.mp hnodup).1 (heq ▸ hs')
      have hkept := hmem session' (.tail _ hs')
      rw [htable]
      split <;> simp [AList.mem_erase, AList.mem_insert, hne, hkept]
    rw [List.foldlM_cons, hstep, Option.bind_eq_bind, Option.some_bind]
    exact foldlM_unsubscribeSession_isSome frontend _ (List.nodup_cons.mp hnodup).2
      (hc.unsubscribeSession hstep) hrest

theorem unregisterFrontend_isSome {s : Scheduler} (hc : Consistent (fun _ => 0) s)
    (hp : Subscribed s)
    {frontend : Nat} (hf : frontend ∈ s.frontends) : (unregisterFrontend frontend s).isSome := by
  obtain ⟨delegate, hdelegate⟩ := Option.isSome_iff_exists.mp (AList.lookup_isSome.mpr hf)
  have hmem : ∀ session ∈ delegate.subscribeModels, session ∈ s.sessionTable :=
    fun session hsession => by
      obtain ⟨info, hinfo, -⟩ := hp.listed frontend delegate hdelegate session hsession
      exact AList.lookup_isSome.mp (by rw [hinfo]; rfl)
  obtain ⟨out, hout⟩ := Option.isSome_iff_exists.mp
    (foldlM_unsubscribeSession_isSome frontend
      ({ s with frontends := s.frontends.erase frontend },
        []) (hp.nodup frontend delegate hdelegate) (hc.congr rfl rfl) hmem)
  simp only [unregisterFrontend, removeFrontend, hdelegate, hout, Option.bind_eq_bind,
    Option.some_bind]
  rfl

/-- From every reachable state, `UnregisterFrontend` of a registered frontend goes
through: every session it subscribes to is in `session_table_`, and every backend in the
weights of a session it removes is registered. -/
theorem unregister_frontend_completes {s : Scheduler} (hs : Reachable cfg policy db s)
    {frontend : Nat} (hf : frontend ∈ s.frontends) :
    (step cfg policy db s (.unregisterFrontend frontend)).isSome :=
  unregisterFrontend_isSome hs.serving hs.subscribed hf

/-- Frontend `7` subscribes to the static session of backend `1`; its departure removes
the session and unloads it from the backend. -/
def subscribedState : Scheduler :=
  (run pinningConfig pinningPolicy anyModel init
    [.registerFrontend 7, .registerBackend ⟨1, "gpu", "uuid-1"⟩, .loadModel ⟨7, "s", 5⟩]).getD init

theorem unregister_frontend_completes_subscribed :
    7 ∈ subscribedState.frontends ∧
      (step pinningConfig pinningPolicy anyModel subscribedState (.unregisterFrontend 7)).isSome ∧
      (step pinningConfig pinningPolicy anyModel subscribedState (.unregisterFrontend 7)).map
        (fun s => s.sessionTable.keyList) = some [] :=
  ⟨by decide, unregister_frontend_completes (reachable_getD_run _ _ _ (by decide)) (by decide),
    by decide⟩

end Scheduler

end NexusLb.Sched
