import NexusLb.Scheduler.Subscriptions

/-!
# Frontends and sessions mirror each other's subscriptions

A subscription is recorded at both ends, in the frontend's `subscribe_models` and in
the session's `session_subscribers`; `LoadModel` writes both, `RemoveFrontend` erases
both, and no other handler writes either.  Read from the sessions' end, every
subscriber of a session is a registered frontend that lists the session (`Mirrored`):
the other handlers create sessions only without subscribers and keep the subscribers
of every session they keep (`SubscribersFrom`).  So in every reachable state a frontend
lists a session exactly when the session lists it (`subscriptions_mirrored`), and
`UnregisterFrontend` removes exactly the sessions whose only subscriber it was
(`unregister_frontend_removes_orphaned_sessions`).
-/

namespace NexusLb.Sched

namespace Scheduler

variable {cfg : Config} {policy : Policy} {db : ModelDatabase}

/-- Every session of `s'` has no subscribers, or was a session of `s` with the same
subscribers; the frontends are kept. -/
structure SubscribersFrom (s s' : Scheduler) : Prop where
  frontends : s'.frontends = s.frontends
  sessions : ∀ session info', s'.sessionTable.lookup session = some info' →
    info'.subscribers = [] ∨
      ∃ info, s.sessionTable.lookup session = some info ∧ info'.subscribers = info.subscribers

namespace SubscribersFrom

variable {s s' s'' : Scheduler}

theorem refl (s : Scheduler) : SubscribersFrom s s := ⟨rfl, fun _ info h => .inr ⟨info, h, rfl⟩⟩

theorem trans (h : SubscribersFrom s s') (h' : SubscribersFrom s' s'') : SubscribersFrom s s'' := by
  refine ⟨h'.frontends.trans h.frontends, fun session info'' hinfo'' => ?_⟩
  rcases h'.sessions session info'' hinfo'' with hnone | ⟨info', hinfo', hsame'⟩
  · exact .inl hnone
  rcases h.sessions session info' hinfo' with hnone | ⟨info, hinfo, hsame⟩
  · exact .inl (hsame'.trans hnone)
  · exact .inr ⟨info, hinfo, hsame'.trans hsame⟩

theorem of_sessionTable (hfrontends : s'.frontends = s.frontends)
    (htable : s'.sessionTable = s.sessionTable) : SubscribersFrom s s' :=
  ⟨hfrontends, fun _ info h => .inr ⟨info, htable ▸ h, rfl⟩⟩

theorem modifySession {session : String} {f : SessionInfo → SessionInfo}
    (hf : ∀ info, (f info).subscribers = info.subscribers) :
    SubscribersFrom s (s.modifySession session f) := by
  refine ⟨rfl, fun session' info' h => .inr ?_⟩
  rw [sessionTable_modifySession, Table.lookup_modify] at h
  split at h
  · obtain ⟨info, hinfo, rfl⟩ := Option.map_eq_some'.mp h
    exact ⟨info, hinfo, hf info⟩
  · exact ⟨info', h, rfl⟩

theorem modifyBackend {b : Nat} {f : BackendDelegate → BackendDelegate} :
    SubscribersFrom s (s.modifyBackend b f) :=
  of_sessionTable rfl rfl

theorem insertBackend {b : Nat} {backend : BackendDelegate} :
    SubscribersFrom s { s with backends := s.backends.insert b backend } :=
  of_sessionTable rfl rfl

/-- A session created where none was, with no subscribers. -/
theorem emplace {session : String} {info : SessionInfo} (hempty : info.subscribers = []) :
    SubscribersFrom s { s with sessionTable := s.sessionTable.emplace session info } := by
  refine ⟨rfl, fun session' info' h => ?_⟩
  change (s.sessionTable.emplace session info).lookup session' = _ at h
  rw [Table.lookup_emplace] at h
  cases hold : s.sessionTable.lookup session' with
  | some old =>
    rw [hold, Option.or_some] at h
    exact .inr ⟨old, rfl, by rw [Option.some.inj h]⟩
  | none =>
    rw [hold, Option.none_or] at h
    split at h
    · cases h; exact .inl hempty
    · cases h

theorem foldlM_atSession {α : Type} {l : List α} {key : α → String}
    {f : α → SessionInfo → SessionInfo}
    (hf : ∀ x info, (f x info).subscribers = info.subscribers)
    (h : l.foldlM (fun s x => s.atSession (key x) (f x)) s = some s') : SubscribersFrom s s' :=
  foldlM_invariant (SubscribersFrom s) (fun _ x _ _ hacc hstep => by
    obtain ⟨-, rfl⟩ := atSession_eq_some.mp hstep
    exact hacc.trans (modifySession (hf x))) (refl s) h

theorem foldl {α β : Type} {l : List α} {f : Scheduler × β → α → Scheduler × β}
    (hf : ∀ acc x, SubscribersFrom acc.1 (f acc x).1) (acc : Scheduler × β) :
    SubscribersFrom acc.1 (l.foldl f acc).1 := by
  induction l generalizing acc with
  | nil => exact refl _
  | cons x l ih => exact (hf acc x).trans (ih _)

theorem publish {backends : List Nat} {sessions : List String}
    (h : (s.updateModelTables backends).updateModelRoutes sessions = some s') :
    SubscribersFrom s s' := by
  obtain ⟨effects, rfl⟩ := updateModelRoutes_frame h
  exact of_sessionTable rfl rfl

end SubscribersFrom

/-! ### The handlers that leave subscriptions alone -/

section Handlers

theorem subscribersFrom_place (session : String) (s : Scheduler) (b : Nat) (inst : InstanceInfo) :
    SubscribersFrom s ((s.modifyBackend b (BackendDelegate.loadModel inst)).modifySession session
      fun info => { info with
        backendWeights := info.backendWeights.emplace b (inst.getWeight policy) }) :=
  SubscribersFrom.modifyBackend.trans (.modifySession (by intro; rfl))

theorem subscribersFrom_allocateUnassignedWorkloads {s s' : Scheduler} {changes changes' : Changes}
    (h : allocateUnassignedWorkloads policy s changes = some (s', changes')) :
    SubscribersFrom s s' :=
  allocateUnassignedWorkloads_induction SubscribersFrom .refl .trans
    (fun session s b _ inst _ _ => subscribersFrom_place session s b inst)
    (fun _ _ _ => .modifySession (by intro; rfl)) h

theorem subscribersFrom_recordStaticSession (backend : BackendDelegate) (acc : Scheduler × Changes)
    (session : String) : SubscribersFrom acc.1 (recordStaticSession policy backend acc session).1 :=
  (SubscribersFrom.emplace rfl).trans (.modifySession (by intro; rfl))

theorem subscribersFrom_recordBackupSession (b : Nat) (acc : Scheduler × Changes)
    (session : String) : SubscribersFrom acc.1 (recordBackupSession b acc session).1 := by
  dsimp only [recordBackupSession]
  split
  · split
    · exact .emplace rfl
    · exact (SubscribersFrom.emplace rfl).trans (.modifySession (by intro; rfl))
  · exact .emplace rfl

theorem subscribersFrom_pinStaticWorkload (backend : BackendDelegate) (id : Nat) (s : Scheduler) :
    SubscribersFrom { s with
        assignedStaticWorkloads := s.assignedStaticWorkloads.insert id backend.nodeId
        backends := s.backends.insert backend.nodeId (loadStaticWorkload cfg policy backend id) }
      (pinStaticWorkload cfg policy backend id s).1 :=
  (SubscribersFrom.foldl (subscribersFrom_recordStaticSession _) (_, ⟨[], [backend.nodeId]⟩)).trans
    (SubscribersFrom.foldl (subscribersFrom_recordBackupSession _) _)

theorem subscribersFrom_registerBackend {s s' : Scheduler} {info : BackendInfo}
    (h : registerBackend cfg policy info s = some s') : SubscribersFrom s s' := by
  unfold Scheduler.registerBackend at h
  split at h
  · cases h
  unfold Scheduler.addBackend at h
  dsimp only at h
  have hjoin : SubscribersFrom s
      { s with backends := s.backends.insert info.nodeId (.fresh info) } :=
    .of_sessionTable rfl rfl
  split at h
  · rename_i id _
    obtain ⟨⟨s2, changes⟩, hpin, h⟩ := Option.bind_eq_some.mp h
    have hpinned : SubscribersFrom _ (pinStaticWorkload cfg policy (.fresh info) id
        { s with backends := s.backends.insert info.nodeId (.fresh info) }).1 :=
      subscribersFrom_pinStaticWorkload _ _ _
    rw [Option.some.inj hpin] at hpinned
    exact (hjoin.trans (SubscribersFrom.trans (by exact .of_sessionTable rfl rfl) hpinned)).trans
      (.publish h)
  · obtain ⟨⟨s2, changes⟩, halloc, h⟩ := Option.bind_eq_some.mp h
    exact (hjoin.trans (subscribersFrom_allocateUnassignedWorkloads halloc)).trans (.publish h)

theorem subscribersFrom_reportWorkload {s s' : Scheduler} {request : WorkloadStats}
    (h : reportWorkload request s = some s') : SubscribersFrom s s' := by
  unfold Scheduler.reportWorkload at h
  split at h
  · exact .foldlM_atSession (by intro _ _; rfl) h
  · cases h

theorem subscribersFrom_beaconCheck {s s' : Scheduler} {trigger : Bool}
    (h : beaconCheck cfg s = some (trigger, s')) : SubscribersFrom s s' := by
  obtain ⟨_, -, hs⟩ := Option.map_eq_some'.mp h
  cases hs
  clear h
  generalize s.sessionTable.keyList = sessions
  induction sessions generalizing s with
  | nil => exact .refl _
  | cons session sessions ih => exact (SubscribersFrom.modifySession (by intro; rfl)).trans ih

theorem subscribersFrom_spillOut {s s' : Scheduler} {b : Nat} (h : spillOut policy s b = some s') :
    SubscribersFrom s s' := by
  unfold spillOut at h
  split at h
  · cases h; exact .refl s
  · rename_i backend _
    generalize backend.spillOutWorkload policy = out at h
    obtain ⟨spilled, rest⟩ := out
    exact SubscribersFrom.insertBackend.trans (.foldlM_atSession (by intro _ _; rfl) h)

theorem subscribersFrom_epochSchedule {s s' : Scheduler}
    (h : epochSchedule cfg policy s = some s') :
    SubscribersFrom s s' :=
  epochSchedule_induction SubscribersFrom .refl .trans
    (fun _ _ _ _ _ _ => SubscribersFrom.insertBackend.trans (.modifySession (by intro; rfl)))
    (fun _ _ _ _ _ _ _ => SubscribersFrom.insertBackend.trans (.modifySession (by intro; rfl)))
    (fun _ _ _ => .modifySession (by intro; rfl))
    (fun session s b _ inst _ _ => subscribersFrom_place session s b inst)
    (fun _ _ _ _ => subscribersFrom_spillOut) (fun _ _ _ _ => .publish) h

theorem subscribersFrom_dropWeights (d : Nat) (acc : Scheduler × Changes) (session : String) :
    SubscribersFrom acc.1 (dropWeights d acc session).1 := by
  unfold dropWeights
  split
  · exact .modifySession (by intro; rfl)
  · exact .refl _

theorem subscribersFrom_moveBackup {d a : Nat} {acc acc' : Scheduler × Changes}
    {session : String} (h : moveBackup d a acc session = some acc') :
    SubscribersFrom acc.1 acc'.1 := by
  obtain ⟨_, -, h⟩ := Option.bind_eq_some.mp h
  cases h
  exact .modifySession (by intro; rfl)

theorem subscribersFrom_dropBackup {d : Nat} {acc acc' : Scheduler × Changes}
    {session : String} (h : dropBackup d acc session = some acc') :
    SubscribersFrom acc.1 acc'.1 := by
  obtain ⟨_, -, h⟩ := Option.bind_eq_some.mp h
  split at h <;> cases h
  · exact .modifySession (by intro; rfl)
  · exact .refl _

theorem subscribersFrom_migrate {departing assigned : BackendDelegate} {a : Nat}
    {acc acc' : Scheduler × Changes} (h : migrate departing a assigned acc = some acc') :
    SubscribersFrom acc.1 acc'.1 := by
  unfold Scheduler.migrate at h
  obtain ⟨s1, hloop, h⟩ := Option.bind_eq_some.mp h
  have h1 : SubscribersFrom acc.1 s1 := SubscribersFrom.trans
    (by exact .of_sessionTable rfl rfl) (.foldlM_atSession (by intro _ _; rfl) hloop)
  refine foldlM_invariant (fun acc' : Scheduler × Changes => SubscribersFrom acc.1 acc'.1)
    (fun _ _ _ _ hacc hstep => hacc.trans (subscribersFrom_moveBackup hstep)) ?_ h
  split
  · exact h1.trans (.of_sessionTable rfl rfl)
  · exact h1

theorem subscribersFrom_requeue {departing : BackendDelegate} {acc acc' : Scheduler × Changes}
    (h : requeue policy departing acc = some acc') : SubscribersFrom acc.1 acc'.1 := by
  unfold Scheduler.requeue at h
  obtain ⟨⟨s1, changes⟩, hloop, h⟩ := Option.bind_eq_some.mp h
  have h1 : SubscribersFrom acc.1 s1 :=
    foldlM_invariant (fun acc' : Scheduler × Changes => SubscribersFrom acc.1 acc'.1)
      (fun _ _ _ _ hacc hstep => hacc.trans (subscribersFrom_dropBackup hstep)) (.refl _) hloop
  dsimp only at h
  split at h
  · cases h; exact h1.trans (.of_sessionTable rfl rfl)
  · obtain ⟨s2, hloop2, h⟩ := Option.bind_eq_some.mp h
    exact (h1.trans (.foldlM_atSession (by intro _ _; rfl) hloop2)).trans
      (subscribersFrom_allocateUnassignedWorkloads h)

theorem subscribersFrom_unregisterBackend {s s' : Scheduler} {b : Nat}
    (h : unregisterBackend policy b s = some s') : SubscribersFrom s s' := by
  obtain ⟨departing, -, h⟩ := Option.bind_eq_some.mp h
  have hleave : SubscribersFrom s { s with backends := s.backends.erase departing.nodeId } :=
    .of_sessionTable rfl rfl
  unfold Scheduler.removeBackend at h
  split at h
  · cases h; exact hleave
  have hdrop := hleave.trans (SubscribersFrom.foldl (subscribersFrom_dropWeights departing.nodeId)
    (l := departing.getModelSessions) (_, ⟨[], []⟩))
  dsimp only at h
  split at h
  · obtain ⟨⟨s3, changes⟩, hmove, h⟩ := Option.bind_eq_some.mp h
    exact (hdrop.trans (subscribersFrom_migrate hmove)).trans (.publish h)
  · obtain ⟨⟨s3, changes⟩, hmove, h⟩ := Option.bind_eq_some.mp h
    exact (hdrop.trans (subscribersFrom_requeue hmove)).trans (.publish h)

end Handlers

/-! ### The sessions' end -/

/-- Every subscriber of a session is a registered frontend that lists the session, and a
session lists a subscriber once. -/
structure Mirrored (s : Scheduler) : Prop where
  nodup : ∀ session info, s.sessionTable.lookup session = some info → info.subscribers.Nodup
  listed : ∀ session info, s.sessionTable.lookup session = some info → ∀ f ∈ info.subscribers,
    ∃ frontend, s.frontends.lookup f = some frontend ∧ session ∈ frontend.subscribeModels

theorem Mirrored.init : Mirrored init :=
  ⟨fun _ _ h => (by cases h), fun _ _ h => (by cases h)⟩

theorem Mirrored.keeps {s s' : Scheduler} (hm : Mirrored s) (h : SubscribersFrom s s') :
    Mirrored s' := by
  refine ⟨fun session info' hinfo' => ?_, fun session info' hinfo' f hf => ?_⟩ <;>
    rcases h.sessions session info' hinfo' with hnone | ⟨info, hinfo, hsame⟩
  · rw [hnone]; exact List.nodup_nil
  · rw [hsame]; exact hm.nodup session info hinfo
  · rw [hnone] at hf; cases hf
  · rw [h.frontends]
    exact hm.listed session info hinfo f (hsame ▸ hf)

/-- A frontend that joins is a subscriber of nothing yet. -/
theorem Mirrored.registerFrontend {s s' : Scheduler} (hm : Mirrored s) {frontend : Nat}
    (h : registerFrontend frontend s = some s') : Mirrored s' := by
  unfold Scheduler.registerFrontend at h
  split at h
  · cases h
  rename_i hnew
  cases h
  refine ⟨hm.nodup, fun session info hinfo f hf => ?_⟩
  obtain ⟨delegate, hdelegate, hsession⟩ := hm.listed session info hinfo f hf
  have hff : f ≠ frontend := by
    rintro rfl
    exact hnew (AList.lookup_isSome.mp (by rw [hdelegate]; rfl))
  exact ⟨delegate, (AList.lookup_insert_ne hff).trans hdelegate, hsession⟩

/-- `LoadModel`'s subscription of a registered frontend to a session. -/
theorem Mirrored.subscribe {s : Scheduler} (hm : Mirrored s) {frontend : Nat} {session : String}
    (hf : frontend ∈ s.frontends) : Mirrored (s.subscribe frontend session) := by
  -- a subscriber from before still lists its session
  have hkeep : ∀ x info g, s.sessionTable.lookup x = some info → g ∈ info.subscribers →
      ∃ delegate', (s.subscribe frontend session).frontends.lookup g = some delegate' ∧
        x ∈ delegate'.subscribeModels := by
    intro x info g hinfo hg
    obtain ⟨delegate, hdelegate, hx⟩ := hm.listed x info hinfo g hg
    rw [Scheduler.subscribe, Table.lookup_modify]
    split
    · exact ⟨_, by rw [hdelegate]; rfl, List.mem_insert_of_mem hx⟩
    · exact ⟨delegate, hdelegate, hx⟩
  refine ⟨fun x info' hinfo' => ?_, fun x info' hinfo' g hg => ?_⟩
  all_goals rw [Scheduler.subscribe, Table.lookup_modify] at hinfo'
  · split at hinfo'
    · obtain ⟨info, hinfo, rfl⟩ := Option.map_eq_some'.mp hinfo'
      exact (hm.nodup _ info hinfo).insert
    · exact hm.nodup x info' hinfo'
  · split at hinfo'
    · rename_i hx
      subst hx
      obtain ⟨info, hinfo, rfl⟩ := Option.map_eq_some'.mp hinfo'
      rcases List.mem_insert_iff.mp hg with rfl | hg
      · obtain ⟨delegate, hdelegate⟩ := Option.isSome_iff_exists.mp (AList.lookup_isSome.mpr hf)
        refine ⟨delegate.subscribeModel x, ?_, List.mem_insert_self _ _⟩
        rw [Scheduler.subscribe, Table.lookup_modify_self, hdelegate]
        rfl
      · exact hkeep x info g hinfo hg
    · exact hkeep x info' g hinfo' hg

theorem Mirrored.loadModel {s s' : Scheduler} (hm : Mirrored s) {request : LoadModelRequest}
    {reply : LoadModelReply} (h : s.loadModel policy db request = some (reply, s')) :
    Mirrored s' := by
  by_cases hf : request.nodeId ∈ s.frontends
  · rcases loadModel_cases policy h with rfl | ⟨-, rfl⟩ | ⟨assigned, -, -, rfl⟩
    · exact hm
    · exact hm.subscribe hf
    · unfold commitSession
      have hloaded := SubscribersFrom.foldl (fun _ _ => .of_sessionTable rfl rfl)
        (f := loadAssigned policy) (l := assigned) (s, ∅)
      generalize assigned.foldl (loadAssigned policy) (s, ∅) = out at hloaded
      obtain ⟨s1, weights⟩ := out
      exact ((hm.keeps hloaded).keeps (.emplace rfl)).subscribe (hloaded.frontends ▸ hf)
  · unfold Scheduler.loadModel at h
    dsimp only at h
    split at h
    · cases h; exact hm
    · cases h; exact hm

/-- While `RemoveFrontend` takes frontend `f` out of the sessions `pending`, starting from
state `s`: each session's subscribers are distinct, every subscriber but `f` is a
frontend of `s` that lists the session, and `f` is a subscriber only of sessions still
pending. -/
def Leaving (s : Scheduler) (f : Nat) (pending : List String) (t : Scheduler) : Prop :=
  ∀ session info, t.sessionTable.lookup session = some info → info.subscribers.Nodup ∧
    (∀ g ∈ info.subscribers, g ≠ f →
      ∃ frontend, s.frontends.lookup g = some frontend ∧ session ∈ frontend.subscribeModels) ∧
    (f ∈ info.subscribers → session ∈ pending)

/-- One pass of `RemoveFrontend`'s loop takes `f` out of the session it visits. -/
theorem Leaving.pass {s : Scheduler} {f : Nat} {session : String}
    {pending : List String} {acc acc' : Scheduler × List Nat}
    (hl : Leaving s f (session :: pending) acc.1)
    (h : unsubscribeSession f acc session = some acc') : Leaving s f pending acc'.1 := by
  obtain ⟨info, hinfo, -, htable⟩ := unsubscribeSession_tables h
  obtain ⟨hnodup, hsubs, -⟩ := hl session info hinfo
  intro x info' hx
  by_cases hxs : x = session
  · subst hxs
    have hleft : info' = (info.unsubscribe f).2 := by
      split at htable <;> rw [htable] at hx
      · rw [AList.lookup_erase] at hx; cases hx
      · rw [AList.lookup_insert] at hx; exact (Option.some.inj hx).symm
    subst hleft
    exact ⟨hnodup.erase f, fun g hg hgf => hsubs g (List.mem_of_mem_erase hg) hgf,
      fun hmem => absurd hmem hnodup.not_mem_erase⟩
  · have hsame : acc.1.sessionTable.lookup x = some info' := by
      split at htable <;> rw [htable] at hx
      · rwa [AList.lookup_erase_ne hxs, AList.lookup_insert_ne hxs] at hx
      · rwa [AList.lookup_insert_ne hxs] at hx
    obtain ⟨hnodup', hsubs', hpending⟩ := hl x info' hsame
    exact ⟨hnodup', hsubs', fun hmem => (List.mem_cons.mp (hpending hmem)).resolve_left hxs⟩

theorem Leaving.foldlM {s : Scheduler} {f : Nat} :
    ∀ {pending : List String} {acc acc' : Scheduler × List Nat}, Leaving s f pending acc.1 →
      pending.foldlM (unsubscribeSession f) acc = some acc' →
      Leaving s f [] acc'.1 ∧ acc'.1.frontends = acc.1.frontends
  | [], _, _, hl, h => by cases h; exact ⟨hl, rfl⟩
  | _ :: _, _, _, hl, h => by
    obtain ⟨acc1, hstep, hrest⟩ := Option.bind_eq_some.mp h
    obtain ⟨_, -, hfrontends, -⟩ := unsubscribeSession_tables hstep
    obtain ⟨hleft, hfrontends'⟩ := Leaving.foldlM (hl.pass hstep) hrest
    exact ⟨hleft, hfrontends'.trans hfrontends⟩

/-- `UnregisterFrontend` takes the frontend out of every session it lists, and by
`Mirrored` these are all the sessions it is a subscriber of. -/
theorem Mirrored.unregisterFrontend {s s' : Scheduler} (hm : Mirrored s) {frontend : Nat}
    (h : unregisterFrontend frontend s = some s') : Mirrored s' := by
  obtain ⟨delegate, hdelegate, h⟩ := Option.bind_eq_some.mp h
  obtain ⟨⟨t, updated⟩, hloop, h⟩ := Option.bind_eq_some.mp h
  cases h
  have hstart : Leaving s frontend delegate.subscribeModels
      { s with frontends := s.frontends.erase frontend } := fun session info hinfo =>
    ⟨hm.nodup session info hinfo, fun g hg _ => hm.listed session info hinfo g hg, fun hf => by
      obtain ⟨delegate', hdelegate', hsession⟩ := hm.listed session info hinfo frontend hf
      obtain rfl := Option.some.inj (hdelegate.symm.trans hdelegate')
      exact hsession⟩
  obtain ⟨hleft, hfrontends⟩ := Leaving.foldlM hstart hloop
  refine ⟨fun session info hinfo => (hleft session info hinfo).1, fun session info hinfo g hg => ?_⟩
  obtain ⟨-, hsubs, hgone⟩ := hleft session info hinfo
  have hgf : g ≠ frontend := by rintro rfl; cases hgone hg
  obtain ⟨delegate', hdelegate', hsession⟩ := hsubs g hg hgf
  refine ⟨delegate', ?_, hsession⟩
  change t.frontends.lookup g = _
  rw [hfrontends]
  exact (AList.lookup_erase_ne hgf).trans hdelegate'

theorem Mirrored.step {s s' : Scheduler} (hm : Mirrored s) {action : Action}
    (h : step cfg policy db s action = some s') : Mirrored s' := by
  cases action with
  | registerFrontend frontend => exact hm.registerFrontend h
  | registerBackend info => exact hm.keeps (subscribersFrom_registerBackend h)
  | unregisterFrontend frontend => exact hm.unregisterFrontend h
  | unregisterBackend b => exact hm.keeps (subscribersFrom_unregisterBackend h)
  | loadModel request =>
    obtain ⟨⟨reply, s'⟩, hload, rfl⟩ := Option.map_eq_some'.mp h
    exact hm.loadModel hload
  | reportWorkload request => exact hm.keeps (subscribersFrom_reportWorkload h)
  | beaconCheck =>
    obtain ⟨⟨trigger, s'⟩, hbeacon, rfl⟩ := Option.map_eq_some'.mp h
    exact hm.keeps (subscribersFrom_beaconCheck hbeacon)
  | epochSchedule => exact hm.keeps (subscribersFrom_epochSchedule h)

theorem Reachable.mirrored {s : Scheduler} (hs : Reachable cfg policy db s) : Mirrored s := by
  induction hs with
  | init => exact Mirrored.init
  | step _ hstep ih => exact ih.step hstep

/-- In every state reached by any sequence
of handler calls, a frontend lists a session in its `subscribe_models` exactly when the
session is in `session_table_` and lists the frontend among its subscribers. -/
theorem subscriptions_mirrored {s : Scheduler} (hs : Reachable cfg policy db s) (f : Nat)
    (session : String) :
    (∃ frontend, s.frontends.lookup f = some frontend ∧ session ∈ frontend.subscribeModels) ↔
      ∃ info, s.sessionTable.lookup session = some info ∧ f ∈ info.subscribers := by
  constructor
  · rintro ⟨frontend, hf, hsession⟩
    exact hs.subscribed.listed f frontend hf session hsession
  · rintro ⟨info, hinfo, hf⟩
    exact hs.mirrored.listed session info hinfo f hf

/-- Frontend `7` and the static session it subscribed to. -/
theorem subscriptions_mirrored_subscribed :
    Reachable pinningConfig pinningPolicy anyModel subscribedState ∧
      ((∃ frontend, subscribedState.frontends.lookup 7 = some frontend ∧
          "s" ∈ frontend.subscribeModels) ↔
        ∃ info, subscribedState.sessionTable.lookup "s" = some info ∧ 7 ∈ info.subscribers) :=
  ⟨reachable_getD_run _ _ _ (by decide),
    subscriptions_mirrored (reachable_getD_run _ _ _ (by decide)) 7 "s"⟩

/-! ### What a departure removes -/

/-- `RemoveFrontend`'s loop over distinct sessions `pending`: each of them loses `f`, and
goes once no subscriber is left; the other sessions and the frontends stay. -/
theorem foldlM_unsubscribeSession_spec {f : Nat} :
    ∀ {pending : List String} {acc acc' : Scheduler × List Nat}, pending.Nodup →
      pending.foldlM (unsubscribeSession f) acc = some acc' →
      acc'.1.frontends = acc.1.frontends ∧ ∀ x, acc'.1.sessionTable.lookup x =
        if x ∈ pending then (acc.1.sessionTable.lookup x).bind fun info =>
          if (info.unsubscribe f).1 then none else some (info.unsubscribe f).2
        else acc.1.sessionTable.lookup x
  | [], _, _, _, h => by cases h; exact ⟨rfl, fun x => by simp⟩
  | session :: pending, acc, acc', hnodup, h => by
    obtain ⟨acc1, hstep, hrest⟩ := Option.bind_eq_some.mp h
    obtain ⟨info, hinfo, hfrontends, htable⟩ := unsubscribeSession_tables hstep
    obtain ⟨hnot, hnodup⟩ := List.nodup_cons.mp hnodup
    obtain ⟨hfrontends', hlookup⟩ := foldlM_unsubscribeSession_spec hnodup hrest
    refine ⟨hfrontends'.trans hfrontends, fun x => ?_⟩
    rw [hlookup x]
    by_cases hxs : x = session
    · subst hxs
      rw [if_neg hnot, if_pos (List.mem_cons_self _ _), hinfo, Option.some_bind, htable]
      split
      · rw [AList.lookup_erase]
      · rw [AList.lookup_insert]
    · have hother : acc1.1.sessionTable.lookup x = acc.1.sessionTable.lookup x := by
        rw [htable]
        split
        · rw [AList.lookup_erase_ne hxs, AList.lookup_insert_ne hxs]
        · rw [AList.lookup_insert_ne hxs]
      simp only [List.mem_cons, hxs, false_or, hother]

/-- From every
reachable state, once frontend `f` has unregistered, a session is gone exactly when `f`
was its only subscriber; every other session stays as it was, less `f` among its
subscribers.  The other frontends stay. -/
theorem unregister_frontend_removes_orphaned_sessions {s s' : Scheduler}
    (hs : Reachable cfg policy db s) {f : Nat} (h : unregisterFrontend f s = some s') :
    s'.frontends = s.frontends.erase f ∧ ∀ session, s'.sessionTable.lookup session =
      (s.sessionTable.lookup session).bind fun info => if info.subscribers = [f] then none
        else some { info with subscribers := info.subscribers.erase f } := by
  obtain ⟨delegate, hdelegate, h⟩ := Option.bind_eq_some.mp h
  obtain ⟨⟨t, updated⟩, hloop, h⟩ := Option.bind_eq_some.mp h
  cases h
  obtain ⟨hfrontends, hlookup⟩ :=
    foldlM_unsubscribeSession_spec (hs.subscribed.nodup f delegate hdelegate) hloop
  refine ⟨hfrontends, fun x => ?_⟩
  change t.sessionTable.lookup x = _
  rw [hlookup x]
  cases hx : s.sessionTable.lookup x with
  | none => split <;> rfl
  | some info =>
    simp only [Option.some_bind]
    split
    · rename_i hmem
      -- `f` lists the session, so the session lists `f`
      obtain ⟨info', hinfo', hf⟩ := hs.subscribed.listed f delegate hdelegate x hmem
      obtain rfl := Option.some.inj (hinfo'.symm.trans hx)
      have hlast : (info'.unsubscribe f).1 = true ↔ info'.subscribers = [f] := by
        simp [SessionInfo.unsubscribe, List.isEmpty_iff, List.ne_nil_of_mem hf]
      by_cases honly : info'.subscribers = [f]
      · rw [if_pos (hlast.mpr honly), if_pos honly]
      · rw [if_neg (mt hlast.mp honly), if_neg honly]
        rfl
    · rename_i hmem
      -- the session does not list `f`, or `f` would list it
      have hf : f ∉ info.subscribers := fun hf => by
        obtain ⟨delegate', hdelegate', hx'⟩ := hs.mirrored.listed x info hx f hf
        obtain rfl := Option.some.inj (hdelegate.symm.trans hdelegate')
        exact hmem hx'
      have honly : info.subscribers ≠ [f] := fun honly => hf (honly ▸ List.mem_singleton_self f)
      rw [if_neg honly, List.erase_of_not_mem hf]

/-- Where frontend `7` of `subscribedState` has left. -/
def departedState : Scheduler :=
  (unregisterFrontend 7 subscribedState).getD init

/-- Frontend `7` was the only subscriber of `"s"`, which goes. -/
theorem unregister_frontend_removes_orphaned_sessions_subscribed :
    Reachable pinningConfig pinningPolicy anyModel subscribedState ∧
      unregisterFrontend 7 subscribedState = some departedState ∧
      departedState.frontends = subscribedState.frontends.erase 7 ∧
      ∀ session, departedState.sessionTable.lookup session =
        (subscribedState.sessionTable.lookup session).bind fun info =>
          if info.subscribers = [7] then none
          else some { info with subscribers := info.subscribers.erase 7 } := by
  have hs : Reachable pinningConfig pinningPolicy anyModel subscribedState :=
    reachable_getD_run _ _ _ (by decide)
  have hdeparted : unregisterFrontend 7 subscribedState = some departedState := by
    obtain ⟨s, hsome⟩ := Option.isSome_iff_exists.mp
      (show (unregisterFrontend 7 subscribedState).isSome by decide)
    rw [departedState, hsome]
    rfl
  exact ⟨hs, hdeparted, unregister_frontend_removes_orphaned_sessions hs hdeparted⟩

end Scheduler

end NexusLb.Sched
