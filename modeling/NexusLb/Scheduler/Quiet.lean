import NexusLb.Scheduler.Departure
import NexusLb.Scheduler.Subscriptions

/-!
# Which sessions a handler's routes can change

`GetModelRoute` reads a session's weights and the info of the backends they name, so a
handler that changes either for a session must name the session to `UpdateModelRoutes`.
`Quiet A` is a change that sends no route, keeps the frontends and leaves the route of
every session outside `A` as it was, and `Announced` is a change quiet outside some
sessions followed by the routes of those.  Every handler that pushes routes is announced,
`EpochSchedule` only when no backend spills (spilling erases the overloaded backend from
a session's weights without adding it to `changed_sessions`); `LoadModel` subscribes its
caller and keeps every route (`Subscribes`), and `UnregisterFrontend` keeps the route of
every session it leaves in the table (`unregisterFrontend_routes`).
-/

namespace NexusLb.Sched

namespace Scheduler

/-! ### Changes that keep routes -/

/-- After the change every session outside `A` that existed keeps its weights, each on a
backend that keeps its info: its route is the same (`RoutesKept.getModelRoute_eq`). -/
def RoutesKept (A : List String) (s s' : Scheduler) : Prop :=
  ∀ x info, x ∉ A → s.sessionTable.lookup x = some info →
    ∃ info', s'.sessionTable.lookup x = some info' ∧ info'.backendWeights = info.backendWeights ∧
      ∀ b ∈ info.backendWeights,
        (s'.backends.lookup b).map BackendDelegate.info =
          (s.backends.lookup b).map BackendDelegate.info

/-- `GetModelRoute` reads a session's weights and the info of the backends they name. -/
theorem getModelRoute_congr {s s' : Scheduler} {x : String} {info info' : SessionInfo}
    (hinfo : s.sessionTable.lookup x = some info) (hinfo' : s'.sessionTable.lookup x = some info')
    (hweights : info'.backendWeights = info.backendWeights)
    (hbackends : ∀ b ∈ info.backendWeights,
      (s'.backends.lookup b).map BackendDelegate.info =
        (s.backends.lookup b).map BackendDelegate.info) :
    s'.getModelRoute x = s.getModelRoute x := by
  have hrates : ∀ entries : List (Σ _ : Nat, ℚ),
    (∀ entry ∈ entries, entry.1 ∈ info.backendWeights) →
      (entries.mapM fun entry => (s'.backends.lookup entry.1).map fun backend =>
        (⟨backend.info, entry.2⟩ : BackendRate)) =
      entries.mapM fun entry => (s.backends.lookup entry.1).map fun backend =>
        (⟨backend.info, entry.2⟩ : BackendRate) := by
    intro entries
    induction entries with
    | nil => exact fun _ => rfl
    | cons entry entries ih =>
      intro hentries
      have hentry := congrArg (Option.map fun i => (⟨i, entry.2⟩ : BackendRate))
        (hbackends entry.1 (hentries entry (List.mem_cons_self _ _)))
      simp only [Option.map_map, Function.comp_def] at hentry
      rw [List.mapM_cons, List.mapM_cons, hentry,
        ih fun e he => hentries e (List.mem_cons_of_mem _ he)]
  simp only [getModelRoute, hinfo, hinfo', hweights, Option.bind_eq_bind, Option.some_bind]
  rw [hrates _ fun entry hentry => AList.mem_keys.mpr (List.mem_keys_of_mem hentry)]

/-- A change to one backend that keeps its info keeps every backend's info. -/
theorem info_lookup_modifyBackend {s : Scheduler} {b : Nat} {g : BackendDelegate → BackendDelegate}
    (hg : ∀ backend, (g backend).info = backend.info) (b' : Nat) :
    ((s.modifyBackend b g).backends.lookup b').map BackendDelegate.info =
      (s.backends.lookup b').map BackendDelegate.info := by
  simp only [backends_modifyBackend, Table.lookup_modify]
  split
  · cases s.backends.lookup b' <;> simp [hg]
  · rfl

namespace RoutesKept

variable {A A' : List String} {s s' s'' : Scheduler}

theorem refl (s : Scheduler) : RoutesKept A s s := fun _ info _ h => ⟨info, h, rfl, fun _ _ => rfl⟩

theorem trans (h : RoutesKept A s s') (h' : RoutesKept A s' s'') : RoutesKept A s s'' := by
  intro x info hx hinfo
  obtain ⟨info', hinfo', hw, hb⟩ := h x info hx hinfo
  obtain ⟨info'', hinfo'', hw', hb'⟩ := h' x info' hx hinfo'
  exact ⟨info'', hinfo'', hw'.trans hw, fun b hmem => (hb' b (hw ▸ hmem)).trans (hb b hmem)⟩

theorem mono (h : RoutesKept A s s') (hA : A ⊆ A') : RoutesKept A' s s' :=
  fun x info hx hinfo => h x info (fun hmem => hx (hA hmem)) hinfo

/-- A session outside `A` that existed keeps its route. -/
theorem getModelRoute_eq (h : RoutesKept A s s') {x : String} (hx : x ∉ A)
    (hmem : x ∈ s.sessionTable) :
    s'.getModelRoute x = s.getModelRoute x := by
  obtain ⟨info, hinfo⟩ := Option.isSome_iff_exists.mp (AList.lookup_isSome.mpr hmem)
  obtain ⟨info', hinfo', hw, hb⟩ := h x info hx hinfo
  exact getModelRoute_congr hinfo hinfo' hw hb

/-- A change to one session's record, which is in `A` or keeps its weights. -/
theorem modifySession {x : String} {f : SessionInfo → SessionInfo}
    (hf : x ∈ A ∨ ∀ info, (f info).backendWeights = info.backendWeights) :
    RoutesKept A s (s.modifySession x f) := by
  intro y info hy hinfo
  rw [sessionTable_modifySession, Table.lookup_modify]
  split
  · rename_i hyx
    subst hyx
    rw [hinfo]
    exact ⟨f info, rfl, hf.resolve_left hy info, fun _ _ => rfl⟩
  · exact ⟨info, hinfo, rfl, fun _ _ => rfl⟩

/-- A change that keeps the info of every backend the weights name. -/
theorem of_backends (ht : s'.sessionTable = s.sessionTable)
    (hb : ∀ x info, s.sessionTable.lookup x = some info → ∀ b ∈ info.backendWeights,
      (s'.backends.lookup b).map BackendDelegate.info =
        (s.backends.lookup b).map BackendDelegate.info) :
    RoutesKept A s s' :=
  fun x info _ hinfo => ⟨info, ht ▸ hinfo, rfl, hb x info hinfo⟩

/-- A backend replaced by one with its info. -/
theorem insertBackend {b : Nat} {backend : BackendDelegate} (ht : s'.sessionTable = s.sessionTable)
    (hbackends : s'.backends = s.backends.insert b backend)
    (hb : (s.backends.lookup b).map BackendDelegate.info =
      some backend.info) : RoutesKept A s s' := by
  refine of_backends ht fun _ _ _ b' _ => ?_
  rw [hbackends]
  by_cases hb' : b' = b
  · subst hb'; rw [AList.lookup_insert, hb]; rfl
  · rw [AList.lookup_insert_ne hb']

theorem modifyBackend {b : Nat} {g : BackendDelegate → BackendDelegate}
    (hg : ∀ backend, (g backend).info = backend.info) : RoutesKept A s (s.modifyBackend b g) :=
  of_backends rfl fun _ _ _ b' _ => info_lookup_modifyBackend hg b'

/-- A session that did not exist is added. -/
theorem emplaceSession {x : String} {info : SessionInfo}
    (ht : s'.sessionTable = s.sessionTable.emplace x info) (hb : s'.backends = s.backends) :
    RoutesKept A s s' := by
  intro y info' _ hinfo
  refine ⟨info', ?_, rfl, fun b _ => by rw [hb]⟩
  rw [ht]
  by_cases hyx : y = x
  · subst hyx
    rw [Table.lookup_emplace_of_mem (AList.lookup_isSome.mp (by simp [hinfo])), hinfo]
  · rw [Table.lookup_emplace_ne hyx, hinfo]

end RoutesKept

/-- A change that sends no route and keeps the frontends and the routes outside `A`. -/
structure Quiet (A : List String) (s s' : Scheduler) : Prop where
  effects : ∃ backends : List Nat, s'.effects = s.effects ++ backends.map Effect.updateModelTable
  frontends : s'.frontends = s.frontends
  routes : RoutesKept A s s'

namespace Quiet

variable {A A' : List String} {s s' s'' : Scheduler}

theorem refl (s : Scheduler) : Quiet A s s := ⟨⟨[], by simp⟩, rfl, .refl s⟩

theorem trans (h : Quiet A s s') (h' : Quiet A s' s'') : Quiet A s s'' := by
  obtain ⟨⟨bs, hbs⟩, hf, hr⟩ := h
  obtain ⟨⟨bs', hbs'⟩, hf', hr'⟩ := h'
  exact ⟨⟨bs ++ bs', by rw [hbs', hbs, List.map_append, List.append_assoc]⟩, hf'.trans hf,
    hr.trans hr'⟩

theorem mono (h : Quiet A s s') (hA : A ⊆ A') : Quiet A' s s' :=
  ⟨h.effects, h.frontends, h.routes.mono hA⟩

/-- A quiet change outside `A` followed by one outside a larger `A'`. -/
theorem extend (h : Quiet A s s') (hA : A ⊆ A') (h' : Quiet A' s' s'') : Quiet A' s s'' :=
  (h.mono hA).trans h'

/-- A change that keeps the effects and the frontends, and the routes outside `A`. -/
theorem of_routes (he : s'.effects = s.effects) (hf : s'.frontends = s.frontends)
    (hr : RoutesKept A s s') : Quiet A s s' :=
  ⟨⟨[], by simp [he]⟩, hf, hr⟩

theorem modifySession {x : String} {f : SessionInfo → SessionInfo}
    (hf : x ∈ A ∨ ∀ info, (f info).backendWeights = info.backendWeights) :
    Quiet A s (s.modifySession x f) :=
  of_routes rfl rfl (.modifySession hf)

theorem atSession {x : String} {f : SessionInfo → SessionInfo}
    (hf : x ∈ A ∨ ∀ info, (f info).backendWeights = info.backendWeights)
    (h : s.atSession x f = some s') : Quiet A s s' := by
  obtain ⟨-, rfl⟩ := atSession_eq_some.mp h
  exact .modifySession hf

theorem modifyBackend {b : Nat} {g : BackendDelegate → BackendDelegate}
    (hg : ∀ backend, (g backend).info = backend.info) : Quiet A s (s.modifyBackend b g) :=
  of_routes rfl rfl (.modifyBackend hg)

theorem updateModelTables (backends : List Nat) : Quiet A s (s.updateModelTables backends) :=
  ⟨⟨backends, rfl⟩, rfl, .of_backends rfl fun _ _ _ _ _ => rfl⟩

/-- A loop each of whose passes is quiet outside `A`. -/
theorem foldlM {α : Type} {f : Scheduler → α → Option Scheduler}
    (hf : ∀ acc x acc', f acc x = some acc' → Quiet A acc acc') {l : List α}
    (h : l.foldlM f s = some s') : Quiet A s s' :=
  foldlM_invariant (fun acc => Quiet A s acc)
    (fun _ _ _ _ hacc hstep => hacc.trans (hf _ _ _ hstep))
    (.refl s) h

/-- A loop of `at` calls on sessions that are in `A` whenever present. -/
theorem foldlM_atSession {sessions : List String} {f : String → SessionInfo → SessionInfo}
    (hA : ∀ x ∈ sessions, x ∈ s.sessionTable → x ∈ A)
    (h : sessions.foldlM (fun s x => s.atSession x (f x)) s = some s') : Quiet A s s' :=
  (foldlM_invariant (fun t : Scheduler => Quiet A s t ∧ ∀ y,
    y ∈ t.sessionTable ↔ y ∈ s.sessionTable)
    (fun t x t' hx ht hstep => by
      obtain ⟨hmem, rfl⟩ := atSession_eq_some.mp hstep
      exact ⟨ht.1.trans (.modifySession (.inl (hA x hx ((ht.2 x).mp hmem)))),
        fun y => Table.mem_modify.trans (ht.2 y)⟩)
    ⟨.refl s, fun _ => Iff.rfl⟩ h).1

/-- A loop of `at` calls that keep every session's weights. -/
theorem foldlM_atSession_keep {α : Type} {l : List α} {key : α → String}
    {f : α → SessionInfo → SessionInfo}
    (h : l.foldlM (fun s x => s.atSession (key x) (f x)) s = some s')
    (hf : ∀ x info, (f x info).backendWeights = info.backendWeights) : Quiet A s s' :=
  foldlM (fun _ x _ hstep => atSession (.inr (hf x)) hstep) h

theorem foldl {α : Type} {f : Scheduler → α → Scheduler} (hf : ∀ s x, Quiet A s (f s x)) :
    ∀ (l : List α) (s : Scheduler), Quiet A s (l.foldl f s)
  | [], s => .refl s
  | x :: l, s => (hf s x).trans (foldl hf l (f s x))

theorem foldl_fst {α β : Type} {f : Scheduler × β → α → Scheduler × β}
    (hf : ∀ acc x, Quiet A acc.1 (f acc x).1) :
    ∀ (l : List α) (acc : Scheduler × β), Quiet A acc.1 (l.foldl f acc).1
  | [], _ => .refl _
  | x :: l, acc => (hf acc x).trans (foldl_fst hf l (f acc x))

end Quiet

/-- A change that is quiet outside some sessions `A`, then pushes model tables and sends
the routes of `A`: the shape of every handler that ends in `UpdateModelRoutes`. -/
def Announced (s s' : Scheduler) : Prop :=
  ∃ A backends s1, Quiet A s s1 ∧ (s1.updateModelTables backends).updateModelRoutes A = some s'

theorem Announced.of_quiet {s s' : Scheduler} (h : Quiet [] s s') : Announced s s' :=
  ⟨[], [], s', h, by simp [updateModelTables, updateModelRoutes]⟩

/-! ### The handlers name every session whose route they change -/

section Handlers

variable {cfg : Config} {policy : Policy}

/-- A loop over `Changes` each of whose passes is quiet outside the sessions it has named
so far. -/
theorem quiet_foldl {α : Type} {f : Scheduler × Changes → α → Scheduler × Changes}
    (hf : ∀ acc x,
      acc.2.sessions ⊆ (f acc x).2.sessions ∧ Quiet (f acc x).2.sessions acc.1 (f acc x).1) :
    ∀ (l : List α) (acc : Scheduler × Changes),
      acc.2.sessions ⊆ (l.foldl f acc).2.sessions ∧
        Quiet (l.foldl f acc).2.sessions acc.1 (l.foldl f acc).1
  | [], _ => ⟨fun _ => id, .refl _⟩
  | x :: l, acc => by
    obtain ⟨hsub, hquiet⟩ := hf acc x
    obtain ⟨hsub', hquiet'⟩ := quiet_foldl hf l (f acc x)
    exact ⟨hsub.trans hsub', hquiet.extend hsub' hquiet'⟩

theorem quiet_foldlM {α : Type} {f : Scheduler × Changes → α → Option (Scheduler × Changes)}
    (hf : ∀ acc x acc', f acc x = some acc' →
      acc.2.sessions ⊆ acc'.2.sessions ∧ Quiet acc'.2.sessions acc.1 acc'.1)
    {l : List α} {acc acc' : Scheduler × Changes} (h : l.foldlM f acc = some acc') :
    acc.2.sessions ⊆ acc'.2.sessions ∧ Quiet acc'.2.sessions acc.1 acc'.1 :=
  foldlM_invariant
    (fun acc' : Scheduler × Changes => acc.2.sessions ⊆ acc'.2.sessions ∧
      Quiet acc'.2.sessions acc.1 acc'.1)
    (fun _ _ _ _ hacc hstep => have hpass := hf _ _ _ hstep
      ⟨hacc.1.trans hpass.1, hacc.2.extend hpass.1 hpass.2⟩) ⟨fun _ => id, .refl _⟩ h

/-- The placement loop of one session names the session as soon as it places some of it. -/
theorem quiet_allocateSession {session : String} :
    ∀ {fuel : Nat} {rate : ℚ} {acc : Scheduler × Changes} {result : ℚ × Scheduler × Changes},
      allocateSession policy session fuel rate acc = some result →
      acc.2.sessions ⊆ result.2.2.sessions ∧ Quiet result.2.2.sessions acc.1 result.2.1
  | 0, _, _, _, h => by cases h
  | fuel + 1, rate, acc, result, h => by
    rw [allocateSession] at h
    split at h
    · cases hbest : findBestBackend policy acc.1 session rate [] with
      | none => rw [hbest] at h; cases h; exact ⟨fun _ => id, .refl _⟩
      | some placed =>
        rw [hbest, Option.elim_some] at h
        obtain ⟨hsub, hquiet⟩ := quiet_allocateSession h
        have hmem : session ∈ result.2.2.sessions := hsub (List.mem_insert_self _ _)
        have hplace : Quiet result.2.2.sessions acc.1
            ((acc.1.modifyBackend placed.1 (BackendDelegate.loadModel placed.2)).modifySession
              session fun info =>
                { info with
                  backendWeights :=
                    info.backendWeights.emplace placed.1 (placed.2.getWeight policy) }) :=
          (Quiet.modifyBackend (g := BackendDelegate.loadModel placed.2) fun _ => rfl).trans
            (.modifySession (.inl hmem))
        exact ⟨fun y hy => hsub (List.mem_insert_of_mem hy), hplace.trans hquiet⟩
    · cases h; exact ⟨fun _ => id, .refl _⟩

theorem quiet_allocateOwed {acc acc' : Scheduler × Changes} {entry : Σ _ : String, SessionInfo}
    (h : allocateOwed policy acc entry = some acc') :
    acc.2.sessions ⊆ acc'.2.sessions ∧ Quiet acc'.2.sessions acc.1 acc'.1 := by
  obtain ⟨⟨rate, s1, changes1⟩, hloop, h⟩ := Option.bind_eq_some.mp h
  cases h
  obtain ⟨hsub, hquiet⟩ := quiet_allocateSession hloop
  exact ⟨hsub, hquiet.trans (.modifySession (.inr fun _ => rfl))⟩

/-- `AllocateUnassignedWorkloads` names every session it places some of. -/
theorem quiet_allocateUnassignedWorkloads {s s' : Scheduler} {changes changes' : Changes}
    (h : allocateUnassignedWorkloads policy s changes = some (s', changes')) :
    changes.sessions ⊆ changes'.sessions ∧ Quiet changes'.sessions s s' := by
  dsimp only [allocateUnassignedWorkloads] at h
  split at h
  · cases h; exact ⟨fun _ => id, .refl s⟩
  · exact quiet_foldlM (fun _ _ _ => quiet_allocateOwed) h

/-- The release and grow loops change the weights of their session only. -/
theorem quiet_unloadSession (session : String) {s : Scheduler} {b : Nat} {backend : BackendDelegate}
    (hb : s.backends.lookup b = some backend) :
    Quiet [session] s (unloadSession session b backend s) := by
  have hinsert : Quiet [session] s
      { s with backends := s.backends.insert b (backend.unloadModel session) } :=
    .of_routes rfl rfl (.insertBackend rfl rfl (by rw [hb]; rfl))
  exact hinsert.trans (.modifySession (.inl (List.mem_singleton_self _)))

theorem quiet_resizeSession (session : String) {s : Scheduler} {b : Nat} {backend : BackendDelegate}
    (hb : s.backends.lookup b = some backend) (rate : ℚ) :
    Quiet [session] s
      (resizeSession policy session b (backend.updateModelThroughput policy session rate).2 s) := by
  have hinsert : Quiet [session] s
      { s with
        backends := s.backends.insert b (backend.updateModelThroughput policy session rate).2 } :=
    .of_routes rfl rfl (.insertBackend rfl rfl (by
      rw [hb, Option.map_some', BackendDelegate.info_updateModelThroughput]))
  exact hinsert.trans (.modifySession (.inl (List.mem_singleton_self _)))

/-- What sizing one session leaves: its weights as they were, or the session named. -/
theorem scheduleSession_named {acc acc' : Scheduler × List String × List Nat} {session : String}
    (h : scheduleSession cfg policy acc session = some acc') :
    acc'.2.1 = acc.2.1 ∧ Quiet [] acc.1 acc'.1 ∨ acc'.2.1 = acc.2.1.insert session := by
  obtain ⟨s, changed, overloaded⟩ := acc
  unfold scheduleSession at h
  dsimp only at h
  split at h
  · cases h; exact .inl ⟨rfl, .refl s⟩
  · split at h
    · cases h; exact .inl ⟨rfl, .refl s⟩
    · obtain ⟨last, -, h⟩ := Option.bind_eq_some.mp h
      unfold sizeSession at h
      dsimp only at h
      split at h
      · obtain ⟨_, -, h⟩ := Option.bind_eq_some.mp h
        obtain ⟨_, -, h⟩ := Option.bind_eq_some.mp h
        cases h; exact .inr rfl
      · split at h
        · obtain ⟨_, -, h⟩ := Option.bind_eq_some.mp h
          obtain ⟨_, -, h⟩ := Option.bind_eq_some.mp h
          cases h; exact .inr rfl
        · cases h; exact .inl ⟨rfl, .modifySession (.inr fun _ => rfl)⟩

/-- Sizing one session changes the weights of that session only, and names it when it
does. -/
theorem quiet_scheduleSession {acc acc' : Scheduler × List String × List Nat} {session : String}
    (h : scheduleSession cfg policy acc session = some acc') :
    acc.2.1 ⊆ acc'.2.1 ∧ Quiet acc'.2.1 acc.1 acc'.1 := by
  rcases scheduleSession_named h with ⟨hsame, hquiet⟩ | hnamed
  · exact ⟨hsame ▸ fun _ => id, hquiet.mono (List.nil_subset _)⟩
  · rw [hnamed]
    exact ⟨fun _ => List.mem_insert_of_mem, (scheduleSession_induction (Quiet [session]) Quiet.refl
      Quiet.trans (fun _ _ _ hb _ => quiet_unloadSession session hb)
      (fun _ _ _ rate hb _ => quiet_resizeSession session hb rate)
      (fun _ _ => .modifySession (.inr fun _ => rfl)) h).mono
      (List.cons_subset.mpr ⟨List.mem_insert_self _ _, List.nil_subset _⟩)⟩

/-- A backend that spills nothing is spilled out quietly. -/
theorem quiet_spillOut (hspill : ∀ backend session, policy.spills backend session = false)
    {s s' : Scheduler} {b : Nat} (h : spillOut policy s b = some s') : Quiet [] s s' := by
  unfold spillOut at h
  split at h
  · cases h; exact .refl s
  · rename_i backend hb
    have hnone : (backend.spillOutWorkload policy).1 = [] := by
      simp [BackendDelegate.spillOutWorkload, hspill]
    dsimp only at h
    rw [hnone] at h
    cases h
    exact .of_routes rfl rfl (.insertBackend rfl rfl (by rw [hb]; rfl))

/-- `EpochSchedule`, when no backend spills: a quiet change outside the sessions it
resized or placed, then the routes of those. -/
theorem epochSchedule_named (hspill : ∀ backend session, policy.spills backend session = false)
    {s s' : Scheduler} (h : epochSchedule cfg policy s = some s') : Announced s s' := by
  unfold epochSchedule at h
  obtain ⟨⟨s1, changed, overloaded⟩, hsched, h⟩ := Option.bind_eq_some.mp h
  have h1 : Quiet changed s s1 := (foldlM_invariant
    (fun acc : Scheduler × List String × List Nat => Quiet acc.2.1 s acc.1)
    (fun _ _ _ _ hacc hstep => have hpass := quiet_scheduleSession hstep
      hacc.extend hpass.1 hpass.2) (.refl s) hsched : _)
  obtain ⟨s2, hspills, h⟩ := Option.bind_eq_some.mp h
  have h2 : Quiet changed s1 s2 := Quiet.foldlM (fun _ _ _ hstep =>
    (quiet_spillOut hspill hstep).mono (List.nil_subset _)) hspills
  obtain ⟨⟨s3, changes⟩, halloc, h⟩ := Option.bind_eq_some.mp h
  obtain ⟨hsub, h3⟩ := quiet_allocateUnassignedWorkloads halloc
  obtain ⟨s4, hroutes, h⟩ := Option.bind_eq_some.mp h
  obtain ⟨_, -, h⟩ := Option.bind_eq_some.mp h
  cases h
  exact ⟨_, _, s3, (h1.trans h2).extend hsub h3, hroutes⟩

/-! #### `AddBackend` -/

/-- Recording a statically pinned session names it. -/
theorem quiet_recordStaticSession (backend : BackendDelegate) (acc : Scheduler × Changes)
    (session : String) :
    acc.2.sessions ⊆ (recordStaticSession policy backend acc session).2.sessions ∧
      Quiet (recordStaticSession policy backend acc session).2.sessions acc.1
        (recordStaticSession policy backend acc session).1 := by
  refine ⟨fun _ => List.mem_insert_of_mem,
    Quiet.trans ?_ (.modifySession (.inl (List.mem_insert_self _ _)))⟩
  exact .of_routes rfl rfl (.emplaceSession rfl rfl)

/-- Recording a backup keeps every session's weights. -/
theorem quiet_recordBackupSession (b : Nat) (acc : Scheduler × Changes) (session : String) :
    acc.2.sessions ⊆ (recordBackupSession b acc session).2.sessions ∧
      Quiet (recordBackupSession b acc session).2.sessions acc.1
        (recordBackupSession b acc session).1 := by
  have hemplace : Quiet acc.2.sessions acc.1
      { acc.1 with sessionTable := acc.1.sessionTable.emplace session (SessionInfo.empty true) } :=
    .of_routes rfl rfl (.emplaceSession rfl rfl)
  unfold recordBackupSession
  dsimp only
  split
  · split
    · exact ⟨fun _ => id, hemplace⟩
    · exact ⟨fun _ => id, hemplace.trans (.modifySession (.inr fun _ => rfl))⟩
  · exact ⟨fun _ => id, hemplace⟩

/-- `AddBackend`'s static pinning names every session it records a weight for. -/
theorem quiet_pinStaticWorkload {backend : BackendDelegate} {id : Nat} {s : Scheduler}
    (hb : s.backends.lookup backend.nodeId = some backend) :
    Quiet (pinStaticWorkload cfg policy backend id s).2.sessions s
      (pinStaticWorkload cfg policy backend id s).1 := by
  unfold pinStaticWorkload
  refine Quiet.extend ?_ (List.nil_subset _)
    (((quiet_foldl (quiet_recordStaticSession _) _ _).2).extend
    (quiet_foldl (quiet_recordBackupSession _) _ _).1
      (quiet_foldl (quiet_recordBackupSession _) _ _).2)
  refine .of_routes rfl rfl (.insertBackend rfl rfl ?_)
  rw [hb, Option.map_some', info_loadStaticWorkload]

/-- `RegisterBackend`: a quiet change outside the sessions the new backend took weight in,
then the routes of those. -/
theorem registerBackend_named {s s' : Scheduler}
    (hc : Consistent (fun _ => 0) s) {info : BackendInfo}
    (h : registerBackend cfg policy info s = some s') : Announced s s' := by
  unfold registerBackend at h
  split at h
  · cases h
  · rename_i hfresh
    let s0 : Scheduler := { s with backends := s.backends.insert info.nodeId (.fresh info) }
    have hjoin : Quiet [] s s0 := by
      refine .of_routes rfl rfl (.of_backends rfl fun x i hinfo b hb => ?_)
      obtain ⟨backend, hbackend, -⟩ := hc.serving hinfo hb
      have hne : b ≠ info.nodeId :=
        fun heq => hfresh (heq ▸ AList.lookup_isSome.mp (by simp [hbackend]))
      rw [AList.lookup_insert_ne hne]
    unfold addBackend at h
    dsimp only at h
    split at h
    · rename_i id _
      obtain ⟨⟨s1, changes⟩, hpin, h⟩ := Option.bind_eq_some.mp h
      have hb : s0.backends.lookup (BackendDelegate.fresh info).nodeId = some (.fresh info) :=
        AList.lookup_insert _
      have hquiet := @quiet_pinStaticWorkload cfg policy _ id _ hb
      rw [Option.some.inj hpin] at hquiet
      exact ⟨_, _, s1, hjoin.extend (List.nil_subset _) hquiet, h⟩
    · obtain ⟨⟨s1, changes⟩, hallocate, h⟩ := Option.bind_eq_some.mp h
      exact ⟨_, _, s1,
        hjoin.extend (List.nil_subset _) (quiet_allocateUnassignedWorkloads hallocate).2, h⟩

/-! #### `RemoveBackend` -/

/-- One pass of `RemoveBackend`'s first loop keeps the calls made, the frontends and the
sessions present, and names the session it visits if that one is present. -/
theorem dropWeights_frame (d : Nat) (acc : Scheduler × Changes) (session : String) :
    (dropWeights d acc session).1.effects = acc.1.effects ∧
      (dropWeights d acc session).1.frontends = acc.1.frontends ∧
      (∀ y, y ∈ (dropWeights d acc session).1.sessionTable ↔ y ∈ acc.1.sessionTable) ∧
      acc.2.sessions ⊆ (dropWeights d acc session).2.sessions ∧
      (session ∈ acc.1.sessionTable → session ∈ (dropWeights d acc session).2.sessions) := by
  unfold dropWeights
  split
  · exact ⟨rfl, rfl, fun _ => Table.mem_modify, fun _ => List.mem_insert_of_mem,
      fun _ => List.mem_insert_self _ _⟩
  · rename_i hskip
    exact ⟨rfl, rfl, fun _ => Iff.rfl, fun _ => id,
      fun hmem => not_not.mp fun hfresh => hskip ⟨hmem, hfresh⟩⟩

/-- `RemoveBackend`'s first loop names every session it visits that is present. -/
theorem foldl_dropWeights_frame (d : Nat) :
    ∀ (sessions : List String) (acc : Scheduler × Changes),
      (sessions.foldl (dropWeights d) acc).1.effects = acc.1.effects ∧
      (sessions.foldl (dropWeights d) acc).1.frontends = acc.1.frontends ∧
      (∀ y, y ∈ (sessions.foldl (dropWeights d) acc).1.sessionTable ↔ y ∈ acc.1.sessionTable) ∧
      acc.2.sessions ⊆ (sessions.foldl (dropWeights d) acc).2.sessions ∧
      ∀ x ∈ sessions, x ∈ acc.1.sessionTable → x ∈ (sessions.foldl (dropWeights d) acc).2.sessions
  | [], _ => ⟨rfl, rfl, fun _ => Iff.rfl, fun _ => id, fun _ hx => absurd hx (List.not_mem_nil _)⟩
  | session :: sessions, acc => by
    obtain ⟨he, hf, hkeys, hsub, hnamed⟩ := dropWeights_frame d acc session
    obtain ⟨he', hf', hkeys', hsub', hnamed'⟩ :=
      foldl_dropWeights_frame d sessions (dropWeights d acc session)
    refine ⟨he'.trans he, hf'.trans hf, fun y => (hkeys' y).trans (hkeys y), hsub.trans hsub',
      fun x hx hmem => ?_⟩
    rcases List.mem_cons.mp hx with rfl | hx
    · exact hsub' (hnamed hmem)
    · exact hnamed' x hx ((hkeys x).mpr hmem)

/-- `RemoveBackend`'s first loop, after `backends_` dropped a registered backend: the
sessions it does not name keep their routes, since the departing backend served none of
them. -/
theorem quiet_foldl_dropWeights {s : Scheduler}
    (hc : Consistent (fun _ => 0) s) {backend : BackendDelegate}
    (hb : s.backends.lookup backend.nodeId = some backend) :
    let acc := backend.getModelSessions.foldl (dropWeights backend.nodeId)
      ({ s with backends := s.backends.erase backend.nodeId }, ⟨[], []⟩)
    Quiet acc.2.sessions s acc.1 := by
  intro acc
  obtain ⟨he, hf, -, -, hnamed⟩ := foldl_dropWeights_frame backend.nodeId backend.getModelSessions
    ({ s with backends := s.backends.erase backend.nodeId }, ⟨[], []⟩)
  have hserved : ∀ x info, x ∉ acc.2.sessions → s.sessionTable.lookup x = some info →
      x ∉ backend.getModelSessions := fun x info hx hinfo hserved =>
    hx (hnamed x hserved (AList.lookup_isSome.mp (by simp [hinfo])))
  refine .of_routes he hf fun x info hx hinfo => ⟨info, ?_, rfl, fun b' hb' => ?_⟩
  · rw [lookup_foldl_dropWeights (s := s) backend.getModelSessions
      ({ s with backends := s.backends.erase backend.nodeId }, ⟨[], []⟩)
      (fun x => (if_neg (List.not_mem_nil x)).symm) x, if_neg (hserved x info hx hinfo)]
    exact hinfo
  · have hne : b' ≠ backend.nodeId := by
      rintro rfl
      obtain ⟨backend', hbackend', hmodels⟩ := hc.serving hinfo hb'
      obtain rfl : backend' = backend := Option.some_inj.mp (hbackend'.symm.trans hb)
      refine hserved x info hx hinfo ?_
      simpa [BackendDelegate.mem_getModelSessions, BackendDelegate.rateOf, AList.lookup_isSome]
        using hmodels
    have hbackends := (Scheduler.foldl_dropWeights backend.nodeId backend.getModelSessions
      ({ s with backends := s.backends.erase backend.nodeId }, ⟨[], []⟩) (by simp)).1
    rw [hbackends]
    exact congrArg _ (AList.lookup_erase_ne hne)

/-- Moving or dropping a backup keeps every session's weights. -/
theorem quiet_moveBackup {d a : Nat} {acc acc' : Scheduler × Changes} {session : String}
    (h : moveBackup d a acc session = some acc') :
    acc.2.sessions ⊆ acc'.2.sessions ∧ Quiet acc'.2.sessions acc.1 acc'.1 := by
  obtain ⟨_, -, h⟩ := Option.bind_eq_some.mp h
  cases h
  exact ⟨fun _ => id, .modifySession (.inr fun _ => rfl)⟩

theorem quiet_dropBackup {d : Nat} {acc acc' : Scheduler × Changes} {session : String}
    (h : dropBackup d acc session = some acc') :
    acc.2.sessions ⊆ acc'.2.sessions ∧ Quiet acc'.2.sessions acc.1 acc'.1 := by
  obtain ⟨_, -, h⟩ := Option.bind_eq_some.mp h
  split at h <;> cases h
  · exact ⟨fun _ => id, .modifySession (.inr fun _ => rfl)⟩
  · exact ⟨fun _ => id, .refl _⟩

/-- The hand-over to an idle backend with the info of the one it replaces records weights
only in sessions already named. -/
theorem quiet_migrate {departing assigned : BackendDelegate} {a : Nat}
    {acc acc' : Scheduler × Changes}
    (hassigned : (acc.1.backends.lookup a).map BackendDelegate.info = some assigned.info)
    (hA : ∀ x ∈ departing.getModelSessions, x ∈ acc.1.sessionTable → x ∈ acc.2.sessions)
    (h : migrate departing a assigned acc = some acc') :
    acc.2.sessions ⊆ acc'.2.sessions ∧ Quiet acc'.2.sessions acc.1 acc'.1 := by
  unfold migrate at h
  obtain ⟨s1, hweights, h⟩ := Option.bind_eq_some.mp h
  have hinsert : Quiet acc.2.sessions acc.1 { acc.1 with
    backends := acc.1.backends.insert a assigned } :=
    .of_routes rfl rfl (.insertBackend rfl rfl hassigned)
  have h1 := hinsert.trans (Quiet.foldlM_atSession hA hweights)
  have h2 : Quiet acc.2.sessions acc.1 (if 0 ≤ assigned.workloadId then
      { s1 with assignedStaticWorkloads :=
          s1.assignedStaticWorkloads.emplace assigned.workloadId.toNat assigned.nodeId }
      else s1) := by
    split
    · exact h1.trans (.of_routes rfl rfl (.of_backends rfl fun _ _ _ _ _ => rfl))
    · exact h1
  obtain ⟨hsub, h3⟩ := quiet_foldlM (fun _ _ _ => quiet_moveBackup) h
  exact ⟨hsub, h2.extend hsub h3⟩

/-- The hand-over when no backend is idle: the requeued throughput goes to sessions that
`AllocateUnassignedWorkloads` names when it places it. -/
theorem quiet_requeue {departing : BackendDelegate} {acc acc' : Scheduler × Changes}
    (h : requeue policy departing acc = some acc') :
    acc.2.sessions ⊆ acc'.2.sessions ∧ Quiet acc'.2.sessions acc.1 acc'.1 := by
  unfold requeue at h
  obtain ⟨⟨s1, changes⟩, hdrop, h⟩ := Option.bind_eq_some.mp h
  obtain ⟨hsub, h1⟩ := quiet_foldlM (fun _ _ _ => quiet_dropBackup) hdrop
  dsimp only at h
  split at h
  · cases h
    exact ⟨hsub, h1.trans (.of_routes rfl rfl (.of_backends rfl fun _ _ _ _ _ => rfl))⟩
  · obtain ⟨s2, hqueue, h⟩ := Option.bind_eq_some.mp h
    have h2 : Quiet changes.sessions s1 s2 := .foldlM_atSession_keep hqueue fun _ _ => rfl
    obtain ⟨hsub', h3⟩ := quiet_allocateUnassignedWorkloads h
    exact ⟨hsub.trans hsub', (h1.trans h2).extend hsub' h3⟩

/-- `UnregisterBackend` of a backend that serves nothing is quiet; any other departure is a
quiet change outside the sessions it named, then the routes of those. -/
theorem unregisterBackend_named {s s' : Scheduler} (hc : Consistent (fun _ => 0) s) {b : Nat}
    (h : unregisterBackend policy b s = some s') : Announced s s' := by
  obtain ⟨backend, hb, hremove⟩ := Option.bind_eq_some.mp h
  obtain rfl : backend.nodeId = b := hc.keyed b backend hb
  unfold removeBackend at hremove
  split at hremove
  · rename_i hidle
    cases hremove
    refine .of_quiet (.of_routes rfl rfl (.of_backends rfl fun x info hinfo b' hb' => ?_))
    obtain ⟨backend', hbackend', hmodels⟩ := hc.serving hinfo hb'
    have hne : b' ≠ backend.nodeId := by
      rintro rfl
      obtain rfl : backend' = backend := Option.some_inj.mp (hbackend'.symm.trans hb)
      exact BackendDelegate.rateOf_eq_none.mp (BackendDelegate.isIdle_iff.mp hidle x) hmodels
    exact congrArg _ (AList.lookup_erase_ne hne)
  · have hdrop := quiet_foldl_dropWeights hc hb
    obtain ⟨-, -, hkeys, -, hnamed⟩ :=
      foldl_dropWeights_frame backend.nodeId backend.getModelSessions
      ({ s with backends := s.backends.erase backend.nodeId }, ⟨[], []⟩)
    dsimp only at hremove
    split at hremove
    · rename_i a assigned hfind
      obtain ⟨⟨s1, changes⟩, hmatch, hpublish⟩ := Option.bind_eq_some.mp hremove
      obtain ⟨idle, hidle, -, hassign⟩ := findAssignee_spec policy hfind
      obtain ⟨hsub, hmigrate⟩ := quiet_migrate (by rw [hidle, Option.map_some',
        (BackendDelegate.assign_spec policy hassign).1])
          (fun x hx hmem => hnamed x hx ((hkeys x).mp hmem))
        hmatch
      exact ⟨_, _, s1, hdrop.extend hsub hmigrate, hpublish⟩
    · obtain ⟨⟨s1, changes⟩, hmatch, hpublish⟩ := Option.bind_eq_some.mp hremove
      obtain ⟨hsub, hrequeue⟩ := quiet_requeue hmatch
      exact ⟨_, _, s1, hdrop.extend hsub hrequeue, hpublish⟩

/-! #### Handlers that send no route -/

theorem quiet_reportWorkload {request : WorkloadStats} {s s' : Scheduler}
    (h : reportWorkload request s = some s') : Quiet [] s s' := by
  unfold reportWorkload at h
  split at h
  · exact .foldlM_atSession_keep h fun _ _ => rfl
  · cases h

theorem quiet_beaconCheck {s s' : Scheduler} {trigger : Bool}
    (h : beaconCheck cfg s = some (trigger, s')) : Quiet [] s s' := by
  obtain ⟨_, -, hs⟩ := Option.map_eq_some'.mp h
  cases hs
  exact Quiet.foldl (fun _ _ =>
    .modifySession (f := SessionInfo.recordRate cfg.historyLen) (.inr fun _ => rfl)) _ s

/-! #### `LoadModel` -/

/-- `s'` is `s` with frontend `f` subscribed to session `x`: the sessions of `s` keep their
routes, and only model tables are pushed. -/
structure Subscribes (f : Nat) (x : String) (s s' : Scheduler) : Prop where
  effects : ∃ backends : List Nat, s'.effects = s.effects ++ backends.map Effect.updateModelTable
  frontends : s'.frontends = s.frontends.modify f (FrontendDelegate.subscribeModel x)
  routes : RoutesKept [] s s'

theorem subscribes_subscribe (f : Nat) (x : String) (s : Scheduler) :
    Subscribes f x s (s.subscribe f x) :=
  ⟨⟨[], by simp [subscribe]⟩, rfl,
    RoutesKept.modifySession (f := SessionInfo.subscribe f) (.inr fun _ => rfl)⟩

theorem quiet_loadAssigned {A : List String} (acc : Scheduler × Table Nat ℚ)
    (p : Nat × InstanceInfo) :
    Quiet A acc.1 (loadAssigned policy acc p).1 :=
  (Quiet.modifyBackend (g := BackendDelegate.loadModel p.2) fun _ => rfl).trans
    (.updateModelTables [p.1])

theorem subscribes_commitSession (f : Nat) (x : String) (assigned : List (Nat × InstanceInfo))
    (s : Scheduler) : Subscribes f x s (s.commitSession policy f x assigned) := by
  unfold commitSession
  have hload :=
    Quiet.foldl_fst (A := []) (f := loadAssigned policy) quiet_loadAssigned assigned (s, ∅)
  generalize assigned.foldl (loadAssigned policy) (s, ∅) = out at hload
  obtain ⟨s1, weights⟩ := out
  obtain ⟨⟨bs, hbs⟩, hf, hr⟩ := hload
  let s2 : Scheduler := { s1 with
    sessionTable := s1.sessionTable.emplace x { SessionInfo.empty false with
      backendWeights := weights } }
  have hcreate : RoutesKept [] s1 s2 := .emplaceSession rfl rfl
  refine ⟨⟨bs, hbs⟩, congrArg (Table.modify f (FrontendDelegate.subscribeModel x)) hf,
    (hr.trans hcreate).trans ?_⟩
  exact RoutesKept.modifySession (x := x) (f := SessionInfo.subscribe f) (.inr fun _ => rfl)

/-- `LoadModel` replies with no route and changes nothing, or subscribes the calling
frontend to the session and replies with the session's route in the new state. -/
theorem loadModel_reply {db : ModelDatabase} {request : LoadModelRequest} {s s' : Scheduler}
    {reply : LoadModelReply} (h : s.loadModel policy db request = some (reply, s')) :
    (reply.2 = none ∧ s' = s) ∨ ∃ route, reply.2 = some route ∧
      s'.getModelRoute request.modelSession = some route ∧
      Subscribes request.nodeId request.modelSession s s' := by
  unfold loadModel at h
  dsimp only at h
  split at h
  · cases h; exact .inl ⟨rfl, rfl⟩
  split at h
  · cases h; exact .inl ⟨rfl, rfl⟩
  split at h
  · rename_i hmem
    obtain ⟨route, hroute, h⟩ := Option.map_eq_some'.mp h
    cases h
    have hsub := subscribes_subscribe request.nodeId request.modelSession s
    exact .inr ⟨route, rfl, (hsub.routes.getModelRoute_eq (List.not_mem_nil _) hmem).trans hroute,
      hsub⟩
  split at h
  · cases h; exact .inl ⟨rfl, rfl⟩
  · obtain ⟨route, hroute, h⟩ := Option.map_eq_some'.mp h
    cases h
    exact .inr ⟨route, rfl, hroute, subscribes_commitSession _ _ _ s⟩

/-! #### `UnregisterFrontend` -/

/-- One subscription of a departing frontend: every session left keeps the weights it had,
and every backend its info. -/
theorem unsubscribeSession_routes {frontend : Nat} {session : String}
    {acc acc' : Scheduler × List Nat} (h : unsubscribeSession frontend acc session = some acc') :
    RoutesKept [] acc'.1 acc.1 ∧ acc'.1.frontends = acc.1.frontends ∧
      acc'.1.effects = acc.1.effects := by
  obtain ⟨info, hinfo, h⟩ := Option.bind_eq_some.mp h
  let s1 : Scheduler :=
    { acc.1 with sessionTable := acc.1.sessionTable.insert session (info.unsubscribe frontend).2 }
  have hleft : RoutesKept [] s1 acc.1 := by
    intro x info' _ hx
    by_cases hxs : x = session
    · subst hxs
      rw [show s1.sessionTable = _ from rfl, AList.lookup_insert, Option.some.injEq] at hx
      subst hx
      exact ⟨info, hinfo, rfl, fun _ _ => rfl⟩
    · exact ⟨info', (AList.lookup_insert_ne hxs).symm.trans hx, rfl, fun _ _ => rfl⟩
  dsimp only at h
  split at h
  · obtain ⟨⟨s2, updated⟩, hloop, h⟩ := Option.bind_eq_some.mp h
    cases h
    obtain ⟨htable, hfrontends, heffects, hbackends⟩ := @foldlM_invariant _ _
      (fun acc' : Scheduler × List Nat => acc'.1.sessionTable = s1.sessionTable ∧
        acc'.1.frontends = s1.frontends ∧ acc'.1.effects = s1.effects ∧
        ∀ b, (acc'.1.backends.lookup b).map BackendDelegate.info =
          (s1.backends.lookup b).map BackendDelegate.info)
      (unloadFrom session) _ (s1, acc.2) _
      (fun _ _ _ _ hacc hstep => by
        obtain rfl := unloadFrom_eq_some hstep
        exact ⟨hacc.1, hacc.2.1, hacc.2.2.1,
          fun b => (info_lookup_modifyBackend (g := BackendDelegate.unloadModel session)
            (fun _ => rfl)
            b).trans (hacc.2.2.2 b)⟩)
      ⟨rfl, rfl, rfl, fun _ => rfl⟩ hloop
    have herase : RoutesKept [] { s2 with sessionTable := s2.sessionTable.erase session } s2 :=
      fun x info' _ hx => ⟨info', by
        by_cases hxs : x = session
        · subst hxs; simp at hx
        · exact (AList.lookup_erase_ne hxs).symm.trans hx, rfl, fun _ _ => rfl⟩
    exact ⟨(herase.trans
      (.of_backends htable.symm fun _ _ _ b _ => (hbackends b).symm)).trans hleft,
      hfrontends, heffects⟩
  · cases h
    exact ⟨hleft, rfl, rfl⟩

/-- `UnregisterFrontend`: the frontend leaves, every session left keeps the weights it had
and every backend its info, and only model tables are pushed. -/
theorem unregisterFrontend_routes {f : Nat} {s s' : Scheduler}
    (h : unregisterFrontend f s = some s') :
    RoutesKept [] s' s ∧ s'.frontends = s.frontends.erase f ∧
      ∃ backends : List Nat, s'.effects = s.effects ++ backends.map Effect.updateModelTable := by
  obtain ⟨_, -, h⟩ := Option.bind_eq_some.mp h
  obtain ⟨⟨s1, updated⟩, hloop, h⟩ := Option.bind_eq_some.mp h
  cases h
  obtain ⟨hroutes, hfrontends, heffects⟩ := foldlM_invariant
    (fun acc : Scheduler × List Nat => RoutesKept [] acc.1 s ∧
      acc.1.frontends = s.frontends.erase f ∧ acc.1.effects = s.effects)
    (fun _ _ _ _ hacc hstep => have hpass := unsubscribeSession_routes hstep
      ⟨hpass.1.trans hacc.1, hpass.2.1.trans hacc.2.1, hpass.2.2.trans hacc.2.2⟩)
    ⟨RoutesKept.refl s, rfl, rfl⟩ hloop
  exact ⟨hroutes, hfrontends, updated, by rw [← heffects]; rfl⟩

end Handlers

end Scheduler

end NexusLb.Sched
