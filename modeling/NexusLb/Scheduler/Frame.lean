import NexusLb.Scheduler.Rates

/-!
# What the handlers leave alone

Most of the scheduler's work moves weights, rates, backups and instances.  Two
relations between a state and a later one say what such work keeps: `SamePins`, the
static pins and the registered backends with their workload ids, and
`KeepsSubscribers`, the frontends and every session with its subscribers; `Untouched`
is both.  The loops of `AllocateUnassignedWorkloads`, `EpochSchedule`, `BeaconCheck` and
`ReportWorkload`, `LoadModel`'s loading, and the session records of `AddBackend`'s
pinning keep `Untouched`, so the invariants on pins and subscriptions read these
handlers off the lemmas here and treat only the others on their own.
-/

namespace NexusLb.Sched

namespace Scheduler

variable {cfg : Config} {policy : Policy}

/-- A change that keeps the pins, and the registered backends with their workload
ids. -/
structure SamePins (s s' : Scheduler) : Prop where
  pins : s'.assignedStaticWorkloads = s.assignedStaticWorkloads
  workloadIds : ∀ b, (s'.backends.lookup b).map BackendDelegate.workloadId =
    (s.backends.lookup b).map BackendDelegate.workloadId

namespace SamePins

variable {s s' s'' : Scheduler}

theorem refl (s : Scheduler) : SamePins s s := ⟨rfl, fun _ => rfl⟩

theorem trans (h : SamePins s s') (h' : SamePins s' s'') : SamePins s s'' :=
  ⟨h'.pins.trans h.pins, fun b => (h'.workloadIds b).trans (h.workloadIds b)⟩

theorem of_backends (hpins : s'.assignedStaticWorkloads = s.assignedStaticWorkloads)
    (hbackends : s'.backends = s.backends) : SamePins s s' :=
  ⟨hpins, fun b => by rw [hbackends]⟩

theorem modifySession {session : String} {f : SessionInfo → SessionInfo} :
    SamePins s (s.modifySession session f) :=
  of_backends rfl rfl

theorem modifyBackend {b : Nat} {f : BackendDelegate → BackendDelegate}
    (hf : ∀ backend, (f backend).workloadId = backend.workloadId) :
    SamePins s (s.modifyBackend b f) := by
  refine ⟨rfl, fun b' => ?_⟩
  simp only [backends_modifyBackend, Table.lookup_modify]
  split
  · simp [Option.map_map, Function.comp_def, hf]
  · rfl

/-- A registered backend replaced by one with its workload id. -/
theorem insert {b : Nat} {backend backend' : BackendDelegate}
    (hb : s.backends.lookup b = some backend) (hwid : backend'.workloadId = backend.workloadId) :
    SamePins s { s with backends := s.backends.insert b backend' } := by
  refine ⟨rfl, fun b' => ?_⟩
  by_cases hb' : b' = b
  · subst b'; simp [hb, hwid]
  · exact congrArg _ (AList.lookup_insert_ne hb')

theorem updateModelRoutes {sessions : List String} (h : s.updateModelRoutes sessions = some s') :
    SamePins s s' := by
  obtain ⟨effects, rfl⟩ := updateModelRoutes_frame h
  exact of_backends rfl rfl

/-- The updates that close a handler: the model tables to the backends, the routes to
the frontends. -/
theorem publish {backends : List Nat} {sessions : List String}
    (h : (s.updateModelTables backends).updateModelRoutes sessions = some s') : SamePins s s' :=
  SamePins.trans (by exact of_backends rfl rfl) (updateModelRoutes h)

theorem foldlM_atSession {α : Type} {l : List α} {key : α → String}
    {f : α → SessionInfo → SessionInfo}
    (h : l.foldlM (fun s x => s.atSession (key x) (f x)) s = some s') : SamePins s s' :=
  foldlM_invariant (SamePins s) (fun _ _ _ _ hacc hstep => by
    obtain ⟨-, rfl⟩ := atSession_eq_some.mp hstep
    exact hacc.trans modifySession) (refl s) h

theorem foldl {α β : Type} {l : List α} {f : Scheduler × β → α → Scheduler × β}
    (hf : ∀ acc x, SamePins acc.1 (f acc x).1) (acc : Scheduler × β) :
    SamePins acc.1 (l.foldl f acc).1 := by
  induction l generalizing acc with
  | nil => exact refl _
  | cons x l ih => exact (hf acc x).trans (ih _)

end SamePins

/-- A change that keeps the frontends, and every session with its subscribers. -/
structure KeepsSubscribers (s s' : Scheduler) : Prop where
  frontends : s'.frontends = s.frontends
  sessions : ∀ session info, s.sessionTable.lookup session = some info →
    ∃ info', s'.sessionTable.lookup session = some info' ∧ info'.subscribers = info.subscribers

namespace KeepsSubscribers

variable {s s' s'' : Scheduler}

theorem refl (s : Scheduler) : KeepsSubscribers s s := ⟨rfl, fun _ info h => ⟨info, h, rfl⟩⟩

theorem trans (h : KeepsSubscribers s s') (h' : KeepsSubscribers s' s'') :
    KeepsSubscribers s s'' := by
  refine ⟨h'.frontends.trans h.frontends, fun session info hinfo => ?_⟩
  obtain ⟨info', hinfo', hsame⟩ := h.sessions session info hinfo
  obtain ⟨info'', hinfo'', hsame'⟩ := h'.sessions session info' hinfo'
  exact ⟨info'', hinfo'', hsame'.trans hsame⟩

theorem of_sessionTable (hfrontends : s'.frontends = s.frontends)
    (htable : s'.sessionTable = s.sessionTable) : KeepsSubscribers s s' :=
  ⟨hfrontends, fun _ info h => ⟨info, htable ▸ h, rfl⟩⟩

theorem modifySession {session : String} {f : SessionInfo → SessionInfo}
    (hf : ∀ info, (f info).subscribers = info.subscribers) :
    KeepsSubscribers s (s.modifySession session f) := by
  refine ⟨rfl, fun session' info h => ?_⟩
  rw [sessionTable_modifySession, Table.lookup_modify]
  split
  · exact ⟨f info, by rw [h]; rfl, hf info⟩
  · exact ⟨info, h, rfl⟩

/-- A session created where none was, with whatever subscribers. -/
theorem emplace {session : String} {info : SessionInfo} :
    KeepsSubscribers s { s with sessionTable := s.sessionTable.emplace session info } := by
  refine ⟨rfl, fun session' info' h => ⟨info', ?_, rfl⟩⟩
  show (s.sessionTable.emplace session info).lookup session' = _
  rw [Table.lookup_emplace, h]
  rfl

theorem foldlM_atSession {α : Type} {l : List α} {key : α → String}
    {f : α → SessionInfo → SessionInfo}
    (hf : ∀ x info, (f x info).subscribers = info.subscribers)
    (h : l.foldlM (fun s x => s.atSession (key x) (f x)) s = some s') : KeepsSubscribers s s' :=
  foldlM_invariant (KeepsSubscribers s) (fun _ x _ _ hacc hstep => by
    obtain ⟨-, rfl⟩ := atSession_eq_some.mp hstep
    exact hacc.trans (modifySession (hf x))) (refl s) h

theorem foldl {α β : Type} {l : List α} {f : Scheduler × β → α → Scheduler × β}
    (hf : ∀ acc x, KeepsSubscribers acc.1 (f acc x).1) (acc : Scheduler × β) :
    KeepsSubscribers acc.1 (l.foldl f acc).1 := by
  induction l generalizing acc with
  | nil => exact refl _
  | cons x l ih => exact (hf acc x).trans (ih _)

/-- The updates that close a handler: the model tables to the backends, the routes to
the frontends. -/
theorem publish {backends : List Nat} {sessions : List String}
    (h : (s.updateModelTables backends).updateModelRoutes sessions = some s') :
    KeepsSubscribers s s' := by
  obtain ⟨effects, rfl⟩ := updateModelRoutes_frame h
  exact of_sessionTable rfl rfl

end KeepsSubscribers

/-- A change that keeps the pins and workload ids, and the frontends and subscribers. -/
structure Untouched (s s' : Scheduler) : Prop where
  samePins : SamePins s s'
  keepsSubscribers : KeepsSubscribers s s'

namespace Untouched

variable {s s' s'' : Scheduler}

theorem refl (s : Scheduler) : Untouched s s := ⟨.refl s, .refl s⟩

theorem trans (h : Untouched s s') (h' : Untouched s' s'') : Untouched s s'' :=
  ⟨h.samePins.trans h'.samePins, h.keepsSubscribers.trans h'.keepsSubscribers⟩

theorem modifySession {session : String} {f : SessionInfo → SessionInfo}
    (hf : ∀ info, (f info).subscribers = info.subscribers) :
    Untouched s (s.modifySession session f) :=
  ⟨.modifySession, .modifySession hf⟩

theorem modifyBackend {b : Nat} {f : BackendDelegate → BackendDelegate}
    (hf : ∀ backend, (f backend).workloadId = backend.workloadId) :
    Untouched s (s.modifyBackend b f) :=
  ⟨.modifyBackend hf, .of_sessionTable rfl rfl⟩

theorem insert {b : Nat} {backend backend' : BackendDelegate}
    (hb : s.backends.lookup b = some backend) (hwid : backend'.workloadId = backend.workloadId) :
    Untouched s { s with backends := s.backends.insert b backend' } :=
  ⟨.insert hb hwid, .of_sessionTable rfl rfl⟩

theorem emplace {session : String} {info : SessionInfo} :
    Untouched s { s with sessionTable := s.sessionTable.emplace session info } :=
  ⟨.of_backends rfl rfl, .emplace⟩

theorem updateModelTables {backends : List Nat} : Untouched s (s.updateModelTables backends) :=
  ⟨.of_backends rfl rfl, .of_sessionTable rfl rfl⟩

theorem publish {backends : List Nat} {sessions : List String}
    (h : (s.updateModelTables backends).updateModelRoutes sessions = some s') : Untouched s s' :=
  ⟨.publish h, .publish h⟩

theorem foldlM_atSession {α : Type} {l : List α} {key : α → String}
    {f : α → SessionInfo → SessionInfo}
    (hf : ∀ x info, (f x info).subscribers = info.subscribers)
    (h : l.foldlM (fun s x => s.atSession (key x) (f x)) s = some s') : Untouched s s' :=
  ⟨.foldlM_atSession h, .foldlM_atSession hf h⟩

theorem foldl {α β : Type} {l : List α} {f : Scheduler × β → α → Scheduler × β}
    (hf : ∀ acc x, Untouched acc.1 (f acc x).1) (acc : Scheduler × β) :
    Untouched acc.1 (l.foldl f acc).1 :=
  ⟨SamePins.foldl (fun acc x => (hf acc x).samePins) acc,
    KeepsSubscribers.foldl (fun acc x => (hf acc x).keepsSubscribers) acc⟩

end Untouched

/-! ### Backends that are not pinned

The loops below write to a backend only when `splitStatic` set it aside, the grow loop
found it overloaded, or `FindBestBackend` chose it; each of these leaves out the
backends pinned to a static workload, and the workload ids do not change on the way. -/

/-- Backend `b`, when registered, is not pinned to a static workload (`workload_id() < 0`). -/
def Unpinned (s : Scheduler) (b : Nat) : Prop :=
  ∀ backend, s.backends.lookup b = some backend → backend.workloadId < 0

theorem SamePins.unpinned {s s' : Scheduler} (h : SamePins s s') {b : Nat} (hb : Unpinned s b) :
    Unpinned s' b := fun backend' hb' => by
  have hwid := h.workloadIds b
  rw [hb', Option.map_some'] at hwid
  obtain ⟨backend, hlookup, heq⟩ := Option.map_eq_some'.mp hwid.symm
  exact heq ▸ hb backend hlookup

theorem SamePins.unloadSession {s : Scheduler} {session : String} {b : Nat}
    {backend : BackendDelegate} (hb : s.backends.lookup b = some backend) :
    SamePins s (unloadSession session b backend s) :=
  (insert hb (BackendDelegate.workloadId_unloadModel _ _)).trans modifySession

theorem SamePins.resizeSession {s : Scheduler} {session : String} {b : Nat}
    {backend : BackendDelegate} (rate : ℚ) (hb : s.backends.lookup b = some backend) :
    SamePins s (resizeSession policy session b
      (backend.updateModelThroughput policy session rate).2 s) :=
  (insert hb (BackendDelegate.workloadId_updateModelThroughput _ _ _ _)).trans modifySession

theorem untouched_spillOut {s s' : Scheduler} {b : Nat} (h : spillOut policy s b = some s') :
    Untouched s s' := by
  unfold spillOut at h
  split at h
  · cases h; exact .refl s
  · rename_i backend hb
    have hwid := BackendDelegate.workloadId_spillOutWorkload policy backend
    generalize backend.spillOutWorkload policy = out at h hwid
    obtain ⟨spilled, rest⟩ := out
    exact (Untouched.insert hb hwid).trans (.foldlM_atSession (by intro _ _; rfl) h)

@[simp]
theorem mem_sortByWeight {adjust : List (Nat × ℚ)} {p : Nat × ℚ} :
    p ∈ sortByWeight adjust ↔ p ∈ adjust :=
  (List.perm_insertionSort _ adjust).mem_iff

/-- The backends `splitStatic` sets aside to adjust are not pinned. -/
theorem splitStatic_unpinned {s : Scheduler} {weights : List (Σ _ : Nat, ℚ)} {estimate left : ℚ}
    {adjust : List (Nat × ℚ)} (h : s.splitStatic weights estimate = some (left, adjust)) :
    ∀ p ∈ adjust, Unpinned s p.1 := by
  unfold splitStatic at h
  refine foldlM_invariant (fun acc : ℚ × List (Nat × ℚ) => ∀ p ∈ acc.2, Unpinned s p.1)
    (fun acc entry _ _ hacc hstep => ?_) (fun _ hp => absurd hp (List.not_mem_nil _)) h
  obtain ⟨backend, hb, hstep⟩ := Option.bind_eq_some.mp hstep
  cases hstep
  split_ifs with hpinned
  · exact hacc
  · intro p hp
    rcases List.mem_append.mp hp with hp | hp
    · exact hacc p hp
    · intro backend' hb'
      rw [List.mem_singleton.mp hp, hb] at hb'
      cases hb'
      exact lt_of_not_le hpinned

/-- The backends the grow loop adds to the overloaded list are ones it adjusts. -/
theorem growLoop_overloaded {session : String} :
    ∀ (adjust : List (Nat × ℚ)) (estimate : ℚ) {s : Scheduler} {overloaded : List Nat}
      {result : ℚ × Scheduler × List Nat},
      growLoop policy session adjust estimate (s, overloaded) = some result →
      ∀ b ∈ result.2.2, b ∈ overloaded ∨ ∃ p ∈ adjust, p.1 = b
  | [], _, _, _, _, h => by cases h; exact fun b hb => .inl hb
  | (b, weight) :: rest, estimate, s, overloaded, result, h => by
    have hlift : ∀ {x}, (x ∈ overloaded ∨ ∃ p ∈ rest, p.1 = x) →
        x ∈ overloaded ∨ ∃ p ∈ (b, weight) :: rest, p.1 = x := fun hx =>
      hx.imp_right fun ⟨p, hp, hpx⟩ => ⟨p, List.mem_cons_of_mem _ hp, hpx⟩
    rw [growLoop] at h
    split at h
    · obtain ⟨backend, -, h⟩ := Option.bind_eq_some.mp h
      exact fun x hx => hlift (growLoop_overloaded rest estimate h x hx)
    · obtain ⟨backend, -, h⟩ := Option.bind_eq_some.mp h
      generalize backend.updateModelThroughput policy session estimate = resized at h
      obtain ⟨throughput, resized⟩ := resized
      intro x hx
      rcases growLoop_overloaded rest _ h x hx with hx | hx
      · split_ifs at hx
        · rcases List.mem_append.mp hx with hx | hx
          · exact .inl hx
          · exact .inr ⟨(b, weight), List.mem_cons_self _ _, (List.mem_singleton.mp hx).symm⟩
        · exact .inl hx
      · exact hlift (.inr hx)

/-! ### The loops of `AllocateUnassignedWorkloads` and `EpochSchedule`

Each of these loops chains a few kinds of write: loading an instance and recording its
weight, recording a debt, unloading or resizing an adjusted instance, spilling a backend,
and publishing the tables.  A reflexive and transitive relation that each kind keeps,
when the backend written to is not pinned, holds across the loop; the relations of this
module and of the ones after it are read off these lemmas. -/

section Loops

variable (R : Scheduler → Scheduler → Prop) (hrefl : ∀ s, R s s)
  (htrans : ∀ {s₁ s₂ s₃}, R s₁ s₂ → R s₂ s₃ → R s₁ s₃)
include hrefl htrans

/-- Across the placement loop of one session. -/
theorem allocateSession_induction {session : String}
    (hplace : ∀ s b backend (inst : InstanceInfo), s.backends.lookup b = some backend →
      backend.workloadId < 0 → R s ((s.modifyBackend b
        (BackendDelegate.loadModel inst)).modifySession session fun info =>
          { info with backendWeights := info.backendWeights.emplace b (inst.getWeight policy) })) :
    ∀ {fuel : Nat} {rate : ℚ} {acc : Scheduler × Changes} {result : ℚ × Scheduler × Changes},
      allocateSession policy session fuel rate acc = some result → R acc.1 result.2.1
  | 0, _, _, _, h => by cases h
  | fuel + 1, rate, acc, result, h => by
    rw [allocateSession] at h
    split at h
    · cases hbest : findBestBackend policy acc.1 session rate [] with
      | none => rw [hbest] at h; cases h; exact hrefl _
      | some placed =>
        rw [hbest, Option.elim_some] at h
        obtain ⟨backend, hb, -, hwid, -⟩ := findBestBackend_spec policy hbest
        exact htrans (hplace _ _ _ _ hb hwid) (allocateSession_induction hplace h)
    · cases h; exact hrefl _

theorem allocateUnassignedWorkloads_induction
    (hplace : ∀ session s b backend (inst : InstanceInfo), s.backends.lookup b = some backend →
      backend.workloadId < 0 → R s ((s.modifyBackend b
        (BackendDelegate.loadModel inst)).modifySession session fun info =>
          { info with backendWeights := info.backendWeights.emplace b (inst.getWeight policy) }))
    (hdebt : ∀ session s debt,
      R s (s.modifySession session fun info => { info with unassignedWorkload := debt }))
    {s s' : Scheduler} {changes changes' : Changes}
    (h : allocateUnassignedWorkloads policy s changes = some (s', changes')) : R s s' := by
  dsimp only [allocateUnassignedWorkloads] at h
  split at h
  · cases h; exact hrefl s
  · refine foldlM_invariant (fun acc : Scheduler × Changes => R s acc.1)
      (fun _ _ _ _ hacc hpass => ?_) (hrefl s) h
    obtain ⟨⟨rate, s1, changes1⟩, hloop, hpass⟩ := Option.bind_eq_some.mp hpass
    cases hpass
    exact htrans (htrans hacc (allocateSession_induction R hrefl htrans (hplace _) hloop))
      (hdebt _ _ _)

variable {session : String}
  (hunload : ∀ s b backend, s.backends.lookup b = some backend → backend.workloadId < 0 →
    R s (unloadSession session b backend s))
  (hresize : ∀ s b backend rate, s.backends.lookup b = some backend → backend.workloadId < 0 →
    R s (resizeSession policy session b (backend.updateModelThroughput policy session rate).2 s))
include hunload hresize

theorem releaseLoop_induction :
    ∀ (adjust : List (Nat × ℚ)) (estimate : ℚ) {s : Scheduler} {result : ℚ × Scheduler},
      releaseLoop policy session adjust estimate s = some result →
      (∀ p ∈ adjust, Unpinned s p.1) → R s result.2
  | [], _, _, _, h, _ => by cases h; exact hrefl _
  | (b, weight) :: rest, estimate, s, result, h, hadjust => by
    have hfree := hadjust (b, weight) (List.mem_cons_self _ _)
    have hrest : ∀ {s'}, SamePins s s' → ∀ p ∈ rest, Unpinned s' p.1 :=
      fun hs p hp => hs.unpinned (hadjust p (List.mem_cons_of_mem _ hp))
    rw [releaseLoop] at h
    split at h
    · obtain ⟨backend, hb, h⟩ := Option.bind_eq_some.mp h
      exact htrans (hunload _ _ _ hb (hfree _ hb))
        (releaseLoop_induction rest estimate h (hrest (.unloadSession hb)))
    · split at h
      · obtain ⟨backend, hb, h⟩ := Option.bind_eq_some.mp h
        have hpass := hresize _ _ _ estimate hb (hfree _ hb)
        have hpins : SamePins s (resizeSession policy session b
            (backend.updateModelThroughput policy session estimate).2 s) := .resizeSession _ hb
        generalize backend.updateModelThroughput policy session estimate = resized at h hpass hpins
        obtain ⟨throughput, resized⟩ := resized
        exact htrans hpass (releaseLoop_induction rest _ h (hrest hpins))
      · exact releaseLoop_induction rest _ h (hrest (.refl s))

theorem growLoop_induction :
    ∀ (adjust : List (Nat × ℚ)) (estimate : ℚ) {s : Scheduler} {overloaded : List Nat}
      {result : ℚ × Scheduler × List Nat},
      growLoop policy session adjust estimate (s, overloaded) = some result →
      (∀ p ∈ adjust, Unpinned s p.1) → R s result.2.1
  | [], _, _, _, _, h, _ => by cases h; exact hrefl _
  | (b, weight) :: rest, estimate, s, overloaded, result, h, hadjust => by
    have hfree := hadjust (b, weight) (List.mem_cons_self _ _)
    have hrest : ∀ {s'}, SamePins s s' → ∀ p ∈ rest, Unpinned s' p.1 :=
      fun hs p hp => hs.unpinned (hadjust p (List.mem_cons_of_mem _ hp))
    rw [growLoop] at h
    split at h
    · obtain ⟨backend, hb, h⟩ := Option.bind_eq_some.mp h
      exact htrans (hunload _ _ _ hb (hfree _ hb))
        (growLoop_induction rest estimate h (hrest (.unloadSession hb)))
    · obtain ⟨backend, hb, h⟩ := Option.bind_eq_some.mp h
      have hpass := hresize _ _ _ estimate hb (hfree _ hb)
      have hpins : SamePins s (resizeSession policy session b
          (backend.updateModelThroughput policy session estimate).2 s) := .resizeSession _ hb
      generalize backend.updateModelThroughput policy session estimate = resized at h hpass hpins
      obtain ⟨throughput, resized⟩ := resized
      exact htrans hpass (growLoop_induction rest _ h (hrest hpins))

/-- Across the sizing of one session, given also that recording its debt keeps `R`. -/
theorem scheduleSession_induction
    (hdebt : ∀ s debt,
      R s (s.modifySession session fun info => { info with unassignedWorkload := debt }))
    {acc acc' : Scheduler × List String × List Nat}
    (h : scheduleSession cfg policy acc session = some acc') : R acc.1 acc'.1 := by
  rcases scheduleSession_cases h with ⟨h, -⟩ | ⟨_, _, -, ⟨h, -⟩ |
      ⟨_, _, _, _, hsplit, hloop, h, -⟩ | ⟨_, _, _, _, _, hsplit, hloop, h, -⟩⟩ <;> rw [h]
  · exact hrefl _
  · exact hdebt _ _
  · exact htrans (hdebt _ _) (releaseLoop_induction R hrefl htrans hunload hresize _ _ hloop
      fun p hp => splitStatic_unpinned hsplit p (mem_sortByWeight.mp hp))
  · exact htrans (htrans (hdebt _ _) (growLoop_induction R hrefl htrans hunload hresize _ _ hloop
      fun p hp => splitStatic_unpinned hsplit p (mem_sortByWeight.mp hp))) (hdebt _ _)

end Loops

theorem scheduleSession_samePins {acc acc' : Scheduler × List String × List Nat} {session : String}
    (h : scheduleSession cfg policy acc session = some acc') : SamePins acc.1 acc'.1 :=
  scheduleSession_induction SamePins .refl .trans (fun _ _ _ hb _ => .unloadSession hb)
    (fun _ _ _ _ hb _ => .resizeSession _ hb) (fun _ _ => .modifySession) h

/-- The backends on the overloaded list after sizing a session are not pinned, given that
those on it before were not. -/
theorem scheduleSession_overloaded {acc acc' : Scheduler × List String × List Nat}
    {session : String} (h : scheduleSession cfg policy acc session = some acc')
    (hover : ∀ b ∈ acc.2.2, Unpinned acc.1 b) : ∀ b ∈ acc'.2.2, Unpinned acc'.1 b := by
  have hpins := scheduleSession_samePins h
  rcases scheduleSession_cases h with ⟨-, hov⟩ | ⟨_, _, -, ⟨-, hov⟩ | ⟨_, _, _, _, -, -, -, hov⟩ |
      ⟨_, _, _, _, _, hsplit, hloop, hs, hov⟩⟩
  iterate 3 exact fun b hb => hpins.unpinned (hover b (hov ▸ hb))
  have hadjust := fun p hp => splitStatic_unpinned hsplit p (mem_sortByWeight.mp hp)
  intro b hb
  rw [hov] at hb
  rcases growLoop_overloaded _ _ hloop b hb with hb | ⟨p, hp, rfl⟩
  · exact hpins.unpinned (hover b hb)
  · rw [hs]
    exact SamePins.modifySession.unpinned ((growLoop_induction SamePins .refl .trans
      (fun _ _ _ hb _ => .unloadSession hb) (fun _ _ _ _ hb _ => .resizeSession _ hb) _ _ hloop
      hadjust).unpinned (hadjust p hp))

/-- Across `EpochSchedule`, given that every kind of write it makes keeps `R` when the
backend written to is not pinned. -/
theorem epochSchedule_induction (R : Scheduler → Scheduler → Prop) (hrefl : ∀ s, R s s)
    (htrans : ∀ {s₁ s₂ s₃}, R s₁ s₂ → R s₂ s₃ → R s₁ s₃)
    (hunload : ∀ session s b backend, s.backends.lookup b = some backend →
      backend.workloadId < 0 → R s (unloadSession session b backend s))
    (hresize : ∀ session s b backend rate, s.backends.lookup b = some backend →
      backend.workloadId < 0 →
        R s (resizeSession policy session b
          (backend.updateModelThroughput policy session rate).2 s))
    (hdebt : ∀ session s debt,
      R s (s.modifySession session fun info => { info with unassignedWorkload := debt }))
    (hplace : ∀ session s b backend (inst : InstanceInfo), s.backends.lookup b = some backend →
      backend.workloadId < 0 → R s ((s.modifyBackend b
        (BackendDelegate.loadModel inst)).modifySession session fun info =>
          { info with backendWeights := info.backendWeights.emplace b (inst.getWeight policy) }))
    (hspill : ∀ s b s', Unpinned s b → spillOut policy s b = some s' → R s s')
    (hpublish : ∀ s s' backends sessions,
      (s.updateModelTables backends).updateModelRoutes sessions = some s' → R s s')
    {s s' : Scheduler} (h : epochSchedule cfg policy s = some s') : R s s' := by
  unfold epochSchedule at h
  obtain ⟨⟨s1, changed, overloaded⟩, hsched, h⟩ := Option.bind_eq_some.mp h
  have h1 : R s s1 ∧ ∀ b ∈ overloaded, Unpinned s1 b :=
    foldlM_invariant (fun acc : Scheduler × List String × List Nat =>
        R s acc.1 ∧ ∀ b ∈ acc.2.2, Unpinned acc.1 b)
      (fun _ x _ _ hacc hstep => ⟨htrans hacc.1 (scheduleSession_induction R hrefl htrans
        (hunload x) (hresize x) (hdebt x) hstep), scheduleSession_overloaded hstep hacc.2⟩)
      ⟨hrefl s, fun _ hb => absurd hb (List.not_mem_nil _)⟩ hsched
  obtain ⟨s2, hspills, h⟩ := Option.bind_eq_some.mp h
  have h2 : R s s2 := (foldlM_invariant (fun acc => R s acc ∧ ∀ b ∈ overloaded, Unpinned acc b)
    (fun _ b _ hb hacc hstep => ⟨htrans hacc.1 (hspill _ _ _ (hacc.2 b hb) hstep),
      fun b' hb' => (untouched_spillOut hstep).samePins.unpinned (hacc.2 b' hb')⟩) h1 hspills).1
  obtain ⟨⟨s3, changes⟩, halloc, h⟩ := Option.bind_eq_some.mp h
  obtain ⟨s4, hroutes, h⟩ := Option.bind_eq_some.mp h
  obtain ⟨_, -, h⟩ := Option.bind_eq_some.mp h
  cases h
  exact htrans
    (htrans h2 (allocateUnassignedWorkloads_induction R hrefl htrans hplace hdebt halloc))
    (hpublish _ _ _ _ hroutes)

/-! ### The handlers -/

section Handlers

theorem untouched_place (session : String) (s : Scheduler) (b : Nat) (inst : InstanceInfo) :
    Untouched s ((s.modifyBackend b (BackendDelegate.loadModel inst)).modifySession session
      fun info => { info with
        backendWeights := info.backendWeights.emplace b (inst.getWeight policy) }) :=
  (Untouched.modifyBackend (BackendDelegate.workloadId_loadModel inst)).trans
    (.modifySession (by intro; rfl))

theorem untouched_allocateUnassignedWorkloads {s s' : Scheduler} {changes changes' : Changes}
    (h : allocateUnassignedWorkloads policy s changes = some (s', changes')) : Untouched s s' :=
  allocateUnassignedWorkloads_induction Untouched .refl .trans
    (fun session s b _ inst _ _ => untouched_place session s b inst)
    (fun _ _ _ => .modifySession (by intro; rfl)) h

theorem untouched_loadAssigned (acc : Scheduler × Table Nat ℚ) (p : Nat × InstanceInfo) :
    Untouched acc.1 (loadAssigned policy acc p).1 :=
  (Untouched.modifyBackend (BackendDelegate.workloadId_loadModel p.2)).trans .updateModelTables

theorem untouched_recordStaticSession (backend : BackendDelegate) (acc : Scheduler × Changes)
    (session : String) : Untouched acc.1 (recordStaticSession policy backend acc session).1 :=
  Untouched.emplace.trans (.modifySession (by intro; rfl))

theorem untouched_recordBackupSession (b : Nat) (acc : Scheduler × Changes) (session : String) :
    Untouched acc.1 (recordBackupSession b acc session).1 := by
  dsimp only [recordBackupSession]
  split
  · split
    · exact .emplace
    · exact Untouched.emplace.trans (.modifySession (by intro; rfl))
  · exact .emplace

/-- `AddBackend`'s pinning branch, once the backend is pinned, records its sessions and
backups and touches nothing else. -/
theorem untouched_pinStaticWorkload (backend : BackendDelegate) (id : Nat) (s : Scheduler) :
    Untouched { s with
        assignedStaticWorkloads := s.assignedStaticWorkloads.insert id backend.nodeId
        backends := s.backends.insert backend.nodeId (loadStaticWorkload cfg policy backend id) }
      (pinStaticWorkload cfg policy backend id s).1 :=
  (Untouched.foldl (untouched_recordStaticSession _) (_, ⟨[], [backend.nodeId]⟩)).trans
    (Untouched.foldl (untouched_recordBackupSession _) _)

theorem untouched_reportWorkload {s s' : Scheduler} {request : WorkloadStats}
    (h : reportWorkload request s = some s') : Untouched s s' := by
  unfold Scheduler.reportWorkload at h
  split at h
  · exact .foldlM_atSession (by intro _ _; rfl) h
  · cases h

theorem untouched_beaconCheck {s s' : Scheduler} {trigger : Bool}
    (h : beaconCheck cfg s = some (trigger, s')) : Untouched s s' := by
  obtain ⟨_, -, hs⟩ := Option.map_eq_some'.mp h
  cases hs
  clear h
  generalize s.sessionTable.keyList = sessions
  induction sessions generalizing s with
  | nil => exact .refl _
  | cons session sessions ih => exact (Untouched.modifySession (by intro; rfl)).trans ih

theorem untouched_epochSchedule {s s' : Scheduler} (h : epochSchedule cfg policy s = some s') :
    Untouched s s' :=
  epochSchedule_induction Untouched .refl .trans
    (fun _ _ _ _ hb _ => (Untouched.insert hb (BackendDelegate.workloadId_unloadModel _ _)).trans
      (.modifySession (by intro; rfl)))
    (fun _ _ _ _ _ hb _ => (Untouched.insert hb
      (BackendDelegate.workloadId_updateModelThroughput _ _ _ _)).trans
        (.modifySession (by intro; rfl)))
    (fun _ _ _ => .modifySession (by intro; rfl))
    (fun session s b _ inst _ _ => untouched_place session s b inst)
    (fun _ _ _ _ => untouched_spillOut) (fun _ _ _ _ => .publish) h

end Handlers

end Scheduler

end NexusLb.Sched
