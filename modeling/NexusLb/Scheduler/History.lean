import NexusLb.Scheduler.Subscriptions

/-!
# Rate histories

`BeaconCheck` appends each session's summed rate to its `rps_history`, pops the oldest
sample once the history is longer than `history_len_`, and reads
`rps_history[history_len_ - 1]` of every history at least that long; `EpochSchedule`
reads `rps_history[n - 1]`, with `n` the history's length, under the same guard.  No other
handler writes a history (`KeepsHistories`), so for every configuration every history
holds at most `history_len_` samples (`Reachable.historiesWithin`), and once
`history_len_` is at least one both reads are in range and name the latest sample
(`rate_history_reads_in_range`).  `history_len_` is `(3 avg_interval + beacon - 1) /
beacon`, which is `0` when `avg_interval` is: the guards then let an empty history
through, and both reads are at index `-1` (`zero_average_reads_before_history`).
-/

namespace NexusLb.Sched

namespace Scheduler

variable {cfg : Config} {policy : Policy} {db : ModelDatabase}

/-- A change after which every session has the history it had before, or a new empty
one. -/
def KeepsHistories (s s' : Scheduler) : Prop :=
  ∀ session info', s'.sessionTable.lookup session = some info' →
    info'.rpsHistory = [] ∨
      ∃ info, s.sessionTable.lookup session = some info ∧ info'.rpsHistory = info.rpsHistory

namespace KeepsHistories

variable {s s' s'' : Scheduler}

theorem refl (s : Scheduler) : KeepsHistories s s := fun _ info h => .inr ⟨info, h, rfl⟩

theorem trans (h : KeepsHistories s s') (h' : KeepsHistories s' s'') : KeepsHistories s s'' := by
  intro session info'' hinfo''
  rcases h' session info'' hinfo'' with hnil | ⟨info', hinfo', hsame'⟩
  · exact .inl hnil
  rcases h session info' hinfo' with hnil | ⟨info, hinfo, hsame⟩
  · exact .inl (hsame'.trans hnil)
  · exact .inr ⟨info, hinfo, hsame'.trans hsame⟩

theorem of_sessionTable (htable : s'.sessionTable = s.sessionTable) : KeepsHistories s s' :=
  fun _ info h => .inr ⟨info, htable ▸ h, rfl⟩

/-- A change to one session that keeps every history. -/
theorem of_modify {session : String} {f : SessionInfo → SessionInfo}
    (hf : ∀ info, (f info).rpsHistory = info.rpsHistory)
    (htable : s'.sessionTable = s.sessionTable.modify session f) : KeepsHistories s s' := by
  intro session' info' h
  rw [htable, Table.lookup_modify] at h
  split at h
  · obtain ⟨info, hinfo, rfl⟩ := Option.map_eq_some'.mp h
    exact .inr ⟨info, hinfo, hf info⟩
  · exact .inr ⟨info', h, rfl⟩

theorem modifySession {session : String} {f : SessionInfo → SessionInfo}
    (hf : ∀ info, (f info).rpsHistory = info.rpsHistory) :
    KeepsHistories s (s.modifySession session f) :=
  of_modify hf (sessionTable_modifySession session f s)

theorem modifyBackend {b : Nat} {f : BackendDelegate → BackendDelegate} :
    KeepsHistories s (s.modifyBackend b f) :=
  of_sessionTable rfl

/-- A session created where none was, with an empty history. -/
theorem emplace {session : String} {info : SessionInfo} (hinfo : info.rpsHistory = []) :
    KeepsHistories s { s with sessionTable := s.sessionTable.emplace session info } := by
  intro session' info' h
  rcases Option.or_eq_some.mp (Table.lookup_emplace.symm.trans h) with hold | ⟨-, hnew⟩
  · exact .inr ⟨info', hold, rfl⟩
  · split at hnew
    · cases hnew; exact .inl hinfo
    · cases hnew

/-- A session replaced by a record with its history. -/
theorem insert {session : String} {info info' : SessionInfo}
    (hinfo : s.sessionTable.lookup session = some info)
      (hsame : info'.rpsHistory = info.rpsHistory) :
    KeepsHistories s { s with sessionTable := s.sessionTable.insert session info' } := by
  intro session' info'' h
  by_cases hsession : session' = session
  · subst session'
    cases (AList.lookup_insert _).symm.trans h
    exact .inr ⟨info, hinfo, hsame⟩
  · exact .inr ⟨info'', (AList.lookup_insert_ne hsession).symm.trans h, rfl⟩

theorem erase {session : String} :
    KeepsHistories s { s with sessionTable := s.sessionTable.erase session } := by
  intro session' info' h
  by_cases hsession : session' = session
  · subst session'
    cases (AList.lookup_erase _ _).symm.trans h
  · exact .inr ⟨info', (AList.lookup_erase_ne hsession).symm.trans h, rfl⟩

theorem foldlM_atSession {α : Type} {l : List α} {key : α → String}
    {f : α → SessionInfo → SessionInfo} (hf : ∀ x info, (f x info).rpsHistory = info.rpsHistory)
    (h : l.foldlM (fun s x => s.atSession (key x) (f x)) s = some s') : KeepsHistories s s' :=
  foldlM_invariant (KeepsHistories s) (fun _ x _ _ hacc hstep => by
    obtain ⟨-, rfl⟩ := atSession_eq_some.mp hstep
    exact hacc.trans (modifySession (hf x))) (refl s) h

theorem foldl {α β : Type} {l : List α} {f : Scheduler × β → α → Scheduler × β}
    (hf : ∀ acc x, KeepsHistories acc.1 (f acc x).1) (acc : Scheduler × β) :
    KeepsHistories acc.1 (l.foldl f acc).1 := by
  induction l generalizing acc with
  | nil => exact refl _
  | cons x l ih => exact (hf acc x).trans (ih _)

/-- The updates that close a handler: the model tables to the backends, the routes to
the frontends. -/
theorem publish {backends : List Nat} {sessions : List String}
    (h : (s.updateModelTables backends).updateModelRoutes sessions = some s') :
    KeepsHistories s s' := by
  obtain ⟨effects, rfl⟩ := updateModelRoutes_frame h
  exact of_sessionTable rfl

end KeepsHistories

/-! ### The handlers other than `BeaconCheck` -/

section Handlers

theorem keepsHistories_allocateUnassignedWorkloads {s s' : Scheduler} {changes changes' : Changes}
    (h : allocateUnassignedWorkloads policy s changes = some (s', changes')) :
    KeepsHistories s s' :=
  allocateUnassignedWorkloads_induction KeepsHistories .refl .trans
    (fun _ _ _ _ _ _ _ => .of_modify (by intro; rfl) rfl)
    (fun _ _ _ => .of_modify (by intro; rfl) rfl) h

/-- `AddBackend`'s pinning branch: the sessions a static workload creates start with
empty histories. -/
theorem keepsHistories_pinStaticWorkload (backend : BackendDelegate) (id : Nat) (s : Scheduler) :
    KeepsHistories s (pinStaticWorkload cfg policy backend id s).1 := by
  have hrecordStatic : ∀ (acc : Scheduler × Changes) session,
      KeepsHistories acc.1
        (recordStaticSession policy (loadStaticWorkload cfg policy backend id) acc
        session).1 :=
    fun _ _ => (KeepsHistories.emplace rfl).trans (.modifySession (by intro; rfl))
  have hrecordBackup : ∀ (acc : Scheduler × Changes) session,
      KeepsHistories acc.1 (recordBackupSession backend.nodeId acc session).1 := by
    intro acc session
    dsimp only [recordBackupSession]
    split
    · split
      · exact .emplace rfl
      · exact (KeepsHistories.emplace rfl).trans (.modifySession (by intro; rfl))
    · exact .emplace rfl
  exact ((KeepsHistories.of_sessionTable rfl).trans (.foldl hrecordStatic _)).trans
    (.foldl hrecordBackup _)

theorem keepsHistories_registerFrontend {s s' : Scheduler} {frontend : Nat}
    (h : registerFrontend frontend s = some s') : KeepsHistories s s' := by
  unfold Scheduler.registerFrontend at h
  split at h
  · cases h
  · cases h; exact .of_sessionTable rfl

theorem keepsHistories_registerBackend {s s' : Scheduler} {info : BackendInfo}
    (h : registerBackend cfg policy info s = some s') : KeepsHistories s s' := by
  unfold Scheduler.registerBackend at h
  split at h
  · cases h
  unfold Scheduler.addBackend at h
  dsimp only at h
  have hjoin : KeepsHistories s
      { s with backends := s.backends.insert info.nodeId (.fresh info) } :=
    .of_sessionTable rfl
  split at h
  · rename_i id _
    obtain ⟨⟨s2, changes⟩, hpin, h⟩ := Option.bind_eq_some.mp h
    have hpinned := @keepsHistories_pinStaticWorkload cfg policy (.fresh info) id
      { s with backends := s.backends.insert info.nodeId (.fresh info) }
    rw [Option.some.inj hpin] at hpinned
    exact (hjoin.trans hpinned).trans (.publish h)
  · obtain ⟨⟨s2, changes⟩, halloc, h⟩ := Option.bind_eq_some.mp h
    exact (hjoin.trans (keepsHistories_allocateUnassignedWorkloads halloc)).trans (.publish h)

theorem keepsHistories_dropWeights (d : Nat) (acc : Scheduler × Changes) (session : String) :
    KeepsHistories acc.1 (dropWeights d acc session).1 := by
  unfold dropWeights
  split
  · exact .modifySession (by intro; rfl)
  · exact .refl _

theorem keepsHistories_moveBackup {d a : Nat} {acc acc' : Scheduler × Changes}
    {session : String} (h : moveBackup d a acc session = some acc') :
    KeepsHistories acc.1 acc'.1 := by
  obtain ⟨_, -, h⟩ := Option.bind_eq_some.mp h
  cases h
  exact .modifySession (by intro; rfl)

theorem keepsHistories_dropBackup {d : Nat} {acc acc' : Scheduler × Changes}
    {session : String} (h : dropBackup d acc session = some acc') :
    KeepsHistories acc.1 acc'.1 := by
  obtain ⟨_, -, h⟩ := Option.bind_eq_some.mp h
  split at h <;> cases h
  · exact .modifySession (by intro; rfl)
  · exact .refl _

theorem keepsHistories_migrate {departing assigned : BackendDelegate} {a : Nat}
    {acc acc' : Scheduler × Changes} (h : migrate departing a assigned acc = some acc') :
    KeepsHistories acc.1 acc'.1 := by
  unfold Scheduler.migrate at h
  obtain ⟨s1, hloop, h⟩ := Option.bind_eq_some.mp h
  have h1 : KeepsHistories acc.1 s1 := KeepsHistories.trans
    (by exact .of_sessionTable rfl) (.foldlM_atSession (by intro _ _; rfl) hloop)
  refine foldlM_invariant (fun acc' : Scheduler × Changes => KeepsHistories acc.1 acc'.1)
    (fun _ _ _ _ hacc hstep => hacc.trans (keepsHistories_moveBackup hstep)) ?_ h
  split
  · exact h1.trans (.of_sessionTable rfl)
  · exact h1

theorem keepsHistories_requeue {departing : BackendDelegate} {acc acc' : Scheduler × Changes}
    (h : requeue policy departing acc = some acc') : KeepsHistories acc.1 acc'.1 := by
  unfold Scheduler.requeue at h
  obtain ⟨⟨s1, changes⟩, hloop, h⟩ := Option.bind_eq_some.mp h
  have h1 : KeepsHistories acc.1 s1 :=
    foldlM_invariant (fun acc' : Scheduler × Changes => KeepsHistories acc.1 acc'.1)
      (fun _ _ _ _ hacc hstep => hacc.trans (keepsHistories_dropBackup hstep)) (.refl _) hloop
  dsimp only at h
  split at h
  · cases h; exact h1.trans (.of_sessionTable rfl)
  · obtain ⟨s2, hloop2, h⟩ := Option.bind_eq_some.mp h
    exact (h1.trans (.foldlM_atSession (by intro _ _; rfl) hloop2)).trans
      (keepsHistories_allocateUnassignedWorkloads h)

theorem keepsHistories_unregisterBackend {s s' : Scheduler} {b : Nat}
    (h : unregisterBackend policy b s = some s') : KeepsHistories s s' := by
  obtain ⟨departing, -, h⟩ := Option.bind_eq_some.mp h
  have hleave : KeepsHistories s { s with backends := s.backends.erase departing.nodeId } :=
    .of_sessionTable rfl
  unfold Scheduler.removeBackend at h
  split at h
  · cases h; exact hleave
  have hdrop := hleave.trans (KeepsHistories.foldl (keepsHistories_dropWeights departing.nodeId)
    (l := departing.getModelSessions) (_, ⟨[], []⟩))
  dsimp only at h
  split at h
  · obtain ⟨⟨s3, changes⟩, hmove, h⟩ := Option.bind_eq_some.mp h
    exact (hdrop.trans (keepsHistories_migrate hmove)).trans (.publish h)
  · obtain ⟨⟨s3, changes⟩, hmove, h⟩ := Option.bind_eq_some.mp h
    exact (hdrop.trans (keepsHistories_requeue hmove)).trans (.publish h)

theorem keepsHistories_unsubscribeSession {frontend : Nat} {session : String}
    {acc acc' : Scheduler × List Nat} (h : unsubscribeSession frontend acc session = some acc') :
    KeepsHistories acc.1 acc'.1 := by
  obtain ⟨info, hinfo, -, htable⟩ := unsubscribeSession_tables h
  have hleft : KeepsHistories acc.1
      { acc.1 with
        sessionTable := acc.1.sessionTable.insert session (info.unsubscribe frontend).2 } :=
    .insert hinfo rfl
  split at htable
  · exact (hleft.trans .erase).trans (.of_sessionTable htable)
  · exact hleft.trans (.of_sessionTable htable)

theorem keepsHistories_unregisterFrontend {s s' : Scheduler} {frontend : Nat}
    (h : unregisterFrontend frontend s = some s') : KeepsHistories s s' := by
  obtain ⟨_, -, h⟩ := Option.bind_eq_some.mp h
  obtain ⟨⟨s1, updated⟩, hloop, h⟩ := Option.bind_eq_some.mp h
  cases h
  have h1 : KeepsHistories s s1 :=
    foldlM_invariant (fun acc : Scheduler × List Nat => KeepsHistories s acc.1)
      (fun _ _ _ _ hacc hstep => hacc.trans (keepsHistories_unsubscribeSession hstep))
      (.of_sessionTable rfl) hloop
  exact h1.trans (.of_sessionTable rfl)

theorem keepsHistories_loadModel {s s' : Scheduler} {request : LoadModelRequest}
    {reply : LoadModelReply} (h : s.loadModel policy db request = some (reply, s')) :
    KeepsHistories s s' := by
  rcases loadModel_cases policy h with rfl | ⟨-, rfl⟩ | ⟨assigned, -, -, rfl⟩
  · exact .refl _
  · exact .of_modify (by intro; rfl) rfl
  · unfold commitSession
    have hloaded : KeepsHistories s (assigned.foldl (loadAssigned policy) (s, ∅)).1 :=
      KeepsHistories.foldl (by intro _ _; exact .of_sessionTable rfl) (s, ∅)
    generalize assigned.foldl (loadAssigned policy) (s, ∅) = out at hloaded
    obtain ⟨s1, weights⟩ := out
    exact (hloaded.trans (.emplace rfl)).trans (.of_modify (by intro; rfl) rfl)

theorem keepsHistories_reportWorkload {s s' : Scheduler} {request : WorkloadStats}
    (h : reportWorkload request s = some s') : KeepsHistories s s' := by
  unfold Scheduler.reportWorkload at h
  split at h
  · exact .foldlM_atSession (by intro _ _; rfl) h
  · cases h

theorem keepsHistories_spillOut {s s' : Scheduler} {b : Nat} (h : spillOut policy s b = some s') :
    KeepsHistories s s' := by
  unfold spillOut at h
  split at h
  · cases h; exact .refl s
  · generalize BackendDelegate.spillOutWorkload policy _ = out at h
    obtain ⟨spilled, rest⟩ := out
    exact KeepsHistories.trans (by exact .of_sessionTable rfl)
      (.foldlM_atSession (by intro _ _; rfl) h)

theorem keepsHistories_epochSchedule {s s' : Scheduler} (h : epochSchedule cfg policy s = some s') :
    KeepsHistories s s' :=
  epochSchedule_induction KeepsHistories .refl .trans
    (fun _ _ _ _ _ _ => .of_modify (by intro; rfl) rfl)
    (fun _ _ _ _ _ _ _ => .of_modify (by intro; rfl) rfl)
    (fun _ _ _ => .of_modify (by intro; rfl) rfl)
    (fun _ _ _ _ _ _ _ => .of_modify (by intro; rfl) rfl)
    (fun _ _ _ _ => keepsHistories_spillOut) (fun _ _ _ _ => .publish) h

end Handlers

/-! ### The bound -/

/-- Every session's history holds at most `historyLen` samples. -/
def HistoriesWithin (historyLen : Nat) (s : Scheduler) : Prop :=
  ∀ session info, s.sessionTable.lookup session = some info → info.rpsHistory.length ≤ historyLen

theorem HistoriesWithin.keeps {n : Nat} {s s' : Scheduler} (hw : HistoriesWithin n s)
    (h : KeepsHistories s s') : HistoriesWithin n s' := by
  intro session info' hinfo'
  rcases h session info' hinfo' with hnil | ⟨info, hinfo, hsame⟩
  · simp [hnil]
  · exact hsame ▸ hw session info hinfo

/-- `BeaconCheck`'s push and pop keep a history within the bound. -/
theorem SessionInfo.length_recordRate_le {n : Nat} {info : SessionInfo}
    (h : info.rpsHistory.length ≤ n) : (info.recordRate n).rpsHistory.length ≤ n := by
  have hpop : ∀ pushed : List ℚ, pushed.length ≤ n + 1 →
      (if n < pushed.length then pushed.tail else pushed).length ≤ n := fun pushed hlen => by
    split
    · rw [List.length_tail]; omega
    · omega
  refine hpop _ ?_
  split
  · rw [List.length_append, List.length_singleton]; omega
  · omega

/-- `BeaconCheck`'s aggregation loop keeps every history within the bound. -/
theorem HistoriesWithin.recordRates {n : Nat} :
    ∀ (sessions : List String) {s : Scheduler}, HistoriesWithin n s →
      HistoriesWithin n (sessions.foldl
        (fun s session => s.modifySession session (SessionInfo.recordRate n)) s)
  | [], _, hw => hw
  | session :: sessions, s, hw => HistoriesWithin.recordRates sessions fun session' info' h => by
    rw [sessionTable_modifySession, Table.lookup_modify] at h
    split at h
    · obtain ⟨info, hinfo, rfl⟩ := Option.map_eq_some'.mp h
      exact SessionInfo.length_recordRate_le (hw session' info hinfo)
    · exact hw session' info' h

theorem HistoriesWithin.beaconCheck {s s' : Scheduler} {trigger : Bool}
    (hw : HistoriesWithin cfg.historyLen s) (h : beaconCheck cfg s = some (trigger, s')) :
    HistoriesWithin cfg.historyLen s' := by
  obtain ⟨_, -, hs⟩ := Option.map_eq_some'.mp h
  cases hs
  exact hw.recordRates _

theorem HistoriesWithin.step {s s' : Scheduler} (hw : HistoriesWithin cfg.historyLen s)
    {action : Action} (h : step cfg policy db s action = some s') :
    HistoriesWithin cfg.historyLen s' := by
  cases action with
  | registerFrontend frontend => exact hw.keeps (keepsHistories_registerFrontend h)
  | registerBackend info => exact hw.keeps (keepsHistories_registerBackend h)
  | unregisterFrontend frontend => exact hw.keeps (keepsHistories_unregisterFrontend h)
  | unregisterBackend b => exact hw.keeps (keepsHistories_unregisterBackend h)
  | loadModel request =>
    obtain ⟨⟨reply, s'⟩, hload, rfl⟩ := Option.map_eq_some'.mp h
    exact hw.keeps (keepsHistories_loadModel hload)
  | reportWorkload request => exact hw.keeps (keepsHistories_reportWorkload h)
  | beaconCheck =>
    obtain ⟨⟨trigger, s'⟩, hbeacon, rfl⟩ := Option.map_eq_some'.mp h
    exact hw.beaconCheck hbeacon
  | epochSchedule => exact hw.keeps (keepsHistories_epochSchedule h)

/-- From every reachable state, every history holds at most `history_len_` samples, for
every configuration. -/
theorem Reachable.historiesWithin {s : Scheduler} (hs : Reachable cfg policy db s) :
    HistoriesWithin cfg.historyLen s := by
  induction hs with
  | init => intro _ _ h; cases h
  | step _ hstep ih => exact ih.step hstep

/-! ### The reads -/

/-- Index `length - 1` of a history that is not empty reads its latest sample. -/
theorem historyAt_length_sub_one {history : List ℚ} (h : history ≠ []) :
    historyAt history ((history.length : Int) - 1) = history.getLast? := by
  have hpos : 0 < history.length := List.length_pos.mpr h
  rw [historyAt, if_pos (by omega), List.getLast?_eq_getElem?]
  congr 1
  omega

/-- A guard `historyLen ≤ length` with `1 ≤ historyLen` lets only histories that are not
empty through. -/
theorem ne_nil_of_historyLen_le {n : Nat} {history : List ℚ} (hn : 1 ≤ n)
    (h : n ≤ history.length) : history ≠ [] :=
  List.ne_nil_of_length_pos (by omega)

/-- `BeaconCheck`'s read of a history within the bound that passes its guard is in range
and is the latest sample. -/
theorem SessionInfo.outOfBand_reads_latest {n : Nat} {info : SessionInfo} (hn : 1 ≤ n)
    (hlen : info.rpsHistory.length ≤ n) (hfull : n ≤ info.rpsHistory.length) :
    ∃ last, info.rpsHistory.getLast? = some last ∧
      info.outOfBand n = some (info.leavesBand last) := by
  have hne := ne_nil_of_historyLen_le hn hfull
  obtain ⟨last, hlast⟩ := Option.isSome_iff_exists.mp (List.getLast?_isSome.mpr hne)
  have hsame : info.rpsHistory.length = n := le_antisymm hlen hfull
  refine ⟨last, hlast, ?_⟩
  rw [SessionInfo.outOfBand, if_neg (not_lt.mpr hfull), ← hsame, historyAt_length_sub_one hne,
    hlast]
  rfl

theorem SessionInfo.outOfBand_isSome {n : Nat} {info : SessionInfo} (hn : 1 ≤ n)
    (hlen : info.rpsHistory.length ≤ n) : (info.outOfBand n).isSome := by
  by_cases hfull : n ≤ info.rpsHistory.length
  · obtain ⟨last, -, hread⟩ := SessionInfo.outOfBand_reads_latest hn hlen hfull
    rw [hread]
    rfl
  · rw [SessionInfo.outOfBand, if_pos (not_le.mp hfull)]
    rfl

theorem anyOutOfBand_isSome {n : Nat} :
    ∀ {infos : List SessionInfo}, (∀ info ∈ infos, (info.outOfBand n).isSome) →
      (anyOutOfBand n infos).isSome
  | [], _ => rfl
  | info :: infos, h => by
    obtain ⟨trigger, htrigger⟩ := Option.isSome_iff_exists.mp (h info (.head _))
    simp only [anyOutOfBand, htrigger, Option.bind_eq_bind, Option.some_bind]
    split
    · rfl
    · exact anyOutOfBand_isSome fun info' h' => h info' (.tail _ h')

/-- With every history within a bound of at least one, `BeaconCheck` reads every
history it tests in range. -/
theorem beaconCheck_isSome {s : Scheduler} (hn : 1 ≤ cfg.historyLen)
    (hw : HistoriesWithin cfg.historyLen s) : (beaconCheck cfg s).isSome := by
  rw [beaconCheck, Option.isSome_map']
  refine anyOutOfBand_isSome fun info hinfo => ?_
  obtain ⟨⟨session, info⟩, hentry, rfl⟩ := List.mem_map.mp hinfo
  exact SessionInfo.outOfBand_isSome hn
    (hw.recordRates _ session info (AList.mem_lookup_iff.mpr hentry))

/-- `history_len_` is at least one once `beacon` and `avg_interval` are. -/
theorem one_le_historyLen (hbeacon : 1 ≤ cfg.beacon) (havg : 1 ≤ cfg.avgInterval) :
    1 ≤ cfg.historyLen :=
  (Nat.le_div_iff_mul_le hbeacon).mpr (by omega)

/-- Past its guard, `EpochSchedule`'s read `rps_history[n - 1]` is in range and is the
latest sample, and the session is sized to it. -/
theorem scheduleSession_reads_latest (hn : 1 ≤ cfg.historyLen)
    {acc : Scheduler × List String × List Nat} {session : String} {info : SessionInfo}
    (hinfo : acc.1.sessionTable.lookup session = some info)
    (hfull : cfg.historyLen ≤ info.rpsHistory.length) :
    ∃ last, info.rpsHistory.getLast? = some last ∧
      scheduleSession cfg policy acc session =
        sizeSession policy acc session info (max last (mkRat 1 10)) := by
  have hne := ne_nil_of_historyLen_le hn hfull
  obtain ⟨last, hlast⟩ := Option.isSome_iff_exists.mp (List.getLast?_isSome.mpr hne)
  refine ⟨last, hlast, ?_⟩
  simp only [scheduleSession, hinfo, not_lt.mpr hfull, if_false]
  rw [historyAt_length_sub_one hne, hlast]
  rfl

/-- For every configuration, every history of a reachable state holds at most
`history_len_` samples.  Once `history_len_` is at least one, `BeaconCheck` goes through
and its `outOfBand` test reads every history it tests past the guard in range, at the
latest sample; and `EpochSchedule`'s read past its guard is in range, at the latest
sample, to which it sizes the session. -/
theorem rate_history_reads_in_range {s : Scheduler} (hs : Reachable cfg policy db s) :
    HistoriesWithin cfg.historyLen s ∧
      (1 ≤ cfg.historyLen →
        (∃ trigger s', beaconCheck cfg s = some (trigger, s') ∧
          ∀ session info, s'.sessionTable.lookup session = some info →
            cfg.historyLen ≤ info.rpsHistory.length →
              ∃ last, info.rpsHistory.getLast? = some last ∧
                info.outOfBand cfg.historyLen = some (info.leavesBand last)) ∧
        ∀ (acc : Scheduler × List String × List Nat) session info,
          acc.1.sessionTable.lookup session = some info →
            cfg.historyLen ≤ info.rpsHistory.length →
              ∃ last, info.rpsHistory.getLast? = some last ∧
                scheduleSession cfg policy acc session =
                  sizeSession policy acc session info (max last (mkRat 1 10))) := by
  have hw := hs.historiesWithin
  refine ⟨hw, fun hn => ⟨?_, fun acc session info hinfo hfull =>
    scheduleSession_reads_latest hn hinfo hfull⟩⟩
  obtain ⟨⟨trigger, s'⟩, hbeacon⟩ := Option.isSome_iff_exists.mp (beaconCheck_isSome hn hw)
  exact ⟨trigger, s', hbeacon, fun session info hinfo hfull =>
    SessionInfo.outOfBand_reads_latest hn (hw.beaconCheck hbeacon session info hinfo) hfull⟩

/-- A beacon every `3` s averaged over `1` s: histories of one sample. -/
def sampledConfig : Config := ⟨3, 1, [[⟨"s", false⟩]]⟩

/-- Backend `1` is pinned to the static session `"s"`; frontend `7` subscribes to it and
reports a rate of `2`, which a beacon records. -/
def sampledState : Scheduler :=
  (run sampledConfig pinningPolicy anyModel init
    [.registerBackend ⟨1, "gpu", "uuid-1"⟩, .registerFrontend 7, .loadModel ⟨7, "s", 5⟩,
      .reportWorkload ⟨7, [("s", 2)]⟩, .beaconCheck]).getD init

/-- The history of `"s"` is `[2]`; the next beacon goes through, and the epoch sizes
`"s"` to `2`. -/
theorem rate_history_reads_in_range_sampled :
    HistoriesWithin sampledConfig.historyLen sampledState ∧
      (beaconCheck sampledConfig sampledState).isSome ∧
      ∃ info, sampledState.sessionTable.lookup "s" = some info ∧ info.rpsHistory = [2] ∧
        scheduleSession sampledConfig pinningPolicy (sampledState, [], []) "s" =
          sizeSession pinningPolicy (sampledState, [], []) "s" info (max 2 (mkRat 1 10)) := by
  obtain ⟨hw, hreads⟩ := @rate_history_reads_in_range sampledConfig pinningPolicy anyModel
    sampledState (reachable_getD_run _ _ _ (by with_unfolding_all decide))
  obtain ⟨⟨trigger, s', hbeacon, -⟩, hepoch⟩ := hreads (by decide)
  obtain ⟨info, hinfo⟩ :=
    Option.isSome_iff_exists.mp
      (show (sampledState.sessionTable.lookup "s").isSome by with_unfolding_all decide)
  have hhistory : info.rpsHistory = [2] := by
    have hmap : (sampledState.sessionTable.lookup "s").map SessionInfo.rpsHistory = some [2] := by
      with_unfolding_all decide
    rw [hinfo] at hmap
    exact Option.some.inj hmap
  obtain ⟨last, hlast, hsize⟩ :=
    hepoch (sampledState, [], []) "s" info hinfo (by rw [hhistory]; decide)
  rw [hhistory, List.getLast?_singleton, Option.some_inj] at hlast
  subst hlast
  exact ⟨hw, by rw [hbeacon]; rfl, info, hinfo, hhistory, hsize⟩

/-! ### `avg_interval` of zero -/

/-- `pinningConfig` with `avg_interval` `0`. -/
def zeroAverageConfig : Config := ⟨1, 0, [[⟨"s", false⟩]]⟩

/-- Backend `1` joins and is pinned; its static session `"s"` has an empty history. -/
def zeroAveragePinned : Scheduler :=
  (run zeroAverageConfig pinningPolicy anyModel init
    [.registerBackend ⟨1, "gpu", "uuid-1"⟩]).getD init

/-- With `avg_interval` `0`, `history_len_` is `0`: every history stays empty, and the
first `BeaconCheck` or `EpochSchedule` after a session exists reads index `-1`. -/
theorem zero_average_reads_before_history :
    zeroAverageConfig.beacon = 1 ∧ zeroAverageConfig.avgInterval = 0 ∧
      zeroAverageConfig.historyLen = 0 ∧
      Reachable zeroAverageConfig pinningPolicy anyModel zeroAveragePinned ∧
      (zeroAveragePinned.sessionTable.lookup "s").map SessionInfo.rpsHistory = some [] ∧
      (step zeroAverageConfig pinningPolicy anyModel zeroAveragePinned .beaconCheck).isNone ∧
      (step zeroAverageConfig pinningPolicy anyModel zeroAveragePinned .epochSchedule).isNone :=
  ⟨rfl, rfl, rfl, reachable_getD_run _ _ _ (by decide), by decide, by decide, by decide⟩

end Scheduler

end NexusLb.Sched
