import Mathlib.Algebra.BigOperators.Group.List
import Mathlib.Tactic.Ring
import NexusLb.Scheduler.Admission
import NexusLb.Scheduler.History

/-!
# Demand across an epoch

What a session holds of its demand is the sum of its weights plus its
`unassigned_workload`, and `EpochSchedule` sizes a session with a full history to its
estimate, the latest rate (at least `0.1`): the release branch takes the adjustable
weights down to the estimate, the grow branch takes them up and records what it could not
place as owed, a spill moves a spilled session's weight into its debt, and
`AllocateUnassignedWorkloads` moves debt into weights and rounds what is left within `1e-3`
of zero down to zero.  So after an epoch from a reachable state every session with a full
history holds its estimate up to `2e-3` (`epoch_conserves_demand`), provided the delegate,
which is not in the sources, does four things: `UpdateModelThroughput` covers a rate it is
asked to shrink to, an instance weighs its throughput, `PrepareLoadModel` refuses a session
the backend serves already, and `SpillOutWorkload` reports a spilled session at no less
than the backend served it; a delegate that does three of them and not the fourth loses
demand (`epoch_loses_demand`).
-/

namespace NexusLb.Sched

/-! ### Sums of weights -/

theorem sum_entries_erase (t : Table Nat ℚ) (b : Nat) :
    ((t.erase b).entries.map Sigma.snd).sum =
      (t.entries.map Sigma.snd).sum - (t.lookup b).getD 0 := by
  show ((t.entries.kerase b).map Sigma.snd).sum = _
  by_cases hb : b ∈ t
  · obtain ⟨v, l₁, l₂, hl₁, hentries, hkerase⟩ := List.exists_of_kerase (AList.mem_keys.mpr hb)
    have hlookup : t.lookup b = some v := by
      show t.entries.dlookup b = some v
      rw [hentries, List.dlookup_append, List.dlookup_eq_none.mpr hl₁, Option.none_or,
        List.dlookup_cons_eq]
    rw [hkerase, hlookup, hentries]
    simp only [List.map_append, List.map_cons, List.sum_append, List.sum_cons, Option.getD_some]
    ring
  · rw [List.kerase_of_not_mem_keys (fun h => hb (AList.mem_keys.mp h)),
      AList.lookup_eq_none.mpr hb]
    simp

theorem sum_entries_insert (t : Table Nat ℚ) (b : Nat) (v : ℚ) :
    ((t.insert b v).entries.map Sigma.snd).sum =
      (t.entries.map Sigma.snd).sum - (t.lookup b).getD 0 + v := by
  rw [AList.insert_entries, List.map_cons, List.sum_cons]
  rw [show ((t.entries.kerase b).map Sigma.snd).sum =
    ((t.erase b).entries.map Sigma.snd).sum from rfl,
    sum_entries_erase]
  ring

theorem tolerance_pos : 0 < tolerance := by decide

/-- `UpdateModelThroughput` asked to shrink an instance to a lower rate settles on a
throughput that still covers that rate. -/
def Policy.ResizeCovers (policy : Policy) : Prop :=
  ∀ backend session rate (inst : InstanceInfo), backend.models.lookup session = some inst →
    rate < inst.throughput → rate ≤ policy.resize backend session rate

/-- A loop each of whose passes lowers a quantity by what its element contributes
lowers it by the sum of the contributions. -/
theorem foldlM_sub_sum {α β : Type} {f : β → α → Option β} (q : β → ℚ) (c : α → ℚ)
    (hf : ∀ acc x acc', f acc x = some acc' → q acc' = q acc - c x) :
    ∀ (l : List α) {init result : β}, l.foldlM f init = some result →
      q result = q init - (l.map c).sum
  | [], _, _, h => by cases h; simp
  | x :: l, init, result, h => by
    obtain ⟨acc, hacc, h⟩ := Option.bind_eq_some.mp h
    rw [foldlM_sub_sum q c hf l h, hf _ _ _ hacc, List.map_cons, List.sum_cons]
    ring

namespace SessionInfo

theorem totalThroughput_erase (info : SessionInfo) (b : Nat) :
    ({ info with backendWeights := info.backendWeights.erase b } : SessionInfo).totalThroughput =
      info.totalThroughput - (info.backendWeights.lookup b).getD 0 :=
  sum_entries_erase _ _

theorem totalThroughput_insert (info : SessionInfo) (b : Nat) (v : ℚ) :
    ({ info with backendWeights := info.backendWeights.insert b v } : SessionInfo).totalThroughput =
      info.totalThroughput - (info.backendWeights.lookup b).getD 0 + v :=
  sum_entries_insert _ _ _

theorem totalThroughput_emplace {info : SessionInfo} {b : Nat} (hb : b ∉ info.backendWeights)
    (v : ℚ) :
    ({ info with
      backendWeights := info.backendWeights.emplace b v } : SessionInfo).totalThroughput =
      info.totalThroughput + v := by
  rw [totalThroughput, Table.emplace, if_neg hb, sum_entries_insert, AList.lookup_eq_none.mpr hb]
  simp [totalThroughput]

/-- What a session holds of its demand: the rate placed on backends and the rate owed. -/
def held (info : SessionInfo) : ℚ := info.totalThroughput + info.unassignedWorkload

end SessionInfo

namespace Scheduler

variable {cfg : Config} {policy : Policy}

/-! ### Changes that touch one session -/

/-- A change that leaves every session other than `session` as it was. -/
def OnlyTouches (session : String) (s s' : Scheduler) : Prop :=
  ∀ other, other ≠ session → s'.sessionTable.lookup other = s.sessionTable.lookup other

namespace OnlyTouches

variable {session : String} {s s' s'' : Scheduler}

theorem refl (s : Scheduler) : OnlyTouches session s s := fun _ _ => rfl

theorem trans (h : OnlyTouches session s s') (h' : OnlyTouches session s' s'') :
    OnlyTouches session s s'' := fun other hne => (h' other hne).trans (h other hne)

theorem of_modify {f : SessionInfo → SessionInfo}
    (h : s'.sessionTable = s.sessionTable.modify session f) : OnlyTouches session s s' :=
  fun _ hne => h ▸ Table.lookup_modify_ne hne

end OnlyTouches

theorem onlyTouches_scheduleSession {acc acc' : Scheduler × List String × List Nat}
    {session : String} (h : scheduleSession cfg policy acc session = some acc') :
    OnlyTouches session acc.1 acc'.1 :=
  scheduleSession_induction (OnlyTouches session) .refl .trans (fun _ _ _ _ _ => .of_modify rfl)
    (fun _ _ _ _ _ _ => .of_modify rfl) (fun _ _ => .of_modify rfl) h

theorem onlyTouches_allocateSession {session : String} {fuel : Nat} {rate : ℚ}
    {acc : Scheduler × Changes} {result : ℚ × Scheduler × Changes}
    (h : allocateSession policy session fuel rate acc = some result) :
    OnlyTouches session acc.1 result.2.1 :=
  allocateSession_induction (OnlyTouches session) .refl .trans (fun _ _ _ _ _ _ => .of_modify rfl) h

/-! ### One pass of an adjusting loop -/

theorem lookup_modifySession {s : Scheduler} {session : String} {info : SessionInfo}
    (f : SessionInfo → SessionInfo) (hinfo : s.sessionTable.lookup session = some info) :
    (s.modifySession session f).sessionTable.lookup session = some (f info) := by
  rw [sessionTable_modifySession, Table.lookup_modify_self, hinfo]; rfl

section Pass

variable {s : Scheduler} {session : String} {info : SessionInfo} {b : Nat} {w : ℚ}
  {backend : BackendDelegate} {rest : List (Nat × ℚ)}

/-- A backend a session records a weight on serves the session at that weight
(`Consistent`), so `UpdateModelThroughput` resizes that instance, to the throughput the
policy settles on, and the backend then serves the session at that throughput. -/
theorem updateModelThroughput_recorded (hweigh : policy.WeighsThroughput) (hc : Consistent id s)
    (hinfo : s.sessionTable.lookup session = some info)
    (hw : info.backendWeights.lookup b = some w) (hb : s.backends.lookup b = some backend)
    (rate : ℚ) :
    ∃ inst, backend.models.lookup session = some inst ∧ inst.throughput = w ∧
      (backend.updateModelThroughput policy session rate).1 = policy.resize backend session rate ∧
      (backend.updateModelThroughput policy session rate).2.getModelWeight policy session =
        (backend.updateModelThroughput policy session rate).1 := by
  have hrate : backend.rateOf session = some w := by
    have := hc.eq b session
    rw [recordedRate, hinfo, Option.some_bind, hw, hostedRate, hb, Option.some_bind] at this
    exact this.symm
  obtain ⟨inst, hinst, hthr⟩ := Option.map_eq_some'.mp hrate
  refine ⟨inst, hinst, hthr, by simp [BackendDelegate.updateModelThroughput, hinst], ?_⟩
  rw [BackendDelegate.getModelWeight_of_weighs policy hweigh]
  simp [BackendDelegate.rateOf_updateModelThroughput, hrate]

/-- Unloading backend `b` drops its weight `w` from the session's weights and leaves the
session's debt and its weights on the other backends. -/
theorem unloadSession_pass (hc : Consistent id s) (hb : s.backends.lookup b = some backend)
    (hinfo : s.sessionTable.lookup session = some info)
    (hw : info.backendWeights.lookup b = some w)
    (hrest : ∀ p ∈ rest, p.1 ≠ b ∧ info.backendWeights.lookup p.1 = some p.2) :
    Consistent id (unloadSession session b backend s) ∧
      ∃ info', (unloadSession session b backend s).sessionTable.lookup session = some info' ∧
        info'.unassignedWorkload = info.unassignedWorkload ∧
        info'.totalThroughput = info.totalThroughput - w ∧
        ∀ p ∈ rest, info'.backendWeights.lookup p.1 = some p.2 :=
  ⟨hc.unloadSession hb, _, lookup_modifySession _ hinfo, rfl,
    by rw [SessionInfo.totalThroughput_erase, hw, Option.getD_some],
    fun p hp => (AList.lookup_erase_ne (hrest p hp).1).trans (hrest p hp).2⟩

/-- Resizing the instance on backend `b` replaces its weight `w` in the session's weights
with the new throughput and leaves the session's debt and its weights on the other
backends. -/
theorem resizeSession_pass (policy : Policy) (hweigh : policy.WeighsThroughput)
    (hc : Consistent id s) (hb : s.backends.lookup b = some backend)
    (hinfo : s.sessionTable.lookup session = some info)
    (hw : info.backendWeights.lookup b = some w)
    (hrest : ∀ p ∈ rest, p.1 ≠ b ∧ info.backendWeights.lookup p.1 = some p.2) (rate : ℚ) :
    Consistent id
        (resizeSession policy session b (backend.updateModelThroughput policy session rate).2 s) ∧
      ∃ info', (resizeSession policy session b (backend.updateModelThroughput policy session rate).2
          s).sessionTable.lookup session = some info' ∧
        info'.unassignedWorkload = info.unassignedWorkload ∧
        info'.totalThroughput =
          info.totalThroughput - w + (backend.updateModelThroughput policy session rate).1 ∧
        ∀ p ∈ rest, info'.backendWeights.lookup p.1 = some p.2 := by
  obtain ⟨-, -, -, -, hweight⟩ := updateModelThroughput_recorded hweigh hc hinfo hw hb rate
  refine ⟨hc.resizeSession hweigh.id_view hb (by simp [recordedRate, hinfo, hw]), _,
    lookup_modifySession _ hinfo, rfl, ?_,
    fun p hp => (AList.lookup_insert_ne (hrest p hp).1).trans (hrest p hp).2⟩
  rw [SessionInfo.totalThroughput_insert, hw, Option.getD_some, hweight]

end Pass

/-- `EpochSchedule`'s first loop takes the static backends' weights off the estimate and
sets the others aside: the estimate left is the estimate less all the weights, plus the
ones set aside. -/
theorem splitStatic_estimate {s : Scheduler} {weights : List (Σ _ : Nat, ℚ)}
    {estimate estimate' : ℚ} {adjust : List (Nat × ℚ)}
    (h : s.splitStatic weights estimate = some (estimate', adjust)) :
    estimate' = estimate - (weights.map Sigma.snd).sum + (adjust.map Prod.snd).sum := by
  have hsum := foldlM_sub_sum (fun acc : ℚ × List (Nat × ℚ) => acc.1 - (acc.2.map Prod.snd).sum)
    Sigma.snd (fun acc entry acc' hpass => by
      obtain ⟨backend, -, hpass⟩ := Option.bind_eq_some.mp hpass
      cases hpass
      split <;> simp only [List.map_append, List.sum_append, List.map_cons, List.map_nil,
        List.sum_cons, List.sum_nil] <;> ring) weights h
  simp only [List.map_nil, List.sum_nil, sub_zero] at hsum
  exact eq_add_of_sub_eq hsum

/-- `EpochSchedule`'s first loop over a session's weights sets aside distinct backends of
the weights, at their weights, and leaves the estimate less the weights it did not set
aside. -/
theorem splitStatic_spec {s : Scheduler} (session : String) {weights : Table Nat ℚ}
    {estimate left : ℚ} {adjust : List (Nat × ℚ)}
    (h : s.splitStatic weights.entries estimate = some (left, adjust))
    (hweights : ∀ b, s.recordedRate b session = weights.lookup b) :
    ((sortByWeight adjust).map Prod.fst).Nodup ∧
      (∀ p ∈ sortByWeight adjust, weights.lookup p.1 = some p.2) ∧
      left - ((sortByWeight adjust).map Prod.snd).sum =
        estimate - (weights.entries.map Sigma.snd).sum := by
  have hperm := List.perm_insertionSort (fun a b : Nat × ℚ => b.2 ≤ a.2) adjust
  refine ⟨(splitStatic_adjust session h hweights).1, fun p hp => ?_, ?_⟩
  · obtain ⟨entry, hentry, rfl⟩ :=
      List.mem_map.mp ((splitStatic_sublist h).subset (hperm.mem_iff.mp hp))
    exact AList.mem_lookup_iff.mpr hentry
  · rw [sortByWeight, (hperm.map Prod.snd).sum_eq, splitStatic_estimate h]
    ring

/-! ### The adjusting loops' accounting -/

section Adjust

variable {session : String}

/-- The first backend an adjusting loop takes and the ones it leaves for later. -/
theorem adjust_cons {weights : Table Nat ℚ} {b : Nat} {w : ℚ} {rest : List (Nat × ℚ)}
    (hnodup : (((b, w) :: rest).map Prod.fst).Nodup)
    (hweights : ∀ p ∈ (b, w) :: rest, weights.lookup p.1 = some p.2) :
    weights.lookup b = some w ∧ (rest.map Prod.fst).Nodup ∧
      ∀ p ∈ rest, p.1 ≠ b ∧ weights.lookup p.1 = some p.2 := by
  obtain ⟨hfresh, hnodup⟩ := List.nodup_cons.mp hnodup
  exact ⟨hweights (b, w) (List.mem_cons_self _ _), hnodup, fun p hp =>
    ⟨fun heq => hfresh (List.mem_map.mpr ⟨p, hp, heq⟩), hweights p (List.mem_cons_of_mem _ hp)⟩⟩

/-- Once less than `1e-3` is left, the release loop only unloads. -/
theorem releaseLoop_of_lt :
    ∀ (adjust : List (Nat × ℚ)) {estimate : ℚ} {s : Scheduler} {result : ℚ × Scheduler},
      estimate < tolerance → releaseLoop policy session adjust estimate s = some result →
      result.1 = estimate
  | [], _, _, _, _, h => by cases h; rfl
  | (b, weight) :: rest, estimate, s, result, hlt, h => by
    rw [releaseLoop, if_pos hlt] at h
    obtain ⟨backend, -, h⟩ := Option.bind_eq_some.mp h
    exact releaseLoop_of_lt rest hlt h

/-- The release loop's accounting for its session: each adjusted weight comes off the
estimate, and the weight written in its place goes back on, so the session's weights
and the estimate left add up to its weights less the adjusted ones, plus the estimate.
When the weights to adjust cover the estimate up to `1e-3`, less than `1e-3` is left. -/
theorem releaseLoop_spec (hcover : policy.ResizeCovers) (hweigh : policy.WeighsThroughput) :
    ∀ (adjust : List (Nat × ℚ)) (estimate : ℚ) {s : Scheduler} {result : ℚ × Scheduler}
      {info : SessionInfo},
      releaseLoop policy session adjust estimate s = some result → Consistent id s →
      (adjust.map Prod.fst).Nodup → s.sessionTable.lookup session = some info →
      (∀ p ∈ adjust, info.backendWeights.lookup p.1 = some p.2) →
      ∃ info', result.2.sessionTable.lookup session = some info' ∧
        info'.unassignedWorkload = info.unassignedWorkload ∧
        info'.totalThroughput + result.1 =
          info.totalThroughput - (adjust.map Prod.snd).sum + estimate ∧
        (estimate - (adjust.map Prod.snd).sum < tolerance → result.1 < tolerance)
  | [], _, _, _, info, h, _, _, hinfo, _ => by
    cases h; exact ⟨info, hinfo, rfl, by simp, by simp⟩
  | (b, w) :: rest, estimate, s, result, info, h, hc, hnodup, hinfo, hweights => by
    obtain ⟨hw, hnodup, hrest⟩ := adjust_cons hnodup hweights
    simp only [List.map_cons, List.sum_cons]
    rw [releaseLoop] at h
    split at h
    · -- less than `1e-3` left: unload
      rename_i hlt
      obtain ⟨backend, hb, h⟩ := Option.bind_eq_some.mp h
      obtain ⟨hc', info1, h1, hdebt, htotal, hrest'⟩ := unloadSession_pass hc hb hinfo hw hrest
      obtain ⟨info', h1', hdebt', h3, -⟩ :=
        releaseLoop_spec hcover hweigh rest estimate h hc' hnodup h1 hrest'
      exact ⟨info', h1', hdebt'.trans hdebt, by rw [h3, htotal]; ring,
        fun _ => releaseLoop_of_lt rest hlt h ▸ hlt⟩
    · split at h
      · -- the estimate left is below this weight: resize
        rename_i hle hlt
        obtain ⟨backend, hb, h⟩ := Option.bind_eq_some.mp h
        obtain ⟨inst, hinst, hthr, hresize, -⟩ :=
          updateModelThroughput_recorded hweigh hc hinfo hw hb estimate
        have hcovers : estimate ≤ (backend.updateModelThroughput policy session estimate).1 :=
          hresize ▸ hcover backend session estimate inst hinst (hthr ▸ hlt)
        have hpass := resizeSession_pass policy hweigh hc hb hinfo hw hrest estimate
        generalize backend.updateModelThroughput policy session estimate = resized
          at h hpass hcovers
        obtain ⟨throughput, resized⟩ := resized
        obtain ⟨hc', info1, h1, hdebt, htotal, hrest'⟩ := hpass
        obtain ⟨info', h1', hdebt', h3, -⟩ :=
          releaseLoop_spec hcover hweigh rest _ h hc' hnodup h1 hrest'
        refine ⟨info', h1', hdebt'.trans hdebt, by rw [h3, htotal]; ring, fun _ => ?_⟩
        have hleft : estimate - throughput < tolerance :=
          (sub_nonpos.mpr hcovers).trans_lt tolerance_pos
        exact releaseLoop_of_lt rest hleft h ▸ hleft
      · -- the weight is kept
        obtain ⟨info', h1, h2, h3, h4⟩ :=
          releaseLoop_spec hcover hweigh rest _ h hc hnodup hinfo fun p hp => (hrest p hp).2
        exact ⟨info', h1, h2, by rw [h3]; ring, fun hleft => h4 (by rwa [sub_sub])⟩

/-- The grow loop's accounting for its session, as the release loop's: the session's
weights and the estimate left add up to its weights less the adjusted ones, plus the
estimate. -/
theorem growLoop_total (hweigh : policy.WeighsThroughput) :
    ∀ (adjust : List (Nat × ℚ)) (estimate : ℚ) {s : Scheduler} {overloaded : List Nat}
      {result : ℚ × Scheduler × List Nat} {info : SessionInfo},
      growLoop policy session adjust estimate (s, overloaded) = some result → Consistent id s →
      (adjust.map Prod.fst).Nodup → s.sessionTable.lookup session = some info →
      (∀ p ∈ adjust, info.backendWeights.lookup p.1 = some p.2) →
      ∃ info', result.2.1.sessionTable.lookup session = some info' ∧
        info'.unassignedWorkload = info.unassignedWorkload ∧
        info'.totalThroughput + result.1 =
          info.totalThroughput - (adjust.map Prod.snd).sum + estimate
  | [], _, _, _, _, info, h, _, _, hinfo, _ => by cases h; exact ⟨info, hinfo, rfl, by simp⟩
  | (b, w) :: rest, estimate, s, overloaded, result, info, h, hc, hnodup, hinfo, hweights => by
    obtain ⟨hw, hnodup, hrest⟩ := adjust_cons hnodup hweights
    simp only [List.map_cons, List.sum_cons]
    rw [growLoop] at h
    split at h
    · -- less than `1e-3` left: unload
      obtain ⟨backend, hb, h⟩ := Option.bind_eq_some.mp h
      obtain ⟨hc', info1, h1, hdebt, htotal, hrest'⟩ := unloadSession_pass hc hb hinfo hw hrest
      obtain ⟨info', h1', hdebt', h3⟩ := growLoop_total hweigh rest estimate h hc' hnodup h1 hrest'
      exact ⟨info', h1', hdebt'.trans hdebt, by rw [h3, htotal]; ring⟩
    · -- resize to the estimate left
      obtain ⟨backend, hb, h⟩ := Option.bind_eq_some.mp h
      have hpass := resizeSession_pass policy hweigh hc hb hinfo hw hrest estimate
      generalize backend.updateModelThroughput policy session estimate = resized at h hpass
      obtain ⟨throughput, resized⟩ := resized
      obtain ⟨hc', info1, h1, hdebt, htotal, hrest'⟩ := hpass
      obtain ⟨info', h1', hdebt', h3⟩ := growLoop_total hweigh rest _ h hc' hnodup h1 hrest'
      exact ⟨info', h1', hdebt'.trans hdebt, by rw [h3, htotal]; ring⟩

/-- `EpochSchedule`'s sizing of a session with a full history leaves the session holding
its estimate up to `1e-3`: the release branch leaves less than `1e-3` of it unplaced,
the grow branch owes what it did not place, and otherwise the weights already cover it. -/
theorem scheduleSession_held (hcover : policy.ResizeCovers) (hweigh : policy.WeighsThroughput)
    {acc acc' : Scheduler × List String × List Nat} {info : SessionInfo} {last : ℚ}
    (hc : Consistent id acc.1) (hinfo : acc.1.sessionTable.lookup session = some info)
    (hfull : cfg.historyLen ≤ info.rpsHistory.length)
    (hlast : info.rpsHistory.getLast? = some last)
    (h : scheduleSession cfg policy acc session = some acc') :
    ∃ info', acc'.1.sessionTable.lookup session = some info' ∧
      max last (mkRat 1 10) - tolerance ≤ info'.held := by
  obtain ⟨s, changed, overloaded⟩ := acc
  dsimp only at hc hinfo
  have hne : info.rpsHistory ≠ [] := fun hnil => by simp [hnil] at hlast
  simp only [scheduleSession, hinfo, not_lt.mpr hfull, if_false] at h
  obtain ⟨last', hread, h⟩ := Option.bind_eq_some.mp h
  rw [historyAt_length_sub_one hne, hlast, Option.some_inj] at hread
  subst hread
  unfold sizeSession at h
  dsimp only at h
  have hpos : (0 : ℚ) < max last (mkRat 1 10) := lt_max_of_lt_right (by decide)
  have h97 : (mkRat 97 100 : ℚ) = 97 / 100 := by rw [Rat.mkRat_eq_div]; norm_num
  generalize max last (mkRat 1 10) = estimate at h hpos ⊢
  have hinfo2 := lookup_modifySession (fun info' => { info' with
    unassignedWorkload := max 0 (estimate - info.totalThroughput) }) hinfo
  have hdebt := le_max_right 0 (estimate - info.totalThroughput)
  split at h
  · -- release: the weights go down to the estimate
    rename_i hrelease
    obtain ⟨⟨left, adjust⟩, hsplit, h⟩ := Option.bind_eq_some.mp h
    obtain ⟨⟨rest, s3⟩, hloop, h⟩ := Option.bind_eq_some.mp h
    cases h
    obtain ⟨hnodup, hweights, hleft⟩ :=
      splitStatic_spec session hsplit fun b => by simp [recordedRate, hinfo]
    obtain ⟨info3, h1, h2, h3, h4⟩ :=
      releaseLoop_spec hcover hweigh _ _ hloop
        (hc.modifySession fun _ => rfl) hnodup hinfo2 hweights
    change _ = estimate - info.totalThroughput at hleft
    change info3.totalThroughput + rest = info.totalThroughput - _ + left at h3
    rw [h97] at hrelease
    have hrest : rest < tolerance := h4 (by linarith [tolerance_pos])
    refine ⟨info3, h1, ?_⟩
    rw [SessionInfo.held, h2]
    linarith [le_max_left 0 (estimate - info.totalThroughput)]
  · split at h
    · -- grow: what the weights do not reach is owed
      obtain ⟨⟨left, adjust⟩, hsplit, h⟩ := Option.bind_eq_some.mp h
      obtain ⟨⟨rest, s3, grown⟩, hloop, h⟩ := Option.bind_eq_some.mp h
      cases h
      obtain ⟨hnodup, hweights, hleft⟩ :=
        splitStatic_spec session hsplit fun b => by simp [recordedRate, hinfo]
      obtain ⟨info3, h1, -, h3⟩ :=
        growLoop_total hweigh _ _ hloop (hc.modifySession fun _ => rfl) hnodup hinfo2 hweights
      change _ = estimate - info.totalThroughput at hleft
      change info3.totalThroughput + rest = info.totalThroughput - _ + left at h3
      refine ⟨_, lookup_modifySession _ h1, ?_⟩
      show _ ≤ info3.totalThroughput + if tolerance < rest then rest else 0
      split_ifs <;> linarith [tolerance_pos]
    · -- the weights already cover the estimate
      cases h
      exact ⟨_, hinfo2, by
        show _ ≤ info.totalThroughput + max 0 (estimate - info.totalThroughput)
        linarith [tolerance_pos]⟩

/-- `EpochSchedule`'s first loop sizes each session once, and sizing one session leaves
the others as they were: a session with a full history holds its estimate up to `1e-3`
once the loop is over. -/
theorem foldlM_scheduleSession_held (hcover : policy.ResizeCovers)
    (hweigh : policy.WeighsThroughput) {info : SessionInfo}
    {last : ℚ} (hfull : cfg.historyLen ≤ info.rpsHistory.length)
    (hlast : info.rpsHistory.getLast? = some last) :
    ∀ (sessions : List String) {acc acc' : Scheduler × List String × List Nat},
      sessions.foldlM (scheduleSession cfg policy) acc = some acc' → sessions.Nodup →
      session ∈ sessions → Consistent id acc.1 → acc.1.sessionTable.lookup session = some info →
      ∃ info', acc'.1.sessionTable.lookup session = some info' ∧
        max last (mkRat 1 10) - tolerance ≤ info'.held
  | [], _, _, _, _, hmem, _, _ => absurd hmem (List.not_mem_nil _)
  | x :: sessions, acc, acc', h, hnodup, hmem, hc, hinfo => by
    obtain ⟨acc1, hstep, hrest⟩ := Option.bind_eq_some.mp h
    obtain ⟨hfresh, hnodup⟩ := List.nodup_cons.mp hnodup
    by_cases hx : session = x
    · subst hx
      obtain ⟨info', h1, hheld⟩ := scheduleSession_held hcover hweigh hc hinfo hfull hlast hstep
      refine ⟨info', foldlM_invariant
        (fun acc : Scheduler × List String × List Nat => acc.1.sessionTable.lookup session =
          some info')
        (fun _ y _ hy hacc hpass => (onlyTouches_scheduleSession hpass session
          fun heq => hfresh (heq ▸ hy)).trans hacc) h1 hrest, hheld⟩
    · exact foldlM_scheduleSession_held hcover hweigh hfull hlast sessions hrest hnodup
        ((List.mem_cons.mp hmem).resolve_left hx) (hc.scheduleSession hweigh.id_view hstep)
        ((onlyTouches_scheduleSession hstep session hx).trans hinfo)

end Adjust

/-! ### Spilling and allocating keep what a session holds -/

/-- Every session of the first state is in the second and holds at least as much. -/
def HeldGrows (s s' : Scheduler) : Prop :=
  ∀ session info, s.sessionTable.lookup session = some info →
    ∃ info', s'.sessionTable.lookup session = some info' ∧ info.held ≤ info'.held

theorem HeldGrows.refl (s : Scheduler) : HeldGrows s s := fun _ info h => ⟨info, h, le_rfl⟩

theorem HeldGrows.trans {s s' s'' : Scheduler} (h : HeldGrows s s') (h' : HeldGrows s' s'') :
    HeldGrows s s'' := fun session info hinfo => by
  obtain ⟨info', h1, hle⟩ := h session info hinfo
  obtain ⟨info'', h2, hle'⟩ := h' session info' h1
  exact ⟨info'', h2, hle.trans hle'⟩

/-- A loop of `at` calls over distinct sessions each of which, for a session recording a
weight on backend `a` of at most the pass's rate, holds no less: every session holds no
less. -/
theorem foldlM_atSession_held {α : Type} {key : α → String} {f : α → SessionInfo → SessionInfo}
    {a : Nat} {c : α → ℚ}
    (hf : ∀ x info w, info.backendWeights.lookup a = some w → w ≤ c x →
      info.held ≤ (f x info).held) :
    ∀ (l : List α) {s s' : Scheduler}, l.foldlM (fun s x => s.atSession (key x) (f x)) s = some s' →
      (l.map key).Nodup → (∀ x ∈ l, ∃ w, s.recordedRate a (key x) = some w ∧ w ≤ c x) →
      HeldGrows s s'
  | [], _, _, h, _, _ => by cases h; exact .refl _
  | x :: l, s, s', h, hnodup, hrecorded => by
    obtain ⟨s1, hstep, h⟩ := Option.bind_eq_some.mp h
    obtain ⟨-, rfl⟩ := atSession_eq_some.mp hstep
    obtain ⟨hfresh, hnodup⟩ := List.nodup_cons.mp hnodup
    refine HeldGrows.trans (fun session info hinfo => ?_)
      (foldlM_atSession_held hf l h hnodup fun y hy => ?_)
    · by_cases hsession : session = key x
      · subst hsession
        obtain ⟨w, hw, hle⟩ := hrecorded x (List.mem_cons_self _ _)
        rw [recordedRate, hinfo, Option.some_bind] at hw
        exact ⟨_, lookup_modifySession _ hinfo, hf x info w hw hle⟩
      · refine ⟨info, ?_, le_rfl⟩
        rw [sessionTable_modifySession, Table.lookup_modify_ne hsession, hinfo]
    · have hne : key y ≠ key x := fun heq => hfresh (heq ▸ List.mem_map_of_mem key hy)
      simpa [recordedRate, Table.lookup_modify_ne hne] using hrecorded y (List.mem_cons_of_mem _ hy)

/-- Spilling an overloaded backend moves each spilled session's weight on it into the
session's debt at the rate the spill reports; the weight recorded is the throughput the
backend served (`Consistent`), which the report covers: every session holds no less. -/
theorem spillOut_held (hspill : policy.SpillsServedRate) {s s' : Scheduler} (hc : Consistent id s)
    {b : Nat} (h : spillOut policy s b = some s') : HeldGrows s s' := by
  unfold spillOut at h
  split at h
  · cases h; exact .refl s
  · rename_i backend hb
    dsimp only [BackendDelegate.spillOutWorkload] at h
    refine (foldlM_atSession_held (a := backend.nodeId) (c := Prod.snd)
      (fun x info w hw hle => ?_) _ h ?_ (fun x hx => ?_) : HeldGrows _ _)
    · show info.totalThroughput + info.unassignedWorkload ≤
        ((info.backendWeights.erase _).entries.map Sigma.snd).sum + (info.unassignedWorkload + x.2)
      rw [sum_entries_erase, hw, Option.getD_some]
      unfold SessionInfo.totalThroughput
      linarith
    · rw [List.map_map]
      exact ((List.filter_sublist _).map Sigma.fst).nodup backend.models.nodupKeys
    · obtain ⟨entry, hentry, rfl⟩ := List.mem_map.mp hx
      obtain ⟨hmem, hspills⟩ := List.mem_filter.mp hentry
      have hlookup := AList.mem_lookup_iff.mpr hmem
      refine ⟨entry.2.throughput, ?_, hspill backend entry.1 entry.2 hlookup hspills⟩
      show s.recordedRate backend.nodeId entry.1 = some entry.2.throughput
      rw [hc.eq, hc.keyed b backend hb, hostedRate, hb, Option.some_bind,
        BackendDelegate.rateOf, hlookup]
      rfl

/-- The placement loop of `AllocateUnassignedWorkloads` moves what it places from the
rate left into the session's weights: a backend it places on did not serve the session,
so the weight it records, the instance's throughput, is new. -/
theorem allocateSession_total (hrefuse : policy.RefusesServed) (hweigh : policy.WeighsThroughput)
    {session : String} :
    ∀ {fuel : Nat} {rate rate' : ℚ} {s s' : Scheduler} {changes changes' : Changes}
      {info : SessionInfo},
      allocateSession policy session fuel rate (s, changes) = some (rate', s', changes') →
      Consistent id s → s.sessionTable.lookup session = some info →
      ∃ info', s'.sessionTable.lookup session = some info' ∧
        info'.totalThroughput + rate' = info.totalThroughput + rate
  | 0, _, _, _, _, _, _, _, h, _, _ => by cases h
  | fuel + 1, rate, rate', s, s', changes, changes', info, h, hc, hinfo => by
    rw [allocateSession] at h
    split at h
    · cases hbest : findBestBackend policy s session rate [] with
      | none => rw [hbest] at h; cases h; exact ⟨info, hinfo, rfl⟩
      | some placed =>
        obtain ⟨b, inst⟩ := placed
        rw [hbest, Option.elim_some] at h
        obtain ⟨backend, hb, -, -, hfree, hinst⟩ := findBestBackend_spec policy hbest
        have hnew : b ∉ info.backendWeights := fun hmem => by
          have hrate := hc.eq b session
          rw [recordedRate, hinfo, Option.some_bind, hostedRate, hb, Option.some_bind,
            hfree hrefuse] at hrate
          exact AList.lookup_eq_none.mp hrate hmem
        obtain ⟨info', h1, h2⟩ := allocateSession_total hrefuse hweigh h
          (hc.place hweigh.id_view (AList.lookup_isSome.mp (by simp [hb])) hinst
            (AList.lookup_isSome.mp (by simp [hinfo])))
          (lookup_modifySession _ hinfo)
        refine ⟨info', h1, ?_⟩
        rw [h2, SessionInfo.totalThroughput_emplace hnew, InstanceInfo.getWeight, hweigh inst]
        ring
    · cases h; exact ⟨info, hinfo, rfl⟩

/-- One session of `AllocateUnassignedWorkloads` changes that session's record only. -/
theorem onlyTouches_allocateOwed {acc acc' : Scheduler × Changes}
    {entry : Σ _ : String, SessionInfo} (h : allocateOwed policy acc entry = some acc') :
    OnlyTouches entry.1 acc.1 acc'.1 := by
  obtain ⟨⟨rate, s1, changes1⟩, hloop, h⟩ := Option.bind_eq_some.mp h
  cases h
  exact (onlyTouches_allocateSession hloop).trans (.of_modify rfl)

/-- One session of `AllocateUnassignedWorkloads` keeps the records consistent, and the
session holds what it held up to `1e-3`: what is placed moves from its debt to its
weights, and the debt left is rounded to zero only within `1e-3` of it. -/
theorem allocateOwed_spec (hrefuse : policy.RefusesServed) (hweigh : policy.WeighsThroughput)
    {acc acc' : Scheduler × Changes} {entry : Σ _ : String, SessionInfo}
    {info : SessionInfo} (hc : Consistent id acc.1)
    (hinfo : acc.1.sessionTable.lookup entry.1 = some info)
    (hdebt : entry.2.unassignedWorkload = info.unassignedWorkload)
    (h : allocateOwed policy acc entry = some acc') :
    Consistent id acc'.1 ∧ ∃ info', acc'.1.sessionTable.lookup entry.1 = some info' ∧
      info.held - tolerance ≤ info'.held := by
  obtain ⟨s, changes⟩ := acc
  obtain ⟨⟨rate, s1, changes1⟩, hloop, h⟩ := Option.bind_eq_some.mp h
  cases h
  obtain ⟨info1, h1, h2⟩ := allocateSession_total hrefuse hweigh hloop hc hinfo
  refine ⟨(hc.allocateSession hweigh.id_view
    (AList.lookup_isSome.mp (by simp [hinfo])) hloop).1.modifySession
    fun _ => rfl, _, lookup_modifySession _ h1, ?_⟩
  show info.totalThroughput + info.unassignedWorkload - tolerance ≤
    info1.totalThroughput + max 0 (if |rate| < tolerance then 0 else rate)
  rw [← hdebt]
  split_ifs with hround
  · linarith [(abs_lt.mp hround).2, le_max_left (0 : ℚ) 0]
  · linarith [le_max_right 0 rate, tolerance_pos]

/-- `AllocateUnassignedWorkloads` visits each owed session once, with the debt the
session had before the loop, and each pass leaves the other sessions as they were: every
session holds what it held up to `1e-3`. -/
theorem foldlM_allocateOwed_held (hrefuse : policy.RefusesServed)
    (hweigh : policy.WeighsThroughput) {session : String} {info : SessionInfo} :
    ∀ (owed : List (Σ _ : String, SessionInfo)) {acc acc' : Scheduler × Changes},
      owed.foldlM (allocateOwed policy) acc = some acc' → (owed.map Sigma.fst).Nodup →
      (∀ entry ∈ owed, (acc.1.sessionTable.lookup entry.1).map SessionInfo.unassignedWorkload =
        some entry.2.unassignedWorkload) →
      Consistent id acc.1 → acc.1.sessionTable.lookup session = some info →
      ∃ info', acc'.1.sessionTable.lookup session = some info' ∧
        info.held - tolerance ≤ info'.held
  | [], _, _, h, _, _, _, hinfo => by
    cases h; exact ⟨info, hinfo, sub_le_self _ tolerance_pos.le⟩
  | x :: owed, acc, acc', h, hnodup, hdebts, hc, hinfo => by
    obtain ⟨acc1, hstep, hrest⟩ := Option.bind_eq_some.mp h
    obtain ⟨hfresh, hnodup⟩ := List.nodup_cons.mp hnodup
    obtain ⟨infoX, hinfoX, hdebt⟩ := Option.map_eq_some'.mp (hdebts x (List.mem_cons_self _ _))
    obtain ⟨hc1, infoX', h1, hheld⟩ := allocateOwed_spec hrefuse hweigh hc hinfoX hdebt.symm hstep
    have hframe := onlyTouches_allocateOwed hstep
    have hother : ∀ y ∈ owed, y.1 ≠ x.1 := fun y hy heq =>
      hfresh (heq ▸ List.mem_map_of_mem Sigma.fst hy)
    by_cases hx : session = x.1
    · subst hx
      obtain rfl : infoX = info := Option.some_inj.mp (hinfoX.symm.trans hinfo)
      exact ⟨infoX', foldlM_invariant
        (fun acc : Scheduler × Changes => acc.1.sessionTable.lookup x.1 = some infoX')
        (fun _ y _ hy hacc hpass => (onlyTouches_allocateOwed hpass x.1
          fun heq => hother y hy heq.symm).trans hacc) h1 hrest, hheld⟩
    · exact foldlM_allocateOwed_held hrefuse hweigh owed hrest hnodup
        (fun y hy => by rw [hframe y.1 (hother y hy)]; exact hdebts y (List.mem_cons_of_mem _ hy))
        hc1 ((hframe session hx).trans hinfo)

/-- `AllocateUnassignedWorkloads` from consistent records: every session holds what it
held up to `1e-3`. -/
theorem allocateUnassignedWorkloads_held (hrefuse : policy.RefusesServed)
    (hweigh : policy.WeighsThroughput) {s s' : Scheduler} {changes changes' : Changes}
    (hc : Consistent id s) (h : allocateUnassignedWorkloads policy s changes = some (s', changes'))
    {session : String} {info : SessionInfo} (hinfo : s.sessionTable.lookup session = some info) :
    ∃ info', s'.sessionTable.lookup session = some info' ∧ info.held - tolerance ≤ info'.held := by
  dsimp only [allocateUnassignedWorkloads] at h
  split at h
  · cases h; exact ⟨info, hinfo, sub_le_self _ tolerance_pos.le⟩
  · refine foldlM_allocateOwed_held hrefuse hweigh _ h ?_ (fun entry hentry => ?_) hc hinfo
    · exact ((List.perm_insertionSort _ _).map Sigma.fst).nodup_iff.mpr
        (((List.filter_sublist _).map Sigma.fst).nodup s.sessionTable.nodupKeys)
    · rw [AList.mem_lookup_iff.mpr
        (List.mem_filter.mp ((List.perm_insertionSort _ _).subset hentry)).1]
      rfl

/-! ### The epoch -/

variable {db : ModelDatabase}

/-- After an epoch from a reachable state, a session whose history is full holds its
estimate (its latest rate, at least `0.1`) up to `2e-3`, placed on backends or owed,
provided that `UpdateModelThroughput` covers the rate it is asked to shrink to, that an
instance weighs its throughput, that `PrepareLoadModel` refuses a session a backend serves
already, and that a spill is reported at no less than the backend served. -/
theorem epoch_conserves_demand (hcover : policy.ResizeCovers) (hweigh : policy.WeighsThroughput)
    (hrefuse : policy.RefusesServed) (hspill : policy.SpillsServedRate) {s s' : Scheduler}
    (hs : Reachable cfg policy db s) (h : epochSchedule cfg policy s = some s')
    {session : String} {info : SessionInfo} {last : ℚ}
    (hinfo : s.sessionTable.lookup session = some info)
    (hfull : info.rpsHistory.length = cfg.historyLen)
    (hlast : info.rpsHistory.getLast? = some last) :
    ∃ info', s'.sessionTable.lookup session = some info' ∧
      max last (mkRat 1 10) - 2 * tolerance ≤
        info'.totalThroughput + info'.unassignedWorkload := by
  have hc := hs.exact hweigh
  unfold epochSchedule at h
  obtain ⟨⟨s1, changed, overloaded⟩, hsched, h⟩ := Option.bind_eq_some.mp h
  obtain ⟨info1, h1, hheld1⟩ := foldlM_scheduleSession_held hcover hweigh hfull.ge hlast _ hsched
    s.sessionTable.nodupKeys (Table.mem_keyList.mpr (AList.lookup_isSome.mp (by simp [hinfo])))
    hc hinfo
  have hc1 : Consistent id s1 :=
    foldlM_invariant (fun acc : Scheduler × List String × List Nat => Consistent id acc.1)
      (fun _ _ _ _ hacc hstep => hacc.scheduleSession hweigh.id_view hstep) hc hsched
  obtain ⟨s2, hspills, h⟩ := Option.bind_eq_some.mp h
  have h2 := foldlM_invariant (fun t => Consistent id t ∧ HeldGrows s1 t)
    (fun _ _ _ _ hacc hstep => ⟨hacc.1.spillOut hstep,
      hacc.2.trans (spillOut_held hspill hacc.1 hstep)⟩) ⟨hc1, .refl s1⟩ hspills
  obtain ⟨info2, h2', hheld2⟩ := h2.2 session info1 h1
  obtain ⟨⟨s3, changes⟩, halloc, h⟩ := Option.bind_eq_some.mp h
  obtain ⟨info3, h3, hheld3⟩ := allocateUnassignedWorkloads_held hrefuse hweigh h2.1 halloc h2'
  obtain ⟨s4, hroutes, h⟩ := Option.bind_eq_some.mp h
  obtain ⟨_, -, h⟩ := Option.bind_eq_some.mp h
  cases h
  obtain ⟨effects, rfl⟩ := updateModelRoutes_frame hroutes
  refine ⟨info3, h3, ?_⟩
  show _ ≤ info3.held
  generalize max last (mkRat 1 10) = estimate at hheld1 ⊢
  linarith [tolerance_pos]

/-! ### Epochs with and without the four assumptions -/

/-- A delegate that spills nothing reports every spill at the rate it served. -/
theorem Policy.spillsServedRate_of_never {policy : Policy}
    (h : ∀ backend session, policy.spills backend session = false) : policy.SpillsServedRate :=
  fun backend session _ _ hspills => absurd
    ((h backend session).symm.trans hspills) Bool.false_ne_true

/-- The epoch releases the instance serving `m` at `4` down to the estimate of `1`,
which `m` then holds. -/
theorem epoch_conserves_demand_released :
    ∃ s' info', epochSchedule epochConfig placingPolicy (reportedState placingPolicy 1) = some s' ∧
      s'.sessionTable.lookup "m" = some info' ∧
      max 1 (mkRat 1 10) - 2 * tolerance ≤ info'.totalThroughput + info'.unassignedWorkload := by
  obtain ⟨s', h⟩ := Option.isSome_iff_exists.mp
    (show (epochSchedule epochConfig placingPolicy (reportedState placingPolicy 1)).isSome by
      with_unfolding_all decide)
  obtain ⟨info, hinfo⟩ := Option.isSome_iff_exists.mp
    (show ((reportedState placingPolicy 1).sessionTable.lookup "m").isSome by
      with_unfolding_all decide)
  have hhistory : info.rpsHistory = [1] := by
    have hmap : ((reportedState placingPolicy 1).sessionTable.lookup "m").map
        SessionInfo.rpsHistory = some [1] := by with_unfolding_all decide
    rw [hinfo] at hmap
    exact Option.some.inj hmap
  obtain ⟨info', h', hheld⟩ := epoch_conserves_demand (fun _ _ _ _ _ _ => le_refl _)
    (fun _ => rfl) placingPolicy_refusesServed (Policy.spillsServedRate_of_never fun _ _ => rfl)
    (reachable_getD_run _ _ _ (by with_unfolding_all decide)) h hinfo
    (by rw [hhistory]; rfl) (by rw [hhistory]; rfl)
  exact ⟨s', info', h, h', hheld⟩

/-- From the reachable state in which `m`, served at `4`, has the history `[rate]`, the
epoch leaves `m` holding `kept`, less than its estimate less `2e-3`. -/
def ShortOfEstimate (policy : Policy) (rate kept : ℚ) : Prop :=
  Reachable epochConfig policy anyModel (reportedState policy rate) ∧
    ((reportedState policy rate).sessionTable.lookup "m").map SessionInfo.rpsHistory =
      some [rate] ∧
    ((epochSchedule epochConfig policy (reportedState policy rate)).bind fun s' =>
      s'.sessionTable.lookup "m").map SessionInfo.held = some kept ∧
    kept < max rate (mkRat 1 10) - 2 * tolerance

/-- A backend serving `m` at `4`. -/
def servingBackend : BackendDelegate :=
  ⟨⟨1, "gpu", "uuid-1"⟩, -1, (∅ : Table String InstanceInfo).insert "m" ⟨"m", 4⟩, []⟩

/-- A delegate that refuses a session a backend serves and places a new one at `4`,
weighs an instance at its throughput, spills nothing, shrinks an instance to the rate
asked for and grows none beyond `4`. -/
def cappedPolicy : Policy :=
  { placingPolicy with
    resize := fun backend session rate =>
      if rate < backend.getModelThroughput session then rate else min rate 4 }

theorem cappedPolicy_resizeCovers : cappedPolicy.ResizeCovers :=
  fun backend session rate inst hinst hlt => by
    show rate ≤ if rate < backend.getModelThroughput session then rate else min rate 4
    rw [if_pos (by simpa [BackendDelegate.rateOf, hinst] using hlt)]

/-- `UpdateModelThroughput` settles on half the rate asked for. -/
def halvingPolicy : Policy := { placingPolicy with resize := fun _ _ rate => rate / 2 }

/-- `PrepareLoadModel` places `m` again, at `4`, on the backend serving it. -/
def returningPolicy : Policy := { cappedPolicy with placement := fun _ _ _ => some (4, mkRat 1 2) }

/-- An instance weighs half its throughput. -/
def lightPolicy : Policy := { cappedPolicy with weight := fun inst => inst.throughput / 2 }

/-- Every backend is overloaded and spills all its sessions, each reported at `0`. -/
def zeroSpillPolicy : Policy :=
  { cappedPolicy with
    occupancy := fun _ => 2
    overload := fun _ => true
    spills := fun _ _ => true
    spillRate := fun _ _ => 0 }

/-- Each assumption is needed: under a delegate that meets the other three, the epoch
from a reachable state leaves `m` short of its estimate.  Shrunk to half of `1`, `m` keeps
`0.5`; placed again at `4` on the backend serving it against a debt of `6`, it overshoots,
the debt is rounded to none, and `m` keeps `4` of `10`; weighing half its throughput, the
instance grown to `4` records `2` and `m` keeps `8` of `10`; and spilled at a reported `0`,
the `4` served is dropped and `m` keeps `6` of `10`. -/
theorem epoch_loses_demand :
    (¬ halvingPolicy.ResizeCovers ∧ halvingPolicy.WeighsThroughput ∧
      halvingPolicy.RefusesServed ∧ halvingPolicy.SpillsServedRate ∧
      ShortOfEstimate halvingPolicy 1 (mkRat 1 2)) ∧
    (returningPolicy.ResizeCovers ∧ returningPolicy.WeighsThroughput ∧
      ¬ returningPolicy.RefusesServed ∧ returningPolicy.SpillsServedRate ∧
      ShortOfEstimate returningPolicy 10 4) ∧
    (lightPolicy.ResizeCovers ∧ ¬ lightPolicy.WeighsThroughput ∧
      lightPolicy.RefusesServed ∧ lightPolicy.SpillsServedRate ∧
      ShortOfEstimate lightPolicy 10 8) ∧
    (zeroSpillPolicy.ResizeCovers ∧ zeroSpillPolicy.WeighsThroughput ∧
      zeroSpillPolicy.RefusesServed ∧ ¬ zeroSpillPolicy.SpillsServedRate ∧
      ShortOfEstimate zeroSpillPolicy 10 6) := by
  have hnever : ∀ backend session, cappedPolicy.spills backend session = false := fun _ _ => rfl
  refine ⟨⟨fun h => absurd (h servingBackend "m" 1 ⟨"m", 4⟩ rfl (by decide))
        (by with_unfolding_all decide),
      fun _ => rfl, placingPolicy_refusesServed, Policy.spillsServedRate_of_never hnever, ?_⟩,
    ⟨cappedPolicy_resizeCovers, fun _ => rfl,
      fun h => absurd (h servingBackend "m" 1 (by decide)) (by decide),
      Policy.spillsServedRate_of_never hnever, ?_⟩,
    ⟨cappedPolicy_resizeCovers, fun h => absurd (h ⟨"m", 4⟩) (by with_unfolding_all decide),
      placingPolicy_refusesServed, Policy.spillsServedRate_of_never hnever, ?_⟩,
    ⟨cappedPolicy_resizeCovers, fun _ => rfl, placingPolicy_refusesServed,
      fun h => absurd (h servingBackend "m" ⟨"m", 4⟩ rfl rfl) (by decide), ?_⟩⟩ <;>
  exact ⟨reachable_getD_run _ _ _ (by with_unfolding_all decide), by with_unfolding_all decide,
    by with_unfolding_all decide, by with_unfolding_all decide⟩

end Scheduler

end NexusLb.Sched
