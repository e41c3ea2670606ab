import NexusLb.Scheduler.Membership

/-!
# Beacons, epochs and the scheduler's runs

`BeaconCheck` folds the rates the frontends reported into each session's rate history
and says whether a session's latest rate left the band around its throughput.
`EpochSchedule` sizes every session with a full history to its latest rate: it releases
or grows the instances on the backends not pinned to a static workload, spills the load
of backends the growth overloaded, and places what is owed.  The mean and deviation it
computes of a history are only logged and are not modelled; nor is `Run`, the thread
that calls both on its timers: `step` lets a beacon or an epoch come between any two
handlers, so the reachable states are those of every order of the scheduler's calls.
-/

namespace NexusLb.Sched

/-- `rps_history[index]` of a `std::deque`: an index that wrapped below zero reads out
of range, as one past the end does. -/
def historyAt (history : List ℚ) (index : Int) : Option ℚ :=
  if 0 ≤ index then history[index.toNat]? else none

namespace SessionInfo

/-- `BeaconCheck`'s aggregation for one session: the sum of the frontends' rates joins
the history, unless it would be a leading zero, and the history keeps its last
`history_len_` samples. -/
def recordRate (historyLen : Nat) (info : SessionInfo) : SessionInfo :=
  let rps := (info.workloads.entries.map fun entry => max 0 entry.2).sum
  let history :=
    if 0 < info.rpsHistory.length ∨ 0 < rps then info.rpsHistory ++ [rps] else info.rpsHistory
  { info with rpsHistory := if historyLen < history.length then history.tail else history }

/-- Whether an estimate from a rate, at least `0.1`, left the band from `0.8` to `1.1`
times the session's throughput. -/
def leavesBand (info : SessionInfo) (last : ℚ) : Bool :=
  let estimate := max last (mkRat 1 10)
  decide (estimate < info.totalThroughput * mkRat 8 10 ∨
    info.totalThroughput * mkRat 11 10 < estimate)

/-- `BeaconCheck`'s test of one session with a full history: whether the rate it reads at
`rps_history[history_len_ - 1]` left the band. -/
def outOfBand (historyLen : Nat) (info : SessionInfo) : Option Bool :=
  if info.rpsHistory.length < historyLen then some false
  else (historyAt info.rpsHistory ((historyLen : Int) - 1)).map info.leavesBand

end SessionInfo

/-- The trigger loop of `BeaconCheck`: the first session out of band stops it. -/
def anyOutOfBand (historyLen : Nat) : List SessionInfo → Option Bool
  | [] => some false
  | info :: infos => do
    if (← info.outOfBand historyLen) then pure true else anyOutOfBand historyLen infos

namespace Scheduler

variable (cfg : Config) (policy : Policy)

/-- `BeaconCheck()`: the histories, and whether an epoch should be triggered. -/
def beaconCheck (s : Scheduler) : Option (Bool × Scheduler) :=
  let s := s.sessionTable.keyList.foldl
    (fun s session => s.modifySession session (SessionInfo.recordRate cfg.historyLen)) s
  (anyOutOfBand cfg.historyLen (s.sessionTable.entries.map Sigma.snd)).map (·, s)

/-- The first loop of `EpochSchedule`'s release and grow branches: a backend pinned to
a static workload only counts against the estimate; the others are left to adjust. -/
def splitStatic (s : Scheduler) (weights : List (Σ _ : Nat, ℚ)) (estimate : ℚ) :
    Option (ℚ × List (Nat × ℚ)) :=
  weights.foldlM (fun acc entry => do
      let backend ← s.backends.lookup entry.1
      pure (if 0 ≤ backend.workloadId then (acc.1 - entry.2, acc.2)
        else (acc.1, acc.2 ++ [(entry.1, entry.2)])))
    (estimate, [])

/-- The adjustable backends by weight, largest first (`std::sort` by `a.second >
b.second`; its order among equal weights is unspecified). -/
def sortByWeight (adjust : List (Nat × ℚ)) : List (Nat × ℚ) :=
  adjust.insertionSort fun a b => b.2 ≤ a.2

/-- An adjusted backend stops serving the session and leaves its weights. -/
def unloadSession (session : String) (b : Nat) (backend : BackendDelegate) (s : Scheduler) :
    Scheduler :=
  ({ s with backends := s.backends.insert b (backend.unloadModel session) }).modifySession
    session fun info => { info with backendWeights := info.backendWeights.erase b }

/-- An adjusted backend holds the resized instance, whose weight the session records. -/
def resizeSession (session : String) (b : Nat) (backend : BackendDelegate) (s : Scheduler) :
    Scheduler :=
  ({ s with backends := s.backends.insert b backend }).modifySession session fun info =>
    { info with
      backendWeights := info.backendWeights.insert b (backend.getModelWeight policy session) }

/-- The adjusting loop of the release branch. -/
def releaseLoop (session : String) : List (Nat × ℚ) → ℚ → Scheduler → Option (ℚ × Scheduler)
  | [], estimate, s => some (estimate, s)
  | (b, weight) :: rest, estimate, s =>
    if estimate < tolerance then do
      let backend ← s.backends.lookup b
      releaseLoop session rest estimate (unloadSession session b backend s)
    else if estimate < weight then do
      let backend ← s.backends.lookup b
      let (throughput, backend) := backend.updateModelThroughput policy session estimate
      releaseLoop session rest (estimate - throughput) (resizeSession policy session b backend s)
    else releaseLoop session rest (estimate - weight) s

/-- The adjusting loop of the grow branch, which also collects the backends the resize
overloads. -/
def growLoop (session : String) :
    List (Nat × ℚ) → ℚ → Scheduler × List Nat → Option (ℚ × Scheduler × List Nat)
  | [], estimate, acc => some (estimate, acc)
  | (b, _) :: rest, estimate, (s, overloaded) =>
    if estimate < tolerance then do
      let backend ← s.backends.lookup b
      growLoop session rest estimate (unloadSession session b backend s, overloaded)
    else do
      let backend ← s.backends.lookup b
      let (throughput, backend) := backend.updateModelThroughput policy session estimate
      let overloaded :=
        if policy.overload backend ∧ mkRat 105 100 < policy.occupancy backend then overloaded ++ [b]
        else overloaded
      growLoop session rest (estimate - throughput) (resizeSession policy session b backend s,
        overloaded)

/-- `EpochSchedule`'s sizing of one session to its estimate: the debt the estimate leaves
over the session's throughput is recorded, then instances are released when the estimate
is below `0.97` times the throughput and grown when it is above. -/
def sizeSession (acc : Scheduler × List String × List Nat) (session : String)
    (info : SessionInfo) (estimate : ℚ) : Option (Scheduler × List String × List Nat) :=
  let (s, changed, overloaded) := acc
  let throughput := info.totalThroughput
  let s := s.modifySession session fun info =>
    { info with unassignedWorkload := max 0 (estimate - throughput) }
  if estimate < throughput * mkRat 97 100 then do
    let (estimate, adjust) ← splitStatic s info.backendWeights.entries estimate
    let (_, s) ← releaseLoop policy session (sortByWeight adjust) estimate s
    pure (s, changed.insert session, overloaded)
  else if throughput < estimate then do
    let (estimate, adjust) ← splitStatic s info.backendWeights.entries estimate
    let (estimate, s, overloaded) ←
      growLoop policy session (sortByWeight adjust) estimate (s, overloaded)
    let s := s.modifySession session fun info =>
      { info with unassignedWorkload := if tolerance < estimate then estimate else 0 }
    pure (s, changed.insert session, overloaded)
  else pure (s, changed, overloaded)

/-- `EpochSchedule`'s first step for one session: with a full history, it reads
`rps_history[n - 1]` and sizes the session to that rate, at least `0.1`. -/
def scheduleSession (acc : Scheduler × List String × List Nat) (session : String) :
    Option (Scheduler × List String × List Nat) :=
  match acc.1.sessionTable.lookup session with
  -- every key of the table being iterated is present
  | none => some acc
  | some info =>
    let n := info.rpsHistory.length
    if n < cfg.historyLen then some acc
    else do
      let last ← historyAt info.rpsHistory ((n : Int) - 1)
      sizeSession policy acc session info (max last (mkRat 1 10))

variable {cfg policy} in
/-- What sizing one session can do to the state and to the list of overloaded backends:
nothing; record the session's debt; or record it and run the release loop, or the grow
loop, which adds to the list, and then record the debt that loop leaves, on the backends
that `splitStatic` sets aside. -/
theorem scheduleSession_cases {acc acc' : Scheduler × List String × List Nat} {session : String}
    (h : scheduleSession cfg policy acc session = some acc') :
    (acc'.1 = acc.1 ∧ acc'.2.2 = acc.2.2) ∨ ∃ info debt,
      acc.1.sessionTable.lookup session = some info ∧
      ((acc'.1 = acc.1.modifySession session
        (fun info => { info with unassignedWorkload := debt }) ∧
          acc'.2.2 = acc.2.2) ∨
        (∃ estimate left adjust result,
          (acc.1.modifySession session fun info => { info with
            unassignedWorkload := debt }).splitStatic
            info.backendWeights.entries estimate = some (left, adjust) ∧
          releaseLoop policy session (sortByWeight adjust) left
            (acc.1.modifySession session fun info => { info with unassignedWorkload := debt }) =
              some result ∧ acc'.1 = result.2 ∧ acc'.2.2 = acc.2.2) ∨
        ∃ estimate left adjust result debt',
          (acc.1.modifySession session fun info => { info with
            unassignedWorkload := debt }).splitStatic
            info.backendWeights.entries estimate = some (left, adjust) ∧
          growLoop policy session (sortByWeight adjust) left
            (acc.1.modifySession session (fun info => { info with unassignedWorkload := debt }),
              acc.2.2) = some result ∧
          acc'.1 = result.2.1.modifySession session (fun info =>
            { info with unassignedWorkload := debt' }) ∧ acc'.2.2 = result.2.2) := by
  obtain ⟨s, changed, overloaded⟩ := acc
  unfold scheduleSession at h
  dsimp only at h
  split at h
  · cases h; exact .inl ⟨rfl, rfl⟩
  · rename_i info hinfo
    split at h
    · cases h; exact .inl ⟨rfl, rfl⟩
    · obtain ⟨last, -, h⟩ := Option.bind_eq_some.mp h
      refine .inr ⟨info, max 0 (max last (mkRat 1 10) - info.totalThroughput), hinfo, ?_⟩
      unfold sizeSession at h
      dsimp only at h
      split at h
      · obtain ⟨⟨left, adjust⟩, hsplit, h⟩ := Option.bind_eq_some.mp h
        obtain ⟨⟨rest, s2⟩, hloop, h⟩ := Option.bind_eq_some.mp h
        cases h
        exact .inr (.inl ⟨_, left, adjust, _, hsplit, hloop, rfl, rfl⟩)
      · split at h
        · obtain ⟨⟨left, adjust⟩, hsplit, h⟩ := Option.bind_eq_some.mp h
          obtain ⟨⟨rest, s2, grown⟩, hloop, h⟩ := Option.bind_eq_some.mp h
          cases h
          exact .inr (.inr ⟨_, left, adjust, _, _, hsplit, hloop, rfl, rfl⟩)
        · cases h; exact .inl ⟨rfl, rfl⟩

/-- `EpochSchedule`'s second step for one overloaded backend: what it spills leaves the
spilled sessions' weights and becomes their unassigned workload. -/
def spillOut (s : Scheduler) (b : Nat) : Option Scheduler :=
  match s.backends.lookup b with
  -- an epoch removes no backend
  | none => some s
  | some backend =>
    let (spilled, rest) := backend.spillOutWorkload policy
    spilled.foldlM (fun s spill => s.atSession spill.1 fun info =>
        { info with
          backendWeights := info.backendWeights.erase backend.nodeId
          unassignedWorkload := info.unassignedWorkload + spill.2 })
      { s with backends := s.backends.insert b rest }

/-- `DisplayModelTable()`, which only logs: once some backend is busy it dereferences
`GetBackend` of every backend in every session's weights. -/
def displayModelTable (s : Scheduler) : Option Unit :=
  if s.backends.entries.any fun entry => 0 < policy.occupancy entry.2 then
    if s.sessionTable.entries.all fun entry => entry.2.backendWeights.keyList.all (· ∈ s.backends)
    then some () else none
  else some ()

/-- `EpochSchedule()`. -/
def epochSchedule (s : Scheduler) : Option Scheduler := do
  let (s, changed, overloaded) ← s.sessionTable.keyList.foldlM (scheduleSession cfg policy) (s, [],
    [])
  let s ← overloaded.foldlM (spillOut policy) s
  let (s, changes) ← allocateUnassignedWorkloads policy s ⟨changed, []⟩
  let s ← (s.updateModelTables s.backends.keyList).updateModelRoutes changes.sessions
  let _ ← displayModelTable policy s
  pure s

/-! ### Runs -/

/-- A handler call, or a tick of the scheduler thread. -/
inductive Action
  | registerFrontend (nodeId : Nat)
  | registerBackend (info : BackendInfo)
  | unregisterFrontend (nodeId : Nat)
  | unregisterBackend (nodeId : Nat)
  | loadModel (request : LoadModelRequest)
  | reportWorkload (request : WorkloadStats)
  | beaconCheck
  | epochSchedule

variable (db : ModelDatabase)

/-- One call under the mutex; `none` when it brings the process down. -/
def step (s : Scheduler) : Action → Option Scheduler
  | .registerFrontend frontend => registerFrontend frontend s
  | .registerBackend info => registerBackend cfg policy info s
  | .unregisterFrontend frontend => unregisterFrontend frontend s
  | .unregisterBackend b => unregisterBackend policy b s
  | .loadModel request => (loadModel policy db request s).map Prod.snd
  | .reportWorkload request => reportWorkload request s
  | .beaconCheck => (beaconCheck cfg s).map Prod.snd
  | .epochSchedule => epochSchedule cfg policy s

/-- The states reachable from the start by any sequence of calls. -/
inductive Reachable : Scheduler → Prop
  | init : Reachable init
  | step {s s' : Scheduler} {action : Action} :
      Reachable s → step cfg policy db s action = some s' → Reachable s'

/-- Runs a list of calls in order. -/
def run (s : Scheduler) : List Action → Option Scheduler
  | [] => some s
  | action :: actions => (step cfg policy db s action).bind fun s' => run s' actions

theorem reachable_run {s s' : Scheduler} {actions : List Action}
    (hs : Reachable cfg policy db s) (h : run cfg policy db s actions = some s') :
    Reachable cfg policy db s' := by
  induction actions generalizing s with
  | nil => cases h; exact hs
  | cons action actions ih =>
    obtain ⟨s1, hstep, hrest⟩ := Option.bind_eq_some.mp h
    exact ih (hs.step hstep) hrest

/-- A run from the start that does not stop ends in a reachable state. -/
theorem reachable_getD_run {actions : List Action} (h : (run cfg policy db init actions).isSome) :
    Reachable cfg policy db ((run cfg policy db init actions).getD init) := by
  obtain ⟨s, hs⟩ := Option.isSome_iff_exists.mp h
  rw [hs]
  exact reachable_run cfg policy db .init hs

end Scheduler

/-! ### A deployment with one static workload -/

/-- A capacity policy under which a static instance serves at rate `10`, no dynamic
placement fits, `Assign` always fits and no backend overloads. -/
def pinningPolicy : Policy where
  placement _ _ _ := none
  weight := InstanceInfo.throughput
  resize _ _ rate := rate
  staticThroughput _ _ := 10
  fits _ _ := true
  occupancy _ := 0
  overload _ := false
  spills _ _ := false
  spillRate _ _ := 0
  passes := 4

/-- One static workload, which serves session `"s"`. -/
def pinningConfig : Config := ⟨1, 10, [[⟨"s", false⟩]]⟩

/-- A model database that knows every session and profiles none. -/
def anyModel : ModelDatabase := ⟨fun _ => true, fun _ _ _ => none, fun _ => 100⟩

/-- Backend `1` joins and is pinned to the static workload. -/
def pinnedState : Scheduler :=
  (Scheduler.run pinningConfig pinningPolicy anyModel .init
    [.registerBackend ⟨1, "gpu", "uuid-1"⟩]).getD .init

end NexusLb.Sched
