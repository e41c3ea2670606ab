import Mathlib.Data.Finmap
import Mathlib.Algebra.Order.Field.Rat

/-!
# Shared records of the scheduling fabric

The identities and wire records that the dispatcher, its DRR route tables and the
global scheduler exchange, and the finite maps that stand for the source's
`std::unordered_map`s.  A map is an `AList`: its keys are duplicate-free by
construction, and the order of its entries stands for the unspecified iteration
order of an `unordered_map`.  Rates and throughputs are exact rationals.
-/

namespace NexusLb

/-- A `std::unordered_map` from `K` to `V`. -/
abbrev Table (K V : Type) := AList (fun _ : K => V)

namespace Table

variable {K V : Type}

/-- The keys of a table in iteration order. -/
def keyList (table : Table K V) : List K :=
  table.entries.map Sigma.fst

@[simp]
theorem mem_keyList {key : K} {table : Table K V} : key ∈ table.keyList ↔ key ∈ table := by
  simp [keyList, AList.mem_keys, AList.keys, List.keys]

variable [DecidableEq K]

/-- `map.emplace(key, value)`: the value is stored only when the key is absent. -/
def emplace (key : K) (value : V) (table : Table K V) : Table K V :=
  if key ∈ table then table else table.insert key value

theorem mem_emplace {key key' : K} {value : V} {table : Table K V} :
    key' ∈ table.emplace key value ↔ key' = key ∨ key' ∈ table := by
  unfold emplace
  split <;> simp_all [AList.mem_insert]

theorem lookup_emplace_self {key : K} {value : V} {table : Table K V} (h : key ∉ table) :
    (table.emplace key value).lookup key = some value := by
  simp [emplace, h, AList.lookup_insert]

theorem lookup_emplace_of_mem {key : K} {value : V} {table : Table K V} (h : key ∈ table) :
    table.emplace key value = table := by
  simp [emplace, h]

theorem lookup_emplace_ne {key key' : K} {value : V} {table : Table K V} (hne : key' ≠ key) :
    (table.emplace key value).lookup key' = table.lookup key' := by
  unfold emplace
  split
  · rfl
  · exact AList.lookup_insert_ne hne

/-- `emplace` keeps the first value stored under a key. -/
theorem lookup_emplace {key key' : K} {value : V} {table : Table K V} :
    (table.emplace key value).lookup key' =
      (table.lookup key').or (if key' = key then some value else none) := by
  by_cases hkey : key' = key
  · subst hkey
    by_cases hmem : key' ∈ table
    · obtain ⟨stored, hstored⟩ := Option.isSome_iff_exists.mp (AList.lookup_isSome.mpr hmem)
      simp [lookup_emplace_of_mem hmem, hstored]
    · simp [lookup_emplace_self hmem, AList.lookup_eq_none.mpr hmem]
  · simp [lookup_emplace_ne hkey, hkey]

/-- `map[key]->Mutate(...)` on an object held by the table: the value under `key`,
if there is one, is replaced by its update. -/
def modify (key : K) (f : V → V) (table : Table K V) : Table K V :=
  match table.lookup key with
  | some value => table.insert key (f value)
  | none => table

@[simp]
theorem mem_modify {key key' : K} {f : V → V} {table : Table K V} :
    key' ∈ table.modify key f ↔ key' ∈ table := by
  unfold modify
  split
  · rename_i value h
    simp only [AList.mem_insert, or_iff_right_iff_imp]
    rintro rfl
    exact AList.lookup_isSome.mp (by simp [h])
  · rfl

@[simp]
theorem lookup_modify_self {key : K} {f : V → V} {table : Table K V} :
    (table.modify key f).lookup key = (table.lookup key).map f := by
  unfold modify
  split <;> simp_all

theorem lookup_modify_ne {key key' : K} {f : V → V} {table : Table K V} (hne : key' ≠ key) :
    (table.modify key f).lookup key' = table.lookup key' := by
  unfold modify
  split
  · exact AList.lookup_insert_ne hne
  · rfl

theorem lookup_modify {key key' : K} {f : V → V} {table : Table K V} :
    (table.modify key f).lookup key' =
      if key' = key then (table.lookup key').map f else table.lookup key' := by
  split
  · subst key'; exact lookup_modify_self
  · exact lookup_modify_ne ‹_›

/-- A loop over a table that counts only at one key reads that key's value: keys are
unique. -/
theorem sum_entries_eq_lookup (table : Table K V) (key : K) (g : V → Nat) :
    (table.entries.map fun entry => if entry.1 = key then g entry.2 else 0).sum =
      ((table.lookup key).map g).getD 0 := by
  obtain ⟨entries, hnodup⟩ := table
  simp only [AList.lookup]
  induction entries with
  | nil => simp
  | cons entry entries ih =>
    obtain ⟨a, value⟩ := entry
    obtain ⟨hfresh, hnodup⟩ := List.nodupKeys_cons.mp hnodup
    by_cases hkey : a = key
    · subst hkey
      simp [ih hnodup, List.dlookup_eq_none.mpr hfresh, List.dlookup_cons_eq]
    · simp [hkey, ih hnodup, List.dlookup_cons_ne entries ⟨a, value⟩ (Ne.symm hkey)]

/-- Inserting an absent key and erasing it again gives back the table. -/
theorem erase_insert_of_not_mem {key : K} {value : V} {table : Table K V} (h : key ∉ table) :
    (table.insert key value).erase key = table := by
  apply AList.ext
  simp only [AList.erase, AList.insert, List.kinsert, List.kerase_cons_eq]
  exact List.kerase_of_not_mem_keys (by simpa [AList.mem_keys] using h)

/-- `modify` right after an `insert` of the same key updates the inserted value. -/
theorem modify_insert_self {key : K} {value : V} {f : V → V} {table : Table K V} :
    modify key f (table.insert key value) = table.insert key (f value) := by
  unfold modify
  rw [AList.lookup_insert]
  exact AList.insert_insert _

end Table

/-- A property that every pass of a loop that can fail keeps holds of the loop's
result. -/
theorem foldlM_invariant {α β : Type} (P : β → Prop) {f : β → α → Option β} {l : List α}
    {init result : β} (hpass : ∀ acc x acc', x ∈ l → P acc → f acc x = some acc' → P acc')
    (hinit : P init) (h : l.foldlM f init = some result) : P result := by
  induction l generalizing init with
  | nil => cases h; exact hinit
  | cons x l ih =>
    obtain ⟨acc, hacc, hrest⟩ := Option.bind_eq_some.mp h
    exact ih (fun acc x acc' hx => hpass acc x acc' (List.mem_cons_of_mem _ hx))
      (hpass _ _ _ (List.mem_cons_self _ _) hinit hacc) hrest

/-- A count that a predicate weaker on every element and false on one counted element
lowers: the measure of the loops that use up backends or quanta. -/
theorem countP_lt_countP {α : Type} {l : List α} {p q : α → Bool}
    (himp : ∀ x ∈ l, q x → p x) {y : α} (hy : y ∈ l) (hp : p y) (hq : q y = false) :
    l.countP q < l.countP p := by
  induction l with
  | nil => cases hy
  | cons x xs ih =>
    have himp' : ∀ z ∈ xs, q z → p z := fun z hz => himp z (List.mem_cons_of_mem _ hz)
    have hmono := List.countP_mono_left himp'
    have hx := himp x (List.mem_cons_self _ _)
    rw [List.countP_cons, List.countP_cons]
    rcases List.mem_cons.1 hy with rfl | hy
    · simp only [hp, hq, if_true, Bool.false_eq_true, if_false]
      omega
    · have hlt := ih himp' hy
      by_cases hqx : q x = true
      · simp only [hqx, hx hqx, if_true]; omega
      · by_cases hpx : p x = true <;> simp [hqx, hpx] <;> omega

/-- `BackendInfo`: the identity of one GPU worker as routes and backend lists carry
it.  Its address, ports and memory size are read by no modelled function. -/
structure BackendInfo where
  nodeId : Nat
  gpuDevice : String
  gpuUuid : String
  deriving DecidableEq, Repr

/-- One `backend_rate` entry of a `ModelRouteProto`. -/
structure BackendRate where
  info : BackendInfo
  throughput : ℚ
  deriving DecidableEq

/-- `ModelRouteProto`: the route of one model session, as pushed to frontends. -/
structure ModelRouteProto where
  modelSessionId : String
  backendRate : List BackendRate
  deriving DecidableEq

/-- The reply statuses of `CtrlStatus` that the modelled handlers set. -/
inductive CtrlStatus
  | ctrlOk
  | modelNotFound
  | ctrlFrontendNodeIdConflict
  | ctrlBackendNodeIdConflict
  | ctrlInvalidLoadModelRequest
  | ctrlServerNotRegistered
  | notEnoughBackends
  deriving DecidableEq, Repr

/-- `ModelProfile`, read-only: forward latency by batch size and the largest batch
whose latency fits a budget. -/
structure ModelProfile where
  forwardLatencyUs : Nat → ℚ
  maxBatchWithFullBudget : Nat → Nat

/-- The model database (`ModelDatabase::Singleton()`) together with the session-id
codec of `model_def`; neither is part of the modelled source, so every result holds
for every database. -/
structure ModelDatabase where
  /-- `GetModelInfo(ModelSessionToModelID(session)) != nullptr`. -/
  hasModelInfo : String → Bool
  /-- `GetModelProfile(gpu_device, gpu_uuid, ModelSessionToProfileID(session))`. -/
  modelProfile : String → String → String → Option ModelProfile
  /-- `ParseModelSession(session_id).latency_sla()`. -/
  latencySla : String → Nat

/-- The profile of a session on a backend's GPU, if the database has one. -/
def ModelDatabase.profileOn (db : ModelDatabase) (info : BackendInfo) (session : String) :
    Option ModelProfile :=
  db.modelProfile info.gpuDevice info.gpuUuid session

end NexusLb
