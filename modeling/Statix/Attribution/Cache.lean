import Mathlib.Logic.Relation
import Statix.Attribution.Labels

/-!
# The attribution cache

Model of `CacheState` and of the operations of `AttributionCache` on it
(`statix/src/attribution/mod.rs`), each cut at its lock sections. The lock is a `RwLock`; between
two sections of one operation sections of others may run.

* `register_cgroup_directory`, `upsert_pod`, `remove_pod_by_uid`: one write section.
* `on_identity_event`: a check, the read of `/proc/<pid>/cgroup` outside the lock, a write section
  that checks again.
* `evict_stale_cgroups`: a scan of `memory_current_paths`, a write section that removes.
* `merge_cgroup_labels_from_k8s`: a snapshot, a write section.

`Shared` is the cache with the operations that are between their sections, and a step is one section
of one operation (`CacheStep`). Every operation may be in flight any number of times.

`InStep` is the invariant that the five maps by cgroup have one key set.

* `maps_in_step`: it holds in every run in which no failed `/proc` read is written for an untracked
  cgroup and no merge writes labels of an evicted one; these are exactly the sections that break it.
* `label_without_path`: one failed read leaves labels that no eviction removes.
-/

namespace Statix.Attribution

open Statix.Rollup (Resources)

/-- `CacheState`. -/
structure CacheState where
  cgroupPaths : Map Nat PathBuf
  memoryCurrentPaths : Map Nat PathBuf
  memoryStatPaths : Map Nat PathBuf
  cpuStatPaths : Map Nat PathBuf
  cgroupLabels : Map Nat WorkloadLabels
  podByUid : Map Text PodInfo

/-- `CacheState::default`. -/
def CacheState.empty : CacheState :=
  ⟨fun _ => none, fun _ => none, fun _ => none, fun _ => none, fun _ => none, fun _ => none⟩

namespace CacheState

variable (root : PathBuf)

/-- Whether the cgroup has a path. -/
def tracks (c : CacheState) (id : Nat) : Bool := (c.cgroupPaths id).isSome

/-- The insertions into the four maps of paths. -/
def insertPaths (c : CacheState) (id : Nat) (relPath : PathBuf) : CacheState :=
  { c with
    cgroupPaths := Function.update c.cgroupPaths id (some relPath)
    memoryCurrentPaths :=
      Function.update c.memoryCurrentPaths id (some (precomputeMemoryCurrent root relPath))
    memoryStatPaths := Function.update c.memoryStatPaths id (some (precomputeMemoryStat root relPath))
    cpuStatPaths := Function.update c.cpuStatPaths id (some (precomputeCpuStat root relPath)) }

/-- The insertion of `labels_from_cgroup_path` of what `cgroup_paths` has. -/
def insertLabels (c : CacheState) (id : Nat) : CacheState :=
  { c with
    cgroupLabels :=
      Function.update c.cgroupLabels id (some (labelsFromCgroupPath (c.cgroupPaths id))) }

/-- `register_cgroup_directory`. -/
def registerCgroupDirectory (c : CacheState) (id : Nat) (relPath : PathBuf) : CacheState :=
  (c.insertPaths root id relPath).insertLabels id

/-- The write section of `on_identity_event`; `relPath` is `none` when the read failed. -/
def identityWrite (c : CacheState) (id : Nat) (relPath : Option PathBuf) : CacheState :=
  if c.tracks id then c
  else
    match relPath with
    | none => c.insertLabels id
    | some relPath => (c.insertPaths root id relPath).insertLabels id

/-- The scan of `evict_stale_cgroups`, where `exist` says which paths exist. -/
def staleIds (c : CacheState) (exist : PathBuf → Bool) (id : Nat) : Bool :=
  match c.memoryCurrentPaths id with
  | none => false
  | some path => !exist path

/-- The write section of `evict_stale_cgroups`. -/
def evictWrite (c : CacheState) (stale : Nat → Bool) : CacheState :=
  { c with
    cgroupPaths := fun id => if stale id then none else c.cgroupPaths id
    memoryCurrentPaths := fun id => if stale id then none else c.memoryCurrentPaths id
    memoryStatPaths := fun id => if stale id then none else c.memoryStatPaths id
    cpuStatPaths := fun id => if stale id then none else c.cpuStatPaths id
    cgroupLabels := fun id => if stale id then none else c.cgroupLabels id }

/-- `upsert_pod`. -/
def upsertPod (c : CacheState) (uid : Text) (info : PodInfo) : CacheState :=
  { c with podByUid := Function.update c.podByUid uid (some info) }

/-- `remove_pod_by_uid`. -/
def removePodByUid (c : CacheState) (uid : Text) : CacheState :=
  { c with podByUid := Function.update c.podByUid uid none }

/-- `labels_for_cgroup`. -/
def labelsForCgroup (c : CacheState) (id : Nat) : WorkloadLabels := (c.cgroupLabels id).getD {}

end CacheState

/-- What a merge copies under the read lock. -/
structure Snapshot where
  paths : Map Nat PathBuf
  pods : Map Text PodInfo

namespace CacheState

/-- The read section of `merge_cgroup_labels_from_k8s`. -/
def snapshot (c : CacheState) : Snapshot := ⟨c.cgroupPaths, c.podByUid⟩

/-- The write section of `merge_cgroup_labels_from_k8s`. -/
def mergeWrite (c : CacheState) (snap : Snapshot) : CacheState :=
  { c with
    cgroupLabels := fun id =>
      match snap.paths id with
      | none => c.cgroupLabels id
      | some path => some (mergedLabels snap.pods path) }

end CacheState

/-! ## Interleaved operations -/

/-- An operation between two of its sections. -/
inductive InFlight where
  /-- `on_identity_event` with the result of its read. -/
  | identity (id : Nat) (relPath : Option PathBuf)
  | evict (stale : Nat → Bool)
  | merge (snap : Snapshot)

/-- The cache and the operations in flight. -/
structure Shared where
  cache : CacheState
  inFlight : List InFlight

/-- Nothing is cached and nothing runs. -/
def Shared.start : Shared := ⟨.empty, []⟩

/-- The write section of an operation. -/
def InFlight.write (root : PathBuf) (c : CacheState) : InFlight → CacheState
  | .identity id relPath => c.identityWrite root id relPath
  | .evict stale => c.evictWrite stale
  | .merge snap => c.mergeWrite snap

/-- One section of one operation; a write section only where `guard` allows it. -/
inductive CacheStep (root : PathBuf) (guard : CacheState → InFlight → Prop) : Shared → Shared → Prop
  | registerCgroupDirectory {s : Shared} (id : Nat) (relPath : PathBuf) :
      CacheStep root guard s { s with cache := s.cache.registerCgroupDirectory root id relPath }
  | upsertPod {s : Shared} (uid : Text) (info : PodInfo) :
      CacheStep root guard s { s with cache := s.cache.upsertPod uid info }
  | removePodByUid {s : Shared} (uid : Text) :
      CacheStep root guard s { s with cache := s.cache.removePodByUid uid }
  | identityCheck {s : Shared} (id : Nat) (relPath : Option PathBuf)
      (untracked : s.cache.tracks id = false) :
      CacheStep root guard s { s with inFlight := s.inFlight ++ [.identity id relPath] }
  | evictScan {s : Shared} (exist : PathBuf → Bool) :
      CacheStep root guard s
        { s with inFlight := s.inFlight ++ [.evict (s.cache.staleIds exist)] }
  | mergeSnapshot {s : Shared} :
      CacheStep root guard s { s with inFlight := s.inFlight ++ [.merge s.cache.snapshot] }
  | write {s : Shared} {op : InFlight} {before after : List InFlight}
      (h : s.inFlight = before ++ op :: after) (allowed : guard s.cache op) :
      CacheStep root guard s ⟨op.write root s.cache, before ++ after⟩

/-! ## The maps stay in step -/

/-- **The five maps have one key set.** -/
structure InStep (c : CacheState) : Prop where
  memoryCurrent : ∀ id, (c.memoryCurrentPaths id).isSome = c.tracks id
  memoryStat : ∀ id, (c.memoryStatPaths id).isSome = c.tracks id
  cpuStat : ∀ id, (c.cpuStatPaths id).isSome = c.tracks id
  labels : ∀ id, (c.cgroupLabels id).isSome = c.tracks id

/-- The write sections that keep the maps in step: a failed read is written for a tracked cgroup
only (where nothing is written), and a merge knows tracked cgroups only. -/
def KeepsStep (c : CacheState) : InFlight → Prop
  | .identity id relPath => relPath = none → c.tracks id = true
  | .evict _ => True
  | .merge snap => ∀ id, (snap.paths id).isSome = true → c.tracks id = true

variable {root : PathBuf} {c : CacheState} {s s' : Shared}

theorem isSome_update {V : Type} (m : Map Nat V) (id : Nat) (v : V) (j : Nat) :
    (Function.update m id (some v) j).isSome = (j == id || (m j).isSome) := by
  by_cases h : j = id
  · subst h
    simp
  · simp [h]

theorem InStep.empty : InStep .empty := ⟨fun _ => rfl, fun _ => rfl, fun _ => rfl, fun _ => rfl⟩

theorem InStep.register (h : InStep c) (id : Nat) (relPath : PathBuf) :
    InStep (c.registerCgroupDirectory root id relPath) := by
  have key : ∀ {V : Type} {m : Map Nat V} (v : V), (∀ j, (m j).isSome = c.tracks j) →
      ∀ j, (Function.update m id (some v) j).isSome =
        (Function.update c.cgroupPaths id (some relPath) j).isSome := by
    intro V m v hm j
    rw [isSome_update, isSome_update, hm]
    rfl
  exact ⟨key _ h.memoryCurrent, key _ h.memoryStat, key _ h.cpuStat, key _ h.labels⟩

theorem InStep.evict (h : InStep c) (stale : Nat → Bool) : InStep (c.evictWrite stale) := by
  have key : ∀ {V : Type} {m : Map Nat V}, (∀ j, (m j).isSome = c.tracks j) →
      ∀ j, (if stale j then none else m j).isSome =
        (if stale j then none else c.cgroupPaths j).isSome := by
    intro V m hm j
    by_cases hs : stale j = true
    · simp [hs]
    · simp only [hs]
      exact hm j
  exact ⟨key h.memoryCurrent, key h.memoryStat, key h.cpuStat, key h.labels⟩

/-- A failed read of an untracked cgroup leaves labels without a path. -/
theorem inStep_identity_iff (h : InStep c) (id : Nat) (relPath : Option PathBuf) :
    InStep (c.identityWrite root id relPath) ↔ (relPath = none → c.tracks id = true) := by
  unfold CacheState.identityWrite
  by_cases ht : c.tracks id = true
  · simp [ht, h]
  · rw [if_neg ht]
    cases relPath with
    | some relPath =>
      refine ⟨fun _ e => (nomatch e), fun _ => ?_⟩
      exact h.register id relPath
    | none =>
      refine ⟨fun h' _ => ?_, fun hk => absurd (hk rfl) ht⟩
      have hl := h'.labels id
      simp only [CacheState.insertLabels, Function.update_self, Option.isSome_some] at hl
      exact hl.symm

/-- A merge that knows an untracked cgroup leaves labels without a path. -/
theorem inStep_merge_iff (h : InStep c) (snap : Snapshot) :
    InStep (c.mergeWrite snap) ↔ ∀ id, (snap.paths id).isSome = true → c.tracks id = true := by
  have hw : ∀ id, ((c.mergeWrite snap).cgroupLabels id).isSome =
      ((snap.paths id).isSome || c.tracks id) := by
    intro id
    rw [← h.labels id]
    unfold CacheState.mergeWrite
    cases hp : snap.paths id <;> simp [hp]
  constructor
  · intro h' id hid
    have hl := h'.labels id
    rw [hw, hid, Bool.true_or] at hl
    exact hl.symm
  · intro hk
    refine ⟨h.memoryCurrent, h.memoryStat, h.cpuStat, fun id => ?_⟩
    rw [hw]
    show _ = c.tracks id
    cases hp : (snap.paths id).isSome with
    | false => rw [Bool.false_or]
    | true => rw [Bool.true_or, hk id hp]

/-- **A write section keeps the maps in step exactly if it is allowed.** -/
theorem inStep_write_iff (h : InStep c) (op : InFlight) :
    InStep (op.write root c) ↔ KeepsStep c op := by
  cases op with
  | identity id relPath => exact inStep_identity_iff h id relPath
  | evict stale => exact ⟨fun _ => trivial, fun _ => h.evict stale⟩
  | merge snap => exact inStep_merge_iff h snap

theorem inStep_step (h : InStep s.cache) (hstep : CacheStep root KeepsStep s s') :
    InStep s'.cache := by
  cases hstep with
  | registerCgroupDirectory id relPath => exact h.register id relPath
  | write _ allowed => exact (inStep_write_iff h _).mpr allowed
  | _ => exact ⟨h.memoryCurrent, h.memoryStat, h.cpuStat, h.labels⟩

theorem inStep_run (run : Relation.ReflTransGen (CacheStep root KeepsStep) .start s) :
    InStep s.cache := by
  induction run with
  | refl => exact .empty
  | tail _ hstep ih => exact inStep_step ih hstep

/-- Nothing is stored about the cgroup. -/
def Forgotten (c : CacheState) (id : Nat) : Prop :=
  c.cgroupPaths id = none ∧ c.memoryCurrentPaths id = none ∧ c.memoryStatPaths id = none ∧
    c.cpuStatPaths id = none ∧ c.cgroupLabels id = none

/-- With the maps in step an eviction forgets every cgroup whose directory is gone. -/
theorem InStep.forgotten (h : InStep c) (exist : PathBuf → Bool) (id : Nat)
    (gone : ∀ path, c.memoryCurrentPaths id = some path → exist path = false) :
    Forgotten (c.evictWrite (c.staleIds exist)) id := by
  by_cases hs : c.staleIds exist id = true
  · simp [Forgotten, CacheState.evictWrite, hs]
  · -- not stale, so without a `memory.current` path
    have hm : c.memoryCurrentPaths id = none := by
      cases hm : c.memoryCurrentPaths id with
      | none => rfl
      | some path =>
        rw [CacheState.staleIds, hm] at hs
        simp [gone path hm] at hs
    have ht : c.tracks id = false := by rw [← h.memoryCurrent id, hm]; rfl
    have key : ∀ {V : Type} {m : Map Nat V}, (∀ j, (m j).isSome = c.tracks j) → m id = none := by
      intro V m hmap
      rw [← Option.not_isSome_iff_eq_none, hmap id, ht]
      exact Bool.false_ne_true
    simp [Forgotten, CacheState.evictWrite, hs, key (m := c.cgroupPaths) fun _ => rfl, hm,
      key h.memoryStat, key h.cpuStat, key h.labels]

/-- **The maps of the cache stay in step** in every run in which no failed read is written for an
untracked cgroup and no merge writes the labels of a cgroup evicted since its snapshot. Then an
eviction forgets every cgroup that is gone. Any other write section breaks the step. -/
theorem maps_in_step (run : Relation.ReflTransGen (CacheStep root KeepsStep) .start s) :
    InStep s.cache ∧
      (∀ exist id, (∀ path, s.cache.memoryCurrentPaths id = some path → exist path = false) →
        Forgotten (s.cache.evictWrite (s.cache.staleIds exist)) id) ∧
      ∀ op : InFlight, InStep (op.write root s.cache) ↔ KeepsStep s.cache op := by
  have h := inStep_run run
  exact ⟨h, h.forgotten, inStep_write_iff h⟩

/-- The oldest operation in flight gets the lock. -/
theorem write_first {guard : CacheState → InFlight → Prop} {op : InFlight} {rest : List InFlight}
    (allowed : guard c op) : CacheStep root guard ⟨c, op :: rest⟩ ⟨op.write root c, rest⟩ := by
  have hop : (⟨c, op :: rest⟩ : Shared).inFlight = [] ++ op :: rest := rfl
  exact .write hop allowed

/-- A directory is registered and one of two reads of an exec elsewhere succeeds; a merge and an
eviction that finds the first directory gone are under way together. -/
theorem cache_run :
    ∃ s, Relation.ReflTransGen (CacheStep [.rootDir] KeepsStep) .start s ∧ s.inFlight = [] ∧
      Forgotten s.cache 7 ∧ s.cache.tracks 8 = true := by
  let root : PathBuf := [.rootDir]
  let exist : PathBuf → Bool := fun path => path = precomputeMemoryCurrent root []
  let c₁ : CacheState := CacheState.empty.registerCgroupDirectory root 7 [.parentDir]
  let c₂ : CacheState := c₁.identityWrite root 8 (some [])
  let c₃ : CacheState := c₂.upsertPod [] ⟨[], [], fun _ => none, fun _ => none⟩
  let c₄ : CacheState := c₃.mergeWrite c₃.snapshot
  let failed : InFlight := .identity 8 none
  let scan : InFlight := .evict (c₃.staleIds exist)
  have hreads : Relation.ReflTransGen (CacheStep root KeepsStep) .start
      ⟨c₁, [.identity 8 (some []), failed]⟩ :=
    .head (.registerCgroupDirectory 7 [.parentDir]) (.head (.identityCheck 8 (some []) rfl)
      (.single (.identityCheck 8 none rfl)))
  have hread : CacheStep root KeepsStep ⟨c₁, [.identity 8 (some []), failed]⟩ ⟨c₂, [failed]⟩ :=
    write_first fun e => nomatch e
  -- the failed read finds the cgroup tracked
  have hfailed : CacheStep root KeepsStep ⟨c₂, [failed]⟩ ⟨c₂, []⟩ :=
    write_first fun _ => rfl
  have hpod : CacheStep root KeepsStep ⟨c₂, []⟩ ⟨c₃, []⟩ := .upsertPod _ _
  have hsnapshot : CacheStep root KeepsStep ⟨c₃, []⟩ ⟨c₃, [.merge c₃.snapshot]⟩ := .mergeSnapshot
  have hscan : CacheStep root KeepsStep ⟨c₃, [.merge c₃.snapshot]⟩
      ⟨c₃, [.merge c₃.snapshot, scan]⟩ := .evictScan exist
  have hmerge : CacheStep root KeepsStep ⟨c₃, [.merge c₃.snapshot, scan]⟩ ⟨c₄, [scan]⟩ :=
    write_first fun _ h => h
  have hevict : CacheStep root KeepsStep ⟨c₄, [scan]⟩ ⟨c₄.evictWrite (c₃.staleIds exist), []⟩ :=
    write_first trivial
  exact ⟨_, ((((((hreads.tail hread).tail hfailed).tail hpod).tail hsnapshot).tail hscan).tail
    hmerge).tail hevict, rfl, ⟨rfl, rfl, rfl, rfl, rfl⟩, rfl⟩

/-- When the other directory is gone too, the next eviction forgets it. -/
theorem maps_in_step_evicted :
    ∃ s, Relation.ReflTransGen (CacheStep [.rootDir] KeepsStep) .start s ∧ InStep s.cache ∧
      s.cache.tracks 8 = true ∧
      Forgotten (s.cache.evictWrite (s.cache.staleIds fun _ => false)) 8 := by
  obtain ⟨s, run, -, -, htracked⟩ := cache_run
  obtain ⟨hstep, hforgotten, -⟩ := maps_in_step run
  exact ⟨s, run, hstep, htracked, hforgotten (fun _ => false) 8 fun _ _ => rfl⟩

/-- **Labels without a path.** The read of an identity event fails, its cgroup gets labels and no
path, and an eviction does not find it even if no directory is left. -/
theorem label_without_path :
    ∃ s, Relation.ReflTransGen (CacheStep [.rootDir] fun _ _ => True) .start s ∧
      ¬ InStep s.cache ∧
      ((s.cache.evictWrite (s.cache.staleIds fun _ => false)).cgroupLabels 7).isSome = true := by
  have hcheck : CacheStep [.rootDir] (fun _ _ => True) .start ⟨.empty, [.identity 7 none]⟩ :=
    .identityCheck 7 none rfl
  have run := (Relation.ReflTransGen.single hcheck).tail (write_first trivial)
  refine ⟨_, run, fun h => ?_, rfl⟩
  exact Bool.false_ne_true (h.labels 7).symm

end Statix.Attribution
