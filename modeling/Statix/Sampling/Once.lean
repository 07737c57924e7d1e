import Statix.Attribution.Host
import Statix.Lib.NestedCounters
import Statix.Sampling.StatFiles
import Statix.Sampling.Total

/-!
# No CPU time is counted twice

The kernel charges the CPU time of a task to its cgroup and to every cgroup around it, so a sampler
of all cgroups would count it once at each level. `Sampler` (`statix/src/memory_sampler.rs`) reads
only the leaves, and they change from one tick to the next: cgroups are made below a leaf, and
removed again, at any time, also between two reads of a tick.

* `Sampled` is the node of `Attribution.Host` with the CPU time of every cgroup, and the main loop
  with its sampler. `prime` and `tick` run as a task of their own: the targets are taken from the
  cache, and for each one the leaf check and the read of `cpu.stat` are two steps.
* Between any two steps the host and the agent go on. `charged` is what was charged since the start.
* The directories are a tree. As in `sampled_once` an identity event reads the path of its own
  directory; and no directory is made at a path the agent holds, or with an id the sampler knows:
  the kernel does not give an id out twice.
* What is read of the memory files is left open here.

Results:

* `SamplingInv`: what every run keeps.
* **`cpu_counted_once`**: all rows of all batches together have no more CPU time than was charged.
-/

namespace Statix.Sampling

open Relation
open Statix.Attribution
open Statix.Lib
open Statix.Rollup (Loop Other Op Reading Readings TickLabels Baseline Aggregator prime rebaseTick
  presence deltaOf deltaSum)

/-! ## The model -/

/-- The blocking task of `prime` and `tick`. -/
structure Task where
  targets : List (Nat × SampleTarget)
  todo : List (Nat × SampleTarget)
  /-- The target that has passed `is_leaf_cgroup`, until it is read. -/
  checked : Option (Nat × SampleTarget)
  results : List Reading

/-- The target is read. -/
def Task.add (task : Task) (r : Reading) : Task :=
  { task with checked := none, results := task.results ++ [r] }

/-- The node, the CPU time of the cgroups, and the main loop. -/
structure Sampled where
  node : Node
  usage : Nat → Nat
  charged : Nat
  loop : Loop
  primed : Bool
  task : Option Task

/-- When the agent starts. -/
def Sampled.start (env : Rollup.Env) (maxKeys : Nat) (host : Host) (usage : Nat → Nat) :
    Sampled where
  node := .start host
  usage := usage
  charged := 0
  loop := ⟨fun _ => none, { Aggregator.new env with maxKeys }, []⟩
  primed := false
  task := none

/-- Every directory above a directory exists. -/
def IsTree (h : Host) : Prop :=
  ∀ p q id, p ≠ [] → p <+: q → h.dirs q = some id → h.dirs p ≠ none

/-- The cgroup `j` is `i` or lies in it. -/
def Nested (h : Host) (i j : Nat) : Prop :=
  ∃ p q, h.dirs p = some i ∧ h.dirs q = some j ∧ p <+: q

/-- The kernel charges `n` to the cgroup at `p` and to those around it. -/
structure Charges (h : Host) (p : PathBuf) (n : Nat) (usage usage' : Nat → Nat) : Prop where
  inside : ∀ q id, h.dirs q = some id → q <+: p → usage' id = usage id + n
  outside : ∀ id, (∀ q, h.dirs q = some id → ¬q <+: p) → usage' id = usage id

/-- The target at a path. -/
def targetOf (root p : PathBuf) : SampleTarget where
  memPath := precomputeMemoryCurrent root p
  cpuPath := precomputeCpuStat root p
  statPath := precomputeMemoryStat root p

/-- `is_leaf_cgroup`: the link count is 2 for a directory without directories in it. -/
def IsLeafCgroup (root : PathBuf) (h : Host) (dir : PathBuf) : Prop :=
  ∃ p id, h.dirs p = some id ∧ dir = parent (precomputeMemoryCurrent root p) ∧
    ∀ name, h.dirs (p ++ [name]) = none

namespace Sampled

/-- What a read of `cpu.stat` finds: the counter of the kernel has 64 bits. -/
def CpuFile (root : PathBuf) (x : Sampled) (path : PathBuf) (file : Option (List UInt8)) : Prop :=
  file = none ∨ ∃ p id rest, x.node.host.dirs p = some id ∧ path = precomputeCpuStat root p ∧
    x.usage id < 2 ^ 64 ∧ (∀ e ∈ rest, IsKey e.1) ∧ file = some (cpuStatFile (x.usage id) rest)

/-- The sampler has a baseline of the cgroup, or is about to read it. -/
def Knows (x : Sampled) (id : Nat) : Prop :=
  x.loop.baseline id ≠ none ∨ ∃ task, x.task = some task ∧ id ∈ task.targets.map Prod.fst

/-- A directory may be made with this id at this path. -/
def Fresh (root : PathBuf) (x : Sampled) (p : PathBuf) (id : Nat) : Prop :=
  ¬x.Knows id ∧ ∀ task, x.task = some task → ∀ e ∈ task.targets, e.2 ≠ targetOf root p

/-- What `prime` and `tick` do with what the task read. -/
def finish (env : Rollup.Env) (labels : TickLabels) (readings : Option Readings) (x : Sampled) :
    Sampled :=
  { x with
    task := none
    primed := true
    loop :=
      if x.primed then x.loop.step env (.tick labels readings)
      else
        match readings with
        | some rs => { x.loop with baseline := prime rs }
        | none => x.loop }

end Sampled

/-- One step. -/
inductive SampledStep (root : PathBuf) (env : Rollup.Env) : Sampled → Sampled → Prop
  | node {x : Sampled} {y : Node} (h : AllowedStep root Clean x.node y) (tree : IsTree y.host)
      (fresh : ∀ p id, y.host.dirs p = some id → x.node.host.dirs p = some id ∨ x.Fresh root p id) :
      SampledStep root env x { x with node := y }
  | charge {x : Sampled} {p : PathBuf} {n : Nat} {usage : Nat → Nat}
      (h : Charges x.node.host p n x.usage usage) :
      SampledStep root env x { x with usage := usage, charged := x.charged + n }
  | other {x : Sampled} (o : Other) : SampledStep root env x { x with loop := x.loop.other env o }
  | spawn {x : Sampled} (targets : List (Nat × SampleTarget)) (idle : x.task = none)
      (distinct : (targets.map Prod.fst).Nodup)
      (all : ∀ id t, (id, t) ∈ targets ↔ x.node.cache.sampleTarget id = some t) :
      SampledStep root env x { x with task := some ⟨targets, targets, none, []⟩ }
  /-- Not a leaf, or not there. -/
  | skip {x : Sampled} {task : Task} {e : Nat × SampleTarget} {rest : List (Nat × SampleTarget)}
      (h : x.task = some task) (free : task.checked = none) (next : task.todo = e :: rest) :
      SampledStep root env x { x with task := some { task with todo := rest } }
  | check {x : Sampled} {task : Task} {e : Nat × SampleTarget} {rest : List (Nat × SampleTarget)}
      (h : x.task = some task) (free : task.checked = none) (next : task.todo = e :: rest)
      (leaf : IsLeafCgroup root x.node.host (parent e.2.memPath)) :
      SampledStep root env x { x with task := some { task with todo := rest, checked := some e } }
  | read {x : Sampled} {task : Task} {e : Nat × SampleTarget} (h : x.task = some task)
      (passed : task.checked = some e) (memoryBytes : Option Nat) {file : Option (List UInt8)}
      (hfile : x.CpuFile root e.2.cpuPath file) :
      SampledStep root env x { x with task := some (task.add
        ⟨e.1, memoryBytes, (readCpuUsageUsecAt e.2.cpuPath file).toOption⟩) }
  | finish {x : Sampled} {task : Task} (h : x.task = some task) (free : task.checked = none)
      (done : task.todo = []) (labels : TickLabels) {readings : Readings}
      (read : readings.list = task.results) :
      SampledStep root env x (x.finish env labels (some readings))
  /-- The task panicked. -/
  | fail {x : Sampled} {task : Task} (h : x.task = some task) (labels : TickLabels) :
      SampledStep root env x (x.finish env labels none)

/-! ## What every run keeps -/

/-- The ids of the targets that are still to be read. -/
def Task.pending (task : Task) : List Nat := (task.checked.toList ++ task.todo).map Prod.fst

/-- The ids that have passed the leaf check. -/
def Task.passed (task : Task) : List Nat :=
  task.results.map Reading.cgroupId ++ task.checked.toList.map Prod.fst

/-- What the next delta of a cgroup counts from, if the task comes to its end. -/
def Task.last (baseline : Baseline) (task : Task) (id : Nat) : Option Nat :=
  match presence id task.results with
  | some usage => usage.or (baseline id)
  | none => if id ∈ task.pending then baseline id else none

/-- **What every run keeps of a task.** -/
structure TaskInv (root : PathBuf) (x : Sampled) (task : Task) : Prop where
  distinct : (task.targets.map Prod.fst).Nodup
  parts : (task.results.map Reading.cgroupId ++ task.pending).Sublist (task.targets.map Prod.fst)
  members : ∀ e ∈ task.checked.toList ++ task.todo, e ∈ task.targets
  ofPath : ∀ e ∈ task.targets, ∃ p, CgroupPath p ∧ e.2 = targetOf root p ∧
    ∀ id, x.node.host.dirs p = some id → id = e.1
  leaves : ∀ i ∈ task.passed, ∀ j ∈ task.targets.map Prod.fst, Nested x.node.host i j → i = j
  counted : Covered (Nested x.node.host) x.usage (task.last x.loop.baseline)
    (x.loop.cpuTotal + deltaSum x.loop.baseline task.results) x.charged

/-- **What every run keeps.** -/
structure SamplingInv (root : PathBuf) (x : Sampled) : Prop where
  pairs : Pairs x.node
  files : FilesFollow root x.node.cache
  tree : IsTree x.node.host
  unprimed : x.primed = false → x.loop.baseline = fun _ => none
  apart : ∀ i j, x.loop.baseline i ≠ none → x.loop.baseline j ≠ none →
    Nested x.node.host i j → i = j
  kept : Covered (Nested x.node.host) x.usage x.loop.baseline x.loop.cpuTotal x.charged
  task : ∀ task, x.task = some task → TaskInv root x task

variable {root : PathBuf} {env : Rollup.Env} {x x' : Sampled} {task : Task}

/-! ## Directories -/

/-- A leaf has no other cgroup in it. -/
theorem leaf_nested {h : Host} {p : PathBuf} {i j : Nat} (tree : IsTree h) (hp : h.dirs p = some i)
    (leaf : ∀ name, h.dirs (p ++ [name]) = none) (hn : Nested h i j) : i = j := by
  obtain ⟨p', q, hp', hq, rest, rfl⟩ := hn
  obtain rfl : p' = p := h.distinct p' p i hp' hp
  cases rest with
  | nil =>
    rw [List.append_nil] at hq
    exact Option.some.inj (hp.symm.trans hq)
  | cons name rest =>
    have hpre : p' ++ [name] <+: p' ++ name :: rest := ⟨rest, by rw [List.append_assoc]; rfl⟩
    exact absurd (leaf name) (tree _ _ j (by simp) hpre hq)

theorem covered_charge {p : PathBuf} {n : Nat} {usage : Nat → Nat} {last : Nat → Option Nat}
    {summed : Nat} (hc : Charges x.node.host p n x.usage usage)
    (h : Covered (Nested x.node.host) x.usage last summed x.charged) :
    Covered (Nested x.node.host) usage last summed (x.charged + n) := by
  let around : Nat → Prop := fun i => ∃ q, x.node.host.dirs q = some i ∧ q <+: p
  have chain : ∀ i j, around i → around j → Nested x.node.host i j ∨ Nested x.node.host j i := by
    rintro i j ⟨q, hq, hqp⟩ ⟨r, hr, hrp⟩
    rcases List.prefix_or_prefix_of_prefix hqp hrp with hqr | hrq
    · exact Or.inl ⟨q, r, hq, hr, hqr⟩
    · exact Or.inr ⟨r, q, hr, hq, hrq⟩
  refine h.charge chain (fun i hi => ?_) fun i _ hnone => ?_
  · obtain ⟨q, hq, hqp⟩ := hi
    exact hc.inside q i hq hqp
  · exact hc.outside i fun q hq hqp => hnone ⟨q, hq, hqp⟩

/-! ## The host goes on -/

section Node

variable {y : Node}
  (fresh : ∀ p id, y.host.dirs p = some id → x.node.host.dirs p = some id ∨ x.Fresh root p id)

include fresh

/-- A cgroup the sampler knows was not made just now. -/
theorem dirs_known {p : PathBuf} {i : Nat} (hi : x.Knows i) (hp : y.host.dirs p = some i) :
    x.node.host.dirs p = some i :=
  (fresh p i hp).resolve_right fun h => h.1 hi

theorem nested_known {i j : Nat} (hi : x.Knows i) (hj : x.Knows j) (hn : Nested y.host i j) :
    Nested x.node.host i j := by
  obtain ⟨p, q, hp, hq, hpq⟩ := hn
  exact ⟨p, q, dirs_known fresh hi hp, dirs_known fresh hj hq, hpq⟩

theorem nested_still {i j : Nat} (hi : x.Knows i) (hj : x.Knows j) (hi' : Nested y.host i i)
    (hj' : Nested y.host j j) (hn : Nested x.node.host i j) : Nested y.host i j := by
  obtain ⟨p, q, hp, hq, hpq⟩ := hn
  obtain ⟨p', -, hp', -, -⟩ := hi'
  obtain ⟨q', -, hq', -, -⟩ := hj'
  obtain rfl := x.node.host.distinct p p' i hp (dirs_known fresh hi hp')
  obtain rfl := x.node.host.distinct q q' j hq (dirs_known fresh hj hq')
  exact ⟨p, q, hp', hq', hpq⟩

theorem covered_node {last : Nat → Option Nat} {summed : Nat}
    (known : ∀ i, last i ≠ none → x.Knows i)
    (h : Covered (Nested x.node.host) x.usage last summed x.charged) :
    Covered (Nested y.host) x.usage last summed x.charged :=
  h.shrink (fun i hi hn => nested_known fresh (known i hi) (known i hi) hn)
    fun i j hi hj hi' hj' hn => nested_still fresh (known i hi) (known j hj) hi' hj' hn

end Node

theorem mem_targets_of_last (h : TaskInv root x task) {b : Baseline} {i : Nat}
    (hi : task.last b i ≠ none) : i ∈ task.targets.map Prod.fst := by
  unfold Task.last at hi
  cases hp : presence i task.results with
  | some usage => exact h.parts.subset (List.mem_append_left _ (Rollup.mem_of_presence hp))
  | none =>
    rw [hp] at hi
    simp only [ne_eq, ite_eq_right_iff, Classical.not_imp] at hi
    exact h.parts.subset (List.mem_append_right _ hi.1)

theorem passed_subset (h : TaskInv root x task) {i : Nat} (hi : i ∈ task.passed) :
    i ∈ task.targets.map Prod.fst := by
  refine h.parts.subset ?_
  unfold Task.passed at hi
  unfold Task.pending
  rw [List.map_append]
  rcases List.mem_append.mp hi with hi | hi
  · exact List.mem_append_left _ hi
  · exact List.mem_append_right _ (List.mem_append_left _ hi)

theorem inv_node {y : Node} (h : SamplingInv root x) (hstep : AllowedStep root Clean x.node y)
    (tree : IsTree y.host)
    (fresh : ∀ p id, y.host.dirs p = some id → x.node.host.dirs p = some id ∨ x.Fresh root p id) :
    SamplingInv root { x with node := y } where
  pairs := pairs_step h.pairs hstep
  files := by
    obtain ⟨e, hstep, -⟩ := hstep
    exact filesFollow_step h.files hstep
  tree := tree
  unprimed := h.unprimed
  apart := fun i j hi hj hn => h.apart i j hi hj (nested_known fresh (Or.inl hi) (Or.inl hj) hn)
  kept := covered_node fresh (fun i hi => Or.inl hi) h.kept
  task := by
    intro task ht
    have hinv := h.task task ht
    have known : ∀ i ∈ task.targets.map Prod.fst, x.Knows i := fun i hi => Or.inr ⟨task, ht, hi⟩
    refine ⟨hinv.distinct, hinv.parts, hinv.members, fun e he => ?_, fun i hi j hj hn => ?_,
      covered_node fresh (fun i hi => known i (mem_targets_of_last hinv hi)) hinv.counted⟩
    · obtain ⟨p, hpath, htarget, hid⟩ := hinv.ofPath e he
      refine ⟨p, hpath, htarget, fun id hdir => hid id ?_⟩
      exact (fresh p id hdir).resolve_right fun hf => hf.2 task ht e he htarget
    · have hknown := known i (passed_subset hinv hi)
      exact hinv.leaves i hi j hj (nested_known fresh hknown (known j hj) hn)

theorem inv_charge {p : PathBuf} {n : Nat} {usage : Nat → Nat} (h : SamplingInv root x)
    (hc : Charges x.node.host p n x.usage usage) :
    SamplingInv root { x with usage := usage, charged := x.charged + n } where
  pairs := h.pairs
  files := h.files
  tree := h.tree
  unprimed := h.unprimed
  apart := h.apart
  kept := covered_charge hc h.kept
  task := by
    intro task ht
    have hinv := h.task task ht
    exact ⟨hinv.distinct, hinv.parts, hinv.members, hinv.ofPath, hinv.leaves,
      covered_charge hc hinv.counted⟩

/-! ## The agent goes on -/

theorem inv_other (h : SamplingInv root x) (o : Other) :
    SamplingInv root { x with loop := x.loop.other env o } := by
  have hbase : (x.loop.other env o).baseline = x.loop.baseline := rfl
  have hle := Rollup.loop_other env x.loop o
  refine ⟨h.pairs, h.files, h.tree, h.unprimed, h.apart, h.kept.weaken hle fun _ _ => rfl, ?_⟩
  intro task ht
  have hinv := h.task task ht
  refine ⟨hinv.distinct, hinv.parts, hinv.members, hinv.ofPath, hinv.leaves,
    hinv.counted.weaken ?_ fun _ _ => rfl⟩
  simp only [hbase]
  omega

/-- A target has the files of the path the cache holds. -/
theorem sampleTarget_eq {c : CacheState} (h : FilesFollow root c) {id : Nat} {t : SampleTarget}
    (ht : c.sampleTarget id = some t) : ∃ p, c.cgroupPaths id = some p ∧ t = targetOf root p := by
  have hm := h.memoryCurrent id
  have hs := h.memoryStat id
  have hc := h.cpuStat id
  unfold CacheState.sampleTarget at ht
  rw [hm, hs, hc] at ht
  cases hp : c.cgroupPaths id with
  | none =>
    rw [hp] at ht
    cases ht
  | some p =>
    rw [hp] at ht
    exact ⟨p, rfl, (Option.some.inj ht).symm⟩

theorem inv_spawn (h : SamplingInv root x) {targets : List (Nat × SampleTarget)}
    (distinct : (targets.map Prod.fst).Nodup)
    (all : ∀ id t, (id, t) ∈ targets ↔ x.node.cache.sampleTarget id = some t) :
    SamplingInv root { x with task := some ⟨targets, targets, none, []⟩ } := by
  refine ⟨h.pairs, h.files, h.tree, h.unprimed, h.apart, h.kept, ?_⟩
  rintro task ht
  obtain rfl := Option.some.inj ht
  refine ⟨distinct, List.Sublist.refl _, fun e he => he, fun e he => ?_,
    fun i hi => absurd hi List.not_mem_nil, h.kept.weaken (Nat.le_refl _) fun i hi => ?_⟩
  · obtain ⟨p, hp, htarget⟩ := sampleTarget_eq h.files ((all e.1 e.2).mp he)
    exact ⟨p, h.pairs.path (Or.inl hp), htarget, fun id hid => (h.pairs.live (Or.inl hp) hid).symm⟩
  · unfold Task.last at hi ⊢
    split at hi
    · next hp => cases hp
    · exact if_pos ((ite_ne_right_iff.mp hi).1)

theorem inv_skip (h : SamplingInv root x) {e : Nat × SampleTarget}
    {rest : List (Nat × SampleTarget)} (ht : x.task = some task) (free : task.checked = none)
    (next : task.todo = e :: rest) :
    SamplingInv root { x with task := some { task with todo := rest } } := by
  have hinv := h.task task ht
  have hpending : task.pending = e.1 :: rest.map Prod.fst := by
    unfold Task.pending
    rw [free, next]
    rfl
  have hrest : ({ task with todo := rest } : Task).pending = rest.map Prod.fst := by
    unfold Task.pending
    rw [free]
    rfl
  refine ⟨h.pairs, h.files, h.tree, h.unprimed, h.apart, h.kept, fun task' ht' => ?_⟩
  obtain rfl := Option.some.inj ht'
  have hparts := hinv.parts
  have hmembers := hinv.members
  rw [hpending] at hparts
  rw [next] at hmembers
  refine ⟨hinv.distinct, ?_, fun f hf => hmembers f ?_, hinv.ofPath, hinv.leaves,
    hinv.counted.weaken (Nat.le_refl _) fun i hi => ?_⟩
  · rw [hrest]
    exact ((List.sublist_cons_self _ _).append_left _).trans hparts
  · rcases List.mem_append.mp hf with hf | hf
    · exact List.mem_append_left _ hf
    · exact List.mem_append_right _ (List.mem_cons_of_mem _ hf)
  · unfold Task.last at hi ⊢
    rw [hrest] at hi ⊢
    rw [hpending]
    cases hp : presence i task.results with
    | some usage => rfl
    | none =>
      simp only [hp] at hi ⊢
      have hmem := (ite_ne_right_iff.mp hi).1
      rw [if_pos hmem, if_pos (List.mem_cons_of_mem _ hmem)]

/-- The directories of two cgroups differ. -/
theorem parent_injective {name : String} {p q : PathBuf} (hp : CgroupPath p) (hq : CgroupPath q)
    (h : parent (precompute name root p) = parent (precompute name root q)) : p = q := by
  obtain ⟨names, rfl⟩ := hp
  obtain ⟨names', rfl⟩ := hq
  rw [parent_precompute, parent_precompute] at h
  rw [List.append_cancel_left h]

/-- A target that is a leaf has no other cgroup in it. -/
theorem leaf_target (h : SamplingInv root x) (hinv : TaskInv root x task) {e : Nat × SampleTarget}
    (he : e ∈ task.targets) (leaf : IsLeafCgroup root x.node.host (parent e.2.memPath)) {j : Nat}
    (hn : Nested x.node.host e.1 j) : e.1 = j := by
  obtain ⟨p, id, hp, hdir, hleaf⟩ := leaf
  obtain ⟨q, hpath, htarget, hid⟩ := hinv.ofPath e he
  rw [htarget] at hdir
  obtain rfl := parent_injective hpath (x.node.host.paths p id hp) hdir
  rw [hid id hp] at hp
  exact leaf_nested h.tree hp hleaf hn

theorem inv_check (h : SamplingInv root x) {e : Nat × SampleTarget}
    {rest : List (Nat × SampleTarget)} (ht : x.task = some task) (free : task.checked = none)
    (next : task.todo = e :: rest)
    (leaf : IsLeafCgroup root x.node.host (parent e.2.memPath)) :
    SamplingInv root { x with task := some { task with todo := rest, checked := some e } } := by
  have hinv := h.task task ht
  have hpending : ({ task with todo := rest, checked := some e } : Task).pending =
      task.pending := by
    unfold Task.pending
    rw [free, next]
    rfl
  refine ⟨h.pairs, h.files, h.tree, h.unprimed, h.apart, h.kept, fun task' ht' => ?_⟩
  obtain rfl := Option.some.inj ht'
  have he : e ∈ task.targets := hinv.members e (by
    rw [next]
    exact List.mem_append_right _ List.mem_cons_self)
  refine ⟨hinv.distinct, hpending ▸ hinv.parts, fun f hf => hinv.members f ?_, hinv.ofPath,
    fun i hi j hj hn => ?_, hinv.counted.weaken (Nat.le_refl _) fun i hi => ?_⟩
  · rw [free, next]
    exact hf
  · rcases List.mem_append.mp hi with hi | hi
    · exact hinv.leaves i (List.mem_append_left _ hi) j hj hn
    · obtain rfl : i = e.1 := List.mem_singleton.mp hi
      exact leaf_target h hinv he leaf hn
  · unfold Task.last
    rw [hpending]

/-- What is read of `cpu.stat` is the CPU time of the target, which is there. -/
theorem read_usage (hinv : TaskInv root x task) {e : Nat × SampleTarget} (he : e ∈ task.targets)
    {file : Option (List UInt8)} (hfile : x.CpuFile root e.2.cpuPath file) :
    (readCpuUsageUsecAt e.2.cpuPath file).toOption = none ∨
      (readCpuUsageUsecAt e.2.cpuPath file).toOption = some (x.usage e.1) ∧
        Nested x.node.host e.1 e.1 := by
  rcases hfile with rfl | ⟨p, id, rest, hp, hpath, hlt, keys, rfl⟩
  · exact Or.inl rfl
  · obtain ⟨q, hq, htarget, hid⟩ := hinv.ofPath e he
    rw [htarget] at hpath
    obtain rfl := parent_injective hq (x.node.host.paths p id hp) (congrArg parent hpath)
    obtain rfl := hid id hp
    refine Or.inr ⟨?_, ⟨q, q, hp, hp, List.prefix_refl q⟩⟩
    rw [readCpuUsageUsecAt_flatKeyed _ hlt keys]
    rfl

theorem presence_snoc (c : Nat) (rs : List Reading) (r : Reading) : presence c (rs ++ [r]) =
    (presence c rs).or (if r.cgroupId = c then some r.usageUsec else none) := by
  unfold presence
  rw [List.find?_append]
  cases rs.find? fun r => r.cgroupId = c with
  | some r' => rfl
  | none =>
    by_cases h : r.cgroupId = c <;> simp [h]

theorem deltaSum_snoc (b : Baseline) (rs : List Reading) (r : Reading) :
    deltaSum b (rs ++ [r]) = deltaSum b rs + (deltaOf b r).getD 0 := by
  unfold deltaSum
  rw [List.map_append, List.sum_append]
  rfl

theorem pending_checked {e : Nat × SampleTarget} (passed : task.checked = some e) :
    task.pending = e.1 :: task.todo.map Prod.fst := by
  unfold Task.pending
  rw [passed]
  rfl

theorem presence_checked (hinv : TaskInv root x task) {e : Nat × SampleTarget}
    (passed : task.checked = some e) : presence e.1 task.results = none := by
  have hparts := hinv.parts
  rw [pending_checked passed] at hparts
  refine Rollup.presence_eq_none fun hmem => ?_
  have hnodup := (List.nodup_append.mp (hparts.nodup hinv.distinct)).2.2
  exact hnodup e.1 hmem e.1 List.mem_cons_self rfl

/-- Until it is read, a target counts from the baseline. -/
theorem last_checked (hinv : TaskInv root x task) {e : Nat × SampleTarget}
    (passed : task.checked = some e) (b : Baseline) : task.last b e.1 = b e.1 := by
  unfold Task.last
  rw [presence_checked hinv passed, pending_checked passed]
  exact if_pos List.mem_cons_self

/-- A reading changes what its own cgroup counts from. -/
theorem last_add (hinv : TaskInv root x task) {e : Nat × SampleTarget}
    (passed : task.checked = some e) (b : Baseline) {r : Reading} (hr : r.cgroupId = e.1) :
    (task.add r).last b = Function.update (task.last b) e.1 (r.usageUsec.or (b e.1)) := by
  funext i
  unfold Task.last Task.add
  by_cases hi : i = e.1
  · rw [hi, Function.update_self]
    simp only [presence_snoc, presence_checked hinv passed, hr, if_true, Option.none_or]
  · have hpending : i ∈ (task.add r).pending ↔ i ∈ task.pending := by
      rw [pending_checked passed, List.mem_cons]
      exact (or_iff_right hi).symm
    have hpres : presence i (task.results ++ [r]) = presence i task.results := by
      rw [presence_snoc, hr, if_neg (Ne.symm hi), Option.or_none]
    unfold Task.add at hpending
    rw [Function.update_of_ne hi]
    simp only [hpres, hpending]

/-- Whatever else counts lies apart from a target that has passed the check: the targets of the task
were there when it was made, and two cgroups with a baseline are apart. -/
theorem apart_checked (h : SamplingInv root x) (hinv : TaskInv root x task)
    {e : Nat × SampleTarget} (he : e ∈ task.targets) (passed : task.checked = some e)
    (hbase : x.loop.baseline e.1 ≠ none) {i : Nat} (hi : task.last x.loop.baseline i ≠ none)
    (hn : Nested x.node.host i e.1 ∨ Nested x.node.host e.1 i) : i = e.1 := by
  have hpassed : e.1 ∈ task.passed := by
    unfold Task.passed
    rw [passed]
    exact List.mem_append_right _ List.mem_cons_self
  rcases hn with hn | hn
  · by_cases hmem : i ∈ task.passed
    · exact hinv.leaves i hmem e.1 (List.mem_map_of_mem he) hn
    · refine h.apart i e.1 ?_ hbase hn
      unfold Task.last at hi
      rw [Rollup.presence_eq_none fun hr => hmem (List.mem_append_left _ hr)] at hi
      exact (ite_ne_right_iff.mp hi).2
  · exact (hinv.leaves e.1 hpassed i (mem_targets_of_last hinv hi) hn).symm

/-- **One read**: what it adds was not counted before. -/
theorem counted_add (h : SamplingInv root x) (hinv : TaskInv root x task)
    {e : Nat × SampleTarget} (he : e ∈ task.targets) (passed : task.checked = some e) {r : Reading}
    (hr : r.cgroupId = e.1)
    (hread : r.usageUsec = none ∨
      r.usageUsec = some (x.usage e.1) ∧ Nested x.node.host e.1 e.1) :
    Covered (Nested x.node.host) x.usage ((task.add r).last x.loop.baseline)
      (x.loop.cpuTotal + deltaSum x.loop.baseline (task.add r).results) x.charged := by
  have hlast := last_checked hinv passed x.loop.baseline
  have hsum : deltaSum x.loop.baseline (task.add r).results =
      deltaSum x.loop.baseline task.results + (deltaOf x.loop.baseline r).getD 0 :=
    deltaSum_snoc _ _ _
  rw [hsum, last_add hinv passed _ hr, ← Nat.add_assoc]
  rcases hread with hnone | ⟨hsome, hlive⟩
  · -- a failed read leaves the baseline
    have hdelta : (deltaOf x.loop.baseline r).getD 0 = 0 := by
      simp only [deltaOf, hnone, Option.getD_none]
    rw [hdelta, hnone, Option.none_or, ← hlast, Function.update_eq_self]
    exact hinv.counted
  · rw [hsome, Option.some_or]
    cases hbase : x.loop.baseline e.1 with
    | none =>
      have hdelta : (deltaOf x.loop.baseline r).getD 0 = 0 := by
        simp only [deltaOf, hsome, hr, hbase, Option.getD_none]
      rw [hdelta]
      exact hinv.counted.begin e.1
    | some old =>
      have hdelta : (deltaOf x.loop.baseline r).getD 0 =
          accrued x.usage (task.last x.loop.baseline) e.1 := by
        unfold accrued
        simp only [deltaOf, hsome, hr, hlast, hbase, Option.getD_some]
      have hcounts : x.loop.baseline e.1 ≠ none := by
        rw [hbase]
        exact Option.some_ne_none old
      rw [hdelta]
      exact hinv.counted.count hlive (hlast ▸ hcounts) fun i hi _ hn =>
        apart_checked h hinv he passed hcounts hi hn

theorem inv_read (h : SamplingInv root x) {e : Nat × SampleTarget} (ht : x.task = some task)
    (passed : task.checked = some e) (memoryBytes : Option Nat) {file : Option (List UInt8)}
    (hfile : x.CpuFile root e.2.cpuPath file) :
    SamplingInv root { x with task := some (task.add
      ⟨e.1, memoryBytes, (readCpuUsageUsecAt e.2.cpuPath file).toOption⟩) } := by
  have hinv := h.task task ht
  have he : e ∈ task.targets := hinv.members e (by
    rw [passed]
    exact List.mem_cons_self)
  have hparts := hinv.parts
  have hmembers := hinv.members
  have hleaves := hinv.leaves
  unfold Task.passed at hleaves
  rw [pending_checked passed] at hparts
  rw [passed] at hmembers hleaves
  refine ⟨h.pairs, h.files, h.tree, h.unprimed, h.apart, h.kept, fun t ht' => ?_⟩
  obtain rfl := Option.some.inj ht'
  refine ⟨hinv.distinct, ?_, fun f hf => hmembers f (List.mem_cons_of_mem _ hf), hinv.ofPath,
    fun i hi => hleaves i ?_, counted_add h hinv he passed rfl (read_usage hinv he hfile)⟩
  · unfold Task.add Task.pending
    rw [List.map_append, List.append_assoc]
    exact hparts
  · unfold Task.add Task.passed at hi
    rwa [List.map_append, Option.toList_none, List.map_nil, List.append_nil] at hi

/-- The baseline a task leaves is what the cgroups count from. -/
theorem baseline_finish (h : SamplingInv root x) (free : task.checked = none)
    (done : task.todo = []) (labels : TickLabels) {readings : Readings}
    (read : readings.list = task.results) :
    (x.finish env labels (some readings)).loop.baseline = task.last x.loop.baseline := by
  have hlast : ∀ i, task.last x.loop.baseline i =
      (presence i readings.list).bind fun p => p.or (x.loop.baseline i) := by
    intro i
    have hpending : task.pending = [] := by
      unfold Task.pending
      rw [free, done]
      rfl
    unfold Task.last
    rw [hpending, read]
    cases presence i task.results with
    | some usage => rfl
    | none => exact if_neg List.not_mem_nil
  funext i
  rw [hlast]
  unfold Sampled.finish
  cases hprimed : x.primed with
  | true =>
    simp only [if_true]
    rw [Rollup.Loop.step_eq]
    exact (Rollup.tick_cgroup i labels readings x.loop.baseline).2
  | false =>
    have hprime : prime readings i = (presence i readings.list).join := by
      have hfold := Rollup.foldl_rebase i readings.list (fun _ => none) readings.distinct
      rwa [Option.or_none] at hfold
    have hnone := congrFun (h.unprimed hprimed) i
    simp only [Bool.false_eq_true, if_false]
    rw [hprime, hnone]
    cases presence i readings.list with
    | none => rfl
    | some p => exact (Option.or_none).symm

theorem inv_finish (h : SamplingInv root x) (ht : x.task = some task) (free : task.checked = none)
    (done : task.todo = []) (labels : TickLabels) {readings : Readings}
    (read : readings.list = task.results) :
    SamplingInv root (x.finish env labels (some readings)) := by
  have hinv := h.task task ht
  have hbase := @baseline_finish root env x task h free done labels readings read
  have htotal : (x.finish env labels (some readings)).loop.cpuTotal ≤
      x.loop.cpuTotal + deltaSum x.loop.baseline task.results := by
    unfold Sampled.finish
    cases x.primed with
    | true => exact read ▸ Rollup.loop_tick env x.loop labels readings
    | false => exact Nat.le_add_right _ _
  have hread : ∀ i, task.last x.loop.baseline i ≠ none → i ∈ task.passed := by
    intro i hi
    unfold Task.last at hi
    cases hp : presence i task.results with
    | some usage => exact List.mem_append_left _ (Rollup.mem_of_presence hp)
    | none =>
      rw [hp] at hi
      have hmem := (ite_ne_right_iff.mp hi).1
      unfold Task.pending at hmem
      rw [free, done] at hmem
      exact absurd hmem List.not_mem_nil
  refine ⟨h.pairs, h.files, h.tree, fun hp => (by cases hp), fun i j hi hj hn => ?_, ?_,
    fun t ht' => (by cases ht')⟩
  · rw [hbase] at hi hj
    exact hinv.leaves i (hread i hi) j (mem_targets_of_last hinv hj) hn
  · rw [hbase]
    exact hinv.counted.weaken htotal fun _ _ => rfl

theorem inv_fail (h : SamplingInv root x) (labels : TickLabels) :
    SamplingInv root (x.finish env labels none) := by
  have hbase : (x.finish env labels none).loop.baseline = x.loop.baseline := by
    unfold Sampled.finish
    cases x.primed <;> rfl
  have htotal : (x.finish env labels none).loop.cpuTotal ≤ x.loop.cpuTotal := by
    unfold Sampled.finish
    cases x.primed with
    | true => exact Rollup.loop_step env x.loop (.tick labels none)
    | false => exact Nat.le_refl _
  refine ⟨h.pairs, h.files, h.tree, fun hp => (by cases hp), ?_, ?_, fun t ht' => (by cases ht')⟩
  · rw [hbase]
    exact h.apart
  · rw [hbase]
    exact h.kept.weaken htotal fun _ _ => rfl

/-! ## Whole runs -/

theorem inv_start (env : Rollup.Env) (maxKeys : Nat) {host : Host} (usage : Nat → Nat)
    (tree : IsTree host) : SamplingInv root (.start env maxKeys host usage) where
  pairs := by
    have run : ReflTransGen (AllowedStep root Clean) (.start host) (.start host) := .refl
    exact pairs_run run
  files := by
    have run : ReflTransGen (AllowedStep root Clean) (.start host) (.start host) := .refl
    exact filesFollow_run run
  tree := tree
  unprimed := fun _ => rfl
  apart := fun i j hi => absurd rfl hi
  kept := by
    intro S hS
    have hempty : S = ∅ := Finset.eq_empty_of_forall_notMem fun i hi => hS.counts i hi rfl
    rw [hempty]
    exact Nat.le_refl 0
  task := fun t ht => (by cases ht)

theorem inv_step (h : SamplingInv root x) (hstep : SampledStep root env x x') :
    SamplingInv root x' := by
  cases hstep with
  | node hnode tree fresh => exact inv_node h hnode tree fresh
  | charge hc => exact inv_charge h hc
  | other o => exact inv_other h o
  | spawn targets idle distinct all => exact inv_spawn h distinct all
  | skip ht free next => exact inv_skip h ht free next
  | check ht free next leaf => exact inv_check h ht free next leaf
  | read ht passed memoryBytes hfile => exact inv_read h ht passed memoryBytes hfile
  | finish ht free done labels read => exact inv_finish h ht free done labels read
  | fail ht labels => exact inv_fail h labels

theorem inv_run {maxKeys : Nat} {host : Host} {usage : Nat → Nat} (tree : IsTree host)
    (run : ReflTransGen (SampledStep root env) (.start env maxKeys host usage) x) :
    SamplingInv root x := by
  induction run with
  | refl => exact inv_start env maxKeys usage tree
  | tail _ hstep ih => exact inv_step ih hstep

/-- **No CPU time is counted twice.** Take a history of a host whose directories are a tree, with
cgroups made and removed and charged at any time, in which an identity event reads the path of the
directory with its cgroup id, no directory is made at a path the agent holds or is about to read, and
none with an id the sampler knows. In every interleaving of it with the agent the rows of all batches
emitted have together no more CPU time than the kernel charged since the agent started. -/
theorem cpu_counted_once {maxKeys : Nat} {host : Host} {usage : Nat → Nat} (tree : IsTree host)
    (run : ReflTransGen (SampledStep root env) (.start env maxKeys host usage) x) :
    (x.loop.emitted.map Rollup.batchCpu).sum + x.loop.aggregator.heldCpu ≤ x.charged :=
  (inv_run tree run).kept.le

/-- The root of the hierarchy. -/
def topRoot : PathBuf := [.rootDir]

/-- A directory below it. -/
def webDir : PathBuf := topDir 'w'

theorem webDir_path : CgroupPath webDir := topDir_path 'w'

theorem topRoot_path : CgroupPath topRoot := ⟨[], rfl⟩

theorem emptyHost_dirs (p : PathBuf) : emptyHost.dirs p = none := rfl

theorem emptyHost_fresh (id : Nat) (q : PathBuf) : emptyHost.dirs q ≠ some id := fun h => by cases h

/-- A host with the root. -/
def rootOnly : Host :=
  emptyHost.mkdir topRoot 1 topRoot_path (emptyHost_dirs topRoot) (emptyHost_fresh 1)

theorem rootOnly_fresh (q : PathBuf) : rootOnly.dirs q ≠ some 2 := by
  intro h
  have hdirs : Function.update (fun _ => none) topRoot (some 1) q = some 2 := h
  by_cases e : q = topRoot
  · rw [e, Function.update_self] at hdirs
    cases hdirs
  · rw [Function.update_of_ne e] at hdirs
    cases hdirs

theorem rootOnly_free : rootOnly.dirs webDir = none := rfl

/-- A host with one cgroup below the root. -/
def oneCgroup : Host := rootOnly.mkdir webDir 2 webDir_path rootOnly_free rootOnly_fresh

theorem oneCgroup_dirs (q : PathBuf) : oneCgroup.dirs q =
    if q = webDir then some 2 else if q = topRoot then some 1 else none := by
  have hdirs : oneCgroup.dirs q = Function.update (Function.update (fun _ => none) topRoot
    (some 1)) webDir (some 2) q := rfl
  rw [hdirs]
  by_cases ha : q = webDir
  · rw [ha, Function.update_self, if_pos rfl]
  · rw [Function.update_of_ne ha, if_neg ha]
    by_cases hr : q = topRoot
    · rw [hr, Function.update_self, if_pos rfl]
    · rw [Function.update_of_ne hr, if_neg hr]

theorem oneCgroup_tree : IsTree oneCgroup := by
  intro p q id hne hpre hq
  have hp : p = webDir ∨ p = topRoot := by
    have hinits := (List.mem_inits _ _).mpr hpre
    rw [oneCgroup_dirs] at hq
    split at hq
    · next ha =>
      rw [ha] at hinits
      simpa [webDir, topDir, topRoot, hne, or_comm] using hinits
    · split at hq
      · next hr =>
        rw [hr] at hinits
        exact Or.inr (by simpa [topRoot, hne] using hinits)
      · cases hq
  rw [oneCgroup_dirs]
  rcases hp with rfl | rfl
  · exact fun h => by cases h
  · exact fun h => by cases h

/-- The cache with the cgroup in it. -/
def oneTracked : Node :=
  { Node.start oneCgroup with
    cache := CacheState.empty.registerCgroupDirectory [.rootDir] 2 webDir }

/-- The task reads the cgroup, and ends. -/
theorem oneTracked_task (env : Rollup.Env) (labels : TickLabels) {x : Sampled}
    (hnode : x.node = oneTracked) (idle : x.task = none) (hlt : x.usage 2 < 2 ^ 64) :
    ReflTransGen (SampledStep [.rootDir] env) x
      (x.finish env labels (some ⟨[⟨2, none, some (x.usage 2)⟩], List.nodup_singleton 2⟩)) := by
  let target := targetOf [.rootDir] webDir
  have hall : ∀ id t, (id, t) ∈ [(2, target)] ↔ x.node.cache.sampleTarget id = some t := by
    intro id t
    rw [hnode, List.mem_singleton, Prod.mk.injEq]
    by_cases hid : id = 2
    · subst hid
      exact ⟨fun h => h.2 ▸ rfl, fun h => ⟨rfl, (Option.some.inj h).symm⟩⟩
    · refine ⟨fun h => absurd h.1 hid, fun h => ?_⟩
      unfold CacheState.sampleTarget oneTracked CacheState.registerCgroupDirectory
        CacheState.insertLabels CacheState.insertPaths CacheState.empty at h
      simp [Function.update_of_ne hid] at h
  have hdirs : ∀ q, x.node.host.dirs q = oneCgroup.dirs q := fun q => by rw [hnode]; rfl
  have hleaf : IsLeafCgroup [.rootDir] x.node.host (parent target.memPath) := by
    refine ⟨webDir, 2, ?_, rfl, fun name => ?_⟩
    · rw [hdirs, oneCgroup_dirs, if_pos rfl]
    · rw [hdirs, oneCgroup_dirs, if_neg (by simp [webDir, topDir]),
        if_neg (by simp [webDir, topDir, topRoot])]
  have hfile : x.CpuFile [.rootDir] target.cpuPath (some (cpuStatFile (x.usage 2) [])) := by
    refine Or.inr ⟨webDir, 2, [], ?_, rfl, hlt, by simp, rfl⟩
    rw [hdirs, oneCgroup_dirs, if_pos rfl]
  have hread : (readCpuUsageUsecAt target.cpuPath (some (cpuStatFile (x.usage 2) []))).toOption =
      some (x.usage 2) := by
    rw [readCpuUsageUsecAt_flatKeyed _ hlt (by simp)]
    rfl
  let spawned : Sampled := { x with task := some ⟨[(2, target)], [(2, target)], none, []⟩ }
  let checked : Sampled := { x with task := some ⟨[(2, target)], [], some (2, target), []⟩ }
  let done : Sampled :=
    { x with task := some ⟨[(2, target)], [], none, [⟨2, none, some (x.usage 2)⟩]⟩ }
  have hspawn : SampledStep [.rootDir] env x spawned :=
    .spawn [(2, target)] idle (List.nodup_singleton 2) hall
  have hcheck : SampledStep [.rootDir] env spawned checked :=
    @SampledStep.check [.rootDir] env spawned ⟨[(2, target)], [(2, target)], none, []⟩
      (2, target) [] rfl rfl rfl hleaf
  have hdone : SampledStep [.rootDir] env checked done := by
    have hstep : SampledStep [.rootDir] env checked _ :=
      .read (e := (2, target)) rfl rfl none hfile
    rw [hread] at hstep
    exact hstep
  exact ((ReflTransGen.single hspawn).tail hcheck |>.tail hdone).tail
    (.finish rfl rfl rfl labels rfl)

/-- One cgroup, charged between the prime and a tick. -/
theorem cpu_counted_once_cgroup : ∃ x, ReflTransGen (SampledStep [.rootDir] ⟨id, fun _ => "b"⟩)
    (.start ⟨id, fun _ => "b"⟩ 4096 oneCgroup fun _ => 7) x ∧ x.charged = 5 ∧
      x.loop.emitted.map Rollup.batchCpu = [5] ∧
        (x.loop.emitted.map Rollup.batchCpu).sum + x.loop.aggregator.heldCpu ≤ 5 := by
  let env : Rollup.Env := ⟨id, fun _ => "b"⟩
  let labels : TickLabels := ⟨fun _ => {}, fun _ => {}, "n"⟩
  let found : Node := { Node.start oneCgroup with discovered := [(2, webDir)] }
  let s₀ := Sampled.start env 4096 oneCgroup fun _ => 7
  let s₁ : Sampled := { s₀ with node := found }
  let s₂ : Sampled := { s₀ with node := oneTracked }
  have hfound : SampledStep [.rootDir] env s₀ s₁ :=
    .node ⟨_, @NodeStep.bootstrapWalk [.rootDir] (.start oneCgroup) webDir 2 rfl (by decide)
      (by decide), trivial⟩
      oneCgroup_tree fun p id h => Or.inl h
  have htracked : SampledStep [.rootDir] env s₁ s₂ :=
    .node ⟨_, .registerCgroupDirectory rfl, trivial⟩ oneCgroup_tree fun p id h => Or.inl h
  have hprime := oneTracked_task env labels (x := s₂) rfl rfl (by decide)
  let rs : Readings := ⟨[⟨2, none, some 7⟩], List.nodup_singleton 2⟩
  let s₃ : Sampled := { s₂ with primed := true, loop := { s₂.loop with baseline := prime rs } }
  let s₄ : Sampled := { s₃ with usage := fun id => if id = 1 ∨ id = 2 then 12 else 7, charged := 5 }
  have hcharge : SampledStep [.rootDir] env s₃ s₄ := by
    refine .charge (p := webDir) (n := 5) (x := s₃) ⟨fun q id hq _ => if_pos ?_,
      fun id hnone => if_neg ?_⟩
    · have hq : oneCgroup.dirs q = some id := hq
      rw [oneCgroup_dirs] at hq
      split at hq
      · exact Or.inr (Option.some.inj hq).symm
      · split at hq
        · exact Or.inl (Option.some.inj hq).symm
        · cases hq
    · rintro (rfl | rfl)
      · exact hnone topRoot rfl ⟨_, rfl⟩
      · exact hnone webDir rfl (List.prefix_refl _)
  have htick := oneTracked_task env labels (x := s₄) rfl rfl (by decide)
  let rs' : Readings := ⟨[⟨2, none, some 12⟩], List.nodup_singleton 2⟩
  let s₅ : Sampled := { s₄ with loop := s₄.loop.step env (.tick labels (some rs')) }
  have hflush : SampledStep [.rootDir] env s₅ { s₅ with loop := s₅.loop.other env (.flush "n") } :=
    .other (.flush "n")
  have hstart : ReflTransGen (SampledStep [.rootDir] env) s₀ s₂ :=
    (ReflTransGen.single hfound).tail htracked
  have run : ReflTransGen (SampledStep [.rootDir] env) s₀
      { s₅ with loop := s₅.loop.other env (.flush "n") } :=
    (((hstart.trans hprime).tail hcharge).trans htick).tail hflush
  have hcounted := cpu_counted_once oneCgroup_tree run
  exact ⟨_, run, rfl, by decide +kernel, hcounted⟩

end Statix.Sampling
