import Mathlib.Order.Monotone.Defs
import Statix.Lib.Json
import Statix.Lib.Replacing
import Statix.Rollup.Windows

/-!
# Batches in the table

Model of the way of a batch into the table: `emit_batch` (`statix/src/output.rs`) with the JSON of
`statix-wire/src/lib.rs`, `MetricRow::from_ingest` (`statix-gateway/src/clickhouse_writer.rs`), and
the key of `statix.workload_metrics` (`deploy/clickhouse/01_init.sql`), a
`ReplacingMergeTree(window_end_ns)` ordered by `(node, window_start_ns, cgroup_id)`.

* `call_time`: a batch starts where the clock was last read and ends at a new reading.
* `windowStart_increasing`: with strictly increasing readings no two batches start together.
* **`exactly_once_effect`**: delivered in any order and any number of times, the batches leave each
  of their rows once.
-/

namespace Statix.Rollup

open Statix.Lib

/-- `IngestBatch`. -/
structure IngestBatch where
  schemaVersion : Nat
  windowStartNs : Nat
  windowEndNs : Nat
  node : String
  batchId : String
  agentVersion : String
  workloads : List WorkloadRow
  deriving DecidableEq

/-- `SCHEMA_VERSION`. -/
def schemaVersion : Nat := 4

/-- What `emit_batch` sends. -/
def emitBatch (payload : BatchPayload) : IngestBatch where
  schemaVersion := schemaVersion
  windowStartNs := payload.windowStartNs
  windowEndNs := payload.windowEndNs
  node := payload.node
  batchId := payload.batchId
  agentVersion := payload.agentVersion
  workloads := payload.workloads

/-- A field with `skip_serializing_if = "Option::is_none"`. -/
def jsonLabel (name : String) (value : Option String) : List (String × Json.Text) :=
  value.toList.map fun v => (name, Json.string v)

/-- A `WorkloadRow` in JSON. -/
def WorkloadRow.json (r : WorkloadRow) : Json.Text :=
  Json.object ([("cgroup_id", Json.nat r.cgroupId)] ++ jsonLabel "namespace" r.ns ++
    jsonLabel "pod" r.pod ++ jsonLabel "container" r.container ++ [
    ("k8s_resolved", Json.bool r.k8sResolved),
    ("memory_bytes_max", Json.nat r.memoryBytesMax),
    ("memory_bytes_last", Json.nat r.memoryBytesLast),
    ("exec_count", Json.nat r.execCount),
    ("sample_count", Json.nat r.sampleCount),
    ("cpu_usage_usec", Json.nat r.cpuUsageUsec),
    ("cpu_request_millicores", Json.nat r.cpuRequestMillicores),
    ("memory_request_bytes", Json.nat r.memoryRequestBytes),
    ("cpu_limit_millicores", Json.nat r.cpuLimitMillicores),
    ("memory_limit_bytes", Json.nat r.memoryLimitBytes)])

/-- An `IngestBatch` in JSON. -/
def IngestBatch.json (b : IngestBatch) : Json.Text :=
  Json.object [
    ("schema_version", Json.nat b.schemaVersion),
    ("window_start_ns", Json.nat b.windowStartNs),
    ("window_end_ns", Json.nat b.windowEndNs),
    ("node", Json.string b.node),
    ("batch_id", Json.string b.batchId),
    ("agent_version", Json.string b.agentVersion),
    ("workloads", Json.array (b.workloads.map WorkloadRow.json))]

/-- The bytes `emit_batch` hands to `enqueue_batch_json`. -/
def IngestBatch.bytes (b : IngestBatch) : List UInt8 := Json.utf8 b.json

/-- `MetricRow`. -/
structure MetricRow where
  windowStartNs : Nat
  windowEndNs : Nat
  node : String
  batchId : String
  agentVersion : String
  cgroupId : Nat
  ns : Option String
  pod : Option String
  container : Option String
  k8sResolved : Bool
  memoryBytesMax : Nat
  memoryBytesLast : Nat
  execCount : Nat
  sampleCount : Nat
  cpuUsageUsec : Nat
  cpuRequestMillicores : Nat
  memoryRequestBytes : Nat
  cpuLimitMillicores : Nat
  memoryLimitBytes : Nat
  deriving DecidableEq

/-- `MetricRow::from_ingest`. -/
def MetricRow.fromIngest (batch : IngestBatch) (w : WorkloadRow) : MetricRow where
  windowStartNs := batch.windowStartNs
  windowEndNs := batch.windowEndNs
  node := batch.node
  batchId := batch.batchId
  agentVersion := batch.agentVersion
  cgroupId := w.cgroupId
  ns := w.ns
  pod := w.pod
  container := w.container
  k8sResolved := w.k8sResolved
  memoryBytesMax := w.memoryBytesMax
  memoryBytesLast := w.memoryBytesLast
  execCount := w.execCount
  sampleCount := w.sampleCount
  cpuUsageUsec := w.cpuUsageUsec
  cpuRequestMillicores := w.cpuRequestMillicores
  memoryRequestBytes := w.memoryRequestBytes
  cpuLimitMillicores := w.cpuLimitMillicores
  memoryLimitBytes := w.memoryLimitBytes

/-- The table's `ORDER BY`. -/
def MetricRow.key (r : MetricRow) : String × Nat × Nat := (r.node, r.windowStartNs, r.cgroupId)

/-- The rows the gateway stores of a batch. -/
def storedRows (b : BatchPayload) : List MetricRow :=
  (emitBatch b).workloads.map (MetricRow.fromIngest (emitBatch b))

/-! ## Window bounds -/

variable {env : Env} {a : Aggregator}

/-- What a call does to the window's start and the clock. -/
inductive Timed (env : Env) (a : Aggregator) : Aggregator × Option BatchPayload → Prop
  | unread {a' : Aggregator} (start : a'.windowStartNs = a.windowStartNs)
      (reads : a'.reads = a.reads) : Timed env a (a', none)
  | reset {a' : Aggregator} (start : a'.windowStartNs = env.wallUnixNs a.reads)
      (reads : a'.reads = a.reads + 1) : Timed env a (a', none)
  | closed {a' : Aggregator} {b : BatchPayload} (first : b.windowStartNs = a.windowStartNs)
      (last : b.windowEndNs = env.wallUnixNs a.reads)
      (start : a'.windowStartNs = env.wallUnixNs a.reads) (reads : a'.reads = a.reads + 1) :
      Timed env a (a', some b)

theorem flush_time (env : Env) (a : Aggregator) (node : String) :
    Timed env a (a.flush env node) := by
  unfold Aggregator.flush
  simp only
  split
  · exact .reset rfl rfl
  · exact .closed rfl rfl rfl rfl

theorem tryEarlyFlush_time (env : Env) (a : Aggregator) (node : String) :
    Timed env a (a.tryEarlyFlush env node) := by
  unfold Aggregator.tryEarlyFlush
  split
  · exact flush_time env a node
  · exact .unread rfl rfl

/-- An ingest does not look at the clock before its early flush. -/
theorem updateEntry_time {c : Nat} {f : WorkloadStats → WorkloadStats}
    {r : Aggregator × Option BatchPayload} (h : Timed env (a.updateEntry c f) r) :
    Timed env a r := by
  cases h with
  | unread start reads => exact .unread start reads
  | reset start reads => exact .reset start reads
  | closed first last start reads => exact .closed first last start reads

/-- **A batch starts where the clock was last read and ends at a new reading.** -/
theorem call_time (env : Env) (a : Aggregator) (c : Call) : Timed env a (a.call env c) := by
  cases c with
  | event e labels node =>
    show Timed env a (Aggregator.tryEarlyFlush env node _)
    split
    · exact updateEntry_time (tryEarlyFlush_time env _ node)
    · split
      · exact updateEntry_time (tryEarlyFlush_time env _ node)
      · exact tryEarlyFlush_time env a node
  | memorySample c bytes labels node => exact updateEntry_time (tryEarlyFlush_time env _ node)
  | cpuSample c delta labels node => exact updateEntry_time (tryEarlyFlush_time env _ node)
  | flush node => exact flush_time env a node

/-- **No two batches start together.** The readings to come are past the start of the open window,
so each batch starts after the one before. -/
theorem windowStart_increasing (clock : StrictMono env.wallUnixNs) (calls : List Call)
    {a : Aggregator} (h : ∀ n, a.reads ≤ n → a.windowStartNs < env.wallUnixNs n) :
    (∀ b ∈ batches (a.run env calls).2, a.windowStartNs ≤ b.windowStartNs) ∧
      (batches (a.run env calls).2).Pairwise fun b b' => b.windowStartNs < b'.windowStartNs := by
  induction calls generalizing a with
  | nil => exact ⟨fun b hb => absurd hb List.not_mem_nil, List.Pairwise.nil⟩
  | cons c rest ih =>
    rw [Aggregator.run]
    have hlater := h a.reads (Nat.le_refl _)
    -- a reading is before all later ones
    have hnext : ∀ n, a.reads + 1 ≤ n → env.wallUnixNs a.reads < env.wallUnixNs n :=
      fun n hn => clock hn
    have ht := call_time env a c
    generalize a.call env c = r at ht
    cases ht with
    | unread start reads =>
      have ih := ih fun n hn => by
        rw [start]
        exact h n (reads ▸ hn)
      rw [start] at ih
      exact ih
    | reset start reads =>
      obtain ⟨ih₁, ih₂⟩ := ih fun n hn => by
        rw [start]
        exact hnext n (reads ▸ hn)
      rw [start] at ih₁
      exact ⟨fun b hb => Nat.le_trans (Nat.le_of_lt hlater) (ih₁ b hb), ih₂⟩
    | @closed a' b first last start reads =>
      obtain ⟨ih₁, ih₂⟩ := ih (a := a') fun n hn => by
        rw [start]
        exact hnext n (reads ▸ hn)
      rw [start] at ih₁
      rw [batches_closed]
      refine ⟨fun x hx => ?_, List.pairwise_cons.mpr ⟨fun x hx => ?_, ih₂⟩⟩
      · rcases List.mem_cons.mp hx with rfl | hx
        · exact Nat.le_of_eq first.symm
        · exact Nat.le_trans (Nat.le_of_lt hlater) (ih₁ x hx)
      · rw [first]
        exact Nat.lt_of_lt_of_le hlater (ih₁ x hx)

/-! ## The rows in the table -/

theorem key_storedRows {b : BatchPayload} {r : MetricRow} (h : r ∈ storedRows b) :
    r.key.2.1 = b.windowStartNs := by
  obtain ⟨w, -, rfl⟩ := List.mem_map.mp h
  rfl

/-- One batch has a row for each of its cgroups. -/
theorem keys_storedRows {b : BatchPayload} (h : (b.workloads.map WorkloadRow.cgroupId).Nodup) :
    ((storedRows b).map MetricRow.key).Nodup := by
  unfold storedRows
  rw [List.map_map]
  refine List.Nodup.of_map (fun k => k.2.2) ?_
  rw [List.map_map]
  exact h

/-- The keys of batches that start at different times are different. -/
theorem keys_batches {bs : List BatchPayload}
    (hrows : ∀ b ∈ bs, (b.workloads.map WorkloadRow.cgroupId).Nodup)
    (hstart : bs.Pairwise fun b b' => b.windowStartNs < b'.windowStartNs) :
    ((bs.flatMap storedRows).map MetricRow.key).Nodup := by
  induction bs with
  | nil => exact List.nodup_nil
  | cons b bs ih =>
    rw [List.pairwise_cons] at hstart
    rw [List.flatMap_cons, List.map_append]
    refine List.Nodup.append (keys_storedRows (hrows b List.mem_cons_self))
      (ih (fun x hx => hrows x (List.mem_cons_of_mem _ hx)) hstart.2) ?_
    rintro k hk hk'
    obtain ⟨r, hr, rfl⟩ := List.mem_map.mp hk
    obtain ⟨r', hr', e⟩ := List.mem_map.mp hk'
    obtain ⟨b', hb', hr'⟩ := List.mem_flatMap.mp hr'
    have hlt := hstart.1 b' hb'
    have heq : b'.windowStartNs = b.windowStartNs := by
      rw [← key_storedRows hr, ← key_storedRows hr', e]
    omega

/-- **At-least-once delivery has exactly-once effect.** For every run of an aggregator with strictly
increasing clock readings, and every delivery of its batches in any order and with any duplicates:
what a `FINAL` read returns of the table is every row of every batch, each once. -/
theorem exactly_once_effect (env : Env) (clock : StrictMono env.wallUnixNs) (maxKeys : Nat)
    (calls : List Call) (deliveries : List BatchPayload) (view : List MetricRow)
    (delivered : ∀ b, b ∈ deliveries ↔
      b ∈ batches (Aggregator.run env { Aggregator.new env with maxKeys := maxKeys } calls).2)
    (final : Final MetricRow.key MetricRow.windowEndNs (deliveries.flatMap storedRows) view) :
    view.Perm ((batches (Aggregator.run env { Aggregator.new env with maxKeys := maxKeys }
      calls).2).flatMap storedRows) := by
  obtain ⟨hroll, -⟩ := rolls_run env calls 0 (aggregatorInv_new env maxKeys)
  obtain ⟨-, hstart⟩ := windowStart_increasing clock calls
    (a := { Aggregator.new env with maxKeys := maxKeys }) fun n hn => clock hn
  refine final.perm (keys_batches (fun b hb => ?_) hstart) fun r => ?_
  · obtain ⟨n, hn⟩ := List.mem_iff_getElem?.mp hb
    exact (hroll n b hn).distinct
  · simp only [List.mem_flatMap]
    exact exists_congr fun b => and_congr_left fun _ => delivered b

/-- The clock that ticks at every reading. -/
def tickingEnv : Env := ⟨id, fun _ => "b"⟩

/-- Two windows of one cgroup, the first delivered twice. -/
theorem exactly_once_effect_replayed :
    ∃ (calls : List Call) (b₀ b₁ : BatchPayload) (r₀ r₁ : MetricRow),
      r₀ ≠ r₁ ∧ storedRows b₀ = [r₀] ∧ storedRows b₁ = [r₁] ∧
      Final MetricRow.key MetricRow.windowEndNs ([b₁, b₀, b₀].flatMap storedRows) [r₀, r₁] ∧
      [r₀, r₁].Perm ((batches (Aggregator.run tickingEnv
        { Aggregator.new tickingEnv with maxKeys := 2 } calls).2).flatMap storedRows) := by
  let calls : List Call :=
    [.event ⟨1, 7, 0⟩ {} "n", .flush "n", .event ⟨1, 7, 0⟩ {} "n", .flush "n"]
  let row : WorkloadRow := Aggregator.rowOf 7 { execCount := 1 }
  let b₀ : BatchPayload := ⟨0, 1, "n", "b", agentVersion, [row]⟩
  let b₁ : BatchPayload := ⟨1, 2, "n", "b", agentVersion, [row]⟩
  have hrun : batches (Aggregator.run tickingEnv { Aggregator.new tickingEnv with maxKeys := 2 }
      calls).2 = [b₀, b₁] := by decide +kernel
  have hfinal : Final MetricRow.key MetricRow.windowEndNs ([b₁, b₀, b₀].flatMap storedRows)
      [.fromIngest (emitBatch b₀) row, .fromIngest (emitBatch b₁) row] :=
    ⟨by decide +kernel, by decide +kernel, by decide +kernel, by decide +kernel⟩
  refine ⟨calls, b₀, b₁, _, _, by decide +kernel, rfl, rfl, hfinal,
    exactly_once_effect tickingEnv strictMono_id 2 calls [b₁, b₀, b₀] _ (fun b => ?_) hfinal⟩
  rw [hrun]
  simp only [List.mem_cons, List.not_mem_nil, or_false]
  tauto

end Statix.Rollup
