import Mathlib.Algebra.Order.BigOperators.Group.List
import Mathlib.Algebra.Order.Ring.Nat
import Mathlib.Data.List.AList

/-!
# The aggregator

Model of `Aggregator` (`statix/src/aggregator.rs`): two maps from cgroup ids to counters, one of
them active, an early flush inside every ingest call, and a flush that flips the maps before it
drains the old one.

* The maps have no order in the source. Here a map is a list with distinct keys; no result depends
  on the order of the rows of a batch.
* `Env` is what the calls of `wall_unix_ns` and `fast_batch_id` return, in turn; `reads` and `drawn`
  count them.
* The labels of an ingest call are what `labels_for_cgroup` returns in it. Other tasks change the
  attribution cache between any two calls.
* Counters are `Nat` with the saturation of the source written out.
-/

namespace Statix.Rollup

/-- `u32::MAX`. -/
def u32Max : Nat := 2 ^ 32 - 1

/-- `u64::MAX`. -/
def u64Max : Nat := 2 ^ 64 - 1

/-- `saturating_add` below `top`. -/
def saturatingAdd (top a b : Nat) : Nat := min (a + b) top

/-- `Resources`. -/
structure Resources where
  cpuRequestMillicores : Nat := 0
  memoryRequestBytes : Nat := 0
  cpuLimitMillicores : Nat := 0
  memoryLimitBytes : Nat := 0
  deriving DecidableEq

/-- `WorkloadLabels`, without the pod's uid, which no row carries. -/
structure WorkloadLabels where
  ns : Option String := none
  pod : Option String := none
  container : Option String := none
  k8sResolved : Bool := false
  resources : Resources := {}
  deriving DecidableEq

/-- `WorkloadStats`, with its default. -/
structure WorkloadStats where
  execCount : Nat := 0
  sampleCount : Nat := 0
  memoryBytesMax : Nat := 0
  memoryBytesLast : Nat := 0
  cpuUsageUsec : Nat := 0
  labels : WorkloadLabels := {}
  deriving DecidableEq

/-- `WorkloadRow`. -/
structure WorkloadRow where
  cgroupId : Nat
  ns : Option String
  pod : Option String
  container : Option String
  k8sResolved : Bool
  memoryBytesMax : Nat
  memoryBytesLast : Nat
  execCount : Nat
  sampleCount : Nat
  cpuUsageUsec : Nat
  cpuRequestMillicores : Nat
  memoryRequestBytes : Nat
  cpuLimitMillicores : Nat
  memoryLimitBytes : Nat
  deriving DecidableEq

/-- `CARGO_PKG_VERSION` of the agent. -/
def agentVersion : String := "1.2.0"

/-- `BatchPayload`. -/
structure BatchPayload where
  windowStartNs : Nat
  windowEndNs : Nat
  node : String
  batchId : String
  agentVersion : String
  workloads : List WorkloadRow
  deriving DecidableEq

/-- The map from cgroup ids to counters. -/
abbrev Buffer := AList fun _ : Nat => WorkloadStats

/-- What `wall_unix_ns` and `fast_batch_id` return, call by call. -/
structure Env where
  wallUnixNs : Nat → Nat
  fastBatchId : Nat → String

/-- `Aggregator`, with the number of calls of `wall_unix_ns` and `fast_batch_id` so far. -/
structure Aggregator where
  windowStartNs : Nat
  buffers : Fin 2 → Buffer
  active : Fin 2
  maxKeys : Nat
  reads : Nat
  drawn : Nat

/-- `DEFAULT_MAX_KEYS`. -/
def defaultMaxKeys : Nat := 4096

namespace Aggregator

/-- `Aggregator::new`. -/
def new (env : Env) : Aggregator where
  windowStartNs := env.wallUnixNs 0
  buffers := fun _ => ∅
  active := 0
  maxKeys := defaultMaxKeys
  reads := 1
  drawn := 0

/-- `active_len`. -/
def activeLen (a : Aggregator) : Nat := (a.buffers a.active).entries.length

/-- `active_mut().entry(cgroup_id).or_default()`, changed by `f`. -/
def updateEntry (a : Aggregator) (cgroupId : Nat) (f : WorkloadStats → WorkloadStats) :
    Aggregator :=
  let buffer := a.buffers a.active
  { a with
    buffers := Function.update a.buffers a.active
      (buffer.insert cgroupId (f ((buffer.lookup cgroupId).getD {}))) }

theorem active_updateEntry (a : Aggregator) (cgroupId : Nat) (f : WorkloadStats → WorkloadStats) :
    (a.updateEntry cgroupId f).buffers (a.updateEntry cgroupId f).active =
      (a.buffers a.active).insert cgroupId (f (((a.buffers a.active).lookup cgroupId).getD {})) :=
  Function.update_self _ _ _

/-- `reset_window`. -/
def resetWindow (a : Aggregator) (windowStartNs : Nat) : Aggregator :=
  { a with windowStartNs := windowStartNs }

/-- The row of `flush` for one entry. -/
def rowOf (cgroupId : Nat) (s : WorkloadStats) : WorkloadRow where
  cgroupId := cgroupId
  ns := s.labels.ns
  pod := s.labels.pod
  container := s.labels.container
  k8sResolved := s.labels.k8sResolved
  memoryBytesMax := s.memoryBytesMax
  memoryBytesLast := s.memoryBytesLast
  execCount := s.execCount
  sampleCount := s.sampleCount
  cpuUsageUsec := s.cpuUsageUsec
  cpuRequestMillicores := s.labels.resources.cpuRequestMillicores
  memoryRequestBytes := s.labels.resources.memoryRequestBytes
  cpuLimitMillicores := s.labels.resources.cpuLimitMillicores
  memoryLimitBytes := s.labels.resources.memoryLimitBytes

/-- The rows of a map. -/
def rowsOf (b : Buffer) : List WorkloadRow := b.entries.map fun e => rowOf e.1 e.2

/-- `flush`. -/
def flush (env : Env) (node : String) (a₀ : Aggregator) : Aggregator × Option BatchPayload :=
  let flushIdx := a₀.active
  let now := env.wallUnixNs a₀.reads
  let a := { a₀ with reads := a₀.reads + 1 }
  if (a.buffers flushIdx).entries = [] then (a.resetWindow now, none)
  else
    -- flip first, then drain the old map
    let a := { a with active := 1 - a.active }.resetWindow now
    let workloads := rowsOf (a.buffers flushIdx)
    ({ a with
        buffers := Function.update a.buffers flushIdx ∅
        drawn := a.drawn + 1 },
      some ⟨a₀.windowStartNs, now, node, env.fastBatchId a.drawn, agentVersion, workloads⟩)

/-- `try_early_flush`. -/
def tryEarlyFlush (env : Env) (node : String) (a : Aggregator) : Aggregator × Option BatchPayload :=
  if a.activeLen ≥ a.maxKeys then a.flush env node else (a, none)

end Aggregator

/-- `EVENT_KIND_WORKLOAD_IDENTITY`. -/
def eventKindWorkloadIdentity : Nat := 1

/-- `EVENT_KIND_MEMORY_SAMPLE`. -/
def eventKindMemorySample : Nat := 2

/-- The fields of `StatixEvent` the aggregator reads. -/
structure StatixEvent where
  kind : Nat
  cgroupId : Nat
  memoryBytes : Nat
  deriving DecidableEq

/-- What an identity event does to an entry. -/
def WorkloadStats.addExec (labels : WorkloadLabels) (s : WorkloadStats) : WorkloadStats :=
  { s with execCount := saturatingAdd u32Max s.execCount 1, labels := labels }

/-- What a memory sample does to an entry. -/
def WorkloadStats.addMemory (memoryBytes : Nat) (labels : WorkloadLabels) (s : WorkloadStats) :
    WorkloadStats :=
  { s with
    sampleCount := saturatingAdd u32Max s.sampleCount 1
    memoryBytesLast := memoryBytes
    memoryBytesMax := if memoryBytes > s.memoryBytesMax then memoryBytes else s.memoryBytesMax
    labels := labels }

/-- What a CPU sample does to an entry. -/
def WorkloadStats.addCpu (deltaUsec : Nat) (labels : WorkloadLabels) (s : WorkloadStats) :
    WorkloadStats :=
  { s with cpuUsageUsec := saturatingAdd u64Max s.cpuUsageUsec deltaUsec, labels := labels }

namespace Aggregator

/-- `ingest_memory_sample_inner`. -/
def ingestMemorySampleInner (cgroupId memoryBytes : Nat) (labels : WorkloadLabels)
    (a : Aggregator) : Aggregator := a.updateEntry cgroupId (.addMemory memoryBytes labels)

/-- `on_statix_event`. An unknown kind is only logged. -/
def onStatixEvent (env : Env) (event : StatixEvent) (labels : WorkloadLabels) (node : String)
    (a : Aggregator) : Aggregator × Option BatchPayload :=
  let a :=
    if event.kind = eventKindWorkloadIdentity then a.updateEntry event.cgroupId (.addExec labels)
    else if event.kind = eventKindMemorySample then
      a.ingestMemorySampleInner event.cgroupId event.memoryBytes labels
    else a
  a.tryEarlyFlush env node

/-- `ingest_memory_sample`. -/
def ingestMemorySample (env : Env) (cgroupId memoryBytes : Nat) (labels : WorkloadLabels)
    (node : String) (a : Aggregator) : Aggregator × Option BatchPayload :=
  (a.ingestMemorySampleInner cgroupId memoryBytes labels).tryEarlyFlush env node

/-- `ingest_cpu_sample`. -/
def ingestCpuSample (env : Env) (cgroupId deltaUsec : Nat) (labels : WorkloadLabels)
    (node : String) (a : Aggregator) : Aggregator × Option BatchPayload :=
  (a.updateEntry cgroupId (.addCpu deltaUsec labels)).tryEarlyFlush env node

end Aggregator

/-! ## Calls and runs -/

/-- A call on the aggregator, with the labels the cache gives in it. -/
inductive Call where
  | event (event : StatixEvent) (labels : WorkloadLabels) (node : String)
  | memorySample (cgroupId memoryBytes : Nat) (labels : WorkloadLabels) (node : String)
  | cpuSample (cgroupId deltaUsec : Nat) (labels : WorkloadLabels) (node : String)
  | flush (node : String)
  deriving DecidableEq

/-- One call. -/
def Aggregator.call (env : Env) (a : Aggregator) : Call → Aggregator × Option BatchPayload
  | .event e labels node => a.onStatixEvent env e labels node
  | .memorySample c bytes labels node => a.ingestMemorySample env c bytes labels node
  | .cpuSample c delta labels node => a.ingestCpuSample env c delta labels node
  | .flush node => a.flush env node

/-- A run of calls: the state it ends in, and each call with the batch it returned. -/
def Aggregator.run (env : Env) :
    Aggregator → List Call → Aggregator × List (Call × Option BatchPayload)
  | a, [] => (a, [])
  | a, c :: rest =>
    let (a, out) := a.call env c
    let (a, trace) := Aggregator.run env a rest
    (a, (c, out) :: trace)

/-- The batches of a trace. -/
def batches (trace : List (Call × Option BatchPayload)) : List BatchPayload :=
  trace.filterMap Prod.snd

end Statix.Rollup
