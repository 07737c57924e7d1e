import Statix.Gateway.Access
import Statix.Rollup.Size

/-!
# Which batches an idle gateway accepts

The agent bounds a batch by its rows: `max_keys` cgroups, with labels of any length
(`statix/src/aggregator.rs`). The gateway bounds a request by the bytes of its body
(`statix-gateway/src/main.rs`) and by the capacity of its ingest channel
(`statix-gateway/src/clickhouse_writer.rs`), whose minimum is below `max_keys`.

* `ingestHandler_idle`: what an idle gateway answers to the bytes of any batch.
* **`acceptable_iff`**: the batches of any run that an idle gateway answers with 200.
-/

namespace Statix.Gateway

open Statix.Lib
open Statix.Rollup

/-- `DefaultBodyLimit::max(2 * 1024 * 1024)` of the route. -/
def bodyLimit : Nat := 2 * 1024 * 1024

/-- What axum's body limit and `serde_json` do with the bytes of a batch. -/
structure ReadsBatch (ext : Externals) (headers : Headers) (batch : IngestBatch) : Prop where
  within : batch.bytes.length ≤ bodyLimit → ext.parseBatch headers batch.bytes = .ok batch
  above : bodyLimit < batch.bytes.length → ∃ rejection,
    ext.parseBatch headers batch.bytes = .error rejection ∧
      400 ≤ rejection.status ∧ rejection.status < 500

/-- A gateway with nothing to do, started with this channel size in its environment: ClickHouse is
healthy and the channel is empty. -/
structure IdleGateway (size : Nat) (s : AppState) : Prop where
  healthy : s.chHealthy = true
  empty : s.ingestTx.queue = []
  unreserved : s.ingestTx.reserved = 0
  opened : s.ingestTx.closed = false
  capacity : s.ingestTx.capacity = ingestChannelCapacity size

/-- The request carries the token, where one is expected. -/
def HasToken (headers : Headers) (s : AppState) : Prop :=
  ∀ expected, s.expectedBearer = some expected → authorization headers = some expected

variable {ext : Externals} {headers : Headers} {s : AppState} {size : Nat} {batch : IngestBatch}

/-! ## What an idle gateway answers -/

/-- The channel of an idle gateway takes a batch exactly if it fits as a whole. -/
theorem tryReserveMany_idle (idle : IdleGateway size s) (n : Nat) : s.ingestTx.tryReserveMany n =
    if n ≤ ingestChannelCapacity size then .permits else .full := by
  unfold Channel.tryReserveMany
  rw [idle.empty, idle.unreserved, idle.opened, idle.capacity]
  by_cases hn : n ≤ ingestChannelCapacity size
  · simp [hn]
  · simp [hn]

/-- `ingest_inner` of an idle gateway on a batch of its own version. -/
theorem ingestInner_idle (idle : IdleGateway size s) (good : supported batch) :
    ingestInner s batch =
    if batch.workloads.length ≤ ingestChannelCapacity size then
      (.inner .ok, { s with ingestTx := { s.ingestTx with
        queue := batch.workloads.map (MetricRow.fromIngest batch) } })
    else (.inner .bufferFull, s) := by
  have hschema : (decide (batch.schemaVersion < minSchemaVersion) ||
      decide (batch.schemaVersion > maxSchemaVersion)) = false := by
    rw [Bool.or_eq_false_iff, decide_eq_false_iff_not, decide_eq_false_iff_not]
    exact ⟨Nat.not_lt_of_le good.1, Nat.not_lt_of_le good.2⟩
  have hhealthy : ¬ s.chHealthy = false := by
    rw [idle.healthy]
    exact Bool.noConfusion
  unfold ingestInner
  rw [hschema, if_neg Bool.false_ne_true, if_neg hhealthy, tryReserveMany_idle idle]
  by_cases hnil : batch.workloads = []
  · -- nothing is sent, and the channel was empty before
    rw [hnil, List.isEmpty_nil, if_pos rfl, List.length_nil, if_pos (Nat.zero_le _),
      List.map_nil, ← idle.empty]
  · by_cases hfit : batch.workloads.length ≤ ingestChannelCapacity size
    · simp [hnil, hfit, idle.empty]
    · simp [hnil, hfit]

/-- The handler of `POST /ingest` when the extractor reads the body. -/
theorem ingestHandler_read (token : HasToken headers s) {body : List UInt8}
    (read : ext.parseBatch headers body = .ok batch) : ingestHandler ext headers body s =
    ((ingestInner s batch).1.response, (ingestInner s batch).2) := by
  unfold ingestHandler
  rw [read]
  cases hb : s.expectedBearer with
  | none => rfl
  | some expected => simp [token expected hb]

/-- The handler when it does not. -/
theorem ingestHandler_rejected {body : List UInt8} {rejection : HttpResponse}
    (rejected : ext.parseBatch headers body = .error rejection) :
    ingestHandler ext headers body s = (rejection, s) := by
  unfold ingestHandler
  rw [rejected]

/-- **The answer to the bytes of a batch.** -/
theorem ingestHandler_idle (reads : ReadsBatch ext headers batch) (idle : IdleGateway size s)
    (token : HasToken headers s) (good : supported batch) :
    let r := ingestHandler ext headers batch.bytes s
    (r.1.status = 200 ↔ batch.workloads.length ≤ ingestChannelCapacity size ∧
      batch.bytes.length ≤ bodyLimit) ∧
    (batch.bytes.length ≤ bodyLimit → ingestChannelCapacity size < batch.workloads.length →
      r = (statusText 503 "Ingest buffer full. Retry later.", s)) ∧
    (bodyLimit < batch.bytes.length → 400 ≤ r.1.status ∧ r.1.status < 500 ∧ r.2 = s) := by
  intro r
  by_cases hbytes : batch.bytes.length ≤ bodyLimit
  · have hr : r = _ := ingestHandler_read token (reads.within hbytes)
    rw [ingestInner_idle idle good] at hr
    refine ⟨?_, fun _ hfull => ?_, fun habove => absurd hbytes (Nat.not_le_of_lt habove)⟩
    · by_cases hrows : batch.workloads.length ≤ ingestChannelCapacity size
      · rw [hr, if_pos hrows]
        exact ⟨fun _ => ⟨hrows, hbytes⟩, fun _ => rfl⟩
      · rw [hr, if_neg hrows]
        exact ⟨fun h => (by cases h), fun h => absurd h.1 hrows⟩
    · rw [hr, if_neg (Nat.not_le_of_lt hfull)]
      rfl
  · obtain ⟨rejection, hparse, hge, hlt⟩ := reads.above (Nat.lt_of_not_le hbytes)
    have hr : r = (rejection, s) := ingestHandler_rejected hparse
    refine ⟨⟨fun h => ?_, fun h => absurd h.2 hbytes⟩, fun h => absurd h hbytes, fun _ => ?_⟩
    · have hstatus : rejection.status = 200 := by
        rw [hr] at h
        exact h
      omega
    · rw [hr]
      exact ⟨hge, hlt, rfl⟩

/-- **The batches an idle gateway accepts.** For every run of calls on the aggregator, every channel
size in the gateway's environment and every batch the run returns: the handler of `POST /ingest`
answers the bytes of `emit_batch` with 200 exactly if the cgroups touched in the window fit in the
channel and the bytes are within the body limit. A batch with more rows is told to retry, by a
gateway that is as idle as before; one with more bytes gets a 4xx. No batch has more than `max_keys`
rows, so that a channel of that size takes them all. -/
theorem acceptable_iff (env : Env) (calls : List Rollup.Call) {n : Nat} {p : BatchPayload}
    (returned : (batches (Aggregator.run env (.new env) calls).2)[n]? = some p)
    (reads : ReadsBatch ext headers (emitBatch p)) (idle : IdleGateway size s)
    (token : HasToken headers s) :
    let w := windowOf n (placed 0 (Aggregator.run env (.new env) calls).2)
    let r := ingestHandler ext headers (emitBatch p).bytes s
    (r.1.status = 200 ↔
      (touchedIn w).card ≤ ingestChannelCapacity size ∧ (emitBatch p).bytes.length ≤ bodyLimit) ∧
    ((emitBatch p).bytes.length ≤ bodyLimit → ingestChannelCapacity size < (touchedIn w).card →
      r = (statusText 503 "Ingest buffer full. Retry later.", s)) ∧
    (bodyLimit < (emitBatch p).bytes.length → 400 ≤ r.1.status ∧ r.1.status < 500 ∧ r.2 = s) ∧
    (touchedIn w).card ≤ defaultMaxKeys := by
  intro w r
  have hroll : IsRollup w p := batch_isRollup env defaultMaxKeys calls returned
  have hlen : (emitBatch p).workloads.length = (touchedIn w).card := length_workloads hroll
  have hmax : p.workloads.length ≤ defaultMaxKeys :=
    bounded_run env calls (aggregatorInv_new env defaultMaxKeys) (Nat.zero_lt_succ 4095) p
      (List.mem_of_getElem? returned)
  have good : supported (emitBatch p) := ⟨Nat.le_of_ble_eq_true rfl, Nat.le_refl _⟩
  obtain ⟨hok, hfull, habove⟩ := ingestHandler_idle reads idle token good
  rw [hlen] at hok hfull
  exact ⟨hok, hfull, habove, hlen ▸ hmax⟩

/-! ## An exec storm and a small channel -/

/-- Extractors that know the bytes of one batch. -/
def readsOnly (batch : IngestBatch) : Externals :=
  { plainExternals with
    parseBatch := fun _ body =>
      if body.length ≤ bodyLimit then
        if body = batch.bytes then .ok batch
        else .error (statusText 400 "Failed to parse the request body as JSON")
      else .error (statusText 413 "Failed to buffer the request body: length limit exceeded") }

theorem readsOnly_reads (batch : IngestBatch) (headers : Headers) :
    ReadsBatch (readsOnly batch) headers batch where
  within := by
    intro h
    simp [readsOnly, h]
  above := by
    intro h
    refine ⟨statusText 413 "Failed to buffer the request body: length limit exceeded", ?_, by decide,
      by decide⟩
    simp [readsOnly, Nat.not_le_of_lt h]

/-- A gateway just after its first successful ping, without a token. -/
def idleState (size : Nat) : AppState :=
  { stateWith "" [] with
    ingestTx := ⟨[], 0, ingestChannelCapacity size, false⟩
    expectedBearer := none }

theorem idleState_idle (size : Nat) : IdleGateway size (idleState size) := ⟨rfl, rfl, rfl, rfl, rfl⟩

theorem idleState_token (headers : Headers) (size : Nat) : HasToken headers (idleState size) :=
  fun _ h => (by cases h)

/-- The window of one exec is accepted. -/
theorem acceptable_one_exec :
    let env : Env := ⟨id, fun _ => "b"⟩
    ∃ p, batches (Aggregator.run env (.new env) (execs 1 ++ [.flush "n"])).2 = [p] ∧
      (ingestHandler (readsOnly (emitBatch p)) [] (emitBatch p).bytes (idleState 8192)).1.status =
        200 := by
  intro env
  refine ⟨⟨0, 1, "n", "b", agentVersion, [Aggregator.rowOf 0 ⟨1, 0, 0, 0, 0, {}⟩]⟩, rfl, ?_⟩
  refine (acceptable_iff env (execs 1 ++ [.flush "n"]) (n := 0) rfl
    (readsOnly_reads _ []) (idleState_idle 8192) (idleState_token [] 8192)).1.mpr ⟨?_, ?_⟩
  · decide
  · decide +kernel

/-- **A batch that is never accepted.** Execs in 1025 cgroups, and a gateway with the smallest
channel its environment admits. -/
theorem storm_refused :
    let env : Env := ⟨id, fun _ => "b"⟩
    ∃ p, batches (Aggregator.run env (.new env) (execs 1025 ++ [.flush "n"])).2 = [p] ∧
      ReadsBatch (readsOnly (emitBatch p)) [] (emitBatch p) ∧ IdleGateway 1024 (idleState 1024) ∧
      HasToken [] (idleState 1024) ∧
      (ingestHandler (readsOnly (emitBatch p)) [] (emitBatch p).bytes (idleState 1024)).1.status ≠
        200 := by
  intro env
  obtain ⟨p, hp, hlen⟩ := execs_flush env (k := 1025) (by decide) (by decide)
  refine ⟨p, hp, readsOnly_reads _ [], idleState_idle 1024, idleState_token [] 1024, fun h => ?_⟩
  have good : supported (emitBatch p) := ⟨Nat.le_of_ble_eq_true rfl, Nat.le_refl _⟩
  have hfit := ((ingestHandler_idle (readsOnly_reads (emitBatch p) []) (idleState_idle 1024)
    (idleState_token [] 1024) good).1.mp h).1
  have hrows : (emitBatch p).workloads.length = 1025 := hlen
  rw [hrows] at hfit
  exact absurd hfit (by decide)

end Statix.Gateway
