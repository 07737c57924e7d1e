import Mathlib.Logic.Relation
import Statix.Rollup.Storage

/-!
# The gateway while it serves

Model of `ingest_inner` (`statix-gateway/src/routes/ingest.rs`) and of the writer task of
`spawn_writer` (`statix-gateway/src/clickhouse_writer.rs`), which share the bounded ingest channel
and the `ch_healthy` flag.

* Handlers run in parallel. A step of one is one access to what they share: the load of the flag,
  `try_reserve_many`, one `send`.
* The writer task pings, then fills a batch and flushes it with retries, again and again. What the
  ping and each insert answer, and when the linger time is over, is left open.
* Waiting times, the backoff and the metrics carry no state. Authorization comes before
  `ingest_inner`.
* The gateway records the answers to requests and the rows inserted and dropped.

The steps of a shutdown are not among these.
-/

namespace Statix.Gateway

open Statix.Rollup

/-- `MIN_SCHEMA_VERSION`. -/
def minSchemaVersion : Nat := 2

/-- `MAX_SCHEMA_VERSION`. -/
def maxSchemaVersion : Nat := 4

/-- `MAX_INSERT_RETRIES`. -/
def maxInsertRetries : Nat := 5

/-- The answers of `ingest_inner` while the channel is open. -/
inductive Response where
  | ok
  | unsupportedSchema (version : Nat)
  | unavailable
  | bufferFull
  deriving DecidableEq

/-- The status code of an answer. -/
def Response.status : Response → Nat
  | .ok => 200
  | .unsupportedSchema _ => 400
  | .unavailable => 503
  | .bufferFull => 503

/-- The text of an answer. -/
def Response.body : Response → String
  | .ok => ""
  | .unsupportedSchema version =>
      "Unsupported schema_version=" ++ toString version ++ ". Expected " ++
        toString minSchemaVersion ++ "..=" ++ toString maxSchemaVersion ++ "."
  | .unavailable => "ClickHouse unavailable; retry later."
  | .bufferFull => "Ingest buffer full. Retry later."

/-- Where a call of `ingest_inner` is. -/
inductive Handler where
  /-- Before the checks. -/
  | arrived (batch : IngestBatch)
  /-- `ch_healthy` was true. -/
  | checked (batch : IngestBatch)
  /-- Permits reserved for the rows `rest` that are still to be sent. -/
  | sending (batch : IngestBatch) (rest : List WorkloadRow)

/-- The permits a handler holds. -/
def Handler.reserved : Handler → Nat
  | .sending _ rest => rest.length
  | _ => 0

/-- Where the writer task is. -/
inductive WriterTask where
  /-- In `ping_ready`. -/
  | pinging
  /-- In `fill_batch`, waiting for the first row. -/
  | receiving
  /-- In `fill_batch`, with at least one row. -/
  | filling (batch : List MetricRow)
  /-- In `flush_with_retry`, after `attempt` failed inserts. -/
  | flushing (batch : List MetricRow) (attempt : Nat)

/-- The rows the writer task holds. -/
def WriterTask.batch : WriterTask → List MetricRow
  | .filling batch => batch
  | .flushing batch _ => batch
  | _ => []

/-- The gateway. -/
structure Server where
  capacity : Nat
  batchMax : Nat
  healthy : Bool
  queue : List MetricRow
  handlers : List Handler
  writer : WriterTask
  answers : List (IngestBatch × Response)
  inserted : List MetricRow
  dropped : List MetricRow

/-- The permits all handlers hold. -/
def Server.reserved (x : Server) : Nat := (x.handlers.map Handler.reserved).sum

/-- A slot is taken by a row in the channel or by a reserved permit. -/
def Server.used (x : Server) : Nat := x.queue.length + x.reserved

/-- The versions the gateway takes. -/
def supported (batch : IngestBatch) : Prop :=
  minSchemaVersion ≤ batch.schemaVersion ∧ batch.schemaVersion ≤ maxSchemaVersion

instance (batch : IngestBatch) : Decidable (supported batch) :=
  inferInstanceAs (Decidable (_ ∧ _))

/-- What a step is about. -/
inductive Event where
  | request
  | fill
  | pingOk
  | pingFailed
  | inserted
  | insertFailed
  | budgetExhausted
  deriving DecidableEq

/-- A handler ends with an answer. -/
def Server.answer (x : Server) (pre post : List Handler) (batch : IngestBatch) (r : Response) :
    Server :=
  { x with handlers := pre ++ post, answers := x.answers ++ [(batch, r)] }

/-- One step. -/
inductive ServeStep : Event → Server → Server → Prop
  -- `ingest_inner`
  | arrive {x : Server} (batch : IngestBatch) :
      ServeStep .request x { x with handlers := x.handlers ++ [.arrived batch] }
  | badSchema {x : Server} {pre post : List Handler} {batch : IngestBatch}
      (h : x.handlers = pre ++ .arrived batch :: post) (bad : ¬supported batch) :
      ServeStep .request x (x.answer pre post batch (.unsupportedSchema batch.schemaVersion))
  | unhealthy {x : Server} {pre post : List Handler} {batch : IngestBatch}
      (h : x.handlers = pre ++ .arrived batch :: post) (good : supported batch)
      (flag : x.healthy = false) : ServeStep .request x (x.answer pre post batch .unavailable)
  | check {x : Server} {pre post : List Handler} {batch : IngestBatch}
      (h : x.handlers = pre ++ .arrived batch :: post) (good : supported batch)
      (flag : x.healthy = true) :
      ServeStep .request x { x with handlers := pre ++ .checked batch :: post }
  | empty {x : Server} {pre post : List Handler} {batch : IngestBatch}
      (h : x.handlers = pre ++ .checked batch :: post) (none : batch.workloads = []) :
      ServeStep .request x (x.answer pre post batch .ok)
  | reserve {x : Server} {pre post : List Handler} {batch : IngestBatch}
      (h : x.handlers = pre ++ .checked batch :: post) (some : batch.workloads ≠ [])
      (room : x.used + batch.workloads.length ≤ x.capacity) :
      ServeStep .request x { x with handlers := pre ++ .sending batch batch.workloads :: post }
  | full {x : Server} {pre post : List Handler} {batch : IngestBatch}
      (h : x.handlers = pre ++ .checked batch :: post) (some : batch.workloads ≠ [])
      (noRoom : x.capacity < x.used + batch.workloads.length) :
      ServeStep .request x (x.answer pre post batch .bufferFull)
  | send {x : Server} {pre post : List Handler} {batch : IngestBatch} {w : WorkloadRow}
      {rest : List WorkloadRow} (h : x.handlers = pre ++ .sending batch (w :: rest) :: post) :
      ServeStep .request x { x with
        queue := x.queue ++ [.fromIngest batch w]
        handlers := pre ++ .sending batch rest :: post }
  | sent {x : Server} {pre post : List Handler} {batch : IngestBatch}
      (h : x.handlers = pre ++ .sending batch [] :: post) :
      ServeStep .request x (x.answer pre post batch .ok)
  -- `ping_ready`
  | pingOk {x : Server} (h : x.writer = .pinging) :
      ServeStep .pingOk x { x with healthy := true, writer := .receiving }
  | pingFailed {x : Server} (h : x.writer = .pinging) :
      ServeStep .pingFailed x { x with healthy := false, writer := .receiving }
  -- `fill_batch`
  | recv {x : Server} {r : MetricRow} {rest : List MetricRow} (h : x.writer = .receiving)
      (hq : x.queue = r :: rest) :
      ServeStep .fill x { x with writer := .filling [r], queue := rest }
  | recvMany {x : Server} {batch : List MetricRow} (n : Nat) (h : x.writer = .filling batch)
      (some : 0 < n) (room : n ≤ x.batchMax - batch.length) (there : n ≤ x.queue.length) :
      ServeStep .fill x { x with
        writer := .filling (batch ++ x.queue.take n), queue := x.queue.drop n }
  | linger {x : Server} {batch : List MetricRow} (h : x.writer = .filling batch)
      (room : batch.length < x.batchMax) : ServeStep .fill x { x with writer := .flushing batch 0 }
  | filled {x : Server} {batch : List MetricRow} (h : x.writer = .filling batch)
      (full : x.batchMax ≤ batch.length) : ServeStep .fill x { x with writer := .flushing batch 0 }
  -- `flush_with_retry`
  | insertOk {x : Server} {batch : List MetricRow} {attempt : Nat}
      (h : x.writer = .flushing batch attempt) :
      ServeStep .inserted x { x with
        healthy := true, writer := .receiving, inserted := x.inserted ++ batch }
  | insertFailed {x : Server} {batch : List MetricRow} {attempt : Nat}
      (h : x.writer = .flushing batch attempt) (more : attempt + 1 < maxInsertRetries) :
      ServeStep .insertFailed x { x with
        healthy := false, writer := .flushing batch (attempt + 1) }
  | budgetExhausted {x : Server} {batch : List MetricRow} {attempt : Nat}
      (h : x.writer = .flushing batch attempt) (last : maxInsertRetries ≤ attempt + 1) :
      ServeStep .budgetExhausted x { x with
        healthy := false, writer := .receiving, dropped := x.dropped ++ batch }

/-- The gateway at startup. -/
def Server.start (capacity batchMax : Nat) : Server :=
  ⟨capacity, batchMax, false, [], [], .pinging, [], [], []⟩

end Statix.Gateway
