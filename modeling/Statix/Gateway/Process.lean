import Statix.Gateway.Serving

/-!
# The gateway process

Model of the whole gateway from startup to exit: the handler of `POST /ingest` with its permits
(`statix-gateway/src/routes/ingest.rs`), the writer task with its final drain
(`statix-gateway/src/clickhouse_writer.rs`), `main` with its shutdown and the depth sampler
(`statix-gateway/src/main.rs`).

* Two rows can be equal. So that the record tells them apart each row carries the number of its
  request and its place in the batch, which no code reads.
* Every `Sender` of the ingest channel has an owner: the `ChWriter` of `main`, the `AppState` of the
  router, a handler, the depth sampler. The channel is closed for the receiver when none is left.
* `serve` returns when no handler runs any more. Requests that came in before are still served after
  the signal.
* When `main` returns, everything stops.
* The gateway records the rows in the order they were sent, the batches passed to
  `flush_with_retry`, and the rows whose insert returned `Ok` or that were counted as dropped.

`Process.server` forgets the numbers and the shutdown; `server_step` says that what is left is the
gateway of `Serving`.
-/

namespace Statix.Gateway

open Statix.Rollup

/-- A row with the number of its request and its place in the batch. -/
structure Tagged where
  request : Nat
  index : Nat
  row : MetricRow
  deriving DecidableEq

/-- The rows of a batch. -/
def rowsOf (id : Nat) (batch : IngestBatch) : List Tagged :=
  batch.workloads.zipIdx.map fun (w, i) => ⟨id, i, .fromIngest batch w⟩

/-! ## Configuration -/

/-- `ingest_channel_capacity`, where `size` is what the environment says. -/
def ingestChannelCapacity (size : Nat) : Nat := max size 1024

/-- `read_batch_max`. -/
def readBatchMax (size : Nat) : Nat := max 64 (min size 16384)

/-! ## State -/

/-- The answers of the handler of `POST /ingest`. -/
inductive Answer where
  /-- `ingest_inner` answered, the channel being open. -/
  | inner (response : Response)
  /-- The bearer token is missing or wrong. -/
  | unauthorized
  /-- The receiver is gone. -/
  | writerUnavailable
  deriving DecidableEq

/-- The status code. -/
def Answer.status : Answer → Nat
  | .inner response => response.status
  | .unauthorized => 401
  | .writerUnavailable => 503

/-- The text. -/
def Answer.body : Answer → String
  | .inner response => response.body
  | .unauthorized => ""
  | .writerUnavailable => "Writer unavailable."

/-- Where a request is. -/
inductive Call where
  /-- Authorized, before the checks. -/
  | arrived (id : Nat) (batch : IngestBatch)
  /-- `ch_healthy` was true. -/
  | checked (id : Nat) (batch : IngestBatch)
  /-- In the loop over the workloads: `sent` of them are sent, and the permit iterator has `permits`
  left. -/
  | sending (id : Nat) (batch : IngestBatch) (sent permits : Nat)

/-- The number of the request. -/
def Call.id : Call → Nat
  | .arrived id _ => id
  | .checked id _ => id
  | .sending id _ _ _ => id

/-- The permits it holds. -/
def Call.permits : Call → Nat
  | .sending _ _ _ permits => permits
  | _ => 0

/-- What the writer task does after a flush. -/
inductive AfterFlush where
  /-- Back to `fill_batch`. -/
  | fill
  /-- Back to the loop of `drain_final`. -/
  | drain
  /-- `drain_final` returns. -/
  | finish
  deriving DecidableEq

/-- Where the writer task is. -/
inductive Writing where
  | pinging
  | receiving
  | filling (batch : List Tagged)
  | flushing (batch : List Tagged) (attempt : Nat) (next : AfterFlush)
  /-- In the loop of `drain_final`. -/
  | draining (batch : List Tagged)
  /-- The task has ended, and the receiver is gone. -/
  | ended

/-- The rows the writer task has received and not passed to `flush_with_retry`. -/
def Writing.unflushed : Writing → List Tagged
  | .filling batch => batch
  | .draining batch => batch
  | _ => []

/-- The rows in `flush_with_retry`. -/
def Writing.inFlush : Writing → List Tagged
  | .flushing batch _ _ => batch
  | _ => []

/-- The writer's current batch. -/
def Writing.batch (w : Writing) : List Tagged := w.unflushed ++ w.inFlush

/-- Where the writer task goes on. -/
def AfterFlush.writing : AfterFlush → Writing
  | .fill => .receiving
  | .drain => .draining []
  | .finish => .ended

/-- Where `main` is. -/
inductive MainTask where
  | serving
  /-- A signal came; the handlers that run are waited for. -/
  | stopping
  /-- `serve` has returned. -/
  | served
  /-- `ChWriter::shutdown` has dropped its sender and waits for the task. -/
  | waiting
  /-- Returned, the writer drained. -/
  | drained
  /-- Returned after the timeout. -/
  | timedOut
  deriving DecidableEq

/-- Whether requests can come in. -/
def MainTask.accepts : MainTask → Bool
  | .serving => true
  | .stopping => true
  | _ => false

/-- Whether the process runs. -/
def MainTask.runs : MainTask → Bool
  | .drained => false
  | .timedOut => false
  | _ => true

/-- The task of `spawn_mpsc_depth_sampler`: a loop without an exit. -/
inductive Sampler where
  | spawned
  | looping
  deriving DecidableEq

/-- The owner of a `Sender` of the ingest channel. -/
inductive Owner where
  | chWriter
  | appState
  | handler (id : Nat)
  | depthSampler
  deriving DecidableEq

/-- The senders of `main` and of the router it serves. -/
def MainTask.senders : MainTask → List Owner
  | .serving => [.chWriter, .appState]
  | .stopping => [.chWriter, .appState]
  | .served => [.chWriter]
  | _ => []

/-- The sampler's clone was moved into its task. -/
def Sampler.senders : Sampler → List Owner
  | .spawned => [.depthSampler]
  | .looping => [.depthSampler]

/-- The gateway process. -/
structure Process where
  capacity : Nat
  batchMax : Nat
  expectedBearer : Option String
  healthy : Bool
  queue : List Tagged
  calls : List Call
  writer : Writing
  main : MainTask
  sampler : Sampler
  mpscDepth : Nat
  nextId : Nat
  answers : List (Nat × IngestBatch × Answer)
  panics : Nat
  sent : List Tagged
  flushed : List (List Tagged)
  inserted : List Tagged
  dropped : List Tagged

namespace Process

/-- The slots taken, by rows in the channel and by permits. -/
def used (g : Process) : Nat := g.queue.length + (g.calls.map Call.permits).sum

/-- The senders that are alive. -/
def senders (g : Process) : List Owner :=
  g.main.senders ++ g.calls.map (fun c => .handler c.id) ++ g.sampler.senders

/-- The channel is closed for the receiver. -/
def closed (g : Process) : Prop := g.senders = []

/-- The check of the bearer token. -/
def authorized (g : Process) (authorization : Option String) : Prop :=
  g.expectedBearer = none ∨ authorization = g.expectedBearer

/-- A call ends with an answer. -/
def answer (g : Process) (pre post : List Call) (id : Nat) (batch : IngestBatch) (a : Answer) :
    Process :=
  { g with calls := pre ++ post, answers := g.answers ++ [(id, batch, a)] }

/-- The writer task passes a batch to `flush_with_retry`. -/
def flush (g : Process) (batch : List Tagged) (next : AfterFlush) : Process :=
  { g with writer := .flushing batch 0 next, flushed := g.flushed ++ [batch] }

/-- The rest of a `drain_final` turn that received rows. -/
def drained (g : Process) (batch : List Tagged) : Process :=
  if batch.length ≥ g.batchMax then g.flush batch .drain else { g with writer := .draining batch }

end Process

/-! ## Steps -/

/-- One step of one task. -/
inductive TaskStep : Process → Process → Prop
  -- `handler` and `ingest_inner`
  | arrive {g : Process} (batch : IngestBatch) (authorization : Option String)
      (h : g.main.accepts = true) (auth : g.authorized authorization) :
      TaskStep g { g with calls := g.calls ++ [.arrived g.nextId batch], nextId := g.nextId + 1 }
  | reject {g : Process} (batch : IngestBatch) (authorization : Option String)
      (h : g.main.accepts = true) (auth : ¬g.authorized authorization) :
      TaskStep g { g with
        answers := g.answers ++ [(g.nextId, batch, .unauthorized)], nextId := g.nextId + 1 }
  | badSchema {g : Process} {pre post : List Call} {id : Nat} {batch : IngestBatch}
      (h : g.calls = pre ++ .arrived id batch :: post) (bad : ¬supported batch) :
      TaskStep g (g.answer pre post id batch (.inner (.unsupportedSchema batch.schemaVersion)))
  | unhealthy {g : Process} {pre post : List Call} {id : Nat} {batch : IngestBatch}
      (h : g.calls = pre ++ .arrived id batch :: post) (good : supported batch)
      (flag : g.healthy = false) : TaskStep g (g.answer pre post id batch (.inner .unavailable))
  | check {g : Process} {pre post : List Call} {id : Nat} {batch : IngestBatch}
      (h : g.calls = pre ++ .arrived id batch :: post) (good : supported batch)
      (flag : g.healthy = true) :
      TaskStep g { g with calls := pre ++ .checked id batch :: post }
  | empty {g : Process} {pre post : List Call} {id : Nat} {batch : IngestBatch}
      (h : g.calls = pre ++ .checked id batch :: post) (none : batch.workloads = []) :
      TaskStep g (g.answer pre post id batch (.inner .ok))
  | reserve {g : Process} {pre post : List Call} {id : Nat} {batch : IngestBatch}
      (h : g.calls = pre ++ .checked id batch :: post) (some : batch.workloads ≠ [])
      (alive : g.writer ≠ .ended) (room : g.used + batch.workloads.length ≤ g.capacity) :
      TaskStep g { g with calls := pre ++ .sending id batch 0 batch.workloads.length :: post }
  | full {g : Process} {pre post : List Call} {id : Nat} {batch : IngestBatch}
      (h : g.calls = pre ++ .checked id batch :: post) (some : batch.workloads ≠ [])
      (alive : g.writer ≠ .ended) (noRoom : g.capacity < g.used + batch.workloads.length) :
      TaskStep g (g.answer pre post id batch (.inner .bufferFull))
  | gone {g : Process} {pre post : List Call} {id : Nat} {batch : IngestBatch}
      (h : g.calls = pre ++ .checked id batch :: post) (some : batch.workloads ≠ [])
      (ended : g.writer = .ended) : TaskStep g (g.answer pre post id batch .writerUnavailable)
  | send {g : Process} {pre post : List Call} {id : Nat} {batch : IngestBatch} {sent permits : Nat}
      (h : g.calls = pre ++ .sending id batch sent (permits + 1) :: post)
      (more : sent < batch.workloads.length) :
      TaskStep g { g with
        queue := g.queue ++ [⟨id, sent, .fromIngest batch batch.workloads[sent]⟩]
        sent := g.sent ++ [⟨id, sent, .fromIngest batch batch.workloads[sent]⟩]
        calls := pre ++ .sending id batch (sent + 1) permits :: post }
  | panic {g : Process} {pre post : List Call} {id : Nat} {batch : IngestBatch} {sent : Nat}
      (h : g.calls = pre ++ .sending id batch sent 0 :: post)
      (more : sent < batch.workloads.length) :
      TaskStep g { g with calls := pre ++ post, panics := g.panics + 1 }
  | sent {g : Process} {pre post : List Call} {id : Nat} {batch : IngestBatch} {sent permits : Nat}
      (h : g.calls = pre ++ .sending id batch sent permits :: post)
      (all : batch.workloads.length ≤ sent) : TaskStep g (g.answer pre post id batch (.inner .ok))
  -- `ping_ready`
  | ping {g : Process} (ok : Bool) (h : g.writer = .pinging) :
      TaskStep g { g with healthy := ok, writer := .receiving }
  -- `fill_batch`
  | recv {g : Process} {t : Tagged} {rest : List Tagged} (h : g.writer = .receiving)
      (hq : g.queue = t :: rest) : TaskStep g { g with writer := .filling [t], queue := rest }
  | recvNone {g : Process} (h : g.writer = .receiving) (hq : g.queue = []) (closed : g.closed) :
      TaskStep g { g with writer := .draining [] }
  | recvMany {g : Process} {batch : List Tagged} (n : Nat) (h : g.writer = .filling batch)
      (some : 0 < n) (room : n ≤ g.batchMax - batch.length) (there : n ≤ g.queue.length) :
      TaskStep g { g with
        writer := .filling (batch ++ g.queue.take n), queue := g.queue.drop n }
  | recvManyNone {g : Process} {batch : List Tagged} (h : g.writer = .filling batch)
      (room : batch.length < g.batchMax) (hq : g.queue = []) (closed : g.closed) :
      TaskStep g (g.flush batch .fill)
  | linger {g : Process} {batch : List Tagged} (h : g.writer = .filling batch)
      (room : batch.length < g.batchMax) : TaskStep g (g.flush batch .fill)
  | filled {g : Process} {batch : List Tagged} (h : g.writer = .filling batch)
      (full : g.batchMax ≤ batch.length) : TaskStep g (g.flush batch .fill)
  -- `drain_final`
  | drainFull {g : Process} {batch : List Tagged} (h : g.writer = .draining batch)
      (full : g.batchMax ≤ batch.length) : TaskStep g (g.flush batch .drain)
  | drainMany {g : Process} {batch : List Tagged} (n : Nat) (h : g.writer = .draining batch)
      (some : 0 < n) (room : n ≤ g.batchMax - batch.length) (there : n ≤ g.queue.length) :
      TaskStep g ({ g with queue := g.queue.drop n }.drained (batch ++ g.queue.take n))
  | drainLast {g : Process} {batch : List Tagged} (h : g.writer = .draining batch)
      (room : batch.length < g.batchMax) (hq : g.queue = []) (closed : g.closed)
      (some : batch ≠ []) : TaskStep g (g.flush batch .finish)
  | drainEnd {g : Process} (h : g.writer = .draining []) (room : 0 < g.batchMax)
      (hq : g.queue = []) (closed : g.closed) : TaskStep g { g with writer := .ended }
  -- `flush_with_retry`
  | insertOk {g : Process} {batch : List Tagged} {attempt : Nat} {next : AfterFlush}
      (h : g.writer = .flushing batch attempt next) :
      TaskStep g { g with
        healthy := true, writer := next.writing, inserted := g.inserted ++ batch }
  | insertFailed {g : Process} {batch : List Tagged} {attempt : Nat} {next : AfterFlush}
      (h : g.writer = .flushing batch attempt next) (more : attempt + 1 < maxInsertRetries) :
      TaskStep g { g with healthy := false, writer := .flushing batch (attempt + 1) next }
  | budgetExhausted {g : Process} {batch : List Tagged} {attempt : Nat} {next : AfterFlush}
      (h : g.writer = .flushing batch attempt next) (last : maxInsertRetries ≤ attempt + 1) :
      TaskStep g { g with
        healthy := false, writer := next.writing, dropped := g.dropped ++ batch }
  -- `spawn_mpsc_depth_sampler`
  | sample {g : Process} :
      TaskStep g { g with
        sampler := .looping, mpscDepth := g.capacity - (g.capacity - g.used) }
  -- `main`
  | signal {g : Process} (h : g.main = .serving) : TaskStep g { g with main := .stopping }
  | serveReturns {g : Process} (h : g.main = .stopping) (idle : g.calls = []) :
      TaskStep g { g with main := .served }
  | dropSender {g : Process} (h : g.main = .served) : TaskStep g { g with main := .waiting }
  | joined {g : Process} (h : g.main = .waiting) (ended : g.writer = .ended) :
      TaskStep g { g with main := .drained }
  | timeout {g : Process} (h : g.main = .waiting) : TaskStep g { g with main := .timedOut }

/-- One step of the running process. -/
def ProcessStep (g g' : Process) : Prop := g.main.runs = true ∧ TaskStep g g'

/-- The gateway at startup, with what the environment says. -/
def Process.start (channelSize batchSize : Nat) (expectedBearer : Option String) : Process where
  capacity := ingestChannelCapacity channelSize
  batchMax := readBatchMax batchSize
  expectedBearer := expectedBearer
  healthy := false
  queue := []
  calls := []
  writer := .pinging
  main := .serving
  sampler := .spawned
  mpscDepth := 0
  nextId := 0
  answers := []
  panics := 0
  sent := []
  flushed := []
  inserted := []
  dropped := []

end Statix.Gateway
