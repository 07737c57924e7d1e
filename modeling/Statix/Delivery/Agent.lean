import Statix.Delivery.Circuit
import Statix.Wal.Fifo

/-!
# Delivery inside the running agent

Model of the hand-offs between the four actors that move a batch:

* the caller of `enqueue_batch_json` (the main task, `statix/src/output.rs:247-302`): `try_send` to
  the retry queue, `try_append` to the WAL channel, `try_lock` with drop-oldest, second `try_send`;
* the retry worker of `init_retry_worker` (`output.rs:117-244`): takes the receiver's lock, receives,
  posts until a final answer;
* the WAL writer thread (`statix/src/wal/writer.rs:19-86`), one whole `append_one` a step;
* the drainer of `spawn_drainer` (`statix/src/wal/drainer.rs:29-98`): the read of the circuit, the
  `has_backlog` or the probe after it, `replay_one` cut at its peek, its send and its commit.

The store's lock is held by the writer for a whole group commit; the drainer's calls need it free.
The agent records the batches handed to `enqueue_batch_json` (when the call returns), delivered, and
discarded with the reason logged.

Two batches can have the same bytes. So that the record tells them apart each batch carries a number
no code reads, and `ahead` keeps the numbers of the store's unread frames beside their payloads.

Out of scope: an append whose repair fails, and one that finds the segment numbers used up. Every
other I/O call of the writer and the drainer may fail. Sleeps and backoff times carry no state.
-/

namespace Statix.Delivery

open Statix.Lib Statix.Wal

variable [Crc32]

/-- `RETRY_QUEUE_CAPACITY`. -/
def retryQueueCapacity : Nat := 60

/-- `APPEND_CHANNEL_CAPACITY`. -/
def appendChannelCapacity : Nat := 256

/-- A batch with its number. -/
structure Numbered where
  id : Nat
  payload : Bytes
  deriving DecidableEq

/-- Numbers the payloads from `n` on. -/
def number : Nat → List Bytes → List Numbered
  | _, [] => []
  | n, p :: ps => ⟨n, p⟩ :: number (n + 1) ps

/-- Why a batch was discarded. -/
inductive Discard where
  /-- The gateway answered with a non-retryable status. -/
  | nonRetryable
  /-- Queue and WAL channel full: the oldest batch of the queue made room. -/
  | dropOldest
  /-- Queue and WAL channel full, and the queue locked or full again: the new batch is dropped. -/
  | dropNew
  /-- Its segment was dropped at the disk cap. -/
  | enforceCap
  /-- `append` failed. -/
  | failedAppend
  deriving DecidableEq

/-- Where a call of `enqueue_batch_json` is. -/
inductive Caller where
  | idle
  /-- `try_send` returned `Full`. -/
  | full (b : Numbered)
  /-- `try_append` gave the payload back. -/
  | spillFailed (b : Numbered)
  /-- With the receiver's lock, after `try_recv`. -/
  | locked (b : Numbered)
  deriving DecidableEq

/-- Where the retry worker is. -/
inductive Worker where
  | idle
  /-- In `recv`, with the receiver's lock. -/
  | receiving
  | posting (b : Numbered)
  /-- Backing off after a retryable failure. -/
  | sleeping (b : Numbered)
  deriving DecidableEq

/-- Where the WAL writer thread is. -/
inductive WriterThread where
  /-- In `blocking_recv`. -/
  | waiting
  /-- `blocking_recv` returned; the store's lock is not taken yet. -/
  | received (b : Numbered)
  /-- With the lock, before `try_recv`. -/
  | holding (sinceSync : Nat)
  /-- With the lock, `try_recv` returned. -/
  | receivedMore (sinceSync : Nat) (b : Numbered)
  /-- With the lock, before the check whether a sync is due. -/
  | appendedMore (sinceSync : Nat)
  deriving DecidableEq

/-- Where the drainer is; `trial` is a replay in the half-open circuit. -/
inductive Drainer where
  /-- Before the match on the circuit state. -/
  | sweeping
  /-- The match read the circuit; the recovery spread or `has_backlog` is next. -/
  | matched (state : CircuitState)
  /-- At the head of the drain loop. -/
  | draining
  /-- In `replay_one`, before the peek. -/
  | peeking (trial : Bool)
  /-- In `replay_one`, before the send. -/
  | peeked (trial : Bool) (b : Numbered)
  /-- In `replay_one`, between the send and the commit. -/
  | sent (trial : Bool) (b : Numbered)
  deriving DecidableEq

/-- The running agent, with the record of what became of the batches. -/
structure Agent where
  queue : List Numbered
  caller : Caller
  worker : Worker
  chan : List Numbered
  writer : WriterThread
  store : Store
  ahead : List Numbered
  drainer : Drainer
  circuit : Circuit
  nextId : Nat
  handed : List Numbered
  delivered : List Numbered
  discarded : List (Discard × Numbered)

/-- The batch in the worker's hand. -/
def Worker.hand : Worker → List Numbered
  | .posting b => [b]
  | .sleeping b => [b]
  | _ => []

/-- The batch the WAL writer took from the channel and has not appended yet. -/
def WriterThread.hand : WriterThread → List Numbered
  | .received b => [b]
  | .receivedMore _ b => [b]
  | _ => []

/-- Whether the writer thread holds the store's lock. -/
def WriterThread.locks : WriterThread → Bool
  | .waiting => false
  | .received _ => false
  | _ => true

/-- The undelivered part of the WAL store. -/
def undelivered (s : Store) : List Bytes := (aheadOf s).map DecodedFrame.payload

/-- How many unread frames `enforce_cap` drops before an append of `p`. -/
def cappedBy (io : Io) (s : Store) (p : Bytes) : Nat :=
  (droppedBy s (enforceCap io s (frameLenOnDisk p.length))).length

/-- `append_one` of `b` by the writer thread, going on to `next`. -/
def Agent.append (a : Agent) (io : Io) (b : Numbered) (next : WriterThread) : Agent :=
  { a with
    store := (appendOne io a.store b.payload).1
    ahead := a.ahead.drop (cappedBy io a.store b.payload) ++
      if (appendOne io a.store b.payload).2 then [b] else []
    discarded := a.discarded ++
      (a.ahead.take (cappedBy io a.store b.payload)).map (fun o => (.enforceCap, o)) ++
      if (appendOne io a.store b.payload).2 then [] else [(.failedAppend, b)]
    writer := next }

/-- The batch of a frame `peek_next` returns. -/
def Agent.peekedBatch (a : Agent) (f : DecodedFrame) : Numbered :=
  ⟨(a.ahead.head?.map Numbered.id).getD 0, f.payload⟩

/-- After `replay_one` in the drain loop the loop goes on, after a trial the sweep ends. -/
def afterReplay (trial : Bool) : Drainer := if trial then .sweeping else .draining

/-- One step of one actor. -/
inductive AgentStep : Agent → Agent → Prop
  -- `enqueue_batch_json`
  | trySend {a : Agent} (p : Bytes) (valid : ValidPayload p) (h : a.caller = .idle)
      (room : a.queue.length < retryQueueCapacity) :
      AgentStep a { a with
        queue := a.queue ++ [⟨a.nextId, p⟩]
        nextId := a.nextId + 1
        handed := a.handed ++ [⟨a.nextId, p⟩] }
  | queueFull {a : Agent} (p : Bytes) (valid : ValidPayload p) (h : a.caller = .idle)
      (full : retryQueueCapacity ≤ a.queue.length) :
      AgentStep a { a with caller := .full ⟨a.nextId, p⟩, nextId := a.nextId + 1 }
  | tryAppend {a : Agent} {b : Numbered} (h : a.caller = .full b)
      (room : a.chan.length < appendChannelCapacity) :
      AgentStep a { a with chan := a.chan ++ [b], handed := a.handed ++ [b], caller := .idle }
  | channelFull {a : Agent} {b : Numbered} (h : a.caller = .full b)
      (full : appendChannelCapacity ≤ a.chan.length) :
      AgentStep a { a with caller := .spillFailed b }
  | queueLocked {a : Agent} {b : Numbered} (h : a.caller = .spillFailed b)
      (locked : a.worker = .receiving) :
      AgentStep a { a with
        discarded := a.discarded ++ [(.dropNew, b)], handed := a.handed ++ [b], caller := .idle }
  | tryLock {a : Agent} {b : Numbered} (h : a.caller = .spillFailed b)
      (free : a.worker ≠ .receiving) :
      AgentStep a { a with
        discarded := a.discarded ++ (a.queue.take 1).map fun o => (.dropOldest, o)
        queue := a.queue.drop 1
        caller := .locked b }
  | resend {a : Agent} {b : Numbered} (h : a.caller = .locked b)
      (room : a.queue.length < retryQueueCapacity) :
      AgentStep a { a with queue := a.queue ++ [b], handed := a.handed ++ [b], caller := .idle }
  | stillFull {a : Agent} {b : Numbered} (h : a.caller = .locked b)
      (full : retryQueueCapacity ≤ a.queue.length) :
      AgentStep a { a with
        discarded := a.discarded ++ [(.dropNew, b)], handed := a.handed ++ [b], caller := .idle }
  -- the retry worker
  | workerLock {a : Agent} (h : a.worker = .idle) (free : ∀ b, a.caller ≠ .locked b) :
      AgentStep a { a with worker := .receiving }
  | workerRecv {a : Agent} {b : Numbered} {rest : List Numbered} (h : a.worker = .receiving)
      (hq : a.queue = b :: rest) : AgentStep a { a with worker := .posting b, queue := rest }
  | success {a : Agent} {b : Numbered} (h : a.worker = .posting b) :
      AgentStep a { a with
        worker := .idle
        delivered := a.delivered ++ [b]
        circuit := a.circuit.recordPostSuccess }
  | retryable {a : Agent} {b : Numbered} (h : a.worker = .posting b) :
      AgentStep a { a with worker := .sleeping b, circuit := a.circuit.recordPostFailure }
  | wake {a : Agent} {b : Numbered} (h : a.worker = .sleeping b) :
      AgentStep a { a with worker := .posting b }
  | nonRetryable {a : Agent} {b : Numbered} (h : a.worker = .posting b) :
      AgentStep a { a with
        worker := .idle
        discarded := a.discarded ++ [(.nonRetryable, b)]
        circuit := a.circuit.recordPostSuccess }
  -- the WAL writer thread
  | writerRecv {a : Agent} {b : Numbered} {rest : List Numbered} (h : a.writer = .waiting)
      (hc : a.chan = b :: rest) : AgentStep a { a with writer := .received b, chan := rest }
  | appendFirst {a : Agent} {b : Numbered} (io : Io) (repairs : io.Repairs)
      (number : NumbersLeft a.store) (h : a.writer = .received b) :
      AgentStep a (a.append io b (.holding 1))
  | writerTryRecv {a : Agent} {n : Nat} {b : Numbered} {rest : List Numbered}
      (h : a.writer = .holding n) (hc : a.chan = b :: rest) :
      AgentStep a { a with writer := .receivedMore n b, chan := rest }
  | appendMore {a : Agent} {n : Nat} {b : Numbered} (io : Io) (repairs : io.Repairs)
      (number : NumbersLeft a.store) (h : a.writer = .receivedMore n b) :
      AgentStep a (a.append io b (.appendedMore (n + 1)))
  | syncDue {a : Agent} {n : Nat} (io : Io) (elapsed : Bool) (h : a.writer = .appendedMore n)
      (due : (n ≥ a.store.cfg.fsyncFrames || elapsed) = true) :
      AgentStep a { a with store := syncActive io a.store, writer := .holding 0 }
  | syncNotDue {a : Agent} {n : Nat} (elapsed : Bool) (h : a.writer = .appendedMore n)
      (notDue : (n ≥ a.store.cfg.fsyncFrames || elapsed) = false) :
      AgentStep a { a with writer := .holding n }
  | groupDone {a : Agent} {n : Nat} (io : Io) (h : a.writer = .holding n) (empty : a.chan = []) :
      AgentStep a { a with
        store := if n > 0 then syncActive io a.store else a.store
        writer := .waiting }
  -- the drainer
  | sweep {a : Agent} (h : a.drainer = .sweeping) :
      AgentStep a { a with drainer := .matched a.circuit.state }
  | probe {a : Agent} (h : a.drainer = .matched .opened) :
      AgentStep a { a with drainer := .sweeping, circuit := a.circuit.tryHalfOpen }
  | trial {a : Agent} (h : a.drainer = .matched .halfOpen) (free : a.writer.locks = false)
      (backlog : hasBacklog a.store = true) : AgentStep a { a with drainer := .peeking true }
  | drain {a : Agent} (h : a.drainer = .matched .closed) (free : a.writer.locks = false)
      (backlog : hasBacklog a.store = true) : AgentStep a { a with drainer := .draining }
  | noBacklog {a : Agent} {state : CircuitState} (h : a.drainer = .matched state)
      (other : state ≠ .opened) (free : a.writer.locks = false)
      (backlog : hasBacklog a.store = false) : AgentStep a { a with drainer := .sweeping }
  | drainPause {a : Agent} (h : a.drainer = .draining)
      (gate : retryQueueCapacity ≤ a.queue.length ∨ a.circuit.state ≠ .closed) :
      AgentStep a { a with drainer := .sweeping }
  | drainGo {a : Agent} (h : a.drainer = .draining) (room : a.queue.length < retryQueueCapacity)
      (closed : a.circuit.state = .closed) : AgentStep a { a with drainer := .peeking false }
  | peekFrame {a : Agent} {trial : Bool} {f : DecodedFrame} (io : Io)
      (h : a.drainer = .peeking trial) (free : a.writer.locks = false)
      (hf : (peekNext io a.store).2 = .frame f) :
      AgentStep a { a with
        store := (peekNext io a.store).1
        drainer := .peeked trial (a.peekedBatch f) }
  | peekEmpty {a : Agent} {trial : Bool} (io : Io) (h : a.drainer = .peeking trial)
      (free : a.writer.locks = false) (hf : ∀ f, (peekNext io a.store).2 ≠ .frame f) :
      AgentStep a { a with store := (peekNext io a.store).1, drainer := .sweeping }
  | replaySend {a : Agent} {trial : Bool} {b : Numbered} (h : a.drainer = .peeked trial b)
      (room : a.queue.length < retryQueueCapacity) :
      AgentStep a { a with queue := a.queue ++ [b], drainer := .sent trial b }
  | noCapacity {a : Agent} {trial : Bool} {b : Numbered} (h : a.drainer = .peeked trial b)
      (full : retryQueueCapacity ≤ a.queue.length) : AgentStep a { a with drainer := .sweeping }
  | replayCommit {a : Agent} {trial : Bool} {b : Numbered} (h : a.drainer = .sent trial b)
      (free : a.writer.locks = false) :
      AgentStep a { a with
        store := commitPending a.store
        ahead := if a.store.pendingAdvance = none then a.ahead else a.ahead.tail
        drainer := afterReplay trial }

/-- The agent after `init_retry_worker` and `init_wal` with a recovered store, whose frames come
first in the numbering. -/
def Agent.start (s : Store) : Agent where
  queue := []
  caller := .idle
  worker := .idle
  chan := []
  writer := .waiting
  store := s
  ahead := number 0 (undelivered s)
  drainer := .sweeping
  circuit := .start
  nextId := (undelivered s).length
  handed := []
  delivered := []
  discarded := []

end Statix.Delivery
