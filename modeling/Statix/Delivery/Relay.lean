import Statix.Delivery.NoLoss

/-!
# The drainer, one shared access at a time

A finer model of the drainer task (`statix/src/wal/drainer.rs:29-98`) and of what can happen between
any two of its accesses to shared state. The agent of `Agent.lean` takes the two reads at the head of
the drain loop together, and each call on the circuit as one step; here every load, store, lock and
channel operation of `spawn_drainer`, `replay_one`, `try_half_open`, `record_post_success` and
`record_post_failure` is a step of its own.

* `DrainerStep`: the drainer.
* `OtherStep`: the retry worker's POST outcomes, which may come at any time, both ends of the retry
  queue, and the WAL writer thread, with any outcome of its I/O calls.
* **`relay_of_agent`**: every run of the agent is a run of this model.
-/

namespace Statix.Delivery

open Statix.Lib Statix.Wal

variable [Crc32]

/-! ## The model -/

/-- Where the drainer is. -/
inductive RelayPhase where
  /-- In the sleep before a sweep. -/
  | sleeping
  /-- The match read the circuit; the recovery spread or `has_backlog` is next. -/
  | matched (state : CircuitState)
  /-- In `try_half_open`, which read the circuit open. -/
  | probing
  /-- At the head of the drain loop. -/
  | draining
  /-- The queue had capacity; the circuit is read next. -/
  | roomSeen
  /-- In `replay_one`, before the peek; `trial` in the half-open branch. -/
  | peeking (trial : Bool)
  /-- In `replay_one`, before the send. -/
  | peeked (trial : Bool) (f : DecodedFrame)
  /-- In `replay_one`, between the send and the commit. -/
  | sent (trial : Bool) (f : DecodedFrame)
  deriving DecidableEq

/-- Where the retry worker is in recording a POST outcome. -/
inductive Recording where
  | idle
  /-- In `record_post_success`, before the load. -/
  | success
  /-- In `record_post_success`, before the store. -/
  | closing
  /-- In `record_post_failure` at the threshold, before the load. -/
  | failure
  /-- In `record_post_failure`, before the store. -/
  | opening
  deriving DecidableEq

/-- The drainer and what it shares with the others. -/
structure Relay where
  store : Store
  /-- The WAL writer thread holds the store's lock. -/
  locked : Bool
  queue : List Bytes
  circuit : Circuit
  recording : Recording
  drainer : RelayPhase

/-- After `replay_one` in the drain loop the loop goes on, after a trial the sweep ends. -/
def RelayPhase.afterReplay (trial : Bool) : RelayPhase := if trial then .sleeping else .draining

/-- A step of the drainer. -/
inductive DrainerStep : Relay → Relay → Prop
  | wake {r : Relay} (h : r.drainer = .sleeping) :
      DrainerStep r { r with drainer := .matched r.circuit.state }
  -- the open branch
  | loadOpen {r : Relay} (h : r.drainer = .matched .opened) (state : r.circuit.state = .opened) :
      DrainerStep r { r with drainer := .probing }
  | loadOther {r : Relay} (h : r.drainer = .matched .opened) (state : r.circuit.state ≠ .opened) :
      DrainerStep r { r with drainer := .sleeping }
  | storeHalfOpen {r : Relay} (h : r.drainer = .probing) :
      DrainerStep r { r with
        drainer := .sleeping
        circuit := { r.circuit with state := .halfOpen } }
  -- the other two
  | trial {r : Relay} (h : r.drainer = .matched .halfOpen) (free : r.locked = false)
      (backlog : hasBacklog r.store = true) : DrainerStep r { r with drainer := .peeking true }
  | drain {r : Relay} (h : r.drainer = .matched .closed) (free : r.locked = false)
      (backlog : hasBacklog r.store = true) : DrainerStep r { r with drainer := .draining }
  | noBacklog {r : Relay} {state : CircuitState} (h : r.drainer = .matched state)
      (other : state ≠ .opened) (free : r.locked = false) (backlog : hasBacklog r.store = false) :
      DrainerStep r { r with drainer := .sleeping }
  | capacity {r : Relay} (h : r.drainer = .draining) (room : r.queue.length < retryQueueCapacity) :
      DrainerStep r { r with drainer := .roomSeen }
  | noRoom {r : Relay} (h : r.drainer = .draining) (full : retryQueueCapacity ≤ r.queue.length) :
      DrainerStep r { r with drainer := .sleeping }
  | goOn {r : Relay} (h : r.drainer = .roomSeen) (state : r.circuit.state = .closed) :
      DrainerStep r { r with drainer := .peeking false }
  | pause {r : Relay} (h : r.drainer = .roomSeen) (state : r.circuit.state ≠ .closed) :
      DrainerStep r { r with drainer := .sleeping }
  -- `replay_one`
  | peekFrame {r : Relay} {trial : Bool} {f : DecodedFrame} (io : Io)
      (h : r.drainer = .peeking trial) (free : r.locked = false)
      (hf : (peekNext io r.store).2 = .frame f) :
      DrainerStep r { r with store := (peekNext io r.store).1, drainer := .peeked trial f }
  | peekEmpty {r : Relay} {trial : Bool} (io : Io) (h : r.drainer = .peeking trial)
      (free : r.locked = false) (hf : ∀ f, (peekNext io r.store).2 ≠ .frame f) :
      DrainerStep r { r with store := (peekNext io r.store).1, drainer := .sleeping }
  | send {r : Relay} {trial : Bool} {f : DecodedFrame} (h : r.drainer = .peeked trial f)
      (room : r.queue.length < retryQueueCapacity) :
      DrainerStep r { r with queue := r.queue ++ [f.payload], drainer := .sent trial f }
  | noCapacity {r : Relay} {trial : Bool} {f : DecodedFrame} (h : r.drainer = .peeked trial f)
      (full : retryQueueCapacity ≤ r.queue.length) : DrainerStep r { r with drainer := .sleeping }
  | commit {r : Relay} {trial : Bool} {f : DecodedFrame} (h : r.drainer = .sent trial f)
      (free : r.locked = false) :
      DrainerStep r { r with store := commitPending r.store, drainer := .afterReplay trial }

/-- Which appends the WAL writer makes, with what outcome of their I/O calls. -/
abbrev AppendGuard := Store → Io → Bytes → Prop

/-- A payload of a valid length, a repair that succeeds, and segment numbers left. -/
def Regular : AppendGuard := fun s io p => ValidPayload p ∧ io.Repairs ∧ NumbersLeft s

/-- A step of the others. The WAL writer makes the appends `guard` allows. -/
inductive OtherStep (guard : AppendGuard) : Relay → Relay → Prop
  -- `record_post_success`
  | resetFailures {r : Relay} (h : r.recording = .idle) :
      OtherStep guard r { r with
        recording := .success
        circuit := { r.circuit with failures := 0 } }
  | alreadyClosed {r : Relay} (h : r.recording = .success) (state : r.circuit.state = .closed) :
      OtherStep guard r { r with recording := .idle }
  | notClosed {r : Relay} (h : r.recording = .success) (state : r.circuit.state ≠ .closed) :
      OtherStep guard r { r with recording := .closing }
  | storeClosed {r : Relay} (h : r.recording = .closing) :
      OtherStep guard r { r with
        recording := .idle
        circuit := { r.circuit with state := .closed } }
  -- `record_post_failure`
  | countFailure {r : Relay} (h : r.recording = .idle) :
      OtherStep guard r { r with
        recording :=
          if min (r.circuit.failures.toNat + 1) 255 ≥ openThreshold then .failure else .idle
        circuit := { r.circuit with failures := r.circuit.failures + 1 } }
  | alreadyOpen {r : Relay} (h : r.recording = .failure) (state : r.circuit.state = .opened) :
      OtherStep guard r { r with recording := .idle }
  | notOpen {r : Relay} (h : r.recording = .failure) (state : r.circuit.state ≠ .opened) :
      OtherStep guard r { r with recording := .opening }
  | storeOpen {r : Relay} (h : r.recording = .opening) :
      OtherStep guard r { r with
        recording := .idle
        circuit := { r.circuit with state := .opened } }
  -- the retry queue
  | enqueue {r : Relay} (p : Bytes) (room : r.queue.length < retryQueueCapacity) :
      OtherStep guard r { r with queue := r.queue ++ [p] }
  | dequeue {r : Relay} : OtherStep guard r { r with queue := r.queue.drop 1 }
  -- the WAL writer thread
  | lock {r : Relay} (free : r.locked = false) : OtherStep guard r { r with locked := true }
  | append {r : Relay} (io : Io) (p : Bytes) (allowed : guard r.store io p)
      (held : r.locked = true) :
      OtherStep guard r { r with store := (appendOne io r.store p).1 }
  | sync {r : Relay} (io : Io) (held : r.locked = true) :
      OtherStep guard r { r with store := syncActive io r.store }
  | unlock {r : Relay} (held : r.locked = true) : OtherStep guard r { r with locked := false }

/-- A step of the drainer or of the others. -/
def RelayStep (guard : AppendGuard) (r r' : Relay) : Prop :=
  DrainerStep r r' ∨ OtherStep guard r r'

/-- Before the first step. -/
def Relay.start (s : Store) : Relay := ⟨s, false, [], .start, .idle, .sleeping⟩

/-! ## The agent's steps -/

/-- The phases that stand for each other. -/
def Stands : Drainer → RelayPhase → Prop
  | .sweeping, p => p = .sleeping
  | .matched state, p => p = .matched state
  | .draining, p => p = .draining
  | .peeking trial, p => p = .peeking trial
  | .peeked trial b, p => ∃ f, p = .peeked trial f ∧ f.payload = b.payload
  | .sent trial b, p => ∃ f, p = .sent trial f ∧ f.payload = b.payload

/-- `r` is what the drainer sees of the agent `a`. -/
structure Relays (a : Agent) (r : Relay) : Prop where
  store : r.store = a.store
  locked : r.locked = a.writer.locks
  queue : r.queue = a.queue.map Numbered.payload
  circuit : r.circuit = a.circuit
  recording : r.recording = .idle
  drainer : Stands a.drainer r.drainer

variable {a a' : Agent} {r : Relay} {recovered : List Numbered} {l : FrameLog}

/-- Runs of the model with the appends of the agent. -/
abbrev Relayed : Relay → Relay → Prop := Relation.ReflTransGen (RelayStep Regular)

theorem relayed_drainer {r' : Relay} (h : DrainerStep r r') : Relayed r r' := .single (.inl h)

theorem relayed_other {r' : Relay} (h : OtherStep Regular r r') : Relayed r r' :=
  .single (.inr h)

section Calls

variable {s : Store} {locked : Bool} {q : List Bytes} {d : RelayPhase}

/-- `record_post_success` in one go. -/
theorem relayed_success (c : Circuit) :
    Relayed ⟨s, locked, q, c, .idle, d⟩ ⟨s, locked, q, c.recordPostSuccess, .idle, d⟩ := by
  obtain ⟨state, failures⟩ := c
  have hreset : Relayed ⟨s, locked, q, ⟨state, failures⟩, .idle, d⟩
      ⟨s, locked, q, ⟨state, 0⟩, .success, d⟩ := relayed_other (.resetFailures rfl)
  by_cases hs : state = .closed
  · subst hs
    exact hreset.tail (.inr (.alreadyClosed rfl rfl))
  · exact (hreset.tail (.inr (.notClosed rfl hs))).tail (.inr (.storeClosed rfl))

/-- `record_post_failure` in one go. -/
theorem relayed_failure (c : Circuit) :
    Relayed ⟨s, locked, q, c, .idle, d⟩ ⟨s, locked, q, c.recordPostFailure, .idle, d⟩ := by
  obtain ⟨state, failures⟩ := c
  have hcount : Relayed ⟨s, locked, q, ⟨state, failures⟩, .idle, d⟩
      ⟨s, locked, q, ⟨state, failures + 1⟩,
        if min (failures.toNat + 1) 255 ≥ openThreshold then .failure else .idle, d⟩ :=
    relayed_other (.countFailure rfl)
  unfold Circuit.recordPostFailure
  by_cases ht : min (failures.toNat + 1) 255 ≥ openThreshold
  · rw [if_pos ht] at hcount
    simp only [if_pos ht]
    by_cases hs : state = .opened
    · subst hs
      exact hcount.tail (.inr (.alreadyOpen rfl rfl))
    · exact (hcount.tail (.inr (.notOpen rfl hs))).tail (.inr (.storeOpen rfl))
  · rw [if_neg ht] at hcount
    simp only [if_neg ht]
    exact hcount

/-- `try_half_open` in one go, after the recovery spread. -/
theorem relayed_tryHalfOpen (c : Circuit) :
    Relayed ⟨s, locked, q, c, .idle, .matched .opened⟩
      ⟨s, locked, q, c.tryHalfOpen, .idle, .sleeping⟩ := by
  unfold Circuit.tryHalfOpen
  by_cases hs : c.state = .opened
  · rw [if_pos hs]
    exact (relayed_drainer (.loadOpen rfl hs)).tail (.inl (.storeHalfOpen rfl))
  · rw [if_neg hs]
    exact relayed_drainer (.loadOther rfl hs)

end Calls

/-- **Every step of the agent is a run of the model.** -/
theorem relays_step (hv : AgentInv recovered a l) (h : Relays a r) (hstep : AgentStep a a') :
    ∃ r', Relayed r r' ∧ Relays a' r' := by
  obtain ⟨s, locked, q, c, rec, d⟩ := r
  obtain ⟨rfl, rfl, rfl, rfl, rfl, hd⟩ := h
  dsimp only at hd
  have hroom : a.queue.length < retryQueueCapacity →
      (a.queue.map Numbered.payload).length < retryQueueCapacity := fun h => by
    rw [List.length_map]
    exact h
  cases hstep with
  | queueFull | tryAppend | channelFull | queueLocked | stillFull | workerLock | wake =>
    exact ⟨_, .refl, rfl, rfl, rfl, rfl, rfl, hd⟩
  -- both ends of the queue
  | trySend p valid hc room =>
    exact ⟨_, relayed_other (.enqueue p (hroom room)), rfl, rfl, by simp, rfl, rfl, hd⟩
  | @resend b hc room =>
    exact ⟨_, relayed_other (.enqueue b.payload (hroom room)), rfl, rfl, by simp, rfl, rfl, hd⟩
  | tryLock => exact ⟨_, relayed_other .dequeue, rfl, rfl, List.map_drop.symm, rfl, rfl, hd⟩
  | workerRecv hw hq =>
    exact ⟨_, relayed_other .dequeue, rfl, rfl, by simp [hq], rfl, rfl, hd⟩
  -- the POST outcomes
  | success | nonRetryable => exact ⟨_, relayed_success _, rfl, rfl, rfl, rfl, rfl, hd⟩
  | retryable => exact ⟨_, relayed_failure _, rfl, rfl, rfl, rfl, rfl, hd⟩
  -- the WAL writer thread
  | writerRecv hw =>
    exact ⟨_, .refl, rfl, by simp [hw, WriterThread.locks], rfl, rfl, rfl, hd⟩
  | writerTryRecv hw =>
    exact ⟨_, .refl, rfl, by simp [hw, WriterThread.locks], rfl, rfl, rfl, hd⟩
  | syncNotDue elapsed hw =>
    exact ⟨_, .refl, rfl, by simp [hw, WriterThread.locks], rfl, rfl, rfl, hd⟩
  | appendFirst io repairs number hw =>
    have hlock : a.writer.locks = false := by rw [hw]; rfl
    have valid := hv.valid _ (List.mem_append_right _ (by rw [hw]; exact List.mem_singleton_self _))
    exact ⟨_, (relayed_other (.lock hlock)).tail
      (.inr (.append io _ ⟨valid, repairs, number⟩ rfl)), rfl, rfl, rfl, rfl, rfl, hd⟩
  | appendMore io repairs number hw =>
    have hlock : a.writer.locks = true := by rw [hw]; rfl
    have valid := hv.valid _ (List.mem_append_right _ (by rw [hw]; exact List.mem_singleton_self _))
    exact ⟨_, relayed_other (.append io _ ⟨valid, repairs, number⟩ hlock),
      rfl, hlock, rfl, rfl, rfl, hd⟩
  | syncDue io elapsed hw =>
    have hlock : a.writer.locks = true := by rw [hw]; rfl
    exact ⟨_, relayed_other (.sync io hlock), rfl, hlock, rfl, rfl, rfl, hd⟩
  | @groupDone n io hw empty =>
    have hlock : a.writer.locks = true := by rw [hw]; rfl
    by_cases hn : n > 0
    · exact ⟨_, (relayed_other (.sync io hlock)).tail (.inr (.unlock hlock)),
        by simp [hn], rfl, rfl, rfl, rfl, hd⟩
    · exact ⟨_, relayed_other (.unlock hlock), by simp [hn], rfl, rfl, rfl, rfl, hd⟩
  -- the drainer
  | sweep hs =>
    rw [hs] at hd
    obtain rfl : d = .sleeping := hd
    exact ⟨_, relayed_drainer (.wake rfl), rfl, rfl, rfl, rfl, rfl, rfl⟩
  | probe hs =>
    rw [hs] at hd
    obtain rfl : d = .matched .opened := hd
    exact ⟨_, relayed_tryHalfOpen _, rfl, rfl, rfl, rfl, rfl, rfl⟩
  | trial hs free backlog =>
    rw [hs] at hd
    obtain rfl : d = .matched .halfOpen := hd
    exact ⟨_, relayed_drainer (.trial rfl free backlog), rfl, rfl, rfl, rfl, rfl, rfl⟩
  | drain hs free backlog =>
    rw [hs] at hd
    obtain rfl : d = .matched .closed := hd
    exact ⟨_, relayed_drainer (.drain rfl free backlog), rfl, rfl, rfl, rfl, rfl, rfl⟩
  | @noBacklog state hs other free backlog =>
    rw [hs] at hd
    obtain rfl : d = .matched state := hd
    exact ⟨_, relayed_drainer (.noBacklog rfl other free backlog), rfl, rfl, rfl, rfl, rfl, rfl⟩
  | drainPause hs gate =>
    rw [hs] at hd
    obtain rfl : d = .draining := hd
    by_cases room : a.queue.length < retryQueueCapacity
    · have hstate := gate.resolve_left (Nat.not_le_of_lt room)
      exact ⟨_, (relayed_drainer (.capacity rfl (hroom room))).tail (.inl (.pause rfl hstate)),
        rfl, rfl, rfl, rfl, rfl, rfl⟩
    · exact ⟨_, relayed_drainer (.noRoom rfl (by simpa using room)), rfl, rfl, rfl, rfl, rfl, rfl⟩
  | drainGo hs room closed =>
    rw [hs] at hd
    obtain rfl : d = .draining := hd
    exact ⟨_, (relayed_drainer (.capacity rfl (hroom room))).tail (.inl (.goOn rfl closed)),
      rfl, rfl, rfl, rfl, rfl, rfl⟩
  | @peekFrame trial f io hs free hf =>
    rw [hs] at hd
    obtain rfl : d = .peeking trial := hd
    exact ⟨_, relayed_drainer (.peekFrame io rfl free hf), rfl, rfl, rfl, rfl, rfl, f, rfl, rfl⟩
  | @peekEmpty trial io hs free hf =>
    rw [hs] at hd
    obtain rfl : d = .peeking trial := hd
    exact ⟨_, relayed_drainer (.peekEmpty io rfl free hf), rfl, rfl, rfl, rfl, rfl, rfl⟩
  | replaySend hs room =>
    rw [hs] at hd
    obtain ⟨f, rfl, hp⟩ := hd
    exact ⟨_, relayed_drainer (.send rfl (hroom room)), rfl, rfl, by simp [hp], rfl, rfl,
      f, rfl, hp⟩
  | noCapacity hs full =>
    rw [hs] at hd
    obtain ⟨f, rfl, -⟩ := hd
    exact ⟨_, relayed_drainer (.noCapacity rfl (by simpa using full)), rfl, rfl, rfl, rfl, rfl, rfl⟩
  | @replayCommit trial b hs free =>
    rw [hs] at hd
    obtain ⟨f, rfl, -⟩ := hd
    refine ⟨_, relayed_drainer (.commit rfl free), rfl, rfl, rfl, rfl, rfl, ?_⟩
    cases trial <;> rfl

theorem relays_start (s : Store) : Relays (.start s) (.start s) := ⟨rfl, rfl, rfl, rfl, rfl, rfl⟩

/-- **Every run of the agent is a run of the model.** -/
theorem relay_of_agent {s₀ : Store} {l₀ : FrameLog} (h₀ : Represents s₀ l₀)
    (run : Relation.ReflTransGen AgentStep (Agent.start s₀) a) :
    ∃ r, Relayed (.start s₀) r ∧ Relays a r := by
  induction run with
  | refl => exact ⟨_, .refl, relays_start s₀⟩
  | tail run hstep ih =>
    obtain ⟨r, hrun, h⟩ := ih
    obtain ⟨l, hv⟩ := agentInv_run h₀ run
    obtain ⟨r', hrun', h'⟩ := relays_step hv h hstep
    exact ⟨r', hrun.trans hrun', h'⟩

end Statix.Delivery
