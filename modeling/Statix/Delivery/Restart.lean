import Statix.Delivery.Agent
import Statix.Wal.Crash

/-!
# Delivery across a kill of the process

The writer thread, the drainer, the retry queue and the retry worker, and a kill of the process at
any point: the queue, the worker's batch and the replay under way are gone, the directory is what a
crash leaves of it (`Crashed`), and `recover` starts the next life from there.

* Every frame on record has an id of its own, so a frame of one life is not taken for an equal one
  of another. A batch in the retry queue carries the id of the frame it was replayed from.
* The process records the frames some `fdatasync` covered (`synced`), the ids the gateway gave a
  final answer to (`answered`) and the ids in segments `enforce_cap` dropped (`capped`).
* The circuit, the queue's lock and the sleeps only say when an actor may take its step. Here each
  may take it at any time. A retryable answer leaves the batch in the worker's hand.

`replay_one` (`statix/src/wal/drainer.rs:73-98`) commits when the batch is in the retry queue, not
when it is answered, and `peek_next` (`mod.rs:398-450`) removes a segment whose frames are all
committed.

* `peek_removes`: `peek_next` removes only segments that were rotated out and read to the end.
* **`at_least_once`**: if at every `peek_next` the frames of such segments are answered, every
  synced frame is answered, capped, or yielded again after a restart.
* `read_out_before_answer`: without that, a synced frame is lost.

Out of scope: what `Thread.lean` leaves out, and an append whose repair fails: every step of the
writer thread here is one with `Io.Repairs`. Its other calls and those of `peek_next` may fail.
-/

namespace Statix.Delivery

open Statix.Lib Statix.Wal

variable [Crc32]

/-! ## The machine -/

/-- A frame of the WAL: its id, its segment's number and itself. -/
structure Logged where
  id : Nat
  seq : Nat
  frame : DecodedFrame
  deriving DecidableEq

/-- The frame as the writer's history has it. -/
def Logged.entry (r : Logged) : Nat × DecodedFrame := (r.seq, r.frame)

/-- New ids from `n` on. -/
def stamp : Nat → List (Nat × DecodedFrame) → List Logged
  | _, [] => []
  | n, e :: rest => ⟨n, e.1, e.2⟩ :: stamp (n + 1) rest

/-- A batch of the retry queue, with the id of the frame it was replayed from. -/
structure Batch where
  payload : Bytes
  origin : Option Nat
  deriving DecidableEq

/-- Where `replay_one` is. -/
inductive Replay where
  | idle
  | peeked (f : DecodedFrame) (origin : Option Nat)
  | sent
  deriving DecidableEq

/-- The process with the record of its lives. -/
structure Process where
  writer : Writer
  record : List Logged
  nextId : Nat
  queue : List Batch
  worker : Option Batch
  replay : Replay
  synced : List Logged
  answered : List Nat
  capped : List Nat

/-- The frames a sync covered whose segment is not removed. -/
def Process.survivors (x : Process) : List Logged :=
  (x.record.take x.writer.covered).filter fun r => onDisk x.writer.store.disk r.seq

/-- A step of the writer thread: a frame it appended is recorded under a new id, the frames it has
synced are recorded, and those in a segment it dropped. -/
def Process.write (x : Process) (w : Writer) : Process :=
  let new := stamp x.nextId (w.history.drop x.record.length)
  let gone := x.record.filter fun r => r.seq ∈ x.writer.store.seqs ∧ r.seq ∉ w.store.seqs
  { x with
    writer := w
    record := x.record ++ new
    nextId := x.nextId + new.length
    synced := x.synced ++ (x.record ++ new).take w.covered
    capped := x.capped ++ gone.map Logged.id }

/-- The id of the next unread frame of `s`: the unread frames are the last ones on record in the
tracked segments. -/
def Process.peekedId (x : Process) (s : Store) : Option Nat :=
  let tracked := x.record.filter fun r => r.seq ∈ s.seqs
  (tracked.drop (tracked.length - (taggedOf s).length)).head?.map Logged.id

/-- `peek_next` by `replay_one`. -/
def Process.peek (io : Io) (x : Process) : Process :=
  { x with
    writer := { x.writer with store := (peekNext io x.writer.store).1 }
    replay :=
      match peekNext io x.writer.store with
      | (s, .frame f) => .peeked f (x.peekedId s)
      | _ => .idle }

/-- The process is killed and starts again on the recovered store `s`. -/
def Process.restart (x : Process) (s : Store) : Process :=
  let new := stamp x.nextId ((taggedOf s).drop x.survivors.length)
  { x with
    writer := ⟨s, .waiting, taggedOf s, x.writer.survivors.length⟩
    record := x.survivors ++ new
    nextId := x.nextId + new.length
    queue := []
    worker := none
    replay := .idle }

/-- Who takes a step. -/
inductive Event where
  | thread
  | enqueue
  | dropOldest
  | take
  | answer
  | peek
  | noCapacity
  | send
  | commit
  | kill
  deriving DecidableEq

/-- One step. -/
inductive ProcessStep : Event → Process → Process → Prop
  | thread {x : Process} {w : Writer} (h : ThreadStep Io.Repairs x.writer w) :
      ProcessStep .thread x (x.write w)
  -- `enqueue_batch_json`
  | enqueue {x : Process} (p : Bytes) (room : x.queue.length < retryQueueCapacity) :
      ProcessStep .enqueue x { x with queue := x.queue ++ [⟨p, none⟩] }
  | dropOldest {x : Process} {b : Batch} {rest : List Batch} (hq : x.queue = b :: rest) :
      ProcessStep .dropOldest x { x with queue := rest }
  -- the retry worker; the answer is a success or a non-retryable status
  | take {x : Process} {b : Batch} {rest : List Batch} (h : x.worker = none)
      (hq : x.queue = b :: rest) : ProcessStep .take x { x with worker := some b, queue := rest }
  | answer {x : Process} {b : Batch} (h : x.worker = some b) :
      ProcessStep .answer x { x with worker := none, answered := x.answered ++ b.origin.toList }
  -- `replay_one`
  | peek {x : Process} (io : Io) (h : x.replay = .idle) (free : x.writer.phase = .waiting) :
      ProcessStep .peek x (x.peek io)
  | noCapacity {x : Process} {f : DecodedFrame} {o : Option Nat} (h : x.replay = .peeked f o)
      (full : retryQueueCapacity ≤ x.queue.length) :
      ProcessStep .noCapacity x { x with replay := .idle }
  | send {x : Process} {f : DecodedFrame} {o : Option Nat} (h : x.replay = .peeked f o)
      (room : x.queue.length < retryQueueCapacity) :
      ProcessStep .send x { x with queue := x.queue ++ [⟨f.payload, o⟩], replay := .sent }
  | commit {x : Process} (h : x.replay = .sent) (free : x.writer.phase = .waiting) :
      ProcessStep .commit x { x with
        writer := { x.writer with store := commitPending x.writer.store }
        replay := .idle }
  | kill {x : Process} {d' : Disk} {entries : List FileName} {s : Store} (cfg : WalConfig)
      (crash : Crashed x.writer.store d') (lists : Lists entries d')
      (recovered : recover .ok cfg entries d' = some s) : ProcessStep .kill x (x.restart s)

/-- The first life, on an empty directory. -/
def Process.start (cfg : WalConfig) : Process :=
  ⟨Writer.start cfg, [], 0, [], none, .idle, [], [], []⟩

/-- Every frame of a segment that was rotated out and read to its end is answered. -/
def ReadOutAnswered (x : Process) : Prop :=
  ∀ m ∈ x.writer.store.segments, unread x.writer.store m = [] →
    (∀ a, x.writer.store.active = some a → a.seq ≠ m.seq) →
    ∀ r ∈ x.record, r.seq = m.seq → r.id ∈ x.answered

/-- A step that, if it is a `peek_next`, finds the frames it may remove answered. -/
def GuardedStep (x x' : Process) : Prop :=
  ∃ ev, ProcessStep ev x x' ∧ (ev = .peek → ReadOutAnswered x)

/-! ## What a step does to the segments -/

variable {s s' : Store} {l : FrameLog} {x x' : Process}

omit [Crc32] in
theorem covered_le_cover (w : Writer) (h : w.covered ≤ w.history.length) :
    w.covered ≤ w.cover := by
  unfold Writer.cover
  split
  · exact h
  · exact Nat.le_refl _

omit [Crc32] in
theorem sync_extends (io : Io) (w : Writer) (h : w.covered ≤ w.history.length) :
    (w.sync io).history = w.history ∧ w.covered ≤ (w.sync io).covered := by
  unfold Writer.sync
  split
  · exact ⟨rfl, Nat.le_refl _⟩
  · exact ⟨rfl, covered_le_cover w h⟩

omit [Crc32] in
theorem seqs_accountFrame (s : Store) (n : Nat) : (accountFrame s n).seqs = s.seqs := by
  rcases List.eq_nil_or_concat' s.segments with hs | ⟨init, m, hs⟩
  · simp [Store.seqs, accountFrame, hs, updateBack]
  · simp [Store.seqs, accountFrame, hs, updateBack_concat]

/-- The writer thread only adds frames, in tracked segments, and only covers more of them. -/
theorem thread_extends {admitted : Io → Prop} {w w' : Writer} (h : WriterInv w s l)
    (hstep : ThreadStep admitted w w') :
    (∃ new, w'.history = w.history ++ new ∧ ∀ e ∈ new, e.1 ∈ w'.store.seqs) ∧
      w.covered ≤ w'.covered := by
  obtain ⟨hlink, kept, hr⟩ := h
  have hsame : w'.history = w.history →
      ∃ new, w'.history = w.history ++ new ∧ ∀ e ∈ new, e.1 ∈ w'.store.seqs := fun e =>
    ⟨[], by rw [e, List.append_nil], fun e he => absurd he List.not_mem_nil⟩
  cases hstep with
  | retire _ _ => exact ⟨hsame rfl, covered_le_cover w hr.covered_le⟩
  | due io _ _ _ =>
    obtain ⟨hhistory, hcovered⟩ := sync_extends io w hr.covered_le
    exact ⟨hsame hhistory, hcovered⟩
  | @finish n io _ =>
    obtain ⟨hhistory, hcovered⟩ := sync_extends io w hr.covered_le
    by_cases hn : n > 0
    · rw [if_pos hn] at hsame ⊢
      exact ⟨hsame hhistory, hcovered⟩
    · rw [if_neg hn] at hsame ⊢
      exact ⟨hsame rfl, Nat.le_refl _⟩
  | @writePayload a q act hp hact =>
    refine ⟨⟨[_], rfl, fun e he => ?_⟩, Nat.le_refl _⟩
    obtain rfl := List.mem_singleton.mp he
    -- the active segment is the last tracked one
    rw [hp] at hlink
    obtain ⟨init, g, file, hs, -, -, e⟩ := hlink
    have hseq : act.seq = g.seq := by
      rw [e] at hact
      exact congrArg ActiveSegment.seq (Option.some.inj hact).symm
    show act.seq ∈ (accountFrame (writeActive w.store none a.payload).1 a.size).seqs
    rw [seqs_accountFrame, hseq]
    have hsegs : (writeActive w.store none a.payload).1.segments = l.segs.map metaOf := by
      unfold writeActive
      rw [hact, ← hr.store.segments, e]
      rfl
    unfold Store.seqs
    rw [hsegs, List.map_map, hs]
    exact List.mem_map.mpr ⟨g, List.mem_append_right _ List.mem_cons_self, rfl⟩
  | _ => exact ⟨hsame rfl, Nat.le_refl _⟩

theorem seqs_eq (h : Represents s l) : s.seqs = seqsOf l.segs := by
  unfold Store.seqs
  rw [h.segments, List.map_map]
  rfl

/-- The file of a tracked segment is there, also in the middle of an append. -/
theorem onDisk_tracked {w : Writer} (h : WriterInv w s l) {seq : Nat}
    (hm : seq ∈ w.store.seqs) : onDisk w.store.disk seq = true := by
  have hs : ∀ seq ∈ s.seqs, onDisk s.disk seq = true := by
    intro seq hseq
    rw [seqs_eq h.store] at hseq
    obtain ⟨g, hg, rfl⟩ := List.mem_map.mp hseq
    exact (h.store.files g hg).onDisk
  have hself : w.store = s → onDisk w.store.disk seq = true := by
    rintro rfl
    exact hs seq hm
  have htorn : ∀ {junk q}, TornBy l s w.store junk q → onDisk w.store.disk seq = true := by
    rintro junk q ⟨init, g, file, -, -, hd, e⟩
    rw [e] at hm ⊢
    rw [onDisk_tear hd]
    exact hs seq hm
  have hlink := h.linked
  cases hp : w.phase with
  | heading a =>
    rw [hp] at hlink
    obtain ⟨e, -, -⟩ := hlink
    rw [e] at hm ⊢
    unfold onDisk
    by_cases hn : segmentPath seq = segmentPath s.nextSeq
    · rw [hn, show (createSegment s).disk = s.disk.create _ from rfl, Dir.create_self]
      rfl
    · rw [show (createSegment s).disk = s.disk.create _ from rfl, Dir.create_ne _ hn]
      exact hs seq hm
  | paying a q =>
    rw [hp] at hlink
    exact htorn hlink
  | failed a =>
    rw [hp] at hlink
    rcases hlink with ⟨e, -⟩ | ⟨junk, q, ht⟩
    · exact hself e
    · exact htorn ht
  | creating a =>
    rw [hp] at hlink
    exact hself hlink.1
  | writing a =>
    rw [hp] at hlink
    exact hself hlink.1
  | _ =>
    rw [hp] at hlink
    exact hself hlink

/-- **`peek_next` removes only segments that were rotated out and read to the end.** -/
theorem peek_removes (io : Io) (h : Represents s l) {m : SegmentMeta} (hm : m ∈ s.segments)
    (hgone : m.seq ∉ (peekNext io s).1.seqs) :
    unread s m = [] ∧ ∀ a, s.active = some a → a.seq ≠ m.seq := by
  obtain ⟨n, o⟩ := peekNext_spec io h
  have hseqs := seqs_eq o.store
  rw [hseqs] at hgone
  constructor
  · rw [h.segments, List.mem_map] at hm
    obtain ⟨g, hg, rfl⟩ := hm
    rw [← List.take_append_drop n l.segs, List.mem_append] at hg
    have hg := hg.resolve_right fun hd =>
      hgone (List.mem_map.mpr ⟨g, by rwa [SegLog.segs_dropSegs], rfl⟩)
    have hnone := unread_take h n
    rw [o.readOut, List.flatMap_eq_nil_iff] at hnone
    exact hnone _ (List.mem_map.mpr ⟨g, hg, rfl⟩)
  · intro a ha e
    rcases o.store.active with hnone | ⟨init, g, hs, hact⟩
    · rw [o.active, ha] at hnone
      cases hnone
    · rw [o.active, ha] at hact
      obtain rfl := Option.some.inj hact
      refine hgone (List.mem_map.mpr ⟨g, ?_, e⟩)
      rw [hs]
      exact List.mem_append_right _ List.mem_cons_self

omit [Crc32] in
theorem seqs_commit (s : Store) : (commitPending s).seqs = s.seqs := by
  unfold commitPending
  split <;> rfl

/-- **A replay carries the id of the frame it peeked.** -/
theorem peekedId_frame (io : Io) (hinv : WriterInv x.writer s l)
    (hrec : x.record.map Logged.entry = x.writer.history) (free : x.writer.phase = .waiting)
    {f : DecodedFrame} (hf : peekNext io x.writer.store = (s', .frame f)) :
    ∃ r ∈ x.record, x.peekedId s' = some r.id ∧ r.frame = f := by
  have hlink := hinv.linked
  rw [free] at hlink
  obtain rfl : x.writer.store = s := hlink
  obtain ⟨n, o⟩ := peekNext_spec io hinv.store
  obtain ⟨kept, hr⟩ := hinv.recorded
  obtain ⟨l', kept', hr⟩ := hr.peek io
  rw [hf] at o hr
  have hhead : l'.ahead.head? = some f := by
    rw [← aheadOf_eq hr.store, aheadOf_eq o.store]
    exact (o.frame f rfl).1
  have htracked : (x.record.filter fun r => r.seq ∈ s'.seqs).map Logged.entry =
      tagSegs l'.segs := by
    rw [← hr.inTracked, ← hrec, seqs_eq hr.store, List.filter_map]
    rfl
  unfold Process.peekedId
  generalize hT : (x.record.filter fun r => r.seq ∈ s'.seqs) = tracked at htracked
  -- as many frames are read as are on record and not unread
  have hread : tracked.length - (taggedOf s').length = l'.consumed := by
    have hle := SegLog.consumed_le_all l'
    have hall : l'.all.length = (tagSegs l'.segs).length := by
      have hsnd := congrArg List.length (snd_tagSegs l'.segs)
      rw [List.length_map] at hsnd
      exact hsnd.symm
    have hlen : tracked.length = (tagSegs l'.segs).length := by
      rw [← htracked, List.length_map]
    rw [taggedOf_eq hr.store, List.length_drop]
    omega
  have hunread : (tracked.drop l'.consumed).map Logged.entry = taggedOf s' := by
    rw [taggedOf_eq hr.store, ← htracked, List.map_drop]
  simp only [hread]
  cases hd : tracked.drop l'.consumed with
  | nil =>
    rw [hd] at hunread
    rw [← snd_taggedOf hr.store, ← hunread] at hhead
    cases hhead
  | cons r rest =>
    rw [hd] at hunread
    rw [← snd_taggedOf hr.store, ← hunread] at hhead
    refine ⟨r, ?_, rfl, Option.some.inj hhead⟩
    have hmem : r ∈ tracked := List.mem_of_mem_drop (by rw [hd]; exact List.mem_cons_self)
    rw [← hT] at hmem
    exact (List.mem_filter.mp hmem).1

/-! ## Ids -/

omit [Crc32] in
theorem stamp_entry (n : Nat) (es : List (Nat × DecodedFrame)) :
    (stamp n es).map Logged.entry = es := by
  induction es generalizing n with
  | nil => rfl
  | cons e rest ih =>
    rw [stamp, List.map_cons, ih]
    rfl

omit [Crc32] in
theorem stamp_ids (n : Nat) (es : List (Nat × DecodedFrame)) :
    (stamp n es).map Logged.id = List.range' n (stamp n es).length := by
  induction es generalizing n with
  | nil => rfl
  | cons e rest ih => rw [stamp, List.map_cons, ih, List.length_cons, List.range'_succ]

omit [Crc32] in
/-- Frames with new ids behind frames with older ones. -/
theorem stamp_append {old : List Logged} {n : Nat} (es : List (Nat × DecodedFrame))
    (hids : (old.map Logged.id).Pairwise (· < ·)) (hfresh : ∀ r ∈ old, r.id < n) :
    ((old ++ stamp n es).map Logged.id).Pairwise (· < ·) ∧
      ∀ r ∈ old ++ stamp n es, r.id < n + (stamp n es).length := by
  have hnew : ∀ r ∈ stamp n es, n ≤ r.id ∧ r.id < n + (stamp n es).length := by
    intro r hr
    have hr := List.mem_map_of_mem (f := Logged.id) hr
    rw [stamp_ids, List.mem_range'_1] at hr
    exact hr
  constructor
  · rw [List.map_append, List.pairwise_append]
    refine ⟨hids, by rw [stamp_ids]; exact List.pairwise_lt_range', fun a ha b hb => ?_⟩
    obtain ⟨r, hr, rfl⟩ := List.mem_map.mp ha
    obtain ⟨r', hr', rfl⟩ := List.mem_map.mp hb
    exact Nat.lt_of_lt_of_le (hfresh r hr) (hnew r' hr').1
  · intro r hr
    rcases List.mem_append.mp hr with hr | hr
    · exact Nat.lt_add_right _ (hfresh r hr)
    · exact (hnew r hr).2

/-! ## The invariant -/

/-- **What a guarded run keeps**: the record is the writer's history with ids, a frame whose segment
is gone is answered or capped, and so is every synced frame that does not survive. -/
structure ProcessInv (x : Process) : Prop where
  writer : ∃ s l, WriterInv x.writer s l
  record : x.record.map Logged.entry = x.writer.history
  ids : (x.record.map Logged.id).Pairwise (· < ·)
  fresh : ∀ r ∈ x.record, r.id < x.nextId
  gone : ∀ r ∈ x.record, r.seq ∉ x.writer.store.seqs → r.id ∈ x.answered ∨ r.id ∈ x.capped
  kept : ∀ r ∈ x.synced, r.id ∈ x.answered ∨ r.id ∈ x.capped ∨ r ∈ x.survivors

/-- A covered frame survives or its segment is gone. -/
theorem kept_of_gone (hinv : ∃ s l, WriterInv x.writer s l)
    (hgone : ∀ r ∈ x.record, r.seq ∉ x.writer.store.seqs → r.id ∈ x.answered ∨ r.id ∈ x.capped)
    {r : Logged} (hr : r ∈ x.record.take x.writer.covered) :
    r.id ∈ x.answered ∨ r.id ∈ x.capped ∨ r ∈ x.survivors := by
  obtain ⟨s, l, hinv⟩ := hinv
  by_cases hseq : r.seq ∈ x.writer.store.seqs
  · exact Or.inr (Or.inr (List.mem_filter.mpr ⟨hr, onDisk_tracked hinv hseq⟩))
  · exact or_assoc.mp (Or.inl (hgone r (List.mem_of_mem_take hr) hseq))

omit [Crc32] in
theorem mem_take_of_survivor {r : Logged} (h : r ∈ x.survivors) :
    r ∈ x.record.take x.writer.covered := (List.mem_filter.mp h).1

omit [Crc32] in
theorem survivors_entry (h : x.record.map Logged.entry = x.writer.history) :
    x.survivors.map Logged.entry = x.writer.survivors := by
  unfold Process.survivors Writer.survivors
  rw [← h, ← List.map_take, List.filter_map]
  rfl

/-- Steps on the in-memory part: at most an answer is recorded. -/
theorem ProcessInv.move (h : ProcessInv x) (hw : x'.writer = x.writer) (hr : x'.record = x.record)
    (hn : x'.nextId = x.nextId) (hs : x'.synced = x.synced) (hc : x'.capped = x.capped)
    (ha : ∀ i ∈ x.answered, i ∈ x'.answered) : ProcessInv x' := by
  refine ⟨by rw [hw]; exact h.writer, by rw [hr, hw]; exact h.record, by rw [hr]; exact h.ids,
    by rw [hr, hn]; exact h.fresh, ?_, ?_⟩
  · rw [hr, hw, hc]
    exact fun r hm hseq => (h.gone r hm hseq).imp_left (ha _)
  · unfold Process.survivors
    rw [hr, hw, hs, hc]
    exact fun r hm => (h.kept r hm).imp_left (ha _)

/-- Steps of the drainer on the store. -/
theorem ProcessInv.onStore (h : ProcessInv x) {w' : Writer} (hinv : ∃ s l, WriterInv w' s l)
    (hh : w'.history = x.writer.history) (hc : w'.covered = x.writer.covered) (replay : Replay)
    (hgone : ∀ r ∈ x.record, r.seq ∈ x.writer.store.seqs → r.seq ∉ w'.store.seqs →
      r.id ∈ x.answered) : ProcessInv { x with writer := w', replay := replay } := by
  have hg : ∀ r ∈ x.record, r.seq ∉ w'.store.seqs → r.id ∈ x.answered ∨ r.id ∈ x.capped := by
    intro r hr hseq
    by_cases hs : r.seq ∈ x.writer.store.seqs
    · exact Or.inl (hgone r hr hs hseq)
    · exact h.gone r hr hs
  refine ⟨hinv, h.record.trans hh.symm, h.ids, h.fresh, hg, fun r hr => ?_⟩
  rcases h.kept r hr with ha | hcap | hsurv
  · exact Or.inl ha
  · exact Or.inr (Or.inl hcap)
  · have hm := mem_take_of_survivor hsurv
    rw [← hc] at hm
    exact kept_of_gone (x := { x with writer := w', replay := replay }) hinv hg hm

/-- A step of the writer thread. -/
theorem processInv_write (h : ProcessInv x) {w' : Writer}
    (hstep : ThreadStep Io.Repairs x.writer w') :
    ProcessInv (x.write w') := by
  obtain ⟨s, l, hinv⟩ := h.writer
  obtain ⟨⟨new, hnew, htracked⟩, hcov⟩ := thread_extends hinv hstep
  have hlen : x.record.length = x.writer.history.length := by
    rw [← h.record, List.length_map]
  have hdrop : w'.history.drop x.record.length = new := by
    rw [hnew, hlen, List.drop_left]
  obtain ⟨hids, hfresh⟩ := stamp_append (n := x.nextId) new h.ids h.fresh
  have e : x.write w' = { x with
      writer := w'
      record := x.record ++ stamp x.nextId new
      nextId := x.nextId + (stamp x.nextId new).length
      synced := x.synced ++ (x.record ++ stamp x.nextId new).take w'.covered
      capped := x.capped ++ (x.record.filter fun r =>
        r.seq ∈ x.writer.store.seqs ∧ r.seq ∉ w'.store.seqs).map Logged.id } := by
    unfold Process.write
    rw [hdrop]
  rw [e]
  have hg : ∀ r ∈ x.record ++ stamp x.nextId new, r.seq ∉ w'.store.seqs → r.id ∈ x.answered ∨
      r.id ∈ x.capped ++ (x.record.filter fun r =>
        r.seq ∈ x.writer.store.seqs ∧ r.seq ∉ w'.store.seqs).map Logged.id := by
    intro r hr hseq
    rcases List.mem_append.mp hr with hr | hr
    · by_cases hs : r.seq ∈ x.writer.store.seqs
      · exact Or.inr (List.mem_append_right _ (List.mem_map_of_mem
          (List.mem_filter.mpr ⟨hr, decide_eq_true ⟨hs, hseq⟩⟩)))
      · exact (h.gone r hr hs).imp_right (List.mem_append_left _)
    · have hr := List.mem_map_of_mem (f := Logged.entry) hr
      rw [stamp_entry] at hr
      exact absurd (htracked _ hr) hseq
  have hinv' := writerInv_thread hinv hstep
  refine ⟨hinv', ?_, hids, hfresh, hg, fun r hr => ?_⟩
  · show (x.record ++ stamp x.nextId new).map Logged.entry = w'.history
    rw [List.map_append, h.record, stamp_entry, hnew]
  · have hcovered : ∀ r ∈ x.record.take x.writer.covered,
        r ∈ (x.record ++ stamp x.nextId new).take w'.covered := fun r hr => by
      refine List.IsPrefix.subset ?_ hr
      exact (List.take_prefix_take_left hcov).trans ((List.prefix_append _ _).take _)
    rcases List.mem_append.mp hr with hr | hr
    · rcases h.kept r hr with ha | hcap | hsurv
      · exact Or.inl ha
      · exact Or.inr (Or.inl (List.mem_append_left _ hcap))
      · exact kept_of_gone hinv' hg (hcovered r (mem_take_of_survivor hsurv))
    · exact kept_of_gone hinv' hg hr

theorem processInv_peek (io : Io) (h : ProcessInv x) (free : x.writer.phase = .waiting)
    (guard : ReadOutAnswered x) : ProcessInv (x.peek io) := by
  obtain ⟨s, l, hinv⟩ := h.writer
  refine h.onStore (writerInv_step hinv (.peek io free)) rfl rfl _ fun r hr hs hgone => ?_
  have hlink := hinv.linked
  rw [free] at hlink
  obtain rfl : x.writer.store = s := hlink
  obtain ⟨m, hm, e⟩ := List.mem_map.mp hs
  obtain ⟨hread, hact⟩ := peek_removes io hinv.store hm (by rw [e]; exact hgone)
  exact guard m hm hread hact r hr e.symm

theorem processInv_restart (h : ProcessInv x) {d' : Disk} {entries : List FileName}
    (cfg : WalConfig) (crash : Crashed x.writer.store d') (lists : Lists entries d')
    (recovered : recover .ok cfg entries d' = some s) : ProcessInv (x.restart s) := by
  obtain ⟨s₀, l, hinv⟩ := h.writer
  obtain ⟨s', l', e, -, -, hpre⟩ := hinv.recovered crash lists cfg
  obtain rfl := Option.some.inj (e.symm.trans recovered)
  rw [← survivors_entry h.record] at hpre
  have hsub : x.survivors.Sublist x.record :=
    List.filter_sublist.trans (List.take_sublist _ _)
  obtain ⟨hids, hfresh⟩ := stamp_append (n := x.nextId) ((taggedOf s').drop x.survivors.length)
    (h.ids.sublist (hsub.map _)) fun r hr => h.fresh r (hsub.subset hr)
  have hrecord : (x.survivors ++ stamp x.nextId ((taggedOf s').drop x.survivors.length)).map
      Logged.entry = taggedOf s' := by
    obtain ⟨rest, hrest⟩ := hpre
    rw [List.map_append, stamp_entry, ← hrest]
    congr 1
    rw [← List.length_map Logged.entry, List.drop_left]
  -- every frame on record now was found in a tracked segment
  have htracked : ∀ r ∈ x.survivors ++ stamp x.nextId ((taggedOf s').drop x.survivors.length),
      r.seq ∈ s'.seqs := by
    intro r hr
    have hr := List.mem_map_of_mem (f := Logged.entry) hr
    rw [hrecord] at hr
    obtain ⟨m, hm, hf⟩ := List.mem_flatMap.mp hr
    obtain ⟨f, -, hf⟩ := List.mem_map.mp hf
    exact List.mem_map.mpr ⟨m, hm, congrArg Prod.fst hf⟩
  obtain ⟨s₁, l₁, hinv'⟩ := writerInv_step hinv (.restart cfg crash lists recovered)
  refine ⟨⟨s₁, l₁, hinv'⟩, hrecord, hids, hfresh,
    fun r hr hseq => absurd (htracked r hr) hseq, fun r hr => ?_⟩
  rcases h.kept r hr with ha | hcap | hsurv
  · exact Or.inl ha
  · exact Or.inr (Or.inl hcap)
  · refine Or.inr (Or.inr (List.mem_filter.mpr ⟨?_, onDisk_tracked hinv' (htracked r ?_)⟩))
    · show r ∈ (x.survivors ++ _).take x.writer.survivors.length
      rw [← survivors_entry h.record, List.length_map, List.take_left]
      exact hsurv
    · exact List.mem_append_left _ hsurv

/-- **A guarded step keeps the invariant.** -/
theorem processInv_step (h : ProcessInv x) (hstep : GuardedStep x x') : ProcessInv x' := by
  obtain ⟨ev, hstep, guard⟩ := hstep
  cases hstep with
  | thread hstep => exact processInv_write h hstep
  | enqueue _ _ => exact h.move rfl rfl rfl rfl rfl fun _ hi => hi
  | dropOldest _ => exact h.move rfl rfl rfl rfl rfl fun _ hi => hi
  | take _ _ => exact h.move rfl rfl rfl rfl rfl fun _ hi => hi
  | answer _ => exact h.move rfl rfl rfl rfl rfl fun _ hi => List.mem_append_left _ hi
  | peek io _ free => exact processInv_peek io h free (guard rfl)
  | noCapacity _ _ => exact h.move rfl rfl rfl rfl rfl fun _ hi => hi
  | send _ _ => exact h.move rfl rfl rfl rfl rfl fun _ hi => hi
  | commit _ free =>
    obtain ⟨s, l, hinv⟩ := h.writer
    refine h.onStore (writerInv_step hinv (.commit free)) rfl rfl _ fun r _ hs hgone => ?_
    exact absurd (by rw [seqs_commit]; exact hs) hgone
  | kill cfg crash lists recovered => exact processInv_restart h cfg crash lists recovered

theorem processInv_run {cfg : WalConfig}
    (run : Relation.ReflTransGen GuardedStep (Process.start cfg) x) : ProcessInv x := by
  induction run with
  | refl =>
    have hstart : Relation.ReflTransGen (WriterStep Io.Repairs) (Writer.start cfg)
        (Writer.start cfg) := .refl
    refine ⟨writerInv_run hstart, rfl, List.Pairwise.nil, ?_, ?_, ?_⟩
    · exact fun r hr => absurd hr List.not_mem_nil
    · exact fun r hr => absurd hr List.not_mem_nil
    · exact fun r hr => absurd hr List.not_mem_nil
  | tail _ hstep ih => exact processInv_step ih hstep

/-- **At least once, across kills.** In every run whose `peek_next` calls find the frames of
rotated-out, read-out segments answered, and for a kill at any point of it: recovery terminates, the
recovered store yields the surviving frames first, and every frame some `fdatasync` covered in any
life was answered, or its segment was dropped at the cap, or it survives. No two frames on record
have the same id. -/
theorem at_least_once (cfg cfg' : WalConfig) {d' : Disk} {entries : List FileName}
    (run : Relation.ReflTransGen GuardedStep (Process.start cfg) x)
    (crash : Crashed x.writer.store d') (lists : Lists entries d') :
    ∃ s' extra, recover .ok cfg' entries d' = some s' ∧
      (∀ n, drain n s' = (x.survivors.map Logged.frame ++ extra).take n) ∧
      (∀ r ∈ x.synced, r.id ∈ x.answered ∨ r.id ∈ x.capped ∨ r ∈ x.survivors) ∧
      (x.record.map Logged.id).Nodup := by
  have h := processInv_run run
  obtain ⟨s, l, hinv⟩ := h.writer
  obtain ⟨s', l', e, o, -, rest, hrest⟩ := hinv.recovered crash lists cfg'
  refine ⟨s', rest.map Prod.snd, e, fun n => ?_, h.kept, h.ids.imp Nat.ne_of_lt⟩
  rw [drain_eq n o.store, ← snd_taggedOf o.store, ← hrest, List.map_append,
    ← survivors_entry h.record, List.map_map]
  rfl

/-! ## A frame read out before it is answered -/

/-- The turns of a group commit of one frame that opens a segment. -/
def turnsOf (w : Writer) (a : Appending) : List Writer :=
  let w₁ : Writer := { w with phase := .capping a }
  let w₂ : Writer := { w₁ with phase := .opening a }
  let w₃ : Writer := { w₂ with
    store := retireActive .ok w₂.store, covered := w₂.cover, phase := .creating a }
  let w₄ : Writer := { w₃ with store := createSegment w₃.store, phase := .heading a }
  let w₅ : Writer := { w₄ with store := headSegment w₄.store, phase := .writing a }
  let w₆ : Writer := { w₅ with
    store := writeFrameHeader w₅.store none a.payload
    phase := .paying a w₅.store.nextBatchSeq }
  let w₇ : Writer := { w₆ with
    store := accountFrame (writeActive w₆.store none a.payload).1 a.size
    history := w₆.history ++ [(w₅.store.nextSeq - 1, ⟨w₅.store.nextBatchSeq, a.payload⟩)]
    phase := .appended a.first (a.sinceSync + 1) }
  let w₈ : Writer := { w₇ with phase := .holding 1 }
  [w₁, w₂, w₃, w₄, w₅, w₆, w₇, w₈, { w₈.sync .ok with phase := .waiting }]

theorem turnsOf_chain {w : Writer} {p : Bytes} (valid : ValidPayload p) (h : w.phase = .waiting)
    (under : ¬overCap w.store (frameLenOnDisk p.length))
    (full : needsRotate w.store (frameLenOnDisk p.length) = true) (number : NumbersLeft w.store) :
    (w :: turnsOf w ⟨true, 0, p, valid⟩).IsChain (ThreadStep Io.Repairs) := by
  unfold turnsOf
  refine .cons_cons (.recv p valid h) (.cons_cons (.capped rfl under) (.cons_cons (.retire rfl full)
    (.cons_cons (.create rfl number) (.cons_cons (.head rfl) (.cons_cons (.writeHeader rfl) ?_)))))
  let seq := u64Succ w.store.nextSeq - 1
  let act : ActiveSegment := ⟨seq, ⟨segmentPath seq, segmentHeaderLen +
    (encodeFrameHeader p w.store.nextBatchSeq).length⟩, segmentHeaderLen⟩
  exact .cons_cons (@ThreadStep.writePayload _ _ _ _ _ act rfl rfl) (.cons_cons (.next false rfl rfl)
    (.cons_cons (.finish .ok (n := 1) rfl) (.singleton _)))

/-- A run of the writer thread as steps of the process. -/
def Process.writes (x : Process) (ws : List Writer) : Process := ws.foldl Process.write x

theorem guarded_writes {ws : List Writer}
    (h : (x.writer :: ws).IsChain (ThreadStep Io.Repairs)) :
    Relation.ReflTransGen GuardedStep x (x.writes ws) := by
  induction ws generalizing x with
  | nil => exact .refl
  | cons w ws ih =>
    cases h with
    | cons_cons hstep hrest =>
      exact .head ⟨.thread, .thread hstep, fun e => nomatch e⟩ (ih (x := x.write w) hrest)

/-- A store with a segment for each frame. -/
def oneFrameConfig : WalConfig := ⟨true, 1024, 20, 1, 200⟩

/-- Two frames appended and synced, each in its segment. -/
def spilledTwo : Process :=
  let x := (Process.start oneFrameConfig).writes
    (turnsOf (Writer.start oneFrameConfig) ⟨true, 0, [7], by decide⟩)
  x.writes (turnsOf x.writer ⟨true, 0, [8], by decide⟩)

/-- Then `replay_one` of the first one. -/
def replayedOne : Process :=
  let peeked := spilledTwo.peek .ok
  { peeked with
    writer := { peeked.writer with store := commitPending peeked.writer.store }
    queue := [⟨[7], some 0⟩]
    replay := .idle }

omit [Crc32] in
theorem spilledTwo_run : letI := crc32Ieee
    Relation.ReflTransGen GuardedStep (Process.start oneFrameConfig) spilledTwo := by
  let _ := crc32Ieee
  have h₁ := guarded_writes (x := Process.start oneFrameConfig)
    (turnsOf_chain (p := [7]) (by decide) rfl (fun h => absurd h.2 (by decide)) rfl (by decide))
  refine h₁.trans (guarded_writes (turnsOf_chain (p := [8]) (by decide) rfl ?_ ?_ ?_))
  · exact fun h => absurd h.2 (by decide +kernel)
  · decide +kernel
  · decide +kernel

omit [Crc32] in
/-- Nothing is read out before the first replay. -/
theorem replayedOne_run : letI := crc32Ieee
    Relation.ReflTransGen GuardedStep (Process.start oneFrameConfig) replayedOne := by
  let _ := crc32Ieee
  have hguard : ReadOutAnswered spilledTwo := by
    have hall : ∀ m ∈ spilledTwo.writer.store.segments, unread spilledTwo.writer.store m ≠ [] := by
      decide +kernel
    exact fun m hm hread => absurd hread (hall m hm)
  have hpeek := spilledTwo_run.tail
    ⟨.peek, .peek .ok (by decide +kernel) rfl, fun _ => hguard⟩
  let sent : Process := { spilledTwo.peek .ok with queue := [⟨[7], some 0⟩], replay := .sent }
  have hsend : Relation.ReflTransGen GuardedStep (Process.start oneFrameConfig) sent :=
    hpeek.tail ⟨.send, .send (f := ⟨0, [7]⟩) (o := some 0) (by decide +kernel) (by decide +kernel),
      fun e => nomatch e⟩
  exact hsend.tail ⟨.commit, .commit rfl rfl, fun e => nomatch e⟩

/-- The files of the directory between two appends, listed. -/
theorem lists_waiting {w : Writer} (h : WriterInv w s l) (free : w.phase = .waiting) :
    Lists (((List.range w.store.nextSeq).filter fun seq =>
      onDisk w.store.disk seq).map segmentPath) w.store.disk := by
  have hlink := h.linked
  rw [free] at hlink
  obtain rfl : w.store = s := hlink
  exact lists_of_named h.store.named

/-- A kill that tears nothing: what the next life replays. -/
theorem killed_between_steps (cfg : WalConfig) (hinv : ∃ s l, WriterInv x.writer s l)
    (free : x.writer.phase = .waiting) (fs : List DecodedFrame)
    (hfound : (recover .ok cfg (((List.range x.writer.store.nextSeq).filter fun seq =>
      onDisk x.writer.store.disk seq).map segmentPath) x.writer.store.disk).map aheadOf =
        some fs) :
    ∃ entries s', Lists entries x.writer.store.disk ∧
      recover .ok cfg entries x.writer.store.disk = some s' ∧ ∀ n, drain n s' = fs.take n := by
  obtain ⟨s, l, hinv⟩ := hinv
  have hlists := lists_waiting hinv free
  obtain ⟨s', l', e, o, -, -⟩ := hinv.recovered (crashed_refl _) hlists cfg
  rw [e, Option.map_some, aheadOf_eq o.store] at hfound
  refine ⟨_, s', hlists, e, fun n => ?_⟩
  rw [drain_eq n o.store, Option.some.inj hfound]

omit [Crc32] in
/-- **A synced frame can be lost.** The first of two frames is replayed into the retry queue and
committed; the next `peek_next` removes its segment; then the process is killed. -/
theorem read_out_before_answer : letI := crc32Ieee
    ∃ x, Relation.ReflTransGen (fun a b => ∃ ev, ProcessStep ev a b)
        (Process.start oneFrameConfig) x ∧
      ∃ r ∈ x.synced, r.id ∉ x.answered ∧ r.id ∉ x.capped ∧ ∃ entries s',
        Crashed x.writer.store x.writer.store.disk ∧ Lists entries x.writer.store.disk ∧
        recover .ok oneFrameConfig entries x.writer.store.disk = some s' ∧
        ∀ n, r.frame ∉ drain n s' := by
  let _ := crc32Ieee
  have run : Relation.ReflTransGen (fun a b => ∃ ev, ProcessStep ev a b)
      (Process.start oneFrameConfig) replayedOne :=
    Relation.ReflTransGen.mono (fun _ _ h => ⟨h.choose, h.choose_spec.1⟩) _ _ replayedOne_run
  obtain ⟨s, l, hinv⟩ := (processInv_run replayedOne_run).writer
  have hpeek : ∃ s l, WriterInv (replayedOne.peek .ok).writer s l :=
    writerInv_step hinv (.peek .ok rfl)
  -- what recovery finds is the second frame
  obtain ⟨entries, s', hlists, e, hdrain⟩ :=
    killed_between_steps oneFrameConfig hpeek rfl [⟨1, [8]⟩] (by decide +kernel)
  refine ⟨replayedOne.peek .ok, run.tail ⟨.peek, .peek .ok rfl rfl⟩, ⟨0, 0, ⟨0, [7]⟩⟩, by decide +kernel,
    by decide +kernel, by decide +kernel, entries, s', crashed_refl _, hlists, e, fun n hn => ?_⟩
  rw [hdrain] at hn
  exact absurd (List.mem_of_mem_take hn) (by decide)

omit [Crc32] in
/-- The same run with the first frame answered before its segment is removed. -/
theorem at_least_once_answered : letI := crc32Ieee
    ∃ x : Process, Relation.ReflTransGen GuardedStep (Process.start oneFrameConfig) x ∧
      x.answered = [0] ∧ x.survivors = [⟨1, 1, ⟨1, [8]⟩⟩] ∧
      ∀ r ∈ x.synced, r.id ∈ x.answered ∨ r.id ∈ x.capped ∨ r ∈ x.survivors := by
  let _ := crc32Ieee
  let answered : Process := { replayedOne with queue := [], answered := [0] }
  have hqueue : replayedOne.queue = ⟨[7], some 0⟩ :: [] := rfl
  have htake := replayedOne_run.tail ⟨.take, .take (by decide +kernel) hqueue, fun e => nomatch e⟩
  have hanswer : Relation.ReflTransGen GuardedStep (Process.start oneFrameConfig) answered :=
    htake.tail ⟨.answer, .answer (b := ⟨[7], some 0⟩) rfl, fun e => nomatch e⟩
  have hguard : ReadOutAnswered answered := by
    have hall : ∀ m ∈ answered.writer.store.segments, unread answered.writer.store m = [] →
        ∀ r ∈ answered.record, r.seq = m.seq → r.id ∈ answered.answered := by
      decide +kernel
    exact fun m hm hread _ => hall m hm hread
  have run := hanswer.tail ⟨.peek, .peek .ok rfl rfl, fun _ => hguard⟩
  obtain ⟨s, l, hinv⟩ := (processInv_run run).writer
  obtain ⟨-, -, -, -, hkept, -⟩ := at_least_once oneFrameConfig oneFrameConfig run
    (crashed_refl _) (lists_waiting hinv rfl)
  exact ⟨_, run, by decide +kernel, by decide +kernel, hkept⟩

end Statix.Delivery
