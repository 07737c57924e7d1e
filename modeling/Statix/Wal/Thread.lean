import Statix.Wal.Invariant

/-!
# The writer thread

Model of `spawn_writer_thread` (`statix/src/wal/writer.rs:19-71`) with `append_one`
(`writer.rs:73-79`) and `sync` (`writer.rs:81-86`) as a machine that can be stopped between any two
effects on the disk. `append` (`mod.rs:192-218`) is cut into the turns of `enforce_cap`
(`mod.rs:287-315`), the sync, the file creation and the header write of `rotate` (`mod.rs:254-283`),
and the two writes of the frame. An error of any of them leads to `recover_active_after_error`
(`mod.rs:223-228`). The drainer's calls come between two group commits, when the thread does not
hold the lock.

* Every call may fail: a removal, `create_dir_all`, the open of the new segment, a `write_all` after
  any number of bytes, the `fdatasync` of a group commit, and whatever `peek_next` calls. The
  outcomes of a repair that a run admits are a parameter of `ThreadStep`.
* `Crashed`: what a crash leaves of the directory. Of the active file, or of one `rotate` was
  creating, its synced prefix followed by anything; every other file as it was.
* `restart` is a crash followed by `recover`, so a run goes through any number of process lives.
* The machine records every frame it appended with its segment number (`history`) and how many of
  them a sync has covered (`covered`). `survivors` are the covered ones whose file is still there.
* **`append_turns`**: the turns from the start of an `append` to its end compute `appendOne`.

`retire` is the same step whether the `fdatasync` of `rotate` succeeds or not: the source ignores its
error, and a crash leaves rotated-out segments as they are.

Out of scope: runs that use up the segment numbers (`NumbersLeft`). The time since the last sync is
an input of the step that reads it.
-/

namespace Statix.Wal

open Statix.Lib

variable [Crc32]

/-- An `append_one` under way: whether it is the group's first, the frames appended since the last
sync, and the payload. -/
structure Appending where
  first : Bool
  sinceSync : Nat
  payload : Bytes
  valid : ValidPayload payload

/-- Bytes the frame takes on disk. -/
def Appending.size (a : Appending) : Nat := frameLenOnDisk a.payload.length

/-- Where the writer thread is. -/
inductive WriterPhase where
  /-- In `blocking_recv`, without the lock. -/
  | waiting
  /-- With the lock, before `try_recv`. -/
  | holding (sinceSync : Nat)
  /-- In `enforce_cap`. -/
  | capping (a : Appending)
  /-- Before `ensure_active_with_room`. -/
  | opening (a : Appending)
  /-- In `rotate`, the active segment given up. -/
  | creating (a : Appending)
  /-- In `rotate`, the new file created. -/
  | heading (a : Appending)
  /-- Before the frame header is written. -/
  | writing (a : Appending)
  /-- Before the payload is written. -/
  | paying (a : Appending) (batchSeq : UInt64)
  /-- `append` returned an error. -/
  | failed (a : Appending)
  /-- `append_one` returned. -/
  | appended (first : Bool) (sinceSync : Nat)

/-- The thread with the store and the record of the run. -/
structure Writer where
  store : Store
  phase : WriterPhase
  history : List (Nat × DecodedFrame)
  covered : Nat

/-- The numbers of the tracked segments. -/
def Store.seqs (s : Store) : List Nat := s.segments.map SegmentMeta.seq

/-- Whether the file of a segment is there. -/
def onDisk (d : Disk) (seq : Nat) : Bool := (d (segmentPath seq)).isSome

/-- The frames a sync covered whose segment is not removed. -/
def Writer.survivors (w : Writer) : List (Nat × DecodedFrame) :=
  (w.history.take w.covered).filter fun e => onDisk w.store.disk e.1

/-- The unread frames with their segment numbers. -/
def taggedOf (s : Store) : List (Nat × DecodedFrame) :=
  s.segments.flatMap fun m => (unread s m).map (m.seq, ·)

/-- An `fdatasync` of the active segment covers every frame appended so far. -/
def Writer.cover (w : Writer) : Nat := if w.store.active.isSome then w.history.length else w.covered

/-- The counter of failed appends and syncs. -/
def countError (s : Store) : Store :=
  { s with metrics := { s.metrics with writeErrors := s.metrics.writeErrors + 1 } }

/-- `sync`. -/
def Writer.sync (io : Io) (w : Writer) : Writer :=
  if w.store.active.isSome && !io.fdatasync then { w with store := countError w.store }
  else { w with store := syncActive .ok w.store, covered := w.cover }

/-- The guard of the `enforce_cap` loop. -/
def overCap (s : Store) (incoming : Nat) : Prop :=
  s.totalBytes + incoming > s.cfg.maxBytes ∧ s.segments.length > 1

/-- `rotate` with the active segment given up: take a number. -/
def takeNumber (s : Store) : Store := { s with nextSeq := u64Succ s.nextSeq }

/-- Then create the file. -/
def createSegment (s : Store) : Store :=
  { takeNumber s with disk := s.disk.create (segmentPath s.nextSeq) }

/-- `rotate` with the file created: the write of its header, torn or not. -/
def writeSegmentHeader (s : Store) (bs : Bytes) : Store :=
  { s with disk := s.disk.modify (segmentPath (s.nextSeq - 1)) (File.writeAt 0 bs) }

/-- Then track it and make it active. -/
def headSegment (s : Store) : Store :=
  let seq := s.nextSeq - 1
  { writeSegmentHeader s encodeSegmentHeader with
    segments := s.segments ++ [⟨seq, segmentPath seq, segmentHeaderLen, 0⟩]
    totalBytes := s.totalBytes + segmentHeaderLen
    active := some ⟨seq, ⟨segmentPath seq, segmentHeaderLen⟩, segmentHeaderLen⟩ }

/-- The write of the frame header, torn or not, with the batch number taken. -/
def writeFrameHeader (s : Store) (fault : Option Nat) (payload : Bytes) : Store :=
  (writeActive { s with nextBatchSeq := s.nextBatchSeq + 1 } fault
    (encodeFrameHeader payload s.nextBatchSeq)).1

/-- The file a crash may tear: the active one or, when there is none, the one `rotate` created last
and has not given its header. -/
def Tearable (s : Store) (n : FileName) : Prop :=
  match s.active with
  | some a => n = a.file.path
  | none => n = segmentPath (s.nextSeq - 1) ∧
      ∃ f, s.disk n = some f ∧ f.data.length < segmentHeaderLen

/-- What a crash can leave of the directory of `s`. -/
structure Crashed (s : Store) (d' : Disk) : Prop where
  names : ∀ n, d' n ≠ none ↔ s.disk n ≠ none
  intact : ∀ n, ¬ Tearable s n → d' n = s.disk n
  torn : ∀ n f f', s.disk n = some f → d' n = some f' → File.Crash f f'

/-- One step of the writer thread. A repair has one of the outcomes `admitted`. -/
inductive ThreadStep (admitted : Io → Prop) : Writer → Writer → Prop
  | recv {w : Writer} (payload : Bytes) (valid : ValidPayload payload) (h : w.phase = .waiting) :
      ThreadStep admitted w { w with phase := .capping ⟨true, 0, payload, valid⟩ }
  | tryRecv {w : Writer} {n : Nat} (payload : Bytes) (valid : ValidPayload payload)
      (h : w.phase = .holding n) :
      ThreadStep admitted w { w with phase := .capping ⟨false, n, payload, valid⟩ }
  | dropOldest {w : Writer} {a : Appending} (io : Io) (h : w.phase = .capping a)
      (tooBig : overCap w.store a.size) :
      ThreadStep admitted w { w with store := dropFront io w.store }
  | capped {w : Writer} {a : Appending} (h : w.phase = .capping a)
      (under : ¬overCap w.store a.size) : ThreadStep admitted w { w with phase := .opening a }
  | hasRoom {w : Writer} {a : Appending} (h : w.phase = .opening a)
      (room : needsRotate w.store a.size = false) :
      ThreadStep admitted w { w with phase := .writing a }
  | retire {w : Writer} {a : Appending} (h : w.phase = .opening a)
      (full : needsRotate w.store a.size = true) :
      ThreadStep admitted w { w with
        store := retireActive .ok w.store
        covered := w.cover
        phase := .creating a }
  -- `create_dir_all` fails
  | noDir {w : Writer} {a : Appending} (h : w.phase = .creating a) :
      ThreadStep admitted w { w with phase := .failed a }
  -- the open fails, with the number taken
  | noFile {w : Writer} {a : Appending} (h : w.phase = .creating a) (number : NumbersLeft w.store) :
      ThreadStep admitted w { w with store := takeNumber w.store, phase := .failed a }
  | create {w : Writer} {a : Appending} (h : w.phase = .creating a) (number : NumbersLeft w.store) :
      ThreadStep admitted w { w with store := createSegment w.store, phase := .heading a }
  | noHead {w : Writer} {a : Appending} (k : Nat) (h : w.phase = .heading a)
      (short : k < segmentHeaderLen) :
      ThreadStep admitted w { w with
        store := writeSegmentHeader w.store (encodeSegmentHeader.take k)
        phase := .failed a }
  | head {w : Writer} {a : Appending} (h : w.phase = .heading a) :
      ThreadStep admitted w { w with store := headSegment w.store, phase := .writing a }
  | tearHeader {w : Writer} {a : Appending} (k : Nat) (h : w.phase = .writing a) :
      ThreadStep admitted w { w with
        store := writeFrameHeader w.store (some k) a.payload
        phase := .failed a }
  | writeHeader {w : Writer} {a : Appending} (h : w.phase = .writing a) :
      ThreadStep admitted w { w with
        store := writeFrameHeader w.store none a.payload
        phase := .paying a w.store.nextBatchSeq }
  | tearPayload {w : Writer} {a : Appending} {q : UInt64} (k : Nat) (h : w.phase = .paying a q) :
      ThreadStep admitted w { w with
        store := (writeActive w.store (some k) a.payload).1
        phase := .failed a }
  | writePayload {w : Writer} {a : Appending} {q : UInt64} {act : ActiveSegment}
      (h : w.phase = .paying a q) (active : w.store.active = some act) :
      ThreadStep admitted w { w with
        store := accountFrame (writeActive w.store none a.payload).1 a.size
        history := w.history ++ [(act.seq, ⟨q, a.payload⟩)]
        phase := .appended a.first (a.sinceSync + 1) }
  | repair {w : Writer} {a : Appending} (io : Io) (h : w.phase = .failed a) (ok : admitted io) :
      ThreadStep admitted w { w with
        store := recoverActiveAfterError io (countError w.store)
        phase := .appended a.first (a.sinceSync + 1) }
  | next {w : Writer} {first : Bool} {n : Nat} (elapsed : Bool) (h : w.phase = .appended first n)
      (notDue : (!first && (n ≥ w.store.cfg.fsyncFrames || elapsed)) = false) :
      ThreadStep admitted w { w with phase := .holding n }
  | due {w : Writer} {first : Bool} {n : Nat} (io : Io) (elapsed : Bool)
      (h : w.phase = .appended first n)
      (isDue : (!first && (n ≥ w.store.cfg.fsyncFrames || elapsed)) = true) :
      ThreadStep admitted w { w.sync io with phase := .holding 0 }
  | finish {w : Writer} {n : Nat} (io : Io) (h : w.phase = .holding n) :
      ThreadStep admitted w { (if n > 0 then w.sync io else w) with phase := .waiting }

/-- A step of the writer thread, a call of the drainer between two group commits, or a crash with a
restart. -/
inductive WriterStep (admitted : Io → Prop) : Writer → Writer → Prop
  | thread {w w' : Writer} (h : ThreadStep admitted w w') : WriterStep admitted w w'
  | peek {w : Writer} (io : Io) (h : w.phase = .waiting) :
      WriterStep admitted w { w with store := (peekNext io w.store).1 }
  | commit {w : Writer} (h : w.phase = .waiting) :
      WriterStep admitted w { w with store := commitPending w.store }
  | restart {w : Writer} {d' : Disk} {entries : List FileName} {s' : Store} (cfg : WalConfig)
      (crash : Crashed w.store d') (lists : Lists entries d')
      (recovered : recover .ok cfg entries d' = some s') :
      WriterStep admitted w ⟨s', .waiting, taggedOf s', w.survivors.length⟩

/-! ## The turns of an append compute `append_one` -/

section Turns

variable {admitted : Io → Prop} {io : Io}

omit [Crc32] in
theorem repaired_failed (io : Io) (s : Store) :
    repaired io (s, false) = (recoverActiveAfterError io (countError s), false) := rfl

/-- The loop of `enforce_cap`, turn by turn. -/
theorem cap_turns (io : Io) (a : Appending) : ∀ (fuel : Nat) {w : Writer}, w.phase = .capping a →
    w.store.segments.length ≤ fuel → Relation.ReflTransGen (ThreadStep admitted) w
      { w with store := enforceCapLoop io a.size fuel w.store, phase := .opening a }
  | 0, w, h, hf => by
    refine .single (.capped h fun hover => ?_)
    have := hover.2
    omega
  | fuel + 1, w, h, hf => by
    rw [enforceCapLoop]
    split
    · rename_i hover
      have hlen : (dropFront io w.store).segments.length ≤ fuel := by
        obtain ⟨victim, front, rest, hs⟩ := exists_victim_front hover.2
        rw [hs] at hf
        rw [dropFront_eq hs]
        exact Nat.le_of_succ_le_succ hf
      exact .head (.dropOldest io h hover)
        (cap_turns io a fuel (w := { w with store := _ }) h hlen)
    · rename_i hunder
      exact .single (.capped h hunder)

omit [Crc32] in
/-- A write to the active segment succeeds unless its outcome is a fault. -/
theorem writeActive_some {act : ActiveSegment} (s : Store) (h : s.active = some act)
    (fault : Option Nat) (bs : Bytes) :
    writeActive s fault bs = ((writeActive s fault bs).1, fault.isNone) ∧
      ∃ act', (writeActive s fault bs).1.active = some act' ∧ act'.seq = act.seq := by
  unfold writeActive
  simp only [h]
  exact ⟨trivial, _, rfl, rfl⟩

/-- What an `append` that returned `r` adds to the record. -/
def recordOf (r : Store × Bool) (q : UInt64) (payload : Bytes) : List (Nat × DecodedFrame) :=
  if r.2 then (r.1.active.map fun act => (act.seq, ⟨q, payload⟩)).toList else []

omit [Crc32] in
theorem recordOf_repaired (r : Store × Bool) (q : UInt64) (payload : Bytes) :
    recordOf (repaired io r) q payload = recordOf r q payload := by
  obtain ⟨s, ok⟩ := r
  cases ok <;> rfl

/-- The two writes of a frame, and the repair when one fails. -/
theorem write_turns (ok : admitted io) {w : Writer} {a : Appending} (h : w.phase = .writing a)
    (hsome : w.store.active ≠ none) : Relation.ReflTransGen (ThreadStep admitted) w
      { w with
        store := (repaired io (writeFrame io w.store a.payload)).1
        history := w.history ++
          recordOf (writeFrame io w.store a.payload) w.store.nextBatchSeq a.payload
        phase := .appended a.first (a.sinceSync + 1) } := by
  obtain ⟨act, hact⟩ := Option.ne_none_iff_exists'.mp hsome
  obtain ⟨he, act₁, hact₁, -⟩ := writeActive_some
    { w.store with nextBatchSeq := w.store.nextBatchSeq + 1 } hact io.writeFrameHeader
    (encodeFrameHeader a.payload w.store.nextBatchSeq)
  cases hh : io.writeFrameHeader with
  | some k =>
    have htear : ThreadStep admitted w _ := .tearHeader k h
    rw [hh] at he
    rw [writeFrame_header_err (by rw [hh]; exact he), repaired_failed]
    show Relation.ReflTransGen _ w { w with store := _, history := w.history ++ [], phase := _ }
    rw [List.append_nil]
    exact (Relation.ReflTransGen.single htear).tail
      (.repair io (w := { w with store := _, phase := .failed a }) rfl ok)
  | none =>
    have hhead : Relation.ReflTransGen (ThreadStep admitted) w _ := .single (.writeHeader h)
    rw [hh] at he hact₁
    obtain ⟨he₂, act₂, hact₂, hseq⟩ := writeActive_some _ hact₁ io.writePayload a.payload
    rw [writeFrame_payload (by rw [hh]; exact he) he₂]
    cases hp : io.writePayload with
    | some k =>
      have htear := hhead.tail (.tearPayload k
        (w := { w with store := _, phase := .paying a w.store.nextBatchSeq }) rfl)
      show Relation.ReflTransGen _ w { w with store := _, history := w.history ++ [], phase := _ }
      rw [List.append_nil]
      exact htear.tail (.repair io (w := { w with store := _, phase := .failed a }) rfl ok)
    | none =>
      rw [hp] at hact₂
      have hrecord : recordOf (accountFrame (writeActive (writeActive
          { w.store with nextBatchSeq := w.store.nextBatchSeq + 1 } none
          (encodeFrameHeader a.payload w.store.nextBatchSeq)).1 none a.payload).1
          (frameLenOnDisk a.payload.length), true) w.store.nextBatchSeq a.payload =
          [(act₁.seq, ⟨w.store.nextBatchSeq, a.payload⟩)] := by
        unfold recordOf accountFrame
        simp only [hact₂, if_true, Option.map_some, Option.toList_some, hseq]
      simp only [Option.isNone_none, if_true, hrecord]
      exact hhead.tail (.writePayload
        (w := { w with store := _, phase := .paying a w.store.nextBatchSeq }) rfl hact₁)

/-- The thread after an `append_one`, with the record of it. -/
def Writer.after (io : Io) (w : Writer) (a : Appending) : Writer :=
  let r := appendOne io w.store a.payload
  { store := r.1
    phase := .appended a.first (a.sinceSync + 1)
    history := w.history ++ recordOf r w.store.nextBatchSeq a.payload
    covered := if needsRotate w.store a.size then w.cover else w.covered }

omit [Crc32] in
/-- A sync that succeeds is the same for all outcomes of the other calls. -/
theorem retireActive_sync (sync : io.fdatasync = true) (s : Store) :
    retireActive io s = retireActive .ok s := by
  unfold retireActive syncDisk
  rw [sync]
  rfl

omit [Crc32] in
theorem needsRotate_enforceCap (io : Io) (s : Store) (incoming size : Nat) :
    needsRotate (enforceCap io s incoming) size = needsRotate s size := by
  obtain ⟨hact, -, hcfg, -⟩ := enforceCap_frame io s incoming
  unfold needsRotate
  rw [hact, hcfg]

/-- A rotation from the moment the active segment is given up, when it fails: the turns up to the
error. -/
theorem rotate_fails_turns {w : Writer} {a : Appending} {s s' : Store} (h : w.phase = .creating a)
    (hs : w.store = retireActive io s) (number : NumbersLeft w.store)
    (short : ∀ k, io.writeSegmentHeader = some k → k < segmentHeaderLen)
    (e : rotate io s = (s', false)) :
    Relation.ReflTransGen (ThreadStep admitted) w { w with store := s', phase := .failed a } := by
  unfold rotate at e
  simp only [← hs] at e
  split at e
  · obtain rfl := (Prod.ext_iff.mp e).1
    exact .single (.noDir h)
  · split at e
    · obtain rfl := (Prod.ext_iff.mp e).1
      exact .single (.noFile h number)
    · cases hw : io.writeSegmentHeader with
      | none =>
        rw [hw] at e
        cases (Prod.ext_iff.mp e).2
      | some k =>
        have hcreate : Relation.ReflTransGen (ThreadStep admitted) w _ :=
          .single (.create h number)
        have hhead := hcreate.tail (.noHead k (w := { w with store := _, phase := _ }) rfl
          (short k hw))
        rw [hw] at e
        obtain rfl := (Prod.ext_iff.mp e).1
        have hnum : u64Succ w.store.nextSeq - 1 = w.store.nextSeq := by
          rw [u64Succ_of_lt number, Nat.add_sub_cancel]
        simpa only [writeSegmentHeader, createSegment, takeNumber, hnum] using hhead

/-- A rotation from the moment the active segment is given up, when it succeeds. -/
theorem rotate_turns {w : Writer} {a : Appending} {s s' : Store} (h : w.phase = .creating a)
    (hs : w.store = retireActive io s) (number : NumbersLeft w.store)
    (e : rotate io s = (s', true)) :
    s'.active ≠ none ∧
      Relation.ReflTransGen (ThreadStep admitted) w { w with store := s', phase := .writing a } := by
  unfold rotate at e
  simp only [← hs] at e
  split at e
  · cases (Prod.ext_iff.mp e).2
  · split at e
    · cases (Prod.ext_iff.mp e).2
    · cases hw : io.writeSegmentHeader with
      | some k =>
        rw [hw] at e
        cases (Prod.ext_iff.mp e).2
      | none =>
        have hcreate : Relation.ReflTransGen (ThreadStep admitted) w _ :=
          .single (.create h number)
        have hhead := hcreate.tail (.head (w := { w with store := _, phase := _ }) rfl)
        rw [hw] at e
        obtain rfl := (Prod.ext_iff.mp e).1
        have hnum : u64Succ w.store.nextSeq - 1 = w.store.nextSeq := by
          rw [u64Succ_of_lt number, Nat.add_sub_cancel]
        refine ⟨Option.some_ne_none _, ?_⟩
        simpa only [headSegment, writeSegmentHeader, createSegment, takeNumber, hnum] using hhead

/-- **The turns of an append compute `append_one`**, for every outcome of its calls but an
`fdatasync` that fails. -/
theorem append_turns (ok : admitted io) (sync : io.fdatasync = true)
    (short : ∀ k, io.writeSegmentHeader = some k → k < segmentHeaderLen) {w : Writer}
    {a : Appending} (h : w.phase = .capping a) (number : NumbersLeft w.store) :
    Relation.ReflTransGen (ThreadStep admitted) w (w.after io a) := by
  obtain ⟨hact, hnext, -, hbatch⟩ := enforceCap_frame io w.store a.size
  have hcap : Relation.ReflTransGen (ThreadStep admitted) w
      { w with store := enforceCap io w.store a.size, phase := .opening a } :=
    cap_turns io a w.store.segments.length h (Nat.le_refl _)
  have hneeds := needsRotate_enforceCap io w.store a.size a.size
  unfold Writer.after
  rw [appendOne_eq, ← hneeds]
  simp only [recordOf_repaired]
  generalize hs₁ : enforceCap io w.store a.size = s₁ at *
  cases hrot : needsRotate s₁ a.size with
  | false =>
    have hroom := hcap.tail (.hasRoom (w := { w with store := s₁, phase := .opening a }) rfl hrot)
    rw [append_room ((congrArg (ensureActiveWithRoom io · a.size) hs₁).trans
      (ensureActiveWithRoom_stay io hrot)), ← hbatch]
    have hsome : s₁.active ≠ none := by
      intro hnone
      unfold needsRotate at hrot
      rw [hnone] at hrot
      cases hrot
    exact hroom.trans (write_turns ok (w := { w with store := s₁, phase := .writing a }) rfl hsome)
  | true =>
    have hret := hcap.tail (.retire (w := { w with store := s₁, phase := .opening a }) rfl hrot)
    have hcover : Writer.cover { w with store := s₁, phase := .opening a } = w.cover := by
      unfold Writer.cover
      rw [hact]
    rw [hcover] at hret
    have hopen : ensureActiveWithRoom io (enforceCap io w.store a.size) a.size = rotate io s₁ := by
      rw [hs₁, ensureActiveWithRoom_rotate io hrot]
    have hnum : NumbersLeft (retireActive .ok s₁) := hnext.trans_lt number
    have hsync := (retireActive_sync sync s₁).symm
    generalize hr : rotate io s₁ = r at hopen
    obtain ⟨s₂, done⟩ := r
    cases done with
    | false =>
      have hfail := hret.trans (rotate_fails_turns
        (w := { w with store := retireActive .ok s₁, covered := w.cover, phase := .creating a }) rfl
        hsync hnum short hr)
      rw [append_no_room hopen, repaired_failed]
      show Relation.ReflTransGen _ w { w with
        store := _, history := w.history ++ [], phase := _, covered := _ }
      rw [List.append_nil]
      exact hfail.tail (.repair io (w := { w with store := s₂, covered := _, phase := _ }) rfl ok)
    | true =>
      obtain ⟨hsome, hturns⟩ := @rotate_turns _ admitted io
        { w with store := retireActive .ok s₁, covered := w.cover, phase := .creating a } a _ _ rfl
        hsync hnum hr
      have hq : s₂.nextBatchSeq = w.store.nextBatchSeq := by
        rw [← hbatch]
        rcases rotate_cases io s₁ with e | e | ⟨k, e⟩ | e <;> rw [hr] at e <;> cases e
        rfl
      rw [append_room hopen, ← hq]
      exact (hret.trans hturns).trans
        (write_turns ok (w := { w with store := s₂, covered := w.cover, phase := _ }) rfl hsome)

end Turns

end Statix.Wal
