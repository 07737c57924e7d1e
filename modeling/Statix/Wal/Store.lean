import Statix.Lib.SegLog
import Statix.Wal.Walk

/-!
# The on-disk store

Model of `WalInner` (`statix/src/wal/mod.rs:170-397`): `append` (`mod.rs:192-218`),
`recover_active_after_error` (`mod.rs:223-228`), `sync_active` (`mod.rs:230-237`),
`ensure_active_with_room` (`mod.rs:239-252`), `rotate` (`mod.rs:254-283`), `enforce_cap`
(`mod.rs:287-315`), `peek_next` (`mod.rs:319-359`), `commit_pending` (`mod.rs:362-367`),
`gc_front_consumed` (`mod.rs:371-387`) and `has_backlog` (`mod.rs:391-396`), and of `append_one` and
`sync` (`writer.rs:73-86`).

* `Store` is `WalInner` together with the WAL directory and the `statix_wal_*` counters, which the
  Rust keeps outside the struct.
* Every I/O call takes its outcome from `Io`: `remove_file`, `File::open` for reading,
  `create_dir_all`, opening the new segment, the three `write_all`s (a failing one has written some
  first bytes of its buffer), `fdatasync`, and the `set_len` and `seek` of the repair, whose errors
  the source ignores. `Io.ok` is the run without failures.
* The open active file is a `FileHandle`: the file it was opened on and its write position.
* Byte counts are `Nat`. `next_seq` is a `u64`, and `next_seq += 1` wraps (`u64Succ`; there are no
  overflow checks in a release build). After `u64::MAX` a segment gets the number 0, which may be
  that of a tracked one, and recovery sorts by number. What depends on it asks for `NumbersLeft`.
  `next_batch_seq` wraps as well.
* `peekLoop` and `enforceCapLoop` are the source's `loop` and `while`, with the number of tracked
  segments as fuel; each turn that loops removes one.

Out of scope: gauges, histograms and log lines, which carry no state; `advise_dontneed`, a hint to
the page cache; `u64` sums of byte counts, which stay below the size of the disk.
-/

namespace Statix.Wal

open Statix.Lib

/-- The WAL directory. -/
abbrev Disk := Dir FileName UInt8

/-- `WalConfig`, without the directory (paths are relative to it). -/
structure WalConfig where
  enabled : Bool
  maxBytes : Nat
  segmentBytes : Nat
  fsyncFrames : Nat
  fsyncInterval : Nat
  deriving DecidableEq

/-- `SegmentMeta`. -/
structure SegmentMeta where
  seq : Nat
  path : FileName
  bytes : Nat
  frames : Nat
  deriving DecidableEq

/-- An open file: what it was opened on, and the write position. -/
structure FileHandle where
  path : FileName
  pos : Nat
  deriving DecidableEq

/-- `ActiveSegment`. -/
structure ActiveSegment where
  seq : Nat
  file : FileHandle
  offset : Nat
  deriving DecidableEq

/-- `WalInner`. -/
structure WalInner where
  cfg : WalConfig
  segments : List SegmentMeta
  active : Option ActiveSegment
  totalBytes : Nat
  nextSeq : Nat
  nextBatchSeq : UInt64
  readSeq : Nat
  readOffset : Nat
  pendingAdvance : Option Nat

/-- The `statix_wal_*_total` counters. -/
structure WalMetrics where
  framesWritten : Nat := 0
  framesReplayed : Nat := 0
  droppedBatches : Nat := 0
  droppedBytes : Nat := 0
  corruptFrames : Nat := 0
  writeErrors : Nat := 0
  deriving DecidableEq

/-- The store with the directory it works on. -/
structure Store extends WalInner where
  disk : Disk
  metrics : WalMetrics

/-- Outcomes of the I/O calls of one operation. A failing `write_all` is `some k`: `k` bytes of
its buffer were written before the error. -/
structure Io where
  removeFile : FileName → Bool
  openRead : FileName → Bool
  createDirAll : Bool
  openSegment : Bool
  writeSegmentHeader : Option Nat
  writeFrameHeader : Option Nat
  writePayload : Option Nat
  fdatasync : Bool
  setLen : FileName → Bool
  seek : Bool

/-- No call fails. -/
def Io.ok : Io := ⟨fun _ => true, fun _ => true, true, true, none, none, none, true,
  fun _ => true, true⟩

/-- The repair after a failed append succeeds. -/
def Io.Repairs (io : Io) : Prop := (∀ n, io.setLen n = true) ∧ io.seek = true

theorem Io.repairs_ok : Io.ok.Repairs := ⟨fun _ => rfl, rfl⟩

/-- `u64::MAX`. -/
def u64Max : Nat := 2 ^ 64 - 1

/-- `+= 1` on a `u64`. -/
def u64Succ (n : Nat) : Nat := (n + 1) % 2 ^ 64

/-- The next segment does not take the last number. -/
abbrev NumbersLeft (s : Store) : Prop := s.nextSeq < u64Max

theorem u64Succ_of_lt {n : Nat} (h : n < u64Max) : u64Succ n = n + 1 := by
  unfold u64Max at h
  exact Nat.mod_eq_of_lt (by omega)

theorem lt_u64Succ {n : Nat} (h : n < u64Max) : n < u64Succ n := by
  rw [u64Succ_of_lt h]
  exact Nat.lt_succ_self n

theorem u64Succ_le {n : Nat} (h : n < u64Max) : u64Succ n ≤ u64Max := by
  rw [u64Succ_of_lt h]
  exact h

/-- `remove_file`, its error ignored. -/
def removeFile (io : Io) (d : Disk) (path : FileName) : Disk :=
  if io.removeFile path then d.remove path else d

/-! ## Writing -/

/-- `write_all` on the active file; `false` when it failed. -/
def writeActive (s : Store) (fault : Option Nat) (bs : Bytes) : Store × Bool :=
  match s.active with
  | none => (s, false)
  | some a =>
    let written := match fault with
      | none => bs
      | some k => bs.take k
    ({ s with
        active := some { a with file := { a.file with pos := a.file.pos + written.length } }
        disk := s.disk.modify a.file.path (File.writeAt a.file.pos written) },
      fault.isNone)

/-- `fdatasync` of the active file, when there is one. -/
def syncDisk (io : Io) (active : Option ActiveSegment) (d : Disk) : Disk :=
  match active with
  | none => d
  | some a => if io.fdatasync then d.modify a.file.path File.sync else d

/-- `sync_active`. -/
def syncActive (io : Io) (s : Store) : Store := { s with disk := syncDisk io s.active s.disk }

/-- The first statement of `rotate`: give up the active segment, syncing it. -/
def retireActive (io : Io) (s : Store) : Store :=
  { s with active := none, disk := syncDisk io s.active s.disk }

/-- `rotate`. -/
def rotate (io : Io) (s₀ : Store) : Store × Bool :=
  let s := retireActive io s₀
  if io.createDirAll = false then (s, false)
  else
    let seq := s.nextSeq
    let path := segmentPath seq
    let s := { s with nextSeq := u64Succ seq }
    if io.openSegment = false then (s, false)
    else
      let disk := s.disk.create path
      match io.writeSegmentHeader with
      | some k =>
        ({ s with disk := disk.modify path (File.writeAt 0 (encodeSegmentHeader.take k)) }, false)
      | none =>
        ({ s with
            disk := disk.modify path (File.writeAt 0 encodeSegmentHeader)
            segments := s.segments ++ [⟨seq, path, segmentHeaderLen, 0⟩]
            totalBytes := s.totalBytes + segmentHeaderLen
            active := some ⟨seq, ⟨path, segmentHeaderLen⟩, segmentHeaderLen⟩ }, true)

/-- The guard of `ensure_active_with_room`. -/
def needsRotate (s : Store) (frameSize : Nat) : Bool :=
  match s.active with
  | none => true
  | some a => a.offset > segmentHeaderLen && a.offset + frameSize > s.cfg.segmentBytes

/-- `ensure_active_with_room`. -/
def ensureActiveWithRoom (io : Io) (s : Store) (frameSize : Nat) : Store × Bool :=
  if needsRotate s frameSize then rotate io s else (s, true)

/-- One turn of the `enforce_cap` loop: drop the oldest segment. -/
def dropFront (io : Io) (s : Store) : Store :=
  match s.segments with
  | [] => s
  | victim :: rest =>
    let s := { s with
      segments := rest
      totalBytes := s.totalBytes - victim.bytes
      metrics := { s.metrics with
        droppedBatches := s.metrics.droppedBatches + victim.frames
        droppedBytes := s.metrics.droppedBytes + victim.bytes }
      disk := removeFile io s.disk victim.path }
    if s.readSeq = victim.seq then
      match rest with
      | [] => s
      | front :: _ =>
        { s with readSeq := front.seq, readOffset := segmentHeaderLen, pendingAdvance := none }
    else s

/-- The loop of `enforce_cap`. -/
def enforceCapLoop (io : Io) (incoming : Nat) : Nat → Store → Store
  | 0, s => s
  | fuel + 1, s =>
    if s.totalBytes + incoming > s.cfg.maxBytes ∧ s.segments.length > 1 then
      enforceCapLoop io incoming fuel (dropFront io s)
    else s

/-- `enforce_cap`. -/
def enforceCap (io : Io) (s : Store) (incoming : Nat) : Store :=
  enforceCapLoop io incoming s.segments.length s

/-- The bookkeeping after both writes of `append`. -/
def accountFrame (s : Store) (frameSize : Nat) : Store :=
  { s with
    active := s.active.map fun a => { a with offset := a.offset + frameSize }
    segments := updateBack
      (fun m => { m with bytes := m.bytes + frameSize, frames := m.frames + 1 }) s.segments
    totalBytes := s.totalBytes + frameSize
    metrics := { s.metrics with framesWritten := s.metrics.framesWritten + 1 } }

section Frames

variable [Crc32]

/-- The second half of `append`, with an active segment that has room: take a batch number, write
header and payload, account for the frame. -/
def writeFrame (io : Io) (s₀ : Store) (payload : Bytes) : Store × Bool :=
  let batchSeq := s₀.nextBatchSeq
  let s := { s₀ with nextBatchSeq := batchSeq + 1 }
  match writeActive s io.writeFrameHeader (encodeFrameHeader payload batchSeq) with
  | (s, false) => (s, false)
  | (s, true) =>
    match writeActive s io.writePayload payload with
    | (s, false) => (s, false)
    | (s, true) => (accountFrame s (frameLenOnDisk payload.length), true)

/-- `append`; `false` is `Err`. -/
def append (io : Io) (s : Store) (payload : Bytes) : Store × Bool :=
  let frameSize := frameLenOnDisk payload.length
  match ensureActiveWithRoom io (enforceCap io s frameSize) frameSize with
  | (s, false) => (s, false)
  | (s, true) => writeFrame io s payload

end Frames

/-- `recover_active_after_error`: cut the active file back to the last good frame boundary and go
there. The errors of both calls are ignored. -/
def recoverActiveAfterError (io : Io) (s : Store) : Store :=
  match s.active with
  | none => s
  | some a =>
    { s with
      disk :=
        if io.setLen a.file.path then s.disk.modify a.file.path (File.setLen a.offset) else s.disk
      active := some { a with
        file := { a.file with pos := if io.seek then a.offset else a.file.pos } } }

/-- `append_one` of `writer.rs`. -/
def appendOne [Crc32] (io : Io) (s : Store) (payload : Bytes) : Store × Bool :=
  match append io s payload with
  | (s, true) => (s, true)
  | (s, false) =>
    (recoverActiveAfterError io
      { s with metrics := { s.metrics with writeErrors := s.metrics.writeErrors + 1 } }, false)

/-! ## Reading -/

/-- `gc_front_consumed`: delete the segment under the read cursor, go to the front. -/
def gcFrontConsumed (io : Io) (s : Store) : Store :=
  let s := match s.segments.find? (fun m => m.seq == s.readSeq) with
    | none => s
    | some m =>
      { s with
        segments := s.segments.eraseP (fun m => m.seq == s.readSeq)
        totalBytes := s.totalBytes - m.bytes
        disk := removeFile io s.disk m.path }
  let s := match s.segments with
    | [] => s
    | front :: _ => { s with readSeq := front.seq, readOffset := segmentHeaderLen }
  { s with pendingAdvance := none }

/-- The start of a `peek_next` turn: put the cursor on the front when its segment is gone. -/
def resync (s : Store) : Store :=
  if s.segments.any (fun m => m.seq == s.readSeq) then s
  else
    match s.segments with
    | [] => s
    | front :: _ => { s with readSeq := front.seq, readOffset := segmentHeaderLen }

/-- Whether the cursor is on the active segment. -/
def readsActive (s : Store) : Bool :=
  match s.active with
  | none => false
  | some a => a.seq == s.readSeq

/-- Result of `peek_next`. -/
inductive Peek where
  /-- `Ok(Some(frame))`. -/
  | frame (f : DecodedFrame)
  /-- `Ok(None)`. -/
  | caughtUp
  /-- `Err(_)`. -/
  | failed
  deriving DecidableEq

/-- `File::open` for reading. -/
def openRead (io : Io) (d : Disk) (path : FileName) : Option Bytes :=
  if io.openRead path then (d path).map File.data else none

variable [Crc32]

/-- The loop of `peek_next`. -/
def peekLoop (io : Io) : Nat → Store → Store × Peek
  | 0, s => (s, .caughtUp)
  | fuel + 1, s₀ =>
    let s := resync s₀
    match s.segments.find? (fun m => m.seq == s.readSeq) with
    | none => (s, .caughtUp)
    | some m =>
      match openRead io s.disk m.path with
      | none => (s, .failed)
      | some file =>
        match readFrameAt file s.readOffset with
        | .frame f next => ({ s with pendingAdvance := some next }, .frame f)
        | .atEnd | .corrupt =>
          if readsActive s then (s, .caughtUp) else peekLoop io fuel (gcFrontConsumed io s)

/-- `peek_next`. -/
def peekNext (io : Io) (s : Store) : Store × Peek := peekLoop io (s.segments.length + 1) s

omit [Crc32]

/-- `commit_pending`. -/
def commitPending (s : Store) : Store :=
  match s.pendingAdvance with
  | none => s
  | some next =>
    { s with
      readOffset := next
      pendingAdvance := none
      metrics := { s.metrics with framesReplayed := s.metrics.framesReplayed + 1 } }

/-- `has_backlog`. -/
def hasBacklog (s : Store) : Bool :=
  match s.active with
  | none => false
  | some a => s.readSeq != a.seq || s.readOffset < a.offset

/-- `empty_inner`, on a directory `disk`. -/
def emptyStore (cfg : WalConfig) (disk : Disk) : Store where
  cfg := cfg
  segments := []
  active := none
  totalBytes := 0
  nextSeq := 0
  nextBatchSeq := 0
  readSeq := 0
  readOffset := segmentHeaderLen
  pendingAdvance := none
  disk := disk
  metrics := {}

end Statix.Wal
