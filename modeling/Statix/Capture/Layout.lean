import Statix.Lib.LittleEndian
import Statix.Rollup.Aggregator

/-!
# The record of the ring buffer

Model of `StatixEvent` (`statix-common/src/lib.rs`) as the bytes the eBPF program writes
(`statix-ebpf/src/main.rs`) and the main loop reads (`statix/src/main.rs`). Both run on one machine;
its byte order is taken to be little endian.

* `length_bytes`: a record has 64 bytes, so the main loop finds none undersized.
* **`read_bytes`**: what is read of a record is what was written.
-/

namespace Statix.Capture

open Statix.Lib

/-- `[u8; 16]`. -/
structure Comm where
  bytes : List UInt8
  length : bytes.length = 16
  deriving DecidableEq

/-- Sixteen zeros. -/
def Comm.zero : Comm := ⟨List.replicate 16 0, List.length_replicate⟩

/-- `StatixEvent`, less its padding. -/
structure RingEvent where
  kind : UInt8
  pid : UInt32
  tgid : UInt32
  cpuId : UInt32
  cgroupId : UInt64
  timestamp : UInt64
  memoryBytes : UInt64
  comm : Comm
  deriving DecidableEq

/-- `size_of::<StatixEvent>()`. -/
def eventSize : Nat := 64

/-- The fields of a record in their order, with the padding. -/
def RingEvent.fields (e : RingEvent) : List (List UInt8) :=
  [[e.kind], List.replicate 7 0, toLe 4 e.pid.toNat, toLe 4 e.tgid.toNat, toLe 4 e.cpuId.toNat,
    List.replicate 4 0, toLe 8 e.cgroupId.toNat, toLe 8 e.timestamp.toNat,
    toLe 8 e.memoryBytes.toNat, e.comm.bytes]

/-- The bytes of a record. -/
def RingEvent.bytes (e : RingEvent) : List UInt8 := e.fields.flatten

/-- The bytes at an offset. -/
def slice (offset width : Nat) (item : List UInt8) : List UInt8 := (item.drop offset).take width

theorem length_slice {offset width : Nat} {item : List UInt8} (h : offset + width ≤ item.length) :
    (slice offset width item).length = width := by
  unfold slice
  rw [List.length_take, List.length_drop]
  omega

/-- The cast of an item that is long enough. -/
def readItem (item : List UInt8) : Option RingEvent :=
  if h : item.length < eventSize then none
  else some {
    kind := UInt8.ofNat (ofLe (slice 0 1 item))
    pid := UInt32.ofNat (ofLe (slice 8 4 item))
    tgid := UInt32.ofNat (ofLe (slice 12 4 item))
    cpuId := UInt32.ofNat (ofLe (slice 16 4 item))
    cgroupId := UInt64.ofNat (ofLe (slice 24 8 item))
    timestamp := UInt64.ofNat (ofLe (slice 32 8 item))
    memoryBytes := UInt64.ofNat (ofLe (slice 40 8 item))
    comm := ⟨slice 48 16 item, length_slice (Nat.le_of_not_lt h)⟩ }

/-- **A record is never undersized.** -/
theorem length_bytes (e : RingEvent) : e.bytes.length = eventSize := by
  simp [RingEvent.bytes, RingEvent.fields, eventSize, e.comm.length]

/-- A field is found at its offset. -/
theorem slice_flatten (before : List (List UInt8)) (field : List UInt8)
    (after : List (List UInt8)) {offset width : Nat}
    (ho : (before.map List.length).sum = offset) (hw : field.length = width) :
    slice offset width (before ++ field :: after).flatten = field := by
  unfold slice
  rw [List.flatten_append, List.flatten_cons, List.drop_left' (by rw [List.length_flatten, ho]),
    List.take_left' hw]

theorem ofLe_u8 (n : UInt8) : UInt8.ofNat (ofLe [n]) = n := by
  simp [ofLe]

theorem ofLe_u32 (n : UInt32) : UInt32.ofNat (ofLe (toLe 4 n.toNat)) = n := by
  rw [ofLe_toLe n.toNat_lt, UInt32.ofNat_toNat]

theorem ofLe_u64 (n : UInt64) : UInt64.ofNat (ofLe (toLe 8 n.toNat)) = n := by
  rw [ofLe_toLe n.toNat_lt, UInt64.ofNat_toNat]

/-- **What is read of a record is what was written.** -/
theorem read_bytes (e : RingEvent) : readItem e.bytes = some e := by
  have hsize : ¬e.bytes.length < eventSize := by
    rw [length_bytes]
    exact Nat.lt_irrefl _
  have hkind : slice 0 1 e.bytes = [e.kind] := slice_flatten [] _ _ rfl rfl
  have hpid : slice 8 4 e.bytes = toLe 4 e.pid.toNat := slice_flatten [_, _] _ _ rfl rfl
  have htgid : slice 12 4 e.bytes = toLe 4 e.tgid.toNat := slice_flatten [_, _, _] _ _ rfl rfl
  have hcpu : slice 16 4 e.bytes = toLe 4 e.cpuId.toNat := slice_flatten [_, _, _, _] _ _ rfl rfl
  have hcgroup : slice 24 8 e.bytes = toLe 8 e.cgroupId.toNat :=
    slice_flatten [_, _, _, _, _, _] _ _ rfl rfl
  have htime : slice 32 8 e.bytes = toLe 8 e.timestamp.toNat :=
    slice_flatten [_, _, _, _, _, _, _] _ _ rfl rfl
  have hmemory : slice 40 8 e.bytes = toLe 8 e.memoryBytes.toNat :=
    slice_flatten [_, _, _, _, _, _, _, _] _ _ rfl rfl
  have hcomm : slice 48 16 e.bytes = e.comm.bytes :=
    slice_flatten [_, _, _, _, _, _, _, _, _] _ _ rfl e.comm.length
  unfold readItem
  rw [dif_neg hsize]
  simp only [hkind, hpid, htgid, hcpu, hcgroup, htime, hmemory, hcomm, ofLe_u8, ofLe_u32, ofLe_u64]

end Statix.Capture
