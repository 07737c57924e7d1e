import Statix.Wal.Store

/-!
# What a store stands for

`Represents s l`: the store `s` (deque, active handle, byte total, cursor, directory) represents the
segmented log `l` of frames. It is the representation invariant of `WalInner`, with the log as the
witness of what the tracked files contain.

* every tracked segment's entry and file are those of a segment of `l`: a valid 16-byte header
  followed by the encoded frames (`metaOf`, `HoldsSeg`);
* sequence numbers increase and stay below `next_seq`; every file of the directory is a segment
  file with a number below `next_seq`;
* the active segment, when there is one, is the back one, with its offset at the end of the file;
* the cursor is on no tracked segment, or on the front one at the boundary of frame `l.consumed`
  with the pending advance, when there is one, at the next boundary (`CursorAt`).

`durableLen` is the number of synced bytes of a segment's file, and `Keeps` says an operation does
not shrink it on the segments it leaves tracked.
-/

namespace Statix.Wal

open Statix.Lib

/-- The log of frames a store represents. -/
abbrev FrameLog := SegLog DecodedFrame

/-- Synced bytes of a segment's file. -/
def durableLen (d : Disk) (seq : Nat) : Nat := ((d (segmentPath seq)).map File.synced).getD 0

variable [Crc32]

/-- Bytes of the segment's file. -/
def segBytes (g : Seg DecodedFrame) : Nat := segmentHeaderLen + (encodeFrames g.items).length

/-- The offset right after the first `k` frames. -/
def boundary (g : Seg DecodedFrame) (k : Nat) : Nat :=
  segmentHeaderLen + (encodeFrames (g.items.take k)).length

/-- The `SegmentMeta` of a segment. -/
def metaOf (g : Seg DecodedFrame) : SegmentMeta :=
  ⟨g.seq, segmentPath g.seq, segBytes g, g.items.length⟩

/-- The `ActiveSegment` on a segment: opened on its file, positioned at its end. -/
def activeOf (g : Seg DecodedFrame) : ActiveSegment :=
  ⟨g.seq, ⟨segmentPath g.seq, segBytes g⟩, segBytes g⟩

/-- The segment's file on disk: a valid header, then the frames. -/
structure HoldsSeg (d : Disk) (g : Seg DecodedFrame) : Prop where
  file : ∃ file hdr, d (segmentPath g.seq) = some file ∧ file.data = hdr ++ encodeFrames g.items ∧
    hdr.length = segmentHeaderLen ∧ validateSegmentHeader hdr = .ok () ∧ file.WF

/-- Where the read cursor is. -/
inductive CursorAt (s : Store) (l : FrameLog) : Prop
  /-- On no tracked segment: `peek_next` will move it to the front. -/
  | off (untracked : ∀ g ∈ l.segs, g.seq ≠ s.readSeq) (consumed : l.consumed = 0)
      (pending : s.pendingAdvance = none) (le : s.readSeq ≤ s.nextSeq)
      (fresh : s.readSeq = s.nextSeq → l.segs = [] ∧ s.readOffset = segmentHeaderLen)
  /-- On the front segment, after `l.consumed` frames. -/
  | front (g : Seg DecodedFrame) (rest : List (Seg DecodedFrame)) (segs : l.segs = g :: rest)
      (seq : s.readSeq = g.seq) (offset : s.readOffset = boundary g l.consumed)
      (pending : s.pendingAdvance = none ∨
        l.consumed < g.items.length ∧ s.pendingAdvance = some (boundary g (l.consumed + 1)))

/-- **The store `s` represents the log `l`.** -/
structure Represents (s : Store) (l : FrameLog) : Prop where
  segments : s.segments = l.segs.map metaOf
  files : ∀ g ∈ l.segs, HoldsSeg s.disk g
  valid : ∀ g ∈ l.segs, ∀ f ∈ g.items, ValidPayload f.payload
  sorted : l.segs.Pairwise fun a b => a.seq < b.seq
  below : ∀ g ∈ l.segs, g.seq < s.nextSeq
  fits : s.nextSeq ≤ u64Max
  total : s.totalBytes = (l.segs.map segBytes).sum
  active : s.active = none ∨ ∃ init g, l.segs = init ++ [g] ∧ s.active = some (activeOf g)
  cursor : CursorAt s l
  named : ∀ n, s.disk n ≠ none → ∃ seq, seq < s.nextSeq ∧ n = segmentPath seq

/-- The synced part of every tracked segment survives the step from `d` to `d'`. -/
def Keeps (d d' : Disk) (l : FrameLog) : Prop :=
  ∀ g ∈ l.segs, durableLen d g.seq ≤ durableLen d' g.seq

/-! ## Small facts -/

@[simp] theorem metaOf_seq (g : Seg DecodedFrame) : (metaOf g).seq = g.seq := rfl

@[simp] theorem metaOf_path (g : Seg DecodedFrame) : (metaOf g).path = segmentPath g.seq := rfl

@[simp] theorem metaOf_bytes (g : Seg DecodedFrame) : (metaOf g).bytes = segBytes g := rfl

@[simp] theorem boundary_zero (g : Seg DecodedFrame) : boundary g 0 = segmentHeaderLen := rfl

theorem boundary_length (g : Seg DecodedFrame) : boundary g g.items.length = segBytes g := by
  unfold boundary segBytes
  rw [List.take_length]

theorem boundary_le (g : Seg DecodedFrame) (k : Nat) : boundary g k ≤ segBytes g := by
  unfold boundary segBytes
  exact Nat.add_le_add_left (length_encodeFrames_take k g.items) _

theorem boundary_succ {g : Seg DecodedFrame} {k : Nat} (h : k < g.items.length) :
    boundary g (k + 1) = boundary g k + frameLenOnDisk g.items[k].payload.length := by
  unfold boundary
  rw [List.take_succ_eq_append_getElem h, encodeFrames_append, List.length_append,
    encodeFrames_cons, encodeFrames_nil, List.append_nil, length_encodeFrame, Nat.add_assoc]

theorem HoldsSeg.congr {d d' : Disk} {g : Seg DecodedFrame} (h : HoldsSeg d g)
    (e : d' (segmentPath g.seq) = d (segmentPath g.seq)) : HoldsSeg d' g := by
  obtain ⟨file, hdr, hd, hr⟩ := h.file
  exact ⟨file, hdr, e.trans hd, hr⟩

theorem HoldsSeg.sync {d : Disk} {g : Seg DecodedFrame} (h : HoldsSeg d g) (path : FileName) :
    HoldsSeg (d.modify path File.sync) g := by
  obtain ⟨file, hdr, hd, hr⟩ := h.file
  by_cases hp : segmentPath g.seq = path
  · subst hp
    refine ⟨file.sync, hdr, ?_, hr.1, hr.2.1, hr.2.2.1, file.wf_sync⟩
    rw [Dir.modify_self, hd]
    rfl
  · exact ⟨file, hdr, (Dir.modify_ne d _ hp).trans hd, hr⟩

/-- The file of a tracked segment is as long as its entry says, and synced inside. -/
theorem HoldsSeg.length {d : Disk} {g : Seg DecodedFrame} (h : HoldsSeg d g) :
    ∃ file, d (segmentPath g.seq) = some file ∧ file.data.length = segBytes g ∧ file.WF := by
  obtain ⟨file, hdr, hd, hdata, hlen, -, hwf⟩ := h.file
  refine ⟨file, hd, ?_, hwf⟩
  rw [hdata, List.length_append, hlen, segBytes]

omit [Crc32] in
theorem durableLen_congr {d d' : Disk} {seq : Nat}
    (e : d' (segmentPath seq) = d (segmentPath seq)) : durableLen d' seq = durableLen d seq := by
  unfold durableLen
  rw [e]

/-- Reading the frame under the cursor. -/
theorem HoldsSeg.read {d : Disk} {g : Seg DecodedFrame} (h : HoldsSeg d g)
    (hv : ∀ f ∈ g.items, ValidPayload f.payload) {k : Nat} (hk : k < g.items.length) :
    ∃ file, d (segmentPath g.seq) = some file ∧
      readFrameAt file.data (boundary g k) = .frame g.items[k] (boundary g (k + 1)) := by
  obtain ⟨file, hdr, hd, hdata, hlen, -, -⟩ := h.file
  refine ⟨file, hd, ?_⟩
  have hsplit : encodeFrames g.items =
      encodeFrames (g.items.take k) ++
        (encodeFrame g.items[k] ++ encodeFrames (g.items.drop (k + 1))) := by
    rw [← encodeFrames_cons, ← List.drop_eq_getElem_cons hk, ← encodeFrames_append,
      List.take_append_drop]
  rw [hdata, hsplit, ← List.append_assoc, boundary_succ hk]
  exact readFrameAt_encode (hv _ (List.getElem_mem hk)) (by rw [List.length_append, hlen, boundary])

/-- Reading at the end of the segment. -/
theorem HoldsSeg.read_end {d : Disk} {g : Seg DecodedFrame} (h : HoldsSeg d g) :
    ∃ file, d (segmentPath g.seq) = some file ∧
      readFrameAt file.data (boundary g g.items.length) = .atEnd := by
  obtain ⟨file, hd, hlen, -⟩ := h.length
  exact ⟨file, hd, readFrameAt_end (by rw [hlen, boundary_length])⟩

/-- The frames of the segment's file from the cursor on. -/
theorem HoldsSeg.framesFrom {d : Disk} {g : Seg DecodedFrame} (h : HoldsSeg d g)
    (hv : ∀ f ∈ g.items, ValidPayload f.payload) (k : Nat) :
    ∃ file, d (segmentPath g.seq) = some file ∧
      framesFrom file.data (boundary g k) = g.items.drop k := by
  obtain ⟨file, hdr, hd, hdata, hlen, -, -⟩ := h.file
  refine ⟨file, hd, ?_⟩
  have hsplit : encodeFrames g.items =
      encodeFrames (g.items.take k) ++ encodeFrames (g.items.drop k) := by
    rw [← encodeFrames_append, List.take_append_drop]
  rw [hdata, hsplit, ← List.append_assoc]
  exact framesFrom_exact (fun f hf => hv f (List.mem_of_mem_drop hf))
    (by rw [List.length_append, hlen, boundary])

namespace Represents

variable {s s' : Store} {l : FrameLog}

/-- `Represents` reads the bookkeeping fields and the tracked files only. -/
theorem congr (h : Represents s l) (hseg : s'.segments = s.segments) (hact : s'.active = s.active)
    (htot : s'.totalBytes = s.totalBytes) (hnext : s'.nextSeq = s.nextSeq)
    (hseq : s'.readSeq = s.readSeq) (hoff : s'.readOffset = s.readOffset)
    (hpend : s'.pendingAdvance = s.pendingAdvance) (hfiles : ∀ g ∈ l.segs, HoldsSeg s'.disk g)
    (hnamed : ∀ n, s'.disk n ≠ none → s.disk n ≠ none) : Represents s' l where
  segments := hseg.trans h.segments
  files := hfiles
  valid := h.valid
  sorted := h.sorted
  below := by rw [hnext]; exact h.below
  fits := by rw [hnext]; exact h.fits
  total := htot.trans h.total
  active := by rw [hact]; exact h.active
  cursor := by
    cases h.cursor with
    | off h1 h2 h3 h4 h5 =>
      exact .off (by rw [hseq]; exact h1) h2 (hpend.trans h3) (by rw [hseq, hnext]; exact h4)
        (by rw [hseq, hnext, hoff]; exact h5)
    | front g rest h1 h2 h3 h4 =>
      exact .front g rest h1 (hseq.trans h2) (hoff.trans h3) (by rw [hpend]; exact h4)
  named := by
    intro n hn
    rw [hnext]
    exact h.named n (hnamed n hn)

/-- Two segments of the log with one number are the same segment. -/
theorem seq_inj (h : Represents s l) {a b : Seg DecodedFrame} (ha : a ∈ l.segs) (hb : b ∈ l.segs)
    (e : a.seq = b.seq) : a = b := by
  have hnodup : (l.segs.map Seg.seq).Nodup := by
    rw [List.Nodup, List.pairwise_map]
    exact h.sorted.imp Nat.ne_of_lt
  exact List.inj_on_of_nodup_map hnodup ha hb e

/-- No file has the number the next segment will take. -/
theorem nextSeq_free (h : Represents s l) : s.disk (segmentPath s.nextSeq) = none := by
  by_contra hne
  obtain ⟨seq, hlt, he⟩ := h.named _ hne
  rw [segmentPath_inj] at he
  omega

theorem ne_nextSeq (h : Represents s l) {g : Seg DecodedFrame} (hg : g ∈ l.segs) :
    segmentPath g.seq ≠ segmentPath s.nextSeq := segmentPath_ne (h.below g hg)

/-- The last segment has the highest number. -/
theorem lt_back (h : Represents s l) {init : List (Seg DecodedFrame)} {g x : Seg DecodedFrame}
    (hs : l.segs = init ++ [g]) (hx : x ∈ init) : x.seq < g.seq := by
  have hp := h.sorted
  rw [hs, List.pairwise_append] at hp
  exact hp.2.2 x hx g List.mem_cons_self

/-- The cursor's segment, looked up in the deque. -/
theorem find_front (h : Represents s l) {g : Seg DecodedFrame} {rest : List (Seg DecodedFrame)}
    (hs : l.segs = g :: rest) (hseq : s.readSeq = g.seq) :
    s.segments.find? (fun m => m.seq == s.readSeq) = some (metaOf g) := by
  rw [h.segments, hs, List.map_cons, List.find?_cons_of_pos (by simp [hseq])]

end Represents

end Statix.Wal
