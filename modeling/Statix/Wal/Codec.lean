import Statix.Wal.Walk

/-!
# The segment codec, byte by byte

`readAll` is what a reader of a segment file does: `read_frame_at` from the end of the segment
header on, at one offset after another, until an answer other than a frame. It returns all the
answers, so the offsets and the last answer are part of the result.

* `readFrameAt_torn`: a frame of which the last byte is missing reads as the end of the data.
* `reads_cut`: the answers over the first bytes of some encoded frames.
* `reads_decode`: over any bytes, the answers are those for the frames that were read.
* **`codec_bijection`**: encoder and reader are inverse to each other, also on files cut anywhere.
-/

namespace Statix.Wal

variable [Crc32]

/-- At most `fuel` calls of `read_frame_at`, the first at `offset`, each next one at the offset just
past the frame, and their answers. -/
def reads (file : Bytes) : Nat → Nat → List FrameRead
  | 0, _ => []
  | fuel + 1, offset =>
    match readFrameAt file offset with
    | .frame f next => .frame f next :: reads file fuel next
    | .atEnd => [.atEnd]
    | .corrupt => [.corrupt]

/-- The answers over a segment file. A frame takes more than one byte, so there is fuel for all
(`reads_decode`). -/
def readAll (file : Bytes) : List FrameRead := reads file (file.length + 1) segmentHeaderLen

omit [Crc32] in
/-- The answers that are these frames, one behind another from `offset` on. -/
def located : Nat → List DecodedFrame → List FrameRead
  | _, [] => []
  | offset, f :: fs =>
    .frame f (offset + frameLenOnDisk f.payload.length) ::
      located (offset + frameLenOnDisk f.payload.length) fs

/-! ## Torn frames -/

omit [Crc32] in
/-- Fewer bytes than asked for are no full read. -/
theorem readFullOrEof_short {file buf : Bytes} {pos n : Nat} (h : file.length < pos + n)
    (hn : 0 < n) : readFullOrEof file pos n ≠ .full buf := by
  intro hfull
  obtain ⟨-, -, hle⟩ := readFullOrEof_eq_full hfull
  have := hle hn
  omega

/-- **A torn frame reads as the end of the data**, wherever it is torn. -/
theorem readFrameAt_torn {f : DecodedFrame} (hf : ValidPayload f.payload) (pre : Bytes) {n : Nat}
    (hn : n < frameLenOnDisk f.payload.length) :
    readFrameAt (pre ++ (encodeFrame f).take n) pre.length = .atEnd := by
  have hlen : (pre ++ (encodeFrame f).take n).length = pre.length + n := by
    rw [List.length_append, List.length_take, length_encodeFrame]
    omega
  unfold readFrameAt
  by_cases hhdr : n < frameHeaderLen
  · -- the header itself is torn
    cases hr : readFullOrEof (pre ++ (encodeFrame f).take n) pre.length frameHeaderLen with
    | full buf => exact absurd hr (readFullOrEof_short (by omega) (by decide))
    | short => rfl
    | eof => rfl
  · obtain ⟨hlen4, -, -⟩ := encodeFrameHeader_fields hf f.batchSeq
    have hsplit : (encodeFrame f).take n =
        encodeFrameHeader f.payload f.batchSeq ++ f.payload.take (n - frameHeaderLen) := by
      unfold encodeFrame
      rw [List.take_append, length_encodeFrameHeader, List.take_of_length_le]
      rw [length_encodeFrameHeader]
      omega
    have hok : ¬ (f.payload.length = 0 ∨ f.payload.length > maxFramePayload) := by
      have h1 := hf.1
      have h2 := hf.2
      omega
    have hread : readFullOrEof (pre ++ (encodeFrame f).take n) pre.length frameHeaderLen =
        .full (encodeFrameHeader f.payload f.batchSeq) := by
      rw [hsplit]
      exact readFullOrEof_full rfl (length_encodeFrameHeader _ _)
    simp only [hread, hlen4, if_neg hok]
    cases hr : readFullOrEof (pre ++ (encodeFrame f).take n) (pre.length + frameHeaderLen)
        f.payload.length with
    | full buf =>
      have hpos := hf.1
      unfold frameLenOnDisk at hn
      exact absurd hr (readFullOrEof_short (by omega) hpos)
    | short => rfl
    | eof => rfl

/-! ## Reading what was written -/

/-- **The answers over the first `n` bytes of encoded frames**: the frames with all their bytes
there, then the end. -/
theorem reads_cut (fs : List DecodedFrame) (pre : Bytes) (n fuel : Nat)
    (valid : ∀ f ∈ fs, ValidPayload f.payload) (hfuel : n < fuel) :
    ∃ k, k ≤ fs.length ∧ (∀ i < fs.length, i < k ↔ (encodeFrames (fs.take (i + 1))).length ≤ n) ∧
      reads (pre ++ (encodeFrames fs).take n) fuel pre.length =
        located pre.length (fs.take k) ++ [.atEnd] := by
  obtain ⟨fuel, rfl⟩ := Nat.exists_eq_add_one_of_ne_zero (Nat.ne_of_gt (Nat.zero_lt_of_lt hfuel))
  induction fs generalizing pre n fuel with
  | nil =>
    refine ⟨0, Nat.le_refl _, fun i hi => absurd hi (Nat.not_lt_zero i), ?_⟩
    rw [encodeFrames_nil, List.take_nil, List.append_nil, reads, readFrameAt_end rfl]
    rfl
  | cons f fs ih =>
    have hf : ValidPayload f.payload := valid f List.mem_cons_self
    have hlen := length_encodeFrame f
    have hpos := frameLenOnDisk_pos f.payload.length
    by_cases hn : frameLenOnDisk f.payload.length ≤ n
    · -- the first frame is whole
      have htake : (encodeFrames (f :: fs)).take n =
          encodeFrame f ++ (encodeFrames fs).take (n - frameLenOnDisk f.payload.length) := by
        rw [encodeFrames_cons, List.take_append, hlen, List.take_of_length_le (by omega)]
      obtain ⟨fuel, rfl⟩ : ∃ m, fuel = m + 1 := ⟨fuel - 1, by omega⟩
      obtain ⟨k, hk, hin, hreads⟩ := ih (pre ++ encodeFrame f)
        (n - frameLenOnDisk f.payload.length)
        (fun g hg => valid g (List.mem_cons_of_mem f hg)) fuel (by omega)
      rw [List.length_append, hlen, List.append_assoc] at hreads
      refine ⟨k + 1, Nat.succ_le_succ hk, fun i hi => ?_, ?_⟩
      · cases i with
        | zero => simpa [hlen] using hn
        | succ i =>
          have hi' : i < fs.length := Nat.lt_of_succ_lt_succ hi
          rw [Nat.succ_lt_succ_iff, hin i hi', List.take_succ_cons, encodeFrames_cons,
            List.length_append, hlen]
          omega
      · rw [htake, reads, readFrameAt_encode hf rfl]
        simp only
        rw [hreads]
        rfl
    · -- the first frame is torn
      have htake : (encodeFrames (f :: fs)).take n = (encodeFrame f).take n := by
        rw [encodeFrames_cons, List.take_append_of_le_length (by omega)]
      refine ⟨0, Nat.zero_le _, fun i _ => ?_, ?_⟩
      · rw [List.take_succ_cons, encodeFrames_cons, List.length_append, hlen]
        omega
      · rw [htake, reads, readFrameAt_torn hf pre (Nat.lt_of_not_le hn)]
        rfl

/-- The answers over a segment file cut behind its header. -/
theorem readAll_cut {fs : List DecodedFrame} (valid : ∀ f ∈ fs, ValidPayload f.payload) {cut : Nat}
    (hlo : segmentHeaderLen ≤ cut) (hhi : cut ≤ (encodeSegmentHeader ++ encodeFrames fs).length) :
    ∃ k ≤ fs.length,
      (∀ i < fs.length, i < k ↔ segmentHeaderLen + (encodeFrames (fs.take (i + 1))).length ≤ cut) ∧
      readAll ((encodeSegmentHeader ++ encodeFrames fs).take cut) =
        located segmentHeaderLen (fs.take k) ++ [.atEnd] := by
  have htake : (encodeSegmentHeader ++ encodeFrames fs).take cut =
      encodeSegmentHeader ++ (encodeFrames fs).take (cut - segmentHeaderLen) := by
    rw [List.take_append, length_encodeSegmentHeader, List.take_of_length_le]
    rwa [length_encodeSegmentHeader]
  have hlen : ((encodeSegmentHeader ++ encodeFrames fs).take cut).length = cut := by
    rw [List.length_take]
    exact Nat.min_eq_left hhi
  obtain ⟨k, hk, hin, hreads⟩ := reads_cut fs encodeSegmentHeader (cut - segmentHeaderLen)
    (cut + 1) valid (by omega)
  refine ⟨k, hk, fun i hi => ?_, ?_⟩
  · rw [hin i hi]
    omega
  · unfold readAll
    rw [hlen, htake]
    exact hreads

/-- The answers over a whole segment file. -/
theorem readAll_encode {fs : List DecodedFrame} (valid : ∀ f ∈ fs, ValidPayload f.payload) :
    readAll (encodeSegmentHeader ++ encodeFrames fs) =
      located segmentHeaderLen fs ++ [.atEnd] := by
  obtain ⟨k, hk, hin, hreads⟩ := readAll_cut valid (by simp) (Nat.le_refl _)
  -- every frame lies inside the whole file
  obtain rfl : k = fs.length := by
    rcases Nat.lt_or_eq_of_le hk with hlt | heq
    · refine absurd ((hin k hlt).mpr ?_) (Nat.lt_irrefl k)
      rw [List.length_append, length_encodeSegmentHeader]
      exact Nat.add_le_add_left (length_encodeFrames_take (k + 1) fs) _
    · exact heq
  rwa [List.take_length, List.take_length] at hreads

/-! ## Re-encoding what was read -/

/-- The answers are the frames of the walk, one behind another, and then no frame. -/
theorem reads_walk (file : Bytes) (fuel offset : Nat) (h : file.length ≤ offset + fuel) :
    ∃ last, reads file (fuel + 1) offset = located offset (walk file fuel offset).1 ++ [last] ∧
      (last = .atEnd ∨ last = .corrupt) := by
  induction fuel generalizing offset with
  | zero =>
    rw [reads]
    cases hr : readFrameAt file offset with
    | frame f next =>
      -- past the end of the file there is no frame
      obtain ⟨-, hnext, hle, -⟩ := readFrameAt_decode hr
      have hpos := frameLenOnDisk_pos f.payload.length
      omega
    | atEnd => exact ⟨.atEnd, rfl, Or.inl rfl⟩
    | corrupt => exact ⟨.corrupt, rfl, Or.inr rfl⟩
  | succ fuel ih =>
    rw [reads, walk]
    cases hr : readFrameAt file offset with
    | frame f next =>
      obtain ⟨-, hnext, -, -⟩ := readFrameAt_decode hr
      have hpos := frameLenOnDisk_pos f.payload.length
      obtain ⟨last, hreads, hlast⟩ := ih next (by omega)
      refine ⟨last, ?_, hlast⟩
      simp only
      rw [hreads, located, hnext]
      rfl
    | atEnd => exact ⟨.atEnd, rfl, Or.inl rfl⟩
    | corrupt => exact ⟨.corrupt, rfl, Or.inr rfl⟩

/-- Past the end of the file the walk finds no frame. -/
theorem walk_past {file : Bytes} (fuel : Nat) {offset : Nat} (h : file.length < offset) :
    (walk file fuel offset).1 = [] := by
  cases fuel with
  | zero => rfl
  | succ fuel =>
    rw [walk]
    cases hr : readFrameAt file offset with
    | frame f next =>
      obtain ⟨-, hnext, hle, -⟩ := readFrameAt_decode hr
      omega
    | atEnd => rfl
    | corrupt => rfl

/-- **Over any bytes**: the reader ends with an answer other than a frame, and the bytes it passed
are the encoding of the frames it returned. -/
theorem reads_decode (file : Bytes) (fuel offset : Nat) (h : file.length ≤ offset + fuel) :
    ∃ fs last, reads file (fuel + 1) offset = located offset fs ++ [last] ∧
      (last = .atEnd ∨ last = .corrupt) ∧
      (file.drop offset).take (encodeFrames fs).length = encodeFrames fs := by
  obtain ⟨last, hreads, hlast⟩ := reads_walk file fuel offset h
  refine ⟨_, last, hreads, hlast, ?_⟩
  by_cases hle : offset ≤ file.length
  · rw [(walk_decode fuel offset hle).1]
    exact List.take_left
  · rw [walk_past fuel (Nat.lt_of_not_le hle)]
    rfl

/-- **The codec is a bijection on its image.** Encoded frames are read back with their numbers and
offsets and then the end. Of a strict prefix that keeps the segment header the frames that lie
completely inside it are read, and then the end. And over any bytes, the frames read encode to the
bytes passed. -/
theorem codec_bijection {fs : List DecodedFrame} (valid : ∀ f ∈ fs, ValidPayload f.payload) :
    readAll (encodeSegmentHeader ++ encodeFrames fs) = located segmentHeaderLen fs ++ [.atEnd] ∧
    (∀ cut, segmentHeaderLen ≤ cut → cut < (encodeSegmentHeader ++ encodeFrames fs).length →
      ∃ k ≤ fs.length,
        (∀ i < fs.length, i < k ↔ segmentHeaderLen + (encodeFrames (fs.take (i + 1))).length ≤ cut) ∧
        readAll ((encodeSegmentHeader ++ encodeFrames fs).take cut) =
          located segmentHeaderLen (fs.take k) ++ [.atEnd]) ∧
    ∀ file, ∃ read last, readAll file = located segmentHeaderLen read ++ [last] ∧
      (last = .atEnd ∨ last = .corrupt) ∧
      (file.drop segmentHeaderLen).take (encodeFrames read).length = encodeFrames read :=
  ⟨readAll_encode valid, fun _ hlo hhi => readAll_cut valid hlo (Nat.le_of_lt hhi),
    fun file => reads_decode file file.length segmentHeaderLen (Nat.le_add_left _ _)⟩

omit [Crc32] in
/-- Two frames, the second cut off inside its payload. -/
theorem codec_bijection_two_frames : letI := crc32Ieee
    readAll (encodeSegmentHeader ++ encodeFrames [⟨7, [1, 2]⟩, ⟨8, [3, 4]⟩]) =
        [.frame ⟨7, [1, 2]⟩ 34, .frame ⟨8, [3, 4]⟩ 52, .atEnd] ∧
      ∃ k ≤ 2, readAll ((encodeSegmentHeader ++ encodeFrames [⟨7, [1, 2]⟩, ⟨8, [3, 4]⟩]).take 51) =
        located segmentHeaderLen (([⟨7, [1, 2]⟩, ⟨8, [3, 4]⟩] : List DecodedFrame).take k) ++
          [.atEnd] := by
  let _ := crc32Ieee
  have valid : ∀ f ∈ ([⟨7, [1, 2]⟩, ⟨8, [3, 4]⟩] : List DecodedFrame), ValidPayload f.payload := by
    decide
  obtain ⟨hall, hcut, -⟩ := codec_bijection valid
  obtain ⟨k, hk, -, hreads⟩ := hcut 51 (by decide) (by decide +kernel)
  exact ⟨hall, k, hk, hreads⟩

end Statix.Wal
