import Statix.Wal.Segment

/-!
# Walking the frames of a segment file

`walk` calls `readFrameAt` at one boundary after another until it answers `atEnd` or `corrupt`;
its fuel bounds the number of reads. `framesFrom` gives it one unit per byte of the file, which is
always enough: every frame takes at least one byte (`walk_fuel`).

Results:
* `framesFrom_encode`: over encoded frames the walk returns those frames first, whatever bytes
  follow them.
* `framesFrom_exact`: over encoded frames up to the end of the file it returns exactly them.
* `walk_decode`: conversely, over any bytes, the bytes walked over are the encoding of the frames
  returned.
* `walk_stops`: the walk ends at an offset where `readFrameAt` yields no frame.
-/

namespace Statix.Wal

variable [Crc32]

/-- At most `fuel` frames from `offset`, and the offset the reads stopped at. -/
def walk (file : Bytes) : Nat → Nat → List DecodedFrame × Nat
  | 0, offset => ([], offset)
  | fuel + 1, offset =>
    match readFrameAt file offset with
    | .frame f next => (f :: (walk file fuel next).1, (walk file fuel next).2)
    | .atEnd => ([], offset)
    | .corrupt => ([], offset)

/-- The frames of `file` from `offset` on. -/
def framesFrom (file : Bytes) (offset : Nat) : List DecodedFrame := (walk file file.length offset).1

/-- Fuel past the end of the file changes nothing. -/
theorem walk_fuel (file : Bytes) (fuel offset k : Nat) (h : file.length ≤ offset + fuel) :
    walk file (fuel + k) offset = walk file fuel offset := by
  induction fuel generalizing offset with
  | zero =>
    cases k with
    | zero => rfl
    | succ k =>
      rw [Nat.zero_add, walk, walk]
      cases hr : readFrameAt file offset with
      | frame f next =>
        have hb := readFrameAt_decode hr
        have := frameLenOnDisk_pos f.payload.length
        omega
      | atEnd => rfl
      | corrupt => rfl
  | succ fuel ih =>
    rw [Nat.add_right_comm, walk, walk]
    cases hr : readFrameAt file offset with
    | frame f next =>
      have hb := readFrameAt_decode hr
      have := frameLenOnDisk_pos f.payload.length
      simp only
      rw [ih next (by omega)]
    | atEnd => rfl
    | corrupt => rfl

/-- The walk stops where no frame can be read. -/
theorem walk_stops {file : Bytes} : ∀ {fuel offset : Nat}, file.length ≤ offset + fuel →
    ∀ f next, readFrameAt file (walk file fuel offset).2 ≠ .frame f next
  | 0, offset, h, f, next, hr => by
    have hb := readFrameAt_decode hr
    have := frameLenOnDisk_pos f.payload.length
    simp only [walk] at hb
    omega
  | fuel + 1, offset, h, f, next, hr => by
    rw [walk] at hr
    cases ho : readFrameAt file offset with
    | frame g m =>
      have hb := readFrameAt_decode ho
      have := frameLenOnDisk_pos g.payload.length
      rw [ho] at hr
      exact walk_stops (by omega) f next hr
    | atEnd => rw [ho] at hr; simp only [ho] at hr; cases hr
    | corrupt => rw [ho] at hr; simp only [ho] at hr; cases hr

/-- **The bytes walked over are the encoding of the frames returned.** -/
theorem walk_decode {file : Bytes} (fuel offset : Nat) (h : offset ≤ file.length) :
    file.drop offset =
        encodeFrames (walk file fuel offset).1 ++ file.drop (walk file fuel offset).2 ∧
      (walk file fuel offset).2 = offset + (encodeFrames (walk file fuel offset).1).length ∧
      (walk file fuel offset).2 ≤ file.length ∧
      ∀ f ∈ (walk file fuel offset).1, ValidPayload f.payload := by
  induction fuel generalizing offset with
  | zero => simp [walk, h]
  | succ fuel ih =>
    rw [walk]
    cases hr : readFrameAt file offset with
    | frame f next =>
      obtain ⟨hd, hn, hb, hv⟩ := readFrameAt_decode hr
      obtain ⟨ih1, ih2, ih3, ih4⟩ := ih next hb
      refine ⟨?_, ?_, ih3, ?_⟩
      · simp only
        rw [hd, ih1, encodeFrames_cons, List.append_assoc]
      · simp only
        rw [ih2, hn, encodeFrames_cons, List.length_append, length_encodeFrame, Nat.add_assoc]
      · intro g hg
        rcases List.mem_cons.mp hg with rfl | hg
        · exact hv
        · exact ih4 g hg
    | atEnd => simp [h]
    | corrupt => simp [h]

/-- Over encoded frames the walk returns them and goes on behind them. -/
theorem walk_encode (fs : List DecodedFrame) (pre tail : Bytes) (fuel : Nat)
    (h : ∀ f ∈ fs, ValidPayload f.payload) :
    walk (pre ++ (encodeFrames fs ++ tail)) (fs.length + fuel) pre.length =
      (fs ++ (walk (pre ++ (encodeFrames fs ++ tail)) fuel
          (pre.length + (encodeFrames fs).length)).1,
        (walk (pre ++ (encodeFrames fs ++ tail)) fuel
          (pre.length + (encodeFrames fs).length)).2) := by
  induction fs generalizing pre with
  | nil => simp
  | cons f fs ih =>
    have hf : ValidPayload f.payload := h f List.mem_cons_self
    have hr : readFrameAt (pre ++ (encodeFrames (f :: fs) ++ tail)) pre.length =
        .frame f (pre.length + frameLenOnDisk f.payload.length) := by
      rw [encodeFrames_cons, List.append_assoc]
      exact readFrameAt_encode hf rfl
    have ih := ih (pre ++ encodeFrame f) fun g hg => h g (List.mem_cons_of_mem f hg)
    rw [List.length_cons, Nat.add_right_comm, walk, hr]
    simp only [encodeFrames_cons, List.append_assoc, List.length_append, length_encodeFrame] at ih ⊢
    rw [ih, List.cons_append, Nat.add_assoc]

/-- **The frames that were written come first**, whatever bytes follow them. -/
theorem framesFrom_encode {fs : List DecodedFrame} {pre : Bytes} (tail : Bytes) {offset : Nat}
    (hfs : ∀ f ∈ fs, ValidPayload f.payload) (hpre : pre.length = offset) :
    framesFrom (pre ++ (encodeFrames fs ++ tail)) offset =
      fs ++ framesFrom (pre ++ (encodeFrames fs ++ tail)) (offset + (encodeFrames fs).length) := by
  subst hpre
  have hlen : fs.length ≤ (encodeFrames fs).length := by
    clear hfs
    induction fs with
    | nil => exact Nat.le_refl 0
    | cons f fs ih =>
      have := frameLenOnDisk_pos f.payload.length
      rw [encodeFrames_cons, List.length_append, length_encodeFrame, List.length_cons]
      omega
  unfold framesFrom
  have hsplit : (pre ++ (encodeFrames fs ++ tail)).length =
      fs.length + ((pre ++ (encodeFrames fs ++ tail)).length - fs.length) := by
    simp only [List.length_append]
    omega
  have hw := walk_encode fs pre tail
    ((pre ++ (encodeFrames fs ++ tail)).length - fs.length) hfs
  rw [← hsplit] at hw
  rw [hw]
  have hfuel := walk_fuel (pre ++ (encodeFrames fs ++ tail))
    ((pre ++ (encodeFrames fs ++ tail)).length - fs.length)
    (pre.length + (encodeFrames fs).length) fs.length
    (by simp only [List.length_append]; omega)
  rw [Nat.sub_add_cancel (by simp only [List.length_append]; omega)] at hfuel
  rw [hfuel]

/-- At the end of the file nothing is left to walk. -/
theorem framesFrom_end {file : Bytes} {offset : Nat} (h : file.length = offset) :
    framesFrom file offset = [] := by
  unfold framesFrom
  cases hn : file.length with
  | zero => rfl
  | succ n => rw [walk, readFrameAt_end h]

/-- **Over encoded frames up to the end of the file the walk returns exactly them.** -/
theorem framesFrom_exact {fs : List DecodedFrame} {pre : Bytes} {offset : Nat}
    (hfs : ∀ f ∈ fs, ValidPayload f.payload) (hpre : pre.length = offset) :
    framesFrom (pre ++ encodeFrames fs) offset = fs := by
  have h := framesFrom_encode [] hfs hpre
  rw [List.append_nil] at h
  rw [h, framesFrom_end (by rw [List.length_append, hpre]), List.append_nil]

end Statix.Wal
