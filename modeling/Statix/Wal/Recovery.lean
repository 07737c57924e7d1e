import Mathlib.Data.List.Sort
import Statix.Wal.Fifo

/-!
# Recovery at startup

Model of `recover` (`statix/src/wal/recovery.rs:28-153`), with `empty_inner` and
`inner_from_recovered` (`mod.rs:483-524`): list the directory, sort the segment numbers, check each
header, walk the frames, cut off what follows the last good one, rebuild the store.

* `entries` is what `read_dir` lists, in any order. The loop over the frames runs on fuel and
  answers `none` when it runs out; `recover_spec` shows it never does.
* `File::open`, `remove_file` and the truncation take their outcome from `Io`; the source goes on
  after each of them fails.

Results, for a directory with file names this code writes (`WrittenDir`) and any contents:
* `walkFrames_eq`: the frame loop ends, at the end of the frames `framesFrom` returns.
* `found_names`: the sorted numbers are those of the files, also in a directory with other names.
* **`recover_spec`** (`RecoverOutcome`): recovery whose truncations succeed terminates with a store
  that represents the log of the files with a good header, oldest first, each with its good frames,
  read from the start.

Out of scope: the errors `recover` returns (`read_dir`, a failed read, `open_active_for_append`),
with which the agent starts without a WAL.
-/

namespace Statix.Wal

open Statix.Lib

variable [Crc32]

/-- The frame loop of `recover`: the offset and the number of frames it stopped at, the next batch
number, and whether a corrupt frame stopped it. -/
def walkFrames (file : Bytes) : Nat → Nat → Nat → UInt64 → Option (Nat × Nat × UInt64 × Bool)
  | 0, _, _, _ => none
  | fuel + 1, offset, frames, nextBatchSeq =>
    match readFrameAt file offset with
    | .frame f next => walkFrames file fuel next (frames + 1) (max nextBatchSeq (f.batchSeq + 1))
    | .atEnd => some (offset, frames, nextBatchSeq, false)
    | .corrupt => some (offset, frames, nextBatchSeq, true)

/-- The variables of `recover`'s loop over the segments, with the directory. -/
structure Recovered where
  segments : List SegmentMeta
  totalBytes : Nat
  nextBatchSeq : UInt64
  maxSeq : Nat
  corruptFrames : Nat
  disk : Disk

omit [Crc32] in
/-- `read_exact` of the header, then `validate_segment_header`. -/
def headerOk (file : Bytes) : Bool :=
  segmentHeaderLen ≤ file.length &&
    match validateSegmentHeader (file.take segmentHeaderLen) with
    | .ok () => true
    | .error _ => false

/-- One turn of `recover`'s loop. -/
def recoverSegment (io : Io) (r₀ : Recovered) (seq : Nat) : Option Recovered :=
  let r := { r₀ with maxSeq := max r₀.maxSeq seq }
  let path := segmentPath seq
  match openRead io r.disk path with
  | none => some r
  | some file =>
    if headerOk file = false then
      some { r with
        corruptFrames := r.corruptFrames + 1
        disk := removeFile io r.disk path }
    else
      match walkFrames file (file.length + 1) segmentHeaderLen 0 r.nextBatchSeq with
      | none => none
      | some (offset, frames, nextBatchSeq, corrupt) =>
        some { r with
          corruptFrames := r.corruptFrames + if corrupt then 1 else 0
          nextBatchSeq := nextBatchSeq
          disk :=
            if file.length > offset ∧ io.setLen path then r.disk.modify path (File.setLen offset)
            else r.disk
          segments := r.segments ++ [⟨seq, path, offset, frames⟩]
          totalBytes := r.totalBytes + offset }

omit [Crc32] in
/-- `inner_from_recovered`, the newest segment opened at its end. -/
def innerFromRecovered (cfg : WalConfig) (r : Recovered) : Store where
  cfg := cfg
  segments := r.segments
  active := r.segments.getLast?.map fun last => ⟨last.seq, ⟨last.path, last.bytes⟩, last.bytes⟩
  totalBytes := r.totalBytes
  nextSeq := (r.maxSeq + 1) % 2 ^ 64
  nextBatchSeq := r.nextBatchSeq
  readSeq := (r.segments.head?.map SegmentMeta.seq).getD ((r.maxSeq + 1) % 2 ^ 64)
  readOffset := segmentHeaderLen
  pendingAdvance := none
  disk := r.disk
  metrics := { corruptFrames := r.corruptFrames }

/-- `recover`, on a directory that lists `entries`; `none` when a loop ran out of fuel. -/
def recover (io : Io) (cfg : WalConfig) (entries : List FileName) (disk : Disk) : Option Store :=
  let found := (entries.filterMap parseSegmentSeq).insertionSort (· ≤ ·)
  if found = [] then some (emptyStore cfg disk)
  else (found.foldlM (recoverSegment io) ⟨[], 0, 0, 0, 0, disk⟩).map (innerFromRecovered cfg)

/-! ## The frame loop ends -/

omit [Crc32] in
/-- `next_batch_seq` after these frames. -/
def seqAfter (q : UInt64) (fs : List DecodedFrame) : UInt64 :=
  fs.foldl (fun q f => max q (f.batchSeq + 1)) q

/-- **The frame loop of `recover` ends**, at the end of the frames of the file. -/
theorem walkFrames_eq (file : Bytes) : ∀ (fuel offset frames : Nat) (q : UInt64),
    file.length ≤ offset + fuel → ∃ corrupt, walkFrames file (fuel + 1) offset frames q =
      some ((walk file fuel offset).2, frames + (walk file fuel offset).1.length,
        seqAfter q (walk file fuel offset).1, corrupt)
  | 0, offset, frames, q, h => by
    rw [walkFrames]
    cases hr : readFrameAt file offset with
    | frame f next =>
      have hb := readFrameAt_decode hr
      have := frameLenOnDisk_pos f.payload.length
      omega
    | atEnd => exact ⟨false, rfl⟩
    | corrupt => exact ⟨true, rfl⟩
  | fuel + 1, offset, frames, q, h => by
    rw [walkFrames, walk]
    cases hr : readFrameAt file offset with
    | frame f next =>
      have hb := readFrameAt_decode hr
      have := frameLenOnDisk_pos f.payload.length
      obtain ⟨c, e⟩ := walkFrames_eq file fuel next (frames + 1)
        (max q (f.batchSeq + 1)) (by omega)
      refine ⟨c, e.trans ?_⟩
      simp only [List.length_cons, Nat.add_assoc, Nat.add_comm 1]
      rfl
    | atEnd => exact ⟨false, rfl⟩
    | corrupt => exact ⟨true, rfl⟩

/-! ## What recovery finds -/

/-- The segment `recover` finds under a number. -/
def recoveredSeg (io : Io) (d : Disk) (seq : Nat) : Option (Seg DecodedFrame) :=
  match openRead io d (segmentPath seq) with
  | none => none
  | some file => if headerOk file then some ⟨seq, framesFrom file segmentHeaderLen⟩ else none

omit [Crc32] in
/-- A directory with the file names this code writes, and any contents. -/
structure WrittenDir (d : Disk) : Prop where
  named : ∀ n, d n ≠ none → ∃ seq, seq < u64Max ∧ n = segmentPath seq
  wf : ∀ n file, d n = some file → file.WF

omit [Crc32] in
/-- A listing of the directory, in any order. -/
structure Lists (entries : List FileName) (d : Disk) : Prop where
  nodup : entries.Nodup
  mem : ∀ n, n ∈ entries ↔ d n ≠ none

/-- Where the loop over the segments is, after the numbers `done`. -/
structure Recovering (io : Io) (d : Disk) (done : List Nat) (r : Recovered) : Prop where
  segments : r.segments = (done.filterMap (recoveredSeg io d)).map metaOf
  files : ∀ g ∈ done.filterMap (recoveredSeg io d), HoldsSeg r.disk g
  total : r.totalBytes = ((done.filterMap (recoveredSeg io d)).map segBytes).sum
  le_max : ∀ seq ∈ done, seq ≤ r.maxSeq
  max_lt : r.maxSeq < u64Max
  untouched : ∀ n, (∀ seq ∈ done, n ≠ segmentPath seq) → r.disk n = d n
  existed : ∀ n, r.disk n ≠ none → d n ≠ none
  durable : ∀ g ∈ done.filterMap (recoveredSeg io d),
    durableLen r.disk g.seq = min (durableLen d g.seq) (segBytes g)
  tidy : io = .ok → ∀ seq ∈ done, r.disk (segmentPath seq) ≠ none → recoveredSeg io d seq ≠ none

theorem recoveredSeg_seq {io : Io} {d : Disk} {seq : Nat} {g : Seg DecodedFrame}
    (h : recoveredSeg io d seq = some g) : g.seq = seq := by
  unfold recoveredSeg at h
  split at h
  · cases h
  · split at h
    · rw [← Option.some.inj h]
    · cases h

theorem recoveredSeg_mem {io : Io} {d : Disk} {done : List Nat} {g : Seg DecodedFrame}
    (h : g ∈ done.filterMap (recoveredSeg io d)) : g.seq ∈ done := by
  obtain ⟨seq, hseq, he⟩ := List.mem_filterMap.mp h
  rw [recoveredSeg_seq he]
  exact hseq

/-- The good part of a file: its header, then the frames the walk found. -/
theorem walk_good {file : Bytes} (h : headerOk file = true) (seq : Nat) :
    (walk file file.length segmentHeaderLen).2 = segBytes ⟨seq, framesFrom file segmentHeaderLen⟩ ∧
      segBytes ⟨seq, framesFrom file segmentHeaderLen⟩ ≤ file.length ∧
      file.take (segBytes ⟨seq, framesFrom file segmentHeaderLen⟩) =
        file.take segmentHeaderLen ++ encodeFrames (framesFrom file segmentHeaderLen) ∧
      (file.take segmentHeaderLen).length = segmentHeaderLen ∧
      validateSegmentHeader (file.take segmentHeaderLen) = .ok () := by
  unfold headerOk at h
  rw [Bool.and_eq_true, decide_eq_true_eq] at h
  obtain ⟨hlen, hval⟩ := h
  obtain ⟨hd, hoff, hle, -⟩ := walk_decode file.length segmentHeaderLen hlen
  rw [hoff] at hle
  refine ⟨hoff, hle, ?_, ?_, ?_⟩
  · unfold segBytes
    rw [List.take_add, hd]
    congr 1
    exact List.take_left
  · rw [List.length_take]
    exact Nat.min_eq_left hlen
  · split at hval
    · assumption
    · cases hval

omit [Crc32] in
theorem openRead_ok {d : Disk} {path : FileName} {file : File UInt8} (h : d path = some file) :
    openRead .ok d path = some file.data := by
  unfold openRead
  rw [h]
  rfl

omit [Crc32] in
theorem headerOk_append {hdr rest : Bytes} (hlen : hdr.length = segmentHeaderLen)
    (hval : validateSegmentHeader hdr = .ok ()) : headerOk (hdr ++ rest) = true := by
  unfold headerOk
  rw [List.take_append_of_le_length (Nat.le_of_eq hlen.symm), ← hlen, List.take_length, hval,
    List.length_append]
  simp

omit [Crc32] in
/-- Cutting a file down. -/
theorem setLen_cut (n : Nat) {file : File UInt8} (h : n ≤ file.data.length) :
    File.setLen n file = ⟨file.data.take n, min file.synced n⟩ := by
  unfold File.setLen
  rw [Nat.sub_eq_zero_of_le h, List.replicate_zero, List.append_nil]

/-- One more number: what it brings, if anything, comes behind the segments found before it. -/
theorem Recovering.turn {io : Io} {d : Disk} {done : List Nat} {r r' : Recovered} {seq : Nat}
    (h : Recovering io d done r) (hseq : seq < u64Max) (hnew : ∀ x ∈ done, x < seq)
    (hmax : r'.maxSeq = max r.maxSeq seq)
    (hsegments : r'.segments = r.segments ++ (recoveredSeg io d seq).toList.map metaOf)
    (htotal : r'.totalBytes = r.totalBytes + ((recoveredSeg io d seq).toList.map segBytes).sum)
    (hne : ∀ n, n ≠ segmentPath seq → r'.disk n = r.disk n)
    (hex : r'.disk (segmentPath seq) ≠ none → d (segmentPath seq) ≠ none)
    (hfound : ∀ g, recoveredSeg io d seq = some g → HoldsSeg r'.disk g ∧
      durableLen r'.disk g.seq = min (durableLen d g.seq) (segBytes g))
    (htidy : io = .ok → recoveredSeg io d seq = none → r'.disk (segmentPath seq) = none) :
    Recovering io d (done ++ [seq]) r' := by
  have hfm : (done ++ [seq]).filterMap (recoveredSeg io d) =
      done.filterMap (recoveredSeg io d) ++ (recoveredSeg io d seq).toList := by
    rw [List.filterMap_append]
    cases hx : recoveredSeg io d seq <;> simp [hx]
  have hmem : ∀ g ∈ (done ++ [seq]).filterMap (recoveredSeg io d),
      g ∈ done.filterMap (recoveredSeg io d) ∨ recoveredSeg io d seq = some g := by
    intro g hg
    rw [hfm, List.mem_append, Option.mem_toList] at hg
    exact hg
  have hold : ∀ x ∈ done, r'.disk (segmentPath x) = r.disk (segmentPath x) := fun x hx =>
    hne _ (segmentPath_ne (hnew x hx))
  constructor
  case segments => rw [hfm, List.map_append, ← h.segments, hsegments]
  case files =>
    intro g hg
    rcases hmem g hg with hg | hg
    · exact (h.files g hg).congr (hold _ (recoveredSeg_mem hg))
    · exact (hfound g hg).1
  case total => rw [hfm, List.map_append, List.sum_append, ← h.total, htotal]
  case le_max =>
    intro x hx
    rw [hmax]
    rcases List.mem_append.mp hx with hx | hx
    · exact Nat.le_trans (h.le_max x hx) (Nat.le_max_left _ _)
    · rw [List.mem_singleton.mp hx]
      exact Nat.le_max_right _ _
  case max_lt =>
    rw [hmax]
    exact Nat.max_lt.mpr ⟨h.max_lt, hseq⟩
  case untouched =>
    intro n hn
    rw [hne n (hn seq List.mem_concat_self)]
    exact h.untouched n fun x hx => hn x (List.mem_append_left _ hx)
  case existed =>
    intro n hn
    by_cases he : n = segmentPath seq
    · rw [he] at hn ⊢
      exact hex hn
    · rw [hne n he] at hn
      exact h.existed n hn
  case durable =>
    intro g hg
    rcases hmem g hg with hg | hg
    · rw [durableLen_congr (hold _ (recoveredSeg_mem hg))]
      exact h.durable g hg
    · exact (hfound g hg).2
  case tidy =>
    intro hio x hx hdx
    rcases List.mem_append.mp hx with hx | hx
    · rw [hold x hx] at hdx
      exact h.tidy hio x hx hdx
    · rw [List.mem_singleton.mp hx] at hdx ⊢
      exact fun hnone => hdx (htidy hio hnone)

/-- A number that brings no segment: its file is left, or removed. -/
theorem Recovering.skip {io : Io} {d d' : Disk} {done : List Nat} {r : Recovered} {seq c : Nat}
    (h : Recovering io d done r) (hseq : seq < u64Max) (hnew : ∀ x ∈ done, x < seq)
    (hnone : recoveredSeg io d seq = none)
    (hne : ∀ n, n ≠ segmentPath seq → d' n = r.disk n)
    (hex : d' (segmentPath seq) ≠ none → r.disk (segmentPath seq) ≠ none)
    (htidy : io = .ok → d' (segmentPath seq) = none) :
    Recovering io d (done ++ [seq])
      { r with maxSeq := max r.maxSeq seq, corruptFrames := c, disk := d' } := by
  refine h.turn hseq hnew rfl ?_ ?_ hne (fun hd => h.existed _ (hex hd)) ?_ fun hio _ => htidy hio
  · rw [hnone, Option.toList_none, List.map_nil, List.append_nil]
  · rw [hnone, Option.toList_none, List.map_nil, List.sum_nil, Nat.add_zero]
  · intro g hg
    rw [hnone] at hg
    cases hg

/-- A number that brings a segment: its file is cut down to the good part. -/
theorem Recovering.track {io : Io} {d : Disk} {done : List Nat} {r : Recovered} {seq c : Nat}
    {q : UInt64} {file : File UInt8} (h : Recovering io d done r) (hseq : seq < u64Max)
    (hnew : ∀ x ∈ done, x < seq) (hd : d (segmentPath seq) = some file) (hwf : file.WF)
    (hok : headerOk file.data = true) (truncates : io.setLen (segmentPath seq) = true)
    {g : Seg DecodedFrame} (hg : g = ⟨seq, framesFrom file.data segmentHeaderLen⟩)
    (hsome : recoveredSeg io d seq = some g) :
    Recovering io d (done ++ [seq])
      { r with
        maxSeq := max r.maxSeq seq
        corruptFrames := c
        nextBatchSeq := q
        disk := if file.data.length > segBytes g ∧ io.setLen (segmentPath seq) then
          r.disk.modify (segmentPath seq) (File.setLen (segBytes g)) else r.disk
        segments := r.segments ++ [metaOf g]
        totalBytes := r.totalBytes + segBytes g } := by
  have hrd : r.disk (segmentPath seq) = some file := by
    rw [h.untouched _ fun x hx => (segmentPath_ne (hnew x hx)).symm, hd]
  obtain ⟨-, hle, htake, hhdr, hval⟩ := walk_good hok seq
  rw [← hg] at hle htake
  generalize hd' : (if file.data.length > segBytes g ∧ io.setLen (segmentPath seq) = true then
    r.disk.modify (segmentPath seq) (File.setLen (segBytes g)) else r.disk) = d'
  have hself : d' (segmentPath seq) =
      some ⟨file.data.take (segBytes g), min file.synced (segBytes g)⟩ := by
    rw [← hd']
    split
    · rw [Dir.modify_self, hrd, Option.map_some, setLen_cut _ hle]
    · rename_i hgt
      have hlen : file.data.length = segBytes g := by
        have hle' := Nat.le_of_not_lt fun h => hgt ⟨h, truncates⟩
        omega
      rw [hrd, ← hlen, List.take_length, Nat.min_eq_left hwf]
  have hne : ∀ n, n ≠ segmentPath seq → d' n = r.disk n := by
    intro n hn
    rw [← hd']
    split
    · exact Dir.modify_ne _ _ hn
    · rfl
  have hgseq : g.seq = seq := by rw [hg]
  refine h.turn hseq hnew rfl ?_ ?_ hne ?_ ?_ ?_
  · rw [hsome, Option.toList_some, List.map_singleton]
  · rw [hsome, Option.toList_some, List.map_singleton, List.sum_singleton]
  · rw [hd]
    exact fun _ => Option.some_ne_none _
  · intro x hx
    obtain rfl := Option.some.inj (hsome.symm.trans hx)
    constructor
    · refine ⟨_, file.data.take segmentHeaderLen, by rw [hgseq]; exact hself, ?_, hhdr, hval, ?_⟩
      · rw [htake, hg]
      · refine Nat.le_trans (Nat.min_le_right _ _) (Nat.le_of_eq ?_)
        rw [List.length_take, Nat.min_eq_left hle]
    · unfold durableLen
      simp only [hgseq, hself, hd, Option.map_some, Option.getD_some]
  · intro _ hnone
    rw [hsome] at hnone
    cases hnone

/-- One turn of the loop. -/
theorem recoverSegment_spec {io : Io} {d : Disk} {done : List Nat} {r : Recovered} {seq : Nat}
    (truncates : ∀ n, io.setLen n = true) (h : Recovering io d done r)
    (hwf : ∀ n file, d n = some file → file.WF) (hseq : seq < u64Max)
    (hnew : ∀ x ∈ done, x < seq) (hd : d (segmentPath seq) ≠ none) :
    ∃ r', recoverSegment io r seq = some r' ∧ Recovering io d (done ++ [seq]) r' := by
  obtain ⟨file, hfile⟩ := Option.ne_none_iff_exists'.mp hd
  have hrd : r.disk (segmentPath seq) = some file := by
    rw [h.untouched _ fun x hx => (segmentPath_ne (hnew x hx)).symm, hfile]
  unfold recoverSegment
  simp only
  cases ho : io.openRead (segmentPath seq) with
  | false =>
    have hopen : ∀ d : Disk, openRead io d (segmentPath seq) = none := fun d => by
      unfold openRead
      rw [ho]
      rfl
    simp only [hopen]
    have hnone : recoveredSeg io d seq = none := by
      unfold recoveredSeg
      rw [hopen]
    exact ⟨_, rfl, h.skip hseq hnew hnone (fun _ _ => rfl) id fun hio => by
      rw [hio] at ho
      cases ho⟩
  | true =>
    have hopen : ∀ d : Disk, d (segmentPath seq) = some file →
        openRead io d (segmentPath seq) = some file.data := fun d hd => by
      unfold openRead
      rw [ho, hd]
      rfl
    simp only [hopen _ hrd]
    cases hok : headerOk file.data with
    | false =>
      have hnone : recoveredSeg io d seq = none := by
        unfold recoveredSeg
        rw [hopen _ hfile]
        simp only [hok, Bool.false_eq_true, if_false]
      refine ⟨_, rfl, h.skip hseq hnew hnone (fun n hn => removeFile_ne hn) removeFile_exists ?_⟩
      intro hio
      rw [hio]
      exact Dir.remove_self _ _
    | true =>
      have hsome : recoveredSeg io d seq = some ⟨seq, framesFrom file.data segmentHeaderLen⟩ := by
        unfold recoveredSeg
        rw [hopen _ hfile]
        simp only [hok, if_true]
      obtain ⟨c, e⟩ := walkFrames_eq file.data file.data.length segmentHeaderLen
        0 r.nextBatchSeq (by omega)
      rw [Nat.zero_add, (walk_good hok seq).1] at e
      simp only [Bool.true_eq_false, if_false, e]
      exact ⟨_, rfl, h.track hseq hnew hfile (hwf _ _ hfile) hok (truncates _) rfl hsome⟩

/-- The whole loop. -/
theorem recoverSegments_spec {io : Io} {d : Disk} (truncates : ∀ n, io.setLen n = true)
    (hwf : ∀ n file, d n = some file → file.WF)
    (todo : List Nat) {done : List Nat} {r : Recovered} (h : Recovering io d done r)
    (htodo : ∀ seq ∈ todo, seq < u64Max ∧ d (segmentPath seq) ≠ none)
    (hsorted : (done ++ todo).Pairwise (· < ·)) :
    ∃ r', todo.foldlM (recoverSegment io) r = some r' ∧ Recovering io d (done ++ todo) r' := by
  induction todo generalizing done r with
  | nil =>
    refine ⟨r, rfl, ?_⟩
    rw [List.append_nil]
    exact h
  | cons seq todo ih =>
    obtain ⟨hlt, hd⟩ := htodo seq List.mem_cons_self
    have hnew : ∀ x ∈ done, x < seq := fun x hx =>
      (List.pairwise_append.mp hsorted).2.2 x hx seq List.mem_cons_self
    obtain ⟨r₁, e₁, h₁⟩ := recoverSegment_spec truncates h hwf hlt hnew hd
    rw [List.append_cons] at hsorted ⊢
    obtain ⟨r', e', h'⟩ := ih h₁ (fun x hx => htodo x (List.mem_cons_of_mem _ hx)) hsorted
    refine ⟨r', ?_, h'⟩
    rw [List.foldlM_cons, e₁]
    exact e'

omit [Crc32] in
/-- Every file whose name parses as a segment's has the name `segment_path` gives it. -/
def SegmentNames (d : Disk) : Prop :=
  ∀ n seq, d n ≠ none → parseSegmentSeq n = some seq → n = segmentPath seq

omit [Crc32] in
/-- The numbers `recover` sorts: one for each segment file, increasing. -/
theorem found_names {entries : List FileName} {d : Disk} (hd : SegmentNames d)
    (hl : Lists entries d) :
    ((entries.filterMap parseSegmentSeq).insertionSort (· ≤ ·)).Pairwise (· < ·) ∧
    ∀ seq, seq ∈ (entries.filterMap parseSegmentSeq).insertionSort (· ≤ ·) ↔
      seq < 2 ^ 64 ∧ d (segmentPath seq) ≠ none := by
  have hmem : ∀ seq, seq ∈ entries.filterMap parseSegmentSeq ↔
      seq < 2 ^ 64 ∧ d (segmentPath seq) ≠ none := by
    intro seq
    rw [List.mem_filterMap]
    constructor
    · rintro ⟨n, hn, hp⟩
      obtain rfl := hd n seq ((hl.mem n).mp hn) hp
      exact ⟨parseSegmentSeq_lt hp, (hl.mem _).mp hn⟩
    · rintro ⟨hlt, hne⟩
      exact ⟨segmentPath seq, (hl.mem _).mpr hne, parseSegmentSeq_segmentPath hlt⟩
  have hnd : (entries.filterMap parseSegmentSeq).Nodup := by
    refine List.pairwise_filterMap.mpr (hl.nodup.imp_of_mem fun {a b} ha hb hne x hx y hy e => ?_)
    subst e
    refine hne ?_
    rw [hd a x ((hl.mem a).mp ha) hx, hd b x ((hl.mem b).mp hb) hy]
  generalize entries.filterMap parseSegmentSeq = seqs at hmem hnd ⊢
  have hp := List.perm_insertionSort (· ≤ ·) seqs
  refine ⟨?_, fun seq => by rw [hp.mem_iff]; exact hmem seq⟩
  have hle := List.pairwise_insertionSort (· ≤ ·) seqs
  have hne : (seqs.insertionSort (· ≤ ·)).Pairwise (· ≠ ·) := hp.nodup_iff.mpr hnd
  exact (hle.and hne).imp fun h => Nat.lt_of_le_of_ne h.1 h.2

omit [Crc32] in
theorem WrittenDir.segmentNames {d : Disk} (h : WrittenDir d) : SegmentNames d := by
  intro n seq hn hp
  obtain ⟨x, hx, rfl⟩ := h.named n hn
  have hlt : x < 2 ^ 64 := Nat.lt_of_lt_of_le hx (by decide)
  rw [parseSegmentSeq_segmentPath hlt] at hp
  rw [Option.some.inj hp]

omit [Crc32] in
/-- In a directory this code wrote there is a number for each file. -/
theorem found_spec {entries : List FileName} {d : Disk} (hd : WrittenDir d) (hl : Lists entries d) :
    ((entries.filterMap parseSegmentSeq).insertionSort (· ≤ ·)).Pairwise (· < ·) ∧
    ∀ seq, seq ∈ (entries.filterMap parseSegmentSeq).insertionSort (· ≤ ·) ↔
      d (segmentPath seq) ≠ none := by
  obtain ⟨hsorted, hmem⟩ := found_names hd.segmentNames hl
  refine ⟨hsorted, fun seq => ?_⟩
  rw [hmem]
  refine and_iff_right_of_imp fun hne => ?_
  obtain ⟨x, hx, e⟩ := hd.named _ hne
  rw [segmentPath_inj] at e
  unfold u64Max at hx
  omega

/-- The frames of a recovered segment have payloads the writer accepts. -/
theorem recoveredSeg_valid {io : Io} {d : Disk} {seq : Nat} {g : Seg DecodedFrame}
    (h : recoveredSeg io d seq = some g) : ∀ f ∈ g.items, ValidPayload f.payload := by
  unfold recoveredSeg at h
  split at h
  · cases h
  · rename_i file _
    split at h
    · rename_i hok
      unfold headerOk at hok
      rw [Bool.and_eq_true, decide_eq_true_eq] at hok
      rw [← Option.some.inj h]
      exact (walk_decode file.length segmentHeaderLen hok.1).2.2.2
    · cases h

/-- The last segment found is opened for writing. -/
theorem Recovering.active {io : Io} {d : Disk} {found : List Nat} {r : Recovered}
    (h : Recovering io d found r) (cfg : WalConfig) {init : List (Seg DecodedFrame)}
    {g : Seg DecodedFrame} (hs : found.filterMap (recoveredSeg io d) = init ++ [g]) :
    (innerFromRecovered cfg r).active = some (activeOf g) := by
  unfold innerFromRecovered
  rw [h.segments, hs, List.map_append, List.map_singleton, List.getLast?_concat]
  rfl

/-- Reading starts at the first segment found. -/
theorem Recovering.readSeq {io : Io} {d : Disk} {found : List Nat} {r : Recovered}
    (h : Recovering io d found r) (cfg : WalConfig) : (innerFromRecovered cfg r).readSeq =
      ((found.filterMap (recoveredSeg io d)).head?.map Seg.seq).getD
        (innerFromRecovered cfg r).nextSeq := by
  unfold innerFromRecovered
  rw [h.segments, List.head?_map, Option.map_map]
  rfl

/-- The store built at the end of the loop. -/
theorem innerFromRecovered_spec {io : Io} {d : Disk} {found : List Nat} {r : Recovered}
    (cfg : WalConfig) (h : Recovering io d found r) (hsorted : found.Pairwise (· < ·))
    (hnamed : ∀ n, d n ≠ none → ∃ seq ∈ found, n = segmentPath seq) :
    Represents (innerFromRecovered cfg r)
      ⟨found.filterMap (recoveredSeg io d), 0, Nat.zero_le _⟩ := by
  have hnext : (innerFromRecovered cfg r).nextSeq = r.maxSeq + 1 := by
    have := h.max_lt
    refine Nat.mod_eq_of_lt ?_
    unfold u64Max at this
    omega
  constructor
  case segments => exact h.segments
  case files => exact h.files
  case valid =>
    intro g hg
    obtain ⟨seq, -, e⟩ := List.mem_filterMap.mp hg
    exact recoveredSeg_valid e
  case sorted =>
    refine List.Pairwise.filterMap _ (fun a a' hlt b hb b' hb' => ?_) hsorted
    rw [recoveredSeg_seq hb, recoveredSeg_seq hb']
    exact hlt
  case below =>
    intro g hg
    rw [hnext]
    exact Nat.lt_succ_of_le (h.le_max _ (recoveredSeg_mem hg))
  case fits =>
    rw [hnext]
    exact h.max_lt
  case total => exact h.total
  case active =>
    rcases List.eq_nil_or_concat' (found.filterMap (recoveredSeg io d)) with hs | ⟨init, g, hs⟩
    · left
      unfold innerFromRecovered
      rw [h.segments, hs]
      rfl
    · exact Or.inr ⟨init, g, hs, h.active cfg hs⟩
  case cursor =>
    have hread := h.readSeq cfg
    cases hs : found.filterMap (recoveredSeg io d) with
    | nil =>
      rw [hs] at hread
      exact .off (fun g hg => absurd hg List.not_mem_nil) rfl rfl (Nat.le_of_eq hread)
        fun _ => ⟨rfl, rfl⟩
    | cons g rest =>
      rw [hs] at hread
      exact .front g rest rfl hread rfl (Or.inl rfl)
  case named =>
    intro n hn
    obtain ⟨seq, hs, e⟩ := hnamed n (h.existed n hn)
    refine ⟨seq, ?_, e⟩
    rw [hnext]
    exact Nat.lt_succ_of_le (h.le_max _ hs)

/-- What `recover` returns. -/
structure RecoverOutcome (io : Io) (d : Disk) (s : Store) (l : FrameLog) : Prop where
  store : Represents s l
  segs : ∃ seqs : List Nat, seqs.Pairwise (· < ·) ∧
    (∀ seq, seq ∈ seqs ↔ d (segmentPath seq) ≠ none) ∧ l.segs = seqs.filterMap (recoveredSeg io d)
  unread : l.consumed = 0
  pending : s.pendingAdvance = none
  active : l.segs ≠ [] → s.active ≠ none
  durable : ∀ g ∈ l.segs, durableLen s.disk g.seq = min (durableLen d g.seq) (segBytes g)
  tidy : io = .ok → ∀ n, s.disk n ≠ none → ∃ g ∈ l.segs, n = segmentPath g.seq

/-- **Recovery terminates, with a store that represents the good files of the directory.** -/
theorem recover_spec (io : Io) (truncates : ∀ n, io.setLen n = true) (cfg : WalConfig)
    {entries : List FileName} {d : Disk} (hd : WrittenDir d) (hl : Lists entries d) :
    ∃ s l, recover io cfg entries d = some s ∧ RecoverOutcome io d s l := by
  obtain ⟨hsorted, hmem⟩ := found_spec hd hl
  unfold recover
  simp only
  generalize (entries.filterMap parseSegmentSeq).insertionSort (· ≤ ·) = found at hsorted hmem
  have hbound : ∀ seq ∈ found, seq < u64Max := by
    intro seq hs
    obtain ⟨x, hx, e⟩ := hd.named _ ((hmem seq).mp hs)
    rw [segmentPath_inj] at e
    omega
  by_cases hnil : found = []
  · -- no segment file, so no file at all
    have hempty : ∀ n, d n = none := by
      intro n
      by_contra hne
      obtain ⟨seq, -, rfl⟩ := hd.named n hne
      have := (hmem seq).mpr hne
      rw [hnil] at this
      exact absurd this List.not_mem_nil
    obtain rfl : d = fun _ => none := funext hempty
    rw [if_pos hnil]
    refine ⟨_, _, rfl, emptyStore_spec cfg, ⟨found, hsorted, hmem, ?_⟩, rfl, rfl, ?_, ?_, ?_⟩
    · rw [hnil]
      rfl
    · exact fun h => absurd rfl h
    · exact fun g hg => absurd hg List.not_mem_nil
    · exact fun _ n hn => absurd rfl hn
  · rw [if_neg hnil]
    have hstart : Recovering io d [] ⟨[], 0, 0, 0, 0, d⟩ :=
      ⟨rfl, fun _ hg => absurd hg List.not_mem_nil, rfl, fun _ hx => absurd hx List.not_mem_nil,
        (by decide : 0 < u64Max), fun _ _ => rfl, fun _ hn => hn,
        fun _ hg => absurd hg List.not_mem_nil, fun _ _ hx => absurd hx List.not_mem_nil⟩
    obtain ⟨r, e, h⟩ := recoverSegments_spec truncates hd.wf found hstart
      (fun seq hs => ⟨hbound seq hs, (hmem seq).mp hs⟩) (by rw [List.nil_append]; exact hsorted)
    rw [List.nil_append] at h
    rw [e]
    have hnamed : ∀ n, d n ≠ none → ∃ seq ∈ found, n = segmentPath seq := by
      intro n hn
      obtain ⟨seq, -, rfl⟩ := hd.named n hn
      exact ⟨seq, (hmem seq).mpr hn, rfl⟩
    refine ⟨_, _, rfl, innerFromRecovered_spec cfg h hsorted hnamed, ⟨found, hsorted, hmem, rfl⟩,
      rfl, rfl, ?_, h.durable, ?_⟩
    · intro hne
      obtain ⟨init, g, hs⟩ := (List.eq_nil_or_concat' _).resolve_left hne
      rw [h.active cfg hs]
      exact Option.some_ne_none _
    · intro hio n hn
      obtain ⟨seq, hs, rfl⟩ := hnamed n (h.existed n hn)
      obtain ⟨g, hg⟩ := Option.ne_none_iff_exists'.mp (h.tidy hio seq hs hn)
      exact ⟨g, List.mem_filterMap.mpr ⟨seq, hs, hg⟩, by rw [recoveredSeg_seq hg]⟩

end Statix.Wal
