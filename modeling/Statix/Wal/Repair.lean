import Statix.Wal.Codec
import Statix.Wal.Recovery

/-!
# Recovery as a repair of the directory

`recover` on a directory with any bytes in its segment files, every I/O call succeeding. Other files
may be there too, and a segment may have the number `u64::MAX`.

* `repairFile`: what becomes of one segment file. It is a function of that file alone.
* `Repairing`, `repair_spec`: the loop over the segments applies it to each of them and records what
  it kept.
* `repairFile_idem`: a repaired file is left as it is.
* **`recover_repairs`**: what recovery removes, cuts and records, and that a second recovery changes
  nothing.
-/

namespace Statix.Wal

open Statix.Lib

variable [Crc32]

/-- The frames of a segment file that `read_frame_at` accepts one after another. -/
def goodFrames (file : Bytes) : List DecodedFrame := framesFrom file segmentHeaderLen

/-- The bytes up to the end of these frames. -/
def goodLen (file : Bytes) : Nat := segmentHeaderLen + (encodeFrames (goodFrames file)).length

/-- What recovery leaves of a segment file: nothing without a good header, else the part up to the
end of the last good frame. -/
def repairFile (f : File UInt8) : Option (File UInt8) :=
  if headerOk f.data then
    some (if f.data.length > goodLen f.data then f.setLen (goodLen f.data) else f)
  else none

/-! ## One file -/

theorem goodLen_le {file : Bytes} (h : headerOk file = true) : goodLen file ≤ file.length :=
  (walk_good h 0).2.1

/-- What is kept of a file are its first bytes. -/
theorem repairFile_data {f f' : File UInt8} (h : repairFile f = some f') :
    headerOk f.data = true ∧ f'.data = f.data.take (goodLen f.data) := by
  unfold repairFile at h
  split at h
  · rename_i hok
    refine ⟨hok, ?_⟩
    obtain rfl := Option.some.inj h
    split
    · rw [setLen_cut _ (goodLen_le hok)]
    · rename_i hle
      rw [List.take_of_length_le (by omega)]
  · cases h

/-- The kept part has a good header and the same good frames. -/
theorem good_take {file : Bytes} (h : headerOk file = true) :
    headerOk (file.take (goodLen file)) = true ∧
      goodFrames (file.take (goodLen file)) = goodFrames file := by
  obtain ⟨-, hle, htake, hlen, hval⟩ := walk_good h 0
  have htake : file.take (goodLen file) =
      file.take segmentHeaderLen ++ encodeFrames (goodFrames file) := htake
  have hvalid : ∀ f ∈ goodFrames file, ValidPayload f.payload := by
    have hlen : segmentHeaderLen ≤ file.length := by
      have := goodLen_le h
      unfold goodLen at this
      omega
    exact (walk_decode file.length segmentHeaderLen hlen).2.2.2
  rw [htake]
  exact ⟨headerOk_append hlen hval, framesFrom_exact hvalid hlen⟩

/-- **A repaired file is left as it is**, with the same frames. -/
theorem repairFile_idem {f f' : File UInt8} (h : repairFile f = some f') :
    repairFile f' = some f' ∧ headerOk f'.data = true ∧ goodFrames f'.data = goodFrames f.data := by
  obtain ⟨hok, hdata⟩ := repairFile_data h
  obtain ⟨hok', hframes⟩ := good_take hok
  rw [← hdata] at hok' hframes
  refine ⟨?_, hok', hframes⟩
  unfold repairFile
  rw [if_pos hok', if_neg]
  have hlen : f'.data.length = goodLen f.data := by
    rw [hdata, List.length_take, Nat.min_eq_left (goodLen_le hok)]
  have : goodLen f'.data = goodLen f.data := by
    unfold goodLen
    rw [hframes]
  omega

/-! ## The loop over the segments -/

/-- **One turn of the loop** repairs one file and records it. -/
theorem recoverSegment_eq {r : Recovered} {seq : Nat} {f : File UInt8}
    (h : r.disk (segmentPath seq) = some f) :
    ∃ c, recoverSegment .ok r seq = some {
      segments := r.segments ++ (recoveredSeg .ok r.disk seq).toList.map metaOf
      totalBytes := r.totalBytes + ((recoveredSeg .ok r.disk seq).toList.map segBytes).sum
      nextBatchSeq :=
        seqAfter r.nextBatchSeq ((recoveredSeg .ok r.disk seq).toList.flatMap Seg.items)
      maxSeq := max r.maxSeq seq
      corruptFrames := c
      disk := Function.update r.disk (segmentPath seq) (repairFile f) } := by
  unfold recoverSegment
  simp only
  unfold recoveredSeg
  rw [openRead_ok h]
  simp only
  cases hok : headerOk f.data with
  | false =>
    refine ⟨r.corruptFrames + 1, ?_⟩
    simp [repairFile, hok, seqAfter, removeFile, Io.ok, Dir.remove]
  | true =>
    obtain ⟨c, e⟩ := walkFrames_eq f.data f.data.length segmentHeaderLen 0 r.nextBatchSeq (by omega)
    rw [Nat.zero_add, (walk_good hok seq).1] at e
    simp only [Bool.true_eq_false, if_false, e]
    refine ⟨r.corruptFrames + if c then 1 else 0, ?_⟩
    have hdisk : (if f.data.length > goodLen f.data then
        r.disk.modify (segmentPath seq) (File.setLen (goodLen f.data)) else r.disk) =
        Function.update r.disk (segmentPath seq) (repairFile f) := by
      unfold repairFile
      rw [if_pos hok]
      split
      · rw [Dir.modify, h, Option.map_some]
      · rw [← h, Function.update_eq_self]
    have hcut : Io.ok.setLen (segmentPath seq) = true := rfl
    rw [← hdisk]
    simp only [hcut, and_true, if_true, Option.toList_some, List.map_singleton, List.sum_singleton,
      List.flatMap_singleton]
    rfl

/-- Where the loop over the segments is, after the numbers `done`. -/
structure Repairing (d : Disk) (done : List Nat) (r : Recovered) : Prop where
  segments : r.segments = (done.filterMap (recoveredSeg .ok d)).map metaOf
  total : r.totalBytes = ((done.filterMap (recoveredSeg .ok d)).map segBytes).sum
  nextBatchSeq : r.nextBatchSeq =
    seqAfter 0 ((done.filterMap (recoveredSeg .ok d)).flatMap Seg.items)
  repaired : ∀ seq ∈ done, r.disk (segmentPath seq) = (d (segmentPath seq)).bind repairFile
  untouched : ∀ n, (∀ seq ∈ done, n ≠ segmentPath seq) → r.disk n = d n

theorem repairing_turn {d : Disk} {done : List Nat} {r : Recovered} {seq : Nat}
    (h : Repairing d done r) (hnew : seq ∉ done) (hd : d (segmentPath seq) ≠ none) :
    ∃ r', recoverSegment .ok r seq = some r' ∧ Repairing d (done ++ [seq]) r' := by
  obtain ⟨f, hf⟩ := Option.ne_none_iff_exists'.mp hd
  have hrd : r.disk (segmentPath seq) = d (segmentPath seq) := by
    refine h.untouched _ fun x hx e => hnew ?_
    rw [segmentPath_inj] at e
    exact e ▸ hx
  have hseg : recoveredSeg .ok r.disk seq = recoveredSeg .ok d seq := by
    unfold recoveredSeg
    rw [openRead_ok (hrd.trans hf), openRead_ok hf]
  have hfm : (done ++ [seq]).filterMap (recoveredSeg .ok d) =
      done.filterMap (recoveredSeg .ok d) ++ (recoveredSeg .ok d seq).toList := by
    rw [List.filterMap_append]
    cases hx : recoveredSeg .ok d seq <;> simp [hx]
  obtain ⟨c, e⟩ := recoverSegment_eq (hrd.trans hf)
  rw [hseg] at e
  refine ⟨_, e, ?_, ?_, ?_, ?_, ?_⟩
  · rw [hfm, List.map_append, h.segments]
  · rw [hfm, List.map_append, List.sum_append, h.total]
  · rw [hfm, List.flatMap_append, h.nextBatchSeq, seqAfter, seqAfter, seqAfter, List.foldl_append]
  · intro x hx
    by_cases hxs : x = seq
    · subst hxs
      simp [hf]
    · have hx' : x ∈ done := by
        rcases List.mem_append.mp hx with hx | hx
        · exact hx
        · exact absurd (List.mem_singleton.mp hx) hxs
      have hne : segmentPath x ≠ segmentPath seq := by simpa using hxs
      simp only [Function.update_of_ne hne]
      exact h.repaired x hx'
  · intro n hn
    simp only [Function.update_of_ne (hn seq List.mem_concat_self)]
    exact h.untouched n fun x hx => hn x (List.mem_append_left _ hx)

theorem repairing_loop {d : Disk} (todo : List Nat) {done : List Nat} {r : Recovered}
    (h : Repairing d done r) (hd : ∀ seq ∈ todo, d (segmentPath seq) ≠ none)
    (hnodup : (done ++ todo).Nodup) :
    ∃ r', todo.foldlM (recoverSegment .ok) r = some r' ∧ Repairing d (done ++ todo) r' := by
  induction todo generalizing done r with
  | nil =>
    rw [List.append_nil]
    exact ⟨r, rfl, h⟩
  | cons seq todo ih =>
    have hnew : seq ∉ done := fun hx =>
      (List.nodup_append.mp hnodup).2.2 seq hx seq List.mem_cons_self rfl
    obtain ⟨r₁, e₁, h₁⟩ := repairing_turn h hnew (hd seq List.mem_cons_self)
    rw [List.append_cons] at hnodup ⊢
    obtain ⟨r', e', h'⟩ := ih h₁ (fun x hx => hd x (List.mem_cons_of_mem _ hx)) hnodup
    refine ⟨r', ?_, h'⟩
    rw [List.foldlM_cons, e₁]
    exact e'

/-- The store recovery returns, for the sorted numbers `found`. -/
structure RepairOutcome (d : Disk) (found : List Nat) (s : Store) : Prop where
  sorted : found.Pairwise (· < ·)
  mem : ∀ seq, seq ∈ found ↔ seq < 2 ^ 64 ∧ d (segmentPath seq) ≠ none
  segments : s.segments = (found.filterMap (recoveredSeg .ok d)).map metaOf
  total : s.totalBytes = ((found.filterMap (recoveredSeg .ok d)).map segBytes).sum
  nextBatchSeq : s.nextBatchSeq =
    seqAfter 0 ((found.filterMap (recoveredSeg .ok d)).flatMap Seg.items)
  repaired : ∀ seq ∈ found, s.disk (segmentPath seq) = (d (segmentPath seq)).bind repairFile
  untouched : ∀ n, (∀ seq ∈ found, n ≠ segmentPath seq) → s.disk n = d n

/-- **Recovery terminates, and repairs each segment file by itself.** -/
theorem repair_spec (cfg : WalConfig) {entries : List FileName} {d : Disk} (names : SegmentNames d)
    (lists : Lists entries d) :
    ∃ s found, recover .ok cfg entries d = some s ∧ RepairOutcome d found s := by
  obtain ⟨hsorted, hmem⟩ := found_names names lists
  unfold recover
  simp only
  generalize (entries.filterMap parseSegmentSeq).insertionSort (· ≤ ·) = found at hsorted hmem
  have hstart : Repairing d [] ⟨[], 0, 0, 0, 0, d⟩ :=
    ⟨rfl, rfl, rfl, fun _ hx => absurd hx List.not_mem_nil, fun _ _ => rfl⟩
  by_cases hnil : found = []
  · rw [if_pos hnil]
    refine ⟨_, found, rfl, hsorted, hmem, ?_, ?_, ?_, ?_, fun _ _ => rfl⟩
    · rw [hnil]
      rfl
    · rw [hnil]
      rfl
    · rw [hnil]
      rfl
    · rw [hnil]
      exact fun _ hx => absurd hx List.not_mem_nil
  · rw [if_neg hnil]
    have hnodup : found.Nodup := hsorted.imp fun hlt => Nat.ne_of_lt hlt
    obtain ⟨r, e, h⟩ := repairing_loop found hstart (fun seq hs => ((hmem seq).mp hs).2) hnodup
    rw [e]
    exact ⟨_, found, rfl, hsorted, hmem, h.segments, h.total, h.nextBatchSeq, h.repaired,
      h.untouched⟩

/-! ## What the outcome says -/

omit [Crc32] in
theorem le_seqAfter (q : UInt64) (fs : List DecodedFrame) : q ≤ seqAfter q fs := by
  induction fs generalizing q with
  | nil => exact UInt64.le_refl q
  | cons f fs ih =>
    refine UInt64.le_trans ?_ (ih (max q (f.batchSeq + 1)))
    show q ≤ if q ≤ f.batchSeq + 1 then f.batchSeq + 1 else q
    split
    · assumption
    · exact UInt64.le_refl q

omit [Crc32] in
/-- `next_batch_seq` exceeds every number but the last one. -/
theorem lt_seqAfter {f : DecodedFrame} {fs : List DecodedFrame} (hf : f ∈ fs)
    (hmax : f.batchSeq.toNat ≠ u64Max) (q : UInt64) : f.batchSeq < seqAfter q fs := by
  induction fs generalizing q with
  | nil => exact absurd hf List.not_mem_nil
  | cons g fs ih =>
    rcases List.mem_cons.mp hf with rfl | hf
    · have hlt : f.batchSeq < f.batchSeq + 1 := by
        have := f.batchSeq.toNat_lt
        unfold u64Max at hmax
        rw [UInt64.lt_iff_toNat_lt, UInt64.toNat_add, UInt64.toNat_one]
        omega
      have hle : f.batchSeq + 1 ≤ max q (f.batchSeq + 1) := by
        show _ ≤ if q ≤ f.batchSeq + 1 then f.batchSeq + 1 else q
        split
        · exact UInt64.le_refl _
        · rename_i hq
          exact UInt64.le_of_lt (UInt64.not_le.mp hq)
      exact UInt64.lt_of_lt_of_le hlt (UInt64.le_trans hle (le_seqAfter _ fs))
    · exact ih hf _

theorem recoveredSeg_some {d : Disk} {seq : Nat} {f : File UInt8}
    (hf : d (segmentPath seq) = some f) :
    recoveredSeg .ok d seq = if headerOk f.data then some ⟨seq, goodFrames f.data⟩ else none := by
  unfold recoveredSeg
  rw [openRead_ok hf]
  rfl

theorem recoveredSeg_none {d : Disk} {seq : Nat} (hd : d (segmentPath seq) = none) :
    recoveredSeg .ok d seq = none := by
  unfold recoveredSeg openRead
  simp [hd]

namespace RepairOutcome

variable {d : Disk} {found : List Nat} {s : Store}

/-- A number without a file, or no number at all, stays so. -/
theorem disk_eq_none (h : RepairOutcome d found s) {n : FileName} (hn : d n = none) :
    s.disk n = none := by
  rw [h.untouched n, hn]
  rintro seq hseq rfl
  exact ((h.mem seq).mp hseq).2 hn

/-- The segment found under a number is the same before and after the repair. -/
theorem recoveredSeg_eq (h : RepairOutcome d found s) {seq : Nat} (hseq : seq ∈ found) :
    recoveredSeg .ok s.disk seq = recoveredSeg .ok d seq := by
  obtain ⟨f, hf⟩ := Option.ne_none_iff_exists'.mp ((h.mem seq).mp hseq).2
  have hs := h.repaired seq hseq
  rw [hf, Option.bind_some] at hs
  rw [recoveredSeg_some hf]
  cases hr : repairFile f with
  | none =>
    rw [hr] at hs
    have hok : headerOk f.data = false := by
      unfold repairFile at hr
      cases hok : headerOk f.data <;> simp [hok] at hr ⊢
    rw [recoveredSeg_none hs, hok]
    rfl
  | some f' =>
    obtain ⟨-, hok', hframes⟩ := repairFile_idem hr
    rw [recoveredSeg_some (hs.trans hr), hok', hframes, (repairFile_data hr).1]

/-- The numbers a second recovery finds. -/
theorem found_again (h : RepairOutcome d found s) {found' : List Nat} {s' : Store}
    (h' : RepairOutcome s.disk found' s') :
    found' = found.filter fun seq => (recoveredSeg .ok d seq).isSome := by
  refine h'.sorted.eq_of_mem_iff (h.sorted.filter _) fun seq => ?_
  rw [h'.mem, List.mem_filter]
  constructor
  · rintro ⟨hlt, hs⟩
    have hd : d (segmentPath seq) ≠ none := fun hn => hs (h.disk_eq_none hn)
    have hseq : seq ∈ found := (h.mem seq).mpr ⟨hlt, hd⟩
    obtain ⟨f, hf⟩ := Option.ne_none_iff_exists'.mp hd
    refine ⟨hseq, ?_⟩
    rw [h.repaired seq hseq, hf, Option.bind_some] at hs
    obtain ⟨f', hr⟩ := Option.ne_none_iff_exists'.mp hs
    rw [recoveredSeg_some hf, (repairFile_data hr).1]
    rfl
  · rintro ⟨hseq, hsome⟩
    refine ⟨((h.mem seq).mp hseq).1, fun hs => ?_⟩
    rw [← h.recoveredSeg_eq hseq, recoveredSeg_none hs] at hsome
    cases hsome

/-- **A second recovery changes nothing.** -/
theorem again (h : RepairOutcome d found s) {found' : List Nat} {s' : Store}
    (h' : RepairOutcome s.disk found' s') :
    s'.disk = s.disk ∧ s'.segments = s.segments ∧ s'.totalBytes = s.totalBytes ∧
      s'.nextBatchSeq = s.nextBatchSeq := by
  have hfm : found'.filterMap (recoveredSeg .ok s.disk) = found.filterMap (recoveredSeg .ok d) := by
    rw [h.found_again h', List.filterMap_filter]
    refine List.filterMap_congr fun seq hseq => ?_
    rw [h.recoveredSeg_eq hseq]
    cases recoveredSeg .ok d seq <;> rfl
  refine ⟨?_, ?_, ?_, ?_⟩
  · funext n
    by_cases hn : ∀ seq ∈ found', n ≠ segmentPath seq
    · exact h'.untouched n hn
    · push Not at hn
      obtain ⟨seq, hseq', rfl⟩ := hn
      have hseq : seq ∈ found := by
        rw [h.found_again h'] at hseq'
        exact List.mem_of_mem_filter hseq'
      rw [h'.repaired seq hseq', h.repaired seq hseq]
      cases hd : d (segmentPath seq) with
      | none => rfl
      | some f =>
        rw [Option.bind_some]
        cases hr : repairFile f with
        | none => rfl
        | some f' => exact (repairFile_idem hr).1
  · rw [h'.segments, h.segments, hfm]
  · rw [h'.total, h.total, hfm]
  · rw [h'.nextBatchSeq, h.nextBatchSeq, hfm]

end RepairOutcome

/-- The header a segment file needs. -/
def GoodHeader (file : Bytes) : Prop :=
  segmentHeaderLen ≤ file.length ∧ validateSegmentHeader (file.take segmentHeaderLen) = .ok ()

omit [Crc32] in
theorem headerOk_iff (file : Bytes) : headerOk file = true ↔ GoodHeader file := by
  unfold headerOk GoodHeader
  rw [Bool.and_eq_true, decide_eq_true_eq]
  cases validateSegmentHeader (file.take segmentHeaderLen) <;> simp

/-- **What recovery makes of a directory** `d`. -/
structure Repaired (d : Disk) (s : Store) : Prop where
  /-- The segment files removed are those shorter than a header or with a bad one. -/
  removed : ∀ n seq f, parseSegmentSeq n = some seq → d n = some f →
    (s.disk n = none ↔ ¬ GoodHeader f.data)
  /-- Of every other one the frames are kept that `read_frame_at` accepts one after another. -/
  kept : ∀ n seq f, parseSegmentSeq n = some seq → d n = some f → GoodHeader f.data →
    ∃ frames last f', readAll f.data = located segmentHeaderLen frames ++ [last] ∧
      (last = .atEnd ∨ last = .corrupt) ∧ s.disk n = some f' ∧
      segmentHeaderLen + (encodeFrames frames).length ≤ f.data.length ∧
      f'.data = f.data.take (segmentHeaderLen + (encodeFrames frames).length) ∧
      ⟨seq, n, segmentHeaderLen + (encodeFrames frames).length, frames.length⟩ ∈ s.segments ∧
      ∀ frame ∈ frames, frame.batchSeq.toNat ≠ u64Max → frame.batchSeq < s.nextBatchSeq
  /-- Nothing else is recorded, -/
  tracked : ∀ m ∈ s.segments, parseSegmentSeq m.path = some m.seq ∧ s.disk m.path ≠ none
  sorted : s.segments.Pairwise fun a b => a.seq < b.seq
  total : s.totalBytes = (s.segments.map SegmentMeta.bytes).sum
  /-- and no other file is touched or created. -/
  others : ∀ n, parseSegmentSeq n = none → s.disk n = d n
  created : ∀ n, d n = none → s.disk n = none

theorem repairFile_eq_none {f : File UInt8} : repairFile f = none ↔ ¬ GoodHeader f.data := by
  rw [← headerOk_iff]
  unfold repairFile
  split
  · rename_i hok
    simp [hok]
  · rename_i hok
    simp [hok]

namespace RepairOutcome

variable {d : Disk} {found : List Nat} {s : Store}

/-- The file of a number that was found. -/
theorem disk_eq (h : RepairOutcome d found s) (names : SegmentNames d) {n : FileName} {seq : Nat}
    {f : File UInt8} (hp : parseSegmentSeq n = some seq) (hf : d n = some f) :
    n = segmentPath seq ∧ seq ∈ found ∧ s.disk n = repairFile f := by
  have hne : d n ≠ none := by rw [hf]; exact Option.some_ne_none _
  obtain rfl := names n seq hne hp
  have hseq : seq ∈ found := (h.mem seq).mpr ⟨parseSegmentSeq_lt hp, hne⟩
  refine ⟨rfl, hseq, ?_⟩
  rw [h.repaired seq hseq, hf, Option.bind_some]

theorem repairs (h : RepairOutcome d found s) (names : SegmentNames d) : Repaired d s := by
  have hparse : ∀ seq ∈ found, parseSegmentSeq (segmentPath seq) = some seq :=
    fun seq hseq => parseSegmentSeq_segmentPath ((h.mem seq).mp hseq).1
  constructor
  case removed =>
    intro n seq f hp hf
    rw [(h.disk_eq names hp hf).2.2]
    exact repairFile_eq_none
  case kept =>
    intro n seq f hp hf hgood
    obtain ⟨rfl, hseq, hs⟩ := h.disk_eq names hp hf
    have hok : headerOk f.data = true := (headerOk_iff f.data).mpr hgood
    obtain ⟨last, hreads, hlast⟩ := reads_walk f.data f.data.length segmentHeaderLen (by omega)
    obtain ⟨f', hr⟩ := Option.ne_none_iff_exists'.mp (mt repairFile_eq_none.mp (not_not.mpr hgood))
    have hmem : (⟨seq, goodFrames f.data⟩ : Seg DecodedFrame) ∈
        found.filterMap (recoveredSeg .ok d) := by
      refine List.mem_filterMap.mpr ⟨seq, hseq, ?_⟩
      rw [recoveredSeg_some hf, if_pos hok]
    refine ⟨goodFrames f.data, last, f', hreads, hlast, hs.trans hr, goodLen_le hok,
      (repairFile_data hr).2, ?_, fun frame hframe hmax => ?_⟩
    · rw [h.segments]
      exact List.mem_map.mpr ⟨_, hmem, rfl⟩
    · rw [h.nextBatchSeq]
      exact lt_seqAfter (List.mem_flatMap.mpr ⟨_, hmem, hframe⟩) hmax 0
  case tracked =>
    intro m hm
    rw [h.segments] at hm
    obtain ⟨g, hg, rfl⟩ := List.mem_map.mp hm
    obtain ⟨seq, hseq, he⟩ := List.mem_filterMap.mp hg
    have hgs := recoveredSeg_seq he
    rw [metaOf_path, metaOf_seq, hgs]
    refine ⟨hparse seq hseq, fun hnone => ?_⟩
    rw [← h.recoveredSeg_eq hseq, recoveredSeg_none hnone] at he
    cases he
  case sorted =>
    rw [h.segments, List.pairwise_map]
    refine List.Pairwise.filterMap _ (fun a a' hlt b hb b' hb' => ?_) h.sorted
    rw [metaOf_seq, metaOf_seq, recoveredSeg_seq hb, recoveredSeg_seq hb']
    exact hlt
  case total =>
    rw [h.total, h.segments, List.map_map]
    rfl
  case others =>
    intro n hn
    refine h.untouched n ?_
    rintro seq hseq rfl
    rw [hparse seq hseq] at hn
    cases hn
  case created => exact fun n hn => h.disk_eq_none hn

/-- A segment file is repaired alike in any directory. -/
theorem alone (h : RepairOutcome d found s) {d' : Disk} {found' : List Nat} {s' : Store}
    (h' : RepairOutcome d' found' s') {seq : Nat}
    (heq : d' (segmentPath seq) = d (segmentPath seq)) :
    s'.disk (segmentPath seq) = s.disk (segmentPath seq) ∧
      ∀ m, m.seq = seq → (m ∈ s'.segments ↔ m ∈ s.segments) := by
  have hfound : seq ∈ found' ↔ seq ∈ found := by rw [h'.mem, h.mem, heq]
  have hseg : recoveredSeg .ok d' seq = recoveredSeg .ok d seq := by
    unfold recoveredSeg openRead
    rw [heq]
  constructor
  · by_cases hseq : seq ∈ found
    · rw [h.repaired seq hseq, h'.repaired seq (hfound.mpr hseq), heq]
    · have hout : ∀ l : List Nat, seq ∉ l → ∀ x ∈ l, segmentPath seq ≠ segmentPath x := by
        intro l hl x hx e
        rw [segmentPath_inj] at e
        exact hl (e ▸ hx)
      rw [h.untouched _ (hout found hseq), h'.untouched _ (hout found' (mt hfound.mp hseq)), heq]
  · have hside : ∀ {d : Disk} {found : List Nat} {s : Store}, RepairOutcome d found s → ∀ m,
        m.seq = seq →
        (m ∈ s.segments ↔ seq ∈ found ∧ (recoveredSeg .ok d seq).map metaOf = some m) := by
      intro d found s h m hm
      rw [h.segments, List.mem_map]
      constructor
      · rintro ⟨g, hg, rfl⟩
        obtain ⟨x, hx, he⟩ := List.mem_filterMap.mp hg
        obtain rfl : x = seq := (recoveredSeg_seq he).symm.trans hm
        exact ⟨hx, by rw [he]; rfl⟩
      · rintro ⟨hx, he⟩
        obtain ⟨g, hg, rfl⟩ := Option.map_eq_some_iff.mp he
        exact ⟨g, List.mem_filterMap.mpr ⟨seq, hx, hg⟩, rfl⟩
    intro m hm
    rw [hside h' m hm, hside h m hm, hfound, hseg]

end RepairOutcome

/-- **Recovery on arbitrary bytes.** It terminates, and removes, cuts and records as `Repaired`
says; a segment file is repaired alike whatever the other files are; and a second recovery, over any
listing of the result, gives the same files, segments, bytes and batch number. -/
theorem recover_repairs (cfg : WalConfig) {entries : List FileName} {d : Disk}
    (names : SegmentNames d) (lists : Lists entries d) :
    ∃ s, recover .ok cfg entries d = some s ∧ Repaired d s ∧
      (∀ cfg' entries' d' s', SegmentNames d' → Lists entries' d' →
        recover .ok cfg' entries' d' = some s' →
        ∀ seq, d' (segmentPath seq) = d (segmentPath seq) →
          s'.disk (segmentPath seq) = s.disk (segmentPath seq) ∧
          ∀ m, m.seq = seq → (m ∈ s'.segments ↔ m ∈ s.segments)) ∧
      ∀ cfg' entries', Lists entries' s.disk →
        ∃ s', recover .ok cfg' entries' s.disk = some s' ∧ s'.disk = s.disk ∧
          s'.segments = s.segments ∧ s'.totalBytes = s.totalBytes ∧
          s'.nextBatchSeq = s.nextBatchSeq := by
  obtain ⟨s, found, e, h⟩ := repair_spec cfg names lists
  refine ⟨s, e, h.repairs names, ?_, ?_⟩
  · intro cfg' entries' d' s' names' lists' e' seq heq
    obtain ⟨s₁, found', e₁, h'⟩ := repair_spec cfg' names' lists'
    obtain rfl : s₁ = s' := Option.some.inj (e₁.symm.trans e')
    exact h.alone h' heq
  · intro cfg' entries' lists'
    have names' : SegmentNames s.disk := fun n seq hn hp =>
      names n seq (fun hd => hn (h.disk_eq_none hd)) hp
    obtain ⟨s', found', e', h'⟩ := repair_spec cfg' names' lists'
    exact ⟨s', e', h.again h'⟩

/-- A frame with two bytes of a torn one behind it, and a file too short for a header. -/
def tornDir : Disk := fun n =>
  if n = segmentPath 0 then
    some ⟨encodeSegmentHeader ++ (encodeFrames [⟨7, [1]⟩] ++ [9, 9]), 0⟩
  else if n = segmentPath 3 then some ⟨[1, 2, 3], 0⟩
  else none

omit [Crc32] in
/-- The torn bytes and the short file go; the frame stays, also in a second recovery. -/
theorem recover_repairs_torn : letI := crc32Ieee
    ∃ s, recover .ok smallConfig [segmentPath 3, segmentPath 0] tornDir = some s ∧
      Repaired tornDir s ∧ s.disk (segmentPath 3) = none ∧
      ∃ s', recover .ok smallConfig [segmentPath 0] s.disk = some s' ∧
        s'.segments = s.segments := by
  let _ := crc32Ieee
  have hmem : ∀ n, tornDir n ≠ none ↔ n = segmentPath 0 ∨ n = segmentPath 3 := by
    intro n
    unfold tornDir
    split
    · rename_i h
      simp [h]
    · split
      · rename_i h
        simp [h]
      · rename_i h₀ h₃
        simp [h₀, h₃]
  have names : SegmentNames tornDir := by
    intro n seq hn hp
    rcases (hmem n).mp hn with rfl | rfl
    · rw [parseSegmentSeq_segmentPath (by decide)] at hp
      rw [Option.some.inj hp]
    · rw [parseSegmentSeq_segmentPath (by decide)] at hp
      rw [Option.some.inj hp]
  have lists : Lists [segmentPath 3, segmentPath 0] tornDir := by
    refine ⟨by simp, fun n => ?_⟩
    rw [hmem, List.mem_cons, List.mem_singleton, or_comm]
  obtain ⟨s, e, h, -, again⟩ := recover_repairs smallConfig names lists
  have h₃ : s.disk (segmentPath 3) = none := by
    refine (h.removed (segmentPath 3) 3 ⟨[1, 2, 3], 0⟩ (parseSegmentSeq_segmentPath (by decide))
      (by simp [tornDir])).mpr ?_
    rw [← headerOk_iff]
    decide
  have h₀ : s.disk (segmentPath 0) ≠ none := by
    rw [ne_eq, h.removed (segmentPath 0) 0 ⟨_, 0⟩ (parseSegmentSeq_segmentPath (by decide))
      (by rw [tornDir, if_pos rfl]), not_not, ← headerOk_iff]
    exact headerOk_append (length_encodeSegmentHeader) validateSegmentHeader_encode
  have lists' : Lists [segmentPath 0] s.disk := by
    refine ⟨by simp, fun n => ?_⟩
    rw [List.mem_singleton]
    constructor
    · rintro rfl
      exact h₀
    · intro hn
      rcases (hmem n).mp fun hd => hn (h.created n hd) with rfl | rfl
      · rfl
      · exact absurd h₃ hn
  obtain ⟨s', e', -, hsegs, -⟩ := again smallConfig [segmentPath 0] lists'
  exact ⟨s, e, h, h₃, s', e', hsegs⟩

end Statix.Wal
