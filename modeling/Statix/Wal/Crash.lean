import Statix.Wal.Failing
import Statix.Wal.Record

/-!
# Crash recovery loses nothing synced

What a crash can leave of the directory of a running writer thread (`statix/src/wal/writer.rs:19-86`),
and what `recover` (`recovery.rs:28-153`) then finds.

* `recoveredSeg_intact`, `recoveredSeg_torn`: what recovery finds of one segment.
* `recovered_filterMap`: an unfinished file is not found again, but the one in creation may be.
* `Recorded.recover`: after a crash the recovered log begins with the covered frames, and the
  record goes on from there.
* `writerInv_run`: the invariant over whole runs, restarts included.
* **`crash_keeps_synced`**: recovery terminates, yields the covered frames of the segments that were
  not removed first, and later appends come after everything recovered.

Out of scope: I/O errors of `recover` itself.
-/

namespace Statix.Wal

open Statix.Lib

variable [Crc32] {s s' : Store} {l l' : FrameLog} {history : List (Nat × DecodedFrame)}
  {covered : Nat} {kept : List (Seg DecodedFrame)}

/-! ## What recovery finds after a crash -/

/-- The directory after a crash, against the segments kept before it. The file of number `fresh` is
the one `rotate` was creating, when there is no active segment. -/
structure AfterCrash (s : Store) (kept : List (Seg DecodedFrame)) (fresh : Nat) (d' : Disk) :
    Prop where
  intact : ∀ g ∈ kept, s.active ≠ some (activeOf g) →
    d' (segmentPath g.seq) = s.disk (segmentPath g.seq)
  torn : ∀ g ∈ kept, ∃ f f', s.disk (segmentPath g.seq) = some f ∧
    d' (segmentPath g.seq) = some f' ∧ File.Crash f f'
  named : ∀ n, d' n ≠ none → ∃ seq < u64Max, n = segmentPath seq
  only : ∀ n, d' n ≠ none → (∃ g ∈ kept, n = segmentPath g.seq) ∨ Unfinished d' n ∨
    n = segmentPath fresh ∧ s.active = none ∧ ∀ g ∈ kept, g.seq < fresh
  wf : ∀ n f, d' n = some f → f.WF

omit [Crc32] in
/-- No segment is found in a file without a whole header. -/
theorem recoveredSeg_unfinished [Crc32] {d : Disk} {seq : Nat}
    (h : Unfinished d (segmentPath seq)) : recoveredSeg .ok d seq = none := by
  obtain ⟨file, hfile, hshort, -⟩ := h
  have hno : headerOk file.data = false := by
    unfold headerOk
    simp [Nat.not_le.mpr hshort]
  unfold recoveredSeg
  rw [openRead_ok hfile]
  simp only [hno]
  rfl

/-- An untouched segment is recovered as it was. -/
theorem recoveredSeg_intact {d d' : Disk} {g : Seg DecodedFrame} (h : HoldsSeg d g)
    (hv : ∀ f ∈ g.items, ValidPayload f.payload)
    (e : d' (segmentPath g.seq) = d (segmentPath g.seq)) : recoveredSeg .ok d' g.seq = some g := by
  obtain ⟨file, hdr, hd, hdata, hlen, hval, -⟩ := h.file
  unfold recoveredSeg
  rw [openRead_ok (e.trans hd)]
  simp only
  rw [hdata, if_pos (headerOk_append hlen hval), framesFrom_exact hv hlen]

/-- Of a torn segment at least the frames inside the synced prefix are recovered; with none of them
the file may be gone altogether. -/
theorem recoveredSeg_torn {d d' : Disk} {g : Seg DecodedFrame} {f f' : File UInt8} {j : Nat}
    (h : HoldsSeg d g) (hv : ∀ f ∈ g.items, ValidPayload f.payload)
    (hf : d (segmentPath g.seq) = some f) (hf' : d' (segmentPath g.seq) = some f')
    (hcrash : File.Crash f f') (hj : j = 0 ∨ boundary g j ≤ f.synced) :
    (recoveredSeg .ok d' g.seq = none ∧ j = 0) ∨
    ∃ g', recoveredSeg .ok d' g.seq = some g' ∧ g'.seq = g.seq ∧ g.items.take j <+: g'.items := by
  have hrec : recoveredSeg .ok d' g.seq =
      if headerOk f'.data then some ⟨g.seq, framesFrom f'.data segmentHeaderLen⟩ else none := by
    unfold recoveredSeg
    rw [openRead_ok hf']
  -- the bytes up to frame `j` are still there
  have hkept : j ≠ 0 → ∃ hdr rest, f'.data = hdr ++ (encodeFrames (g.items.take j) ++ rest) ∧
      hdr.length = segmentHeaderLen ∧ validateSegmentHeader hdr = .ok () := by
    intro hj0
    have hb := hj.resolve_left hj0
    obtain ⟨file, hdr, hd, hdata, hlen, hval, -⟩ := h.file
    obtain rfl : f = file := Option.some.inj (hf.symm.trans hd)
    obtain ⟨tail, htail, -⟩ := hcrash
    have hsplit : f.data =
        (hdr ++ encodeFrames (g.items.take j)) ++ encodeFrames (g.items.drop j) := by
      rw [hdata, List.append_assoc, ← encodeFrames_append, List.take_append_drop]
    have hpre : (hdr ++ encodeFrames (g.items.take j)).length ≤ f.synced := by
      rw [List.length_append, hlen]
      exact hb
    refine ⟨hdr, (encodeFrames (g.items.drop j)).take
      (f.synced - (hdr ++ encodeFrames (g.items.take j)).length) ++ tail, ?_, hlen, hval⟩
    rw [htail, hsplit, List.take_append, List.take_of_length_le hpre]
    simp only [List.append_assoc]
  rw [hrec]
  by_cases hj0 : j = 0
  · cases hok : headerOk f'.data with
    | false => exact Or.inl ⟨rfl, hj0⟩
    | true =>
      refine Or.inr ⟨_, rfl, rfl, ?_⟩
      rw [hj0, List.take_zero]
      exact List.nil_prefix
  · obtain ⟨hdr, rest, hdata, hlen, hval⟩ := hkept hj0
    rw [hdata, if_pos (headerOk_append hlen hval)]
    refine Or.inr ⟨_, rfl, rfl, ?_⟩
    show _ <+: framesFrom _ _
    rw [framesFrom_encode _ (fun f hf => hv f (List.mem_of_mem_take hf)) hlen]
    exact List.prefix_append _ _

omit [Crc32] in
/-- Of an increasing list only the part matters on which a partial function is defined. -/
theorem filterMap_of_sub {β : Type} {f : Nat → Option β} {seqs part : List Nat}
    (hseqs : seqs.Pairwise (· < ·)) (hpart : part.Pairwise (· < ·)) (hsub : ∀ x ∈ part, x ∈ seqs)
    (hout : ∀ x ∈ seqs, x ∉ part → f x = none) : seqs.filterMap f = part.filterMap f := by
  have hfilter : seqs.filter (· ∈ part) = part := by
    refine (hseqs.sublist List.filter_sublist).eq_of_mem_iff hpart fun x => ?_
    rw [List.mem_filter, decide_eq_true_eq]
    exact ⟨And.right, fun hx => ⟨hsub x hx, hx⟩⟩
  rw [← hfilter, List.filterMap_filter]
  refine List.filterMap_congr fun x hx => ?_
  by_cases hp : x ∈ part
  · simp [hp]
  · simp [hp, hout x hx hp]

/-- What recovery finds: the kept segments, then perhaps the one in creation. -/
theorem recovered_filterMap {fresh : Nat} {d' : Disk} {seqs : List Nat}
    (h : Recorded s l kept history covered) (ac : AfterCrash s kept fresh d')
    (hsorted : seqs.Pairwise (· < ·)) (hmem : ∀ seq, seq ∈ seqs ↔ d' (segmentPath seq) ≠ none) :
    seqs.filterMap (recoveredSeg .ok d') = (seqsOf kept).filterMap (recoveredSeg .ok d') ∨
      s.active = none ∧ seqs.filterMap (recoveredSeg .ok d') =
        (seqsOf kept ++ [fresh]).filterMap (recoveredSeg .ok d') := by
  have hkept : ∀ x ∈ seqsOf kept, x ∈ seqs := by
    intro x hx
    obtain ⟨g, hg, rfl⟩ := List.mem_map.mp hx
    obtain ⟨f, f', -, hf', -⟩ := ac.torn g hg
    rw [hmem, hf']
    exact Option.some_ne_none _
  have hks : (seqsOf kept).Pairwise (· < ·) := List.pairwise_map.mpr h.sorted
  have hother : ∀ x ∈ seqs, x ∉ seqsOf kept → recoveredSeg .ok d' x = none ∨
      x = fresh ∧ s.active = none ∧ ∀ g ∈ kept, g.seq < fresh := by
    intro x hx hout
    rcases ac.only _ ((hmem x).mp hx) with ⟨g, hg, e⟩ | hshort | ⟨e, hrest⟩
    · rw [segmentPath_inj] at e
      exact absurd (List.mem_map.mpr ⟨g, hg, e.symm⟩) hout
    · exact Or.inl (recoveredSeg_unfinished hshort)
    · rw [segmentPath_inj] at e
      exact Or.inr ⟨e, hrest⟩
  by_cases hnew : fresh ∈ seqs ∧ s.active = none ∧ ∀ g ∈ kept, g.seq < fresh
  · obtain ⟨hin, hnone, habove⟩ := hnew
    refine Or.inr ⟨hnone, filterMap_of_sub hsorted ?_ (fun x hx => ?_) fun x hx hout => ?_⟩
    · refine List.pairwise_append.mpr ⟨hks, List.pairwise_singleton _ _, fun a ha b hb => ?_⟩
      obtain ⟨g, hg, rfl⟩ := List.mem_map.mp ha
      rw [List.mem_singleton.mp hb]
      exact habove g hg
    · rcases List.mem_append.mp hx with hx | hx
      · exact hkept x hx
      · rw [List.mem_singleton.mp hx]
        exact hin
    · rw [List.mem_append, not_or, List.mem_singleton] at hout
      exact (hother x hx hout.1).resolve_right fun hr => hout.2 hr.1
  · refine Or.inl (filterMap_of_sub hsorted hks hkept fun x hx hout => ?_)
    refine (hother x hx hout).resolve_right fun hr => hnew ?_
    obtain ⟨rfl, hrest⟩ := hr
    exact ⟨hx, hrest⟩

/-- Intact segments are recovered one by one. -/
theorem filterMap_intact (d' : Disk) {d : Disk} {segs : List (Seg DecodedFrame)}
    (h : ∀ g ∈ segs, HoldsSeg d g) (hv : ∀ g ∈ segs, ∀ f ∈ g.items, ValidPayload f.payload)
    (e : ∀ g ∈ segs, d' (segmentPath g.seq) = d (segmentPath g.seq)) :
    (seqsOf segs).filterMap (recoveredSeg .ok d') = segs := by
  induction segs with
  | nil => rfl
  | cons g rest ih =>
    have hg := recoveredSeg_intact (h g List.mem_cons_self) (hv g List.mem_cons_self)
      (e g List.mem_cons_self)
    show (g.seq :: seqsOf rest).filterMap _ = _
    rw [List.filterMap_cons_some hg, ih (fun x hx => h x (List.mem_cons_of_mem _ hx))
      (fun x hx => hv x (List.mem_cons_of_mem _ hx)) fun x hx => e x (List.mem_cons_of_mem _ hx)]

/-- An untouched and fully synced segment is fully synced after recovery. -/
theorem durable_intact {d' : Disk} (o : RecoverOutcome .ok d' s' l')
    {g : Seg DecodedFrame} (hg' : g ∈ l'.segs)
    (e : d' (segmentPath g.seq) = s.disk (segmentPath g.seq))
    (hfull : segBytes g ≤ durableLen s.disk g.seq) : segBytes g ≤ durableLen s'.disk g.seq := by
  rw [o.durable g hg', durableLen_congr e]
  omega

/-- The recovered back segment is the active one. -/
theorem RecoverOutcome.active_back {d' : Disk} {init : List (Seg DecodedFrame)}
    {g : Seg DecodedFrame} (o : RecoverOutcome .ok d' s' l') (hs : l'.segs = init ++ [g]) :
    s'.active = some (activeOf g) := by
  rcases o.store.active with hn | ⟨init', g', hs', ha⟩
  · exact absurd hn (o.active (by rw [hs]; simp))
  · have := hs.symm.trans hs'
    rw [(List.cons.inj (List.append_inj' this rfl).2).1]
    exact ha

/-- Recovered segments of which only the last may be torn: the frames of the others and `j` of the
last are durable. -/
theorem RecoverOutcome.safe_snoc {d' : Disk} {fs : List (Nat × DecodedFrame)}
    {init : List (Seg DecodedFrame)} {x : Seg DecodedFrame} {j : Nat}
    (o : RecoverOutcome .ok d' s' l') (hsegs : l'.segs = init ++ [x])
    (hall : ∀ g ∈ init, segBytes g ≤ durableLen s'.disk g.seq)
    (hj : j = 0 ∨ boundary x j ≤ durableLen s'.disk x.seq) (hle : j ≤ x.items.length)
    (hpre : fs <+: tagSegs (init ++ [cut x j])) :
    Safe s'.disk l'.segs fs ∧ ∀ g ∈ l'.segs, s'.active ≠ some (activeOf g) →
      segBytes g ≤ durableLen s'.disk g.seq := by
  refine ⟨.some init x j hsegs hj hle hpre, fun g hg hga => ?_⟩
  rw [hsegs, List.mem_append, List.mem_singleton] at hg
  rcases hg with hg | rfl
  · exact hall g hg
  · exact absurd (o.active_back hsegs) hga

omit [Crc32] in
/-- None of the last segment is asked for. -/
theorem tagSegs_cut_zero (init : List (Seg DecodedFrame)) (g : Seg DecodedFrame) :
    tagSegs (init ++ [cut g 0]) = tagSegs init := by
  rw [tagSegs_concat]
  simp only [cut, List.take_zero, List.map_nil, List.append_nil]

/-- No segment was being written: every kept one is recovered as it was, and perhaps the one in
creation after them. -/
theorem recovered_closed {fresh : Nat} {d' : Disk} {fs : List (Nat × DecodedFrame)}
    (h : Recorded s l kept history covered) (ac : AfterCrash s kept fresh d')
    (o : RecoverOutcome .ok d' s' l') (hsafe : Safe s.disk kept fs) (hnone : s.active = none) :
    Safe s'.disk l'.segs fs ∧ ∀ g ∈ l'.segs, s'.active ≠ some (activeOf g) →
      segBytes g ≤ durableLen s'.disk g.seq := by
  obtain ⟨seqs, hsorted, hmem, hsegs⟩ := o.segs
  have hna : ∀ g ∈ kept, s.active ≠ some (activeOf g) := fun g _ e => by
    rw [hnone] at e
    cases e
  have hintact := fun g hg => ac.intact g hg (hna g hg)
  have hkeep := filterMap_intact d' h.files h.valid hintact
  have hall : (∀ g ∈ kept, g ∈ l'.segs) →
      ∀ g ∈ kept, segBytes g ≤ durableLen s'.disk g.seq := fun hsub g hg =>
    durable_intact o (hsub g hg) (hintact g hg) (h.synced g hg (hna g hg))
  have hsame : l'.segs = kept → Safe s'.disk l'.segs fs ∧ ∀ g ∈ l'.segs,
      s'.active ≠ some (activeOf g) → segBytes g ≤ durableLen s'.disk g.seq := fun e => by
    have hdur := hall fun g hg => e.symm ▸ hg
    rw [e]
    exact ⟨safe_full hdur hsafe.isPrefix, fun g hg _ => hdur g hg⟩
  rcases recovered_filterMap h ac hsorted hmem with e | ⟨-, e⟩
  · rw [e, hkeep] at hsegs
    exact hsame hsegs
  · rw [e, List.filterMap_append, hkeep] at hsegs
    cases hx : recoveredSeg .ok d' fresh with
    | none =>
      rw [List.filterMap_cons_none hx, List.filterMap_nil, List.append_nil] at hsegs
      exact hsame hsegs
    | some x =>
      rw [List.filterMap_cons_some hx, List.filterMap_nil] at hsegs
      refine o.safe_snoc hsegs (hall fun g hg => SegLog.mem_init hsegs hg) (Or.inl rfl)
        (Nat.zero_le _) ?_
      rw [tagSegs_cut_zero]
      exact hsafe.isPrefix

/-- A segment recovered with the first `j` frames of another has the same boundary there. -/
theorem boundary_of_cut {g g' : Seg DecodedFrame} {j : Nat} (h : cut g' j = cut g j) :
    boundary g' j = boundary g j := by
  have hitems : g'.items.take j = g.items.take j := congrArg Seg.items h
  unfold boundary
  rw [hitems]

/-- The last segment was being written: the ones before it are recovered as they were, and of it at
least the frames inside the synced prefix. -/
theorem recovered_torn {fresh : Nat} {d' : Disk} {fs : List (Nat × DecodedFrame)}
    {init : List (Seg DecodedFrame)} {g : Seg DecodedFrame}
    (h : Recorded s l kept history covered) (ac : AfterCrash s kept fresh d')
    (o : RecoverOutcome .ok d' s' l') (hsafe : Safe s.disk kept fs) (hs : kept = init ++ [g])
    (ha : s.active = some (activeOf g)) :
    Safe s'.disk l'.segs fs ∧ ∀ g ∈ l'.segs, s'.active ≠ some (activeOf g) →
      segBytes g ≤ durableLen s'.disk g.seq := by
  obtain ⟨seqs, hsorted, hmem, hsegs⟩ := o.segs
  have hna := fun x hx => h.ne_active hs ha (x := x) hx
  have hinit : ∀ x ∈ init, x ∈ kept := fun x hx => by
    rw [hs]
    exact List.mem_append_left _ hx
  have hg : g ∈ kept := by rw [hs]; exact List.mem_append_right _ List.mem_cons_self
  have hintact := fun x hx => ac.intact x (hinit x hx) (hna x hx)
  have hkeep := filterMap_intact d' (fun x hx => h.files x (hinit x hx))
    (fun x hx => h.valid x (hinit x hx)) hintact
  have e : seqs.filterMap (recoveredSeg .ok d') =
      (seqsOf init ++ [g.seq]).filterMap (recoveredSeg .ok d') := by
    rcases recovered_filterMap h ac hsorted hmem with e | ⟨hn, -⟩
    · rw [e, hs]
      simp [seqsOf]
    · rw [hn] at ha
      cases ha
  rw [e, List.filterMap_append, hkeep] at hsegs
  have hall : (∀ x ∈ init, x ∈ l'.segs) →
      ∀ x ∈ init, segBytes x ≤ durableLen s'.disk x.seq := fun hsub x hx =>
    durable_intact o (hsub x hx) (hintact x hx) (h.synced x (hinit x hx) (hna x hx))
  obtain ⟨f, f', hf, hf', hcrash⟩ := ac.torn g hg
  have hdf : durableLen s.disk g.seq = f.synced := by
    unfold durableLen
    rw [hf]
    rfl
  obtain ⟨j, hj, hle, hpre⟩ := hsafe.last hs
  rw [hdf] at hj
  rcases recoveredSeg_torn (h.files g hg) (h.valid g hg) hf hf' hcrash hj with
    ⟨hlost, rfl⟩ | ⟨g', hg', hseq, htake⟩
  · rw [List.filterMap_cons_none hlost, List.filterMap_nil, List.append_nil] at hsegs
    rw [tagSegs_cut_zero] at hpre
    have hdur := hall fun x hx => hsegs.symm ▸ hx
    rw [hsegs]
    exact ⟨safe_full hdur hpre, fun x hx _ => hdur x hx⟩
  · rw [List.filterMap_cons_some hg', List.filterMap_nil] at hsegs
    have hlen : j ≤ g'.items.length := by
      have := htake.length_le
      rw [List.length_take] at this
      omega
    have hcut : cut g' j = cut g j := by
      unfold cut
      rw [hseq, List.prefix_iff_eq_take.mp htake, List.length_take, Nat.min_eq_left hle]
    refine o.safe_snoc hsegs (hall fun x hx => SegLog.mem_init hsegs hx)
      (hj.imp_right fun hb => ?_) hlen (by rw [hcut]; exact hpre)
    -- recovery cuts the file at the end of its last frame, which is past frame `j`
    have hbe := boundary_of_cut hcut
    have hbl := boundary_le g' j
    have hd' : durableLen d' g'.seq = f.synced := by
      obtain ⟨tail, -, hsync⟩ := hcrash
      unfold durableLen
      rw [hseq, hf']
      exact hsync
    rw [o.durable g' (SegLog.mem_back hsegs), hd']
    omega

/-- The log recovery finds, and that the frames `fs` are still at its front and durable. -/
theorem recovered_safe {fresh : Nat} {d' : Disk} {fs : List (Nat × DecodedFrame)}
    (h : Recorded s l kept history covered) (ac : AfterCrash s kept fresh d')
    (o : RecoverOutcome .ok d' s' l') (hsafe : Safe s.disk kept fs) :
    Safe s'.disk l'.segs fs ∧ ∀ g ∈ l'.segs, s'.active ≠ some (activeOf g) →
      segBytes g ≤ durableLen s'.disk g.seq := by
  rcases h.active with hnone | ⟨init, g, hs, ha⟩
  · exact recovered_closed h ac o hsafe hnone
  · exact recovered_torn h ac o hsafe hs ha

/-- The unread frames with their numbers are those of the segments without the ones read. -/
theorem taggedOf_eq (h : Represents s l) : taggedOf s = (tagSegs l.segs).drop l.consumed := by
  unfold taggedOf tagSegs
  rw [h.segments, List.flatMap_map]
  cases hs : l.segs with
  | nil => simp
  | cons g rest =>
    have hrest : ∀ x ∈ rest, unread s (metaOf x) = x.items := by
      intro x hx
      have hx' : x ∈ l.segs := by rw [hs]; exact List.mem_cons_of_mem _ hx
      exact unread_tail h hx' (h.ne_readSeq hs hx)
    rw [List.flatMap_cons, List.flatMap_cons, unread_front h hs, List.drop_append_of_le_length
      (by rw [List.length_map]; exact SegLog.consumed_le_of_cons hs), ← List.map_drop]
    congr 1
    exact List.flatMap_congr fun x hx => by rw [hrest x hx]; rfl

/-- After recovery nothing was read yet. -/
theorem taggedOf_recovered {d' : Disk} {io : Io} (o : RecoverOutcome io d' s l) :
    taggedOf s = tagSegs l.segs := by
  rw [taggedOf_eq o.store, o.unread, List.drop_zero]

theorem snd_taggedOf (h : Represents s l) : (taggedOf s).map Prod.snd = l.ahead := by
  rw [taggedOf_eq h, List.map_drop, snd_tagSegs]
  rfl

/-- **After a crash and recovery the record goes on with the covered frames.** -/
theorem Recorded.recover {fresh : Nat} {d' : Disk} {fs : List (Nat × DecodedFrame)}
    (h : Recorded s l kept history covered) (ac : AfterCrash s kept fresh d')
    (o : RecoverOutcome .ok d' s' l') (hsafe : Safe s.disk kept fs) :
    Recorded s' l' l'.segs (taggedOf s') fs.length ∧ fs <+: taggedOf s' := by
  obtain ⟨hsafe', hsynced⟩ := recovered_safe h ac o hsafe
  rw [taggedOf_recovered o]
  have hpre := hsafe'.isPrefix
  have hall : ∀ H, H <+: tagSegs l'.segs → H.filter (fun e => onDisk s'.disk e.1) = H := by
    intro H hH
    refine List.filter_eq_self.mpr fun e he => ?_
    obtain ⟨g, hg, hseq⟩ := List.mem_map.mp (mem_tagSegs (hH.subset he))
    rw [← hseq]
    exact (o.store.files g hg).onDisk
  refine ⟨⟨o.store, List.suffix_rfl, o.store.files, o.store.valid, o.store.sorted, o.store.below,
    fun n hn => Or.inl (o.tidy rfl n hn), hsynced, hall _ (List.prefix_refl _), fun e he => ?_,
    hpre.length_le, ?_⟩, hpre⟩
  · obtain ⟨g, hg, e⟩ := List.mem_map.mp (mem_tagSegs he)
    rw [← e]
    exact o.store.below g hg
  · rw [← List.prefix_iff_eq_take.mp hpre, hall _ hpre]
    exact hsafe'

/-! ## Runs of the writer thread -/

/-- The store `t` is `s` with the bytes `junk` behind the last frame of the active file. -/
def TornBy (l : FrameLog) (s t : Store) (junk : Bytes) (q : UInt64) : Prop :=
  ∃ init g file, l.segs = init ++ [g] ∧ s.active = some (activeOf g) ∧
    s.disk (segmentPath g.seq) = some file ∧ t = tear s g file junk q

/-- The store of the machine against the one its log describes: in the middle of a rotation it has
the new file besides, between the two writes of a frame the frame header, and after a failed write
what came of it. -/
def Linked (l : FrameLog) (s : Store) : WriterPhase → Store → Prop
  | .creating _, t => t = s ∧ s.active = none
  | .heading _, t => t = createSegment s ∧ s.active = none ∧ NumbersLeft s
  | .writing _, t => t = s ∧ s.active ≠ none
  | .paying a q, t => TornBy l s t (encodeFrameHeader a.payload q) (q + 1)
  | .failed _, t => t = s ∧ s.active = none ∨ ∃ junk q, TornBy l s t junk q
  | _, t => t = s

/-- What a run of the writer thread keeps. -/
structure WriterInv (w : Writer) (s : Store) (l : FrameLog) : Prop where
  linked : Linked l s w.phase w.store
  recorded : ∃ kept, Recorded s l kept w.history w.covered

theorem WriterInv.store {w : Writer} (h : WriterInv w s l) : Represents s l := by
  obtain ⟨kept, hr⟩ := h.recorded
  exact hr.store

/-- A crash while no segment is active. -/
theorem Recorded.afterCrash_closed {d' : Disk} (h : Recorded s l kept history covered)
    (hnone : s.active = none) (crash : Crashed s d') :
    AfterCrash s kept (s.nextSeq - 1) d' := by
  have htear : ∀ n, Tearable s n → n = segmentPath (s.nextSeq - 1) ∧
      ∃ f, s.disk n = some f ∧ f.data.length < segmentHeaderLen := by
    intro n hn
    unfold Tearable at hn
    rwa [hnone] at hn
  have hintact : ∀ g ∈ kept, d' (segmentPath g.seq) = s.disk (segmentPath g.seq) := by
    intro g hg
    refine crash.intact _ fun ht => ?_
    obtain ⟨-, f, hf, hshort⟩ := htear _ ht
    exact (h.files g hg).finished ⟨f, hf, hshort, h.wf hf⟩
  constructor
  case intact => exact fun g hg _ => hintact g hg
  case torn =>
    intro g hg
    obtain ⟨f, hf, -⟩ := (h.files g hg).length
    exact ⟨f, f, hf, (hintact g hg).trans hf, f.crash_refl⟩
  case named =>
    intro n hn
    obtain ⟨seq, hlt, e⟩ := h.store.named n ((crash.names n).mp hn)
    exact ⟨seq, Nat.lt_of_lt_of_le hlt h.store.fits, e⟩
  case only =>
    intro n hn
    rcases h.tidy n ((crash.names n).mp hn) with hg | hun
    · exact Or.inl hg
    · by_cases hlast : n = segmentPath (s.nextSeq - 1)
      · refine Or.inr (Or.inr ⟨hlast, hnone, fun g hg => ?_⟩)
        have hlt := h.numbered g hg
        have hne : g.seq ≠ s.nextSeq - 1 := by
          intro e
          rw [hlast, ← e] at hun
          exact (h.files g hg).finished hun
        omega
      · obtain ⟨f, hf, hrest⟩ := hun
        exact Or.inr (Or.inl ⟨f, (crash.intact n fun ht => hlast (htear n ht).1).trans hf, hrest⟩)
  case wf =>
    intro n f' hf'
    obtain ⟨f, hf⟩ := Option.ne_none_iff_exists'.mp
      ((crash.names n).mp (by rw [hf']; exact Option.some_ne_none _))
    exact (crash.torn n f f' hf hf').wf (h.wf hf)

/-- A crash with an active segment, whatever was written to it since its last frame. -/
theorem Recorded.afterCrash_active {t : Store} {junk : Bytes} {q : UInt64} {d' : Disk}
    (h : Recorded s l kept history covered) (torn : TornBy l s t junk q) (crash : Crashed t d') :
    AfterCrash s kept 0 d' := by
  obtain ⟨init, g, file, hs, ha, hd, rfl⟩ := torn
  have hg : g ∈ kept := h.mem_kept (SegLog.mem_back hs)
  have hself : (tear s g file junk q).disk (segmentPath g.seq) =
      some ⟨file.data ++ junk, file.synced⟩ := Dir.put_self _ _ _
  have hne : ∀ n, n ≠ segmentPath g.seq → d' n = s.disk n := fun n hn =>
    (crash.intact n fun ht => hn ht).trans (Dir.put_ne _ _ hn)
  have hnames : ∀ n, d' n ≠ none → s.disk n ≠ none := by
    intro n hn
    by_cases hp : n = segmentPath g.seq
    · rw [hp, hd]
      exact Option.some_ne_none _
    · rwa [← hne n hp]
  -- what is behind the last frame was never synced
  have hfile : ∀ f', d' (segmentPath g.seq) = some f' → File.Crash file f' := by
    intro f' hf'
    obtain ⟨tail, hdata, hsync⟩ := crash.torn _ _ f' hself hf'
    refine ⟨tail, ?_, hsync⟩
    rw [hdata, List.take_append_of_le_length (h.wf hd)]
  constructor
  case intact =>
    intro x hx hxa
    refine hne _ fun e => hxa ?_
    rw [segmentPath_inj] at e
    rw [h.seq_inj hx hg e]
    exact ha
  case torn =>
    intro x hx
    by_cases hp : segmentPath x.seq = segmentPath g.seq
    · obtain ⟨f', hf'⟩ := Option.ne_none_iff_exists'.mp
        ((crash.names (segmentPath g.seq)).mpr (by rw [hself]; exact Option.some_ne_none _))
      rw [hp]
      exact ⟨file, f', hd, hf', hfile f' hf'⟩
    · obtain ⟨f, hf, -⟩ := (h.files x hx).length
      exact ⟨f, f, hf, (hne _ hp).trans hf, f.crash_refl⟩
  case named =>
    intro n hn
    obtain ⟨seq, hlt, e⟩ := h.store.named n (hnames n hn)
    exact ⟨seq, Nat.lt_of_lt_of_le hlt h.store.fits, e⟩
  case only =>
    intro n hn
    rcases h.tidy n (hnames n hn) with hx | hun
    · exact Or.inl hx
    · have hp : n ≠ segmentPath g.seq := by
        rintro rfl
        exact (h.files g hg).finished hun
      obtain ⟨f, hf, hrest⟩ := hun
      exact Or.inr (Or.inl ⟨f, (hne n hp).trans hf, hrest⟩)
  case wf =>
    intro n f' hf'
    by_cases hp : n = segmentPath g.seq
    · subst hp
      exact (hfile f' hf').wf (h.wf hd)
    · rw [hne n hp] at hf'
      exact h.wf hf'

/-- The same when nothing was written. -/
theorem Recorded.afterCrash_self {d' : Disk} (h : Recorded s l kept history covered)
    (crash : Crashed s d') : ∃ fresh, AfterCrash s kept fresh d' := by
  rcases h.store.active with hnone | ⟨init, g, hs, ha⟩
  · exact ⟨_, h.afterCrash_closed hnone crash⟩
  · obtain ⟨file, hd, -⟩ := (h.files g (h.mem_kept (SegLog.mem_back hs))).length
    exact ⟨0, h.afterCrash_active ⟨init, g, file, hs, ha, hd, (tear_nil ha hd s.nextBatchSeq).symm⟩
      crash⟩

/-- A file in creation is an unfinished one. -/
theorem Recorded.createSegment (h : Recorded s l kept history covered) (hnone : s.active = none)
    (number : NumbersLeft s) : Recorded (createSegment s) l kept history covered :=
  h.abandon hnone number (fun _ hn => Dir.create_ne _ hn) fun _ =>
    ⟨⟨[], 0⟩, Dir.create_self _ _, by decide, Nat.le_refl _⟩

/-- What a crash leaves of the machine's directory, against a store its record describes. -/
theorem WriterInv.afterCrash {w : Writer} {d' : Disk} (h : WriterInv w s l)
    (crash : Crashed w.store d') : ∃ s₁ kept fresh, Recorded s₁ l kept w.history w.covered ∧
      AfterCrash s₁ kept fresh d' ∧
      w.survivors = (w.history.take w.covered).filter fun e => onDisk s₁.disk e.1 := by
  obtain ⟨hlink, kept, hr⟩ := h
  have hself : w.store = s → ∃ s₁ kept fresh, Recorded s₁ l kept w.history w.covered ∧
      AfterCrash s₁ kept fresh d' ∧
      w.survivors = (w.history.take w.covered).filter fun e => onDisk s₁.disk e.1 := by
    rintro rfl
    obtain ⟨fresh, ac⟩ := hr.afterCrash_self crash
    exact ⟨_, kept, fresh, hr, ac, rfl⟩
  have htorn : ∀ {junk q}, TornBy l s w.store junk q → ∃ s₁ kept fresh,
      Recorded s₁ l kept w.history w.covered ∧ AfterCrash s₁ kept fresh d' ∧
      w.survivors = (w.history.take w.covered).filter fun e => onDisk s₁.disk e.1 := by
    intro junk q ht
    refine ⟨s, kept, 0, hr, hr.afterCrash_active ht crash, ?_⟩
    obtain ⟨init, g, file, -, -, hd, e⟩ := ht
    unfold Writer.survivors
    rw [e]
    exact List.filter_congr fun e _ => onDisk_tear hd junk q e.1
  cases hp : w.phase with
  | heading a =>
    rw [hp] at hlink
    obtain ⟨e, hnone, number⟩ := hlink
    have hc := hr.createSegment hnone number
    rw [e] at crash
    exact ⟨_, kept, _, hc, hc.afterCrash_closed hnone crash, by rw [← e]; rfl⟩
  | paying a q =>
    rw [hp] at hlink
    exact htorn hlink
  | failed a =>
    rw [hp] at hlink
    rcases hlink with ⟨e, -⟩ | ⟨junk, q, ht⟩
    · exact hself e
    · exact htorn ht
  | creating a =>
    rw [hp] at hlink
    exact hself hlink.1
  | writing a =>
    rw [hp] at hlink
    exact hself hlink.1
  | _ =>
    rw [hp] at hlink
    exact hself hlink

/-! ## Steps -/

/-- `sync`, succeeding or not. -/
theorem Recorded.sync (io : Io) {w : Writer} (h : Recorded w.store l kept w.history w.covered) :
    Recorded (w.sync io).store l kept (w.sync io).history (w.sync io).covered := by
  unfold Writer.sync
  split
  · exact h.congr (h.store.congr rfl rfl rfl rfl rfl rfl rfl h.store.files fun _ hn => hn) rfl rfl
      rfl rfl
  · exact h.cover (syncActive_spec h.store) rfl (Or.inl rfl) rfl

/-- The turn of `enforce_cap`, its `remove_file` succeeding or not. -/
theorem Recorded.dropOldest (io : Io) (h : Recorded s l kept history covered) {incoming : Nat}
    (hover : overCap s incoming) : ∃ l' kept', Recorded (dropFront io s) l' kept' history covered := by
  obtain ⟨g, g', rest, hs⟩ : ∃ g g' rest, l.segs = g :: g' :: rest := by
    have hlen := hover.2
    rw [h.store.segments, List.length_map] at hlen
    exact exists_victim_front hlen
  obtain ⟨hr, -, hact, hnext, -⟩ := dropFront_spec io h.store hs
  have hsegs : s.segments = metaOf g :: metaOf g' :: rest.map metaOf := by
    rw [h.store.segments, hs, List.map_cons, List.map_cons]
  refine ⟨_, _, h.shrink hr 1 List.drop_one.symm (fun n hn => ?_) hact hnext⟩
  rw [dropFront_eq hsegs] at hn ⊢
  exact removeFile_eq hn

/-- `peek_next` removes segments that were read out. -/
theorem Recorded.peek (io : Io) (h : Recorded s l kept history covered) :
    ∃ l' kept', Recorded (peekNext io s).1 l' kept' history covered := by
  obtain ⟨n, o⟩ := peekNext_spec io h.store
  exact ⟨_, _, h.shrink o.store n (SegLog.segs_dropSegs n l) o.files o.active o.nextSeq⟩

theorem Recorded.commit (h : Recorded s l kept history covered) :
    ∃ l', Recorded (commitPending s) l' kept history covered := by
  rcases commitPending_spec h.store with ⟨-, e⟩ | ⟨f, l', -, hr, hsegs, -, hdisk, hact, hnext, -⟩
  · exact ⟨l, by rw [e]; exact h⟩
  · exact ⟨l', h.congr hr hsegs hdisk hact hnext⟩

/-- The repair of a torn write. -/
theorem Recorded.repair {io : Io} (repairs : io.Repairs) {t : Store} {junk : Bytes} {q : UInt64}
    (h : Recorded s l kept history covered) (torn : TornBy l s t junk q) :
    Recorded (recoverActiveAfterError io (countError t)) l kept history covered := by
  obtain ⟨init, g, file, hs, ha, hd, rfl⟩ := torn
  obtain ⟨file', hd', hlen, hwf⟩ := (h.files g (h.mem_kept (SegLog.mem_back hs))).length
  obtain rfl : file = file' := Option.some.inj (hd.symm.trans hd')
  have e : recoverActiveAfterError io (countError (tear s g file junk q)) = { s with
      nextBatchSeq := q
      metrics := (countError s).metrics } :=
    recoverActiveAfterError_tear ha hd hlen hwf repairs junk q _
  rw [e]
  exact h.congr (h.store.congr rfl rfl rfl rfl rfl rfl rfl h.store.files fun _ hn => hn) rfl rfl rfl
    rfl

theorem headSegment_create (h : s.active = none) (number : NumbersLeft s) :
    headSegment (createSegment s) = rotated .ok s := by
  have hnum : u64Succ s.nextSeq - 1 = s.nextSeq := by rw [u64Succ_of_lt number, Nat.add_sub_cancel]
  unfold rotated rotateFile headSegment writeSegmentHeader createSegment takeNumber
  simp only [hnum, h]
  rfl

/-- The new file is left behind with a torn header. -/
theorem Recorded.noHead (h : Recorded s l kept history covered) (hnone : s.active = none)
    (number : NumbersLeft s) {k : Nat} (short : k < segmentHeaderLen) :
    Recorded (writeSegmentHeader (Wal.createSegment s) (encodeSegmentHeader.take k)) l kept history
      covered := by
  have hnum : (Wal.createSegment s).nextSeq - 1 = s.nextSeq := by
    show u64Succ s.nextSeq - 1 = _
    rw [u64Succ_of_lt number, Nat.add_sub_cancel]
  have hlen : (encodeSegmentHeader.take k).length < segmentHeaderLen := by
    rw [List.length_take]
    omega
  unfold writeSegmentHeader
  rw [hnum]
  refine h.abandon hnone number (fun n hn => ?_) fun _ =>
    ⟨⟨encodeSegmentHeader.take k, 0⟩, ?_, hlen, Nat.zero_le _⟩
  · exact (Dir.modify_ne _ _ hn).trans (Dir.create_ne _ hn)
  · show (s.disk.create _).modify _ _ _ = _
    rw [Dir.modify_self, Dir.create_self, Option.map_some]
    exact congrArg some (File.writeAt_end (encodeSegmentHeader.take k) rfl (Nat.le_refl _))

/-- A write behind the last frame, torn or not. -/
theorem tornBy_write {t : Store} {junk : Bytes} {q : UInt64} (h : Represents s l)
    (torn : TornBy l s t junk q) (fault : Option Nat) (bs : Bytes) :
    ∃ bs', TornBy l s (writeActive t fault bs).1 (junk ++ bs') q ∧ (fault = none → bs' = bs) := by
  obtain ⟨init, g, file, hs, ha, hd, rfl⟩ := torn
  obtain ⟨file', hd', hlen, hwf⟩ := (h.files g (SegLog.mem_back hs)).length
  obtain rfl : file = file' := Option.some.inj (hd.symm.trans hd')
  obtain ⟨bs', e, hbs⟩ := writeActive_tear (s := s) hlen hwf junk bs q fault
  exact ⟨bs', ⟨init, g, file, hs, ha, hd, by rw [e]⟩, hbs⟩

/-- The write of the frame header to an active segment. -/
theorem tornBy_header (h : Represents s l) (hne : s.active ≠ none) (fault : Option Nat)
    (payload : Bytes) :
    ∃ bs', TornBy l s (writeFrameHeader s fault payload) bs' (s.nextBatchSeq + 1) ∧
      (fault = none → bs' = encodeFrameHeader payload s.nextBatchSeq) := by
  obtain ⟨init, g, hs, ha⟩ := h.active.resolve_left hne
  obtain ⟨file, hd, -⟩ := (h.files g (SegLog.mem_back hs)).length
  have hclean : TornBy l s { s with nextBatchSeq := s.nextBatchSeq + 1 } []
      (s.nextBatchSeq + 1) := ⟨init, g, file, hs, ha, hd, (tear_nil ha hd _).symm⟩
  obtain ⟨bs', ht, hbs⟩ := tornBy_write h hclean fault (encodeFrameHeader payload s.nextBatchSeq)
  exact ⟨bs', ht, hbs⟩

/-- **Every step of the writer thread keeps the invariant.** -/
theorem writerInv_thread {w w' : Writer} (h : WriterInv w s l)
    (hstep : ThreadStep Io.Repairs w w') : ∃ s' l', WriterInv w' s' l' := by
  obtain ⟨hlink, kept, hr⟩ := h
  cases hstep with
  | recv payload valid hp =>
    rw [hp] at hlink
    exact ⟨s, l, hlink, kept, hr⟩
  | tryRecv payload valid hp =>
    rw [hp] at hlink
    exact ⟨s, l, hlink, kept, hr⟩
  | dropOldest io hp hover =>
    rw [hp] at hlink
    obtain rfl : w.store = s := hlink
    obtain ⟨l', kept', hr'⟩ := hr.dropOldest io hover
    exact ⟨_, l', by rw [hp]; exact (rfl : dropFront io w.store = _), kept', hr'⟩
  | capped hp _ =>
    rw [hp] at hlink
    exact ⟨s, l, hlink, kept, hr⟩
  | hasRoom hp hroom =>
    rw [hp] at hlink
    obtain rfl : w.store = s := hlink
    refine ⟨_, l, ⟨rfl, fun hn => ?_⟩, kept, hr⟩
    unfold needsRotate at hroom
    rw [hn] at hroom
    cases hroom
  | retire hp _ =>
    rw [hp] at hlink
    obtain rfl : w.store = s := hlink
    exact ⟨_, l, ⟨rfl, rfl⟩, kept,
      hr.cover (retireActive_spec _ hr.store) rfl (Or.inr rfl) rfl⟩
  | noDir hp =>
    rw [hp] at hlink
    obtain ⟨rfl, hnone⟩ := hlink
    exact ⟨_, l, Or.inl ⟨rfl, hnone⟩, kept, hr⟩
  | noFile hp number =>
    rw [hp] at hlink
    obtain ⟨rfl, hnone⟩ := hlink
    have hfree : w.store.disk (segmentPath w.store.nextSeq) = none := hr.store.nextSeq_free
    exact ⟨_, l, Or.inl ⟨rfl, hnone⟩, kept,
      hr.abandon hnone number (fun _ _ => rfl) fun hn => absurd hfree hn⟩
  | create hp number =>
    rw [hp] at hlink
    obtain ⟨rfl, hnone⟩ := hlink
    exact ⟨w.store, l, ⟨rfl, hnone, number⟩, kept, hr⟩
  | noHead k hp short =>
    rw [hp] at hlink
    obtain ⟨e, hnone, number⟩ := hlink
    refine ⟨_, l, Or.inl ⟨rfl, ?_⟩, kept, ?_⟩
    · show w.store.active = none
      rw [e]
      exact hnone
    · show Recorded (writeSegmentHeader w.store _) l kept w.history w.covered
      rw [e]
      exact hr.noHead hnone number short
  | head hp =>
    rw [hp] at hlink
    obtain ⟨e, hnone, number⟩ := hlink
    refine ⟨rotated .ok s, _, ⟨?_, Option.some_ne_none _⟩, _, hr.push hnone number⟩
    show headSegment w.store = _
    rw [e, headSegment_create hnone number]
  | tearHeader k hp =>
    rw [hp] at hlink
    obtain ⟨rfl, hne⟩ := hlink
    obtain ⟨bs, ht, -⟩ := tornBy_header hr.store hne (some k) _
    exact ⟨w.store, l, Or.inr ⟨bs, _, ht⟩, kept, hr⟩
  | @writeHeader a hp =>
    rw [hp] at hlink
    obtain ⟨rfl, hne⟩ := hlink
    obtain ⟨bs, ht, hbs⟩ := tornBy_header hr.store hne none a.payload
    rw [hbs rfl] at ht
    exact ⟨w.store, l, ht, kept, hr⟩
  | tearPayload k hp =>
    rw [hp] at hlink
    obtain ⟨bs, ht, -⟩ := tornBy_write hr.store hlink (some k) _
    exact ⟨s, l, Or.inr ⟨_, _, ht⟩, kept, hr⟩
  | @writePayload a q act hp hact =>
    rw [hp] at hlink
    obtain ⟨bs, ht, hbs⟩ := tornBy_write hr.store hlink none a.payload
    obtain ⟨init, g, file, hs, ha, hd, e⟩ := hlink
    obtain ⟨init', g', file', hs', -, hd', ew⟩ := ht
    obtain rfl : g = g' := List.singleton_inj.mp (List.append_inj' (hs.symm.trans hs') rfl).2
    obtain rfl : file = file' := Option.some.inj (hd.symm.trans hd')
    rw [hbs rfl] at ew
    have hseq : act.seq = g.seq := by
      rw [e] at hact
      exact congrArg ActiveSegment.seq (Option.some.inj hact).symm
    obtain ⟨kept', hsnoc⟩ := hr.snoc (f := ⟨q, a.payload⟩) hs ha hd a.valid (q + 1)
    refine ⟨_, l.snoc ⟨q, a.payload⟩,
      (rfl : accountFrame (writeActive w.store none a.payload).1 a.size = _), kept', ?_⟩
    rw [ew, hseq]
    exact hsnoc
  | @repair a io hp ok =>
    rw [hp] at hlink
    refine ⟨_, l, (rfl : recoverActiveAfterError io (countError w.store) = _), kept, ?_⟩
    rcases hlink with ⟨rfl, hnone⟩ | ⟨junk, q, ht⟩
    · rw [recoverActiveAfterError_none (s := countError w.store) hnone]
      exact hr.congr (hr.store.congr rfl rfl rfl rfl rfl rfl rfl hr.store.files fun _ hn => hn) rfl
        rfl rfl rfl
    · exact hr.repair ok ht
  | next elapsed hp _ =>
    rw [hp] at hlink
    exact ⟨s, l, hlink, kept, hr⟩
  | due io elapsed hp _ =>
    rw [hp] at hlink
    obtain rfl : w.store = s := hlink
    exact ⟨_, l, (rfl : (w.sync io).store = _), kept, hr.sync io⟩
  | @finish n io hp =>
    rw [hp] at hlink
    obtain rfl : w.store = s := hlink
    by_cases hn : n > 0
    · rw [if_pos hn]
      exact ⟨_, l, (rfl : (w.sync io).store = _), kept, hr.sync io⟩
    · rw [if_neg hn]
      exact ⟨_, l, (rfl : w.store = _), kept, hr⟩

/-- **Recovery after a crash of the machine**: it terminates, and the covered frames are at the
front of what it finds. -/
theorem WriterInv.recovered {w : Writer} {d' : Disk} {entries : List FileName} (h : WriterInv w s l)
    (crash : Crashed w.store d') (lists : Lists entries d') (cfg : WalConfig) :
    ∃ s' l', Statix.Wal.recover .ok cfg entries d' = some s' ∧ RecoverOutcome .ok d' s' l' ∧
      Recorded s' l' l'.segs (taggedOf s') w.survivors.length ∧ w.survivors <+: taggedOf s' := by
  obtain ⟨s₁, kept, fresh, hr, ac, hsurv⟩ := h.afterCrash crash
  obtain ⟨s', l', e, o⟩ := recover_spec .ok (fun _ => rfl) cfg ⟨ac.named, ac.wf⟩ lists
  obtain ⟨hr', hpre⟩ := hr.recover ac o hr.safe
  rw [hsurv]
  exact ⟨s', l', e, o, hr', hpre⟩

/-- The drainer's calls and a restart keep it too. -/
theorem writerInv_step {w w' : Writer} (h : WriterInv w s l) (hstep : WriterStep Io.Repairs w w') :
    ∃ s' l', WriterInv w' s' l' := by
  cases hstep with
  | thread hstep => exact writerInv_thread h hstep
  | peek io hp =>
    obtain ⟨hlink, kept, hr⟩ := h
    rw [hp] at hlink
    obtain rfl : w.store = s := hlink
    obtain ⟨l', kept', hr'⟩ := hr.peek io
    exact ⟨_, l', by rw [hp]; exact (rfl : (peekNext io w.store).1 = _), kept', hr'⟩
  | commit hp =>
    obtain ⟨hlink, kept, hr⟩ := h
    rw [hp] at hlink
    obtain rfl : w.store = s := hlink
    obtain ⟨l', hr'⟩ := hr.commit
    exact ⟨_, l', by rw [hp]; exact (rfl : commitPending w.store = _), kept, hr'⟩
  | restart cfg crash lists recovered =>
    obtain ⟨s₁, l₁, e, -, hr', -⟩ := h.recovered crash lists cfg
    obtain rfl := Option.some.inj (e.symm.trans recovered)
    exact ⟨s₁, l₁, (rfl : s₁ = _), _, hr'⟩

/-- The machine on an empty directory. -/
def Writer.start (cfg : WalConfig) : Writer := ⟨emptyStore cfg fun _ => none, .waiting, [], 0⟩

theorem recorded_start (cfg : WalConfig) :
    Recorded (emptyStore cfg fun _ => none) SegLog.empty [] [] 0 where
  store := emptyStore_spec cfg
  suffix := List.suffix_rfl
  files := fun _ hg => absurd hg List.not_mem_nil
  valid := fun _ hg => absurd hg List.not_mem_nil
  sorted := List.Pairwise.nil
  numbered := fun _ hg => absurd hg List.not_mem_nil
  tidy := fun _ hn => absurd rfl hn
  synced := fun _ hg => absurd hg List.not_mem_nil
  tracked := rfl
  below := fun _ he => absurd he List.not_mem_nil
  covered_le := Nat.le_refl _
  safe := .none rfl

/-- **The invariant over whole runs**, restarts included. -/
theorem writerInv_run {cfg : WalConfig} {w : Writer}
    (run : Relation.ReflTransGen (WriterStep Io.Repairs) (Writer.start cfg) w) :
    ∃ s l, WriterInv w s l := by
  induction run with
  | refl => exact ⟨_, _, (rfl : emptyStore cfg _ = _), _, recorded_start cfg⟩
  | tail _ hstep ih =>
    obtain ⟨s, l, ih⟩ := ih
    exact writerInv_step ih hstep

/-- **Crash recovery loses nothing synced.** In every run of the writer thread whose repairs
succeed, restarts included, and for every crash: recovery terminates, the recovered store yields
first the frames a sync covered whose segment was not removed, in append order, and whatever is
appended to it then comes after everything recovered. -/
theorem crash_keeps_synced (cfg cfg' : WalConfig) {w : Writer} {d' : Disk} {entries : List FileName}
    (run : Relation.ReflTransGen (WriterStep Io.Repairs) (Writer.start cfg) w)
    (crash : Crashed w.store d') (lists : Lists entries d') :
    ∃ s' extra, recover .ok cfg' entries d' = some s' ∧
      (∀ n, drain n s' = (w.survivors.map Prod.snd ++ extra).take n) ∧
      ∀ q, Relation.ReflTransGen QueueStep (Queue.start s') q →
        ∃ past : List (Fate × DecodedFrame),
          (w.survivors.map Prod.snd ++ extra) ++ q.appended = past.map Prod.snd ++ aheadOf q.store ∧
          q.committed = withFate .committed past ∧ q.dropped = withFate .dropped past := by
  obtain ⟨s, l, h⟩ := writerInv_run run
  obtain ⟨s', l', e, o, -, rest, hrest⟩ := h.recovered crash lists cfg'
  have hahead : l'.ahead = w.survivors.map Prod.snd ++ rest.map Prod.snd := by
    rw [← List.map_append, hrest, snd_taggedOf o.store]
  refine ⟨s', rest.map Prod.snd, e, fun n => ?_, fun q hq => ?_⟩
  · rw [drain_eq n o.store, hahead]
  · obtain ⟨l'', hinv⟩ := queueInv_run o.store o.pending hq
    rw [← hahead, aheadOf_eq hinv.store]
    exact hinv.accounted

omit [Crc32] in
/-- The crash that takes nothing. -/
theorem crashed_refl (s : Store) : Crashed s s.disk where
  names := fun _ => Iff.rfl
  intact := fun _ _ => rfl
  torn := fun _ f f' hf hf' => by
    obtain rfl := Option.some.inj (hf.symm.trans hf')
    exact f.crash_refl

/-! ## Runs that do without the condition, and a run that meets it -/

section Runs

variable {admitted : Io → Prop} {io : Io}

/-- A payload that opens a group commit, from `blocking_recv` to the end of its `append_one`. -/
theorem first_turns (ok : admitted io) (sync : io.fdatasync = true)
    (short : ∀ k, io.writeSegmentHeader = some k → k < segmentHeaderLen) {w : Writer}
    (h : w.phase = .waiting) (number : NumbersLeft w.store) {payload : Bytes}
    (valid : ValidPayload payload) :
    Relation.ReflTransGen (ThreadStep admitted) w (w.after io ⟨true, 0, payload, valid⟩) :=
  .head (.recv payload valid h) (append_turns (w := { w with phase := _ }) ok sync short rfl number)

/-- A further payload of the group, from the end of the `append_one` before it. -/
theorem more_turns (ok : admitted io) (sync : io.fdatasync = true)
    (short : ∀ k, io.writeSegmentHeader = some k → k < segmentHeaderLen) {w : Writer} {first : Bool}
    {n : Nat} (h : w.phase = .appended first n)
    (notDue : (!first && (n ≥ w.store.cfg.fsyncFrames || false)) = false)
    (number : NumbersLeft w.store) {payload : Bytes} (valid : ValidPayload payload) :
    Relation.ReflTransGen (ThreadStep admitted) w (w.after io ⟨false, n, payload, valid⟩) :=
  .head (.next false h notDue) (.head (.tryRecv (w := { w with phase := _ }) payload valid rfl)
    (append_turns (w := { w with phase := _ }) ok sync short rfl number))

/-- The end of a group commit in which no sync fell due. -/
theorem group_ends (io : Io) {w : Writer} {first : Bool} {n : Nat}
    (h : w.phase = .appended first (n + 1))
    (notDue : (!first && (n + 1 ≥ w.store.cfg.fsyncFrames || false)) = false) :
    Relation.ReflTransGen (ThreadStep admitted) w { w.sync io with phase := .waiting } := by
  have hnext : Relation.ReflTransGen (ThreadStep admitted) w _ := .single (.next false h notDue)
  have hsync : { Writer.sync io { w with phase := .holding (n + 1) } with phase := .waiting } =
      { w.sync io with phase := .waiting } := by
    unfold Writer.sync
    split <;> rfl
  have hfinish := hnext.tail (.finish io (w := { w with phase := .holding (n + 1) }) rfl)
  rwa [if_pos (Nat.succ_pos n), hsync] at hfinish

/-- A run of the thread alone. -/
theorem thread_run {w w' : Writer}
    (run : Relation.ReflTransGen (ThreadStep admitted) w w') :
    Relation.ReflTransGen (WriterStep admitted) w w' :=
  Relation.ReflTransGen.mono (fun _ _ => WriterStep.thread) _ _ run

/-- The drainer reads a frame, commits it and reads on. -/
theorem read_turns (io : Io) {w : Writer} (h : w.phase = .waiting) :
    Relation.ReflTransGen (WriterStep admitted) w
      { w with store := (peekNext io (commitPending (peekNext io w.store).1)).1 } :=
  .head (.peek io h) (.head (.commit (w := { w with store := _ }) h)
    (.single (.peek io (w := { w with store := _ }) h)))

omit [Crc32] in
/-- The files of a directory, from the numbers they can have. -/
theorem lists_of_named {d : Disk} {k : Nat} (h : ∀ n, d n ≠ none → ∃ seq < k, n = segmentPath seq) :
    Lists (((List.range k).filter fun seq => onDisk d seq).map segmentPath) d where
  nodup := by
    rw [List.Nodup, List.pairwise_map]
    refine (List.nodup_range.filter _).imp fun hne e => hne ?_
    rwa [segmentPath_inj] at e
  mem := by
    intro n
    rw [List.mem_map]
    constructor
    · rintro ⟨seq, hseq, rfl⟩
      exact onDisk_iff.mp (List.mem_filter.mp hseq).2
    · intro hn
      obtain ⟨seq, hlt, rfl⟩ := h n hn
      exact ⟨seq, List.mem_filter.mpr ⟨List.mem_range.mpr hlt, onDisk_iff.mpr hn⟩, rfl⟩

omit [Crc32] in
/-- A crash that leaves the synced prefix of the active file, and `tail` behind it. -/
theorem crashed_put {a : ActiveSegment} (ha : s.active = some a) {f : File UInt8}
    (hf : s.disk a.file.path = some f) (tail : Bytes) :
    Crashed s (s.disk.put a.file.path ⟨f.data.take f.synced ++ tail, f.synced⟩) where
  names := by
    intro n
    by_cases hn : n = a.file.path
    · simp [hn, hf]
    · rw [Dir.put_ne _ _ hn]
  intact := by
    intro n hn
    refine Dir.put_ne _ _ fun e => hn ?_
    unfold Tearable
    rw [ha]
    exact e
  torn := by
    intro n f₁ f' hf₁ hf'
    by_cases hn : n = a.file.path
    · subst hn
      rw [Dir.put_self] at hf'
      obtain rfl := Option.some.inj (hf.symm.trans hf₁)
      obtain rfl := Option.some.inj hf'
      exact ⟨tail, rfl, rfl⟩
    · rw [Dir.put_ne _ _ hn] at hf'
      obtain rfl := Option.some.inj (hf₁.symm.trans hf')
      exact f₁.crash_refl

end Runs

/-- Groups of eight frames, segments with room for two small ones. -/
def groupConfig : WalConfig := ⟨true, 1024, 64, 8, 200⟩

/-- The payload write fails after a byte, and so does the repair. -/
def Io.repairFault : Io :=
  { Io.ok with writePayload := some 1, setLen := fun _ => false, seek := false }

/-- An append keeps the books of the thread's store. -/
theorem Books.after {exact : Prop} {w : Writer} {io : Io} (h : Books exact 0 w.store)
    (a : Appending) (removes : ∀ n, io.removeFile n = true) (repairs : exact → io.Repairs)
    (number : NumbersLeft w.store) (hl : leavesFile io w.store a.payload = false) :
    Books exact 0 (w.after io a).store :=
  books_appendOne removes h repairs number hl

omit [Crc32] in
/-- **A failed repair loses a synced frame.** A frame is stored, the payload write of the next one
fails and its repair too, and a third goes in behind the torn bytes; the rotation for a fourth
syncs the segment, and the process is killed. Recovery cuts the third frame off with the torn
bytes. -/
theorem failed_repair_loses_synced : letI := crc32Ieee
    ∃ w entries s', Relation.ReflTransGen (WriterStep fun _ => True) (Writer.start groupConfig) w ∧
      Crashed w.store w.store.disk ∧ Lists entries w.store.disk ∧
      recover .ok groupConfig entries w.store.disk = some s' ∧
      (0, ⟨2, [5]⟩) ∈ w.survivors ∧ ∀ n, ⟨2, [5]⟩ ∉ drain n s' := by
  let _ := crc32Ieee
  let w₁ := (Writer.start groupConfig).after .ok ⟨true, 0, [7], by decide⟩
  let w₂ := w₁.after .repairFault ⟨false, 1, [8, 9], by decide⟩
  let w₃ := w₂.after .ok ⟨false, 2, [5], by decide⟩
  let w₄ := w₃.after .ok ⟨false, 3, [6], by decide⟩
  have noHeader : ∀ k, (none : Option Nat) = some k → k < segmentHeaderLen := fun _ e => nomatch e
  have h₁ : Relation.ReflTransGen (ThreadStep fun _ => True) (Writer.start groupConfig) w₁ :=
    first_turns trivial rfl noHeader rfl (by decide) _
  have h₂ : Relation.ReflTransGen (ThreadStep fun _ => True) w₁ w₂ :=
    more_turns trivial rfl noHeader rfl rfl (by decide +kernel) _
  have h₃ : Relation.ReflTransGen (ThreadStep fun _ => True) w₂ w₃ :=
    more_turns trivial rfl noHeader rfl (by decide +kernel) (by decide +kernel) _
  have h₄ : Relation.ReflTransGen (ThreadStep fun _ => True) w₃ w₄ :=
    more_turns trivial rfl noHeader rfl (by decide +kernel) (by decide +kernel) _
  have b₁ : Books False 0 w₁.store := (books_empty False groupConfig).after
    (w := Writer.start groupConfig) _ (fun _ => rfl) False.elim (by decide) rfl
  have b₂ : Books False 0 w₂.store :=
    b₁.after _ (fun _ => rfl) False.elim (by decide +kernel) (by decide +kernel)
  have b₃ : Books False 0 w₃.store :=
    b₂.after _ (fun _ => rfl) False.elim (by decide +kernel) (by decide +kernel)
  have b₄ : Books False 0 w₄.store :=
    b₃.after _ (fun _ => rfl) False.elim (by decide +kernel) (by decide +kernel)
  have hnamed : ∀ n, w₄.store.disk n ≠ none → ∃ seq < w₄.store.nextSeq, n = segmentPath seq := by
    intro n hn
    obtain ⟨m, hm, rfl⟩ := b₄.tracked n hn
    exact ⟨m.seq, b₄.below m hm, b₄.paths m hm⟩
  have hfound : (recover .ok groupConfig (((List.range w₄.store.nextSeq).filter fun seq =>
      onDisk w₄.store.disk seq).map segmentPath) w₄.store.disk).map (drain 3) =
      some [⟨0, [7]⟩, ⟨3, [6]⟩] := by
    decide +kernel
  obtain ⟨s', hs', hdrain⟩ := Option.map_eq_some_iff.mp hfound
  refine ⟨w₄, _, s', Relation.ReflTransGen.mono (fun _ _ => WriterStep.thread) _ _
    (((h₁.trans h₂).trans h₃).trans h₄), crashed_refl _, lists_of_named hnamed, hs',
    by decide +kernel, fun n hn => ?_⟩
  rw [drain_of_short 3 (by rw [hdrain]; decide) n, hdrain] at hn
  exact absurd (List.mem_of_mem_take hn) (by decide)

/-- Segments with room for one frame. -/
def singleConfig : WalConfig := ⟨true, 1024, 40, 8, 200⟩

omit [Crc32] in
/-- A group of four: stored, lost with the header of its segment, stored, torn and repaired. It is
synced, the first frame is read and committed and its file removed, and another frame goes in
unsynced. -/
theorem torn_run : letI := crc32Ieee
    ∃ w, Relation.ReflTransGen (WriterStep Io.Repairs) (Writer.start singleConfig) w ∧
      w.phase = .appended true 1 ∧ w.history.map Prod.fst = [0, 2, 3] ∧
      w.survivors = [(2, ⟨1, [5]⟩)] ∧ w.store.disk (segmentPath 1) ≠ none ∧
      w.store.active = some ⟨3, ⟨segmentPath 3, 33⟩, 33⟩ ∧
      w.store.disk (segmentPath 3) =
        some ⟨encodeSegmentHeader ++ (encodeFrameHeader [6] 3 ++ [6]), segmentHeaderLen⟩ := by
  let _ := crc32Ieee
  let w₁ := (Writer.start singleConfig).after .ok ⟨true, 0, [7], by decide⟩
  let w₂ := w₁.after .headerFault ⟨false, 1, [8, 9], by decide⟩
  let w₃ := w₂.after .ok ⟨false, 2, [5], by decide⟩
  let w₄ := w₃.after (.payloadFault 1) ⟨false, 3, [8], by decide⟩
  let w₅ := { w₄.sync .ok with phase := .waiting }
  let w₆ := { w₅ with store := (peekNext .ok (commitPending (peekNext .ok w₅.store).1)).1 }
  let w₇ := w₆.after .ok ⟨true, 0, [6], by decide⟩
  have noHeader : ∀ k, (none : Option Nat) = some k → k < segmentHeaderLen := fun _ e => nomatch e
  have h₁ : Relation.ReflTransGen (ThreadStep Io.Repairs) (Writer.start singleConfig) w₁ :=
    first_turns Io.repairs_ok rfl noHeader rfl (by decide) _
  have h₂ : Relation.ReflTransGen (ThreadStep Io.Repairs) w₁ w₂ :=
    more_turns ⟨fun _ => rfl, rfl⟩ rfl (fun k e => by cases e; decide) rfl rfl (by decide +kernel) _
  have h₃ : Relation.ReflTransGen (ThreadStep Io.Repairs) w₂ w₃ :=
    more_turns Io.repairs_ok rfl noHeader rfl (by decide +kernel) (by decide +kernel) _
  have h₄ : Relation.ReflTransGen (ThreadStep Io.Repairs) w₃ w₄ :=
    more_turns ⟨fun _ => rfl, rfl⟩ rfl noHeader rfl (by decide +kernel) (by decide +kernel) _
  have h₅ : Relation.ReflTransGen (ThreadStep Io.Repairs) w₄ w₅ :=
    group_ends .ok rfl (by decide +kernel)
  have h₆ : Relation.ReflTransGen (WriterStep Io.Repairs) w₅ w₆ :=
    read_turns .ok rfl
  have h₇ : Relation.ReflTransGen (ThreadStep Io.Repairs) w₆ w₇ :=
    first_turns Io.repairs_ok rfl noHeader rfl (by decide +kernel) _
  have run : Relation.ReflTransGen (WriterStep Io.Repairs) (Writer.start singleConfig) w₇ :=
    ((thread_run ((((h₁.trans h₂).trans h₃).trans h₄).trans h₅)).trans h₆).trans (thread_run h₇)
  exact ⟨w₇, run, rfl, by decide +kernel, by decide +kernel, by decide +kernel, by decide +kernel,
    by decide +kernel⟩

omit [Crc32] in
/-- A crash after such a run leaves the active file with its synced prefix and three stray bytes:
the frame whose segment is still there is found. -/
theorem crash_keeps_synced_torn : letI := crc32Ieee
    ∃ (w : Writer) (d' : Disk) (entries : List FileName) (s' : Store) (extra : List DecodedFrame),
      w.history.map Prod.fst = [0, 2, 3] ∧ w.survivors = [(2, ⟨1, [5]⟩)] ∧
      Crashed w.store d' ∧ Lists entries d' ∧ d' (segmentPath 1) ≠ none ∧
      d' (segmentPath 3) = some ⟨encodeSegmentHeader ++ [1, 2, 3], segmentHeaderLen⟩ ∧
      recover .ok singleConfig entries d' = some s' ∧
      ∀ n, drain n s' = (w.survivors.map Prod.snd ++ extra).take n := by
  let _ := crc32Ieee
  obtain ⟨w, run, hphase, hhistory, hsurv, hempty, ha, hf⟩ := torn_run
  obtain ⟨s, l, h⟩ := writerInv_run run
  have hlink := h.linked
  rw [hphase] at hlink
  obtain rfl : w.store = s := hlink
  have htorn : (⟨(encodeSegmentHeader ++ (encodeFrameHeader [6] 3 ++ [6])).take segmentHeaderLen ++
      [1, 2, 3], segmentHeaderLen⟩ : File UInt8) =
      ⟨encodeSegmentHeader ++ [1, 2, 3], segmentHeaderLen⟩ := by
    decide +kernel
  have crash := crashed_put ha hf [1, 2, 3]
  have lists := lists_of_named fun n hn => h.store.named n ((crash.names n).mp hn)
  obtain ⟨s', extra, hs', hdrain, -⟩ :=
    crash_keeps_synced singleConfig singleConfig run crash lists
  exact ⟨w, _, _, s', extra, hhistory, hsurv, crash, lists, (crash.names _).mpr hempty,
    (Dir.put_self _ _ _).trans (congrArg some htorn), hs', hdrain⟩

end Statix.Wal
