import Statix.Wal.Thread

/-!
# The record of a run against the disk

What a run of the writer thread keeps between its store, the log the store represents, the segments
whose files are there and the record of the frames it appended. A segment whose `remove_file` failed
is not tracked any more, but recovery will find it; a file `rotate` created and gave no whole header
is nobody's, and recovery will remove it.

* `Safe`: the covered frames are, segment by segment, inside what is durable of each file.
* `Recorded`: the tracked segments are the last of those kept, each kept one has its file with its
  frames, and the record agrees with them.
* `Recorded.shrink`, `Recorded.cover`, `Recorded.push`, `Recorded.abandon`, `Recorded.snoc`: what
  each effect on the store does to the record.
-/

namespace Statix.Wal

open Statix.Lib

variable [Crc32] {s s' : Store} {l l' : FrameLog}

/-! ## Frames with their segment numbers -/

omit [Crc32] in
/-- The frames of the segments, each with its segment's number. -/
def tagSegs (segs : List (Seg DecodedFrame)) : List (Nat × DecodedFrame) :=
  segs.flatMap fun g => g.items.map (g.seq, ·)

omit [Crc32] in
/-- The tracked numbers. -/
def seqsOf (segs : List (Seg DecodedFrame)) : List Nat := segs.map Seg.seq

omit [Crc32] in
/-- The first `j` frames of a segment. -/
def cut (g : Seg DecodedFrame) (j : Nat) : Seg DecodedFrame := ⟨g.seq, g.items.take j⟩

omit [Crc32] in
theorem tagSegs_append (a b : List (Seg DecodedFrame)) :
    tagSegs (a ++ b) = tagSegs a ++ tagSegs b := List.flatMap_append

omit [Crc32] in
theorem tagSegs_concat (a : List (Seg DecodedFrame)) (g : Seg DecodedFrame) :
    tagSegs (a ++ [g]) = tagSegs a ++ g.items.map (g.seq, ·) := by
  rw [tagSegs_append]
  simp [tagSegs]

omit [Crc32] in
theorem mem_tagSegs {segs : List (Seg DecodedFrame)} {e : Nat × DecodedFrame}
    (h : e ∈ tagSegs segs) : e.1 ∈ seqsOf segs := by
  obtain ⟨g, hg, he⟩ := List.mem_flatMap.mp h
  obtain ⟨f, -, rfl⟩ := List.mem_map.mp he
  exact List.mem_map.mpr ⟨g, hg, rfl⟩

omit [Crc32] in
theorem snd_tagSegs (segs : List (Seg DecodedFrame)) :
    (tagSegs segs).map Prod.snd = segs.flatMap Seg.items := by
  unfold tagSegs
  rw [List.map_flatMap]
  exact List.flatMap_congr fun g _ => by simp [Function.comp_def]

omit [Crc32] in
/-- Keeping the frames of the later segments. -/
theorem tagSegs_filter_drop (segs : List (Seg DecodedFrame)) (n : Nat) (seqs : List Nat)
    (hseqs : seqs = seqsOf (segs.drop n)) (hsorted : segs.Pairwise fun a b => a.seq < b.seq) :
    (tagSegs segs).filter (fun e => e.1 ∈ seqs) = tagSegs (segs.drop n) := by
  subst hseqs
  have hp := hsorted
  rw [← List.take_append_drop n segs, List.pairwise_append] at hp
  have hout : (tagSegs (segs.take n)).filter (fun e => e.1 ∈ seqsOf (segs.drop n)) = [] := by
    refine List.filter_eq_nil_iff.mpr fun e he hin => ?_
    obtain ⟨a, ha, ea⟩ := List.mem_map.mp (mem_tagSegs he)
    obtain ⟨b, hb, eb⟩ := List.mem_map.mp (of_decide_eq_true hin)
    have := hp.2.2 a ha b hb
    omega
  have hin : (tagSegs (segs.drop n)).filter (fun e => e.1 ∈ seqsOf (segs.drop n)) =
      tagSegs (segs.drop n) :=
    List.filter_eq_self.mpr fun e he => decide_eq_true (mem_tagSegs he)
  conv_lhs => rw [← List.take_append_drop n segs]
  rw [tagSegs_append, List.filter_append]
  rw [List.take_append_drop, hout, hin, List.nil_append]

/-! ## The record of a run -/

/-- The frames `fs` are durable: all those of the earlier segments, and of the last one those whose
end lies in its synced prefix. -/
inductive Safe (d : Disk) (segs : List (Seg DecodedFrame)) (fs : List (Nat × DecodedFrame)) : Prop
  | none (empty : fs = [])
  | some (init : List (Seg DecodedFrame)) (g : Seg DecodedFrame) (j : Nat)
      (split : segs = init ++ [g]) (durable : j = 0 ∨ boundary g j ≤ durableLen d g.seq)
      (le : j ≤ g.items.length) (pre : fs <+: tagSegs (init ++ [cut g j]))

/-- A file `rotate` created, with less than a header in it. -/
def Unfinished (d : Disk) (n : FileName) : Prop :=
  ∃ file, d n = some file ∧ file.data.length < segmentHeaderLen ∧ file.WF

/-- What holds between a store, its log, the segments `kept` on disk and the record of the run. -/
structure Recorded (s : Store) (l : FrameLog) (kept : List (Seg DecodedFrame))
    (history : List (Nat × DecodedFrame)) (covered : Nat) : Prop where
  store : Represents s l
  suffix : l.segs <:+ kept
  files : ∀ g ∈ kept, HoldsSeg s.disk g
  valid : ∀ g ∈ kept, ∀ f ∈ g.items, ValidPayload f.payload
  sorted : kept.Pairwise fun a b => a.seq < b.seq
  numbered : ∀ g ∈ kept, g.seq < s.nextSeq
  tidy : ∀ n, s.disk n ≠ none → (∃ g ∈ kept, n = segmentPath g.seq) ∨ Unfinished s.disk n
  synced : ∀ g ∈ kept, s.active ≠ some (activeOf g) → segBytes g ≤ durableLen s.disk g.seq
  tracked : history.filter (fun e => onDisk s.disk e.1) = tagSegs kept
  below : ∀ e ∈ history, e.1 < s.nextSeq
  covered_le : covered ≤ history.length
  safe : Safe s.disk kept ((history.take covered).filter fun e => onDisk s.disk e.1)

/-! ## Small facts -/

variable {kept : List (Seg DecodedFrame)} {history : List (Nat × DecodedFrame)} {covered : Nat}

omit [Crc32] in
theorem filter_filter_seqs {α : Type} {h : List (Nat × α)} {a b : List Nat}
    (hsub : ∀ x ∈ b, x ∈ a) : h.filter (fun e => e.1 ∈ b) =
      (h.filter fun e => e.1 ∈ a).filter fun e => e.1 ∈ b := by
  rw [List.filter_filter]
  refine List.filter_congr fun e _ => ?_
  by_cases hb : e.1 ∈ b
  · simp [hb, hsub _ hb]
  · simp [hb]

omit [Crc32] in
theorem tagSegs_push (l : FrameLog) (seq : Nat) : tagSegs (l.push seq).segs = tagSegs l.segs := by
  rw [SegLog.segs_push, tagSegs_concat, List.map_nil, List.append_nil]

omit [Crc32] in
/-- Nothing is on record in a segment with a new number. -/
theorem filter_push {α : Type} {h : List (Nat × α)} (l : FrameLog) {seq : Nat}
    (below : ∀ e ∈ h, e.1 < seq) : h.filter (fun e => e.1 ∈ seqsOf (l.push seq).segs) =
      h.filter fun e => e.1 ∈ seqsOf l.segs := by
  refine List.filter_congr fun e he => ?_
  have := below e he
  refine decide_eq_decide.mpr ?_
  simp only [seqsOf, SegLog.segs_push, List.map_append, List.map_singleton, List.mem_append,
    List.mem_singleton]
  exact ⟨fun hx => hx.resolve_right (by omega), Or.inl⟩

theorem Safe.isPrefix {d : Disk} {segs : List (Seg DecodedFrame)} {fs : List (Nat × DecodedFrame)}
    (h : Safe d segs fs) : fs <+: tagSegs segs := by
  cases h with
  | none hempty => rw [hempty]; exact List.nil_prefix
  | some init g j hsplit _ _ hpre =>
    refine hpre.trans ?_
    rw [hsplit, tagSegs_concat, tagSegs_concat, List.prefix_append_right_inj]
    exact (List.take_prefix j g.items).map _

/-- Of safe frames, how many stand in the last segment. -/
theorem Safe.last {d : Disk} {segs init : List (Seg DecodedFrame)} {g : Seg DecodedFrame}
    {fs : List (Nat × DecodedFrame)} (h : Safe d segs fs) (hs : segs = init ++ [g]) :
    ∃ j, (j = 0 ∨ boundary g j ≤ durableLen d g.seq) ∧ j ≤ g.items.length ∧
      fs <+: tagSegs (init ++ [cut g j]) := by
  cases h with
  | none hempty =>
    refine ⟨0, Or.inl rfl, Nat.zero_le _, ?_⟩
    rw [hempty]
    exact List.nil_prefix
  | some init' g' j hsplit hdur hle hpre =>
    have heq := hs.symm.trans hsplit
    obtain rfl : init = init' := (List.append_inj' heq rfl).1
    obtain rfl : g = g' := (List.cons.inj (List.append_inj' heq rfl).2).1
    exact ⟨j, hdur, hle, hpre⟩

/-- Safe frames stay safe when the last segment grows. -/
theorem Safe.snoc {d d' : Disk} {segs init : List (Seg DecodedFrame)} {g : Seg DecodedFrame}
    {fs : List (Nat × DecodedFrame)} (h : Safe d segs fs) (hs : segs = init ++ [g])
    (hdur : durableLen d' g.seq = durableLen d g.seq) (f : DecodedFrame) :
    Safe d' (init ++ [{ g with items := g.items ++ [f] }]) fs := by
  obtain ⟨j, hj, hle, hpre⟩ := h.last hs
  refine .some init _ j rfl ?_ ?_ ?_
  · rw [boundary_snoc g f hle]
    show j = 0 ∨ boundary g j ≤ durableLen _ g.seq
    rw [hdur]
    exact hj
  · show j ≤ (g.items ++ [f]).length
    rw [List.length_append]
    exact Nat.le_add_right_of_le hle
  · have hcut : cut { g with items := g.items ++ [f] } j = cut g j := by
      unfold cut
      rw [List.take_append_of_le_length hle]
    rw [hcut]
    exact hpre

/-- Frames of segments that are durable to their ends. -/
theorem safe_full {d : Disk} {segs : List (Seg DecodedFrame)} {fs : List (Nat × DecodedFrame)}
    (hfull : ∀ g ∈ segs, segBytes g ≤ durableLen d g.seq) (hpre : fs <+: tagSegs segs) :
    Safe d segs fs := by
  rcases List.eq_nil_or_concat' segs with hnil | ⟨init, g, hs⟩
  · rw [hnil] at hpre
    exact .none (List.prefix_nil.mp hpre)
  · have hg : g ∈ segs := by rw [hs]; exact List.mem_append_right _ List.mem_cons_self
    refine .some init g g.items.length hs (Or.inr ?_) (Nat.le_refl _) ?_
    · rw [boundary_length]
      exact hfull g hg
    · unfold cut
      rw [List.take_length, ← hs]
      exact hpre

omit [Crc32] in
/-- Keeping the frames of some numbers is keeping the segments of these numbers. -/
theorem tagSegs_filter (p : Nat → Bool) (segs : List (Seg DecodedFrame)) :
    (tagSegs segs).filter (fun e => p e.1) = tagSegs (segs.filter fun g => p g.seq) := by
  induction segs with
  | nil => rfl
  | cons g rest ih =>
    have hg : (g.items.map (g.seq, ·)).filter (fun e => p e.1) =
        if p g.seq then g.items.map (g.seq, ·) else [] := by
      rw [List.filter_map]
      cases hp : p g.seq <;> simp [Function.comp_def, hp]
    show (g.items.map (g.seq, ·) ++ tagSegs rest).filter _ = _
    rw [List.filter_append, ih, hg, List.filter_cons]
    split <;> rfl

omit [Crc32] in
theorem filter_concat_of_pos {α : Type} {p : α → Bool} {init : List α} {x : α} (h : p x = true) :
    (init ++ [x]).filter p = init.filter p ++ [x] := by
  rw [List.filter_append, List.filter_cons_of_pos h, List.filter_nil]

omit [Crc32] in
theorem onDisk_iff {d : Disk} {seq : Nat} : onDisk d seq = true ↔ d (segmentPath seq) ≠ none :=
  Option.isSome_iff_ne_none

theorem HoldsSeg.onDisk {d : Disk} {g : Seg DecodedFrame} (h : HoldsSeg d g) :
    onDisk d g.seq = true := by
  obtain ⟨file, hd, -⟩ := h.length
  rw [Statix.Wal.onDisk, hd]
  rfl

/-- A file with a segment in it is not unfinished. -/
theorem HoldsSeg.finished {d : Disk} {g : Seg DecodedFrame} (h : HoldsSeg d g) :
    ¬ Unfinished d (segmentPath g.seq) := by
  obtain ⟨file, hd, hlen, -⟩ := h.length
  rintro ⟨file', hd', hshort, -⟩
  rw [Option.some.inj (hd'.symm.trans hd), hlen, segBytes] at hshort
  omega

namespace Recorded

theorem mem_kept (h : Recorded s l kept history covered) {g : Seg DecodedFrame} (hg : g ∈ l.segs) :
    g ∈ kept := h.suffix.subset hg

theorem seq_inj (h : Recorded s l kept history covered) {a b : Seg DecodedFrame} (ha : a ∈ kept)
    (hb : b ∈ kept) (e : a.seq = b.seq) : a = b := by
  have hnodup : (kept.map Seg.seq).Nodup := by
    rw [List.Nodup, List.pairwise_map]
    exact h.sorted.imp Nat.ne_of_lt
  exact List.inj_on_of_nodup_map hnodup ha hb e

theorem lt_back (h : Recorded s l kept history covered) {init : List (Seg DecodedFrame)}
    {g x : Seg DecodedFrame} (hs : kept = init ++ [g]) (hx : x ∈ init) : x.seq < g.seq := by
  have hp := h.sorted
  rw [hs, List.pairwise_append] at hp
  exact hp.2.2 x hx g List.mem_cons_self

/-- The active segment is the last of those kept. -/
theorem active_back (h : Recorded s l kept history covered) {init : List (Seg DecodedFrame)}
    {g : Seg DecodedFrame} (hs : l.segs = init ++ [g]) : ∃ old, kept = (old ++ init) ++ [g] := by
  obtain ⟨old, e⟩ := h.suffix
  exact ⟨old, by rw [← e, hs, List.append_assoc]⟩

theorem active (h : Recorded s l kept history covered) :
    s.active = none ∨ ∃ init g, kept = init ++ [g] ∧ s.active = some (activeOf g) := by
  rcases h.store.active with hnone | ⟨init, g, hs, ha⟩
  · exact Or.inl hnone
  · obtain ⟨old, e⟩ := h.active_back hs
    exact Or.inr ⟨_, g, e, ha⟩

/-- Only the last of the segments can be the active one. -/
theorem ne_active (h : Recorded s l kept history covered) {init : List (Seg DecodedFrame)}
    {g x : Seg DecodedFrame} (hs : kept = init ++ [g]) (ha : s.active = some (activeOf g))
    (hx : x ∈ init) : s.active ≠ some (activeOf x) := by
  intro e
  have hseq : x.seq = g.seq := congrArg ActiveSegment.seq (Option.some.inj (e.symm.trans ha))
  have := h.lt_back hs hx
  omega

/-- Every file is a segment's or unfinished, so its synced prefix is inside it. -/
theorem wf (h : Recorded s l kept history covered) {n : FileName} {f : File UInt8}
    (hf : s.disk n = some f) : f.WF := by
  rcases h.tidy n (by rw [hf]; exact Option.some_ne_none _) with ⟨g, hg, rfl⟩ | ⟨f', hf', -, hwf⟩
  · obtain ⟨f', hf', -, hwf⟩ := (h.files g hg).length
    rwa [Option.some.inj (hf.symm.trans hf')]
  · rwa [Option.some.inj (hf.symm.trans hf')]

theorem ne_nextSeq (h : Recorded s l kept history covered) {g : Seg DecodedFrame} (hg : g ∈ kept) :
    segmentPath g.seq ≠ segmentPath s.nextSeq := segmentPath_ne (h.numbered g hg)

/-- The tracked part of the record. -/
theorem inTracked (h : Recorded s l kept history covered) :
    history.filter (fun e => e.1 ∈ seqsOf l.segs) = tagSegs l.segs := by
  obtain ⟨old, e⟩ := h.suffix
  have hdrop : kept.drop old.length = l.segs := by rw [← e, List.drop_left]
  have hsub : ∀ x ∈ history, (x.1 ∈ seqsOf l.segs) → onDisk s.disk x.1 = true := by
    intro x _ hx
    obtain ⟨g, hg, hseq⟩ := List.mem_map.mp hx
    rw [← hseq]
    exact (h.files g (h.mem_kept hg)).onDisk
  have hfilter := tagSegs_filter_drop kept old.length (seqsOf l.segs) (by rw [hdrop]) h.sorted
  rw [← h.tracked, hdrop, List.filter_filter] at hfilter
  rw [← hfilter]
  refine List.filter_congr fun x hx => ?_
  by_cases hin : x.1 ∈ seqsOf l.segs
  · simp [hin, hsub x hx hin]
  · simp [hin]

/-- Some oldest segments are not tracked any more, their files removed or not; the other files stay
as they were. -/
theorem shrink (h : Recorded s l kept history covered) (hr : Represents s' l') (n : Nat)
    (hsegs : l'.segs = l.segs.drop n) (hdisk : ∀ m, s'.disk m ≠ none → s'.disk m = s.disk m)
    (hact : s'.active = s.active) (hnext : s'.nextSeq = s.nextSeq) :
    Recorded s' l' (kept.filter fun g => onDisk s'.disk g.seq) history covered := by
  have hmem : ∀ g, g ∈ kept.filter (fun g => onDisk s'.disk g.seq) →
      g ∈ kept ∧ s'.disk (segmentPath g.seq) = s.disk (segmentPath g.seq) := by
    intro g hg
    obtain ⟨hg, hon⟩ := List.mem_filter.mp hg
    exact ⟨hg, hdisk _ (onDisk_iff.mp hon)⟩
  have hon : ∀ seq, onDisk s'.disk seq = true → onDisk s.disk seq = true := by
    intro seq hseq
    rw [onDisk, ← hdisk _ (onDisk_iff.mp hseq)]
    exact hseq
  have hrecord : ∀ es : List (Nat × DecodedFrame), es.filter (fun e => onDisk s'.disk e.1) =
      (es.filter fun e => onDisk s.disk e.1).filter fun e => onDisk s'.disk e.1 := by
    intro es
    rw [List.filter_filter]
    refine List.filter_congr fun e _ => ?_
    cases he : onDisk s'.disk e.1 with
    | true => rw [hon _ he]; rfl
    | false => rfl
  have hnew : ∀ g ∈ l'.segs, onDisk s'.disk g.seq = true := fun g hg => (hr.files g hg).onDisk
  constructor
  case store => exact hr
  case suffix =>
    obtain ⟨old, e⟩ := h.suffix
    rw [← e, ← List.take_append_drop n l.segs, ← hsegs, List.filter_append, List.filter_append,
      List.filter_eq_self.mpr hnew, ← List.append_assoc]
    exact List.suffix_append _ _
  case files =>
    intro g hg
    obtain ⟨hg, e⟩ := hmem g hg
    exact (h.files g hg).congr e
  case valid => exact fun g hg => h.valid g (hmem g hg).1
  case sorted => exact h.sorted.sublist List.filter_sublist
  case numbered =>
    intro g hg
    rw [hnext]
    exact h.numbered g (hmem g hg).1
  case tidy =>
    intro m hm
    have e := hdisk m hm
    rcases h.tidy m (e ▸ hm) with ⟨g, hg, rfl⟩ | ⟨file, hfile, hshort, hwf⟩
    · exact Or.inl ⟨g, List.mem_filter.mpr ⟨hg, onDisk_iff.mpr hm⟩, rfl⟩
    · exact Or.inr ⟨file, e.trans hfile, hshort, hwf⟩
  case synced =>
    intro g hg ha
    obtain ⟨hg, e⟩ := hmem g hg
    rw [hact] at ha
    rw [durableLen_congr e]
    exact h.synced g hg ha
  case tracked => rw [hrecord, h.tracked, tagSegs_filter fun seq => onDisk s'.disk seq]
  case below =>
    rw [hnext]
    exact h.below
  case covered_le => exact h.covered_le
  case safe =>
    rw [hrecord]
    have hpre : ((history.take covered).filter fun e => onDisk s.disk e.1).filter
        (fun e => onDisk s'.disk e.1) <+: tagSegs (kept.filter fun g => onDisk s'.disk g.seq) := by
      rw [← tagSegs_filter fun seq => onDisk s'.disk seq]
      exact h.safe.isPrefix.filter _
    rcases hr.active with hnone | ⟨init', g, hs', ha⟩
    · refine safe_full (fun g hg => ?_) hpre
      obtain ⟨hg, e⟩ := hmem g hg
      rw [durableLen_congr e]
      exact h.synced g hg (by rw [← hact, hnone]; exact fun e => nomatch e)
    · -- the active segment stays the last one
      rw [hact] at ha
      rcases h.active with hn | ⟨init, g₀, hs, ha₀⟩
      · rw [hn] at ha
        cases ha
      · obtain ⟨j, hj, hle, hsafe⟩ := h.safe.last hs
        have hg₀ : g₀ ∈ kept := by rw [hs]; exact List.mem_append_right _ List.mem_cons_self
        have hseq : g.seq = g₀.seq :=
          congrArg ActiveSegment.seq (Option.some.inj (ha.symm.trans ha₀))
        have hon₀ : onDisk s'.disk g₀.seq = true := by
          rw [← hseq]
          exact hnew g (SegLog.mem_back hs')
        refine .some (init.filter fun g => onDisk s'.disk g.seq) g₀ j ?_ ?_ hle ?_
        · exact (congrArg _ hs).trans (filter_concat_of_pos hon₀)
        · rw [durableLen_congr (hdisk _ (onDisk_iff.mp hon₀))]
          exact hj
        · have hcut := tagSegs_filter (fun seq => onDisk s'.disk seq) (init ++ [cut g₀ j])
          rw [filter_concat_of_pos (x := cut g₀ j) hon₀] at hcut
          rw [← hcut]
          exact hsafe.filter _

/-- A call that leaves the directory as it was. -/
theorem congr (h : Recorded s l kept history covered) (hr : Represents s' l')
    (hsegs : l'.segs = l.segs) (hdisk : s'.disk = s.disk) (hact : s'.active = s.active)
    (hnext : s'.nextSeq = s.nextSeq) : Recorded s' l' kept history covered := by
  have hshrink := h.shrink hr 0 hsegs (fun m _ => by rw [hdisk]) hact hnext
  rwa [List.filter_eq_self.mpr fun g hg => by rw [hdisk]; exact (h.files g hg).onDisk] at hshrink

end Recorded

/-! ## Syncs -/

omit [Crc32] in
theorem onDisk_syncDisk (io : Io) (a : Option ActiveSegment) (d : Disk) (seq : Nat) :
    onDisk (syncDisk io a d) seq = onDisk d seq := by
  unfold onDisk syncDisk
  cases a with
  | none => rfl
  | some a =>
    simp only
    split
    · by_cases hn : segmentPath seq = a.file.path
      · rw [hn, Dir.modify_self, Option.isSome_map]
      · rw [Dir.modify_ne _ _ hn]
    · rfl

omit [Crc32] in
theorem Unfinished.syncDisk {d : Disk} {n : FileName} (h : Unfinished d n) (io : Io)
    (a : Option ActiveSegment) : Unfinished (syncDisk io a d) n := by
  obtain ⟨file, hfile, hshort, hwf⟩ := h
  unfold Wal.syncDisk
  cases a with
  | none => exact ⟨file, hfile, hshort, hwf⟩
  | some a =>
    simp only
    split
    · by_cases hn : n = a.file.path
      · subst hn
        exact ⟨file.sync, by rw [Dir.modify_self, hfile, Option.map_some], hshort, file.wf_sync⟩
      · exact ⟨file, (Dir.modify_ne _ _ hn).trans hfile, hshort, hwf⟩
    · exact ⟨file, hfile, hshort, hwf⟩

/-- A sync of the active segment covers every frame. -/
theorem Recorded.cover (h : Recorded s l kept history covered) (hr : Represents s' l)
    (hdisk : s'.disk = syncDisk .ok s.active s.disk)
    (hact : s'.active = s.active ∨ s'.active = none) (hnext : s'.nextSeq = s.nextSeq) :
    Recorded s' l kept history (if s.active.isSome then history.length else covered) := by
  rcases h.active with hnone | ⟨init, g, hs, ha⟩
  · rw [hnone] at hdisk hact ⊢
    exact h.congr hr rfl hdisk (hact.elim (·.trans hnone.symm) (·.trans hnone.symm)) hnext
  · have hon : ∀ es : List (Nat × DecodedFrame), es.filter (fun e => onDisk s'.disk e.1) =
        es.filter fun e => onDisk s.disk e.1 := by
      intro es
      rw [hdisk]
      exact List.filter_congr fun e _ => onDisk_syncDisk .ok s.active s.disk e.1
    have hg : g ∈ kept := by rw [hs]; exact List.mem_append_right _ List.mem_cons_self
    have hfull : durableLen s'.disk g.seq = segBytes g := by
      rw [hdisk, ha]
      exact (h.files g hg).durable_sync rfl
    rw [ha]
    constructor
    case store => exact hr
    case suffix => exact h.suffix
    case files => rw [hdisk]; exact fun x hx => syncDisk_holds (h.files x hx)
    case valid => exact h.valid
    case sorted => exact h.sorted
    case numbered => rw [hnext]; exact h.numbered
    case tidy =>
      rw [hdisk]
      exact fun n hn => (h.tidy n (syncDisk_exists n hn)).imp_right (·.syncDisk .ok s.active)
    case synced =>
      intro x hx _
      rw [hs, List.mem_append, List.mem_singleton] at hx
      rcases hx with hx | rfl
      · have hx' : x ∈ kept := by rw [hs]; exact List.mem_append_left _ hx
        refine Nat.le_trans (h.synced x hx' (h.ne_active hs ha hx)) ?_
        rw [hdisk]
        exact (h.files x hx').durable_syncDisk .ok s.active
      · exact hfull.ge
    case tracked => rw [hon, h.tracked]
    case below => rw [hnext]; exact h.below
    case covered_le => exact Nat.le_refl _
    case safe =>
      refine .some init g g.items.length hs (Or.inr ?_) (Nat.le_refl _) ?_
      · rw [boundary_length, hfull]
      · simp only [Option.isSome_some, if_true]
        rw [List.take_length, hon, h.tracked, hs]
        unfold cut
        rw [List.take_length]

/-! ## New files -/

omit [Crc32] in
/-- A new file changes nothing for the frames on record. -/
theorem filter_below {d d' : Disk} {n : Nat} {es : List (Nat × DecodedFrame)}
    (below : ∀ e ∈ es, e.1 < n) (hd : ∀ m, m ≠ segmentPath n → d' m = d m) :
    es.filter (fun e => onDisk d' e.1) = es.filter fun e => onDisk d e.1 := by
  refine List.filter_congr fun e he => ?_
  unfold onDisk
  rw [hd _ (segmentPath_ne (below e he))]

/-- A rotation with no active segment opens an empty one behind the others. -/
theorem Recorded.push (h : Recorded s l kept history covered) (hact : s.active = none)
    (number : NumbersLeft s) :
    Recorded (rotated .ok s) (l.push s.nextSeq) (kept ++ [⟨s.nextSeq, []⟩]) history covered := by
  have hr : Represents (rotated .ok s) (l.push s.nextSeq) := rotated_spec h.store number
  have hd : ∀ n, n ≠ segmentPath s.nextSeq → (rotated .ok s).disk n = s.disk n := by
    intro n hn
    rw [show (rotated .ok s).disk n = (rotateFile .ok s encodeSegmentHeader).disk n from rfl,
      rotateFile_disk_ne .ok s _ hn]
    show syncDisk .ok s.active s.disk n = _
    rw [hact]
    rfl
  have hold : ∀ g ∈ kept, (rotated .ok s).disk (segmentPath g.seq) = s.disk (segmentPath g.seq) :=
    fun g hg => hd _ (h.ne_nextSeq hg)
  have hcases : ∀ g, g ∈ kept ++ [⟨s.nextSeq, []⟩] → g ∈ kept ∨ g = ⟨s.nextSeq, []⟩ :=
    fun g hg => (List.mem_append.mp hg).imp_right List.mem_singleton.mp
  constructor
  case store => exact hr
  case suffix =>
    obtain ⟨old, e⟩ := h.suffix
    exact ⟨old, by rw [SegLog.segs_push, ← List.append_assoc, e]⟩
  case files =>
    intro g hg
    rcases hcases g hg with hg | rfl
    · exact (h.files g hg).congr (hold g hg)
    · exact hr.files _ (List.mem_append_right _ List.mem_cons_self)
  case valid =>
    intro g hg
    rcases hcases g hg with hg | rfl
    · exact h.valid g hg
    · exact fun f hf => absurd hf List.not_mem_nil
  case sorted =>
    refine List.pairwise_append.mpr ⟨h.sorted, List.pairwise_singleton _ _, fun a ha b hb => ?_⟩
    rw [List.mem_singleton.mp hb]
    exact h.numbered a ha
  case numbered =>
    intro g hg
    rcases hcases g hg with hg | rfl
    · exact (h.numbered g hg).trans (lt_u64Succ number)
    · exact lt_u64Succ number
  case tidy =>
    intro n hn
    by_cases hp : n = segmentPath s.nextSeq
    · exact Or.inl ⟨⟨s.nextSeq, []⟩, List.mem_append_right _ List.mem_cons_self, hp⟩
    · rw [hd n hp] at hn
      rcases h.tidy n hn with ⟨g, hg, e⟩ | ⟨file, hfile, hrest⟩
      · exact Or.inl ⟨g, List.mem_append_left _ hg, e⟩
      · exact Or.inr ⟨file, (hd n hp).trans hfile, hrest⟩
  case synced =>
    intro g hg ha
    rcases hcases g hg with hg | rfl
    · rw [durableLen_congr (hold g hg)]
      exact h.synced g hg (by rw [hact]; exact fun e => (nomatch e))
    · exact absurd rfl ha
  case tracked =>
    rw [filter_below h.below hd, h.tracked, tagSegs_concat, List.map_nil, List.append_nil]
  case below => exact fun e he => (h.below e he).trans (lt_u64Succ number)
  case covered_le => exact h.covered_le
  case safe =>
    rw [filter_below (fun e he => h.below e (List.mem_of_mem_take he)) hd]
    refine .some kept ⟨s.nextSeq, []⟩ 0 rfl (Or.inl rfl) (Nat.zero_le _) ?_
    rw [tagSegs_concat]
    exact h.safe.isPrefix.trans (List.prefix_append _ _)

/-- A rotation that took a number and failed, with the file it created or without. -/
theorem Recorded.abandon (h : Recorded s l kept history covered) (hact : s.active = none)
    (number : NumbersLeft s) {d : Disk} (hd : ∀ n, n ≠ segmentPath s.nextSeq → d n = s.disk n)
    (hnew : d (segmentPath s.nextSeq) ≠ none → Unfinished d (segmentPath s.nextSeq)) :
    Recorded { takeNumber s with disk := d } l kept history covered where
  store := h.store.skipSeq hact number hd
  suffix := h.suffix
  files := fun g hg => (h.files g hg).congr (hd _ (h.ne_nextSeq hg))
  valid := h.valid
  sorted := h.sorted
  numbered := fun g hg => (h.numbered g hg).trans (lt_u64Succ number)
  tidy := by
    intro n hn
    by_cases hp : n = segmentPath s.nextSeq
    · subst hp
      exact Or.inr (hnew hn)
    · rcases h.tidy n (by rw [← hd n hp]; exact hn) with hg | ⟨file, hfile, hrest⟩
      · exact Or.inl hg
      · exact Or.inr ⟨file, (hd n hp).trans hfile, hrest⟩
  synced := by
    intro g hg ha
    rw [durableLen_congr (hd _ (h.ne_nextSeq hg))]
    exact h.synced g hg ha
  tracked := (filter_below h.below hd).trans h.tracked
  below := fun e he => (h.below e he).trans (lt_u64Succ number)
  covered_le := h.covered_le
  safe := by
    rw [filter_below (fun e he => h.below e (List.mem_of_mem_take he)) hd]
    have hdur : ∀ g ∈ kept, segBytes g ≤ durableLen d g.seq := fun g hg => by
      rw [durableLen_congr (hd _ (h.ne_nextSeq hg))]
      exact h.synced g hg (by rw [hact]; exact fun e => nomatch e)
    exact safe_full hdur h.safe.isPrefix

/-! ## A frame -/

/-- Bytes behind the last frame of a file leave every file in its place. -/
theorem onDisk_tear {g : Seg DecodedFrame} {file : File UInt8}
    (hd : s.disk (segmentPath g.seq) = some file) (junk : Bytes) (q : UInt64) (seq : Nat) :
    onDisk (tear s g file junk q).disk seq = onDisk s.disk seq := by
  have hdisk : (tear s g file junk q).disk =
      s.disk.put (segmentPath g.seq) ⟨file.data ++ junk, file.synced⟩ := rfl
  unfold onDisk
  rw [hdisk]
  by_cases hp : segmentPath seq = segmentPath g.seq
  · rw [hp, Dir.put_self, hd]
    rfl
  · rw [Dir.put_ne _ _ hp]

/-- A frame behind the last one of the active segment. -/
theorem Recorded.snoc (h : Recorded s l kept history covered) {init : List (Seg DecodedFrame)}
    {g : Seg DecodedFrame} (hs : l.segs = init ++ [g]) (ha : s.active = some (activeOf g))
    {file : File UInt8} (hd : s.disk (segmentPath g.seq) = some file) {f : DecodedFrame}
    (hf : ValidPayload f.payload) (q : UInt64) :
    ∃ kept', Recorded
      (accountFrame (tear s g file (encodeFrame f) q) (frameLenOnDisk f.payload.length))
      (l.snoc f) kept' (history ++ [(g.seq, f)]) covered := by
  obtain ⟨old, hkept⟩ := h.active_back hs
  generalize hold : old ++ init = before at hkept
  have hr := accountFrame_spec h.store hs hd f hf q
  generalize ht : accountFrame (tear s g file (encodeFrame f) q)
    (frameLenOnDisk f.payload.length) = t at hr
  have hdisk : t.disk = s.disk.put (segmentPath g.seq) ⟨file.data ++ encodeFrame f, file.synced⟩ := by
    rw [← ht]
    rfl
  have hs' := SegLog.segs_snoc hs f
  have hg : g ∈ kept := by rw [hkept]; exact List.mem_append_right _ List.mem_cons_self
  have hne : ∀ n, n ≠ segmentPath g.seq → t.disk n = s.disk n := fun n hn => by
    rw [hdisk]
    exact Dir.put_ne _ _ hn
  have hself : t.disk (segmentPath g.seq) = some ⟨file.data ++ encodeFrame f, file.synced⟩ := by
    rw [hdisk]
    exact Dir.put_self _ _ _
  have hbefore : ∀ x ∈ before, t.disk (segmentPath x.seq) = s.disk (segmentPath x.seq) :=
    fun x hx => hne _ (segmentPath_ne (h.lt_back hkept hx))
  have hinKept : ∀ x ∈ before, x ∈ kept := fun x hx => by
    rw [hkept]
    exact List.mem_append_left _ hx
  have hon : ∀ seq, onDisk t.disk seq = onDisk s.disk seq := by
    rw [← ht]
    exact onDisk_tear hd (encodeFrame f) q
  have hcases : ∀ x, x ∈ before ++ [{ g with items := g.items ++ [f] }] →
      x ∈ before ∨ x = { g with items := g.items ++ [f] } :=
    fun x hx => (List.mem_append.mp hx).imp_right List.mem_singleton.mp
  have hback : (⟨g.seq, g.items ++ [f]⟩ : Seg DecodedFrame) ∈ (l.snoc f).segs := by
    rw [hs']
    exact List.mem_append_right _ List.mem_cons_self
  refine ⟨before ++ [{ g with items := g.items ++ [f] }], ?_⟩
  constructor
  case store => exact hr
  case suffix => exact ⟨old, by rw [hs', ← List.append_assoc, hold]⟩
  case files =>
    intro x hx
    rcases hcases x hx with hx | rfl
    · exact (h.files x (hinKept x hx)).congr (hbefore x hx)
    · exact hr.files _ hback
  case valid =>
    intro x hx
    rcases hcases x hx with hx | rfl
    · exact h.valid x (hinKept x hx)
    · exact hr.valid _ hback
  case sorted =>
    have hp := h.sorted
    rw [hkept] at hp
    exact SegLog.sorted_back hp rfl
  case numbered =>
    have hnext : t.nextSeq = s.nextSeq := by
      rw [← ht]
      rfl
    intro x hx
    rw [hnext]
    rcases hcases x hx with hx | rfl
    · exact h.numbered x (hinKept x hx)
    · exact h.numbered g hg
  case tidy =>
    intro n hn
    by_cases hp : n = segmentPath g.seq
    · exact Or.inl ⟨_, List.mem_append_right _ List.mem_cons_self, hp⟩
    · rw [hne n hp] at hn
      rcases h.tidy n hn with ⟨x, hx, e⟩ | ⟨file', hfile, hrest⟩
      · rw [hkept, List.mem_append, List.mem_singleton] at hx
        rcases hx with hx | rfl
        · exact Or.inl ⟨x, List.mem_append_left _ hx, e⟩
        · exact absurd e hp
      · exact Or.inr ⟨file', (hne n hp).trans hfile, hrest⟩
  case synced =>
    intro x hx hxa
    rcases hcases x hx with hx | rfl
    · rw [durableLen_congr (hbefore x hx)]
      exact h.synced x (hinKept x hx) (h.ne_active hkept ha hx)
    · refine absurd ?_ hxa
      rw [← ht]
      exact active_accountFrame s g file f q
  case tracked =>
    simp only [hon]
    have hin : onDisk s.disk g.seq = true := (h.files g hg).onDisk
    rw [filter_concat_of_pos (x := (g.seq, f)) hin, h.tracked, hkept, tagSegs_concat,
      tagSegs_concat, List.map_append, List.append_assoc]
    rfl
  case below =>
    have hnext : t.nextSeq = s.nextSeq := by
      rw [← ht]
      rfl
    intro e he
    rw [hnext]
    rcases List.mem_append.mp he with he | he
    · exact h.below e he
    · rw [List.mem_singleton.mp he]
      exact h.numbered g hg
  case covered_le =>
    rw [List.length_append]
    exact Nat.le_add_right_of_le h.covered_le
  case safe =>
    simp only [hon]
    rw [List.take_append_of_le_length h.covered_le]
    refine h.safe.snoc hkept ?_ f
    unfold durableLen
    rw [hself, hd]
    rfl

end Statix.Wal
