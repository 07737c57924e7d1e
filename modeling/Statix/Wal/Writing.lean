import Statix.Wal.Represents

/-!
# The writing operations keep the representation

One spec lemma for each writing operation of the store, over every outcome of its I/O calls:

* `rotate_spec`: a new empty segment, or no active segment and the same log.
* `dropFront_spec`, `enforceCap_spec`: some oldest segments go, never the last one.
* `writeFrame_spec`: the frame is in the log, or the torn bytes are cut off again.
* **`appendOne_spec`** (`AppendOutcome`): everything one `append_one` can do.
-/

namespace Statix.Wal

open Statix.Lib

variable [Crc32] {io : Io} {s : Store} {l : FrameLog}

/-! ## `sync_active` and giving up the active segment -/

theorem syncDisk_holds {a : Option ActiveSegment} {d : Disk} {g : Seg DecodedFrame}
    (h : HoldsSeg d g) : HoldsSeg (syncDisk io a d) g := by
  unfold syncDisk
  cases a with
  | none => exact h
  | some a =>
    simp only
    split
    · exact h.sync _
    · exact h

omit [Crc32] in
theorem syncDisk_exists {a : Option ActiveSegment} {d : Disk} (n : FileName)
    (h : syncDisk io a d n ≠ none) : d n ≠ none := by
  unfold syncDisk at h
  cases a with
  | none => exact h
  | some a =>
    simp only at h
    split at h
    · by_cases hn : n = a.file.path
      · subst hn
        rw [Dir.modify_self] at h
        intro he
        rw [he] at h
        exact h rfl
      · rwa [Dir.modify_ne _ _ hn] at h
    · exact h

/-- A sync never shrinks what is durable. -/
theorem HoldsSeg.durable_syncDisk (io : Io) {d : Disk} {g : Seg DecodedFrame} (h : HoldsSeg d g)
    (a : Option ActiveSegment) : durableLen d g.seq ≤ durableLen (syncDisk io a d) g.seq := by
  obtain ⟨file, hd, -, hwf⟩ := h.length
  unfold syncDisk
  cases a with
  | none => exact Nat.le_refl _
  | some a =>
    simp only
    split
    · by_cases hn : segmentPath g.seq = a.file.path
      · unfold durableLen
        rw [← hn, Dir.modify_self, hd]
        simp only [Option.map_some, Option.getD_some, File.synced_sync]
        exact hwf
      · exact Nat.le_of_eq (durableLen_congr (Dir.modify_ne _ _ hn)).symm
    · exact Nat.le_refl _

/-- A successful sync makes the whole active segment durable. -/
theorem HoldsSeg.durable_sync {d : Disk} {g : Seg DecodedFrame} (h : HoldsSeg d g)
    (hio : io.fdatasync = true) :
    durableLen (syncDisk io (some (activeOf g)) d) g.seq = segBytes g := by
  obtain ⟨file, hd, hlen, -⟩ := h.length
  unfold syncDisk durableLen
  simp only [hio, if_true]
  rw [show (activeOf g).file.path = segmentPath g.seq from rfl, Dir.modify_self, hd]
  exact hlen

theorem syncActive_spec (h : Represents s l) : Represents (syncActive io s) l :=
  h.congr rfl rfl rfl rfl rfl rfl rfl (fun g hg => syncDisk_holds (h.files g hg)) syncDisk_exists

theorem retireActive_spec (io : Io) (h : Represents s l) : Represents (retireActive io s) l where
  segments := h.segments
  files := fun g hg => syncDisk_holds (h.files g hg)
  valid := h.valid
  sorted := h.sorted
  below := h.below
  fits := h.fits
  total := h.total
  active := Or.inl rfl
  cursor := by
    cases h.cursor with
    | off h1 h2 h3 h4 h5 => exact .off h1 h2 h3 h4 h5
    | front g rest h1 h2 h3 h4 => exact .front g rest h1 h2 h3 h4
  named := fun n hn => h.named n (syncDisk_exists n hn)

/-! ## `rotate` -/

/-- The store after `rotate` gave up the active segment and took a number, with the new file
holding `bs`. -/
def rotateFile (io : Io) (s : Store) (bs : Bytes) : Store :=
  { retireActive io s with
    nextSeq := u64Succ s.nextSeq
    disk := ((syncDisk io s.active s.disk).create (segmentPath s.nextSeq)).modify
      (segmentPath s.nextSeq) (File.writeAt 0 bs) }

/-- The store after a `rotate` that succeeded. -/
def rotated (io : Io) (s : Store) : Store :=
  { rotateFile io s encodeSegmentHeader with
    segments := s.segments ++ [metaOf ⟨s.nextSeq, []⟩]
    totalBytes := s.totalBytes + segmentHeaderLen
    active := some (activeOf ⟨s.nextSeq, []⟩) }

/-- The directory after a `rotate` that succeeded: one new file. -/
theorem rotated_disk (io : Io) (s : Store) : (rotated io s).disk =
    ((syncDisk io s.active s.disk).create (segmentPath s.nextSeq)).modify (segmentPath s.nextSeq)
      (File.writeAt 0 encodeSegmentHeader) := rfl

/-- **What `rotate` can do.** -/
theorem rotate_cases (io : Io) (s : Store) :
    rotate io s = (retireActive io s, false) ∨
    rotate io s = ({ retireActive io s with nextSeq := u64Succ s.nextSeq }, false) ∨
    (∃ k, rotate io s = (rotateFile io s (encodeSegmentHeader.take k), false)) ∨
    rotate io s = (rotated io s, true) := by
  unfold rotate
  simp only
  split
  · exact Or.inl rfl
  · refine Or.inr ?_
    split
    · exact Or.inl rfl
    · cases io.writeSegmentHeader with
      | some k => exact Or.inr (Or.inl ⟨k, rfl⟩)
      | none => exact Or.inr (Or.inr rfl)

/-- A number that was taken and left behind leaves the log as it was. -/
theorem Represents.skipSeq (h : Represents s l) (hs : s.active = none) (number : NumbersLeft s)
    {d : Disk} (hd : ∀ n, n ≠ segmentPath s.nextSeq → d n = s.disk n) :
    Represents { s with nextSeq := u64Succ s.nextSeq, disk := d } l where
  segments := h.segments
  files := fun g hg => (h.files g hg).congr (hd _ (h.ne_nextSeq hg))
  valid := h.valid
  sorted := h.sorted
  below := fun g hg => (h.below g hg).trans (lt_u64Succ number)
  fits := u64Succ_le number
  total := h.total
  active := Or.inl hs
  cursor := by
    cases h.cursor with
    | off h1 h2 h3 h4 h5 =>
      have hlt := lt_u64Succ number
      refine .off h1 h2 h3 (h4.trans hlt.le) fun e => ?_
      have e' : s.readSeq = u64Succ s.nextSeq := e
      omega
    | front g rest h1 h2 h3 h4 => exact .front g rest h1 h2 h3 h4
  named := by
    intro n hn
    by_cases he : n = segmentPath s.nextSeq
    · exact ⟨s.nextSeq, lt_u64Succ number, he⟩
    · obtain ⟨seq, hlt, hseq⟩ := h.named n (by rw [← hd n he]; exact hn)
      exact ⟨seq, hlt.trans (lt_u64Succ number), hseq⟩

omit [Crc32] in
theorem rotateFile_disk_ne (io : Io) (s : Store) (bs : Bytes) {n : FileName}
    (h : n ≠ segmentPath s.nextSeq) :
    (rotateFile io s bs).disk n = (retireActive io s).disk n :=
  (Dir.modify_ne _ _ h).trans (Dir.create_ne _ h)

/-- A new segment at the back of the log. -/
theorem rotated_spec (h : Represents s l) (number : NumbersLeft s) :
    Represents (rotated io s) (l.push s.nextSeq) where
  segments := by
    unfold rotated
    rw [h.segments, SegLog.segs_push, List.map_append, List.map_singleton]
  files := by
    intro g hg
    rcases SegLog.mem_segs_push.mp hg with hg | rfl
    · exact (syncDisk_holds (h.files g hg)).congr (rotateFile_disk_ne io s _ (h.ne_nextSeq hg))
    · refine ⟨⟨encodeSegmentHeader, 0⟩, encodeSegmentHeader, ?_, by simp, rfl,
        validateSegmentHeader_encode, Nat.zero_le _⟩
      rw [rotated_disk, Dir.modify_self, Dir.create_self]
      rfl
  valid := by
    intro g hg
    rcases SegLog.mem_segs_push.mp hg with hg | rfl
    · exact h.valid g hg
    · exact fun f hf => absurd hf List.not_mem_nil
  sorted := by
    rw [SegLog.segs_push, List.pairwise_append]
    refine ⟨h.sorted, List.pairwise_singleton _ _, fun a ha b hb => ?_⟩
    rw [List.mem_singleton.mp hb]
    exact h.below a ha
  below := by
    intro g hg
    rcases SegLog.mem_segs_push.mp hg with hg | rfl
    · exact (h.below g hg).trans (lt_u64Succ number)
    · exact lt_u64Succ number
  fits := u64Succ_le number
  total := by
    unfold rotated
    rw [h.total, SegLog.segs_push, List.map_append, List.sum_append]
    rfl
  active := Or.inr ⟨l.segs, ⟨s.nextSeq, []⟩, rfl, rfl⟩
  cursor := by
    cases h.cursor with
    | off h1 h2 h3 h4 h5 =>
      by_cases he : s.readSeq = s.nextSeq
      · -- a cursor that was waiting for this number sits at the start of the new segment
        refine .front ⟨s.nextSeq, []⟩ [] (by rw [SegLog.segs_push, (h5 he).1]; rfl) he ?_
          (Or.inl h3)
        show s.readOffset = boundary _ l.consumed
        rw [(h5 he).2, h2, boundary_zero]
      · have hlt := lt_u64Succ number
        refine .off (fun g hg => ?_) h2 h3 (h4.trans hlt.le) fun e => ?_
        · rcases SegLog.mem_segs_push.mp hg with hg | rfl
          · exact h1 g hg
          · exact fun e => he e.symm
        · have e' : s.readSeq = u64Succ s.nextSeq := e
          omega
    | front g rest h1 h2 h3 h4 =>
      exact .front g (rest ++ [⟨s.nextSeq, []⟩]) (by rw [SegLog.segs_push, h1]; rfl) h2 h3 h4
  named := by
    intro n hn
    by_cases he : n = segmentPath s.nextSeq
    · exact ⟨s.nextSeq, lt_u64Succ number, he⟩
    · obtain ⟨seq, hlt, hseq⟩ := (retireActive_spec io h).named n
        (by rw [← rotateFile_disk_ne io s _ he]; exact hn)
      exact ⟨seq, hlt.trans (lt_u64Succ number), hseq⟩

omit [Crc32] in
/-- `Keeps` follows when the tracked files are left as they were. -/
theorem keeps_of_eq {d d' : Disk} {l : FrameLog}
    (h : ∀ g ∈ l.segs, d' (segmentPath g.seq) = d (segmentPath g.seq)) : Keeps d d' l :=
  fun g hg => Nat.le_of_eq (durableLen_congr (h g hg)).symm

omit [Crc32] in
theorem Keeps.trans {d d' d'' : Disk} {l : FrameLog} (h : Keeps d d' l) (h' : Keeps d' d'' l) :
    Keeps d d'' l := fun g hg => Nat.le_trans (h g hg) (h' g hg)

omit [Crc32] in
/-- `Keeps` looks at the tracked numbers only. -/
theorem Keeps.of_seqs {d d' : Disk} {l l' : FrameLog} (h : Keeps d d' l)
    (hs : ∀ x ∈ l'.segs, ∃ g ∈ l.segs, g.seq = x.seq) : Keeps d d' l' := by
  intro x hx
  obtain ⟨g, hg, e⟩ := hs x hx
  rw [← e]
  exact h g hg

/-- **`rotate`**: a new empty segment at the back, or no active segment and the same log. -/
theorem rotate_spec (io : Io) (h : Represents s l) (number : NumbersLeft s) :
    (rotate io s = (rotated io s, true) ∧ Represents (rotated io s) (l.push s.nextSeq) ∧
      Keeps s.disk (rotated io s).disk (l.push s.nextSeq)) ∨
    ∃ s', rotate io s = (s', false) ∧ Represents s' l ∧ s'.active = none ∧
      s'.pendingAdvance = s.pendingAdvance ∧ Keeps s.disk s'.disk l := by
  have hk : Keeps s.disk (syncDisk io s.active s.disk) l := fun g hg =>
    (h.files g hg).durable_syncDisk io s.active
  have hr := retireActive_spec io h
  have hfile : ∀ bs, Keeps s.disk (rotateFile io s bs).disk l := fun bs =>
    hk.trans (keeps_of_eq fun g hg => rotateFile_disk_ne io s bs (h.ne_nextSeq hg))
  rcases rotate_cases io s with e | e | ⟨k, e⟩ | e
  · exact Or.inr ⟨_, e, hr, rfl, rfl, hk⟩
  · exact Or.inr ⟨_, e, hr.skipSeq rfl number fun _ _ => rfl, rfl, rfl, hk⟩
  · exact Or.inr ⟨_, e, hr.skipSeq rfl number fun n hn => rotateFile_disk_ne io s _ hn, rfl, rfl,
      hfile _⟩
  · refine Or.inl ⟨e, rotated_spec h number, fun g hg => ?_⟩
    rcases SegLog.mem_segs_push.mp hg with hg | rfl
    · exact hfile _ g hg
    · unfold durableLen
      rw [h.nextSeq_free]
      exact Nat.zero_le _

/-! ## `enforce_cap` -/

omit [Crc32] in
/-- `dropFront` with a segment left behind the victim. -/
theorem dropFront_eq {victim front : SegmentMeta} {rest : List SegmentMeta}
    (hs : s.segments = victim :: front :: rest) :
    dropFront io s = { s with
      segments := front :: rest
      totalBytes := s.totalBytes - victim.bytes
      metrics := { s.metrics with
        droppedBatches := s.metrics.droppedBatches + victim.frames
        droppedBytes := s.metrics.droppedBytes + victim.bytes }
      disk := removeFile io s.disk victim.path
      readSeq := if s.readSeq = victim.seq then front.seq else s.readSeq
      readOffset := if s.readSeq = victim.seq then segmentHeaderLen else s.readOffset
      pendingAdvance := if s.readSeq = victim.seq then none else s.pendingAdvance } := by
  unfold dropFront
  rw [hs]
  simp only
  split <;> rfl

omit [Crc32] in
theorem removeFile_ne {d : Disk} {m n : FileName} (h : m ≠ n) : removeFile io d n m = d m := by
  unfold removeFile
  split
  · exact Dir.remove_ne d h
  · rfl

omit [Crc32] in
theorem removeFile_exists {d : Disk} {m n : FileName} (h : removeFile io d n m ≠ none) :
    d m ≠ none := by
  by_cases hm : m = n
  · subst hm
    unfold removeFile at h
    split at h
    · rw [Dir.remove_self] at h
      exact absurd rfl h
    · exact h
  · rwa [removeFile_ne hm] at h

omit [Crc32] in
/-- A file that is still there is as it was. -/
theorem removeFile_eq {d : Disk} {m n : FileName} (h : removeFile io d n m ≠ none) :
    removeFile io d n m = d m := by
  unfold removeFile at h ⊢
  split
  · rename_i hio
    rw [if_pos hio] at h
    exact Dir.remove_ne d fun e => h (by rw [e, Dir.remove_self])
  · rfl

/-- The later segments have other files than the front one. -/
theorem Represents.front_ne (h : Represents s l) {g : Seg DecodedFrame}
    {rest : List (Seg DecodedFrame)} (hs : l.segs = g :: rest) {x : Seg DecodedFrame}
    (hx : x ∈ rest) : segmentPath x.seq ≠ segmentPath g.seq := by
  have hp := h.sorted
  rw [hs, List.pairwise_cons] at hp
  exact (segmentPath_ne (hp.1 x hx)).symm

/-- **The front segment is removed**: the rest of the store is as it was, but for the cursor. -/
theorem Represents.removeFront (io : Io) (h : Represents s l) {g : Seg DecodedFrame}
    {rest : List (Seg DecodedFrame)} (hs : l.segs = g :: rest) (hlast : rest = [] → s.active = none)
    {s' : Store} (hsegs : s'.segments = rest.map metaOf)
    (htotal : s'.totalBytes = s.totalBytes - segBytes g)
    (hdisk : s'.disk = removeFile io s.disk (segmentPath g.seq)) (hact : s'.active = s.active)
    (hnext : s'.nextSeq = s.nextSeq) (hcur : CursorAt s' l.dropFront) :
    Represents s' l.dropFront ∧ Keeps s.disk s'.disk l.dropFront := by
  have hs' : l.dropFront.segs = rest := by rw [SegLog.segs_dropFront, hs, List.tail_cons]
  have hmem : ∀ x ∈ l.dropFront.segs, x ∈ l.segs := fun x hx => by
    rw [hs'] at hx
    rw [hs]
    exact List.mem_cons_of_mem g hx
  have hfile : ∀ x ∈ l.dropFront.segs, s'.disk (segmentPath x.seq) = s.disk (segmentPath x.seq) := by
    intro x hx
    rw [hdisk]
    exact removeFile_ne (h.front_ne hs (by rwa [hs'] at hx))
  refine ⟨?_, keeps_of_eq hfile⟩
  constructor
  case segments => rw [hs', hsegs]
  case files => exact fun x hx => (h.files x (hmem x hx)).congr (hfile x hx)
  case valid => exact fun x hx => h.valid x (hmem x hx)
  case sorted =>
    have hp := h.sorted
    rw [hs] at hp
    rw [hs']
    exact (List.pairwise_cons.mp hp).2
  case below => rw [hnext]; exact fun x hx => h.below x (hmem x hx)
  case fits => rw [hnext]; exact h.fits
  case total =>
    rw [htotal, h.total, hs, hs', List.map_cons, List.sum_cons]
    exact Nat.add_sub_cancel_left _ _
  case active =>
    rw [hact, hs']
    rcases h.active with ha | ⟨init, x, hx, ha⟩
    · exact Or.inl ha
    · rw [hs] at hx
      cases init with
      | nil => exact Or.inl (hlast (List.cons.inj hx).2)
      | cons y ys => exact Or.inr ⟨ys, x, (List.cons.inj hx).2, ha⟩
  case cursor => exact hcur
  case named =>
    rw [hdisk, hnext]
    exact fun n hn => h.named n (removeFile_exists hn)

/-- Dropping the oldest of at least two segments. -/
theorem dropFront_spec (io : Io) (h : Represents s l) {g g' : Seg DecodedFrame}
    {rest : List (Seg DecodedFrame)} (hs : l.segs = g :: g' :: rest) :
    Represents (dropFront io s) l.dropFront ∧ Keeps s.disk (dropFront io s).disk l.dropFront ∧
      (dropFront io s).active = s.active ∧ (dropFront io s).nextSeq = s.nextSeq ∧
      (dropFront io s).nextBatchSeq = s.nextBatchSeq ∧ (dropFront io s).pendingAdvance = none := by
  have hsegs : s.segments = metaOf g :: metaOf g' :: rest.map metaOf := by
    rw [h.segments, hs, List.map_cons, List.map_cons]
  have hs' : l.dropFront.segs = g' :: rest := by rw [SegLog.segs_dropFront, hs, List.tail_cons]
  -- the cursor moves on if it was on the victim, and has nothing pending if it was not
  have hcur : CursorAt (dropFront io s) l.dropFront ∧ (dropFront io s).pendingAdvance = none := by
    rw [dropFront_eq hsegs]
    cases h.cursor with
    | off h1 h2 h3 h4 h5 =>
      have hne : s.readSeq ≠ (metaOf g).seq := fun e =>
        h1 g (by rw [hs]; exact List.mem_cons_self) e.symm
      simp only [if_neg hne]
      refine ⟨.off (fun x hx => h1 x ?_) rfl h3 h4 fun e => ?_, h3⟩
      · rw [hs, ← hs']
        exact List.mem_cons_of_mem g hx
      · have hnil := (h5 e).1
        rw [hs] at hnil
        cases hnil
    | front x r h1 h2 h3 h4 =>
      obtain rfl : g = x := by rw [hs] at h1; exact (List.cons.inj h1).1
      have he : s.readSeq = (metaOf g).seq := h2
      simp only [if_pos he]
      exact ⟨.front g' rest hs' rfl rfl (Or.inl rfl), trivial⟩
  obtain ⟨hr, hk⟩ := h.removeFront io hs (fun e => nomatch e)
    (by rw [dropFront_eq hsegs, List.map_cons]) (by rw [dropFront_eq hsegs, metaOf_bytes])
    (by rw [dropFront_eq hsegs, metaOf_path]) (by rw [dropFront_eq hsegs])
    (by rw [dropFront_eq hsegs]) hcur.1
  exact ⟨hr, hk, by rw [dropFront_eq hsegs], by rw [dropFront_eq hsegs], by rw [dropFront_eq hsegs],
    hcur.2⟩

/-- **Everything `enforce_cap` can do**: the first `n` segments go, never all of them, and a pending
advance is given up when one goes. -/
structure CapOutcome (s : Store) (l : FrameLog) (s' : Store) (n : Nat) : Prop where
  notAll : n = 0 ∨ n < l.segs.length
  store : Represents s' (l.dropSegs n)
  keeps : Keeps s.disk s'.disk (l.dropSegs n)
  active : s'.active = s.active
  nextSeq : s'.nextSeq = s.nextSeq
  nextBatchSeq : s'.nextBatchSeq = s.nextBatchSeq
  pending : n = 0 ∧ s'.pendingAdvance = s.pendingAdvance ∨ 0 < n ∧ s'.pendingAdvance = none

theorem CapOutcome.none (h : Represents s l) : CapOutcome s l s 0 :=
  ⟨Or.inl rfl, h, fun _ _ => Nat.le_refl _, rfl, rfl, rfl, Or.inl ⟨rfl, rfl⟩⟩

/-- One more victim before the others. -/
theorem CapOutcome.dropFront (h : Represents s l) {g g' : Seg DecodedFrame}
    {rest : List (Seg DecodedFrame)} (hs : l.segs = g :: g' :: rest) {s' : Store} {n : Nat}
    (o : CapOutcome (dropFront io s) l.dropFront s' n) : CapOutcome s l s' (n + 1) := by
  obtain ⟨-, hk, hact, hnext, hbatch, hnone⟩ := dropFront_spec io h hs
  refine ⟨Or.inr ?_, o.store, ?_, o.active.trans hact, o.nextSeq.trans hnext,
    o.nextBatchSeq.trans hbatch, Or.inr ⟨Nat.succ_pos n, ?_⟩⟩
  · have hn := o.notAll
    rw [SegLog.segs_dropFront, hs, List.tail_cons, List.length_cons] at hn
    rw [hs, List.length_cons, List.length_cons]
    omega
  · intro x hx
    refine Nat.le_trans (hk x ?_) (o.keeps x hx)
    rw [SegLog.dropSegs, SegLog.segs_dropSegs] at hx
    exact List.mem_of_mem_drop hx
  · rcases o.pending with ⟨-, e⟩ | ⟨-, e⟩
    · exact e.trans hnone
    · exact e

omit [Crc32] in
/-- What the guard of `enforce_cap` says about the shape of the list. -/
theorem exists_victim_front {α : Type} {xs : List α} (h : xs.length > 1) :
    ∃ victim front rest, xs = victim :: front :: rest := by
  obtain ⟨victim, tail, rfl⟩ := List.exists_cons_of_length_pos (Nat.lt_of_succ_lt h)
  obtain ⟨front, rest, rfl⟩ := List.exists_cons_of_length_pos (Nat.lt_of_succ_lt_succ h)
  exact ⟨victim, front, rest, rfl⟩

omit [Crc32] in
/-- What dropping the oldest of several segments keeps, `enforce_cap` keeps. -/
theorem enforceCapLoop_keeps {P : Store → Prop} (io : Io) (incoming fuel : Nat)
    (step : ∀ (s : Store) (victim front : SegmentMeta) (rest : List SegmentMeta),
      s.segments = victim :: front :: rest → P s → P (dropFront io s)) (h : P s) :
    P (enforceCapLoop io incoming fuel s) := by
  induction fuel generalizing s with
  | zero => exact h
  | succ fuel ih =>
    rw [enforceCapLoop]
    split
    · rename_i hover
      obtain ⟨victim, front, rest, hs⟩ := exists_victim_front hover.2
      exact ih (step s victim front rest hs h)
    · exact h

omit [Crc32] in
/-- What decides about a rotation, and the batch counter, `enforce_cap` leaves as it is. -/
theorem enforceCap_frame (io : Io) (s : Store) (incoming : Nat) :
    (enforceCap io s incoming).active = s.active ∧
      (enforceCap io s incoming).nextSeq = s.nextSeq ∧ (enforceCap io s incoming).cfg = s.cfg ∧
      (enforceCap io s incoming).nextBatchSeq = s.nextBatchSeq := by
  refine enforceCapLoop_keeps (P := fun c => c.active = s.active ∧ c.nextSeq = s.nextSeq ∧
    c.cfg = s.cfg ∧ c.nextBatchSeq = s.nextBatchSeq) io incoming _ ?_ ⟨rfl, rfl, rfl, rfl⟩
  intro c victim front rest hs h
  rw [dropFront_eq hs]
  exact h

theorem enforceCapLoop_spec (io : Io) (incoming fuel : Nat) (h : Represents s l) :
    ∃ n, CapOutcome s l (enforceCapLoop io incoming fuel s) n := by
  induction fuel generalizing s l with
  | zero => exact ⟨0, .none h⟩
  | succ fuel ih =>
    rw [enforceCapLoop]
    split
    · rename_i hbig
      have hlen := hbig.2
      rw [h.segments, List.length_map] at hlen
      obtain ⟨g, g', rest, hs⟩ := exists_victim_front hlen
      obtain ⟨n, o⟩ := ih (dropFront_spec io h hs).1
      exact ⟨n + 1, o.dropFront h hs⟩
    · exact ⟨0, .none h⟩

/-! ## Writing one frame -/

/-- The store `s` with the bytes `junk` written behind the last frame of its active segment `g`,
whose file was `file`, and the batch counter at `q`. -/
def tear (s : Store) (g : Seg DecodedFrame) (file : File UInt8) (junk : Bytes) (q : UInt64) :
    Store :=
  { s with
    nextBatchSeq := q
    active := some { activeOf g with
      file := ⟨segmentPath g.seq, segBytes g + junk.length⟩ }
    disk := s.disk.put (segmentPath g.seq) ⟨file.data ++ junk, file.synced⟩ }

theorem tear_nil {g : Seg DecodedFrame} {file : File UInt8} (ha : s.active = some (activeOf g))
    (hd : s.disk (segmentPath g.seq) = some file) (q : UInt64) :
    tear s g file [] q = { s with nextBatchSeq := q } := by
  have hdisk : s.disk.put (segmentPath g.seq) ⟨file.data ++ [], file.synced⟩ = s.disk :=
    Dir.put_eq_self (by rw [List.append_nil]; exact hd)
  have hact : (some { activeOf g with
      file := ⟨segmentPath g.seq, segBytes g + ([] : Bytes).length⟩ } : Option ActiveSegment) =
      s.active := ha.symm
  unfold tear
  rw [hdisk, hact]

/-- A write to the active file extends what is behind the last frame. -/
theorem writeActive_tear {g : Seg DecodedFrame} {file : File UInt8}
    (hlen : file.data.length = segBytes g) (hwf : file.WF) (junk bs : Bytes) (q : UInt64)
    (fault : Option Nat) :
    ∃ bs', writeActive (tear s g file junk q) fault bs =
      (tear s g file (junk ++ bs') q, fault.isNone) ∧ (fault = none → bs' = bs) := by
  have hwrite : ∀ bs' : Bytes,
      File.writeAt (segBytes g + junk.length) bs' ⟨file.data ++ junk, file.synced⟩ =
        ⟨file.data ++ (junk ++ bs'), file.synced⟩ := by
    intro bs'
    rw [← List.append_assoc]
    refine File.writeAt_end bs' (by rw [List.length_append, hlen]) ?_
    exact Nat.le_trans hwf (List.length_append ▸ Nat.le_add_right _ _)
  have hstep : ∀ bs' : Bytes,
      { tear s g file junk q with
        active := some { activeOf g with
          file := ⟨segmentPath g.seq, segBytes g + junk.length + bs'.length⟩ }
        disk := (tear s g file junk q).disk.modify (segmentPath g.seq)
          (File.writeAt (segBytes g + junk.length) bs') } = tear s g file (junk ++ bs') q := by
    intro bs'
    unfold tear
    simp only [Dir.modify_put, hwrite, List.length_append, Nat.add_assoc]
  cases fault with
  | none => exact ⟨bs, congrArg (·, true) (hstep bs), fun _ => rfl⟩
  | some k =>
    exact ⟨bs.take k, congrArg (·, false) (hstep (bs.take k)), fun h => absurd h (by simp)⟩

/-- Cutting the active file back after a failed append gives the store before it. -/
theorem recoverActiveAfterError_tear {g : Seg DecodedFrame} {file : File UInt8}
    (ha : s.active = some (activeOf g)) (hd : s.disk (segmentPath g.seq) = some file)
    (hlen : file.data.length = segBytes g) (hwf : file.WF) (repairs : io.Repairs) (junk : Bytes)
    (q : UInt64) (m : WalMetrics) :
    recoverActiveAfterError io { tear s g file junk q with metrics := m } =
      { s with nextBatchSeq := q, metrics := m } := by
  have hcut : (tear s g file junk q).disk.modify (segmentPath g.seq) (File.setLen (segBytes g)) =
      s.disk := by
    unfold tear
    rw [Dir.modify_put, File.setLen_append junk hlen hwf]
    exact Dir.put_eq_self hd
  have hactive : recoverActiveAfterError io { tear s g file junk q with metrics := m } = { s with
      nextBatchSeq := q
      metrics := m
      active := some (activeOf g)
      disk := (tear s g file junk q).disk.modify (segmentPath g.seq) (File.setLen (segBytes g)) } := by
    unfold recoverActiveAfterError tear
    simp only [repairs.1, repairs.2, if_true]
    rfl
  rw [hactive, hcut, ← ha]

/-- Boundaries inside a segment do not move when a frame is appended. -/
theorem boundary_snoc (g : Seg DecodedFrame) (f : DecodedFrame) {k : Nat}
    (h : k ≤ g.items.length) : boundary { g with items := g.items ++ [f] } k = boundary g k := by
  unfold boundary
  rw [List.take_append_of_le_length h]

theorem segBytes_snoc (g : Seg DecodedFrame) (f : DecodedFrame) :
    segBytes { g with items := g.items ++ [f] } = segBytes g + frameLenOnDisk f.payload.length := by
  unfold segBytes
  rw [encodeFrames_append, List.length_append, encodeFrames_cons, encodeFrames_nil, List.append_nil,
    length_encodeFrame, Nat.add_assoc]

theorem active_accountFrame (s : Store) (g : Seg DecodedFrame) (file : File UInt8)
    (f : DecodedFrame) (q : UInt64) :
    (accountFrame (tear s g file (encodeFrame f) q) (frameLenOnDisk f.payload.length)).active =
      some (activeOf { g with items := g.items ++ [f] }) := by
  show some (ActiveSegment.mk g.seq ⟨segmentPath g.seq, segBytes g + (encodeFrame f).length⟩
    (segBytes g + frameLenOnDisk f.payload.length)) = _
  unfold activeOf
  rw [segBytes_snoc, length_encodeFrame]

/-- A frame at the end of the log leaves the read cursor where it was. -/
theorem CursorAt.snoc (h : CursorAt s l) {init : List (Seg DecodedFrame)} {g : Seg DecodedFrame}
    (hs : l.segs = init ++ [g]) (f : DecodedFrame) : CursorAt s (l.snoc f) := by
  have hs' := SegLog.segs_snoc hs f
  cases h with
  | off h1 h2 h3 h4 h5 =>
    refine .off (fun x hx => ?_) h2 h3 h4 fun e => ?_
    · rcases (SegLog.mem_segs_snoc hs).mp hx with hx | rfl
      · exact h1 x (SegLog.mem_init hs hx)
      · exact h1 g (SegLog.mem_back hs)
    · have := (h5 e).1
      rw [hs] at this
      simp at this
  | front x rest h1 h2 h3 h4 =>
    cases init with
    | nil =>
      -- the segment being read is the one that grows
      obtain ⟨rfl, rfl⟩ : x = g ∧ rest = [] := by
        rw [hs] at h1
        exact ⟨(List.cons.inj h1).1.symm, (List.cons.inj h1).2.symm⟩
      have hc : l.consumed ≤ x.items.length := SegLog.consumed_le_of_cons h1
      refine .front _ [] hs' h2 (h3.trans (boundary_snoc x f hc).symm) ?_
      rcases h4 with h4 | ⟨hlt, h4⟩
      · exact Or.inl h4
      · refine Or.inr ⟨?_, h4.trans (congrArg some (boundary_snoc x f hlt).symm)⟩
        show l.consumed < (x.items ++ [f]).length
        rw [List.length_append]
        omega
    | cons y ys =>
      obtain rfl : x = y := by
        rw [hs, List.cons_append] at h1
        exact (List.cons.inj h1).1.symm
      exact .front x _ hs' h2 h3 h4

/-- Both writes done and accounted for: the frame is at the end of the log. -/
theorem accountFrame_spec (h : Represents s l) {init : List (Seg DecodedFrame)}
    {g : Seg DecodedFrame} (hs : l.segs = init ++ [g]) {file : File UInt8}
    (hd : s.disk (segmentPath g.seq) = some file) (f : DecodedFrame) (hf : ValidPayload f.payload)
    (q : UInt64) :
    Represents (accountFrame (tear s g file (encodeFrame f) q) (frameLenOnDisk f.payload.length))
      (l.snoc f) := by
  have hs' := SegLog.segs_snoc hs f
  have hg : g ∈ l.segs := SegLog.mem_back hs
  constructor
  case segments =>
    show updateBack _ s.segments = _
    rw [h.segments, hs, hs', List.map_append, List.map_append, List.map_singleton,
      List.map_singleton, updateBack_concat]
    congr 2
    unfold metaOf
    rw [segBytes_snoc, List.length_append, List.length_singleton]
  case files =>
    intro x hx
    rcases (SegLog.mem_segs_snoc hs).mp hx with hx | rfl
    · exact (h.files x (SegLog.mem_init hs hx)).congr
        (Dir.put_ne _ _ (segmentPath_ne (h.lt_back hs hx)))
    · obtain ⟨file', hdr, hd', hdata, hlen, hval, hwf⟩ := (h.files g hg).file
      obtain rfl : file = file' := Option.some.inj (hd.symm.trans hd')
      refine ⟨_, hdr, Dir.put_self _ _ _, ?_, hlen, hval, ?_⟩
      · show file.data ++ encodeFrame f = _
        rw [hdata, encodeFrames_append, encodeFrames_cons, encodeFrames_nil, List.append_nil,
          List.append_assoc]
      · show file.synced ≤ _
        rw [List.length_append]
        exact Nat.le_add_right_of_le hwf
  case valid =>
    intro x hx
    rcases (SegLog.mem_segs_snoc hs).mp hx with hx | rfl
    · exact h.valid x (SegLog.mem_init hs hx)
    · intro f' hf'
      rcases List.mem_append.mp hf' with hf' | hf'
      · exact h.valid g hg f' hf'
      · rw [List.mem_singleton.mp hf']
        exact hf
  case sorted =>
    have hp := h.sorted
    rw [hs] at hp
    rw [hs']
    exact SegLog.sorted_back hp rfl
  case below =>
    intro x hx
    rcases (SegLog.mem_segs_snoc hs).mp hx with hx | rfl
    · exact h.below x (SegLog.mem_init hs hx)
    · exact h.below g hg
  case fits => exact h.fits
  case total =>
    show s.totalBytes + frameLenOnDisk f.payload.length = _
    rw [h.total, hs, hs', List.map_append, List.map_append, List.sum_append, List.sum_append,
      List.map_singleton, List.map_singleton, List.sum_singleton, List.sum_singleton,
      segBytes_snoc, Nat.add_assoc]
  case active => exact Or.inr ⟨init, _, hs', active_accountFrame s g file f q⟩
  case cursor =>
    cases h.cursor.snoc hs f with
    | off h1 h2 h3 h4 h5 => exact .off h1 h2 h3 h4 h5
    | front x rest h1 h2 h3 h4 => exact .front x rest h1 h2 h3 h4
  case named =>
    intro n hn
    by_cases he : n = segmentPath g.seq
    · exact ⟨g.seq, h.below g hg, he⟩
    · refine h.named n ?_
      rw [← Dir.put_ne s.disk ⟨file.data ++ encodeFrame f, file.synced⟩ he]
      exact hn

theorem writeFrame_header_err {s₁ : Store} {payload : Bytes}
    (e : writeActive { s with nextBatchSeq := s.nextBatchSeq + 1 } io.writeFrameHeader
      (encodeFrameHeader payload s.nextBatchSeq) = (s₁, false)) :
    writeFrame io s payload = (s₁, false) := by
  unfold writeFrame
  simp only [e]

theorem writeFrame_payload {s₁ s₂ : Store} {payload : Bytes} {ok : Bool}
    (e₁ : writeActive { s with nextBatchSeq := s.nextBatchSeq + 1 } io.writeFrameHeader
      (encodeFrameHeader payload s.nextBatchSeq) = (s₁, true))
    (e₂ : writeActive s₁ io.writePayload payload = (s₂, ok)) :
    writeFrame io s payload =
      (if ok then accountFrame s₂ (frameLenOnDisk payload.length) else s₂, ok) := by
  unfold writeFrame
  simp only [e₁, e₂]
  cases ok <;> rfl

/-- **Writing a frame to an active segment with room**: the frame is at the end of the log, or what
was written is cut off again by `recover_active_after_error`. -/
theorem writeFrame_spec (io : Io) (h : Represents s l) {init : List (Seg DecodedFrame)}
    {g : Seg DecodedFrame} (hs : l.segs = init ++ [g]) (ha : s.active = some (activeOf g))
    (repairs : io.Repairs) {payload : Bytes} (hp : ValidPayload payload) :
    (∃ s', writeFrame io s payload = (s', true) ∧
      Represents s' (l.snoc ⟨s.nextBatchSeq, payload⟩) ∧
      Keeps s.disk s'.disk (l.snoc ⟨s.nextBatchSeq, payload⟩) ∧ s'.active ≠ none ∧
      s'.pendingAdvance = s.pendingAdvance) ∨
    ∃ s', writeFrame io s payload = (s', false) ∧ ∀ m, recoverActiveAfterError io
      { s' with metrics := m } = { s with nextBatchSeq := s.nextBatchSeq + 1, metrics := m } := by
  have hg : g ∈ l.segs := SegLog.mem_back hs
  obtain ⟨file, hd, hl, hwf⟩ := (h.files g hg).length
  have hrec := recoverActiveAfterError_tear ha hd hl hwf repairs
  obtain ⟨bs₁, e₁, hb₁⟩ := writeActive_tear (s := s) hl hwf []
    (encodeFrameHeader payload s.nextBatchSeq) (s.nextBatchSeq + 1) io.writeFrameHeader
  rw [tear_nil ha hd, List.nil_append] at e₁
  obtain ⟨bs₂, e₂, hb₂⟩ := writeActive_tear (s := s) hl hwf bs₁ payload (s.nextBatchSeq + 1)
    io.writePayload
  cases hw₁ : io.writeFrameHeader with
  | some k =>
    rw [hw₁, Option.isNone_some, ← hw₁] at e₁
    exact Or.inr ⟨_, writeFrame_header_err e₁, fun m => hrec bs₁ _ m⟩
  | none =>
    rw [hw₁, Option.isNone_none, ← hw₁] at e₁
    rw [writeFrame_payload e₁ e₂]
    cases hw₂ : io.writePayload with
    | some k => exact Or.inr ⟨_, rfl, fun m => hrec (bs₁ ++ bs₂) _ m⟩
    | none =>
      rw [hb₁ hw₁, hb₂ hw₂]
      have hput : ∀ x : Seg DecodedFrame, x ∈ init →
          durableLen (s.disk.put (segmentPath g.seq)
            ⟨file.data ++ encodeFrame ⟨s.nextBatchSeq, payload⟩, file.synced⟩) x.seq =
          durableLen s.disk x.seq := by
        intro x hx
        exact durableLen_congr (Dir.put_ne _ _ (segmentPath_ne (h.lt_back hs hx)))
      refine Or.inl ⟨_, rfl, accountFrame_spec h hs hd ⟨s.nextBatchSeq, payload⟩ hp _, ?_,
        Option.some_ne_none _, rfl⟩
      intro x hx
      rcases (SegLog.mem_segs_snoc hs).mp hx with hx | rfl
      · exact Nat.le_of_eq (hput x hx).symm
      · show durableLen s.disk g.seq ≤ durableLen (s.disk.put _ _) g.seq
        unfold durableLen
        rw [Dir.put_self, hd]
        exact Nat.le_refl _

/-! ## `append_one` -/

/-- The log `append` writes to: after a rotation it has a new segment. -/
def openedLog (l : FrameLog) (seq : Nat) (rotates : Bool) : FrameLog :=
  if rotates then l.push seq else l

/-- The log after an append of `f`, `ok` saying whether it succeeded. -/
def appendedLog (l : FrameLog) (seq : Nat) (rotates ok : Bool) (f : DecodedFrame) : FrameLog :=
  if ok then (openedLog l seq rotates).snoc f else openedLog l seq rotates

omit [Crc32] in
theorem recoverActiveAfterError_none (h : s.active = none) : recoverActiveAfterError io s = s := by
  unfold recoverActiveAfterError
  rw [h]

/-- **`enforce_cap`**: some oldest segments go, never the last one. -/
theorem enforceCap_spec (io : Io) (h : Represents s l) (incoming : Nat) :
    ∃ n, CapOutcome s l (enforceCap io s incoming) n :=
  enforceCapLoop_spec io incoming _ h

/-- `append_one` after `append` returned: a failed one is repaired. -/
def repaired (io : Io) (r : Store × Bool) : Store × Bool :=
  match r with
  | (s, true) => (s, true)
  | (s, false) =>
    (recoverActiveAfterError io
      { s with metrics := { s.metrics with writeErrors := s.metrics.writeErrors + 1 } }, false)

theorem appendOne_eq (io : Io) (s : Store) (payload : Bytes) :
    appendOne io s payload = repaired io (append io s payload) := rfl

omit [Crc32] in
theorem ensureActiveWithRoom_stay (io : Io) {size : Nat} (h : needsRotate s size = false) :
    ensureActiveWithRoom io s size = (s, true) := by
  unfold ensureActiveWithRoom
  rw [h]
  rfl

omit [Crc32] in
theorem ensureActiveWithRoom_rotate (io : Io) {size : Nat} (h : needsRotate s size = true) :
    ensureActiveWithRoom io s size = rotate io s := by
  unfold ensureActiveWithRoom
  rw [h]
  rfl

/-- `append` once there is room. -/
theorem append_room {s₁ : Store} {payload : Bytes}
    (e : ensureActiveWithRoom io (enforceCap io s (frameLenOnDisk payload.length))
      (frameLenOnDisk payload.length) = (s₁, true)) :
    append io s payload = writeFrame io s₁ payload := by
  unfold append
  simp only [e]

theorem append_no_room {s₁ : Store} {payload : Bytes}
    (e : ensureActiveWithRoom io (enforceCap io s (frameLenOnDisk payload.length))
      (frameLenOnDisk payload.length) = (s₁, false)) : append io s payload = (s₁, false) := by
  unfold append
  simp only [e]

/-- The write to an active segment, repaired when it failed. -/
theorem repaired_writeFrame (io : Io) (h : Represents s l) {init : List (Seg DecodedFrame)}
    {g : Seg DecodedFrame} (hs : l.segs = init ++ [g]) (ha : s.active = some (activeOf g))
    (repairs : io.Repairs) {payload : Bytes} (hp : ValidPayload payload) :
    Represents (repaired io (writeFrame io s payload)).1
        (if (repaired io (writeFrame io s payload)).2 then l.snoc ⟨s.nextBatchSeq, payload⟩ else l) ∧
      Keeps s.disk (repaired io (writeFrame io s payload)).1.disk
        (if (repaired io (writeFrame io s payload)).2 then l.snoc ⟨s.nextBatchSeq, payload⟩ else l) ∧
      (repaired io (writeFrame io s payload)).1.active ≠ none ∧
      (repaired io (writeFrame io s payload)).1.pendingAdvance = s.pendingAdvance := by
  rcases writeFrame_spec io h hs ha repairs hp with ⟨s', e, hr, hk, hn, hpend⟩ | ⟨s', e, hrec⟩
  · rw [e]
    exact ⟨hr, hk, hn, hpend⟩
  · rw [e]
    simp only [repaired, hrec, Bool.false_eq_true, if_false]
    refine ⟨?_, fun _ _ => Nat.le_refl _, by rw [ha]; exact Option.some_ne_none _, trivial⟩
    exact h.congr rfl rfl rfl rfl rfl rfl rfl h.files fun _ hn => hn

/-- Everything one `append_one` can do: `n` oldest segments dropped by `enforce_cap`, a rotation or
not, and the frame at the end of the log when it returns `Ok`. -/
structure AppendOutcome (io : Io) (s : Store) (l : FrameLog) (payload : Bytes) (n : Nat)
    (rotates : Bool) : Prop where
  drops : n = 0 ∨ n < l.segs.length
  capped : Represents (enforceCap io s (frameLenOnDisk payload.length)) (l.dropSegs n)
  store : Represents (appendOne io s payload).1
    (appendedLog (l.dropSegs n) s.nextSeq rotates (appendOne io s payload).2
      ⟨s.nextBatchSeq, payload⟩)
  keeps : Keeps s.disk (appendOne io s payload).1.disk
    (appendedLog (l.dropSegs n) s.nextSeq rotates (appendOne io s payload).2
      ⟨s.nextBatchSeq, payload⟩)
  rotation : rotates = true → needsRotate (enforceCap io s (frameLenOnDisk payload.length))
    (frameLenOnDisk payload.length) = true
  active : (appendOne io s payload).1.active = none ↔
    needsRotate (enforceCap io s (frameLenOnDisk payload.length))
      (frameLenOnDisk payload.length) = true ∧ rotates = false
  pending : n = 0 ∧ (appendOne io s payload).1.pendingAdvance = s.pendingAdvance ∨
    0 < n ∧ (appendOne io s payload).1.pendingAdvance = none
  ok_active : (appendOne io s payload).2 = true → (appendOne io s payload).1.active ≠ none

omit [Crc32] in
/-- An appended item goes to a segment that was there. -/
theorem seqs_snoc {l : FrameLog} {init : List (Seg DecodedFrame)} {g : Seg DecodedFrame}
    (hs : l.segs = init ++ [g]) (f : DecodedFrame) :
    ∀ x ∈ (l.snoc f).segs, ∃ y ∈ l.segs, y.seq = x.seq := by
  intro x hx
  rcases (SegLog.mem_segs_snoc hs).mp hx with hx | rfl
  · exact ⟨x, SegLog.mem_init hs hx, rfl⟩
  · exact ⟨g, SegLog.mem_back hs, rfl⟩

/-- Appending to the active segment of the capped store, opened by a rotation or not. -/
theorem appendOne_open (rotates : Bool) {s₁ s₂ : Store} {payload : Bytes}
    {n : Nat} (repairs : io.Repairs) (hp : ValidPayload payload)
    (hs₁ : enforceCap io s (frameLenOnDisk payload.length) = s₁)
    (he : ensureActiveWithRoom io s₁ (frameLenOnDisk payload.length) = (s₂, true))
    (hr : Represents s₂ (openedLog (l.dropSegs n) s.nextSeq rotates))
    (hq : s₂.nextBatchSeq = s.nextBatchSeq) (ha : s₂.active ≠ none)
    (hk : Keeps s.disk s₂.disk (openedLog (l.dropSegs n) s.nextSeq rotates)) :
    Represents (appendOne io s payload).1 (appendedLog (l.dropSegs n) s.nextSeq rotates
        (appendOne io s payload).2 ⟨s.nextBatchSeq, payload⟩) ∧
      Keeps s.disk (appendOne io s payload).1.disk (appendedLog (l.dropSegs n) s.nextSeq rotates
        (appendOne io s payload).2 ⟨s.nextBatchSeq, payload⟩) ∧
      (appendOne io s payload).1.active ≠ none ∧
      (appendOne io s payload).1.pendingAdvance = s₂.pendingAdvance := by
  have e : appendOne io s payload = repaired io (writeFrame io s₂ payload) := by
    rw [appendOne_eq, append_room (by rw [hs₁, he])]
  obtain hn | ⟨init, g, hs, hact⟩ := hr.active
  · exact absurd hn ha
  obtain ⟨h1, h2, h3, h4⟩ := repaired_writeFrame io hr hs hact repairs hp
  rw [e]
  rw [hq] at h1 h2
  refine ⟨h1, Keeps.trans ?_ h2, h3, h4⟩
  unfold appendedLog
  split
  · exact hk.of_seqs (seqs_snoc hs _)
  · exact hk

/-- **`append_one`**, over every outcome of its I/O calls, the repair succeeding and a segment number
being left. -/
theorem appendOne_spec (io : Io) (h : Represents s l) (repairs : io.Repairs)
    (number : NumbersLeft s) {payload : Bytes} (hp : ValidPayload payload) :
    ∃ n rotates, AppendOutcome io s l payload n rotates := by
  obtain ⟨n, ⟨hn, hc, hk, hact, hseq, hq, hpend⟩⟩ :=
    enforceCap_spec io h (frameLenOnDisk payload.length)
  generalize hs₁ : enforceCap io s (frameLenOnDisk payload.length) = s₁ at hc hk hact hseq hq hpend
  cases hrot : needsRotate s₁ (frameLenOnDisk payload.length) with
  | false =>
    have he := ensureActiveWithRoom_stay io hrot
    have ha : s₁.active ≠ none := by
      intro hnone
      unfold needsRotate at hrot
      rw [hnone] at hrot
      cases hrot
    obtain ⟨h1, h2, h3, h4⟩ := appendOne_open false repairs hp hs₁ he hc hq ha hk
    exact ⟨n, false, hn, hs₁ ▸ hc, h1, h2, fun e => absurd e (by simp),
      ⟨fun e => absurd e h3, fun e => by rw [hs₁, hrot] at e; exact absurd e.1 (by simp)⟩,
      h4 ▸ hpend, fun _ => h3⟩
  | true =>
    have he := ensureActiveWithRoom_rotate io hrot
    rcases rotate_spec io hc (hseq.trans_lt number) with ⟨e, hr, hkr⟩ | ⟨s', e, hr, hnone, hps, hkr⟩
    · rw [e] at he
      rw [hseq] at hr hkr
      have hkopen : Keeps s.disk s₁.disk ((l.dropSegs n).push s.nextSeq) := by
        intro g hg
        rcases SegLog.mem_segs_push.mp hg with hg | rfl
        · exact hk g hg
        · unfold durableLen
          rw [h.nextSeq_free]
          exact Nat.zero_le _
      obtain ⟨h1, h2, h3, h4⟩ := appendOne_open true repairs hp hs₁ he hr hq
        (Option.some_ne_none _) (hkopen.trans hkr)
      exact ⟨n, true, hn, hs₁ ▸ hc, h1, h2, fun _ => hs₁ ▸ hrot,
        ⟨fun e => absurd e h3, fun e => absurd e.2 (by simp)⟩, h4 ▸ hpend, fun _ => h3⟩
    · have hone : appendOne io s payload =
          ({ s' with metrics := { s'.metrics with writeErrors := s'.metrics.writeErrors + 1 } },
            false) := by
        rw [appendOne_eq, append_no_room (by rw [hs₁, he, e])]
        exact congrArg (·, false) (recoverActiveAfterError_none hnone)
      refine ⟨n, false, hn, hs₁ ▸ hc, ?_, ?_, fun e => absurd e (by simp), ?_, ?_, ?_⟩
      · rw [hone]
        exact hr.congr rfl rfl rfl rfl rfl rfl rfl hr.files fun _ hn => hn
      · rw [hone]
        exact hk.trans hkr
      · rw [hone]
        exact ⟨fun _ => ⟨hs₁ ▸ hrot, rfl⟩, fun _ => hnone⟩
      · rw [hone]
        exact hps ▸ hpend
      · rw [hone]
        exact fun e => absurd e (by simp)

omit [Crc32] in
theorem ahead_openedLog (l : FrameLog) (seq : Nat) (rotates : Bool) :
    (openedLog l seq rotates).ahead = l.ahead := by
  unfold openedLog
  split
  · exact l.ahead_push seq
  · rfl

/-- **What is ahead after an `append_one`**: what the cap left, and the frame when it succeeded. -/
theorem AppendOutcome.ahead {payload : Bytes} {n : Nat} {rotates : Bool}
    (o : AppendOutcome io s l payload n rotates) :
    (appendedLog (l.dropSegs n) s.nextSeq rotates (appendOne io s payload).2
      ⟨s.nextBatchSeq, payload⟩).ahead =
    (l.dropSegs n).ahead ++
      if (appendOne io s payload).2 then [⟨s.nextBatchSeq, payload⟩] else [] := by
  have hst := o.store
  have hok := o.ok_active
  unfold appendedLog at hst ⊢
  cases hb : (appendOne io s payload).2 with
  | false => simp [ahead_openedLog]
  | true =>
    simp only [hb, if_true] at hst ⊢
    rcases List.eq_nil_or_concat' (openedLog (l.dropSegs n) s.nextSeq rotates).segs with
      hnil | ⟨init, g, hs⟩
    · -- an active segment needs a segment
      rcases hst.active with ha | ⟨init, g, hs, -⟩
      · exact absurd ha (hok hb)
      · have he : (openedLog (l.dropSegs n) s.nextSeq rotates).segs = [] := hnil
        have : updateBack (fun g : Seg DecodedFrame =>
            { g with items := g.items ++ [⟨s.nextBatchSeq, payload⟩] })
            (openedLog (l.dropSegs n) s.nextSeq rotates).segs = init ++ [g] := hs
        rw [he] at this
        exact absurd this (by simp [updateBack])
    · rw [SegLog.ahead_snoc hs, ahead_openedLog]

omit [Crc32] in
/-- A successful `append` is what `append_one` returns. -/
theorem appendOne_of_append [Crc32] {payload : Bytes} {s' : Store}
    (h : append io s payload = (s', true)) : appendOne io s payload = (s', true) := by
  rw [appendOne_eq, h]
  rfl

/-! ## What an append leaves alone -/

/-- What the two writes and the bookkeeping leave alone, writing a frame leaves alone. -/
theorem writeFrame_preserves {β : Type} (f : Store → β) (io : Io) (s : Store) (payload : Bytes)
    (hseq : ∀ s q, f { s with nextBatchSeq := q } = f s)
    (hwrite : ∀ s fault bs, f (writeActive s fault bs).1 = f s)
    (haccount : ∀ s size, f (accountFrame s size) = f s) :
    f (writeFrame io s payload).1 = f s := by
  unfold writeFrame
  simp only
  have h₁ := (hwrite { s with nextBatchSeq := s.nextBatchSeq + 1 } io.writeFrameHeader
    (encodeFrameHeader payload s.nextBatchSeq)).trans (hseq s _)
  split
  · rename_i s₁ e
    rw [e] at h₁
    exact h₁
  · rename_i s₁ e
    rw [e] at h₁
    have h₂ := hwrite s₁ io.writePayload payload
    split
    · rename_i s₂ e₂
      rw [e₂] at h₂
      exact h₂.trans h₁
    · rename_i s₂ e₂
      rw [e₂] at h₂
      exact (haccount s₂ _).trans (h₂.trans h₁)

/-- What a rotation, the writes and the repair leave alone, an append leaves as the cap left it. -/
theorem appendOne_preserves {β : Type} (f : Store → β) (io : Io) (s : Store) (payload : Bytes)
    (hseq : ∀ s q, f { s with nextBatchSeq := q } = f s)
    (hwrite : ∀ s fault bs, f (writeActive s fault bs).1 = f s)
    (haccount : ∀ s size, f (accountFrame s size) = f s)
    (hrotate : ∀ s, f (rotate io s).1 = f s)
    (hrepair : ∀ r, f (repaired io r).1 = f r.1) :
    f (appendOne io s payload).1 = f (enforceCap io s (frameLenOnDisk payload.length)) := by
  have hopen : f (ensureActiveWithRoom io (enforceCap io s (frameLenOnDisk payload.length))
      (frameLenOnDisk payload.length)).1 =
      f (enforceCap io s (frameLenOnDisk payload.length)) := by
    unfold ensureActiveWithRoom
    split
    · exact hrotate _
    · rfl
  rw [appendOne_eq, hrepair]
  unfold append
  simp only
  split
  · rename_i s₁ e
    rw [e] at hopen
    exact hopen
  · rename_i s₁ e
    rw [e] at hopen
    exact (writeFrame_preserves f io s₁ payload hseq hwrite haccount).trans hopen

/-- The configuration and the read cursor. -/
def readerOf (s : Store) : WalConfig × Nat × Nat × Option Nat :=
  (s.cfg, s.readSeq, s.readOffset, s.pendingAdvance)

theorem readerOf_appendOne (io : Io) (s : Store) (payload : Bytes) :
    readerOf (appendOne io s payload).1 =
      readerOf (enforceCap io s (frameLenOnDisk payload.length)) := by
  refine appendOne_preserves readerOf io s payload (fun _ _ => rfl) (fun s fault bs => ?_)
    (fun _ _ => rfl) (fun s => ?_) fun r => ?_
  · unfold writeActive
    split <;> rfl
  · rcases rotate_cases io s with e | e | ⟨k, e⟩ | e <;> rw [e] <;> rfl
  · obtain ⟨s, ok⟩ := r
    cases ok with
    | true => rfl
    | false =>
      unfold repaired recoverActiveAfterError
      simp only
      split <;> rfl

omit [Crc32] in
/-- The cap moves the cursor only off a segment it drops, and nothing is pending then. -/
theorem readerOf_enforceCap (io : Io) (s : Store) (incoming : Nat) :
    (enforceCap io s incoming).cfg = s.cfg ∧
    ((enforceCap io s incoming).pendingAdvance = none ∨
      readerOf (enforceCap io s incoming) = readerOf s) := by
  refine enforceCapLoop_keeps
    (P := fun t => t.cfg = s.cfg ∧ (t.pendingAdvance = none ∨ readerOf t = readerOf s))
    io incoming _ (fun t victim front rest hs h => ?_) ⟨rfl, .inr rfl⟩
  rw [dropFront_eq hs]
  refine ⟨h.1, ?_⟩
  by_cases hcur : t.readSeq = victim.seq
  · exact .inl (if_pos hcur)
  · simp only [readerOf, if_neg hcur] at h ⊢
    exact h.2

/-! ## Segment numbers go up -/

omit [Crc32] in
theorem nextSeq_writeActive (s : Store) (fault : Option Nat) (bs : Bytes) :
    (writeActive s fault bs).1.nextSeq = s.nextSeq := by
  unfold writeActive
  split <;> rfl

theorem nextSeq_writeFrame (io : Io) (s : Store) (payload : Bytes) :
    (writeFrame io s payload).1.nextSeq = s.nextSeq :=
  writeFrame_preserves (fun s => s.nextSeq) io s payload (fun _ _ => rfl) nextSeq_writeActive
    fun _ _ => rfl

omit [Crc32] in
theorem nextSeq_repaired (r : Store × Bool) : (repaired io r).1.nextSeq = r.1.nextSeq := by
  obtain ⟨s, ok⟩ := r
  cases ok with
  | true => rfl
  | false =>
    unfold repaired recoverActiveAfterError
    simp only
    split <;> rfl

theorem nextSeq_le_ensureActive (io : Io) (number : NumbersLeft s) (size : Nat) :
    s.nextSeq ≤ (ensureActiveWithRoom io s size).1.nextSeq := by
  unfold ensureActiveWithRoom
  split
  · rcases rotate_cases io s with e | e | ⟨k, e⟩ | e
    · rw [e]
      exact Nat.le_refl _
    all_goals
      rw [e]
      exact (lt_u64Succ number).le
  · exact Nat.le_refl _

theorem nextSeq_le_appendOne (io : Io) (h : Represents s l) (number : NumbersLeft s)
    (payload : Bytes) :
    s.nextSeq ≤ (appendOne io s payload).1.nextSeq := by
  obtain ⟨n, o⟩ := enforceCap_spec io h (frameLenOnDisk payload.length)
  have hopen := nextSeq_le_ensureActive (s := enforceCap io s (frameLenOnDisk payload.length)) io
    (o.nextSeq.trans_lt number) (frameLenOnDisk payload.length)
  rw [o.nextSeq] at hopen
  rw [appendOne_eq, nextSeq_repaired]
  unfold append
  simp only
  split
  · rename_i s₁ e
    rw [e] at hopen
    exact hopen
  · rename_i s₁ e
    rw [e] at hopen
    rw [nextSeq_writeFrame]
    exact hopen

theorem ensureActive_nextSeq_le (io : Io) (s : Store) (size : Nat) :
    (ensureActiveWithRoom io s size).1.nextSeq ≤ s.nextSeq + 1 := by
  unfold ensureActiveWithRoom
  split
  · rcases rotate_cases io s with e | e | ⟨k, e⟩ | e
    · rw [e]
      exact Nat.le_succ _
    all_goals
      rw [e]
      exact Nat.mod_le _ _
  · exact Nat.le_succ _

/-- An `append` takes one segment number at most. -/
theorem append_nextSeq_le (io : Io) (s : Store) (payload : Bytes) :
    (append io s payload).1.nextSeq ≤ s.nextSeq + 1 := by
  obtain ⟨-, hcap, -⟩ := enforceCap_frame io s (frameLenOnDisk payload.length)
  have hopen := ensureActive_nextSeq_le io (enforceCap io s (frameLenOnDisk payload.length))
    (frameLenOnDisk payload.length)
  rw [hcap] at hopen
  unfold append
  simp only
  split
  · rename_i s₁ e
    rw [e] at hopen
    exact hopen
  · rename_i s₁ e
    rw [e] at hopen
    rw [nextSeq_writeFrame]
    exact hopen

end Statix.Wal
