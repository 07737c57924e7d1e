import Mathlib.Logic.Relation
import Statix.Wal.Reading

/-!
# The store is a first-in first-out queue

What a store has still to deliver, read off its own cursor and files (`aheadOf`), and runs of
`append`, `peek_next` and `commit_pending` in any order, with a record of what went in, what was
committed and what the cap dropped.

* `aheadOf_eq`: the frames on disk behind the cursor are those ahead in the represented log.
* `droppedBy_eq`: the unread frames of the segments an operation removed.
* `drain_eq`: `peek_next` and `commit_pending` in turn give the frames ahead, in order.
* **`run_fates`**: the frames that went in are, in order, frames that were committed or dropped and
  then those still ahead.
* `append_succeeds`: without I/O failures `append` succeeds.
* `nextSeq_le_appended`: each append takes one segment number at most.

Out of scope: runs that use up the segment numbers (`NumbersLeft`).
-/

namespace Statix.Wal

open Statix.Lib

variable [Crc32] {s s' : Store} {l : FrameLog}

/-! ## What is still to be delivered -/

/-- The frames of a tracked segment that the cursor has not passed, decoded from its file. -/
def unread (s : Store) (m : SegmentMeta) : List DecodedFrame :=
  match s.disk m.path with
  | none => []
  | some file =>
    framesFrom file.data (if m.seq = s.readSeq then s.readOffset else segmentHeaderLen)

/-- The frames ahead of the read cursor, decoded from the tracked files. -/
def aheadOf (s : Store) : List DecodedFrame := s.segments.flatMap (unread s)

/-- The unread frames of the segments `s` tracks and `s'` does not. -/
def droppedBy (s s' : Store) : List DecodedFrame :=
  (s.segments.filter fun m => m ∉ s'.segments).flatMap (unread s)

/-- Behind the front segment nothing was read. -/
theorem unread_tail (h : Represents s l) {g : Seg DecodedFrame} (hg : g ∈ l.segs)
    (hne : g.seq ≠ s.readSeq) : unread s (metaOf g) = g.items := by
  obtain ⟨file, hd, hf⟩ := (h.files g hg).framesFrom (h.valid g hg) 0
  unfold unread
  rw [metaOf_path, hd]
  rw [boundary_zero, List.drop_zero] at hf
  show framesFrom file.data (if g.seq = s.readSeq then s.readOffset else segmentHeaderLen) = _
  rw [if_neg hne]
  exact hf

/-- Of the front segment the first `l.consumed` frames were read. -/
theorem unread_front (h : Represents s l) {g : Seg DecodedFrame} {rest : List (Seg DecodedFrame)}
    (hs : l.segs = g :: rest) : unread s (metaOf g) = g.items.drop l.consumed := by
  have hg : g ∈ l.segs := by rw [hs]; exact List.mem_cons_self
  cases h.cursor with
  | off h1 h2 _ _ _ => rw [unread_tail h hg (h1 g hg), h2, List.drop_zero]
  | front x r h1 h2 h3 _ =>
    obtain rfl : g = x := by rw [hs] at h1; exact (List.cons.inj h1).1
    obtain ⟨file, hd, hf⟩ := (h.files g hg).framesFrom (h.valid g hg) l.consumed
    unfold unread
    rw [metaOf_path, hd]
    show framesFrom file.data (if g.seq = s.readSeq then s.readOffset else segmentHeaderLen) = _
    rw [if_pos h2.symm, h3]
    exact hf

/-- The cursor is on the front segment, or on none. -/
theorem Represents.ne_readSeq (h : Represents s l) {g x : Seg DecodedFrame}
    {rest : List (Seg DecodedFrame)} (hs : l.segs = g :: rest) (hx : x ∈ rest) :
    x.seq ≠ s.readSeq := by
  intro e
  cases h.cursor with
  | off h1 _ _ _ _ => exact h1 x (by rw [hs]; exact List.mem_cons_of_mem _ hx) e
  | front y r h1 h2 _ _ =>
    have hy : g = y := by rw [hs] at h1; exact (List.cons.inj h1).1
    exact h.front_ne hs hx (by rw [e, h2, hy])

/-- The unread frames of the first segments. -/
theorem unread_take (h : Represents s l) (n : Nat) :
    ((l.segs.take n).map metaOf).flatMap (unread s) = l.lostBy n := by
  unfold SegLog.lostBy
  cases hs : l.segs with
  | nil => simp
  | cons g rest =>
    cases n with
    | zero => simp
    | succ n =>
      have hrest : ∀ x ∈ rest, unread s (metaOf x) = x.items := by
        intro x hx
        have hx' : x ∈ l.segs := by rw [hs]; exact List.mem_cons_of_mem _ hx
        exact unread_tail h hx' (h.ne_readSeq hs hx)
      have htail : ((rest.take n).map metaOf).flatMap (unread s) =
          (rest.take n).flatMap Seg.items := by
        rw [List.flatMap_map]
        exact List.flatMap_congr fun x hx => hrest x (List.mem_of_mem_take hx)
      rw [List.take_succ_cons, List.map_cons, List.flatMap_cons, List.flatMap_cons, htail,
        unread_front h hs, List.drop_append_of_le_length (SegLog.consumed_le_of_cons hs)]

/-- **The frames on disk behind the cursor are those ahead in the log.** -/
theorem aheadOf_eq (h : Represents s l) : aheadOf s = l.ahead := by
  have e := unread_take h l.segs.length
  rw [List.take_length, ← h.segments] at e
  unfold aheadOf
  rw [e]
  unfold SegLog.lostBy SegLog.ahead SegLog.all
  rw [List.take_length]

/-- **Removing the first `n` segments drops the unread frames in them.** -/
theorem droppedBy_eq (h : Represents s l) {n : Nat} (h' : Represents s' (l.dropSegs n)) :
    droppedBy s s' = l.lostBy n := by
  have hsplit : s.segments = (l.segs.take n).map metaOf ++ (l.segs.drop n).map metaOf := by
    rw [← List.map_append, List.take_append_drop, h.segments]
  have hs' : s'.segments = (l.segs.drop n).map metaOf := by
    rw [h'.segments, SegLog.segs_dropSegs]
  have hp := h.sorted
  rw [← List.take_append_drop n l.segs, List.pairwise_append] at hp
  have hout : ((l.segs.take n).map metaOf).filter (fun m => m ∉ s'.segments) =
      (l.segs.take n).map metaOf := by
    refine List.filter_eq_self.mpr fun m hm => decide_eq_true fun hin => ?_
    rw [hs'] at hin
    obtain ⟨a, ha, rfl⟩ := List.mem_map.mp hm
    obtain ⟨b, hb, e⟩ := List.mem_map.mp hin
    have := hp.2.2 a ha b hb
    have : b.seq = a.seq := congrArg SegmentMeta.seq e
    omega
  have hin : ((l.segs.drop n).map metaOf).filter (fun m => m ∉ s'.segments) = [] := by
    refine List.filter_eq_nil_iff.mpr fun m hm hout => ?_
    rw [hs'] at hout
    exact of_decide_eq_true hout hm
  unfold droppedBy
  rw [hsplit, List.filter_append, hout, hin, List.append_nil]
  exact unread_take h n

/-! ## What the drainer gets -/

/-- The first `n` frames the drainer gets from a store: `peek_next` and `commit_pending` in turn. -/
def drain : Nat → Store → List DecodedFrame
  | 0, _ => []
  | n + 1, s =>
    match peekNext .ok s with
    | (s, .frame f) => f :: drain n (commitPending s)
    | _ => []

/-- Once a drain comes to an end, a longer one gets no more. -/
theorem drain_of_short : ∀ (k : Nat) {s : Store}, (drain k s).length < k →
    ∀ n, drain n s = (drain k s).take n
  | 0, _, h, _ => absurd h (Nat.not_lt_zero _)
  | k + 1, s, h, n => by
    cases n with
    | zero => rfl
    | succ n =>
      rw [drain] at h ⊢
      rw [drain]
      split
      · rename_i s' f e
        simp only [e, List.length_cons] at h ⊢
        rw [List.take_succ_cons, drain_of_short k (Nat.lt_of_succ_lt_succ h) n]
      · rename_i hno
        rw [List.take_nil]

/-- The drainer gets the frames ahead, in order. -/
theorem drain_eq : ∀ (n : Nat) {s : Store} {l : FrameLog}, Represents s l →
    drain n s = l.ahead.take n
  | 0, _, _, _ => rfl
  | n + 1, s, l, h => by
    obtain ⟨k, o⟩ := peekNext_spec .ok h
    have hahead : l.ahead = (l.dropSegs k).ahead := by
      rw [SegLog.ahead_dropSegs k l, o.readOut, List.nil_append]
    rw [drain, hahead]
    cases hr : peekNext .ok s with
    | mk s' r =>
      rw [hr] at o
      cases r with
      | frame f =>
        obtain ⟨hhead, hpend⟩ := o.frame f rfl
        rcases commitPending_spec o.store with ⟨hn, -⟩ | ⟨f', l', -, hc, -, hcons, -⟩
        · exact absurd hn hpend
        · rw [hcons] at hhead ⊢
          obtain rfl := Option.some.inj hhead
          rw [List.take_succ_cons]
          exact congrArg (f' :: ·) (drain_eq n hc)
      | caughtUp =>
        rw [o.caughtUp rfl]
        rfl
      | failed =>
        obtain ⟨path, hp⟩ := o.failed rfl
        exact absurd hp (by simp [Io.ok])

/-! ## Runs -/

/-- The frame a `peek_next` returned. -/
def Peek.frame? : Peek → Option DecodedFrame
  | .frame f => some f
  | _ => none

/-- A store with the record of a run: the frames appended, committed and dropped by the cap, and
what the latest `peek_next` returned. -/
structure Queue where
  store : Store
  appended : List DecodedFrame
  committed : List DecodedFrame
  dropped : List DecodedFrame
  peeked : Option DecodedFrame

/-- The frame a `commit_pending` now would commit. -/
def Queue.passed (q : Queue) : List DecodedFrame :=
  if q.store.pendingAdvance.isSome then q.peeked.toList else []

/-- One call on the store, by the writer or the drainer, without I/O failures. -/
inductive QueueStep : Queue → Queue → Prop
  | append {q : Queue} {s' : Store} (payload : Bytes) (valid : ValidPayload payload)
      (number : NumbersLeft q.store) (ok : append .ok q.store payload = (s', true)) :
      QueueStep q { q with
        store := s'
        appended := q.appended ++ [⟨q.store.nextBatchSeq, payload⟩]
        dropped := q.dropped ++
          droppedBy q.store (enforceCap .ok q.store (frameLenOnDisk payload.length)) }
  | peek {q : Queue} :
      QueueStep q { q with
        store := (peekNext .ok q.store).1
        peeked := (peekNext .ok q.store).2.frame? }
  | commit {q : Queue} :
      QueueStep q { q with
        store := commitPending q.store
        committed := q.committed ++ q.passed }

/-- A run begins with nothing recorded. -/
def Queue.start (s : Store) : Queue := ⟨s, [], [], [], none⟩

/-- What became of a frame that is no longer ahead. -/
inductive Fate where
  | committed
  | dropped
  deriving DecidableEq

/-- The frames with a given fate. -/
def withFate (x : Fate) (past : List (Fate × DecodedFrame)) : List DecodedFrame :=
  (past.filter fun e => e.1 = x).map Prod.snd

/-- The record accounts for every frame: `init` and the appended ones are, in order, those that were
committed or dropped, and then those ahead. -/
def Accounted (init : List DecodedFrame) (q : Queue) (ahead : List DecodedFrame) : Prop :=
  ∃ past : List (Fate × DecodedFrame), init ++ q.appended = past.map Prod.snd ++ ahead ∧
    q.committed = withFate .committed past ∧ q.dropped = withFate .dropped past

omit [Crc32] in
/-- The frames at the front meet one fate. -/
theorem Accounted.settle (x : Fate) (gone : List DecodedFrame) {init ahead : List DecodedFrame}
    {q q' : Queue}
    (h : Accounted init q (gone ++ ahead)) (ha : q'.appended = q.appended)
    (hc : q'.committed = q.committed ++ if x = .committed then gone else [])
    (hd : q'.dropped = q.dropped ++ if x = .dropped then gone else []) :
    Accounted init q' ahead := by
  obtain ⟨past, h1, h2, h3⟩ := h
  refine ⟨past ++ gone.map (x, ·), ?_, ?_, ?_⟩
  · rw [ha, h1, List.map_append, List.map_map, List.append_assoc]
    congr 1
    simp [Function.comp_def]
  · rw [hc, h2]
    cases x <;> simp [withFate, List.filter_map, Function.comp_def]
  · rw [hd, h3]
    cases x <;> simp [withFate, List.filter_map, Function.comp_def]

/-- What a run keeps: the store represents a log, the record accounts for every frame, and a
pending advance is past the frame that was peeked. -/
structure QueueInv (init : List DecodedFrame) (q : Queue) (l : FrameLog) : Prop where
  store : Represents q.store l
  accounted : Accounted init q l.ahead
  peeked : q.store.pendingAdvance ≠ none → q.peeked = l.ahead.head?

theorem queueInv_appendOne {init : List DecodedFrame} {q : Queue} (h : QueueInv init q l) (io : Io)
    (repairs : io.Repairs) (number : NumbersLeft q.store) {payload : Bytes}
    (hp : ValidPayload payload) :
    ∃ l', QueueInv init { q with
      store := (appendOne io q.store payload).1
      appended := q.appended ++
        if (appendOne io q.store payload).2 then [⟨q.store.nextBatchSeq, payload⟩] else []
      dropped := q.dropped ++
        droppedBy q.store (enforceCap io q.store (frameLenOnDisk payload.length)) } l' := by
  obtain ⟨n, rotates, o⟩ := appendOne_spec io h.store repairs number hp
  refine ⟨_, o.store, ?_, fun hne => ?_⟩
  · -- the cap drops the frames at the front, then the new one joins the back
    have hcap : Accounted init { q with
        dropped := q.dropped ++
          droppedBy q.store (enforceCap io q.store (frameLenOnDisk payload.length)) }
        (l.dropSegs n).ahead := by
      refine Accounted.settle (q := q) .dropped (l.lostBy n) ?_ rfl (by simp) ?_
      · rw [← SegLog.ahead_dropSegs]
        exact h.accounted
      · rw [droppedBy_eq h.store o.capped]
        rfl
    obtain ⟨past, h1, h2, h3⟩ := hcap
    refine ⟨past, ?_, h2, h3⟩
    rw [o.ahead]
    show init ++ (q.appended ++ _) = _
    rw [← List.append_assoc, h1, List.append_assoc]
  · obtain ⟨rfl, hkeep⟩ : n = 0 ∧
        (appendOne io q.store payload).1.pendingAdvance = q.store.pendingAdvance :=
      o.pending.resolve_right fun hr => hne hr.2
    have hne' : q.store.pendingAdvance ≠ none := hkeep ▸ hne
    have hhead := h.peeked hne'
    rw [o.ahead, SegLog.dropSegs]
    show q.peeked = _
    rw [hhead]
    -- a pending advance has a frame to pass
    rcases commitPending_spec h.store with ⟨hnone, -⟩ | ⟨f, l', -, -, -, hcons, -⟩
    · exact absurd hnone hne'
    · rw [hcons]
      rfl

theorem queueInv_append {init : List DecodedFrame} {q : Queue} (h : QueueInv init q l)
    (number : NumbersLeft q.store) {payload : Bytes} (hp : ValidPayload payload)
    (ok : append .ok q.store payload = (s', true)) :
    ∃ l', QueueInv init { q with
      store := s'
      appended := q.appended ++ [⟨q.store.nextBatchSeq, payload⟩]
      dropped := q.dropped ++
        droppedBy q.store (enforceCap .ok q.store (frameLenOnDisk payload.length)) } l' := by
  have h' := queueInv_appendOne h .ok Io.repairs_ok number hp
  rw [appendOne_of_append ok] at h'
  exact h'

theorem queueInv_peek {init : List DecodedFrame} {q : Queue} (h : QueueInv init q l) :
    ∃ l', QueueInv init { q with
      store := (peekNext .ok q.store).1
      peeked := (peekNext .ok q.store).2.frame? } l' := by
  obtain ⟨n, o⟩ := peekNext_spec .ok h.store
  refine ⟨_, o.store, ?_, fun hne => ?_⟩
  · have := h.accounted
    rw [SegLog.ahead_dropSegs n l, o.readOut, List.nil_append] at this
    exact this
  · cases hr : (peekNext .ok q.store).2 with
    | frame f => exact (o.frame f hr).1.symm
    | caughtUp =>
      rw [o.caughtUp hr]
      rfl
    | failed =>
      obtain ⟨path, hpath⟩ := o.failed hr
      exact absurd hpath (by simp [Io.ok])

/-- **`commit_pending` moves the cursor past the peeked frame, or not at all.** -/
theorem queueInv_passed {init : List DecodedFrame} {q : Queue} (h : QueueInv init q l) :
    ∃ l', Represents (commitPending q.store) l' ∧ l.ahead = q.passed ++ l'.ahead ∧
      (commitPending q.store).pendingAdvance = none := by
  rcases commitPending_spec h.store with ⟨hnone, e⟩ | ⟨f, l', hne, hr, -, hcons, -, -, -, hpend⟩
  · refine ⟨l, by rw [e]; exact h.store, ?_, by rw [e]; exact hnone⟩
    unfold Queue.passed
    rw [hnone]
    rfl
  · refine ⟨l', hr, ?_, hpend⟩
    unfold Queue.passed
    rw [if_pos (Option.isSome_iff_ne_none.mpr hne), h.peeked hne, hcons]
    rfl

theorem queueInv_commit {init : List DecodedFrame} {q : Queue} (h : QueueInv init q l) :
    ∃ l', QueueInv init { q with
      store := commitPending q.store
      committed := q.committed ++ q.passed } l' := by
  obtain ⟨l', hr, hcons, hpend⟩ := queueInv_passed h
  refine ⟨l', hr, ?_, fun hne => absurd hpend hne⟩
  have hacc := h.accounted
  rw [hcons] at hacc
  exact hacc.settle .committed _ rfl rfl (by simp)

/-- What a run keeps, from any represented store. -/
theorem queueInv_run {q : Queue} (h : Represents s l) (hp : s.pendingAdvance = none)
    (run : Relation.ReflTransGen QueueStep (Queue.start s) q) :
    ∃ l', QueueInv l.ahead q l' := by
  induction run with
  | refl =>
    exact ⟨l, h, ⟨[], List.append_nil _, rfl, rfl⟩, fun hne => absurd hp hne⟩
  | tail _ hstep ih =>
    obtain ⟨l', ih⟩ := ih
    cases hstep with
    | append payload valid number ok => exact queueInv_append ih number valid ok
    | peek => exact queueInv_peek ih
    | commit => exact queueInv_commit ih

theorem emptyStore_spec (cfg : WalConfig) :
    Represents (emptyStore cfg fun _ => none) SegLog.empty where
  segments := rfl
  files := fun _ hg => absurd hg List.not_mem_nil
  valid := fun _ hg => absurd hg List.not_mem_nil
  sorted := List.Pairwise.nil
  below := fun _ hg => absurd hg List.not_mem_nil
  fits := Nat.zero_le _
  total := rfl
  active := Or.inl rfl
  cursor := .off (fun _ hg => absurd hg List.not_mem_nil) rfl rfl (Nat.le_refl _)
    fun _ => ⟨rfl, rfl⟩
  named := fun _ hn => absurd rfl hn

/-! ## `append` succeeds -/

omit [Crc32] in
/-- Without I/O failures a rotation succeeds. -/
theorem rotate_ok (s : Store) : ∃ s', rotate .ok s = (s', true) ∧ s'.active ≠ none := by
  refine ⟨(rotate .ok s).1, ?_, ?_⟩
  · simp [rotate, Io.ok, retireActive]
  · simp [rotate, Io.ok, retireActive]

theorem writeFrame_ok (h : s.active ≠ none) (payload : Bytes) :
    (writeFrame .ok s payload).2 = true := by
  obtain ⟨a, ha⟩ := Option.ne_none_iff_exists'.mp h
  simp [writeFrame, writeActive, Io.ok, ha]

/-- Without I/O failures `append` succeeds. -/
theorem append_succeeds (s : Store) (payload : Bytes) : (append .ok s payload).2 = true := by
  generalize hs₁ : enforceCap .ok s (frameLenOnDisk payload.length) = s₁
  cases hr : needsRotate s₁ (frameLenOnDisk payload.length) with
  | true =>
    obtain ⟨s', e, ha⟩ := rotate_ok s₁
    rw [append_room (by rw [hs₁, ensureActiveWithRoom_rotate .ok hr, e])]
    exact writeFrame_ok ha payload
  | false =>
    rw [append_room (by rw [hs₁, ensureActiveWithRoom_stay .ok hr])]
    refine writeFrame_ok (fun hn => ?_) payload
    unfold needsRotate at hr
    rw [hn] at hr
    cases hr

/-- The append of a run succeeds. -/
theorem QueueStep.append_ok {q : Queue} (payload : Bytes) (valid : ValidPayload payload)
    (number : NumbersLeft q.store) :
    QueueStep q { q with
      store := (Wal.append .ok q.store payload).1
      appended := q.appended ++ [⟨q.store.nextBatchSeq, payload⟩]
      dropped := q.dropped ++
        droppedBy q.store (enforceCap .ok q.store (frameLenOnDisk payload.length)) } :=
  .append payload valid number (Prod.ext rfl (append_succeeds q.store payload))

/-! ## The segment numbers last -/

omit [Crc32] in
theorem commitPending_nextSeq (s : Store) : (commitPending s).nextSeq = s.nextSeq := by
  unfold commitPending
  split <;> rfl

/-- A run from an empty store has taken one segment number for each append at most. -/
theorem nextSeq_le_appended (cfg : WalConfig) {q : Queue}
    (run : Relation.ReflTransGen QueueStep (Queue.start (emptyStore cfg fun _ => none)) q) :
    q.store.nextSeq ≤ q.appended.length := by
  induction run with
  | refl => exact Nat.le_refl _
  | @tail q q' hrun hstep ih =>
    cases hstep with
    | append payload valid number ok =>
      have htake := append_nextSeq_le .ok q.store payload
      rw [ok] at htake
      rw [List.length_append, List.length_singleton]
      exact htake.trans (Nat.succ_le_succ ih)
    | peek =>
      obtain ⟨l, h⟩ := queueInv_run (emptyStore_spec cfg) rfl hrun
      obtain ⟨n, o⟩ := peekNext_spec .ok h.store
      exact o.nextSeq.trans_le ih
    | commit => exact (commitPending_nextSeq q.store).trans_le ih

/-! ## No frame is lost but at the cap -/

/-- **A lossless first-in first-out queue up to cap drops.** In every run from an empty store, the
appended frames are, in order, those committed or dropped with a segment and then those ahead of the
cursor; and a commit passes the frame the latest `peek_next` returned, or none. Fewer than
`u64::MAX` appends leave segment numbers. -/
theorem run_fates (cfg : WalConfig) {q : Queue}
    (run : Relation.ReflTransGen QueueStep (Queue.start (emptyStore cfg fun _ => none)) q) :
    (∃ past : List (Fate × DecodedFrame), q.appended = past.map Prod.snd ++ aheadOf q.store ∧
      q.committed = withFate .committed past ∧ q.dropped = withFate .dropped past) ∧
    aheadOf q.store = q.passed ++ aheadOf (commitPending q.store) ∧
    (q.appended.length < u64Max → NumbersLeft q.store) := by
  obtain ⟨l, h⟩ := queueInv_run (emptyStore_spec cfg) rfl run
  obtain ⟨l', hr, hcons, -⟩ := queueInv_passed h
  rw [aheadOf_eq h.store, aheadOf_eq hr]
  exact ⟨h.accounted, hcons, (nextSeq_le_appended cfg run).trans_lt⟩

/-- A small store: segments of 64 bytes, 1 KiB in all. -/
def smallConfig : WalConfig := ⟨true, 1024, 64, 1, 200⟩

/-- Segments with room for one frame. -/
def tinyConfig : WalConfig := ⟨true, 1024, 20, 1, 200⟩

/-- Segments for one frame each, and room for three of them. -/
def threeSegmentConfig : WalConfig := ⟨true, 100, 20, 1, 200⟩

omit [Crc32] in
/-- Four frames in segments of their own. The first is peeked when the fourth needs its room: the
commit behind the drop passes nothing. Then two frames are read, and the segment of the first of
them is removed. -/
theorem run_fates_dropped : letI := crc32Ieee
    ∃ q, Relation.ReflTransGen QueueStep
        (Queue.start (emptyStore threeSegmentConfig fun _ => none)) q ∧
      q.appended = [⟨0, [1]⟩, ⟨1, [2]⟩, ⟨2, [3]⟩, ⟨3, [4]⟩] ∧ q.dropped = [⟨0, [1]⟩] ∧
      q.committed = [⟨1, [2]⟩, ⟨2, [3]⟩] ∧ q.store.segments.map SegmentMeta.seq = [2, 3] ∧
      ∃ past : List (Fate × DecodedFrame), q.appended = past.map Prod.snd ++ aheadOf q.store ∧
        q.committed = withFate .committed past ∧ q.dropped = withFate .dropped past := by
  let _ := crc32Ieee
  have three : Relation.ReflTransGen QueueStep
      (Queue.start (emptyStore threeSegmentConfig fun _ => none)) _ :=
    ((Relation.ReflTransGen.single (.append_ok [1] (by decide) (by decide))).tail
      (.append_ok [2] (by decide) (by decide +kernel))).tail
      (.append_ok [3] (by decide) (by decide +kernel))
  have dropped := ((three.tail .peek).tail (.append_ok [4] (by decide) (by decide +kernel))).tail
    .commit
  have run := (((dropped.tail .peek).tail .commit).tail .peek).tail .commit
  exact ⟨_, run, by decide +kernel, by decide +kernel, by decide +kernel, by decide +kernel,
    (run_fates threeSegmentConfig run).1⟩

end Statix.Wal
