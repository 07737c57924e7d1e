import Statix.Wal.Backlog

/-!
# The counters of the store

`frames_written_total`, `frames_replayed_total` and `dropped_batches_total` against the frames still
ahead, in runs of `append`, `peek_next` and `commit_pending` without I/O errors.

`enforce_cap` adds `victim.frames` to the dropped batches, and this is every frame of the segment,
also those the drainer has committed.

* `cap_balance`: the cap counts the frames lost and those already replayed.
* **`loss_metered`**: the counters balance in every run in which the cap drops no segment with a
  committed frame, and each such drop breaks the balance.
* `replayed_and_dropped`: one frame counted twice.
-/

namespace Statix.Wal

open Statix.Lib

variable [Crc32] {s s' : Store} {l : FrameLog} {io : Io}

/-- **Every frame written is replayed, dropped or still ahead**, by the counters. -/
def Balanced (s : Store) : Prop :=
  s.metrics.framesWritten =
    s.metrics.framesReplayed + s.metrics.droppedBatches + (aheadOf s).length

/-- The frames the tracked segments hold. -/
def framesOn (s : Store) : Nat := (s.segments.map SegmentMeta.frames).sum

/-- Whether `enforce_cap` drops a segment to make room. -/
def capDrops (s : Store) (incoming : Nat) : Bool :=
  s.totalBytes + incoming > s.cfg.maxBytes && s.segments.length > 1

/-- Whether a frame of the oldest segment was committed. -/
def partlyReplayed (s : Store) : Bool :=
  match s.segments with
  | [] => false
  | front :: _ => s.readSeq == front.seq && s.readOffset > segmentHeaderLen

/-- Whether an append of `payload` drops a segment with a committed frame. -/
def dropsReplayed (s : Store) (payload : Bytes) : Bool :=
  capDrops s (frameLenOnDisk payload.length) && partlyReplayed s

/-! ## The cap -/

theorem framesOn_eq (h : Represents s l) : framesOn s = l.all.length := by
  unfold framesOn SegLog.all
  rw [h.segments, List.map_map, List.length_flatMap]
  rfl

/-- The tracked frames are those committed and those ahead. -/
theorem framesOn_ahead (h : Represents s l) : framesOn s = l.consumed + (aheadOf s).length := by
  rw [framesOn_eq h, aheadOf_eq h, SegLog.ahead, List.length_drop]
  have := l.consumed_le_all
  omega

theorem partlyReplayed_iff (h : Represents s l) : partlyReplayed s = true ↔ 0 < l.consumed := by
  unfold partlyReplayed
  cases h.cursor with
  | off huntracked hzero _ _ _ =>
    rw [h.segments]
    cases hs : l.segs with
    | nil => simp [hzero]
    | cons g rest =>
      have hne : s.readSeq ≠ g.seq := (huntracked g (by simp [hs])).symm
      simp [hzero, hne]
  | front g rest hs hseq hoff _ =>
    rw [h.segments, hs, hoff]
    simp only [List.map_cons, metaOf_seq, hseq, beq_self_eq_true, Bool.true_and,
      decide_eq_true_eq]
    constructor
    · intro hlt
      by_contra hzero
      obtain h0 : l.consumed = 0 := by omega
      rw [h0, boundary_zero] at hlt
      omega
    · intro hpos
      -- the first frame takes room
      have hle := SegLog.consumed_le_of_cons hs
      obtain ⟨k, hk⟩ : ∃ k, l.consumed = k + 1 := ⟨l.consumed - 1, by omega⟩
      have hlt : k < g.items.length := by omega
      have hsize := frameLenOnDisk_pos g.items[k].payload.length
      rw [hk, boundary_succ hlt]
      unfold boundary
      omega

omit [Crc32] in
theorem enforceCap_under {incoming : Nat} (h : capDrops s incoming = false) :
    enforceCap io s incoming = s := by
  unfold enforceCap
  cases hn : s.segments.length with
  | zero => rfl
  | succ n =>
    rw [enforceCapLoop, if_neg]
    simpa [capDrops] using h

theorem enforceCap_over (io : Io) (h : Represents s l) {incoming : Nat} (hover : capDrops s incoming = true) :
    ∃ l', Represents (enforceCap io s incoming) l' ∧ l'.consumed = 0 := by
  have hc : s.totalBytes + incoming > s.cfg.maxBytes ∧ s.segments.length > 1 := by
    simpa [capDrops] using hover
  obtain ⟨fuel, hf⟩ : ∃ fuel, s.segments.length = fuel + 1 := ⟨s.segments.length - 1, by omega⟩
  have hlen : l.segs.length > 1 := by
    have := hc.2
    rw [h.segments, List.length_map] at this
    exact this
  unfold enforceCap
  rw [hf, enforceCapLoop, if_pos hc]
  obtain ⟨g, g', rest, hs⟩ := exists_victim_front hlen
  obtain ⟨hd, -⟩ := dropFront_spec io h hs
  obtain ⟨n, o⟩ := enforceCapLoop_spec io incoming fuel hd
  exact ⟨_, o.store, SegLog.consumed_dropSegs n rfl⟩

omit [Crc32] in
/-- `enforce_cap` counts every frame of the segments it drops. -/
theorem enforceCap_metrics (io : Io) (s : Store) (incoming : Nat) :
    let c := enforceCap io s incoming
    c.metrics.droppedBatches + framesOn c = s.metrics.droppedBatches + framesOn s ∧
      c.metrics.framesWritten = s.metrics.framesWritten ∧
      c.metrics.framesReplayed = s.metrics.framesReplayed := by
  refine enforceCapLoop_keeps (P := fun c =>
    c.metrics.droppedBatches + framesOn c = s.metrics.droppedBatches + framesOn s ∧
      c.metrics.framesWritten = s.metrics.framesWritten ∧
      c.metrics.framesReplayed = s.metrics.framesReplayed) io incoming _ ?_ ⟨rfl, rfl, rfl⟩
  intro c victim front rest hs ⟨hlost, hwritten, hreplayed⟩
  rw [dropFront_eq hs]
  refine ⟨Eq.trans ?_ hlost, Eq.trans ?_ hwritten, Eq.trans ?_ hreplayed⟩
  · split <;> simp [framesOn, hs] <;> omega
  · split <;> rfl
  · split <;> rfl

/-- **The cap counts the frames lost, and the committed frames of a segment it drops.** -/
theorem cap_balance (io : Io) (h : Represents s l) (incoming : Nat) :
    (enforceCap io s incoming).metrics.droppedBatches + (aheadOf (enforceCap io s incoming)).length =
      s.metrics.droppedBatches + (aheadOf s).length +
        if capDrops s incoming then l.consumed else 0 := by
  obtain ⟨hm, -, -⟩ := enforceCap_metrics io s incoming
  have hs := framesOn_ahead h
  cases hover : capDrops s incoming with
  | false => simp [enforceCap_under hover]
  | true =>
    obtain ⟨l', h', hzero⟩ := enforceCap_over io h hover
    have hc := framesOn_ahead h'
    simp only [if_true]
    omega

/-! ## The other operations -/

omit [Crc32] in
theorem metrics_rotate (io : Io) (s : Store) : (rotate io s).1.metrics = s.metrics := by
  unfold rotate
  simp only
  split
  · rfl
  · split
    · rfl
    · split <;> rfl

omit [Crc32] in
theorem metrics_writeActive (s : Store) (fault : Option Nat) (bs : Bytes) :
    (writeActive s fault bs).1.metrics = s.metrics := by
  unfold writeActive
  split <;> rfl

theorem dropped_writeFrame (io : Io) (s : Store) (payload : Bytes) :
    (writeFrame io s payload).1.metrics.droppedBatches = s.metrics.droppedBatches ∧
      (writeFrame io s payload).1.metrics.framesReplayed = s.metrics.framesReplayed := by
  constructor
  · exact writeFrame_preserves (fun s => s.metrics.droppedBatches) io s payload (fun _ _ => rfl)
      (fun s fault bs => congrArg WalMetrics.droppedBatches (metrics_writeActive s fault bs))
      fun _ _ => rfl
  · exact writeFrame_preserves (fun s => s.metrics.framesReplayed) io s payload (fun _ _ => rfl)
      (fun s fault bs => congrArg WalMetrics.framesReplayed (metrics_writeActive s fault bs))
      fun _ _ => rfl

theorem written_writeFrame (h : s.active ≠ none) (payload : Bytes) :
    (writeFrame .ok s payload).1.metrics.framesWritten = s.metrics.framesWritten + 1 := by
  obtain ⟨a, ha⟩ := Option.ne_none_iff_exists'.mp h
  simp [writeFrame, writeActive, accountFrame, Io.ok, ha]

theorem metrics_peekNext (io : Io) (s : Store) : (peekNext io s).1.metrics = s.metrics := by
  refine peekNext_keeps (P := fun t => t.metrics = s.metrics) io (fun r t h hsame => ?_)
    (fun r pre m post h hs hm hread => h) rfl
  rw [hsame]
  exact h

omit [Crc32] in
theorem metrics_ensureActive (io : Io) (s : Store) (size : Nat) :
    (ensureActiveWithRoom io s size).1.metrics = s.metrics := by
  unfold ensureActiveWithRoom
  split
  · exact metrics_rotate io s
  · rfl

/-- What an `append` without I/O errors leaves ahead: what the cap left, and the new frame. -/
theorem append_ahead (h : Represents s l) (number : NumbersLeft s) {payload : Bytes}
    (valid : ValidPayload payload) :
    ∃ l', Represents (append .ok s payload).1 l' ∧
      l'.ahead.length = (aheadOf (cappedFor .ok s payload)).length + 1 := by
  have hok : append .ok s payload = ((append .ok s payload).1, true) :=
    Prod.ext rfl (append_succeeds s payload)
  obtain ⟨n, rotates, o⟩ := appendOne_spec .ok h Io.repairs_ok number valid
  have hstore := o.store
  have hahead := o.ahead
  rw [appendOne_of_append hok] at hstore hahead
  refine ⟨_, hstore, ?_⟩
  rw [hahead, cappedFor, aheadOf_eq o.capped, List.length_append]
  rfl

/-- The three counters after an `append` without I/O errors. -/
theorem append_metrics (s : Store) (payload : Bytes) :
    (append .ok s payload).1.metrics.framesWritten = s.metrics.framesWritten + 1 ∧
      (append .ok s payload).1.metrics.framesReplayed = s.metrics.framesReplayed ∧
      (append .ok s payload).1.metrics.droppedBatches =
        (cappedFor .ok s payload).metrics.droppedBatches := by
  obtain ⟨-, hwritten, hreplayed⟩ := enforceCap_metrics .ok s (frameLenOnDisk payload.length)
  have hm := metrics_ensureActive .ok (cappedFor .ok s payload) (frameLenOnDisk payload.length)
  obtain ⟨-, hact⟩ := ensureActiveWithRoom_fails .ok (cappedFor .ok s payload)
    (frameLenOnDisk payload.length)
  have hok := append_succeeds s payload
  cases he : ensureActiveWithRoom .ok (cappedFor .ok s payload) (frameLenOnDisk payload.length) with
  | mk s₁ room =>
    rw [he] at hm hact
    cases room with
    | false =>
      rw [append_no_room he] at hok
      cases hok
    | true =>
      have hsome : s₁.active ≠ none := Option.isSome_iff_ne_none.mp hact
      obtain ⟨hdropped, hrep⟩ := dropped_writeFrame .ok s₁ payload
      rw [append_room he, written_writeFrame hsome, hdropped, hrep, hm]
      exact ⟨congrArg (· + 1) hwritten, hreplayed, rfl⟩

/-! ## Runs -/

/-- One call on the store without I/O errors; appends only where `guard` allows them. -/
inductive MeterStep (guard : Store → Bytes → Prop) : Store → Store → Prop
  | append {s : Store} (payload : Bytes) (number : NumbersLeft s) (allowed : guard s payload) :
      MeterStep guard s (append .ok s payload).1
  | peekNext {s : Store} : MeterStep guard s (peekNext .ok s).1
  | commitPending {s : Store} : MeterStep guard s (commitPending s)

/-- A frame that can be read back, and no segment with a committed frame dropped for it. -/
def Metered (s : Store) (payload : Bytes) : Prop :=
  ValidPayload payload ∧ dropsReplayed s payload = false

/-- What the cap counts for an append, against what is lost with it. -/
theorem capped_balance (h : Represents s l) (payload : Bytes) :
    ((cappedFor .ok s payload).metrics.droppedBatches + (aheadOf (cappedFor .ok s payload)).length =
      s.metrics.droppedBatches + (aheadOf s).length) ↔ dropsReplayed s payload = false := by
  have hb := cap_balance .ok h (frameLenOnDisk payload.length)
  have hp := partlyReplayed_iff h
  unfold cappedFor dropsReplayed
  cases hover : capDrops s (frameLenOnDisk payload.length) with
  | false => simpa [hover] using hb
  | true =>
    rw [hover, if_pos rfl] at hb
    rw [hb, Bool.true_and, ← Bool.not_eq_true, hp]
    omega

/-- **An append keeps the balance exactly if it drops no committed frame.** -/
theorem balanced_append_iff (h : Represents s l) (hb : Balanced s) (number : NumbersLeft s)
    {payload : Bytes} (valid : ValidPayload payload) :
    Balanced (append .ok s payload).1 ↔ dropsReplayed s payload = false := by
  obtain ⟨l', h', hahead⟩ := append_ahead h number valid
  obtain ⟨hwritten, hreplayed, hdropped⟩ := append_metrics s payload
  rw [← capped_balance h payload]
  unfold Balanced at hb ⊢
  rw [aheadOf_eq h', hahead, hwritten, hreplayed, hdropped]
  omega

/-- The append adds to `dropped_batches_total` what it loses. -/
theorem dropped_append_iff (h : Represents s l) (payload : Bytes) :
    (append .ok s payload).1.metrics.droppedBatches =
        s.metrics.droppedBatches + (droppedBy s (cappedFor .ok s payload)).length ↔
      dropsReplayed s payload = false := by
  obtain ⟨n, o⟩ := enforceCap_spec .ok h (frameLenOnDisk payload.length)
  have hlost : (aheadOf s).length = (droppedBy s (cappedFor .ok s payload)).length +
      (aheadOf (cappedFor .ok s payload)).length := by
    rw [cappedFor, droppedBy_eq h o.store, aheadOf_eq h, aheadOf_eq o.store,
      SegLog.ahead_dropSegs n l, List.length_append]
  rw [(append_metrics s payload).2.2, ← capped_balance h payload]
  omega

theorem balanced_step (h : Represents s l) (hb : Balanced s) (hstep : MeterStep Metered s s') :
    (∃ l', Represents s' l') ∧ Balanced s' := by
  cases hstep with
  | append payload number allowed =>
    obtain ⟨l', h', -⟩ := append_ahead h number allowed.1
    exact ⟨⟨l', h'⟩, (balanced_append_iff h hb number allowed.1).mpr allowed.2⟩
  | peekNext =>
    obtain ⟨n, o⟩ := peekNext_spec .ok h
    refine ⟨⟨_, o.store⟩, ?_⟩
    have hsame : aheadOf (peekNext .ok s).1 = aheadOf s := by
      rw [aheadOf_eq o.store, aheadOf_eq h, SegLog.ahead_dropSegs n l, o.readOut, List.nil_append]
    unfold Balanced
    rw [hsame, metrics_peekNext]
    exact hb
  | commitPending =>
    rcases commitPending_spec h with ⟨-, e⟩ | ⟨f, l', hpend, h', -, hcons, -⟩
    · rw [e]
      exact ⟨⟨l, h⟩, hb⟩
    · refine ⟨⟨l', h'⟩, ?_⟩
      obtain ⟨next, hnext⟩ := Option.ne_none_iff_exists'.mp hpend
      have hm : (commitPending s).metrics =
          { s.metrics with framesReplayed := s.metrics.framesReplayed + 1 } := by
        unfold commitPending
        rw [hnext]
      unfold Balanced at hb ⊢
      rw [aheadOf_eq h, hcons, List.length_cons] at hb
      rw [aheadOf_eq h', hm]
      show s.metrics.framesWritten = s.metrics.framesReplayed + 1 + s.metrics.droppedBatches + _
      omega

/-- **Loss is metered exactly** in every run in which the cap drops no segment with a committed
frame; and an append that does counts too much. -/
theorem loss_metered {cfg : WalConfig}
    (run : Relation.ReflTransGen (MeterStep Metered) (emptyStore cfg fun _ => none) s) :
    Balanced s ∧ ∀ payload, NumbersLeft s → ValidPayload payload →
      (Balanced (append .ok s payload).1 ↔ dropsReplayed s payload = false) ∧
      ((append .ok s payload).1.metrics.droppedBatches =
          s.metrics.droppedBatches + (droppedBy s (cappedFor .ok s payload)).length ↔
        dropsReplayed s payload = false) := by
  have h : (∃ l, Represents s l) ∧ Balanced s := by
    induction run with
    | refl => exact ⟨⟨_, emptyStore_spec cfg⟩, rfl⟩
    | tail _ hstep ih =>
      obtain ⟨⟨l, h⟩, hb⟩ := ih
      exact balanced_step h hb hstep
  obtain ⟨⟨l, h⟩, hb⟩ := h
  exact ⟨hb, fun payload number valid =>
    ⟨balanced_append_iff h hb number valid, dropped_append_iff h payload⟩⟩

/-- Segments with room for two one-byte frames, and a cap two of them exceed. -/
def twoFrameConfig : WalConfig := ⟨true, 90, 60, 1, 200⟩

omit [Crc32] in
/-- Four frames appended; the last one drops the two of the first segment. -/
theorem loss_metered_dropped : letI := crc32Ieee
    ∃ s, s.metrics.framesWritten = 4 ∧ s.metrics.droppedBatches = 2 ∧ Balanced s := by
  let _ := crc32Ieee
  let s₁ := (append .ok (emptyStore twoFrameConfig fun _ => none) [1]).1
  let s₂ := (append .ok s₁ [2]).1
  let s₃ := (append .ok s₂ [3]).1
  have run : Relation.ReflTransGen (MeterStep Metered) (emptyStore twoFrameConfig fun _ => none)
      (append .ok s₃ [4]).1 :=
    ((((Relation.ReflTransGen.refl).tail
      (.append [1] (by decide +kernel) ⟨by decide, by decide +kernel⟩)).tail
      (.append [2] (by decide +kernel) ⟨by decide, by decide +kernel⟩)).tail
      (.append [3] (by decide +kernel) ⟨by decide, by decide +kernel⟩)).tail
      (.append [4] (by decide +kernel) ⟨by decide, by decide +kernel⟩)
  exact ⟨_, by decide +kernel, by decide +kernel, (loss_metered run).1⟩

omit [Crc32] in
/-- **A frame that was replayed and counts as dropped.** The first of two frames is committed, then
the cap drops their segment: four frames were written, one was replayed, two count as dropped and
two are ahead. -/
theorem replayed_and_dropped : letI := crc32Ieee
    ∃ s, Relation.ReflTransGen (MeterStep fun _ payload => ValidPayload payload)
        (emptyStore twoFrameConfig fun _ => none) s ∧
      s.metrics.framesWritten = 4 ∧ s.metrics.framesReplayed = 1 ∧ s.metrics.droppedBatches = 2 ∧
      (aheadOf s).length = 2 ∧ ¬ Balanced s := by
  let _ := crc32Ieee
  let s₁ := (append .ok (emptyStore twoFrameConfig fun _ => none) [1]).1
  let s₂ := (append .ok s₁ [2]).1
  let s₃ := (append .ok s₂ [3]).1
  let s₄ := commitPending (peekNext .ok s₃).1
  have run : Relation.ReflTransGen (MeterStep fun _ payload => ValidPayload payload)
      (emptyStore twoFrameConfig fun _ => none) (append .ok s₄ [4]).1 :=
    ((((((Relation.ReflTransGen.refl).tail (.append [1] (by decide +kernel) (by decide))).tail
      (.append [2] (by decide +kernel) (by decide))).tail
      (.append [3] (by decide +kernel) (by decide))).tail .peekNext).tail
      .commitPending).tail (.append [4] (by decide +kernel) (by decide))
  refine ⟨_, run, by decide +kernel, by decide +kernel, by decide +kernel, by decide +kernel, ?_⟩
  unfold Balanced
  decide +kernel

end Statix.Wal
