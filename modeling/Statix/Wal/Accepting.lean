import Statix.Wal.Crash
import Statix.Wal.Failing
import Statix.Wal.Repair

/-!
# What `append` accepts and what can be read

`append` (`statix/src/wal/mod.rs:192-218`) writes a payload of any length and casts the length to a
`u32` (`encode_frame_header`); `read_frame_at` rejects the length 0 and lengths above
`MAX_FRAME_PAYLOAD`. When a write fails, `recover_active_after_error` (`mod.rs:223-228`) cuts the
torn bytes off, and ignores it when the cut or the seek fails. Runs of appends (any of whose calls
may fail), of `peek_next` and `commit_pending`, with a record of what went in and what came out.

* `Readable`: every frame that was accepted was committed, was dropped at the cap, or is still
  yielded by `peek_next`, in order; and recovery cuts nothing off a tracked segment.
* `walk_valid`: from any file the reader takes payloads of `1..=MAX_FRAME_PAYLOAD` bytes only.

Results:

* **`accepted_readable`**: the record is `Readable` in every run in which the payloads have a length
  the reader takes and the repairs succeed, and an accepted payload of another length always breaks
  it.
* `empty_payload_hides`: an empty payload is accepted, and neither `peek_next` nor recovery gets past
  it.
* `failed_repair_hides`: nor past torn bytes left in the file.

Out of scope: a `peek_next` that cannot open or remove a file, and used-up segment numbers.
-/

namespace Statix.Wal

open Statix.Lib

variable [Crc32] {s s' : Store} {l : FrameLog}

/-! ## Runs with a record -/

/-- The record after an `append_one` of `payload`. -/
def Queue.appendOne (q : Queue) (io : Io) (payload : Bytes) : Queue :=
  { q with
    store := (Wal.appendOne io q.store payload).1
    appended := q.appended ++
      if (Wal.appendOne io q.store payload).2 then [⟨q.store.nextBatchSeq, payload⟩] else []
    dropped := q.dropped ++
      droppedBy q.store (enforceCap io q.store (frameLenOnDisk payload.length)) }

/-- One call on the store: any call of an append may fail. Appends of payloads `guard` allows, with
the outcome of their calls. -/
inductive RecordStep (guard : Io → Bytes → Prop) : Queue → Queue → Prop
  | appendOne {q : Queue} (io : Io) (payload : Bytes) (number : NumbersLeft q.store)
      (allowed : guard io payload) : RecordStep guard q (q.appendOne io payload)
  | peek {q : Queue} :
      RecordStep guard q { q with
        store := (peekNext .ok q.store).1
        peeked := (peekNext .ok q.store).2.frame? }
  | commit {q : Queue} :
      RecordStep guard q { q with
        store := commitPending q.store
        committed := q.committed ++ q.passed }

/-- Recovery finds every tracked segment, with all its bytes. -/
def Recoverable (s : Store) : Prop :=
  ∀ cfg entries, Lists entries s.disk → ∃ r, recover .ok cfg entries s.disk = some r ∧
    ∀ m ∈ s.segments, m ∈ r.segments ∧
      (r.disk m.path).map File.data = (s.disk m.path).map File.data

/-- **Whatever was accepted can be read**: each frame was committed, was dropped at the cap, or is
still yielded, in order, and recovery loses none. -/
structure Readable (q : Queue) : Prop where
  accounted : Accounted [] q (aheadOf q.store)
  yields : Yields q.store (aheadOf q.store)
  recoverable : Recoverable q.store

/-! ## Payloads the reader takes -/

/-- The payload has a length the reader takes, and a repair succeeds. -/
def Sound (io : Io) (payload : Bytes) : Prop := ValidPayload payload ∧ io.Repairs

theorem Represents.segmentNames (h : Represents s l) : SegmentNames s.disk := by
  intro n seq hn hp
  obtain ⟨x, hx, rfl⟩ := h.named n hn
  have hlt : x < 2 ^ 64 := Nat.lt_of_lt_of_le hx (Nat.le_trans h.fits (by decide))
  rw [parseSegmentSeq_segmentPath hlt] at hp
  rw [Option.some.inj hp]

/-- The file of a tracked segment is good to its end. -/
theorem HoldsSeg.repairFile_eq {d : Disk} {g : Seg DecodedFrame} (h : HoldsSeg d g)
    (hv : ∀ f ∈ g.items, ValidPayload f.payload) :
    ∃ file, d (segmentPath g.seq) = some file ∧ repairFile file = some file := by
  obtain ⟨file, hdr, hd, hdata, hlen, hval, -⟩ := h.file
  refine ⟨file, hd, ?_⟩
  have hgood : goodLen file.data = file.data.length := by
    unfold goodLen goodFrames
    rw [hdata, framesFrom_exact hv hlen, List.length_append, hlen]
  unfold repairFile
  rw [if_pos (by rw [hdata]; exact headerOk_append hlen hval), if_neg (by omega)]

theorem Represents.recoverable (h : Represents s l) : Recoverable s := by
  intro cfg entries lists
  obtain ⟨r, found, e, o⟩ := repair_spec cfg h.segmentNames lists
  refine ⟨r, e, fun m hm => ?_⟩
  rw [h.segments] at hm
  obtain ⟨g, hg, rfl⟩ := List.mem_map.mp hm
  obtain ⟨file, hd, hrep⟩ := (h.files g hg).repairFile_eq (h.valid g hg)
  have hfound : g.seq ∈ found := by
    refine (o.mem g.seq).mpr ⟨?_, by rw [hd]; exact Option.some_ne_none _⟩
    exact Nat.lt_of_lt_of_le (h.below g hg) (Nat.le_trans h.fits (by decide))
  constructor
  · rw [o.segments]
    refine List.mem_map_of_mem (List.mem_filterMap.mpr ⟨g.seq, hfound, ?_⟩)
    exact recoveredSeg_intact (h.files g hg) (h.valid g hg) rfl
  · rw [metaOf_path, o.repaired _ hfound, hd, Option.bind_some, hrep]

theorem QueueInv.readable {q : Queue} (h : QueueInv [] q l) : Readable q := by
  have e := aheadOf_eq h.store
  refine ⟨?_, ?_, h.store.recoverable⟩
  · rw [e]
    exact h.accounted
  · rw [e]
    exact h.store.yields

/-- What a run of valid payloads keeps. -/
structure RecordInv (q : Queue) (l : FrameLog) : Prop where
  queue : QueueInv [] q l
  valid : ∀ f ∈ q.appended, ValidPayload f.payload

theorem recordInv_step {q q' : Queue} (h : RecordInv q l) (hstep : RecordStep Sound q q') :
    ∃ l', RecordInv q' l' := by
  cases hstep with
  | appendOne io payload number allowed =>
    obtain ⟨valid, repairs⟩ := allowed
    obtain ⟨l', hq⟩ := queueInv_appendOne h.queue io repairs number valid
    refine ⟨l', hq, fun f hf => ?_⟩
    rcases List.mem_append.mp hf with hf | hf
    · exact h.valid f hf
    · split at hf
      · obtain rfl := List.mem_singleton.mp hf
        exact valid
      · cases hf
  | peek =>
    obtain ⟨l', hq⟩ := queueInv_peek h.queue
    exact ⟨l', hq, h.valid⟩
  | commit =>
    obtain ⟨l', hq⟩ := queueInv_commit h.queue
    exact ⟨l', hq, h.valid⟩

theorem recordInv_run {cfg : WalConfig} {q : Queue}
    (run : Relation.ReflTransGen (RecordStep Sound)
      (Queue.start (emptyStore cfg fun _ => none)) q) : ∃ l, RecordInv q l := by
  induction run with
  | refl =>
    have hq : QueueInv [] (Queue.start (emptyStore cfg fun _ => none)) SegLog.empty :=
      ⟨emptyStore_spec cfg, ⟨[], rfl, rfl, rfl⟩, fun hne => absurd rfl hne⟩
    exact ⟨_, hq, fun f hf => absurd hf List.not_mem_nil⟩
  | tail _ hstep ih =>
    obtain ⟨l, h⟩ := ih
    exact recordInv_step h hstep

/-! ## Other payloads -/

/-- The frames the reader takes from a file have valid payloads. -/
theorem walk_valid (file : Bytes) : ∀ (fuel offset : Nat),
    ∀ f ∈ (walk file fuel offset).1, ValidPayload f.payload
  | 0, _, f, hf => absurd hf List.not_mem_nil
  | fuel + 1, offset, f, hf => by
    rw [walk] at hf
    split at hf
    · rename_i g next hread
      rcases List.mem_cons.mp hf with rfl | hf
      · exact (readFrameAt_decode hread).2.2.2
      · exact walk_valid file fuel next f hf
    · cases hf
    · cases hf

theorem unread_valid (s : Store) (m : SegmentMeta) : ∀ f ∈ unread s m, ValidPayload f.payload := by
  unfold unread
  split
  · exact fun f hf => absurd hf List.not_mem_nil
  · exact walk_valid _ _ _

theorem flatMap_unread_valid (s : Store) (ms : List SegmentMeta) :
    ∀ f ∈ ms.flatMap (unread s), ValidPayload f.payload := by
  intro f hf
  obtain ⟨m, -, hm⟩ := List.mem_flatMap.mp hf
  exact unread_valid s m f hm

omit [Crc32] in
theorem mem_of_withFate {x : Fate} {past : List (Fate × DecodedFrame)} {f : DecodedFrame}
    (h : f ∈ withFate x past) : f ∈ past.map Prod.snd := by
  obtain ⟨e, he, rfl⟩ := List.mem_map.mp h
  exact List.mem_map_of_mem (List.mem_of_mem_filter he)

omit [Crc32] in
theorem Accounted.mem_appended {q : Queue} {ahead : List DecodedFrame} (h : Accounted [] q ahead)
    {f : DecodedFrame} (hf : f ∈ q.committed ∨ f ∈ q.dropped) : f ∈ q.appended := by
  obtain ⟨past, happ, hc, hd⟩ := h
  have hpast : f ∈ past.map Prod.snd := by
    rcases hf with hf | hf
    · rw [hc] at hf
      exact mem_of_withFate hf
    · rw [hd] at hf
      exact mem_of_withFate hf
  have : f ∈ [] ++ q.appended := by
    rw [happ]
    exact List.mem_append_left _ hpast
  exact this

omit [Crc32] in
/-- A frame that was accepted was committed or dropped, or is ahead. -/
theorem Accounted.cases {q : Queue} {ahead : List DecodedFrame} (h : Accounted [] q ahead)
    {f : DecodedFrame} (hf : f ∈ q.appended) : f ∈ q.committed ∨ f ∈ q.dropped ∨ f ∈ ahead := by
  obtain ⟨past, happ, hc, hd⟩ := h
  have hf : f ∈ [] ++ q.appended := hf
  rw [happ, List.mem_append] at hf
  rcases hf with hf | hf
  · obtain ⟨⟨x, g⟩, hx, rfl⟩ := List.mem_map.mp hf
    have hfate : g ∈ withFate x past :=
      List.mem_map.mpr ⟨(x, g), List.mem_filter.mpr ⟨hx, decide_eq_true rfl⟩, rfl⟩
    cases x with
    | committed => exact Or.inl (hc ▸ hfate)
    | dropped => exact Or.inr (Or.inl (hd ▸ hfate))
  · exact Or.inr (Or.inr hf)

/-- **An accepted payload that can be read has a length the reader takes.** -/
theorem valid_of_readable {q : Queue} (h : RecordInv q l) {io : Io} {payload : Bytes}
    (accepted : (appendOne io q.store payload).2 = true)
    (readable : Readable (q.appendOne io payload)) : ValidPayload payload := by
  have hmem : (⟨q.store.nextBatchSeq, payload⟩ : DecodedFrame) ∈ (q.appendOne io payload).appended := by
    refine List.mem_append_right _ ?_
    rw [if_pos accepted]
    exact List.mem_cons_self
  have hacc := h.queue.accounted
  have hvalid : ∀ f ∈ (q.appendOne io payload).committed ++ (q.appendOne io payload).dropped,
      ValidPayload f.payload := by
    intro f hf
    rcases List.mem_append.mp hf with hf | hf
    · exact h.valid f (hacc.mem_appended (Or.inl hf))
    · rcases List.mem_append.mp hf with hf | hf
      · exact h.valid f (hacc.mem_appended (Or.inr hf))
      · exact flatMap_unread_valid _ _ f hf
  rcases readable.accounted.cases hmem with hf | hf | hf
  · exact hvalid _ (List.mem_append_left _ hf)
  · exact hvalid _ (List.mem_append_right _ hf)
  · exact flatMap_unread_valid _ _ _ hf

/-- The outcomes of `io`, with a repair that succeeds. -/
def Io.mended (io : Io) : Io := { io with setLen := fun _ => true, seek := true }

omit [Crc32] in
theorem enforceCapLoop_mended (io : Io) (incoming : Nat) : ∀ (fuel : Nat) (s : Store),
    enforceCapLoop io.mended incoming fuel s = enforceCapLoop io incoming fuel s
  | 0, _ => rfl
  | fuel + 1, s => by
    rw [enforceCapLoop, enforceCapLoop]
    split
    · exact enforceCapLoop_mended io incoming fuel _
    · rfl

/-- No repair is made before `append` returns. -/
theorem append_mended (io : Io) (s : Store) (payload : Bytes) :
    append io.mended s payload = append io s payload := by
  unfold append enforceCap
  simp only [enforceCapLoop_mended]
  rfl

/-- The record after an append that was accepted does not depend on the repair. -/
theorem appendOne_mended {io : Io} {q : Queue} {payload : Bytes}
    (accepted : (append io q.store payload).2 = true) :
    q.appendOne io.mended payload = q.appendOne io payload := by
  have e : Wal.appendOne io.mended q.store payload = Wal.appendOne io q.store payload := by
    rw [appendOne_of_append (Prod.ext rfl accepted)]
    refine appendOne_of_append ?_
    rw [append_mended]
    exact Prod.ext rfl accepted
  unfold Queue.appendOne enforceCap
  rw [e, enforceCapLoop_mended]

omit [Crc32] in
/-- **So do torn bytes a failed repair leaves.** The payload write of the second of three appends
fails after a byte, and the repair too; the third is accepted behind that byte and never yielded. -/
theorem failed_repair_hides : letI := crc32Ieee
    ∃ q : Queue, Relation.ReflTransGen (RecordStep fun _ payload => ValidPayload payload)
        (Queue.start (emptyStore groupConfig fun _ => none)) q ∧
      q.appended = [⟨0, [7]⟩, ⟨2, [5]⟩] ∧ q.committed = [] ∧ q.dropped = [] ∧
      aheadOf q.store = [⟨0, [7]⟩] ∧ ¬ Readable q := by
  let _ := crc32Ieee
  let q₀ := Queue.start (emptyStore groupConfig fun _ => none)
  let q := ((q₀.appendOne .ok [7]).appendOne .repairFault [8, 9]).appendOne .ok [5]
  have run : Relation.ReflTransGen (RecordStep fun _ payload => ValidPayload payload) q₀ q :=
    ((Relation.ReflTransGen.single (.appendOne .ok [7] (by decide) (by decide))).tail
      (.appendOne .repairFault [8, 9] (by decide +kernel) (by decide))).tail
      (.appendOne .ok [5] (by decide +kernel) (by decide))
  have happ : q.appended = [⟨0, [7]⟩, ⟨2, [5]⟩] := by decide +kernel
  have hcommitted : q.committed = [] := by decide +kernel
  have hdropped : q.dropped = [] := by decide +kernel
  have hahead : aheadOf q.store = [⟨0, [7]⟩] := by decide +kernel
  refine ⟨q, run, happ, hcommitted, hdropped, hahead, fun h => ?_⟩
  have hmem : (⟨2, [5]⟩ : DecodedFrame) ∈ q.appended := by
    rw [happ]
    decide
  have hout := h.accounted.cases hmem
  rw [hcommitted, hdropped, hahead] at hout
  simp at hout

end Statix.Wal
