import Statix.Wal.Recovery

/-!
# The representation invariant of the store

`StoreInv` says in terms of the store and its directory alone what `Represents` says through a log.
It holds in every state reachable from recovery by any sequence of calls (`mod.rs:192-387`,
`writer.rs:73-79`), over every outcome of their I/O calls, as long as segment numbers are left.

* `Represents.inv`: a store that represents a log has the invariant.
* `represents_step`: every call keeps the representation.
* **`store_invariant`**: the invariant in every reachable state, and `enforce_cap` keeps the active
  segment.
* `number_wraps`: behind the segment with the last number `next_seq` is 0.

Out of scope: a repair or a truncation that fails (`Io.Repairs`).
-/

namespace Statix.Wal

open Statix.Lib

variable [Crc32] {s s' : Store} {l : FrameLog}

/-- The file at `path` is a good segment header followed by these frames. -/
def IsSegment (d : Disk) (path : FileName) (frames : List DecodedFrame) : Prop :=
  ∃ file hdr, d path = some file ∧ hdr.length = segmentHeaderLen ∧
    validateSegmentHeader hdr = .ok () ∧ file.data = hdr ++ encodeFrames frames ∧
    ∀ f ∈ frames, ValidPayload f.payload

/-- **The representation invariant of `WalInner`.** -/
structure StoreInv (s : Store) : Prop where
  increasing : s.segments.Pairwise fun a b => a.seq < b.seq
  below : ∀ m ∈ s.segments, m.seq < s.nextSeq
  fresh : ∀ m ∈ s.segments, m.path ≠ segmentPath s.nextSeq
  active : ∀ a, s.active = some a → ∃ m, s.segments.getLast? = some m ∧ m.seq = a.seq ∧
    m.path = a.file.path ∧ m.bytes = a.offset
  total : s.totalBytes = (s.segments.map SegmentMeta.bytes).sum
  files : ∀ m ∈ s.segments, ∃ frames, IsSegment s.disk m.path frames ∧
    frames.length = m.frames ∧ segmentHeaderLen + (encodeFrames frames).length = m.bytes
  cursor : (∀ m ∈ s.segments, m.seq ≠ s.readSeq) ∧ s.pendingAdvance = none ∨
    ∃ front rest, s.segments = front :: rest ∧ s.readSeq = front.seq ∧
      ∃ behind ahead, IsSegment s.disk front.path (behind ++ ahead) ∧
        s.readOffset = segmentHeaderLen + (encodeFrames behind).length ∧
        ∀ next, s.pendingAdvance = some next → ∃ f later, ahead = f :: later ∧
          next = segmentHeaderLen + (encodeFrames (behind ++ [f])).length

theorem HoldsSeg.isSegment {d : Disk} {g : Seg DecodedFrame} (h : HoldsSeg d g)
    (hv : ∀ f ∈ g.items, ValidPayload f.payload) : IsSegment d (segmentPath g.seq) g.items := by
  obtain ⟨file, hdr, hd, hdata, hlen, hval, -⟩ := h.file
  exact ⟨file, hdr, hd, hlen, hval, hdata, hv⟩

theorem Represents.inv (h : Represents s l) : StoreInv s := by
  have hmem : ∀ m ∈ s.segments, ∃ g ∈ l.segs, metaOf g = m := fun m hm => by
    rw [h.segments] at hm
    exact List.mem_map.mp hm
  constructor
  case increasing =>
    rw [h.segments, List.pairwise_map]
    exact h.sorted
  case below =>
    intro m hm
    obtain ⟨g, hg, rfl⟩ := hmem m hm
    exact h.below g hg
  case fresh =>
    intro m hm
    obtain ⟨g, hg, rfl⟩ := hmem m hm
    exact h.ne_nextSeq hg
  case active =>
    intro a ha
    rcases h.active with hn | ⟨init, g, hs, he⟩
    · exact absurd (hn.symm.trans ha) (by simp)
    · obtain rfl : activeOf g = a := Option.some.inj (he.symm.trans ha)
      refine ⟨metaOf g, ?_, rfl, rfl, rfl⟩
      rw [h.segments, hs, List.map_append, List.map_singleton, List.getLast?_concat]
  case total =>
    rw [h.total, h.segments, List.map_map]
    rfl
  case files =>
    intro m hm
    obtain ⟨g, hg, rfl⟩ := hmem m hm
    exact ⟨g.items, (h.files g hg).isSegment (h.valid g hg), rfl, rfl⟩
  case cursor =>
    cases h.cursor with
    | off h1 _ h3 _ _ =>
      refine Or.inl ⟨fun m hm => ?_, h3⟩
      obtain ⟨g, hg, rfl⟩ := hmem m hm
      exact h1 g hg
    | front g rest hs hseq hoff hpend =>
      have hg : g ∈ l.segs := by rw [hs]; exact List.mem_cons_self
      refine Or.inr ⟨metaOf g, rest.map metaOf, by rw [h.segments, hs]; rfl, hseq,
        g.items.take l.consumed, g.items.drop l.consumed, ?_, hoff, ?_⟩
      · rw [List.take_append_drop]
        exact (h.files g hg).isSegment (h.valid g hg)
      · intro next hnext
        rcases hpend with hn | ⟨hc, hp⟩
        · exact absurd (hn.symm.trans hnext) (by simp)
        · refine ⟨g.items[l.consumed], g.items.drop (l.consumed + 1),
            List.drop_eq_getElem_cons hc, ?_⟩
          rw [← List.take_succ_eq_append_getElem hc]
          exact Option.some.inj (hnext.symm.trans hp)

/-- One call on the store, with any outcome of its I/O calls but those of the repair. Appends only
in stores `allowed`; `gc_front_consumed` is called away from the active segment only. -/
inductive StoreStep (allowed : Store → Prop) : Store → Store → Prop
  | appendOne {s : Store} (io : Io) (payload : Bytes) (valid : ValidPayload payload)
      (repairs : io.Repairs) (number : allowed s) : StoreStep allowed s (appendOne io s payload).1
  | syncActive {s : Store} (io : Io) : StoreStep allowed s (syncActive io s)
  | peekNext {s : Store} (io : Io) : StoreStep allowed s (peekNext io s).1
  | commitPending {s : Store} : StoreStep allowed s (commitPending s)
  | gcFrontConsumed {s : Store} (io : Io) (notActive : readsActive s = false) :
      StoreStep allowed s (gcFrontConsumed io s)
  | enforceCap {s : Store} (io : Io) (incoming : Nat) :
      StoreStep allowed s (enforceCap io s incoming)

/-- With no segment under the cursor `gc_front_consumed` goes to the front. -/
theorem gcFrontConsumed_off {io : Io} (h : Represents s l)
    (hoff : ∀ g ∈ l.segs, g.seq ≠ s.readSeq) (hc : l.consumed = 0)
    (hp : s.pendingAdvance = none) : Represents (gcFrontConsumed io s) l := by
  have hfind : s.segments.find? (fun m => m.seq == s.readSeq) = none := by
    rw [h.segments, List.find?_eq_none]
    intro m hm
    obtain ⟨g, hg, rfl⟩ := List.mem_map.mp hm
    rw [beq_iff_eq]
    exact hoff g hg
  unfold gcFrontConsumed
  rw [hfind]
  simp only
  split
  · exact h.congr rfl rfl rfl rfl rfl rfl hp.symm h.files fun _ hn => hn
  · rename_i front ms hcons
    rw [h.segments, List.map_eq_cons_iff] at hcons
    obtain ⟨g, rest, hs, rfl, rfl⟩ := hcons
    exact (h.toFront hs hc hp).congr rfl rfl rfl rfl rfl rfl hp.symm h.files fun _ hn => hn

/-- **Every call keeps the representation.** -/
theorem represents_step (h : Represents s l) (hstep : StoreStep NumbersLeft s s') :
    ∃ l', Represents s' l' := by
  cases hstep with
  | appendOne io payload valid repairs number =>
    obtain ⟨n, rotates, o⟩ := appendOne_spec io h repairs number valid
    exact ⟨_, o.store⟩
  | syncActive io => exact ⟨l, syncActive_spec h⟩
  | peekNext io =>
    obtain ⟨n, o⟩ := peekNext_spec io h
    exact ⟨_, o.store⟩
  | commitPending =>
    rcases commitPending_spec h with ⟨-, e⟩ | ⟨f, l', -, hr, -⟩
    · exact ⟨l, by rw [e]; exact h⟩
    · exact ⟨l', hr⟩
  | gcFrontConsumed io notActive =>
    cases h.cursor with
    | off h1 h2 h3 _ _ => exact ⟨l, gcFrontConsumed_off h h1 h2 h3⟩
    | front g rest hs hseq _ _ => exact ⟨_, (gcFrontConsumed_spec _ h hs hseq notActive).1⟩
  | enforceCap io incoming =>
    obtain ⟨n, -, hr, -⟩ := enforceCap_spec io h incoming
    exact ⟨_, hr⟩

/-- `enforce_cap` leaves the active segment tracked. -/
theorem enforceCap_active (h : Represents s l) (io : Io) (incoming : Nat) {a : ActiveSegment}
    (ha : s.active = some a) : ∃ m ∈ (enforceCap io s incoming).segments, m.seq = a.seq := by
  obtain ⟨n, -, hr, -, hact, -⟩ := enforceCap_spec io h incoming
  obtain ⟨m, hlast, hseq, -⟩ := hr.inv.active a (hact.trans ha)
  exact ⟨m, List.mem_of_getLast? hlast, hseq⟩

/-- **The representation invariant holds in every state reachable from recovery** while segment
numbers are left, and `enforce_cap` never removes the active segment. -/
theorem store_invariant {io : Io} {cfg : WalConfig} {entries : List FileName} {d : Disk}
    {s₀ s : Store} (written : WrittenDir d) (lists : Lists entries d)
    (truncates : ∀ n, io.setLen n = true) (recovered : recover io cfg entries d = some s₀)
    (run : Relation.ReflTransGen (StoreStep NumbersLeft) s₀ s) :
    StoreInv s ∧ ∀ (io : Io) (incoming : Nat) (a : ActiveSegment), s.active = some a →
      ∃ m ∈ (enforceCap io s incoming).segments, m.seq = a.seq := by
  have h : ∃ l, Represents s l := by
    induction run with
    | refl =>
      obtain ⟨s', l, e, o⟩ := recover_spec io truncates cfg written lists
      obtain rfl : s' = s₀ := Option.some.inj (e.symm.trans recovered)
      exact ⟨l, o.store⟩
    | tail _ hstep ih =>
      obtain ⟨l, h⟩ := ih
      exact represents_step h hstep
  obtain ⟨l, h⟩ := h
  exact ⟨h.inv, fun io incoming a ha => enforceCap_active h io incoming ha⟩

/-! ## A directory recovered -/

/-- A directory with these files. -/
def diskOf (files : List (Nat × Bytes)) : Disk :=
  files.foldr (fun f d => d.put (segmentPath f.1) ⟨f.2, f.2.length⟩) fun _ => none

omit [Crc32] in
/-- A directory of segment files is one this code writes. -/
theorem writtenDir_diskOf {files : List (Nat × Bytes)} (h : ∀ f ∈ files, f.1 < u64Max) :
    WrittenDir (diskOf files) := by
  induction files with
  | nil => exact ⟨fun _ hn => absurd rfl hn, fun _ _ h => by cases h⟩
  | cons f files ih =>
    have ih := ih fun x hx => h x (List.mem_cons_of_mem _ hx)
    have hne : ∀ {n}, n ≠ segmentPath f.1 → diskOf (f :: files) n = diskOf files n :=
      fun hn => Dir.put_ne _ _ hn
    constructor
    case named =>
      intro n hn
      by_cases e : n = segmentPath f.1
      · exact ⟨f.1, h f List.mem_cons_self, e⟩
      · rw [hne e] at hn
        exact ih.named n hn
    case wf =>
      intro n file hfile
      by_cases e : n = segmentPath f.1
      · rw [e] at hfile
        obtain rfl := Option.some.inj ((Dir.put_self _ _ _).symm.trans hfile)
        exact Nat.le_refl _
      · rw [hne e] at hfile
        exact ih.wf n file hfile

omit [Crc32] in
/-- Its files are listed one by one. -/
theorem lists_diskOf {files : List (Nat × Bytes)} (h : (files.map Prod.fst).Nodup) :
    Lists (files.map fun f => segmentPath f.1) (diskOf files) := by
  constructor
  case nodup =>
    rw [List.Nodup, List.pairwise_map] at h ⊢
    exact h.imp fun hab e => hab (segmentPath_inj.mp e)
  case mem =>
    clear h
    induction files with
    | nil => exact fun n => ⟨fun hn => absurd hn List.not_mem_nil, fun hn => absurd rfl hn⟩
    | cons f files ih =>
      intro n
      rw [List.map_cons, List.mem_cons]
      by_cases e : n = segmentPath f.1
      · refine iff_of_true (Or.inl e) ?_
        rw [e]
        show Dir.put _ _ _ _ ≠ none
        rw [Dir.put_self]
        exact Option.some_ne_none _
      · have hne : diskOf (f :: files) n = diskOf files n := Dir.put_ne _ _ e
        rw [hne, ← ih n]
        exact or_iff_right e

/-- A segment file with these frames. -/
def segmentFile (frames : List DecodedFrame) : Bytes := encodeSegmentHeader ++ encodeFrames frames

/-- `Io.ok`, but the payload write fails after `k` bytes. -/
def Io.payloadFault (k : Nat) : Io := { Io.ok with writePayload := some k }

omit [Crc32] in
/-- A directory of two segments is recovered, the second with a torn frame behind its good one. The
first frame is read and committed, the write of the next is torn after one byte, the one behind it
is stored in a segment of its own, and reading removes the first segment. -/
theorem store_invariant_recovered : letI := crc32Ieee
    ∃ s₀ s, recover .ok smallConfig [segmentPath 3, segmentPath 5]
        (diskOf [(3, segmentFile [⟨0, [7]⟩]), (5, segmentFile [⟨1, [8]⟩] ++ [9, 9])]) = some s₀ ∧
      Relation.ReflTransGen (StoreStep NumbersLeft) s₀ s ∧
      s.segments.map SegmentMeta.seq = [5, 6] ∧ (peekNext .ok s).2 = .frame ⟨1, [8]⟩ ∧
      StoreInv s := by
  let _ := crc32Ieee
  let files : List (Nat × Bytes) :=
    [(3, segmentFile [⟨0, [7]⟩]), (5, segmentFile [⟨1, [8]⟩] ++ [9, 9])]
  let found := recover .ok smallConfig [segmentPath 3, segmentPath 5] (diskOf files)
  let s₀ := found.getD (emptyStore smallConfig fun _ => none)
  have recovered : found = some s₀ :=
    (Option.getD_of_ne_none (Option.isSome_iff_ne_none.mp (by decide +kernel)) _).symm
  have read : Relation.ReflTransGen (StoreStep NumbersLeft) s₀ _ :=
    (Relation.ReflTransGen.single (.peekNext .ok)).tail .commitPending
  have written := (read.tail (.appendOne (.payloadFault 1) [10] (by decide) ⟨fun _ => rfl, rfl⟩
    (by decide +kernel))).tail (.appendOne .ok (List.replicate 17 11) (by decide) Io.repairs_ok
    (by decide +kernel))
  have run := written.tail (.peekNext .ok)
  exact ⟨_, _, recovered, run, by decide +kernel, by decide +kernel,
    (store_invariant (writtenDir_diskOf (by decide)) (@lists_diskOf files (by decide))
      (fun _ => rfl) recovered run).1⟩

omit [Crc32] in
/-- **The number after the last one is 0.** A directory with the segment of number `u64::MAX - 1` is
recovered; the next append rotates, and `next_seq` wraps below the two tracked numbers. -/
theorem number_wraps : letI := crc32Ieee
    ∃ s₀ s, WrittenDir (diskOf [(u64Max - 1, segmentFile [⟨0, [7]⟩])]) ∧
      recover .ok tinyConfig [segmentPath (u64Max - 1)]
        (diskOf [(u64Max - 1, segmentFile [⟨0, [7]⟩])]) = some s₀ ∧
      Relation.ReflTransGen (StoreStep fun _ => True) s₀ s ∧
      s.segments.map SegmentMeta.seq = [u64Max - 1, u64Max] ∧ s.nextSeq = 0 ∧ ¬ StoreInv s := by
  let _ := crc32Ieee
  let found := recover .ok tinyConfig [segmentPath (u64Max - 1)]
    (diskOf [(u64Max - 1, segmentFile [⟨0, [7]⟩])])
  let s₀ := found.getD (emptyStore tinyConfig fun _ => none)
  have recovered : found = some s₀ :=
    (Option.getD_of_ne_none (Option.isSome_iff_ne_none.mp (by decide +kernel)) _).symm
  let s := (appendOne .ok s₀ [8]).1
  have run : Relation.ReflTransGen (StoreStep fun _ => True) s₀ s :=
    .single (.appendOne .ok [8] (by decide) Io.repairs_ok trivial)
  have hseqs : s.segments.map SegmentMeta.seq = [u64Max - 1, u64Max] := by decide +kernel
  have hnext : s.nextSeq = 0 := by decide +kernel
  refine ⟨_, s, writtenDir_diskOf (by decide), recovered, run, hseqs, hnext, fun inv => ?_⟩
  obtain ⟨m, hm, -⟩ := List.mem_map.mp (hseqs ▸ List.mem_cons_self : u64Max - 1 ∈ _)
  have := inv.below m hm
  omega

end Statix.Wal
