import Statix.Wal.Backlog

/-!
# Appends that fail

What `append_one` (`writer.rs:73-79`) leaves behind when one of its I/O calls fails:
`create_dir_all`, the open of the new segment, its header write or one of the two writes of the
frame, these after any number of bytes.

* `Yields`: the frames `peek_next` will give, however often it is called.
* **`failed_append_costs_one`**: after a failed append these are the frames the cap left, and a later
  append that succeeds adds its own frame behind them.

The files are another matter. `rotate` (`mod.rs:254-283`) creates the new file before it tracks the
segment, so a header write that fails leaves a file nobody removes.

* `Books`: the files of the directory are those of the tracked segments and, where `exact` says the
  repairs succeeded, have the sizes recorded. It says nothing about the contents, so payloads may
  have any length.
* **`files_tracked`**: it holds in every run in which no header write fails, and each such failure
  breaks it.
* `untracked_files`: on a full disk every append adds a file.

Out of scope: runs that use up the segment numbers (`NumbersLeft`).
-/

namespace Statix.Wal

open Statix.Lib

variable [Crc32] {s s' : Store} {l : FrameLog} {io : Io}

/-! ## What is still yielded -/

/-- A store that represents some log, with a number left for the next segment. -/
def WellFormed (s : Store) : Prop := NumbersLeft s ∧ ∃ l, Represents s l

/-- `peek_next` and `commit_pending` in turn give these frames and then no more. -/
def Yields (s : Store) (frames : List DecodedFrame) : Prop := ∀ n, drain n s = frames.take n

theorem Represents.yields (h : Represents s l) : Yields s l.ahead := fun n => drain_eq n h

/-- **What an `append_one` does to the frames that are yielded**: the cap takes some from the front,
and the new frame joins the back when both writes succeeded. -/
theorem yields_appendOne (h : WellFormed s) (repairs : io.Repairs) {payload : Bytes}
    (valid : ValidPayload payload) :
    ∃ left, Yields (cappedFor io s payload) left ∧
      Yields s (droppedBy s (cappedFor io s payload) ++ left) ∧
      Yields (appendOne io s payload).1
        (left ++ if (appendOne io s payload).2 then [⟨s.nextBatchSeq, payload⟩] else []) := by
  obtain ⟨number, l, h⟩ := h
  obtain ⟨n, rotates, o⟩ := appendOne_spec io h repairs number valid
  refine ⟨(l.dropSegs n).ahead, o.capped.yields, ?_, ?_⟩
  · have hy := h.yields
    rw [SegLog.ahead_dropSegs n l] at hy
    rw [cappedFor, droppedBy_eq h o.capped]
    exact hy
  · have hy := o.store.yields
    rw [o.ahead] at hy
    exact hy

theorem represented_run (h : ∃ l, Represents s l)
    (run : Relation.ReflTransGen (StoreStep NumbersLeft) s s') : ∃ l, Represents s' l := by
  induction run with
  | refl => exact h
  | tail _ hstep ih =>
    obtain ⟨l, h⟩ := ih
    exact represents_step h hstep

/-- **A failed append costs only its own batch.** Wherever an I/O call of the append failed, what is
yielded after it is what the cap left; and after any further calls, an append that succeeds adds its
own frame behind what the cap left then. -/
theorem failed_append_costs_one (h : WellFormed s) (repairs : io.Repairs) {payload : Bytes}
    (valid : ValidPayload payload) (failed : (appendOne io s payload).2 = false) :
    (∃ left, Yields (cappedFor io s payload) left ∧
      Yields s (droppedBy s (cappedFor io s payload) ++ left) ∧
      Yields (appendOne io s payload).1 left) ∧
    ∀ s' io' payload', Relation.ReflTransGen (StoreStep NumbersLeft) (appendOne io s payload).1 s' →
      io'.Repairs → NumbersLeft s' → ValidPayload payload' →
      (appendOne io' s' payload').2 = true →
      ∃ left, Yields (cappedFor io' s' payload') left ∧
        Yields s' (droppedBy s' (cappedFor io' s' payload') ++ left) ∧
        Yields (appendOne io' s' payload').1 (left ++ [⟨s'.nextBatchSeq, payload'⟩]) := by
  refine ⟨?_, fun s' io' payload' run repairs' number' valid' ok => ?_⟩
  · obtain ⟨left, hcap, hs, happ⟩ := yields_appendOne h repairs valid
    rw [failed] at happ
    simp only [Bool.false_eq_true, if_false, List.append_nil] at happ
    exact ⟨left, hcap, hs, happ⟩
  · obtain ⟨number, l, hl⟩ := h
    have h' : WellFormed s' := ⟨number', represented_run
      (represents_step hl (.appendOne io payload valid repairs number)) run⟩
    obtain ⟨left, hcap, hs, happ⟩ := yields_appendOne h' repairs' valid'
    rw [ok] at happ
    exact ⟨left, hcap, hs, happ⟩

omit [Crc32] in
/-- One frame is stored, the payload write of the next fails after a byte, and a third goes in. -/
theorem failed_append_costs_one_torn : letI := crc32Ieee
    ∃ s, (appendOne (.payloadFault 1) s [8, 9]).2 = false ∧
      drain 2 (appendOne (.payloadFault 1) s [8, 9]).1 = [⟨0, [7]⟩] ∧
      ∃ left, Yields (cappedFor .ok (appendOne (.payloadFault 1) s [8, 9]).1 [5]) left ∧
        Yields (appendOne .ok (appendOne (.payloadFault 1) s [8, 9]).1 [5]).1
          (left ++ [⟨2, [5]⟩]) := by
  let _ := crc32Ieee
  let s := (appendOne .ok (emptyStore smallConfig fun _ => none) [7]).1
  have h : WellFormed s := ⟨by decide +kernel, represents_step (emptyStore_spec smallConfig)
    (.appendOne .ok [7] (by decide) Io.repairs_ok (by decide))⟩
  have failed : (appendOne (.payloadFault 1) s [8, 9]).2 = false := by decide +kernel
  obtain ⟨left, hcap, -, happ⟩ := (failed_append_costs_one h ⟨fun _ => rfl, rfl⟩
    (by decide) failed).2 _ .ok [5] .refl Io.repairs_ok (by decide +kernel)
    (by decide) (by decide +kernel)
  exact ⟨s, failed, by decide +kernel, left, hcap, happ⟩

/-! ## The files and the tracked segments -/

/-- **The files of the directory are those of the tracked segments.** -/
def Tidy (s : Store) : Prop := ∀ n, s.disk n ≠ none ↔ ∃ m ∈ s.segments, m.path = n

/-- Bytes of a file, 0 where there is none. -/
def sizeOf (d : Disk) (n : FileName) : Nat := ((d n).map fun f => f.data.length).getD 0

/-- Bytes of the active file behind the last frame boundary, when `m` is the active segment. -/
def inFlight (s : Store) (extra : Nat) (m : SegmentMeta) : Nat :=
  if s.active.map ActiveSegment.seq = some m.seq then extra else 0

/-- The bookkeeping of a store against its directory, with `extra` bytes of an unfinished frame in
the active file. The sizes agree where `exact` says so. -/
structure Books (exact : Prop) (extra : Nat) (s : Store) : Prop where
  paths : ∀ m ∈ s.segments, m.path = segmentPath m.seq
  sorted : s.segments.Pairwise fun a b => a.seq < b.seq
  below : ∀ m ∈ s.segments, m.seq < s.nextSeq
  tracked : ∀ n, s.disk n ≠ none → ∃ m ∈ s.segments, m.path = n
  sizes : ∀ m ∈ s.segments, ∃ file, s.disk m.path = some file ∧
    (exact → file.data.length = m.bytes + inFlight s extra m)
  total : s.totalBytes = (s.segments.map SegmentMeta.bytes).sum
  active : ∀ a, s.active = some a → (exact → a.file.pos = a.offset + extra) ∧ ∃ init m,
    s.segments = init ++ [m] ∧ m.seq = a.seq ∧ m.path = a.file.path ∧ m.bytes = a.offset

section

omit [Crc32]

/-- Without an element that is not the last one a list ends as before. -/
theorem exists_concat_of_remove {α : Type} {pre post init : List α} {x back : α}
    (h : pre ++ x :: post = init ++ [back]) (hne : x ≠ back) :
    ∃ init', pre ++ post = init' ++ [back] := by
  rcases List.eq_nil_or_concat post with rfl | ⟨post', y, rfl⟩
  · have hlast := (List.append_inj' h rfl).2
    exact absurd (List.singleton_inj.mp hlast) hne
  · rw [List.concat_eq_append, ← List.cons_append, ← List.append_assoc] at h
    obtain rfl := List.singleton_inj.mp (List.append_inj' h rfl).2
    exact ⟨pre ++ post', by rw [List.concat_eq_append, List.append_assoc]⟩

namespace Books

variable {exact : Prop} {extra : Nat}

theorem tidy (h : Books exact extra s) : Tidy s := by
  intro n
  constructor
  · exact h.tracked n
  · rintro ⟨m, hm, rfl⟩ hnone
    obtain ⟨file, hfile, -⟩ := h.sizes m hm
    rw [hnone] at hfile
    cases hfile

/-- The books without the sizes. -/
theorem inexact (h : Books exact extra s) : Books False extra s where
  paths := h.paths
  sorted := h.sorted
  below := h.below
  tracked := h.tracked
  sizes := by
    intro m hm
    obtain ⟨file, hfile, -⟩ := h.sizes m hm
    exact ⟨file, hfile, False.elim⟩
  total := h.total
  active := fun a ha => ⟨False.elim, (h.active a ha).2⟩

theorem seq_inj (h : Books exact extra s) {a b : SegmentMeta} (ha : a ∈ s.segments)
    (hb : b ∈ s.segments) (e : a.seq = b.seq) : a = b := by
  have hnodup : (s.segments.map SegmentMeta.seq).Nodup := by
    rw [List.Nodup, List.pairwise_map]
    exact h.sorted.imp fun hlt => Nat.ne_of_lt hlt
  exact List.inj_on_of_nodup_map hnodup ha hb e

/-- The last segment has the greatest number. -/
theorem lt_back (h : Books exact extra s) {init : List SegmentMeta} {back m : SegmentMeta}
    (hback : s.segments = init ++ [back]) (hm : m ∈ init) : m.seq < back.seq := by
  have hsorted := h.sorted
  rw [hback, List.pairwise_append] at hsorted
  exact hsorted.2.2 m hm back List.mem_cons_self

/-- `Books` reads the bookkeeping fields and the directory only. -/
theorem congr (h : Books exact extra s) (hseg : s'.segments = s.segments)
    (hact : s'.active = s.active) (htot : s'.totalBytes = s.totalBytes) (hnext : s'.nextSeq = s.nextSeq)
    (hdisk : s'.disk = s.disk) : Books exact extra s' := by
  constructor
  case paths => rw [hseg]; exact h.paths
  case sorted => rw [hseg]; exact h.sorted
  case below => rw [hseg, hnext]; exact h.below
  case tracked => rw [hseg, hdisk]; exact h.tracked
  case sizes => unfold inFlight; rw [hseg, hdisk, hact]; exact h.sizes
  case total => rw [hseg, htot]; exact h.total
  case active => rw [hseg, hact]; exact h.active

/-- Removing a segment that is not the active one, with its file. -/
theorem remove (h : Books exact extra s) (pre post : List SegmentMeta) {m : SegmentMeta}
    (hs : s.segments = pre ++ m :: post) (hne : ∀ a, s.active = some a → a.seq ≠ m.seq)
    (hseg : s'.segments = pre ++ post) (hact : s'.active = s.active)
    (htot : s'.totalBytes = s.totalBytes - m.bytes) (hnext : s'.nextSeq = s.nextSeq)
    (hdisk : s'.disk = s.disk.remove m.path) : Books exact extra s' := by
  have hm : m ∈ s.segments := by rw [hs]; simp
  have hsub : ∀ x ∈ s'.segments, x ∈ s.segments := by
    intro x hx
    rw [hseg] at hx
    rw [hs]
    simp only [List.mem_append, List.mem_cons] at hx ⊢
    tauto
  have hother : ∀ x ∈ s'.segments, x.path ≠ m.path := by
    intro x hx hp
    rw [h.paths x (hsub x hx), h.paths m hm, segmentPath_inj] at hp
    have hsorted := h.sorted
    rw [hs, List.pairwise_append, List.pairwise_cons] at hsorted
    rw [hseg, List.mem_append] at hx
    rcases hx with hx | hx
    · have := hsorted.2.2 x hx m List.mem_cons_self
      omega
    · have := hsorted.2.1.1 x hx
      omega
  constructor
  case paths => exact fun x hx => h.paths x (hsub x hx)
  case sorted =>
    rw [hseg]
    refine h.sorted.sublist ?_
    rw [hs]
    exact List.Sublist.append_left (List.sublist_cons_self m post) pre
  case below =>
    intro x hx
    rw [hnext]
    exact h.below x (hsub x hx)
  case tracked =>
    intro n hn
    have hnm : n ≠ m.path := by
      rintro rfl
      rw [hdisk, Dir.remove_self] at hn
      exact hn rfl
    rw [hdisk, Dir.remove_ne _ hnm] at hn
    obtain ⟨x, hx, rfl⟩ := h.tracked n hn
    refine ⟨x, ?_, rfl⟩
    rw [hs] at hx
    rw [hseg]
    simp only [List.mem_append, List.mem_cons] at hx ⊢
    rcases hx with hx | rfl | hx
    · exact Or.inl hx
    · exact absurd rfl hnm
    · exact Or.inr hx
  case sizes =>
    intro x hx
    unfold inFlight
    rw [hdisk, Dir.remove_ne _ (hother x hx), hact]
    exact h.sizes x (hsub x hx)
  case total =>
    rw [htot, h.total, hs, hseg]
    simp only [List.map_append, List.map_cons, List.sum_append, List.sum_cons]
    omega
  case active =>
    intro a ha
    rw [hact] at ha
    obtain ⟨hpos, init, back, hback, hseq, hrest⟩ := h.active a ha
    have hback' : m ≠ back := by
      rintro rfl
      exact hne a ha hseq.symm
    obtain ⟨init', hinit⟩ := exists_concat_of_remove (hs.symm.trans hback) hback'
    exact ⟨hpos, init', back, hseg.trans hinit, hseq, hrest⟩

/-- `enforce_cap` removes segments and files alike. -/
theorem dropFront (removes : ∀ n, io.removeFile n = true) (h : Books exact extra s)
    {victim front : SegmentMeta} {rest : List SegmentMeta}
    (hs : s.segments = victim :: front :: rest) : Books exact extra (dropFront io s) := by
  have hne : ∀ a, s.active = some a → a.seq ≠ victim.seq := by
    intro a ha e
    obtain ⟨-, init, back, hback, hseq, -⟩ := h.active a ha
    have hsorted := h.sorted
    rw [hs, List.pairwise_cons] at hsorted
    have hmem : back ∈ front :: rest := by
      have hlast := congrArg List.getLast? (hs.symm.trans hback)
      rw [List.getLast?_concat, List.getLast?_cons_cons] at hlast
      exact List.mem_of_getLast? hlast
    have := hsorted.1 back hmem
    omega
  have hdisk : removeFile io s.disk victim.path = s.disk.remove victim.path := by
    unfold removeFile
    rw [if_pos (removes _)]
  rw [dropFront_eq hs]
  split
  · exact h.remove [] (front :: rest) hs hne rfl rfl rfl rfl hdisk
  · exact h.remove [] (front :: rest) hs hne rfl rfl rfl rfl hdisk

theorem enforceCap (removes : ∀ n, io.removeFile n = true) (h : Books exact extra s)
    (incoming : Nat) : Books exact extra (enforceCap io s incoming) :=
  enforceCapLoop_keeps io incoming _ (fun _ _ _ _ hs h => h.dropFront removes hs) h

/-- A change to the directory that keeps the files and their lengths. -/
theorem changeDisk (h : Books exact extra s) {d : Disk}
    (hd : ∀ n, (d n).map (fun f => f.data.length) = (s.disk n).map fun f => f.data.length) :
    Books exact extra { s with disk := d } where
  paths := h.paths
  sorted := h.sorted
  below := h.below
  tracked := by
    intro n hn
    refine h.tracked n fun hnone => hn ?_
    have e := hd n
    rw [hnone, Option.map_none, Option.map_eq_none_iff] at e
    exact e
  sizes := by
    intro m hm
    obtain ⟨file, hfile, hlen⟩ := h.sizes m hm
    have e := hd m.path
    rw [hfile, Option.map_some, Option.map_eq_some_iff] at e
    obtain ⟨file', hfile', hlen'⟩ := e
    exact ⟨file', hfile', fun he => hlen'.trans (hlen he)⟩
  total := h.total
  active := h.active

/-- The first statement of `rotate`. -/
theorem retireActive (io : Io) (h : Books exact 0 s) : Books exact 0 (retireActive io s) := by
  have hd : ∀ n, (syncDisk io s.active s.disk n).map (fun f => f.data.length) =
      (s.disk n).map fun f => f.data.length := by
    intro n
    unfold syncDisk
    cases s.active with
    | none => rfl
    | some a =>
      simp only
      split
      · by_cases hn : n = a.file.path
        · subst hn
          rw [Dir.modify_self, Option.map_map]
          rfl
        · rw [Dir.modify_ne _ _ hn]
      · rfl
  have hsync := h.changeDisk hd
  constructor
  case paths => exact h.paths
  case sorted => exact h.sorted
  case below => exact h.below
  case tracked => exact hsync.tracked
  case sizes =>
    intro m hm
    obtain ⟨file, hfile, hlen⟩ := hsync.sizes m hm
    refine ⟨file, hfile, ?_⟩
    simpa [inFlight] using hlen
  case total => exact h.total
  case active =>
    intro a ha
    cases ha

/-- A new number, when no segment is active. -/
theorem skipSeq (h : Books exact extra s) (number : NumbersLeft s) :
    Books exact extra { s with nextSeq := u64Succ s.nextSeq } where
  paths := h.paths
  sorted := h.sorted
  below := fun m hm => (h.below m hm).trans (lt_u64Succ number)
  tracked := h.tracked
  sizes := h.sizes
  total := h.total
  active := h.active

theorem ne_nextSeq (h : Books exact extra s) {m : SegmentMeta} (hm : m ∈ s.segments) :
    m.path ≠ segmentPath s.nextSeq := by
  rw [h.paths m hm]
  exact segmentPath_ne (h.below m hm)

/-- A change to the active file that leaves `extra'` bytes behind the last boundary. -/
theorem changeActive {extra' pos : Nat} (h : Books exact extra s) {a : ActiveSegment}
    (ha : s.active = some a) {g : File UInt8 → File UInt8}
    (hg : exact → ∀ f, f.data.length = a.offset + extra → (g f).data.length = a.offset + extra')
    (hpos : exact → pos = a.offset + extra') :
    Books exact extra' { s with
      active := some { a with file := { a.file with pos := pos } }
      disk := s.disk.modify a.file.path g } := by
  obtain ⟨-, init, back, hback, hseq, hpath, hbytes⟩ := h.active a ha
  have hmem : back ∈ s.segments := by rw [hback]; simp
  refine ⟨h.paths, h.sorted, h.below, fun n hn => ?_, fun m hm => ?_, h.total, ?_⟩
  · refine h.tracked n fun hnone => hn ?_
    by_cases hna : n = a.file.path
    · subst hna
      simp [hnone]
    · exact (Dir.modify_ne _ _ hna).trans hnone
  · obtain ⟨file, hfile, hlen⟩ := h.sizes m hm
    unfold inFlight at hlen ⊢
    rw [ha] at hlen
    simp only [Option.map_some, Option.some.injEq] at hlen ⊢
    by_cases hm' : m = back
    · subst hm'
      rw [if_pos hseq.symm] at hlen ⊢
      refine ⟨g file, by rw [← hpath, Dir.modify_self, hfile]; rfl, fun he => ?_⟩
      have hlen := hlen he
      rw [hg he file (by omega), hbytes]
    · have hne : a.seq ≠ m.seq := fun e => hm' (h.seq_inj hm hmem (e.symm.trans hseq.symm))
      rw [if_neg hne] at hlen ⊢
      refine ⟨file, ?_, hlen⟩
      rw [Dir.modify_ne, hfile]
      rw [h.paths m hm, ← hpath, h.paths back hmem, Ne, segmentPath_inj]
      omega
  · rintro _ ⟨⟩
    exact ⟨hpos, init, back, hback, hseq, hpath, hbytes⟩

/-- A write to the active file, torn or not. -/
theorem writeActive (h : Books exact extra s) (hsome : s.active ≠ none) (fault : Option Nat)
    (bs : Bytes) : ∃ k, Books exact (extra + k) (writeActive s fault bs).1 ∧
      (writeActive s fault bs).1.active ≠ none ∧
      ((writeActive s fault bs).2 = true → k = bs.length) := by
  obtain ⟨a, ha⟩ := Option.ne_none_iff_exists'.mp hsome
  obtain ⟨hpos, -⟩ := h.active a ha
  have hwrite : ∀ written : Bytes, exact → ∀ f : File UInt8, f.data.length = a.offset + extra →
      (f.writeAt a.file.pos written).data.length = a.offset + (extra + written.length) := by
    intro written he f hf
    rw [hpos he, File.length_writeAt written hf, Nat.add_assoc]
  have hend : ∀ written : Bytes, exact →
      a.file.pos + written.length = a.offset + (extra + written.length) := by
    intro written he
    rw [hpos he, Nat.add_assoc]
  unfold Wal.writeActive
  rw [ha]
  cases fault with
  | none =>
    exact ⟨bs.length, h.changeActive ha (hwrite bs) (hend bs), by simp, fun _ => rfl⟩
  | some k =>
    refine ⟨_, h.changeActive ha (hwrite (bs.take k)) (hend (bs.take k)), by simp, fun hok => ?_⟩
    simp at hok

/-- The repair cuts the unfinished frame off, where it succeeds. -/
theorem recoverActiveAfterError (h : Books exact extra s) (repairs : exact → io.Repairs) :
    Books exact 0 (recoverActiveAfterError io s) := by
  unfold Wal.recoverActiveAfterError
  cases ha : s.active with
  | none =>
    refine ⟨h.paths, h.sorted, h.below, h.tracked, fun m hm => ?_, h.total, fun a e => ?_⟩
    · obtain ⟨file, hfile, hlen⟩ := h.sizes m hm
      refine ⟨file, hfile, ?_⟩
      simpa [inFlight, ha] using hlen
    · rw [ha] at e
      cases e
  | some a =>
    have hpos : exact → (if io.seek then a.offset else a.file.pos) = a.offset + 0 := by
      intro he
      rw [(repairs he).2]
      rfl
    by_cases hcut : io.setLen a.file.path = true
    · simp only [if_pos hcut]
      exact h.changeActive ha (fun _ f _ => File.length_setLen _ f) hpos
    · have hkeep := h.changeActive (g := id) ha
        (fun he => absurd ((repairs he).1 a.file.path) hcut) hpos
      simp only [if_neg hcut]
      rwa [Dir.modify_id] at hkeep

/-- The bookkeeping after both writes takes the frame in. -/
theorem accountFrame {size : Nat} (h : Books exact size s) (hsome : s.active ≠ none) :
    Books exact 0 (accountFrame s size) := by
  obtain ⟨a, ha⟩ := Option.ne_none_iff_exists'.mp hsome
  obtain ⟨hpos, init, back, hback, hseq, hpath, hbytes⟩ := h.active a ha
  have hmem : back ∈ s.segments := by rw [hback]; simp
  have hsegs : (Wal.accountFrame s size).segments =
      init ++ [{ back with bytes := back.bytes + size, frames := back.frames + 1 }] := by
    show updateBack _ s.segments = _
    rw [hback, updateBack_concat]
  have hsub : ∀ m ∈ (Wal.accountFrame s size).segments, ∃ x ∈ s.segments, x.path = m.path ∧
      x.seq = m.seq ∧ m.bytes = x.bytes + if x = back then size else 0 := by
    intro m hm
    rw [hsegs, List.mem_append, List.mem_singleton] at hm
    rcases hm with hm | rfl
    · have hm' : m ∈ s.segments := by rw [hback]; simp [hm]
      have hlt := h.lt_back hback hm
      refine ⟨m, hm', rfl, rfl, ?_⟩
      rw [if_neg]
      · rfl
      · rintro rfl
        omega
    · exact ⟨back, hmem, rfl, rfl, by simp⟩
  constructor
  case paths =>
    intro m hm
    obtain ⟨x, hx, hp, hs, -⟩ := hsub m hm
    rw [← hp, ← hs]
    exact h.paths x hx
  case sorted =>
    have hsorted := h.sorted
    rw [hback, List.pairwise_append] at hsorted
    rw [hsegs]
    refine List.pairwise_append.mpr ⟨hsorted.1, List.pairwise_singleton _ _, fun x hx b hb => ?_⟩
    have hlt := h.lt_back hback hx
    rw [List.mem_singleton.mp hb]
    exact hlt
  case below =>
    intro m hm
    obtain ⟨x, hx, -, hs, -⟩ := hsub m hm
    rw [← hs]
    exact h.below x hx
  case tracked =>
    intro n hn
    obtain ⟨m, hm, rfl⟩ := h.tracked n hn
    rw [hback, List.mem_append, List.mem_singleton] at hm
    rw [hsegs]
    rcases hm with hm | rfl
    · exact ⟨m, by simp [hm], rfl⟩
    · exact ⟨_, List.mem_concat_self, rfl⟩
  case sizes =>
    intro m hm
    obtain ⟨x, hx, hp, hs, hb⟩ := hsub m hm
    obtain ⟨file, hfile, hlen⟩ := h.sizes x hx
    rw [← hp]
    refine ⟨file, hfile, ?_⟩
    have hiff : a.seq = x.seq ↔ x = back :=
      ⟨fun e => h.seq_inj hx hmem (e.symm.trans hseq.symm), fun e => e ▸ hseq.symm⟩
    simp only [inFlight, ha, Option.map_some, Option.some.injEq, hiff] at hlen
    simp only [inFlight, ite_self, Nat.add_zero]
    intro he
    have hlen := hlen he
    omega
  case total =>
    show s.totalBytes + size = _
    rw [h.total, hsegs, hback]
    simp only [List.map_append, List.map_cons, List.map_nil, List.sum_append, List.sum_cons,
      List.sum_nil]
    omega
  case active =>
    intro b hb
    have e : (Wal.accountFrame s size).active = some { a with offset := a.offset + size } := by
      show s.active.map _ = _
      rw [ha]
      rfl
    obtain rfl := Option.some.inj (e.symm.trans hb)
    exact ⟨hpos, init, _, hsegs, hseq, hpath, by rw [hbytes]⟩

end Books

end

namespace Books

/-- A rotation that succeeds tracks the file it created. -/
theorem rotated (io : Io) (h : Books exact 0 s) (number : NumbersLeft s) :
    Books exact 0 (rotated io s) := by
  have hr := h.retireActive io
  have hnew : (Wal.rotated io s).disk (segmentPath s.nextSeq) =
      some (File.writeAt 0 encodeSegmentHeader ⟨[], 0⟩) := by
    rw [rotated_disk, Dir.modify_self, Dir.create_self, Option.map_some]
  have hold : ∀ n, n ≠ segmentPath s.nextSeq →
      (Wal.rotated io s).disk n = (Wal.retireActive io s).disk n :=
    fun n hn => rotateFile_disk_ne io s _ hn
  have hmem : ∀ m, m ∈ (Wal.rotated io s).segments ↔
      m ∈ s.segments ∨ m = ⟨s.nextSeq, segmentPath s.nextSeq, segmentHeaderLen, 0⟩ := by
    intro m
    exact List.mem_append.trans (or_congr_right List.mem_singleton)
  constructor
  case paths =>
    intro m hm
    rcases (hmem m).mp hm with hm | rfl
    · exact h.paths m hm
    · rfl
  case sorted =>
    refine List.pairwise_append.mpr ⟨h.sorted, List.pairwise_singleton _ _, fun a ha b hb => ?_⟩
    rw [List.mem_singleton.mp hb]
    exact h.below a ha
  case below =>
    intro m hm
    show m.seq < u64Succ s.nextSeq
    rcases (hmem m).mp hm with hm | rfl
    · exact (h.below m hm).trans (lt_u64Succ number)
    · exact lt_u64Succ number
  case tracked =>
    intro n hn
    by_cases hnew : n = segmentPath s.nextSeq
    · exact ⟨_, (hmem _).mpr (Or.inr rfl), hnew.symm⟩
    · rw [hold n hnew] at hn
      obtain ⟨m, hm, hp⟩ := hr.tracked n hn
      exact ⟨m, (hmem m).mpr (Or.inl hm), hp⟩
  case sizes =>
    intro m hm
    have hzero : inFlight (Wal.rotated io s) 0 m = 0 := by simp [inFlight]
    rw [hzero]
    rcases (hmem m).mp hm with hm | rfl
    · rw [hold _ (h.ne_nextSeq hm)]
      obtain ⟨file, hfile, hlen⟩ := hr.sizes m hm
      exact ⟨file, hfile, hlen⟩
    · exact ⟨_, hnew, fun _ => File.length_writeAt encodeSegmentHeader rfl⟩
  case total =>
    show s.totalBytes + segmentHeaderLen = ((s.segments ++ [_]).map SegmentMeta.bytes).sum
    rw [h.total, List.map_append, List.sum_append]
    rfl
  case active =>
    intro a ha
    obtain rfl := Option.some.inj ha
    exact ⟨fun _ => rfl, s.segments, _, rfl, rfl, rfl, rfl⟩

/-- Both writes of a frame, with the bookkeeping or without. -/
theorem writeFrame (io : Io) (h : Books exact 0 s) (hsome : s.active ≠ none) (payload : Bytes) :
    ∃ extra, Books exact extra (writeFrame io s payload).1 ∧
      ((writeFrame io s payload).2 = true → extra = 0) := by
  have hseq : Books exact 0 { s with nextBatchSeq := s.nextBatchSeq + 1 } :=
    h.congr rfl rfl rfl rfl rfl
  obtain ⟨k₁, h₁, hsome₁, hk₁⟩ := hseq.writeActive hsome io.writeFrameHeader
    (encodeFrameHeader payload s.nextBatchSeq)
  unfold Wal.writeFrame
  simp only
  split
  · rename_i s₁ e₁
    rw [e₁] at h₁
    exact ⟨_, h₁, by simp⟩
  · rename_i s₁ e₁
    rw [e₁] at h₁ hsome₁ hk₁
    obtain ⟨k₂, h₂, hsome₂, hk₂⟩ := h₁.writeActive hsome₁ io.writePayload payload
    split
    · rename_i s₂ e₂
      rw [e₂] at h₂
      exact ⟨_, h₂, by simp⟩
    · rename_i s₂ e₂
      rw [e₂] at h₂ hsome₂ hk₂
      have hsize : 0 + k₁ + k₂ = frameLenOnDisk payload.length := by
        rw [hk₁ rfl, hk₂ rfl, length_encodeFrameHeader, frameLenOnDisk]
        omega
      rw [hsize] at h₂
      exact ⟨0, h₂.accountFrame hsome₂, fun _ => rfl⟩

omit [Crc32] in
theorem repaired {r : Store × Bool} {extra : Nat} (h : Books exact extra r.1)
    (hok : r.2 = true → extra = 0) (repairs : exact → io.Repairs) :
    Books exact 0 (repaired io r).1 := by
  obtain ⟨s, ok⟩ := r
  cases ok with
  | true =>
    obtain rfl := hok rfl
    exact h
  | false =>
    have hm : Books exact extra
        { s with metrics := { s.metrics with writeErrors := s.metrics.writeErrors + 1 } } :=
      h.congr rfl rfl rfl rfl rfl
    exact hm.recoverActiveAfterError repairs

end Books

/-- Whether `rotate` creates the file of the new segment and then fails to write its header. -/
def rotateLeaves (io : Io) : Bool :=
  io.createDirAll && io.openSegment && io.writeSegmentHeader.isSome

/-- Whether an `append_one` needs a new segment and fails in the write of its header. -/
def leavesFile (io : Io) (s : Store) (payload : Bytes) : Bool :=
  needsRotate s (frameLenOnDisk payload.length) && rotateLeaves io

omit [Crc32] in
theorem leavesFile_capped (io : Io) (s : Store) (payload : Bytes) :
    leavesFile io (cappedFor io s payload) payload = leavesFile io s payload := by
  obtain ⟨hact, -, hcfg, -⟩ := enforceCap_frame io s (frameLenOnDisk payload.length)
  unfold leavesFile needsRotate cappedFor
  rw [hact, hcfg]

omit [Crc32] in
theorem rotate_leaves (s : Store) (h : rotateLeaves io = true) :
    ∃ k, rotate io s = (rotateFile io s (encodeSegmentHeader.take k), false) := by
  simp only [rotateLeaves, Bool.and_eq_true] at h
  obtain ⟨⟨hdir, hopen⟩, hwrite⟩ := h
  obtain ⟨k, hk⟩ := Option.isSome_iff_exists.mp hwrite
  refine ⟨k, ?_⟩
  simp [rotate, rotateFile, retireActive, hdir, hopen, hk]

theorem books_rotate {exact : Prop} (h : Books exact 0 s) (number : NumbersLeft s)
    (hl : rotateLeaves io = false) : Books exact 0 (rotate io s).1 := by
  have hr := h.retireActive io
  unfold rotate
  simp only
  split
  · exact hr
  · split
    · exact hr.skipSeq number
    · cases hw : io.writeSegmentHeader with
      | some k =>
        rename_i hdir hopen
        simp [rotateLeaves, hdir, hopen, hw] at hl
      | none => exact h.rotated io number

/-- An append that leaves no file behind keeps the books, whatever fails in it. -/
theorem books_appendOne {exact : Prop} (removes : ∀ n, io.removeFile n = true)
    (h : Books exact 0 s) (repairs : exact → io.Repairs) (number : NumbersLeft s) {payload : Bytes}
    (hl : leavesFile io s payload = false) : Books exact 0 (appendOne io s payload).1 := by
  have hcap : Books exact 0 (cappedFor io s payload) := h.enforceCap removes _
  rw [← leavesFile_capped] at hl
  obtain ⟨-, hnext, -⟩ := enforceCap_frame io s (frameLenOnDisk payload.length)
  have hroom : Books exact 0
      (ensureActiveWithRoom io (cappedFor io s payload) (frameLenOnDisk payload.length)).1 := by
    unfold ensureActiveWithRoom
    split
    · rename_i hrot
      rw [leavesFile, hrot, Bool.true_and] at hl
      exact books_rotate hcap (hnext.trans_lt number) hl
    · exact hcap
  obtain ⟨-, hact⟩ := ensureActiveWithRoom_fails io (cappedFor io s payload)
    (frameLenOnDisk payload.length)
  generalize hr : ensureActiveWithRoom io (cappedFor io s payload)
    (frameLenOnDisk payload.length) = r at hroom hact
  obtain ⟨s₁, ok⟩ := r
  rw [appendOne_eq]
  cases ok with
  | false =>
    rw [append_no_room hr]
    exact hroom.repaired (fun e => absurd e (by simp)) repairs
  | true =>
    rw [append_room hr]
    obtain ⟨extra, hw, hok⟩ := hroom.writeFrame io (Option.isSome_iff_ne_none.mp hact) payload
    exact hw.repaired hok repairs

/-- The file of a header write that failed is there, and no tracked segment has its number. -/
theorem untracked_of_leavesFile {exact : Prop} (removes : ∀ n, io.removeFile n = true)
    (h : Books exact 0 s) {payload : Bytes} (hl : leavesFile io s payload = true) :
    ∃ n, (appendOne io s payload).1.disk n ≠ none ∧
      ∀ m ∈ (appendOne io s payload).1.segments, m.path ≠ n := by
  have hcap : Books exact 0 (cappedFor io s payload) := h.enforceCap removes _
  rw [← leavesFile_capped, leavesFile, Bool.and_eq_true] at hl
  obtain ⟨k, hk⟩ := rotate_leaves (cappedFor io s payload) hl.2
  have happ : append io s payload =
      (rotateFile io (cappedFor io s payload) (encodeSegmentHeader.take k), false) :=
    append_no_room ((ensureActiveWithRoom_rotate io hl.1).trans hk)
  rw [appendOne_eq, happ]
  refine ⟨segmentPath (cappedFor io s payload).nextSeq, ?_, fun m hm => hcap.ne_nextSeq hm⟩
  show (rotateFile io (cappedFor io s payload) (encodeSegmentHeader.take k)).disk _ ≠ none
  unfold rotateFile
  simp only
  rw [Dir.modify_self, Dir.create_self]
  exact Option.some_ne_none _

/-- **An append leaves exactly the tracked files exactly if no header write fails in it.** -/
theorem tidy_appendOne_iff {exact : Prop} (removes : ∀ n, io.removeFile n = true)
    (h : Books exact 0 s) (number : NumbersLeft s) (payload : Bytes) :
    Tidy (appendOne io s payload).1 ↔ leavesFile io s payload = false := by
  constructor
  · intro htidy
    by_contra hl
    obtain ⟨n, hn, hout⟩ := untracked_of_leavesFile removes h (Bool.eq_true_of_not_eq_false hl)
    obtain ⟨m, hm, hp⟩ := (htidy n).mp hn
    exact hout m hm hp
  · intro hl
    exact (books_appendOne removes h.inexact False.elim number hl).tidy

/-! ## Reading and runs -/

theorem books_peekNext {exact : Prop} (removes : ∀ n, io.removeFile n = true) (h : Books exact 0 s) :
    Books exact 0 (peekNext io s).1 := by
  refine peekNext_keeps io (fun s t h hsame => ?_) (fun s pre m post h hs hm hread => ?_) h
  · rw [hsame]
    exact h.congr rfl rfl rfl rfl rfl
  · have hne : ∀ a, s.active = some a → a.seq ≠ m.seq := by
      intro a ha e
      unfold readsActive at hread
      rw [ha] at hread
      simp_all
    refine h.remove pre post hs hne rfl rfl rfl rfl ?_
    show removeFile io s.disk m.path = _
    unfold removeFile
    rw [if_pos (removes _)]

/-- One call of the writer or the drainer: any call of an append may fail, removals do not. Appends
only where `guard` allows them. -/
inductive DiskStep (guard : Io → Store → Bytes → Prop) : Store → Store → Prop
  | appendOne {s : Store} (io : Io) (payload : Bytes) (removes : ∀ n, io.removeFile n = true)
      (number : NumbersLeft s) (allowed : guard io s payload) :
      DiskStep guard s (appendOne io s payload).1
  | peekNext {s : Store} (io : Io) (removes : ∀ n, io.removeFile n = true) :
      DiskStep guard s (peekNext io s).1
  | commitPending {s : Store} : DiskStep guard s (commitPending s)

/-- The append leaves no file behind; where `exact` says so, its repair succeeds. -/
def LeavesNone (exact : Prop) (io : Io) (s : Store) (payload : Bytes) : Prop :=
  leavesFile io s payload = false ∧ (exact → io.Repairs)

theorem books_step {exact : Prop} (h : Books exact 0 s) (hstep : DiskStep (LeavesNone exact) s s') :
    Books exact 0 s' := by
  cases hstep with
  | appendOne io payload removes number allowed =>
    exact books_appendOne removes h allowed.2 number allowed.1
  | peekNext io removes => exact books_peekNext removes h
  | commitPending =>
    unfold commitPending
    split
    · exact h
    · exact h.congr rfl rfl rfl rfl rfl

omit [Crc32] in
theorem books_empty (exact : Prop) (cfg : WalConfig) :
    Books exact 0 (emptyStore cfg fun _ => none) where
  paths := fun _ hm => absurd hm List.not_mem_nil
  sorted := List.Pairwise.nil
  below := fun _ hm => absurd hm List.not_mem_nil
  tracked := fun _ hn => absurd rfl hn
  sizes := fun _ hm => absurd hm List.not_mem_nil
  total := rfl
  active := fun _ ha => by cases ha

/-- **The files are those of the tracked segments** in every run in which no append fails in the
write of a segment header, and they have the recorded sizes where every repair succeeds. An append
that does fail there leaves a file nobody tracks. -/
theorem files_tracked {exact : Prop} {cfg : WalConfig}
    (run : Relation.ReflTransGen (DiskStep (LeavesNone exact)) (emptyStore cfg fun _ => none) s) :
    (Tidy s ∧ (exact → (∀ m ∈ s.segments, sizeOf s.disk m.path = m.bytes) ∧
      s.totalBytes = (s.segments.map fun m => sizeOf s.disk m.path).sum)) ∧
    ∀ io payload, (∀ n, io.removeFile n = true) → NumbersLeft s →
      (Tidy (appendOne io s payload).1 ↔ leavesFile io s payload = false) := by
  have h : Books exact 0 s := by
    induction run with
    | refl => exact books_empty exact cfg
    | tail _ hstep ih => exact books_step ih hstep
  have hsize : exact → ∀ m ∈ s.segments, sizeOf s.disk m.path = m.bytes := by
    intro he m hm
    obtain ⟨file, hfile, hlen⟩ := h.sizes m hm
    have hlen := hlen he
    simpa [sizeOf, hfile, inFlight] using hlen
  refine ⟨⟨h.tidy, fun he => ⟨hsize he, ?_⟩⟩,
    fun io payload removes number => tidy_appendOne_iff removes h number payload⟩
  rw [h.total, List.map_congr_left (hsize he)]

/-- No call fails but the payload write, after one byte, and the `set_len` of the repair. -/
def Io.cutFault : Io := { Io.ok with writePayload := some 1, setLen := fun _ => false }

omit [Crc32] in
/-- A frame appended, then a torn one that the repair leaves in the file, and a third whose segment
cannot be opened: one file, one segment, and the file is longer than recorded. -/
theorem files_tracked_open_fault : letI := crc32Ieee
    ∃ s, s.segments.length = 1 ∧ s.active = none ∧ Tidy s ∧
      ∃ m ∈ s.segments, m.bytes < sizeOf s.disk m.path := by
  let _ := crc32Ieee
  let s₁ := (appendOne .ok (emptyStore smallConfig fun _ => none) [7]).1
  let s₂ := (appendOne .cutFault s₁ [8, 9]).1
  let s₃ := (appendOne .openFault s₂ (List.replicate 1000 5)).1
  have run : Relation.ReflTransGen (DiskStep (LeavesNone False))
      (emptyStore smallConfig fun _ => none) s₃ :=
    ((Relation.ReflTransGen.single (.appendOne .ok [7] (fun _ => rfl) (by decide +kernel)
      ⟨by decide +kernel, False.elim⟩)).tail (.appendOne .cutFault [8, 9] (fun _ => rfl)
      (by decide +kernel) ⟨by decide +kernel, False.elim⟩)).tail
      (.appendOne .openFault (List.replicate 1000 5) (fun _ => rfl) (by decide +kernel)
        ⟨by decide +kernel, False.elim⟩)
  exact ⟨s₃, by decide +kernel, by decide +kernel, (files_tracked run).1.1, by decide +kernel⟩

/-- `Io.ok`, but the header of the new segment cannot be written: the disk is full. -/
def Io.headerFault : Io := { Io.ok with writeSegmentHeader := some 0 }

omit [Crc32] in
/-- **A file nobody tracks.** On a full disk every append of a run creates one more file: after two
failed appends two files are there, and no segment. -/
theorem untracked_files : letI := crc32Ieee
    ∃ s, Relation.ReflTransGen (DiskStep fun _ _ _ => True) (emptyStore smallConfig fun _ => none) s ∧
      s.disk (segmentPath 0) ≠ none ∧ s.disk (segmentPath 1) ≠ none ∧ s.segments = [] ∧
      ¬ Tidy s := by
  let _ := crc32Ieee
  have run : Relation.ReflTransGen (DiskStep fun _ _ _ => True)
      (emptyStore smallConfig fun _ => none) _ :=
    (Relation.ReflTransGen.single (.appendOne .headerFault [7] (fun _ => rfl) (by decide)
      trivial)).tail (.appendOne .headerFault [8] (fun _ => rfl) (by decide +kernel) trivial)
  generalize hs : (appendOne .headerFault (appendOne .headerFault
    (emptyStore smallConfig fun _ => none) [7]).1 [8]).1 = s at run
  have hsegs : s.segments = [] := by
    subst hs
    decide +kernel
  have hfile : s.disk (segmentPath 0) ≠ none := by
    subst hs
    decide +kernel
  refine ⟨s, run, hfile, by subst hs; decide +kernel, hsegs, fun htidy => ?_⟩
  obtain ⟨m, hm, -⟩ := (htidy (segmentPath 0)).mp hfile
  rw [hsegs] at hm
  cases hm

end Statix.Wal
