import Statix.Wal.Invariant

/-!
# The backlog check of the drainer

The drainer (`drainer.rs:38-74`) replays when `has_backlog` (`mod.rs:391-396`) says so.
`has_backlog` does not look at the files: it compares the read cursor with the active segment, and
without an active segment it says there is no backlog.

* `hasBacklog_of_active`: with an active segment the check agrees with the files.
* `isSome_active_appendOne`: `append_one` ends without an active segment exactly if it had to rotate
  and the rotation failed.
* **`backlog_visible`**: every frame ahead is visible to the drainer, in every run whose failed
  rotations give up no undelivered frame; and an append that does leaves a hidden frame.
* `hidden_backlog`: one failed `open` hides a frame.

Out of scope: repairs and truncations that fail (`Io.Repairs`), and runs that use up the segment
numbers (`NumbersLeft`).
-/

namespace Statix.Wal

open Statix.Lib

variable [Crc32] {s s' : Store} {l : FrameLog}

/-- What the drainer relies on: a frame ahead of the cursor shows in `has_backlog`. -/
def Visible (s : Store) : Prop := aheadOf s ≠ [] → hasBacklog s = true

/-! ## With an active segment -/

/-- A frame ahead in a segment is past the cursor's offset. -/
theorem boundary_lt {g : Seg DecodedFrame} {k : Nat} (h : k < g.items.length) :
    boundary g k < segBytes g := by
  have hpos : 0 < frameLenOnDisk g.items[k].payload.length := by
    simp [frameLenOnDisk, frameHeaderLen]
  have hle := boundary_le g (k + 1)
  rw [boundary_succ h] at hle
  omega

/-- **With an active segment the check agrees with the files.** -/
theorem hasBacklog_of_active (h : Represents s l) (ha : s.active ≠ none) : Visible s := by
  intro hahead
  rw [aheadOf_eq h] at hahead
  obtain hn | ⟨init, g, hs, he⟩ := h.active
  · exact absurd hn ha
  unfold hasBacklog
  rw [he]
  show (s.readSeq != g.seq || decide (s.readOffset < segBytes g)) = true
  by_cases hseq : s.readSeq = g.seq
  · -- the cursor is on the active segment, which is then the only one
    cases h.cursor with
    | off h1 _ _ _ _ => exact absurd hseq.symm (h1 g (SegLog.mem_back hs))
    | front x rest hx hxs hoff _ =>
      have hxg : x = g := h.seq_inj (by rw [hx]; exact List.mem_cons_self) (SegLog.mem_back hs)
        (hxs.symm.trans hseq)
      have hread : readsActive s = true := by
        unfold readsActive
        rw [he]
        exact beq_iff_eq.mpr hseq.symm
      obtain rfl := readsActive_last h hx hxs hread
      have hdrop : g.items.drop l.consumed ≠ [] := by
        intro hnil
        apply hahead
        rw [SegLog.ahead, SegLog.all, hx, hxg]
        simpa using hnil
      have hc : l.consumed < g.items.length := by
        by_contra hge
        exact hdrop (List.drop_eq_nil_of_le (Nat.le_of_not_lt hge))
      rw [hoff, hxg]
      simp [boundary_lt hc]
  · simp [hseq]

/-! ## When `append_one` gives up the active segment -/

omit [Crc32] in
theorem isSome_active_writeActive (fault : Option Nat) (bs : Bytes) :
    (writeActive s fault bs).1.active.isSome = s.active.isSome := by
  unfold writeActive
  cases ha : s.active <;> simp [ha]

omit [Crc32] in
theorem isSome_active_recover (io : Io) :
    (recoverActiveAfterError io s).active.isSome = s.active.isSome := by
  unfold recoverActiveAfterError
  cases ha : s.active <;> simp [ha]

theorem isSome_active_writeFrame (io : Io) (payload : Bytes) :
    (writeFrame io s payload).1.active.isSome = s.active.isSome := by
  refine writeFrame_preserves (fun s => s.active.isSome) io s payload (fun _ _ => rfl) ?_ ?_
  · exact fun _ fault bs => isSome_active_writeActive fault bs
  · intro s size
    simp [accountFrame]

/-- Whether `rotate` fails once it has given up the active segment. -/
def rotateFails (io : Io) : Bool :=
  !io.createDirAll || !io.openSegment || io.writeSegmentHeader.isSome

omit [Crc32] in
theorem rotate_fails (io : Io) (s : Store) :
    (rotate io s).2 = !rotateFails io ∧ (rotate io s).1.active.isSome = !rotateFails io := by
  unfold rotate rotateFails
  by_cases h₁ : io.createDirAll = false
  · simp [h₁, retireActive]
  by_cases h₂ : io.openSegment = false
  · simp [h₁, h₂, retireActive]
  cases io.writeSegmentHeader <;> simp [h₁, h₂, retireActive]

/-- The store an `append` of `payload` finds after `enforce_cap`. -/
def cappedFor (io : Io) (s : Store) (payload : Bytes) : Store :=
  enforceCap io s (frameLenOnDisk payload.length)

/-- Whether an `append_one` gives up the active segment and gets no other. -/
def givesUp (io : Io) (s : Store) (payload : Bytes) : Bool :=
  needsRotate (cappedFor io s payload) (frameLenOnDisk payload.length) && rotateFails io

omit [Crc32] in
theorem isSome_of_not_needsRotate {size : Nat} (h : needsRotate s size = false) :
    s.active.isSome = true := by
  unfold needsRotate at h
  cases ha : s.active with
  | none => simp [ha] at h
  | some a => rfl

omit [Crc32] in
theorem ensureActiveWithRoom_fails (io : Io) (s : Store) (size : Nat) :
    let r := ensureActiveWithRoom io s size
    r.2 = !(needsRotate s size && rotateFails io) ∧ r.1.active.isSome = r.2 := by
  intro r
  cases hrot : needsRotate s size with
  | false =>
    have e : r = (s, true) := ensureActiveWithRoom_stay io hrot
    rw [e]
    exact ⟨rfl, isSome_of_not_needsRotate hrot⟩
  | true =>
    have e : r = rotate io s := ensureActiveWithRoom_rotate io hrot
    obtain ⟨h₁, h₂⟩ := rotate_fails io s
    rw [e]
    exact ⟨h₁, h₂.trans h₁.symm⟩

/-- **`append_one` ends without an active segment exactly if a rotation it needed failed.** -/
theorem isSome_active_appendOne (io : Io) (s : Store) (payload : Bytes) :
    (appendOne io s payload).1.active.isSome = !givesUp io s payload := by
  obtain ⟨hok, hact⟩ := ensureActiveWithRoom_fails io (cappedFor io s payload)
    (frameLenOnDisk payload.length)
  generalize hr : ensureActiveWithRoom io (cappedFor io s payload)
    (frameLenOnDisk payload.length) = r at hok hact
  obtain ⟨s₁, ok⟩ := r
  show _ = !(_ && _)
  rw [← hok, appendOne_eq]
  cases ok with
  | false =>
    rw [append_no_room hr]
    exact (isSome_active_recover io).trans hact
  | true =>
    rw [append_room hr]
    have hw := (isSome_active_writeFrame (s := s₁) io payload).trans hact
    generalize writeFrame io s₁ payload = w at hw
    obtain ⟨s₂, ok⟩ := w
    cases ok with
    | false => exact (isSome_active_recover io).trans hw
    | true => exact hw

/-! ## Runs -/

/-- One call on the store, with any outcome of its I/O calls but those of repair and truncation;
appends only where `guard` allows them and a segment number is left. `recover` starts over from a
directory with the files of this code and any contents. -/
inductive CallStep (guard : Io → Store → Bytes → Prop) : Store → Store → Prop
  | appendOne {s : Store} (io : Io) (payload : Bytes) (valid : ValidPayload payload)
      (repairs : io.Repairs) (number : NumbersLeft s) (allowed : guard io s payload) :
      CallStep guard s (appendOne io s payload).1
  | syncActive {s : Store} (io : Io) : CallStep guard s (syncActive io s)
  | peekNext {s : Store} (io : Io) : CallStep guard s (peekNext io s).1
  | commitPending {s : Store} : CallStep guard s (commitPending s)
  | recover {s s' : Store} (io : Io) (truncates : ∀ n, io.setLen n = true) (cfg : WalConfig)
      {entries : List FileName} {d : Disk} (written : WrittenDir d) (lists : Lists entries d)
      (recovered : recover io cfg entries d = some s') : CallStep guard s s'

/-- If the append gives up the active segment, the cap has left nothing to deliver. -/
def SafeAppend (io : Io) (s : Store) (payload : Bytes) : Prop :=
  givesUp io s payload = true → aheadOf (cappedFor io s payload) = []

/-- What a run keeps: without an active segment nothing is ahead. -/
structure BacklogInv (s : Store) (l : FrameLog) : Prop where
  store : Represents s l
  hidden : s.active = none → l.ahead = []

theorem BacklogInv.visible (h : BacklogInv s l) : Visible s := by
  by_cases ha : s.active = none
  · intro hne
    rw [aheadOf_eq h.store] at hne
    exact absurd (h.hidden ha) hne
  · exact hasBacklog_of_active h.store ha

/-- What an append that gives up the active segment leaves behind. -/
theorem aheadOf_givesUp (h : Represents s l) {io : Io} (repairs : io.Repairs)
    (number : NumbersLeft s) {payload : Bytes} (valid : ValidPayload payload) (hg : givesUp io s payload = true) :
    (appendOne io s payload).1.active = none ∧
      aheadOf (appendOne io s payload).1 = aheadOf (cappedFor io s payload) := by
  have hnone : (appendOne io s payload).1.active = none := by
    rw [← Option.not_isSome_iff_eq_none, isSome_active_appendOne, hg]
    simp
  obtain ⟨n, rotates, o⟩ := appendOne_spec io h repairs number valid
  have hfail : (appendOne io s payload).2 = false := by
    by_contra hok
    exact o.ok_active (Bool.eq_true_of_not_eq_false hok) hnone
  have hahead := o.ahead
  rw [hfail] at hahead
  refine ⟨hnone, ?_⟩
  rw [aheadOf_eq o.store, hfail, hahead, cappedFor, aheadOf_eq o.capped]
  simp

/-- **An append keeps every frame visible exactly if it is safe.** -/
theorem visible_appendOne_iff (h : Represents s l) {io : Io} (repairs : io.Repairs)
    (number : NumbersLeft s) {payload : Bytes} (valid : ValidPayload payload) :
    Visible (appendOne io s payload).1 ↔ SafeAppend io s payload := by
  constructor
  · intro hv hg
    obtain ⟨hnone, hahead⟩ := aheadOf_givesUp h repairs number valid hg
    by_contra hne
    rw [← hahead] at hne
    have hb := hv hne
    unfold hasBacklog at hb
    rw [hnone] at hb
    cases hb
  · intro hsafe
    by_cases hg : givesUp io s payload = true
    · obtain ⟨-, hahead⟩ := aheadOf_givesUp h repairs number valid hg
      intro hne
      rw [hahead] at hne
      exact absurd (hsafe hg) hne
    · obtain ⟨n, rotates, o⟩ := appendOne_spec io h repairs number valid
      refine hasBacklog_of_active o.store ?_
      rw [← Option.isSome_iff_ne_none, isSome_active_appendOne]
      simpa using hg

theorem backlogInv_step (h : BacklogInv s l) (hstep : CallStep SafeAppend s s') :
    ∃ l', BacklogInv s' l' := by
  cases hstep with
  | appendOne io payload valid repairs number allowed =>
    obtain ⟨n, rotates, o⟩ := appendOne_spec io h.store repairs number valid
    refine ⟨_, o.store, fun hnone => ?_⟩
    have hg : givesUp io s payload = true := by
      by_contra hg
      have hsome := isSome_active_appendOne io s payload
      rw [hnone] at hsome
      simp [hg] at hsome
    rw [← aheadOf_eq o.store, (aheadOf_givesUp h.store repairs number valid hg).2]
    exact allowed hg
  | syncActive io => exact ⟨l, syncActive_spec h.store, h.hidden⟩
  | peekNext io =>
    obtain ⟨n, o⟩ := peekNext_spec io h.store
    refine ⟨_, o.store, fun hnone => ?_⟩
    have hahead := h.hidden (o.active.symm.trans hnone)
    rw [SegLog.ahead_dropSegs n l] at hahead
    exact (List.append_eq_nil_iff.mp hahead).2
  | commitPending =>
    rcases commitPending_spec h.store with ⟨-, e⟩ | ⟨f, l', -, hr, -, hcons, -, hact, -⟩
    · rw [e]
      exact ⟨l, h⟩
    · refine ⟨l', hr, fun hnone => ?_⟩
      have hahead := h.hidden (hact.symm.trans hnone)
      rw [hcons] at hahead
      cases hahead
  | recover io truncates cfg written lists recovered =>
    obtain ⟨s₁, l', e, o⟩ := recover_spec io truncates cfg written lists
    obtain rfl : s₁ = s' := Option.some.inj (e.symm.trans recovered)
    refine ⟨l', o.store, fun hnone => ?_⟩
    have hsegs : l'.segs = [] := by
      by_contra hne
      exact o.active hne hnone
    simp [SegLog.ahead, SegLog.all, hsegs]

theorem backlogInv_run {cfg : WalConfig}
    (run : Relation.ReflTransGen (CallStep SafeAppend) (emptyStore cfg fun _ => none) s) :
    ∃ l, BacklogInv s l := by
  induction run with
  | refl => exact ⟨_, emptyStore_spec cfg, fun _ => rfl⟩
  | tail _ hstep ih =>
    obtain ⟨l, ih⟩ := ih
    exact backlogInv_step ih hstep

/-- **Every frame ahead is visible to the drainer** in every run in which no append gives up the
active segment, and gets no other, while the cap has left a frame to deliver. Such an append always
hides the frames. -/
theorem backlog_visible {cfg : WalConfig}
    (run : Relation.ReflTransGen (CallStep SafeAppend) (emptyStore cfg fun _ => none) s) :
    Visible s ∧ ∀ io payload, ValidPayload payload → io.Repairs → NumbersLeft s →
      (Visible (appendOne io s payload).1 ↔ SafeAppend io s payload) := by
  obtain ⟨l, h⟩ := backlogInv_run run
  exact ⟨h.visible, fun io payload valid repairs number =>
    visible_appendOne_iff h.store repairs number valid⟩

/-- `Io.ok`, but the new segment cannot be opened. -/
def Io.openFault : Io := { Io.ok with openSegment := false }

omit [Crc32] in
/-- A directory with one segment is recovered and its frame is read and committed. Then the next
append has to rotate and cannot open its segment, which gives up nothing, and a second one stores a
frame: it is ahead, and `has_backlog` says so. -/
theorem backlog_visible_recovered : letI := crc32Ieee
    ∃ s, Relation.ReflTransGen (CallStep SafeAppend) (emptyStore tinyConfig fun _ => none) s ∧
      s.segments.map SegmentMeta.seq = [3, 5] ∧ aheadOf s = [⟨1, [9]⟩] ∧ hasBacklog s = true ∧
      Visible s := by
  let _ := crc32Ieee
  let files : List (Nat × Bytes) := [(3, segmentFile [⟨0, [7]⟩])]
  let found := recover .ok tinyConfig [segmentPath 3] (diskOf files)
  let s₀ := found.getD (emptyStore tinyConfig fun _ => none)
  have recovered : found = some s₀ :=
    (Option.getD_of_ne_none (Option.isSome_iff_ne_none.mp (by decide +kernel)) _).symm
  have start : Relation.ReflTransGen (CallStep SafeAppend) (emptyStore tinyConfig fun _ => none)
      s₀ := .single (.recover .ok (fun _ => rfl) tinyConfig (writtenDir_diskOf (by decide))
    (@lists_diskOf files (by decide)) recovered)
  have read := (start.tail (.peekNext .ok)).tail .commitPending
  have failed := read.tail (.appendOne .openFault [8] (by decide) ⟨fun _ => rfl, rfl⟩
    (by decide +kernel) fun _ => by decide +kernel)
  have run := failed.tail (.appendOne .ok [9] (by decide) Io.repairs_ok (by decide +kernel)
    fun hg => absurd hg (by decide +kernel))
  have hahead : aheadOf (appendOne .ok (appendOne .openFault (commitPending
      (peekNext .ok s₀).1) [8]).1 [9]).1 = [⟨1, [9]⟩] := by decide +kernel
  exact ⟨_, run, by decide +kernel, hahead,
    (backlog_visible run).1 (by rw [hahead]; exact List.cons_ne_nil _ _), (backlog_visible run).1⟩

omit [Crc32] in
/-- **A hidden frame.** The second append has to rotate, and the new segment cannot be opened: the
first frame is still ahead, and `has_backlog` is false. -/
theorem hidden_backlog : letI := crc32Ieee
    ∃ s, Relation.ReflTransGen (CallStep fun _ _ _ => True) (emptyStore tinyConfig fun _ => none) s ∧
      aheadOf s = [⟨0, [7]⟩] ∧ hasBacklog s = false := by
  let _ := crc32Ieee
  have run : Relation.ReflTransGen (CallStep fun _ _ _ => True)
      (emptyStore tinyConfig fun _ => none) _ :=
    (Relation.ReflTransGen.single
      (.appendOne .ok [7] (by decide) Io.repairs_ok (by decide) trivial)).tail
      (.appendOne .openFault [8] (by decide) ⟨fun _ => rfl, rfl⟩ (by decide +kernel) trivial)
  exact ⟨_, run, by decide +kernel, by decide +kernel⟩

end Statix.Wal
