import Statix.Wal.Writing

/-!
# The reading operations keep the representation

One spec lemma for each reading operation, over every outcome of its I/O calls:

* `resync_spec`: the cursor is on the front segment, when there is one.
* `gcFrontConsumed_spec`: the front segment goes, unless it is the active one.
* **`peekNext_spec`** (`PeekOutcome`): read-out segments go, the next frame ahead is returned and
  left ahead.
* **`commitPending_spec`**: the cursor moves past the frame that is next, or not at all.
-/

namespace Statix.Wal

open Statix.Lib

variable [Crc32] {io : Io} {s : Store} {l : FrameLog}

/-! ## `resync` and `gc_front_consumed` -/

/-- A cursor put at the start of the front segment. -/
theorem Represents.toFront (h : Represents s l) {g : Seg DecodedFrame}
    {rest : List (Seg DecodedFrame)} (hs : l.segs = g :: rest) (hc : l.consumed = 0)
    (hp : s.pendingAdvance = none) :
    Represents { s with readSeq := g.seq, readOffset := segmentHeaderLen } l where
  segments := h.segments
  files := h.files
  valid := h.valid
  sorted := h.sorted
  below := h.below
  fits := h.fits
  total := h.total
  active := h.active
  cursor := .front g rest hs rfl (by rw [hc, boundary_zero]) (Or.inl hp)
  named := h.named

theorem any_seq_iff (h : Represents s l) :
    s.segments.any (fun m => m.seq == s.readSeq) = true ↔ ∃ g ∈ l.segs, g.seq = s.readSeq := by
  rw [h.segments, List.any_map, List.any_eq_true]
  simp

/-- After `resync` there is no segment, or the cursor is on the front one. -/
theorem resync_spec (h : Represents s l) :
    Represents (resync s) l ∧ (resync s).disk = s.disk ∧ (resync s).active = s.active ∧
      (resync s).nextSeq = s.nextSeq ∧ (resync s).segments = s.segments ∧
      (l.segs = [] ∨ ∃ g rest, l.segs = g :: rest ∧ (resync s).readSeq = g.seq) := by
  unfold resync
  split
  · rename_i hany
    refine ⟨h, rfl, rfl, rfl, rfl, ?_⟩
    cases h.cursor with
    | off h1 _ _ _ _ =>
      obtain ⟨g, hg, he⟩ := (any_seq_iff h).mp hany
      exact absurd he (h1 g hg)
    | front g rest h1 h2 _ _ => exact Or.inr ⟨g, rest, h1, h2⟩
  · rename_i hany
    have hoff : l.consumed = 0 ∧ s.pendingAdvance = none := by
      cases h.cursor with
      | off _ h2 h3 _ _ => exact ⟨h2, h3⟩
      | front g rest h1 h2 _ _ =>
        exact absurd ((any_seq_iff h).mpr ⟨g, by rw [h1]; exact List.mem_cons_self, h2.symm⟩) hany
    split
    · rename_i hnil
      refine ⟨h, rfl, rfl, rfl, rfl, Or.inl ?_⟩
      rw [h.segments, List.map_eq_nil_iff] at hnil
      exact hnil
    · rename_i front ms hcons
      rw [h.segments, List.map_eq_cons_iff] at hcons
      obtain ⟨g, rest, hs, rfl, rfl⟩ := hcons
      exact ⟨h.toFront hs hoff.1 hoff.2, rfl, rfl, rfl, rfl, Or.inr ⟨g, rest, hs, rfl⟩⟩

/-- `gc_front_consumed` with the cursor on the front segment. -/
theorem gcFrontConsumed_eq (h : Represents s l) {g : Seg DecodedFrame}
    {rest : List (Seg DecodedFrame)} (hs : l.segs = g :: rest) (hseq : s.readSeq = g.seq) :
    gcFrontConsumed io s = { s with
      segments := rest.map metaOf
      totalBytes := s.totalBytes - segBytes g
      disk := removeFile io s.disk (segmentPath g.seq)
      readSeq := (rest.head?.map Seg.seq).getD s.readSeq
      readOffset := (rest.head?.map fun _ => segmentHeaderLen).getD s.readOffset
      pendingAdvance := none } := by
  have herase : s.segments.eraseP (fun m => m.seq == s.readSeq) = rest.map metaOf := by
    rw [h.segments, hs, List.map_cons, List.eraseP_cons_of_pos (by simp [hseq])]
  unfold gcFrontConsumed
  rw [h.find_front hs hseq]
  simp only [herase]
  cases rest with
  | nil => rfl
  | cons g' rest' => rfl

/-- **`gc_front_consumed`** away from the active segment: the front segment goes. -/
theorem gcFrontConsumed_spec (io : Io) (h : Represents s l) {g : Seg DecodedFrame}
    {rest : List (Seg DecodedFrame)} (hs : l.segs = g :: rest) (hseq : s.readSeq = g.seq)
    (hact : readsActive s = false) :
    Represents (gcFrontConsumed io s) l.dropFront ∧
      Keeps s.disk (gcFrontConsumed io s).disk l.dropFront ∧
      (gcFrontConsumed io s).active = s.active ∧ (gcFrontConsumed io s).nextSeq = s.nextSeq := by
  have hs' : l.dropFront.segs = rest := by
    show l.segs.tail = _
    rw [hs]
    rfl
  have hmem : ∀ x ∈ rest, x ∈ l.segs := fun x hx => by
    rw [hs]
    exact List.mem_cons_of_mem g hx
  have hdisk : ∀ x ∈ rest,
      removeFile io s.disk (segmentPath g.seq) (segmentPath x.seq) = s.disk (segmentPath x.seq) :=
    fun x hx => removeFile_ne (h.front_ne hs hx)
  rw [gcFrontConsumed_eq h hs hseq]
  refine ⟨?_, keeps_of_eq fun x hx => hdisk x (hs' ▸ hx), rfl, rfl⟩
  constructor
  case segments => rw [hs']
  case files => rw [hs']; exact fun x hx => (h.files x (hmem x hx)).congr (hdisk x hx)
  case valid => rw [hs']; exact fun x hx => h.valid x (hmem x hx)
  case sorted =>
    have hp := h.sorted
    rw [hs] at hp
    rw [hs']
    exact (List.pairwise_cons.mp hp).2
  case below => rw [hs']; exact fun x hx => h.below x (hmem x hx)
  case fits => exact h.fits
  case total =>
    show s.totalBytes - segBytes g = _
    rw [h.total, hs, hs', List.map_cons, List.sum_cons]
    omega
  case active =>
    rcases h.active with ha | ⟨init, x, hx, ha⟩
    · exact Or.inl ha
    · refine Or.inr ⟨init.tail, x, ?_, ha⟩
      rw [hs']
      cases init with
      | nil =>
        -- the front segment would be the active one
        rw [hs] at hx
        obtain ⟨rfl, -⟩ := List.cons.inj hx
        unfold readsActive at hact
        rw [ha] at hact
        simp [activeOf, hseq] at hact
      | cons y ys =>
        rw [hs, List.cons_append] at hx
        exact (List.cons.inj hx).2
  case cursor =>
    cases rest with
    | nil =>
      have hlt : s.readSeq < s.nextSeq := by
        rw [hseq]
        exact h.below g (by rw [hs]; exact List.mem_cons_self)
      refine .off ?_ rfl rfl (Nat.le_of_lt hlt) fun e => absurd e (Nat.ne_of_lt hlt)
      rw [hs']
      exact fun x hx => absurd hx List.not_mem_nil
    | cons g' rest' => exact .front g' rest' hs' rfl rfl (Or.inl rfl)
  case named => exact fun n hn => h.named n (removeFile_exists hn)

/-! ## `peek_next` -/

/-- Everything one `peek_next` can do: the first `n` segments were read out and go, and the result
is the next frame ahead, which stays ahead. -/
structure PeekOutcome (io : Io) (s : Store) (l : FrameLog) (r : Store × Peek) (n : Nat) : Prop where
  store : Represents r.1 (l.dropSegs n)
  readOut : l.lostBy n = []
  keeps : Keeps s.disk r.1.disk (l.dropSegs n)
  active : r.1.active = s.active
  nextSeq : r.1.nextSeq = s.nextSeq
  frame : ∀ f, r.2 = .frame f →
    (l.dropSegs n).ahead.head? = some f ∧ r.1.pendingAdvance ≠ none
  caughtUp : r.2 = .caughtUp → (l.dropSegs n).ahead = []
  failed : r.2 = .failed → ∃ path, io.openRead path = false
  files : ∀ m, r.1.disk m ≠ none → r.1.disk m = s.disk m

/-- The active segment is the last one: behind the cursor on it nothing is left. -/
theorem readsActive_last (h : Represents s l) {g : Seg DecodedFrame}
    {rest : List (Seg DecodedFrame)} (hs : l.segs = g :: rest) (hseq : s.readSeq = g.seq)
    (hact : readsActive s = true) : rest = [] := by
  unfold readsActive at hact
  rcases h.active with ha | ⟨init, x, hx, ha⟩
  · rw [ha] at hact
    exact absurd hact (by simp)
  · rw [ha] at hact
    have hxg : x.seq = g.seq := by
      rw [← hseq]
      exact beq_iff_eq.mp hact
    have hmem : g ∈ l.segs := by rw [hs]; exact List.mem_cons_self
    have hmem' : x ∈ l.segs := SegLog.mem_back hx
    obtain rfl := h.seq_inj hmem' hmem hxg
    rw [hs] at hx
    cases init with
    | nil => exact (List.cons.inj hx).2
    | cons y ys =>
      -- the segment would come twice
      rw [List.cons_append] at hx
      have hp := h.sorted
      rw [hs, (List.cons.inj hx).2, List.pairwise_cons] at hp
      exact absurd (hp.1 x (List.mem_append_right _ List.mem_cons_self)) (Nat.lt_irrefl _)

/-- The cursor on the front segment, as the case of `CursorAt` it is. -/
theorem Represents.cursor_front (h : Represents s l) {g : Seg DecodedFrame}
    {rest : List (Seg DecodedFrame)} (hs : l.segs = g :: rest) (hseq : s.readSeq = g.seq) :
    s.readOffset = boundary g l.consumed ∧ (s.pendingAdvance = none ∨
      l.consumed < g.items.length ∧ s.pendingAdvance = some (boundary g (l.consumed + 1))) := by
  cases h.cursor with
  | off h1 _ _ _ _ => exact absurd hseq.symm (h1 g (by rw [hs]; exact List.mem_cons_self))
  | front x r h1 _ h3 h4 =>
    obtain rfl : g = x := by rw [hs] at h1; exact (List.cons.inj h1).1
    exact ⟨h3, h4⟩

/-- A frame was read: the pending advance is the boundary after it. -/
theorem Represents.setPending (h : Represents s l) {g : Seg DecodedFrame}
    {rest : List (Seg DecodedFrame)} (hs : l.segs = g :: rest) (hseq : s.readSeq = g.seq)
    (hc : l.consumed < g.items.length) :
    Represents { s with pendingAdvance := some (boundary g (l.consumed + 1)) } l where
  segments := h.segments
  files := h.files
  valid := h.valid
  sorted := h.sorted
  below := h.below
  fits := h.fits
  total := h.total
  active := h.active
  cursor := .front g rest hs hseq (h.cursor_front hs hseq).1 (Or.inr ⟨hc, rfl⟩)
  named := h.named

/-- What the cursor's file holds at the cursor. -/
theorem Represents.readAt (h : Represents s l) {g : Seg DecodedFrame}
    {rest : List (Seg DecodedFrame)} (hs : l.segs = g :: rest) (hseq : s.readSeq = g.seq) :
    ∃ file, s.disk (segmentPath g.seq) = some file ∧
      ((∃ hc : l.consumed < g.items.length, readFrameAt file.data s.readOffset =
          .frame g.items[l.consumed] (boundary g (l.consumed + 1))) ∨
        l.consumed = g.items.length ∧ readFrameAt file.data s.readOffset = .atEnd) := by
  have hg : g ∈ l.segs := by rw [hs]; exact List.mem_cons_self
  rw [(h.cursor_front hs hseq).1]
  rcases Nat.lt_or_eq_of_le (SegLog.consumed_le_of_cons hs) with hc | hc
  · obtain ⟨file, hd, hr⟩ := (h.files g hg).read (h.valid g hg) hc
    exact ⟨file, hd, Or.inl ⟨hc, hr⟩⟩
  · obtain ⟨file, hd, hr⟩ := (h.files g hg).read_end
    exact ⟨file, hd, Or.inr ⟨hc, by rw [hc]; exact hr⟩⟩

/-- The front segment was read out and goes: what `peek_next` does from there, it does from here
with one segment more. -/
theorem PeekOutcome.pass {r : Store × Peek} {n : Nat} {g : Seg DecodedFrame}
    {rest : List (Seg DecodedFrame)}
    (hn : PeekOutcome io (gcFrontConsumed io (resync s)) l.dropFront r n) (h : Represents s l)
    (hs : l.segs = g :: rest) (hseq : (resync s).readSeq = g.seq)
    (hc : l.consumed = g.items.length) (hra : readsActive (resync s) = false) :
    PeekOutcome io s l r (n + 1) := by
  obtain ⟨hr, hdisk, hact, hnext, -, -⟩ := resync_spec h
  obtain ⟨-, g2, g3, g4⟩ := gcFrontConsumed_spec io hr hs hseq hra
  refine ⟨hn.store, ?_, ?_, hn.active.trans (g3.trans hact), hn.nextSeq.trans (g4.trans hnext),
    hn.frame, hn.caughtUp, hn.failed, ?_⟩
  · rw [SegLog.lostBy_succ, SegLog.lostBy_one hs hc, hn.readOut]
    rfl
  · intro x hx
    have hx' : x ∈ l.dropFront.segs := by
      rw [SegLog.dropSegs, SegLog.segs_dropSegs] at hx
      exact List.mem_of_mem_drop hx
    have h1 := g2 x hx'
    rw [hdisk] at h1
    exact Nat.le_trans h1 (hn.keeps x hx)
  · intro m hm
    have hm₁ := hn.files m hm
    rw [hm₁, gcFrontConsumed_eq hr hs hseq] at hm ⊢
    exact (removeFile_eq hm).trans (congrFun hdisk m)

/-- The turns of `peek_next`, one more than there are segments. -/
theorem peekLoop_spec : ∀ (fuel : Nat) {s : Store} {l : FrameLog}, Represents s l →
    l.segs.length < fuel → ∃ n, PeekOutcome io s l (peekLoop io fuel s) n
  | 0, _, _, _, hf => absurd hf (Nat.not_lt_zero _)
  | fuel + 1, s, l, h, hf => by
    obtain ⟨hr, hdisk, hact, hnext, -, hfront⟩ := resync_spec h
    have hkeep : Keeps s.disk (resync s).disk l := by rw [hdisk]; exact fun _ _ => Nat.le_refl _
    have hstay : ∀ m, (resync s).disk m ≠ none → (resync s).disk m = s.disk m := by
      rw [hdisk]
      exact fun _ _ => rfl
    rw [peekLoop]
    rcases hfront with hnil | ⟨g, rest, hs, hseq⟩
    · have hfind : (resync s).segments.find? (fun m => m.seq == (resync s).readSeq) = none := by
        rw [hr.segments, hnil]
        rfl
      simp only [hfind]
      exact ⟨0, hr, l.lostBy_zero, hkeep, hact, hnext, fun f e => (nomatch e),
        fun _ => SegLog.ahead_nil hnil, fun e => (nomatch e), hstay⟩
    · simp only [hr.find_front hs hseq]
      obtain ⟨file, hd, hread⟩ := hr.readAt hs hseq
      cases ho : io.openRead (segmentPath g.seq) with
      | false =>
        have : openRead io (resync s).disk (metaOf g).path = none := by
          unfold openRead
          rw [metaOf_path, ho]
          rfl
        simp only [this]
        exact ⟨0, hr, l.lostBy_zero, hkeep, hact, hnext, fun f e => (nomatch e),
          fun e => (nomatch e), fun _ => ⟨_, ho⟩, hstay⟩
      | true =>
        have : openRead io (resync s).disk (metaOf g).path = some file.data := by
          unfold openRead
          rw [metaOf_path, ho, hd]
          rfl
        simp only [this]
        rcases hread with ⟨hc, e⟩ | ⟨hc, e⟩
        · simp only [e]
          refine ⟨0, hr.setPending hs hseq hc, l.lostBy_zero, hkeep, hact, hnext, ?_,
            fun e => (nomatch e), fun e => (nomatch e), hstay⟩
          intro f hf
          obtain rfl := Peek.frame.inj hf
          refine ⟨?_, Option.some_ne_none _⟩
          rw [SegLog.dropSegs, SegLog.ahead_cons hs, List.drop_eq_getElem_cons hc]
          rfl
        · simp only [e]
          split
          · rename_i hra
            refine ⟨0, hr, l.lostBy_zero, hkeep, hact, hnext, fun f e => (nomatch e), fun _ => ?_,
              fun e => (nomatch e), hstay⟩
            rw [SegLog.dropSegs, SegLog.ahead_cons hs, readsActive_last hr hs hseq hra, hc]
            simp
          · rename_i hra
            have hra' := Bool.eq_false_iff.mpr hra
            have hlen : l.dropFront.segs.length < fuel := by
              show l.segs.tail.length < fuel
              rw [hs, List.length_cons] at hf
              rw [hs, List.tail_cons]
              omega
            obtain ⟨n, hn⟩ := peekLoop_spec fuel (gcFrontConsumed_spec io hr hs hseq hra').1 hlen
            exact ⟨n + 1, hn.pass h hs hseq hc hra'⟩

/-- **`peek_next`**, over every outcome of its I/O calls. -/
theorem peekNext_spec (io : Io) (h : Represents s l) : ∃ n, PeekOutcome io s l (peekNext io s) n :=
  peekLoop_spec _ h (by rw [h.segments, List.length_map]; exact Nat.lt_succ_self _)

/-! ## `commit_pending` -/

/-- **`commit_pending`**: without a pending advance nothing changes, else the cursor moves past the
one frame that was next. -/
theorem commitPending_spec (h : Represents s l) :
    (s.pendingAdvance = none ∧ commitPending s = s) ∨
    ∃ f l', s.pendingAdvance ≠ none ∧ Represents (commitPending s) l' ∧ l'.segs = l.segs ∧
      l.ahead = f :: l'.ahead ∧ (commitPending s).disk = s.disk ∧
      (commitPending s).active = s.active ∧ (commitPending s).nextSeq = s.nextSeq ∧
      (commitPending s).pendingAdvance = none := by
  cases hp : s.pendingAdvance with
  | none =>
    refine Or.inl ⟨rfl, ?_⟩
    unfold commitPending
    rw [hp]
  | some next =>
    right
    cases h.cursor with
    | off _ _ h3 _ _ => exact absurd (hp.symm.trans h3) (by simp)
    | front g rest hs hseq hoff hpend =>
      rcases hpend with hpend | ⟨hc, hpend⟩
      · exact absurd (hp.symm.trans hpend) (by simp)
      · obtain rfl : next = boundary g (l.consumed + 1) := Option.some.inj (hp.symm.trans hpend)
        have hc' : l.consumed < l.segs.head?.elim 0 fun g => g.items.length := by
          rw [hs]
          exact hc
        have e : commitPending s = { s with
            readOffset := boundary g (l.consumed + 1)
            pendingAdvance := none
            metrics := { s.metrics with framesReplayed := s.metrics.framesReplayed + 1 } } := by
          unfold commitPending
          rw [hp]
        refine ⟨g.items[l.consumed], l.advance hc', Option.some_ne_none _, ?_, rfl,
          SegLog.ahead_advance hs hc' hc, by rw [e], by rw [e], by rw [e], by rw [e]⟩
        rw [e]
        exact {
          segments := h.segments
          files := h.files
          valid := h.valid
          sorted := h.sorted
          below := h.below
          fits := h.fits
          total := h.total
          active := h.active
          cursor := .front g rest hs hseq rfl (Or.inl rfl)
          named := h.named }

/-! ## What reading may change -/

/-- The store with another cursor. -/
def SameButCursor (s t : Store) : Prop :=
  t = { s with
    readSeq := t.readSeq
    readOffset := t.readOffset
    pendingAdvance := t.pendingAdvance }

/-- The store without a segment, its bytes and its file. -/
def withoutSegment (io : Io) (s : Store) (pre post : List SegmentMeta) (m : SegmentMeta) : Store :=
  { s with
    segments := pre ++ post
    totalBytes := s.totalBytes - m.bytes
    disk := removeFile io s.disk m.path }

section

omit [Crc32]

theorem sameButCursor_resync (s : Store) : SameButCursor s (resync s) := by
  unfold resync
  split
  · rfl
  · split
    · rfl
    · rfl

/-- **`gc_front_consumed`** removes the segment under the cursor, if there is one. -/
theorem gcFrontConsumed_cases (io : Io) (s : Store) :
    SameButCursor s (gcFrontConsumed io s) ∨
    ∃ pre m post, s.segments = pre ++ m :: post ∧ m.seq = s.readSeq ∧
      SameButCursor (withoutSegment io s pre post m) (gcFrontConsumed io s) := by
  unfold gcFrontConsumed
  cases hf : s.segments.find? (fun m => m.seq == s.readSeq) with
  | none =>
    left
    simp only
    split <;> rfl
  | some m =>
    right
    obtain ⟨hm, pre, post, hs, hpre⟩ := List.find?_eq_some_iff_append.mp hf
    have herase : s.segments.eraseP (fun m => m.seq == s.readSeq) = pre ++ post := by
      rw [hs, List.eraseP_append_right _ fun x hx => by simpa using hpre x hx]
      simp [hm]
    refine ⟨pre, m, post, hs, beq_iff_eq.mp hm, ?_⟩
    simp only [herase]
    split <;> rfl

end

/-- **What `peek_next` keeps**: what a move of the cursor keeps, and the removal of the segment under
the cursor where that is not the active one. -/
theorem peekNext_keeps {P : Store → Prop} (io : Io)
    (cursor : ∀ s t, P s → SameButCursor s t → P t)
    (remove : ∀ s pre m post, P s → s.segments = pre ++ m :: post → m.seq = s.readSeq →
      readsActive s = false → P (withoutSegment io s pre post m))
    {s : Store} (h : P s) : P (peekNext io s).1 := by
  unfold peekNext
  generalize s.segments.length + 1 = fuel
  induction fuel generalizing s with
  | zero => exact h
  | succ fuel ih =>
    have hsync : P (resync s) := cursor _ _ h (sameButCursor_resync s)
    rw [peekLoop]
    split
    · exact hsync
    · split
      · exact hsync
      · split
        · exact cursor _ _ hsync rfl
        all_goals
          split
          · exact hsync
          · rename_i hread
            refine ih ?_
            rcases gcFrontConsumed_cases io (resync s) with hsame | ⟨pre, m, post, hs, hm, hsame⟩
            · exact cursor _ _ hsync hsame
            · have hfree := Bool.eq_false_of_not_eq_true hread
              exact cursor _ _ (remove _ pre m post hsync hs hm hfree) hsame

end Statix.Wal
