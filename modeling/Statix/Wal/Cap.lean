import Statix.Wal.Failing

/-!
# The disk cap

How many bytes the tracked segments can have. `enforce_cap` runs before the rotation adds its
header, it never drops the last segment, and an append that fails may have rotated already; the
drainer removes segments in between.

* The bound is about the bookkeeping only: lengths of segments, the byte total and the offset of the
  active segment. What the files contain, and which I/O calls fail, does not matter.
* `Sized` is the invariant: the total is the sum, the active segment is the last one with its offset
  as its length, no segment is larger than `segment_bytes`.
* `enforceCap_ends`: the loop ends because its condition fails, never because of its fuel.
* `ensureActiveWithRoom_room`: after the cap and the rotation the frame fits under both bounds.

Result:

* **`disk_bounded`**: with `max_bytes ≥ segment_bytes` and frames that fit in a segment, no segment is
  ever larger than `segment_bytes` and the total never exceeds `max_bytes + segment_bytes`.
-/

namespace Statix.Wal

open Statix.Lib

variable [Crc32] {cfg : WalConfig} {s s' : Store}

section

omit [Crc32]

/-- Number and offset of the active segment. -/
def extent (s : Store) : Option (Nat × Nat) := s.active.map fun a => (a.seq, a.offset)

/-- **The bookkeeping of a store within its bounds.** -/
structure Sized (cfg : WalConfig) (s : Store) : Prop where
  config : s.cfg = cfg
  total : s.totalBytes = (s.segments.map SegmentMeta.bytes).sum
  active : ∀ seq offset, extent s = some (seq, offset) →
    ∃ init m, s.segments = init ++ [m] ∧ m.seq = seq ∧ m.bytes = offset
  size : ∀ m ∈ s.segments, m.bytes ≤ cfg.segmentBytes
  bound : s.totalBytes ≤ cfg.maxBytes + cfg.segmentBytes

/-- A frame of this size, after a segment header, fits in a segment. -/
def Fits (cfg : WalConfig) (size : Nat) : Prop := segmentHeaderLen + size ≤ cfg.segmentBytes

/-- What `enforce_cap` leaves: room for the incoming bytes, or a single segment. -/
def Capped (s : Store) (incoming : Nat) : Prop :=
  s.totalBytes + incoming ≤ s.cfg.maxBytes ∨ s.segments.length ≤ 1

namespace Sized

/-- `Sized` reads the bookkeeping only. -/
theorem congr (h : Sized cfg s) (hcfg : s'.cfg = s.cfg) (hseg : s'.segments = s.segments)
    (htot : s'.totalBytes = s.totalBytes) (hact : extent s' = extent s) : Sized cfg s' where
  config := hcfg.trans h.config
  total := by rw [htot, hseg]; exact h.total
  active := by rw [hact, hseg]; exact h.active
  size := by rw [hseg]; exact h.size
  bound := by rw [htot]; exact h.bound

/-- Removing a segment that is not the active one: with an active segment others follow. -/
theorem remove (h : Sized cfg s) (pre post : List SegmentMeta) {m : SegmentMeta}
    (hs : s.segments = pre ++ m :: post) (hpost : extent s ≠ none → post ≠ [])
    (hcfg : s'.cfg = s.cfg) (hseg : s'.segments = pre ++ post)
    (htot : s'.totalBytes = s.totalBytes - m.bytes) (hact : extent s' = extent s) : Sized cfg s' := by
  constructor
  case config => exact hcfg.trans h.config
  case total =>
    rw [htot, h.total, hs, hseg]
    simp only [List.map_append, List.map_cons, List.sum_append, List.sum_cons]
    omega
  case active =>
    intro seq offset he
    rw [hact] at he
    obtain ⟨init, back, hback, hrest⟩ := h.active seq offset he
    have hne : post ≠ [] := hpost (by rw [he]; exact Option.some_ne_none _)
    obtain ⟨post', last, rfl⟩ := (List.eq_nil_or_concat' post).resolve_left hne
    rw [hs, ← List.cons_append, ← List.append_assoc] at hback
    obtain rfl := List.singleton_inj.mp (List.append_inj' hback rfl).2
    exact ⟨pre ++ post', last, by rw [hseg, List.append_assoc], hrest⟩
  case size =>
    intro x hx
    refine h.size x ?_
    rw [hseg, List.mem_append] at hx
    rw [hs, List.mem_append, List.mem_cons]
    rcases hx with hx | hx
    · exact Or.inl hx
    · exact Or.inr (Or.inr hx)
  case bound =>
    have := h.bound
    rw [htot]
    omega

end Sized

/-! ## `enforce_cap` -/

theorem sized_dropFront (io : Io) (h : Sized cfg s) {victim front : SegmentMeta}
    {rest : List SegmentMeta} (hs : s.segments = victim :: front :: rest) :
    Sized cfg (dropFront io s) := by
  rw [dropFront_eq hs]
  exact h.remove [] (front :: rest) hs (fun _ => List.cons_ne_nil _ _) rfl rfl rfl rfl

theorem sized_enforceCapLoop (io : Io) (incoming fuel : Nat) (h : Sized cfg s) :
    Sized cfg (enforceCapLoop io incoming fuel s) :=
  enforceCapLoop_keeps io incoming fuel (fun _ _ _ _ hs h => sized_dropFront io h hs) h

/-- One turn of the loop removes a segment. -/
theorem length_dropFront (io : Io) (s : Store) :
    (dropFront io s).segments.length = s.segments.length - 1 := by
  unfold dropFront
  split
  · rename_i hs
    rw [hs]
    rfl
  · rename_i victim rest hs
    rw [hs]
    simp only
    split
    · split <;> rfl
    · rfl

/-- With as much fuel as there are segments the loop runs until its condition fails. -/
theorem enforceCapLoop_ends (io : Io) (incoming : Nat) : ∀ (fuel : Nat) (s : Store),
    s.segments.length ≤ fuel → Capped (enforceCapLoop io incoming fuel s) incoming
  | 0, s, hfuel => by
    refine Or.inr ?_
    rw [enforceCapLoop]
    omega
  | fuel + 1, s, hfuel => by
    rw [enforceCapLoop]
    split
    · refine enforceCapLoop_ends io incoming fuel _ ?_
      rw [length_dropFront]
      omega
    · rename_i hstop
      unfold Capped
      omega

/-- More fuel changes nothing. -/
theorem enforceCapLoop_fuel (io : Io) (incoming k : Nat) : ∀ (fuel : Nat) (s : Store),
    s.segments.length ≤ fuel →
      enforceCapLoop io incoming (fuel + k) s = enforceCapLoop io incoming fuel s
  | 0, s, hfuel => by
    have hstop : ¬ (s.totalBytes + incoming > s.cfg.maxBytes ∧ s.segments.length > 1) := by omega
    rw [Nat.zero_add]
    cases k with
    | zero => rfl
    | succ k => exact (if_neg hstop :)
  | fuel + 1, s, hfuel => by
    rw [Nat.add_right_comm, enforceCapLoop, enforceCapLoop]
    split
    · refine enforceCapLoop_fuel io incoming k fuel _ ?_
      rw [length_dropFront]
      omega
    · rfl

/-- **The drop loop of `enforce_cap` ends**, with room for the incoming bytes or a single segment. -/
theorem enforceCap_ends (io : Io) (s : Store) (incoming : Nat) :
    Capped (enforceCap io s incoming) incoming ∧
      ∀ k, enforceCapLoop io incoming (s.segments.length + k) s = enforceCap io s incoming :=
  ⟨enforceCapLoop_ends io incoming _ s (Nat.le_refl _),
    fun k => enforceCapLoop_fuel io incoming k _ s (Nat.le_refl _)⟩

/-! ## Rotation -/

theorem sized_retireActive (io : Io) (h : Sized cfg s) : Sized cfg (retireActive io s) :=
  ⟨h.config, h.total, fun _ _ e => (nomatch e), h.size, h.bound⟩

/-- A single segment has all the bytes. -/
theorem Sized.total_le (h : Sized cfg s) (hlen : s.segments.length ≤ 1) :
    s.totalBytes ≤ cfg.segmentBytes := by
  have htot := h.total
  match hs : s.segments with
  | [] =>
    rw [hs] at htot
    exact htot ▸ Nat.zero_le _
  | [m] =>
    rw [hs] at htot
    have := h.size m (by rw [hs]; exact List.mem_cons_self)
    simp only [List.map_cons, List.map_nil, List.sum_cons, List.sum_nil] at htot
    omega
  | _ :: _ :: _ =>
    rw [hs] at hlen
    simp at hlen

/-- An active segment with room for `size` more bytes, below the bound of the total too. -/
structure Room (cfg : WalConfig) (size : Nat) (s : Store) : Prop where
  sized : Sized cfg s
  segment : ∀ seq offset, extent s = some (seq, offset) → offset + size ≤ cfg.segmentBytes
  total : s.totalBytes + size ≤ cfg.maxBytes + cfg.segmentBytes

end

/-- The header of a new segment and the frame fit where the cap was enforced for the frame only. -/
theorem room_rotated (io : Io) (h : Sized cfg s) {size : Nat} (hcap : Capped s size)
    (hfits : Fits cfg size) (hcfg : cfg.segmentBytes ≤ cfg.maxBytes) :
    Room cfg size (rotated io s) := by
  have htotal : s.totalBytes + segmentHeaderLen + size ≤ cfg.maxBytes + cfg.segmentBytes := by
    unfold Fits at hfits
    rcases hcap with hroom | hone
    · rw [h.config] at hroom
      omega
    · have := h.total_le hone
      omega
  have hsegs : (rotated io s).segments = s.segments ++ [metaOf ⟨s.nextSeq, []⟩] := rfl
  refine ⟨⟨h.config, ?_, ?_, ?_, ?_⟩, ?_, htotal⟩
  · rw [hsegs, List.map_append, List.sum_append, ← h.total]
    rfl
  · intro seq offset e
    obtain ⟨rfl, rfl⟩ := Prod.mk.inj (Option.some.inj e)
    exact ⟨s.segments, _, rfl, rfl, rfl⟩
  · intro m hm
    rw [hsegs, List.mem_append, List.mem_singleton] at hm
    rcases hm with hm | rfl
    · exact h.size m hm
    · exact Nat.le_trans (Nat.le_add_right _ _) hfits
  · exact Nat.le_trans (Nat.le_add_right _ _) htotal
  · intro seq offset e
    obtain ⟨rfl, rfl⟩ := Prod.mk.inj (Option.some.inj e)
    exact hfits

omit [Crc32] in
/-- The active segment has room when no rotation is needed. -/
theorem room_stay (h : Sized cfg s) {size : Nat} (hcap : Capped s size) (hfits : Fits cfg size)
    (hcfg : cfg.segmentBytes ≤ cfg.maxBytes) (hstay : needsRotate s size = false) : Room cfg size s := by
  cases ha : s.active with
  | none => simp [needsRotate, ha] at hstay
  | some a =>
    have hseg : a.offset + size ≤ cfg.segmentBytes := by
      unfold Fits at hfits
      simp only [needsRotate, ha, h.config, Bool.and_eq_false_iff, decide_eq_false_iff_not] at hstay
      omega
    refine ⟨h, fun seq offset e => ?_, ?_⟩
    · rw [extent, ha] at e
      obtain ⟨rfl, rfl⟩ := Prod.mk.inj (Option.some.inj e)
      exact hseg
    · rcases hcap with hroom | hone
      · rw [h.config] at hroom
        omega
      · have := h.total_le hone
        unfold Fits at hfits
        omega

/-- **After the cap and the rotation the frame fits**, when the rotation succeeded; when it failed
the bounds hold as before. -/
theorem ensureActiveWithRoom_room (io : Io) (h : Sized cfg s) {size : Nat} (hcap : Capped s size)
    (hfits : Fits cfg size) (hcfg : cfg.segmentBytes ≤ cfg.maxBytes) :
    let r := ensureActiveWithRoom io s size
    Sized cfg r.1 ∧ (r.2 = true → Room cfg size r.1) := by
  intro r
  cases hrot : needsRotate s size with
  | false =>
    have e : r = (s, true) := ensureActiveWithRoom_stay io hrot
    rw [e]
    exact ⟨h, fun _ => room_stay h hcap hfits hcfg hrot⟩
  | true =>
    have e : r = rotate io s := ensureActiveWithRoom_rotate io hrot
    have hret := sized_retireActive io h
    rw [e]
    rcases rotate_cases io s with e | e | ⟨k, e⟩ | e
    · rw [e]
      exact ⟨hret, fun h => (nomatch h)⟩
    · rw [e]
      exact ⟨hret.congr rfl rfl rfl rfl, fun h => (nomatch h)⟩
    · rw [e]
      exact ⟨hret.congr rfl rfl rfl rfl, fun h => (nomatch h)⟩
    · rw [e]
      have hroom := room_rotated io h hcap hfits hcfg
      exact ⟨hroom.sized, fun _ => hroom⟩

/-! ## Writing -/

section

omit [Crc32]

@[simp] theorem extent_writeActive (s : Store) (fault : Option Nat) (bs : Bytes) :
    extent (writeActive s fault bs).1 = extent s := by
  unfold writeActive extent
  cases ha : s.active <;> simp [ha]

/-- A `write_all` that succeeded had a file to write to. -/
theorem active_of_written {fault : Option Nat} {bs : Bytes}
    (h : writeActive s fault bs = (s', true)) : s'.active ≠ none := by
  unfold writeActive at h
  cases ha : s.active with
  | none => simp [ha] at h
  | some a =>
    simp only [ha, Prod.mk.injEq] at h
    rw [← h.1]
    exact Option.some_ne_none _

theorem room_writeActive {size : Nat} (h : Room cfg size s) (fault : Option Nat) (bs : Bytes) :
    Room cfg size (writeActive s fault bs).1 := by
  have hbook : (writeActive s fault bs).1.cfg = s.cfg ∧
      (writeActive s fault bs).1.segments = s.segments ∧
      (writeActive s fault bs).1.totalBytes = s.totalBytes := by
    unfold writeActive
    split <;> exact ⟨rfl, rfl, rfl⟩
  obtain ⟨hc, hs, ht⟩ := hbook
  have he := extent_writeActive s fault bs
  refine ⟨h.sized.congr hc hs ht he, ?_, ?_⟩
  · rw [he]
    exact h.segment
  · rw [ht]
    exact h.total

/-- The frame takes the room there was. -/
theorem sized_accountFrame {size : Nat} (h : Room cfg size s) (hsome : s.active ≠ none) :
    Sized cfg (accountFrame s size) := by
  obtain ⟨a, ha⟩ := Option.ne_none_iff_exists'.mp hsome
  have he : extent s = some (a.seq, a.offset) := by rw [extent, ha]; rfl
  obtain ⟨init, m, hs, hseq, hbytes⟩ := h.sized.active _ _ he
  have hsegs : (accountFrame s size).segments =
      init ++ [{ m with bytes := m.bytes + size, frames := m.frames + 1 }] := by
    unfold accountFrame
    rw [hs]
    exact updateBack_concat _ init m
  have htotal := h.sized.total
  constructor
  case config => exact h.sized.config
  case total =>
    rw [hs] at htotal
    rw [hsegs]
    show s.totalBytes + size = _
    rw [htotal]
    simp only [List.map_append, List.map_cons, List.map_nil, List.sum_append, List.sum_cons,
      List.sum_nil]
    omega
  case active =>
    intro seq offset e
    simp only [extent, accountFrame, ha, Option.map_some, Option.some.injEq, Prod.mk.injEq] at e
    obtain ⟨rfl, rfl⟩ := e
    exact ⟨init, _, hsegs, hseq, congrArg (· + size) hbytes⟩
  case size =>
    intro x hx
    rw [hsegs, List.mem_append, List.mem_singleton] at hx
    rcases hx with hx | rfl
    · exact h.sized.size x (by rw [hs]; exact List.mem_append_left _ hx)
    · have := h.segment _ _ he
      show m.bytes + size ≤ _
      omega
  case bound => exact h.total

end

theorem sized_writeFrame (io : Io) {payload : Bytes}
    (h : Room cfg (frameLenOnDisk payload.length) s) : Sized cfg (writeFrame io s payload).1 := by
  have hnum : Room cfg (frameLenOnDisk payload.length)
      { s with nextBatchSeq := s.nextBatchSeq + 1 } :=
    ⟨h.sized.congr rfl rfl rfl rfl, h.segment, h.total⟩
  have hhdr := room_writeActive hnum io.writeFrameHeader (encodeFrameHeader payload s.nextBatchSeq)
  unfold writeFrame
  simp only
  split
  · rename_i s₁ e
    rw [e] at hhdr
    exact hhdr.sized
  · rename_i s₁ e
    rw [e] at hhdr
    have hpay := room_writeActive hhdr io.writePayload payload
    split
    · rename_i s₂ e₂
      rw [e₂] at hpay
      exact hpay.sized
    · rename_i s₂ e₂
      rw [e₂] at hpay
      exact sized_accountFrame hpay (active_of_written e₂)

/-- **`append` keeps the bounds**, whether it succeeds or fails. -/
theorem sized_append (io : Io) (h : Sized cfg s) {payload : Bytes}
    (hfits : Fits cfg (frameLenOnDisk payload.length)) (hcfg : cfg.segmentBytes ≤ cfg.maxBytes) :
    Sized cfg (append io s payload).1 := by
  have hcap := sized_enforceCapLoop io (frameLenOnDisk payload.length) s.segments.length h
  obtain ⟨hsized, hroom⟩ := ensureActiveWithRoom_room io hcap
    (enforceCap_ends io s (frameLenOnDisk payload.length)).1 hfits hcfg
  unfold append
  simp only
  split
  · rename_i s₁ e
    rw [← enforceCap, e] at hsized
    exact hsized
  · rename_i s₁ e
    rw [← enforceCap, e] at hroom
    exact sized_writeFrame io (hroom rfl)

/-! ## Reading and runs -/

theorem sized_peekNext (io : Io) (h : Sized cfg s) : Sized cfg (peekNext io s).1 := by
  refine peekNext_keeps io (fun s t h hsame => ?_) (fun s pre m post h hs hm hread => ?_) h
  · rw [hsame]
    exact h.congr rfl rfl rfl rfl
  · refine h.remove pre post hs ?_ rfl rfl rfl rfl
    rintro hext rfl
    obtain ⟨⟨seq, offset⟩, he⟩ := Option.ne_none_iff_exists'.mp hext
    obtain ⟨init, back, hback, hseq, -⟩ := h.active seq offset he
    -- the segment under the cursor would be the active one
    obtain rfl := List.singleton_inj.mp (List.append_inj' (hs.symm.trans hback) rfl).2
    unfold extent at he
    obtain ⟨a, ha, e⟩ := Option.map_eq_some_iff.mp he
    obtain ⟨rfl, -⟩ := Prod.mk.inj e
    simp only [readsActive, ha, beq_eq_false_iff_ne] at hread
    exact hread (hseq.symm.trans hm)

/-- One call on the store, with any outcome of its I/O calls; `append_one` is an `append` and, when
it failed, a `recover_active_after_error`. Frames fit in a segment. -/
inductive CapStep (cfg : WalConfig) : Store → Store → Prop
  | append {s : Store} (io : Io) (payload : Bytes)
      (fits : Fits cfg (frameLenOnDisk payload.length)) : CapStep cfg s (append io s payload).1
  | recoverActiveAfterError {s : Store} (io : Io) : CapStep cfg s (recoverActiveAfterError io s)
  | syncActive {s : Store} (io : Io) : CapStep cfg s (syncActive io s)
  | peekNext {s : Store} (io : Io) : CapStep cfg s (peekNext io s).1
  | commitPending {s : Store} : CapStep cfg s (commitPending s)

theorem sized_step (hcfg : cfg.segmentBytes ≤ cfg.maxBytes) (h : Sized cfg s)
    (hstep : CapStep cfg s s') : Sized cfg s' := by
  cases hstep with
  | append io payload fits => exact sized_append io h fits hcfg
  | recoverActiveAfterError io =>
    unfold recoverActiveAfterError
    cases ha : s.active with
    | none => exact h
    | some a => exact h.congr rfl rfl rfl (by simp [extent, ha])
  | syncActive io => exact h.congr rfl rfl rfl rfl
  | peekNext io => exact sized_peekNext io h
  | commitPending =>
    unfold commitPending
    split
    · exact h
    · exact h.congr rfl rfl rfl rfl

theorem sized_run (hcfg : cfg.segmentBytes ≤ cfg.maxBytes) {d : Disk}
    (run : Relation.ReflTransGen (CapStep cfg) (emptyStore cfg d) s) : Sized cfg s := by
  induction run with
  | refl =>
    exact ⟨rfl, rfl, fun _ _ e => (nomatch e), fun _ hm => absurd hm List.not_mem_nil,
      Nat.zero_le _⟩
  | tail _ hstep ih => exact sized_step hcfg ih hstep

/-- **The disk cap.** In every run from an empty store in which the frames fit in a segment, no
tracked segment is larger than `segment_bytes` and the total is at most
`max_bytes + segment_bytes`, and the drop loop of `enforce_cap` ends. -/
theorem disk_bounded (hcfg : cfg.segmentBytes ≤ cfg.maxBytes) {d : Disk}
    (run : Relation.ReflTransGen (CapStep cfg) (emptyStore cfg d) s) :
    (∀ m ∈ s.segments, m.bytes ≤ cfg.segmentBytes) ∧
    s.totalBytes ≤ cfg.maxBytes + cfg.segmentBytes ∧
    s.totalBytes = (s.segments.map SegmentMeta.bytes).sum ∧
    ∀ io incoming, Capped (enforceCap io s incoming) incoming ∧
      ∀ k, enforceCapLoop io incoming (s.segments.length + k) s = enforceCap io s incoming := by
  have h := sized_run hcfg run
  exact ⟨h.size, h.bound, h.total, fun io incoming => enforceCap_ends io s incoming⟩

/-- A cap of exactly one segment. -/
def oneSegmentConfig : WalConfig := ⟨true, 33, 33, 1, 200⟩

omit [Crc32] in
/-- The bound can be met: with room for one segment a full one is kept until the next frame has its
own. -/
theorem disk_bounded_two_segments : letI := crc32Ieee
    ∃ s : Store, s.totalBytes = 66 ∧ s.segments.length = 2 ∧
      s.totalBytes ≤ oneSegmentConfig.maxBytes + oneSegmentConfig.segmentBytes := by
  let _ := crc32Ieee
  have fits : Fits oneSegmentConfig (frameLenOnDisk 1) := by
    unfold Fits
    decide
  have run : Relation.ReflTransGen (CapStep oneSegmentConfig)
      (emptyStore oneSegmentConfig fun _ => none) _ :=
    (Relation.ReflTransGen.single (.append .ok [7] fits)).tail (.append .ok [8] fits)
  exact ⟨_, by decide +kernel, by decide +kernel, (disk_bounded (by decide) run).2.1⟩

end Statix.Wal
