import Statix.Wal.Fifo
import Statix.Wal.Recovery

/-!
# Segment names and the segments recovered from them

`segment_path` writes the number of a segment with 20 digits; `parse_segment_seq` reads any decimal
number there, with a `+` or without (`statix/src/wal/segment.rs`). A listing may so name one segment
several times, and `recover` opens `segment_path` of each number it finds.

* `padded`: a number written the way `segment_path` writes it.
* `name_canonical_iff`: which accepted names are those of `segment_path`.
* `usable`: the segment of a number can be opened and has a valid header.
* `recoverSegment_turn`, `recoverSegments_seqs`: the segments `recover` tracks, for any listing.
* **`naming_exact`**: when names are one-to-one, and when the recovered numbers increase.
* `segment_counted_twice`: a listing with two names for one segment.
-/

namespace Statix.Wal

open Statix.Lib

/-- The number stands between the prefix and the suffix with 20 digits and no sign. -/
def padded (name : FileName) : Bool :=
  name.length = 28 && ((name.drop 4).take 20).all Char.isDigit

/-! ## Names -/

theorem length_digitsRev : ∀ {w n : Nat}, n < 10 ^ w → (digitsRev w n).length = w
  | 0, n, h => by
    obtain rfl : n = 0 := by simpa using h
    rfl
  | w + 1, n, h => by
    have hlt : n / 10 < 10 ^ w := Nat.div_lt_of_lt_mul (by rwa [Nat.mul_comm, ← Nat.pow_succ])
    rw [digitsRev, List.length_cons, length_digitsRev hlt]

theorem digitChar_toNat {c : Char} (h : c.isDigit = true) :
    c.toNat - 48 < 10 ∧ Nat.digitChar (c.toNat - 48) = c := by
  unfold Char.isDigit at h
  rw [Bool.and_eq_true, decide_eq_true_eq, decide_eq_true_eq] at h
  have hlo : 48 ≤ c.toNat := UInt32.le_iff_toNat_le.mp h.1
  have hhi : c.toNat ≤ 57 := UInt32.le_iff_toNat_le.mp h.2
  have hlt : c.toNat - 48 < 10 := by omega
  refine ⟨hlt, Char.toNat_inj.mp ?_⟩
  rw [Nat.toNat_digitChar_of_lt_ten hlt]
  omega

/-- Digits are written back from their value. -/
theorem digitsRev_digitsVal : ∀ {ds : List Char}, (∀ c ∈ ds, c.isDigit = true) →
    digitsRev ds.length (digitsVal ds) = ds
  | [], _ => rfl
  | c :: ds, h => by
    obtain ⟨hlt, hc⟩ := digitChar_toNat (h c List.mem_cons_self)
    have ih := digitsRev_digitsVal fun x hx => h x (List.mem_cons_of_mem c hx)
    have hval : digitsVal (c :: ds) = (c.toNat - 48) + 10 * digitsVal ds := rfl
    have hmod : digitsVal (c :: ds) % 10 = c.toNat - 48 := by omega
    have hdiv : digitsVal (c :: ds) / 10 = digitsVal ds := by omega
    rw [List.length_cons, digitsRev, hmod, hdiv, hc, ih]

theorem stripPrefix_eq_some {pre cs rest : List Char} (h : stripPrefix pre cs = some rest) :
    cs = pre ++ rest := by
  unfold stripPrefix at h
  split at h
  · rename_i hpre
    calc cs = cs.take pre.length ++ cs.drop pre.length := (List.take_append_drop _ _).symm
      _ = pre ++ rest := by rw [hpre, Option.some.inj h]
  · cases h

theorem stripSuffix_eq_some {suf cs rest : List Char} (h : stripSuffix suf cs = some rest) :
    cs = rest ++ suf := by
  obtain ⟨r, hr, rfl⟩ := Option.map_eq_some_iff.mp h
  have := congrArg List.reverse (stripPrefix_eq_some hr)
  rw [List.reverse_reverse] at this
  rw [this, List.reverse_append, List.reverse_reverse]

/-- The text of an accepted name that is read as its number. -/
theorem parseSegmentSeq_eq_some {name : FileName} {seq : Nat}
    (h : parseSegmentSeq name = some seq) :
    ∃ ds, name = segmentPrefix ++ (ds ++ segmentSuffix) ∧ parseU64 ds = some seq := by
  unfold parseSegmentSeq at h
  simp only [Option.bind_eq_bind, Option.bind_eq_some_iff] at h
  obtain ⟨rest, hrest, ds, hds, hp⟩ := h
  exact ⟨ds, by rw [stripPrefix_eq_some hrest, stripSuffix_eq_some hds], hp⟩

theorem padded_append (ds : List Char) : padded (segmentPrefix ++ (ds ++ segmentSuffix)) = true ↔
    ds.length = 20 ∧ ds.all Char.isDigit = true := by
  unfold padded
  have hdrop : (segmentPrefix ++ (ds ++ segmentSuffix)).drop 4 = ds ++ segmentSuffix := rfl
  have hlen : (segmentPrefix ++ (ds ++ segmentSuffix)).length = 28 ↔ ds.length = 20 := by
    rw [List.length_append, List.length_append]
    show 4 + (ds.length + 4) = 28 ↔ _
    omega
  rw [hdrop, Bool.and_eq_true, decide_eq_true_eq, hlen]
  refine and_congr_right fun h => ?_
  rw [← h, List.take_left]

/-- A text of digits is read as its value. -/
theorem parseU64_digits {ds : List Char} {seq : Nat} (h : parseU64 ds = some seq)
    (hall : ds.all Char.isDigit = true) : digitsVal ds.reverse = seq := by
  unfold parseU64 at h
  simp only [Option.ite_none_right_eq_some, Option.some.injEq] at h
  obtain ⟨-, hval⟩ := h
  split at hval
  · -- a sign is no digit
    rw [List.all_cons] at hall
    cases hall
  · exact hval

/-- **An accepted name is the one `segment_path` gives its number** exactly if the number is
padded. -/
theorem name_canonical_iff {name : FileName} {seq : Nat} (h : parseSegmentSeq name = some seq) :
    name = segmentPath seq ↔ padded name = true := by
  have hlt : seq < 10 ^ 20 := Nat.lt_trans (parseSegmentSeq_lt h) (by decide)
  constructor
  · rintro rfl
    unfold segmentPath
    rw [padded_append]
    refine ⟨by rw [List.length_reverse, length_digitsRev hlt], List.all_eq_true.mpr fun c hc => ?_⟩
    exact isDigit_of_mem_digitsRev (List.mem_reverse.mp hc)
  · intro hpad
    obtain ⟨ds, rfl, hp⟩ := parseSegmentSeq_eq_some h
    obtain ⟨hlen, hall⟩ := (padded_append ds).mp hpad
    have hdigits : ∀ c ∈ ds.reverse, c.isDigit = true := fun c hc =>
      List.all_eq_true.mp hall c (List.mem_reverse.mp hc)
    have hback := digitsRev_digitsVal hdigits
    rw [List.length_reverse, hlen, parseU64_digits hp hall] at hback
    unfold segmentPath
    rw [hback, List.reverse_reverse]

/-! ## Segments -/

section Segments

variable [Crc32] {io : Io} {d : Disk} {seq x : Nat}

/-- The file `segment_path` names for `seq` can be opened and has a valid header. -/
def usable (io : Io) (d : Disk) (seq : Nat) : Bool := (recoveredSeg io d seq).isSome

theorem usable_iff : usable io d seq = true ↔
    ∃ file, openRead io d (segmentPath seq) = some file ∧ headerOk file = true := by
  unfold usable recoveredSeg
  cases openRead io d (segmentPath seq) with
  | none => simp
  | some file => cases h : headerOk file <;> simp [h]

omit [Crc32] in
theorem openRead_congr {d d' : Disk} {path : FileName} (h : d' path = d path) :
    openRead io d' path = openRead io d path := by
  unfold openRead
  rw [h]

theorem usable_congr {d d' : Disk} (h : d' (segmentPath seq) = d (segmentPath seq)) :
    usable io d' seq = usable io d seq := by
  unfold usable recoveredSeg
  rw [openRead_congr h]

/-- Removing the file of an unusable segment makes no segment usable. -/
theorem usable_remove (h : usable io d seq = false) (x : Nat) :
    usable io (removeFile io d (segmentPath seq)) x = usable io d x := by
  unfold removeFile
  split
  · by_cases hx : x = seq
    · subst hx
      have hgone : openRead io (d.remove (segmentPath x)) (segmentPath x) = none := by
        unfold openRead
        rw [Dir.remove_self, Option.map_none, ite_self]
      rw [h]
      unfold usable recoveredSeg
      rw [hgone]
      rfl
    · exact usable_congr (Dir.remove_ne _ fun e => hx (segmentPath_inj.mp e))
  · rfl

/-- Cutting the file of a usable segment behind its header leaves it usable. -/
theorem usable_setLen {file : Bytes} {n : Nat} (hfile : openRead io d (segmentPath seq) = some file)
    (hok : headerOk file = true) (hlen : segmentHeaderLen ≤ n) (hle : n ≤ file.length) (x : Nat) :
    usable io (d.modify (segmentPath seq) (File.setLen n)) x = usable io d x := by
  by_cases hx : x = seq
  · subst hx
    rw [usable_iff.mpr ⟨file, hfile, hok⟩, usable_iff]
    unfold openRead at hfile ⊢
    split at hfile
    · rename_i hopen
      obtain ⟨f, hf, rfl⟩ := Option.map_eq_some_iff.mp hfile
      refine ⟨f.data.take n, ?_, ?_⟩
      · rw [if_pos hopen, Dir.modify_self, hf, Option.map_some, Option.map_some, setLen_cut n hle]
      · unfold headerOk at hok ⊢
        rw [List.take_take, Nat.min_eq_left hlen, List.length_take, Nat.min_eq_left hle]
        rw [Bool.and_eq_true] at hok ⊢
        exact ⟨decide_eq_true hlen, hok.2⟩
    · cases hfile
  · exact usable_congr (Dir.modify_ne _ _ fun e => hx (segmentPath_inj.mp e))

/-- What one turn of the loop adds to the segments. -/
structure Turn (io : Io) (seq : Nat) (r r' : Recovered) : Prop where
  seqs : r'.segments.map SegmentMeta.seq =
    r.segments.map SegmentMeta.seq ++ if usable io r.disk seq then [seq] else []
  paths : ∀ m ∈ r'.segments, m ∈ r.segments ∨ m.path = segmentPath m.seq
  usable : ∀ x, usable io r'.disk x = Statix.Wal.usable io r.disk x

/-- **One turn of the loop**, for a number that may have come before. -/
theorem recoverSegment_turn (io : Io) (r : Recovered) (seq : Nat) :
    ∃ r', recoverSegment io r seq = some r' ∧ Turn io seq r r' := by
  unfold recoverSegment
  simp only
  cases hfile : openRead io r.disk (segmentPath seq) with
  | none =>
    have hnot : usable io r.disk seq = false := by
      unfold usable recoveredSeg
      rw [hfile]
      rfl
    refine ⟨_, rfl, ?_, fun m hm => Or.inl hm, fun _ => rfl⟩
    rw [hnot]
    exact (List.append_nil _).symm
  | some file =>
    cases hok : headerOk file with
    | false =>
      have hnot : usable io r.disk seq = false := by
        unfold usable recoveredSeg
        rw [hfile]
        simp only [hok]
        rfl
      simp only
      rw [if_pos hok]
      refine ⟨_, rfl, ?_, fun m hm => Or.inl hm, usable_remove hnot⟩
      rw [hnot]
      exact (List.append_nil _).symm
    | true =>
      obtain ⟨c, e⟩ := walkFrames_eq file file.length segmentHeaderLen 0 r.nextBatchSeq (by omega)
      obtain ⟨hoff, hle, -⟩ := walk_good hok seq
      rw [Nat.zero_add, hoff] at e
      have hne : headerOk file ≠ false := by rw [hok]; decide
      simp only [e]
      rw [if_neg hne]
      refine ⟨_, rfl, ?_, fun m hm => ?_, fun x => ?_⟩
      · rw [usable_iff.mpr ⟨file, hfile, hok⟩, List.map_append]
        rfl
      · rcases List.mem_append.mp hm with hm | hm
        · exact Or.inl hm
        · rw [List.mem_singleton.mp hm]
          exact Or.inr rfl
      · simp only
        split
        · exact usable_setLen hfile hok (Nat.le_add_right _ _) hle x
        · rfl

/-- **The whole loop**: a segment for each number of a usable one, as often as it comes. -/
theorem recoverSegments_seqs (io : Io) (todo : List Nat) (r : Recovered)
    (hpaths : ∀ m ∈ r.segments, m.path = segmentPath m.seq) :
    ∃ r', todo.foldlM (recoverSegment io) r = some r' ∧
      r'.segments.map SegmentMeta.seq =
        r.segments.map SegmentMeta.seq ++ todo.filter (usable io r.disk) ∧
      ∀ m ∈ r'.segments, m.path = segmentPath m.seq := by
  induction todo generalizing r with
  | nil => exact ⟨r, rfl, (List.append_nil _).symm, hpaths⟩
  | cons seq todo ih =>
    obtain ⟨r₁, e₁, h₁⟩ := recoverSegment_turn io r seq
    obtain ⟨r', e', hseqs, hpaths'⟩ := ih r₁ fun m hm => (h₁.paths m hm).elim (hpaths m) id
    refine ⟨r', ?_, ?_, hpaths'⟩
    · rw [List.foldlM_cons, e₁]
      exact e'
    · have hsame : usable io r₁.disk = usable io r.disk := funext h₁.usable
      rw [hseqs, h₁.seqs, hsame, List.append_assoc, List.filter_cons]
      split <;> rfl

/-- **What `recover` tracks**, for any listing. -/
theorem recover_seqs (io : Io) (cfg : WalConfig) (entries : List FileName) (d : Disk) :
    ∃ s, recover io cfg entries d = some s ∧
      s.segments.map SegmentMeta.seq =
        ((entries.filterMap parseSegmentSeq).insertionSort (· ≤ ·)).filter (usable io d) ∧
      ∀ m ∈ s.segments, m.path = segmentPath m.seq := by
  unfold recover
  simp only
  generalize (entries.filterMap parseSegmentSeq).insertionSort (· ≤ ·) = found
  by_cases hnil : found = []
  · rw [if_pos hnil, hnil]
    exact ⟨_, rfl, rfl, fun m hm => absurd hm List.not_mem_nil⟩
  · rw [if_neg hnil]
    obtain ⟨r, e, hseqs, hpaths⟩ := recoverSegments_seqs io found ⟨[], 0, 0, 0, 0, d⟩
      fun m hm => absurd hm List.not_mem_nil
    rw [e]
    exact ⟨_, rfl, hseqs, hpaths⟩

/-- The file of a usable segment is in the listing. -/
theorem listed_of_usable {entries : List FileName} (hl : Lists entries d)
    (h : usable io d seq = true) : segmentPath seq ∈ entries := by
  obtain ⟨file, hfile, -⟩ := usable_iff.mp h
  rw [hl.mem]
  intro hnone
  unfold openRead at hfile
  rw [hnone, Option.map_none, ite_self] at hfile
  cases hfile

/-- The numbers of usable segments come once each exactly if none of them has another name. -/
theorem found_nodup_iff {entries : List FileName} (hl : Lists entries d) :
    ((entries.filterMap parseSegmentSeq).filter (usable io d)).Nodup ↔
      ∀ n ∈ entries, ∀ seq, parseSegmentSeq n = some seq → usable io d seq = true →
        n = segmentPath seq := by
  rw [List.filter_filterMap]
  unfold List.Nodup
  rw [List.pairwise_filterMap]
  constructor
  · intro hnd n hn seq hp hu
    by_contra hne
    have hpath := parseSegmentSeq_segmentPath (parseSegmentSeq_lt hp)
    -- two names of the listing give the same number
    have hsymm : Std.Symm fun a b : FileName =>
        ∀ y, (parseSegmentSeq a).filter (usable io d) = some y →
          ∀ y', (parseSegmentSeq b).filter (usable io d) = some y' → y ≠ y' :=
      ⟨fun a b hab y hy y' hy' => (hab y' hy' y hy).symm⟩
    have hdiff := hnd.forall hn (listed_of_usable hl hu) hne
    refine hdiff seq ?_ seq ?_ rfl
    · rw [hp, Option.filter_some, hu, if_pos rfl]
    · rw [hpath, Option.filter_some, hu, if_pos rfl]
  · intro h
    refine hl.nodup.imp_of_mem fun {a b} ha hb hab x hx y hy e => hab ?_
    obtain ⟨hxa, hux⟩ := Option.filter_eq_some_iff.mp hx
    obtain ⟨hyb, huy⟩ := Option.filter_eq_some_iff.mp hy
    rw [h a ha x hxa hux, h b hb y hyb huy, e]

omit [Crc32] in
/-- The recovered numbers increase exactly if they come once each. -/
theorem filter_sorted_iff (p : Nat → Bool) (found : List Nat) :
    ((found.insertionSort (· ≤ ·)).filter p).Pairwise (· < ·) ↔ (found.filter p).Nodup := by
  have hperm : ((found.insertionSort (· ≤ ·)).filter p).Perm (found.filter p) :=
    (List.perm_insertionSort (· ≤ ·) found).filter p
  have hle : ((found.insertionSort (· ≤ ·)).filter p).Pairwise (· ≤ ·) :=
    (List.pairwise_insertionSort (· ≤ ·) found).filter p
  rw [← hperm.nodup_iff]
  constructor
  · exact fun h => h.imp Nat.ne_of_lt
  · exact fun h => (hle.and h).imp fun hab => Nat.lt_of_le_of_ne hab.1 hab.2

/-- **Segment naming.** The name of every number parses back to it; an accepted name is the one
`segment_path` gives its number exactly if the number is padded. For every listing of a directory
and every outcome of the I/O calls, `recover` tracks files of the listing, and their numbers
increase, without repetition, exactly if the names of usable segments are padded. -/
theorem naming_exact (io : Io) (cfg : WalConfig) {entries : List FileName} {d : Disk}
    (lists : Lists entries d) :
    (∀ seq < 2 ^ 64, parseSegmentSeq (segmentPath seq) = some seq) ∧
    (∀ name seq, parseSegmentSeq name = some seq →
      (name = segmentPath seq ↔ padded name = true)) ∧
    ∃ s, recover io cfg entries d = some s ∧
      (∀ m ∈ s.segments, m.path = segmentPath m.seq ∧ m.path ∈ entries) ∧
      ((s.segments.map SegmentMeta.seq).Pairwise (· < ·) ↔
        ∀ n ∈ entries, ∀ seq, parseSegmentSeq n = some seq → usable io d seq = true →
          padded n = true) := by
  refine ⟨fun seq => parseSegmentSeq_segmentPath, fun name seq => name_canonical_iff, ?_⟩
  obtain ⟨s, e, hseqs, hpaths⟩ := recover_seqs io cfg entries d
  refine ⟨s, e, fun m hm => ⟨hpaths m hm, ?_⟩, ?_⟩
  · have hmem : m.seq ∈ s.segments.map SegmentMeta.seq := List.mem_map_of_mem hm
    rw [hseqs] at hmem
    rw [hpaths m hm]
    exact listed_of_usable lists (List.mem_filter.mp hmem).2
  · rw [hseqs, filter_sorted_iff, found_nodup_iff lists]
    refine forall₅_congr fun n hn seq hp hu => ?_
    exact name_canonical_iff hp

end Segments

/-- The directory of some files. -/
def dirOf (files : List (FileName × File UInt8)) : Disk :=
  fun n => (files.find? fun f => f.1 == n).map Prod.snd

theorem lists_dirOf (files : List (FileName × File UInt8)) (h : (files.map Prod.fst).Nodup) :
    Lists (files.map Prod.fst) (dirOf files) := by
  refine ⟨h, fun n => ?_⟩
  unfold dirOf
  rw [ne_eq, Option.map_eq_none_iff, List.find?_eq_none, List.mem_map]
  simp only [beq_iff_eq, not_forall, not_not, exists_prop]

/-- A segment without frames. -/
def emptySegment : File UInt8 := ⟨encodeSegmentHeader, 16⟩

/-- Another name for segment 7. -/
def aliasOfSeven : FileName := "seg-+7.wal".toList

/-- The canonical name alone: one segment. -/
theorem naming_exact_seven : letI := crc32Ieee
    ∃ s, recover .ok smallConfig [segmentPath 7] (dirOf [(segmentPath 7, emptySegment)]) = some s ∧
      (s.segments.map SegmentMeta.seq).Pairwise (· < ·) := by
  let _ := crc32Ieee
  have lists := lists_dirOf [(segmentPath 7, emptySegment)] (List.nodup_singleton _)
  obtain ⟨-, -, s, e, -, hiff⟩ := naming_exact .ok smallConfig lists
  refine ⟨s, e, hiff.mpr fun n hn _ _ _ => ?_⟩
  rw [List.mem_singleton.mp hn]
  decide +kernel

/-- **A segment counted twice.** `seg-+7.wal` is accepted as a name of segment 7, and `recover`
tracks the file of segment 7 once for each of its two names. -/
theorem segment_counted_twice : letI := crc32Ieee
    let disk := dirOf [(aliasOfSeven, ⟨[], 0⟩), (segmentPath 7, emptySegment)]
    parseSegmentSeq aliasOfSeven = some 7 ∧ aliasOfSeven ≠ segmentPath 7 ∧
      Lists [aliasOfSeven, segmentPath 7] disk ∧
      (recover .ok smallConfig [aliasOfSeven, segmentPath 7] disk).map
        (fun s => s.segments.map fun m => (m.seq, m.path)) =
          some [(7, segmentPath 7), (7, segmentPath 7)] := by
  let _ := crc32Ieee
  intro disk
  have hne : aliasOfSeven ≠ segmentPath 7 := by decide +kernel
  have lists := lists_dirOf [(aliasOfSeven, ⟨[], 0⟩), (segmentPath 7, emptySegment)]
    (List.nodup_cons.mpr ⟨fun h => hne (List.mem_singleton.mp h), List.nodup_singleton _⟩)
  exact ⟨by decide +kernel, hne, lists, by decide +kernel⟩

end Statix.Wal
