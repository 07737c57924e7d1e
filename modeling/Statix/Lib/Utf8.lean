/-!
# UTF-8

Texts and their bytes, with Lean's own encoder and decoder. The bytes of a text determine it
(`fromUtf8_eq_some_iff`), a text is cut into lines as its bytes are (`utf8_lines`), and bytes that end
inside a character are the bytes of no text (`fromUtf8_cut`).
-/

namespace Statix.Lib

/-- The bytes of a text. -/
def utf8 (text : List Char) : List UInt8 := text.flatMap String.utf8EncodeChar

/-- The text with these bytes. -/
def fromUtf8 (bytes : List UInt8) : Option (List Char) :=
  (String.fromUTF8? bytes.toByteArray).map String.toList

variable {s t : List Char} {bs : List UInt8} {c : Char}

theorem utf8_append (s t : List Char) : utf8 (s ++ t) = utf8 s ++ utf8 t := List.flatMap_append

theorem utf8_cons (c : Char) (t : List Char) : utf8 (c :: t) = String.utf8EncodeChar c ++ utf8 t :=
  List.flatMap_cons

theorem toByteArray_inj {a b : List UInt8} (h : a.toByteArray = b.toByteArray) : a = b := by
  have := congrArg ByteArray.data h
  simpa using this

theorem utf8Encode_eq (t : List Char) : t.utf8Encode = (utf8 t).toByteArray := rfl

theorem fromUtf8_eq_some_iff : fromUtf8 bs = some t ↔ bs = utf8 t := by
  unfold fromUtf8 String.fromUTF8?
  constructor
  · intro h
    obtain ⟨str, hstr, rfl⟩ := Option.map_eq_some_iff.mp h
    split at hstr
    · obtain rfl := Option.some.inj hstr
      refine toByteArray_inj ?_
      rw [← utf8Encode_eq, String.utf8Encode_toList]
      rfl
    · cases hstr
  · rintro rfl
    have hvalid : ByteArray.IsValidUTF8 (utf8 t).toByteArray := ByteArray.isValidUTF8_utf8Encode
    have hstr : String.fromUTF8 (utf8 t).toByteArray hvalid = String.ofList t := rfl
    rw [dif_pos hvalid, Option.map_some, hstr, String.toList_ofList]

/-- What begins with the bytes of a text is a text only if it goes on with one. -/
theorem prefix_of_utf8_append (h : utf8 s ++ bs = utf8 t) : s <+: t := by
  refine List.isPrefix_of_utf8Encode_append_eq_utf8Encode bs.toByteArray ?_
  rw [utf8Encode_eq, utf8Encode_eq, ← List.toByteArray_append, h]

theorem utf8_injective (h : utf8 s = utf8 t) : s = t := by
  have hs : fromUtf8 (utf8 t) = some s := fromUtf8_eq_some_iff.mpr h.symm
  rw [fromUtf8_eq_some_iff.mpr rfl] at hs
  exact (Option.some.inj hs).symm

theorem fromUtf8_encode_append (c : Char) (bs : List UInt8) :
    fromUtf8 (String.utf8EncodeChar c ++ bs) = (fromUtf8 bs).map (c :: ·) := by
  have hc : String.utf8EncodeChar c = utf8 [c] := by rw [utf8_cons]; simp [utf8]
  refine Option.ext fun t => ?_
  rw [Option.map_eq_some_iff]
  constructor
  · intro h
    have hbs := fromUtf8_eq_some_iff.mp h
    rw [hc] at hbs
    obtain ⟨rest, rfl⟩ := prefix_of_utf8_append hbs
    rw [utf8_append] at hbs
    exact ⟨rest, fromUtf8_eq_some_iff.mpr (List.append_cancel_left hbs), rfl⟩
  · rintro ⟨rest, hrest, rfl⟩
    rw [fromUtf8_eq_some_iff] at hrest ⊢
    rw [hrest, utf8_cons]

/-- **A cut inside a character** leaves bytes of no text. -/
theorem fromUtf8_cut {n : Nat} (hpos : 0 < n) (hlt : n < c.utf8Size) :
    fromUtf8 ((String.utf8EncodeChar c).take n) = none := by
  have hc : String.utf8EncodeChar c = utf8 [c] := by rw [utf8_cons]; simp [utf8]
  refine Option.eq_none_iff_forall_ne_some.mpr fun t h => ?_
  have ht := fromUtf8_eq_some_iff.mp h
  have hlen := congrArg List.length ht
  rw [List.length_take, String.length_utf8EncodeChar] at hlen
  -- the text would begin the character, so it is the character
  have hwhole : utf8 t ++ (String.utf8EncodeChar c).drop n = utf8 [c] := by
    rw [← ht, List.take_append_drop, hc]
  rcases List.prefix_cons_iff.mp (prefix_of_utf8_append hwhole) with rfl | ⟨rest, rfl, hrest⟩
  · simp only [utf8, List.flatMap_nil, List.length_nil] at hlen
    omega
  · obtain rfl := List.prefix_nil.mp hrest
    rw [← hc, String.length_utf8EncodeChar] at hlen
    omega

/-- A character of ASCII is one byte. -/
theorem encode_ascii (h : c.toNat < 128) : String.utf8EncodeChar c = [UInt8.ofNat c.toNat] :=
  if_pos (Nat.le_of_lt_succ h)

/-- No byte of another character is one of ASCII. -/
theorem le_of_mem_encode {b : UInt8} (h : 128 ≤ c.toNat) (hb : b ∈ String.utf8EncodeChar c) :
    128 ≤ b.toNat := by
  have hval : 128 ≤ c.val.toNat := h
  have hhigh : ∀ n, 128 ≤ n → n < 256 → 128 ≤ (UInt8.ofNat n).toNat := by
    intro n hlow hlt
    rw [UInt8.toNat_ofNat', Nat.mod_eq_of_lt hlt]
    exact hlow
  unfold String.utf8EncodeChar at hb
  simp only at hb
  split at hb
  · omega
  · split at hb
    · simp only [List.mem_cons, List.not_mem_nil, or_false] at hb
      rcases hb with rfl | rfl <;> exact hhigh _ (by omega) (by omega)
    · split at hb
      · simp only [List.mem_cons, List.not_mem_nil, or_false] at hb
        rcases hb with rfl | rfl | rfl <;> exact hhigh _ (by omega) (by omega)
      · simp only [List.mem_cons, List.not_mem_nil, or_false] at hb
        rcases hb with rfl | rfl | rfl | rfl <;> exact hhigh _ (by omega) (by omega)

/-- A text whose bytes are ASCII is one of ASCII. -/
theorem ascii_of_utf8 (h : ∀ b ∈ utf8 t, b.toNat < 128) : ∀ c ∈ t, c.toNat < 128 := by
  intro c hc
  refine Nat.lt_of_not_le fun hhigh => ?_
  obtain ⟨b, hb⟩ := List.exists_mem_of_ne_nil _ (@String.utf8EncodeChar_ne_nil c)
  have hlow := h b (List.mem_flatMap.mpr ⟨c, hc, hb⟩)
  exact Nat.not_lt.mpr (le_of_mem_encode hhigh hb) hlow

/-- **The bytes of a text of ASCII** are its characters. -/
theorem utf8_ascii : ∀ {t : List Char}, (∀ c ∈ t, c.toNat < 128) →
    utf8 t = t.map fun c => UInt8.ofNat c.toNat
  | [], _ => rfl
  | c :: t, h => by
    rw [utf8_cons, encode_ascii (h c List.mem_cons_self),
      utf8_ascii fun d hd => h d (List.mem_cons_of_mem c hd)]
    rfl

/-- The byte of a newline is in no other character. -/
theorem newline_of_mem (h : 10 ∈ String.utf8EncodeChar c) : c = '\n' := by
  have hbyte : ∀ {n : Nat}, 10 = UInt8.ofNat n → n % 256 = 10 := by
    intro n hn
    have := congrArg UInt8.toNat hn
    simpa using this.symm
  unfold String.utf8EncodeChar at h
  simp only at h
  split at h
  · have hn := hbyte (List.mem_singleton.mp h)
    refine Char.ext (UInt32.toNat_inj.mp ?_)
    show c.val.toNat = 10
    omega
  · split at h
    · simp only [List.mem_cons, List.not_mem_nil, or_false] at h
      rcases h with h | h <;> have := hbyte h <;> omega
    · split at h
      · simp only [List.mem_cons, List.not_mem_nil, or_false] at h
        rcases h with h | h | h <;> have := hbyte h <;> omega
      · simp only [List.mem_cons, List.not_mem_nil, or_false] at h
        rcases h with h | h | h | h <;> have := hbyte h <;> omega

theorem newline_of_mem_utf8 (h : 10 ∈ utf8 t) : '\n' ∈ t := by
  obtain ⟨c, hc, hmem⟩ := List.mem_flatMap.mp h
  exact newline_of_mem hmem ▸ hc

theorem utf8_intercalate : ∀ lines : List (List Char),
    utf8 (['\n'].intercalate lines) = [10].intercalate (lines.map utf8)
  | [] => rfl
  | [line] => by simp [List.intercalate]
  | line :: next :: lines => by
    have ih := utf8_intercalate (next :: lines)
    rw [List.intercalate_cons_cons, utf8_append, utf8_append, ih]
    simp only [List.map_cons, List.intercalate_cons_cons]
    rfl

/-- A part between separators has none. -/
theorem notMem_of_mem_splitOn {a : Char} : ∀ {t part : List Char}, part ∈ t.splitOn a → a ∉ part
  | [], part, h => by
    rw [List.splitOn_nil, List.mem_singleton] at h
    rw [h]
    exact List.not_mem_nil
  | c :: t, part, h => by
    rw [List.splitOn_cons_eq_if_modifyHead] at h
    split at h
    · rcases List.mem_cons.mp h with rfl | h
      · exact List.not_mem_nil
      · exact notMem_of_mem_splitOn h
    · rename_i hne
      obtain ⟨first, rest, hsplit⟩ := List.exists_cons_of_ne_nil (List.splitOn_ne_nil a t)
      rw [hsplit, List.modifyHead_cons] at h
      rcases List.mem_cons.mp h with rfl | h
      · have hfirst : a ∉ first := notMem_of_mem_splitOn (hsplit ▸ List.mem_cons_self)
        have hca : a ≠ c := fun e => hne (beq_iff_eq.mpr e.symm)
        exact fun hmem => (List.mem_cons.mp hmem).elim hca hfirst
      · exact notMem_of_mem_splitOn (hsplit ▸ List.mem_cons_of_mem first h)

/-- **The lines of the bytes are the bytes of the lines.** -/
theorem utf8_lines (t : List Char) : (utf8 t).splitOn 10 = (t.splitOn '\n').map utf8 := by
  have ht : utf8 t = [10].intercalate ((t.splitOn '\n').map utf8) := by
    rw [← utf8_intercalate, List.intercalate_splitOn]
  rw [ht]
  refine List.splitOn_intercalate 10 (fun bytes hbytes hmem => ?_) ?_
  · obtain ⟨line, hline, rfl⟩ := List.mem_map.mp hbytes
    exact notMem_of_mem_splitOn hline (newline_of_mem_utf8 hmem)
  · intro hnil
    exact List.splitOn_ne_nil '\n' t (List.map_eq_nil_iff.mp hnil)

end Statix.Lib
