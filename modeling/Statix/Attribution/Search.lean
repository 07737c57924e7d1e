import Mathlib.Data.List.TakeWhile
import Statix.Attribution.Labels
import Statix.Lib.Separator

/-!
# Searches in a text

What the string methods of `Labels.lean` find: `rfind` and `get` of a part, `strip_suffix`, what
follows the last of a character (`rsplit`) and the first of a separator (`split_once`).

* **`afterOnce_eq_some_iff`**: a text is split at the first place where the separator begins. Where no
  end of the separator is a start of it, this is the only place before which it does not occur.
-/

namespace Statix.Attribution

open Statix.Lib

variable {pat sep s t a w : Text} {c : Char}

/-! ## `rfind` -/

/-- What is found is there. -/
theorem rfind_found : ∀ {s : Text} {i : Nat}, rfind pat s = some i → pat <+: s.drop i
  | [], i, h => by
    unfold rfind at h
    split at h
    · rename_i hpat
      rw [hpat]
      exact List.nil_prefix
    · cases h
  | c :: s, i, h => by
    unfold rfind at h
    split at h
    · rename_i j hj
      obtain rfl := Option.some.inj h
      rw [List.drop_succ_cons]
      exact rfind_found hj
    · split at h
      · rename_i hpre
        obtain rfl := Option.some.inj h
        exact List.isPrefixOf_iff_prefix.mp hpre
      · cases h

theorem rfind_of_notMem : ∀ {s : Text}, c ∉ s → rfind (c :: pat) s = none
  | [], _ => rfl
  | b :: s, h => by
    rw [List.mem_cons, not_or] at h
    rw [rfind, rfind_of_notMem h.2]
    simp only
    refine if_neg fun hpre => h.1 ?_
    simp only [List.isPrefixOf_iff_prefix, List.cons_prefix_cons] at hpre
    exact hpre.1

/-- A pattern whose first character does not come again is found where it stands. -/
theorem rfind_append (h : c ∉ pat ++ t) : ∀ a : Text,
    rfind (c :: pat) (a ++ c :: pat ++ t) = some a.length
  | [] => by
    show rfind (c :: pat) (c :: (pat ++ t)) = some 0
    rw [rfind, rfind_of_notMem h]
    simp only
    exact if_pos (List.isPrefixOf_iff_prefix.mpr (List.prefix_append (c :: pat) t))
  | b :: a => by
    show rfind (c :: pat) (b :: (a ++ c :: pat ++ t)) = some (a.length + 1)
    rw [rfind, rfind_append h a]

/-! ## Parts -/

theorem getRange_append (a w t : Text) : getRange (a ++ w ++ t) a.length w.length = some w := by
  unfold getRange
  rw [if_pos (by simp), List.append_assoc, List.drop_left, List.take_left]

theorem stripSuffix_append (suffix a : Text) : stripSuffix suffix (a ++ suffix) = some a := by
  unfold stripSuffix
  rw [if_pos (List.isSuffixOf_iff_suffix.mpr (List.suffix_append a suffix)), List.length_append,
    Nat.add_sub_cancel, List.take_left]

/-- A text that ends in a character the suffix does not have keeps it. -/
theorem stripSuffix_of_notMem {suffix : Text} (h : ∃ c ∈ suffix, c ∉ w)
    (hlen : suffix.length ≤ w.length) : stripSuffix suffix (a ++ w) = none := by
  unfold stripSuffix
  refine if_neg fun hs => ?_
  obtain ⟨c, hc, hw⟩ := h
  have hsuffix := List.isSuffixOf_iff_suffix.mp hs
  exact hw ((List.suffix_of_suffix_length_le hsuffix (List.suffix_append a w) hlen).subset hc)

/-- The two texts differ at some place, counted from the end. -/
def disagree (suffix s : Text) : Bool := (suffix.reverse.zip s.reverse).any fun x => x.1 != x.2

/-- A suffix that differs from the end of the text. -/
theorem stripSuffix_of_disagree {suffix : Text} (a : Text) (h : disagree suffix s = true) :
    stripSuffix suffix (a ++ s) = none := by
  unfold stripSuffix
  refine if_neg fun hs => ?_
  obtain ⟨x, hx⟩ := List.isSuffixOf_iff_suffix.mp hs
  obtain ⟨y, hmem, hne⟩ := List.any_eq_true.mp h
  obtain ⟨i, hi⟩ := List.getElem?_of_mem hmem
  obtain ⟨hsuffix, hend⟩ := List.getElem?_zip_eq_some.mp hi
  -- the place in the whole text, from either side
  have hleft : (x ++ suffix).reverse[i]? = some y.1 := by
    rw [List.reverse_append]
    exact List.getElem?_append_left (List.getElem?_eq_some_iff.mp hsuffix).1 ▸ hsuffix
  have hright : (a ++ s).reverse[i]? = some y.2 := by
    rw [List.reverse_append]
    exact List.getElem?_append_left (List.getElem?_eq_some_iff.mp hend).1 ▸ hend
  rw [hx, hright] at hleft
  exact bne_iff_ne.mp hne (Option.some.inj hleft).symm

theorem rsplitNext_of_notMem (h : c ∉ t) : rsplitNext c t = t := by
  have hall : t.reverse.takeWhile (· ≠ c) = t.reverse := by
    rw [List.takeWhile_eq_self_iff]
    intro b hb
    simp only [decide_eq_true_eq]
    rintro rfl
    exact h (List.mem_reverse.mp hb)
  unfold rsplitNext
  rw [hall, List.reverse_reverse]

theorem rsplitNext_append (h : c ∉ t) (a : Text) : rsplitNext c (a ++ c :: t) = t := by
  have hall : ∀ b ∈ t.reverse, (decide (b ≠ c)) = true := by
    intro b hb
    simp only [decide_eq_true_eq]
    rintro rfl
    exact h (List.mem_reverse.mp hb)
  unfold rsplitNext
  rw [List.reverse_append, List.reverse_cons, List.append_assoc, List.takeWhile_append_of_pos hall]
  simp

/-! ## `split_once` -/

/-- **The split is at the first separator.** -/
theorem afterOnce_eq_some_iff (hsep : sep ≠ []) : ∀ {s : Text}, afterOnce sep s = some t ↔
    ∃ a, s = a ++ sep ++ t ∧ ∀ i < a.length, ¬ sep <+: s.drop i
  | [] => by
    unfold afterOnce
    rw [if_neg hsep]
    refine ⟨nofun, ?_⟩
    rintro ⟨a, h, -⟩
    have := congrArg List.length h
    have := List.length_pos_iff.mpr hsep
    simp only [List.length_append, List.length_nil] at *
    omega
  | c :: s => by
    have ih := afterOnce_eq_some_iff hsep (s := s)
    unfold afterOnce
    by_cases hpre : sep <+: c :: s
    · rw [if_pos (List.isPrefixOf_iff_prefix.mpr hpre)]
      constructor
      · intro h
        obtain ⟨r, hr⟩ := hpre
        refine ⟨[], ?_, nofun⟩
        rw [← Option.some.inj h, ← hr, List.drop_left, List.nil_append]
      · rintro ⟨a, h, hfirst⟩
        cases a with
        | nil => rw [h, List.nil_append, List.drop_left]
        | cons b a => exact absurd hpre (hfirst 0 (Nat.succ_pos _))
    · rw [if_neg fun h => hpre (List.isPrefixOf_iff_prefix.mp h), ih]
      constructor
      · rintro ⟨a, rfl, hfirst⟩
        refine ⟨c :: a, rfl, fun i hi => ?_⟩
        cases i with
        | zero => exact hpre
        | succ i => exact hfirst i (Nat.lt_of_succ_lt_succ hi)
      · rintro ⟨a, h, hfirst⟩
        cases a with
        | nil => exact absurd (h ▸ List.prefix_append sep t) hpre
        | cons b a =>
          obtain ⟨rfl, rfl⟩ := List.cons.inj h
          exact ⟨a, rfl, fun i hi => hfirst (i + 1) (Nat.succ_lt_succ hi)⟩

/-- Occurrences of a separator without a border do not overlap, so the first one is the one with none
before it. -/
theorem afterOnce_eq_some_iff_free (hsep : sep ≠ []) (hborder : Unbordered sep) :
    afterOnce sep s = some t ↔ ∃ a, s = a ++ sep ++ t ∧ ¬ sep <:+: a := by
  rw [afterOnce_eq_some_iff hsep]
  refine exists_congr fun a => and_congr_right fun hs => ?_
  subst hs
  constructor
  · rintro hfirst ⟨x, y, hxy⟩
    refine hfirst x.length ?_ ?_
    · have := List.length_pos_iff.mpr hsep
      rw [← hxy]
      simp only [List.length_append]
      omega
    · rw [← hxy, List.append_assoc, List.append_assoc, List.append_assoc, List.drop_left]
      exact List.prefix_append _ _
  · intro hfree i hi hpre
    have hdrop : (a ++ sep ++ t).drop i = a.drop i ++ (sep ++ t) := by
      rw [List.append_assoc, List.drop_append_of_le_length (Nat.le_of_lt hi)]
    rw [hdrop] at hpre
    by_cases hlen : sep.length ≤ (a.drop i).length
    · -- it ends before the separator begins
      have hin : sep <+: a.drop i :=
        List.prefix_of_prefix_length_le hpre (List.prefix_append _ _) hlen
      exact hfree (hin.isInfix.trans (List.drop_suffix i a).isInfix)
    · -- it would overlap with it
      have hsub : a.drop i <+: sep :=
        List.prefix_of_prefix_length_le (List.prefix_append _ _) hpre (by omega)
      obtain ⟨r, hr⟩ := hsub
      have hpos : 0 < (a.drop i).length := by
        rw [List.length_drop]
        omega
      refine hborder (a.drop i).length hpos (by omega) ?_
      have hrest : r <+: sep ++ t := by
        refine (List.prefix_append_right_inj (a.drop i)).mp ?_
        rwa [hr]
      rw [← hr, List.drop_left, hr]
      refine List.prefix_of_prefix_length_le hrest (List.prefix_append _ _) ?_
      rw [← hr, List.length_append]
      omega

end Statix.Attribution
