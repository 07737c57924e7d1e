import Mathlib.Data.List.Basic

/-!
# Joining texts with a separator

When the parts of a joined list can be read back: with a one-symbol separator that the first part
does not contain (`append_cons_inj`), and with a longer separator without a border, in general up to
the places where a part contains the separator itself (`append_sep_eq_iff`).
-/

namespace Statix.Lib

variable {α : Type}

/-- Up to the first separator the two sides agree. -/
theorem append_cons_inj {c : α} : ∀ {x y : List α} {z w : List α}, c ∉ x → c ∉ y →
    x ++ c :: z = y ++ c :: w → x = y ∧ z = w
  | [], [], _, _, _, _, h => ⟨rfl, (List.cons.inj h).2⟩
  | [], b :: y, _, _, _, hy, h => by
    obtain ⟨rfl, -⟩ := List.cons.inj h
    exact absurd List.mem_cons_self hy
  | a :: x, [], _, _, hx, _, h => by
    obtain ⟨rfl, -⟩ := List.cons.inj h
    exact absurd List.mem_cons_self hx
  | a :: x, b :: y, _, _, hx, hy, h => by
    obtain ⟨rfl, htail⟩ := List.cons.inj h
    obtain ⟨rfl, rfl⟩ := append_cons_inj (fun hm => hx (List.mem_cons_of_mem _ hm))
      (fun hm => hy (List.mem_cons_of_mem _ hm)) htail
    exact ⟨rfl, rfl⟩

/-- No proper end of the list is also a start of it: two occurrences do not overlap. -/
def Unbordered (sep : List α) : Prop :=
  ∀ n, 0 < n → n < sep.length → ¬ sep.drop n <+: sep

/-- `y` goes on after `x` with a separator, and `z` with the one behind. -/
def Absorbs (sep x z y w : List α) : Prop := ∃ m, y = x ++ sep ++ m ∧ z = m ++ sep ++ w

theorem Absorbs.joined {sep x z y w : List α} (h : Absorbs sep x z y w) :
    x ++ sep ++ z = y ++ sep ++ w := by
  obtain ⟨m, rfl, rfl⟩ := h
  simp only [List.append_assoc]

/-- The longer first part takes the separator and what follows it from the other side. -/
theorem absorbs_of_longer {sep x z w t : List α} (hsep : Unbordered sep) (ht : t ≠ [])
    (h : sep ++ z = t ++ (sep ++ w)) : Absorbs sep x z (x ++ t) w := by
  rcases List.append_eq_append_iff.mp h with ⟨m, rfl, hz⟩ | ⟨rest, hrest, htail⟩
  · exact ⟨m, (List.append_assoc _ _ _).symm, hz.trans (List.append_assoc _ _ _).symm⟩
  · cases rest with
    | nil =>
      rw [List.append_nil] at hrest
      subst hrest
      exact ⟨[], by rw [List.append_nil], htail.symm⟩
    | cons a rest =>
      -- the separator would begin again before it ends
      refine absurd ?_ (hsep t.length (List.length_pos_iff.mpr ht) ?_)
      · rw [hrest, List.drop_left, ← hrest]
        refine List.prefix_of_prefix_length_le (List.prefix_append _ z) ?_ ?_
        · rw [← htail]
          exact List.prefix_append _ w
        · rw [hrest, List.length_append]
          omega
      · rw [hrest, List.length_append, List.length_cons]
        omega

/-- **When two joined pairs are the same text.** -/
theorem append_sep_eq_iff {sep : List α} (hsep : Unbordered sep) (x z y w : List α) :
    x ++ sep ++ z = y ++ sep ++ w ↔
      (x = y ∧ z = w) ∨ Absorbs sep x z y w ∨ Absorbs sep y w x z := by
  constructor
  · intro h
    rw [List.append_assoc, List.append_assoc] at h
    rcases List.append_eq_append_iff.mp h with ⟨t, rfl, ht⟩ | ⟨t, rfl, ht⟩
    · by_cases hnil : t = []
      · subst hnil
        exact Or.inl ⟨(List.append_nil x).symm, List.append_cancel_left ht⟩
      · exact Or.inr (Or.inl (absorbs_of_longer hsep hnil ht))
    · by_cases hnil : t = []
      · subst hnil
        exact Or.inl ⟨List.append_nil y, (List.append_cancel_left ht).symm⟩
      · exact Or.inr (Or.inr (absorbs_of_longer hsep hnil ht))
  · rintro (⟨rfl, rfl⟩ | h | h)
    · rfl
    · exact h.joined
    · exact h.joined.symm

end Statix.Lib
