import Mathlib.Algebra.BigOperators.Group.Finset.Basic
import Mathlib.Algebra.Order.BigOperators.Group.Finset

/-!
# Nested counters

Counters that nest: what is charged to one is charged to every counter around it. Someone reads some
of them and sums up by how much each has risen from one reading to the next. If at any time no
counter that is still to be read lies in another one, nothing is summed up twice.

* `nested i j`: `j` is `i` or lies in it, and both are still there.
* `last i` is what the next reading of `i` counts from, `none` if it does not count.
* `Covered`: what was summed up, with what any counters apart from each other would add now, is at
  most what was charged.

Results: one rule for each thing that can happen (`charge`, `shrink`, `count`, `begin`, `weaken`).
-/

namespace Statix.Lib

variable {ι : Type} {nested nested' : ι → ι → Prop} {usage usage' : ι → ℕ}
  {last last' : ι → Option ℕ} {summed summed' charged : ℕ}

/-- Counters that are there, count, and lie apart. -/
structure Apart (nested : ι → ι → Prop) (last : ι → Option ℕ) (S : Finset ι) : Prop where
  there : ∀ i ∈ S, nested i i
  counts : ∀ i ∈ S, last i ≠ none
  apart : ∀ i ∈ S, ∀ j ∈ S, nested i j → i = j

/-- What the next reading of a counter adds, if it is made now. -/
def accrued (usage : ι → ℕ) (last : ι → Option ℕ) (i : ι) : ℕ := usage i - (last i).getD 0

/-- A counter that was just read adds nothing. -/
theorem sum_accrued_update [DecidableEq ι] (usage : ι → ℕ) (last : ι → Option ℕ) (g : ι)
    (S : Finset ι) : ∑ i ∈ S, accrued usage (Function.update last g (some (usage g))) i =
      ∑ i ∈ S.erase g, accrued usage last i := by
  have hself : accrued usage (Function.update last g (some (usage g))) g = 0 := by
    unfold accrued
    rw [Function.update_self, Option.getD_some, Nat.sub_self]
  rw [← Finset.sum_erase S hself]
  refine Finset.sum_congr rfl fun i hi => ?_
  unfold accrued
  rw [Function.update_of_ne (Finset.ne_of_mem_erase hi)]

/-- **Nothing was summed up twice**, and nothing will be that was charged so far. -/
def Covered (nested : ι → ι → Prop) (usage : ι → ℕ) (last : ι → Option ℕ)
    (summed charged : ℕ) : Prop :=
  ∀ S, Apart nested last S → summed + ∑ i ∈ S, accrued usage last i ≤ charged

namespace Covered

theorem le (h : Covered nested usage last summed charged) : summed ≤ charged := by
  have := h ∅ ⟨by simp, by simp, by simp⟩
  simpa using this

/-- The counters around a charge lie in each other, so at most one of those apart is charged. -/
theorem charge (h : Covered nested usage last summed charged) {around : ι → Prop} {n : ℕ}
    (chain : ∀ i j, around i → around j → nested i j ∨ nested j i)
    (inside : ∀ i, around i → usage' i = usage i + n)
    (outside : ∀ i, nested i i → ¬around i → usage' i = usage i) :
    Covered nested usage' last summed (charged + n) := by
  classical
  intro S hS
  have hterm : ∀ i ∈ S,
      accrued usage' last i ≤ accrued usage last i + if around i then n else 0 := by
    intro i hi
    unfold accrued
    by_cases hc : around i
    · rw [if_pos hc, inside i hc]
      omega
    · rw [if_neg hc, outside i (hS.there i hi) hc, Nat.add_zero]
  have hone : (S.filter around).card ≤ 1 := by
    refine Finset.card_le_one.mpr fun i hi j hj => ?_
    obtain ⟨hi, hai⟩ := Finset.mem_filter.mp hi
    obtain ⟨hj, haj⟩ := Finset.mem_filter.mp hj
    rcases chain i j hai haj with hij | hji
    · exact hS.apart i hi j hj hij
    · exact (hS.apart j hj i hi hji).symm
  calc summed + ∑ i ∈ S, accrued usage' last i
      ≤ summed + ∑ i ∈ S, (accrued usage last i + if around i then n else 0) :=
        Nat.add_le_add_left (Finset.sum_le_sum hterm) _
    _ = summed + ∑ i ∈ S, accrued usage last i + (S.filter around).card * n := by
        rw [Finset.sum_add_distrib, ← Finset.sum_filter, Finset.sum_const_nat fun _ _ => rfl,
          Nat.add_assoc]
    _ ≤ charged + n := by
        have := h S hS
        have := Nat.mul_le_mul_right n hone
        omega

/-- Counters go away. -/
theorem shrink (h : Covered nested usage last summed charged)
    (there : ∀ i, last i ≠ none → nested' i i → nested i i)
    (apart : ∀ i j, last i ≠ none → last j ≠ none → nested' i i → nested' j j → nested i j →
      nested' i j) : Covered nested' usage last summed charged := by
  intro S hS
  refine h S ⟨fun i hi => there i (hS.counts i hi) (hS.there i hi), hS.counts,
    fun i hi j hj hij => hS.apart i hi j hj ?_⟩
  exact apart i j (hS.counts i hi) (hS.counts j hj) (hS.there i hi) (hS.there j hj) hij

/-- A reading is summed up: it lies apart from whatever else counts. -/
theorem count [DecidableEq ι] (h : Covered nested usage last summed charged) {g : ι}
    (there : nested g g) (counts : last g ≠ none)
    (apart : ∀ i, last i ≠ none → nested i i → nested i g ∨ nested g i → i = g) :
    Covered nested usage (Function.update last g (some (usage g)))
      (summed + accrued usage last g) charged := by
  intro S hS
  have hcounts : ∀ i ∈ S, last i ≠ none := by
    intro i hi
    by_cases hig : i = g
    · exact hig ▸ counts
    · have := hS.counts i hi
      rwa [Function.update_of_ne hig] at this
  have hinsert : Apart nested last (insert g S) := by
    refine ⟨?_, ?_, ?_⟩
    · exact Finset.forall_mem_insert _ _ _ |>.mpr ⟨there, hS.there⟩
    · exact Finset.forall_mem_insert _ _ _ |>.mpr ⟨counts, hcounts⟩
    · intro i hi j hj hij
      rcases Finset.mem_insert.mp hi with hig | hiS <;>
        rcases Finset.mem_insert.mp hj with hjg | hjS
      · rw [hig, hjg]
      · rw [hig] at hij ⊢
        exact (apart j (hcounts j hjS) (hS.there j hjS) (Or.inr hij)).symm
      · rw [hjg] at hij ⊢
        exact apart i (hcounts i hiS) (hS.there i hiS) (Or.inl hij)
      · exact hS.apart i hiS j hjS hij
  have hbound := h (insert g S) hinsert
  rw [← Finset.insert_erase (Finset.mem_insert_self g S), Finset.erase_insert_eq_erase,
    Finset.sum_insert (Finset.notMem_erase g S)] at hbound
  rw [sum_accrued_update]
  omega

/-- A counter counts from now on. -/
theorem begin [DecidableEq ι] (h : Covered nested usage last summed charged) (g : ι) :
    Covered nested usage (Function.update last g (some (usage g))) summed charged := by
  intro S hS
  have hcounts : ∀ i ∈ S.erase g, last i ≠ none := by
    intro i hi
    have := hS.counts i (Finset.mem_of_mem_erase hi)
    rwa [Function.update_of_ne (Finset.ne_of_mem_erase hi)] at this
  rw [sum_accrued_update]
  exact h (S.erase g) ⟨fun i hi => hS.there i (Finset.mem_of_mem_erase hi), hcounts,
    fun i hi j hj => hS.apart i (Finset.mem_of_mem_erase hi) j (Finset.mem_of_mem_erase hj)⟩

/-- Less was summed up, or fewer counters count. -/
theorem weaken (h : Covered nested usage last summed charged) (hle : summed' ≤ summed)
    (hlast : ∀ i, last' i ≠ none → last' i = last i) :
    Covered nested usage last' summed' charged := by
  intro S hS
  have hsum : ∑ i ∈ S, accrued usage last' i = ∑ i ∈ S, accrued usage last i := by
    refine Finset.sum_congr rfl fun i hi => ?_
    unfold accrued
    rw [hlast i (hS.counts i hi)]
  have hbound := h S ⟨hS.there, fun i hi => hlast i (hS.counts i hi) ▸ hS.counts i hi, hS.apart⟩
  rw [hsum]
  omega

end Covered

end Statix.Lib
