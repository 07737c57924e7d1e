import Mathlib.Algebra.BigOperators.Intervals
import Mathlib.Algebra.Order.BigOperators.Group.Finset
import Mathlib.Algebra.Order.Field.Basic
import Mathlib.Tactic.Linarith

/-!
# Capped exponential backoff

A delay that doubles with every failure in a row, up to a cap, and starts again after anything else.

* `backoff`: the delay after `k` failures in a row.
* `inRow`: the failures in a row at the end of a sequence.
* `Spaced`: times with at least the delays between them; `Spaced.waited_le` adds the delays up, and
  `cap_le_waited` says how many failures a stretch of time has room for once the cap is reached.
-/

namespace Statix.Lib

open Finset

variable {initial top i j k c : Nat}

/-! ## The delay -/

/-- The delay after `k` failures in a row. -/
def backoff (initial top k : Nat) : Nat := min (initial * 2 ^ k) top

theorem backoff_zero (h : initial ≤ top) : backoff initial top 0 = initial := by
  simp [backoff, h]

/-- **One more failure doubles the delay, up to the cap.** -/
theorem backoff_succ (initial top k : Nat) :
    backoff initial top (k + 1) = min (backoff initial top k * 2) top := by
  unfold backoff
  rw [pow_succ, ← mul_assoc]
  omega

theorem backoff_le (initial top k : Nat) : backoff initial top k ≤ top := Nat.min_le_right _ _

/-- The delay stays at the cap. -/
theorem backoff_of_le (h : top ≤ initial * 2 ^ c) (hk : c ≤ k) : backoff initial top k = top :=
  Nat.min_eq_right (h.trans (Nat.mul_le_mul_left _ (Nat.pow_le_pow_right Nat.two_pos hk)))

/-- The delays of the failures from number `i` up to number `j`. -/
def waited (initial top i j : Nat) : Nat := ∑ k ∈ Ico i j, backoff initial top k

theorem waited_succ (h : i ≤ j) :
    waited initial top i (j + 1) = waited initial top i j + backoff initial top j :=
  sum_Ico_succ_top h _

/-- **Once the cap is reached every failure costs the cap.** -/
theorem cap_le_waited (h : top ≤ initial * 2 ^ c) : (j - c) * top ≤ waited initial top 0 j := by
  calc (j - c) * top = ∑ _k ∈ Ico c j, top := by simp
    _ = ∑ k ∈ Ico c j, backoff initial top k :=
        sum_congr rfl fun k hk => (backoff_of_le h (mem_Ico.mp hk).1).symm
    _ ≤ waited initial top 0 j :=
        sum_le_sum_of_subset (Ico_subset_Ico_left (Nat.zero_le c))

/-! ## Failures in a row -/

variable {α : Type}

/-- The failures in a row at the end of a sequence. -/
def inRow (failed : α → Bool) (l : List α) : List α := (l.reverse.takeWhile failed).reverse

@[simp] theorem inRow_nil (failed : α → Bool) : inRow failed [] = [] := rfl

@[simp] theorem inRow_snoc (failed : α → Bool) (l : List α) (x : α) :
    inRow failed (l ++ [x]) = if failed x then inRow failed l ++ [x] else [] := by
  unfold inRow
  rw [List.reverse_append, List.reverse_singleton, List.singleton_append, List.takeWhile_cons]
  cases failed x <;> simp

/-! ## Times -/

variable {R : Type} [Field R] [LinearOrder R] {ts : List R} {t : R}

/-- From each time to the next at least the delay of its number passes. -/
def Spaced (delay : Nat → Nat) (ts : List R) : Prop :=
  ∀ i (h : i + 1 < ts.length), ts[i] + delay i ≤ ts[i + 1]

theorem Spaced.nil (delay : Nat → Nat) : Spaced delay ([] : List R) := fun i h => by
  simp at h

/-- One more time, after the delay of the last. -/
theorem Spaced.snoc {delay : Nat → Nat} (h : Spaced delay ts)
    (last : ∀ s ∈ ts.getLast?, s + delay (ts.length - 1) ≤ t) : Spaced delay (ts ++ [t]) := by
  intro i hi
  rw [List.length_append, List.length_singleton] at hi
  rcases Nat.lt_or_eq_of_le (Nat.lt_succ_iff.mp hi) with hlt | heq
  · rw [List.getElem_append_left (by omega), List.getElem_append_left hlt]
    exact h i hlt
  · -- the new time comes after the last one
    have hi' : i = ts.length - 1 := by omega
    have hlast : ts.getLast? = some ts[i] := by
      rw [List.getLast?_eq_getElem?, ← hi', List.getElem?_eq_getElem]
    have hle := last _ hlast
    rw [← hi'] at hle
    rw [List.getElem_append_left (by omega), List.getElem_append_right (by omega)]
    simpa using hle

variable [IsStrictOrderedRing R]

/-- **Between two times of a spaced sequence all the delays between them pass.** -/
theorem Spaced.waited_le (h : Spaced (backoff initial top) ts) (hij : i ≤ j) (hj : j < ts.length) :
    ts[i] + waited initial top i j ≤ ts[j] := by
  induction j, hij using Nat.le_induction with
  | base => simp [waited]
  | succ j hij ih =>
    have hstep := h j hj
    have hsum := ih (by omega)
    rw [waited_succ hij]
    push_cast
    linarith

end Statix.Lib
