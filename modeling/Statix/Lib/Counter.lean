import Mathlib.Data.List.Basic

/-!
# Readings of a counter

A counter read again and again, with gaps: what the readings say it has risen by.

* `stretches`: the maximal runs of readings without a gap.
* `risen`: the rises between consecutive readings, a fall counting as none.
* `risen_sorted`: of a counter that never falls, the last reading less the first.
-/

namespace Statix.Lib

variable {α : Type}

/-- One more reading, or a gap, after the closed stretches and the open one. -/
def stretch (st : List (List α) × List α) : Option α → List (List α) × List α
  | none => (st.1 ++ [st.2], [])
  | some x => (st.1, st.2 ++ [x])

/-- The closed stretches of a sequence with gaps, and the open one. -/
def stretchesOpen (l : List (Option α)) : List (List α) × List α := l.foldl stretch ([], [])

/-- The maximal stretches without a gap. Between two gaps in a row there is an empty one. -/
def stretches (l : List (Option α)) : List (List α) := (stretchesOpen l).1 ++ [(stretchesOpen l).2]

theorem stretchesOpen_snoc (l : List (Option α)) (x : Option α) :
    stretchesOpen (l ++ [x]) = stretch (stretchesOpen l) x := List.foldl_concat ..

/-- The rises between consecutive readings. -/
def risen : List Nat → Nat
  | x :: y :: rest => (y - x) + risen (y :: rest)
  | _ => 0

/-- One more reading adds its rise over the one before. -/
theorem risen_snoc : ∀ (l : List Nat) (x : Nat),
    risen (l ++ [x]) = risen l + l.getLast?.elim 0 (x - ·)
  | [], _ => rfl
  | [y], x => by simp [risen]
  | y :: z :: rest, x => by
    have ih := risen_snoc (z :: rest) x
    rw [List.cons_append, List.cons_append] at *
    rw [risen, ih, risen, List.getLast?_cons_cons, Nat.add_assoc]

/-- **Of a counter that never falls: the last reading less the first.** -/
theorem risen_sorted : ∀ {l : List Nat}, l.Pairwise (· ≤ ·) →
    risen l = l.getLast?.getD 0 - l.head?.getD 0
  | [], _ => rfl
  | [x], _ => by simp [risen]
  | x :: y :: rest, h => by
    rw [List.pairwise_cons] at h
    have ih := risen_sorted h.2
    have hxy := h.1 y List.mem_cons_self
    -- the last reading is not before the second
    have hlast : y ≤ (y :: rest).getLast?.getD 0 := by
      rw [List.getLast?_eq_some_getLast (List.cons_ne_nil _ _), Option.getD_some]
      rcases List.mem_cons.mp (List.getLast_mem (List.cons_ne_nil y rest)) with e | hm
      · exact Nat.le_of_eq e.symm
      · exact (List.pairwise_cons.mp h.2).1 _ hm
    rw [risen, ih, List.getLast?_cons_cons]
    simp only [List.head?_cons, Option.getD_some]
    omega

end Statix.Lib
