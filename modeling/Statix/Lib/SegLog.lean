import Mathlib.Data.List.Basic

/-!
# A segmented first-in first-out log

Items are appended to the last of a list of numbered segments and read from the first; whole
segments leave at the front. `SegLog` carries its read cursor, the number of items of the front
segment that were already read.

* `ahead`: the items still to be read, in order.
* `ahead_dropFront`, `ahead_push`, `ahead_snoc`, `ahead_advance`: what each operation does to it.
* `lostBy` / `ahead_dropSegs`: dropping the first `n` segments loses exactly the unread items in
  them, and they are a prefix of what was ahead.
-/

namespace Statix.Lib

/-- Change the last element. -/
def updateBack {α : Type} (g : α → α) : List α → List α
  | [] => []
  | [a] => [g a]
  | a :: b :: l => a :: updateBack g (b :: l)

@[simp] theorem updateBack_concat {α : Type} (g : α → α) :
    ∀ (l : List α) (a : α), updateBack g (l ++ [a]) = l ++ [g a]
  | [], _ => rfl
  | [_], _ => rfl
  | b :: c :: l, a => by
    have := updateBack_concat g (c :: l) a
    rw [List.cons_append] at this
    rw [List.cons_append, List.cons_append, updateBack, this]
    rfl

/-- A numbered segment. -/
structure Seg (α : Type) where
  seq : Nat
  items : List α

/-- Segments, oldest first, and the number of items of the front one that were read. -/
structure SegLog (α : Type) where
  segs : List (Seg α)
  consumed : Nat
  consumed_le : consumed ≤ segs.head?.elim 0 fun g => g.items.length

namespace SegLog

variable {α : Type}

/-- The items of every segment, in order. -/
def all (l : SegLog α) : List α := l.segs.flatMap Seg.items

/-- The items not read yet, in order. -/
def ahead (l : SegLog α) : List α := l.all.drop l.consumed

/-- The log without segments. -/
def empty : SegLog α := ⟨[], 0, Nat.le_refl 0⟩

/-- Remove the oldest segment. -/
def dropFront (l : SegLog α) : SegLog α := ⟨l.segs.tail, 0, Nat.zero_le _⟩

/-- Remove the `n` oldest segments. -/
def dropSegs : Nat → SegLog α → SegLog α
  | 0, l => l
  | n + 1, l => dropSegs n l.dropFront

/-- Open a new, empty segment. -/
def push (l : SegLog α) (seq : Nat) : SegLog α where
  segs := l.segs ++ [⟨seq, []⟩]
  consumed := l.consumed
  consumed_le := by
    have h := l.consumed_le
    cases hs : l.segs with
    | nil => rw [hs] at h; exact h
    | cons g rest => rw [hs] at h; exact h

/-- Append an item to the last segment. -/
def snoc (l : SegLog α) (x : α) : SegLog α where
  segs := updateBack (fun g => { g with items := g.items ++ [x] }) l.segs
  consumed := l.consumed
  consumed_le := by
    have h := l.consumed_le
    match hs : l.segs with
    | [] => rw [hs] at h; exact h
    | [g] =>
      rw [hs] at h
      simp only [updateBack, List.head?_cons, Option.elim_some, List.length_append,
        List.length_singleton] at h ⊢
      omega
    | g :: g' :: rest => rw [hs] at h; exact h

/-- Read one item of the front segment. -/
def advance (l : SegLog α) (h : l.consumed < l.segs.head?.elim 0 fun g => g.items.length) :
    SegLog α := ⟨l.segs, l.consumed + 1, h⟩

/-- The unread items in the `n` oldest segments. -/
def lostBy (n : Nat) (l : SegLog α) : List α :=
  ((l.segs.take n).flatMap Seg.items).drop l.consumed

/-! ## What is ahead -/

theorem consumed_eq_zero {l : SegLog α} (h : l.segs = []) : l.consumed = 0 := by
  have := l.consumed_le
  rw [h] at this
  exact Nat.le_zero.mp this

theorem consumed_le_of_cons {l : SegLog α} {g : Seg α} {rest : List (Seg α)}
    (h : l.segs = g :: rest) : l.consumed ≤ g.items.length := by
  have := l.consumed_le
  rw [h] at this
  exact this

/-- The unread part of the front segment, then the later segments. -/
theorem ahead_cons {l : SegLog α} {g : Seg α} {rest : List (Seg α)} (h : l.segs = g :: rest) :
    l.ahead = g.items.drop l.consumed ++ rest.flatMap Seg.items := by
  unfold ahead all
  rw [h, List.flatMap_cons, List.drop_append_of_le_length (consumed_le_of_cons h)]

theorem ahead_nil {l : SegLog α} (h : l.segs = []) : l.ahead = [] := by
  unfold ahead all
  rw [h, List.flatMap_nil, List.drop_nil]

theorem consumed_le_all (l : SegLog α) : l.consumed ≤ l.all.length := by
  cases h : l.segs with
  | nil => rw [consumed_eq_zero h]; exact Nat.zero_le _
  | cons g rest =>
    unfold all
    rw [h, List.flatMap_cons, List.length_append]
    exact Nat.le_add_right_of_le (consumed_le_of_cons h)

theorem ahead_dropFront (l : SegLog α) : l.ahead = l.lostBy 1 ++ l.dropFront.ahead := by
  cases h : l.segs with
  | nil => simp [ahead, all, lostBy, dropFront, h]
  | cons g rest =>
    rw [ahead_cons h]
    simp [ahead, all, lostBy, dropFront, h]

/-- **Dropping segments loses the unread items in them, and nothing else.** -/
theorem ahead_dropSegs (n : Nat) (l : SegLog α) :
    l.ahead = l.lostBy n ++ (l.dropSegs n).ahead := by
  induction n generalizing l with
  | zero => simp [lostBy, dropSegs]
  | succ n ih =>
    rw [ahead_dropFront l, dropSegs, ih l.dropFront, ← List.append_assoc]
    congr 1
    cases h : l.segs with
    | nil => simp [lostBy, dropFront, h]
    | cons g rest =>
      simp only [lostBy, dropFront, h, List.take_succ_cons, List.take_zero, List.flatMap_cons,
        List.flatMap_nil, List.append_nil, List.tail_cons, List.drop_zero]
      rw [List.drop_append_of_le_length (consumed_le_of_cons h)]

@[simp] theorem lostBy_zero (l : SegLog α) : l.lostBy 0 = [] := by
  unfold lostBy
  rw [List.take_zero, List.flatMap_nil, List.drop_nil]

/-- Nothing is lost with a segment that was read to its end. -/
theorem lostBy_one {l : SegLog α} {g : Seg α} {rest : List (Seg α)} (hs : l.segs = g :: rest)
    (hc : l.consumed = g.items.length) : l.lostBy 1 = [] := by
  unfold lostBy
  rw [hs, hc]
  simp

theorem lostBy_succ (n : Nat) (l : SegLog α) :
    l.lostBy (n + 1) = l.lostBy 1 ++ l.dropFront.lostBy n := by
  have h := ahead_dropSegs (n + 1) l
  rw [ahead_dropFront l, dropSegs, ahead_dropSegs n l.dropFront, ← List.append_assoc] at h
  exact (List.append_cancel_right h).symm

theorem segs_dropFront (l : SegLog α) : l.dropFront.segs = l.segs.tail := rfl

theorem segs_dropSegs (n : Nat) (l : SegLog α) : (l.dropSegs n).segs = l.segs.drop n := by
  induction n generalizing l with
  | zero => rfl
  | succ n ih => rw [dropSegs, ih, segs_dropFront, ← List.drop_one, List.drop_drop, Nat.add_comm]

/-- Behind a removed segment nothing was read. -/
theorem consumed_dropSegs : ∀ (n : Nat) {l : SegLog α}, l.consumed = 0 →
    (l.dropSegs n).consumed = 0
  | 0, _, h => h
  | n + 1, l, _ => consumed_dropSegs n (l := l.dropFront) rfl

@[simp] theorem segs_push (l : SegLog α) (seq : Nat) : (l.push seq).segs = l.segs ++ [⟨seq, []⟩] :=
  rfl

theorem mem_segs_push {l : SegLog α} {seq : Nat} {g : Seg α} :
    g ∈ (l.push seq).segs ↔ g ∈ l.segs ∨ g = ⟨seq, []⟩ := by
  rw [segs_push, List.mem_append, List.mem_singleton]

theorem ahead_push (l : SegLog α) (seq : Nat) : (l.push seq).ahead = l.ahead := by
  simp [ahead, all, push]

theorem mem_back {l : SegLog α} {init : List (Seg α)} {g : Seg α} (h : l.segs = init ++ [g]) :
    g ∈ l.segs := by
  rw [h]
  exact List.mem_concat_self

theorem mem_init {l : SegLog α} {init : List (Seg α)} {g x : Seg α} (h : l.segs = init ++ [g])
    (hx : x ∈ init) : x ∈ l.segs := by
  rw [h]
  exact List.mem_append_left _ hx

/-- The order by number does not look at the items of the last segment. -/
theorem sorted_back {init : List (Seg α)} {g g' : Seg α}
    (h : (init ++ [g]).Pairwise fun a b => a.seq < b.seq) (hseq : g'.seq = g.seq) :
    (init ++ [g']).Pairwise fun a b => a.seq < b.seq := by
  rw [List.pairwise_append] at h ⊢
  refine ⟨h.1, List.pairwise_singleton _ _, fun a ha b hb => ?_⟩
  rw [List.mem_singleton.mp hb, hseq]
  exact h.2.2 a ha g List.mem_cons_self

theorem segs_snoc {l : SegLog α} {init : List (Seg α)} {g : Seg α} (h : l.segs = init ++ [g])
    (x : α) : (l.snoc x).segs = init ++ [{ g with items := g.items ++ [x] }] := by
  refine Eq.trans (congrArg (updateBack _) h) ?_
  exact updateBack_concat _ _ _

theorem mem_segs_snoc {l : SegLog α} {init : List (Seg α)} {g : Seg α} (h : l.segs = init ++ [g])
    {x : α} {y : Seg α} :
    y ∈ (l.snoc x).segs ↔ y ∈ init ∨ y = { g with items := g.items ++ [x] } := by
  rw [segs_snoc h, List.mem_append, List.mem_singleton]

theorem ahead_snoc {l : SegLog α} {init : List (Seg α)} {g : Seg α} (h : l.segs = init ++ [g])
    (x : α) : (l.snoc x).ahead = l.ahead ++ [x] := by
  have hall : (l.snoc x).all = l.all ++ [x] := by
    unfold all
    rw [segs_snoc h, h]
    simp
  unfold ahead
  rw [hall]
  exact List.drop_append_of_le_length (consumed_le_all l)

theorem ahead_advance {l : SegLog α} {g : Seg α} {rest : List (Seg α)} (hs : l.segs = g :: rest)
    (h : l.consumed < l.segs.head?.elim 0 fun g => g.items.length)
    (hg : l.consumed < g.items.length) :
    l.ahead = g.items[l.consumed] :: (l.advance h).ahead := by
  have hs' : (l.advance h).segs = g :: rest := hs
  rw [ahead_cons hs, ahead_cons hs', ← List.cons_append]
  congr 1
  exact List.drop_eq_getElem_cons hg

end SegLog

end Statix.Lib
