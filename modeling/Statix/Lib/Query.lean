import Mathlib.Algebra.Order.Ring.Nat
import Mathlib.Data.List.Dedup
import Mathlib.Data.List.MinMax
import Mathlib.Data.List.Sort

/-!
# Reading a table

An engine that reads tables is a parameter: `Engine` has the operations of a relational read, and
`Engine.Documented` says of them what a manual says, and no more.

* `GROUP BY` gives the groups in any order.
* Of several rows with the same greatest version `argMax` takes any, and each column of a query may
  take another. Of a nullable column the rows with NULL are left out.
* `ORDER BY` leaves the order of equal rows open.

Where a key and a version tell the rows apart (`Consistent`), the answers do not depend on the
choices of the engine:

* `IsArgMax.unique`, `IsArgMaxNullable.unique`: nor on the order and the copies of the rows.
* `orderBy_unique`: rows of distinct ranks come in one order.
* `isPage_orderBy`: with a limit they are the first ones.

`Engine.first` is an engine that takes the first of equal rows.
-/

namespace Statix.Lib

variable {α β κ ρ : Type}

/-! ## An engine -/

/-- The operations of a read. -/
structure Engine (α : Type) where
  groupBy : {κ : Type} → [DecidableEq κ] → (α → κ) → List α → List (κ × List α)
  count : {γ : Type} → List γ → Nat
  countIf : {γ : Type} → (γ → Bool) → List γ → Nat
  sum : {γ : Type} → (γ → Nat) → List γ → Nat
  maxOf : {γ : Type} → (γ → Nat) → List γ → Nat
  argMax : {β : Type} → (α → β) → (α → Nat) → List α → β
  argMaxNullable : {β : Type} → (α → Option β) → (α → Nat) → List α → Option β
  orderBy : {γ ρ : Type} → [LinearOrder ρ] → (γ → ρ) → List γ → List γ

/-- `groups` are the rows of each key. -/
structure IsGrouping (key : α → κ) (rows : List α) (groups : List (κ × List α)) : Prop where
  once : (groups.map Prod.fst).Nodup
  whole : ∀ g ∈ groups, ∀ r, r ∈ g.2 ↔ r ∈ rows ∧ key r = g.1
  nonempty : ∀ g ∈ groups, g.2 ≠ []
  covers : ∀ r ∈ rows, key r ∈ groups.map Prod.fst

/-- `v` is the value of a newest row. -/
def IsArgMax (value : α → β) (version : α → Nat) (group : List α) (v : β) : Prop :=
  ∃ r ∈ group, (∀ s ∈ group, version s ≤ version r) ∧ value r = v

/-- `v` is the value of a newest row of those that have one. -/
def IsArgMaxNullable (value : α → Option β) (version : α → Nat) (group : List α) (v : Option β) :
    Prop :=
  (∀ r ∈ group, value r = none) ∧ v = none ∨
    ∃ r ∈ group, (∀ s ∈ group, value s ≠ none → version s ≤ version r) ∧ value r = v ∧ v ≠ none

/-- What the manual says of the operations. -/
structure Engine.Documented (e : Engine α) : Prop where
  groupBy : ∀ {κ : Type} [DecidableEq κ] (key : α → κ) rows,
    IsGrouping key rows (e.groupBy key rows)
  count : ∀ {γ : Type} (rows : List γ), e.count rows = rows.length
  countIf : ∀ {γ : Type} (p : γ → Bool) rows, e.countIf p rows = rows.countP p
  sum : ∀ {γ : Type} (value : γ → Nat) rows, e.sum value rows = (rows.map value).sum % 2 ^ 64
  maxOf : ∀ {γ : Type} (value : γ → Nat) rows, e.maxOf value rows = (rows.map value).foldl max 0
  argMax : ∀ {β : Type} (value : α → β) version group, group ≠ [] →
    IsArgMax value version group (e.argMax value version group)
  argMaxNullable : ∀ {β : Type} (value : α → Option β) version group, group ≠ [] →
    IsArgMaxNullable value version group (e.argMaxNullable value version group)
  orderBy_perm : ∀ {γ ρ : Type} [LinearOrder ρ] (rank : γ → ρ) rows,
    (e.orderBy rank rows).Perm rows
  orderBy_sorted : ∀ {γ ρ : Type} [LinearOrder ρ] (rank : γ → ρ) rows,
    (e.orderBy rank rows).Pairwise fun r s => rank r ≤ rank s

/-! ## What does not depend on the engine -/

/-- Rows of one key and one version are one row. -/
def Consistent (key : α → κ) (version : α → Nat) (rows : List α) : Prop :=
  ∀ r ∈ rows, ∀ s ∈ rows, key r = key s → version r = version s → r = s

section Aggregates

theorem le_foldl_max {l : List Nat} :
    ∀ {m : Nat}, m ≤ l.foldl max m ∧ ∀ x ∈ l, x ≤ l.foldl max m := by
  induction l with
  | nil => exact fun {m} => ⟨Nat.le_refl m, fun x hx => absurd hx List.not_mem_nil⟩
  | cons y l ih =>
    intro m
    obtain ⟨hm, hl⟩ := ih (m := max m y)
    refine ⟨Nat.le_trans (Nat.le_max_left m y) hm, fun x hx => ?_⟩
    rcases List.mem_cons.mp hx with rfl | hx
    · exact Nat.le_trans (Nat.le_max_right m x) hm
    · exact hl x hx

theorem foldl_max_mem {l : List Nat} : ∀ {m : Nat}, l.foldl max m = m ∨ l.foldl max m ∈ l := by
  induction l with
  | nil => exact Or.inl rfl
  | cons y l ih =>
    intro m
    rcases ih (m := max m y) with h | h
    · rw [List.foldl_cons, h]
      rcases Nat.le_total m y with hle | hle
      · exact Or.inr (by simp [Nat.max_eq_right hle])
      · exact Or.inl (Nat.max_eq_left hle)
    · exact Or.inr (List.mem_cons_of_mem _ h)

/-- The greatest value of some rows is one of theirs. -/
theorem isArgMax_max (value : α → Nat) {group : List α} (h : group ≠ []) :
    IsArgMax value value group ((group.map value).foldl max 0) := by
  have hle : ∀ s ∈ group, value s ≤ (group.map value).foldl max 0 :=
    fun s hs => le_foldl_max.2 _ (List.mem_map_of_mem hs)
  rcases foldl_max_mem (l := group.map value) (m := 0) with hzero | hmem
  · obtain ⟨r, hr⟩ := List.exists_mem_of_ne_nil group h
    have hr0 := hle r hr
    exact ⟨r, hr, fun s hs => (hle s hs).trans (by omega), by omega⟩
  · obtain ⟨r, hr, e⟩ := List.mem_map.mp hmem
    exact ⟨r, hr, fun s hs => e ▸ hle s hs, e⟩

variable {value : α → β} {label : α → Option β} {version : α → Nat} {group group' : List α}

theorem IsArgMax.unique {v w : β}
    (hdistinct : ∀ r ∈ group, ∀ s ∈ group, version r = version s → r = s)
    (hsame : ∀ r, r ∈ group ↔ r ∈ group') (hv : IsArgMax value version group v)
    (hw : IsArgMax value version group' w) : v = w := by
  obtain ⟨r, hr, hnewest, rfl⟩ := hv
  obtain ⟨s, hs, hnewest', rfl⟩ := hw
  have hs' : s ∈ group := (hsame s).mpr hs
  have hle := hnewest s hs'
  have hge := hnewest' r ((hsame r).mp hr)
  rw [hdistinct r hr s hs' (Nat.le_antisymm hge hle)]

theorem IsArgMaxNullable.unique {v w : Option β}
    (hdistinct : ∀ r ∈ group, ∀ s ∈ group, version r = version s → r = s)
    (hsame : ∀ r, r ∈ group ↔ r ∈ group') (hv : IsArgMaxNullable label version group v)
    (hw : IsArgMaxNullable label version group' w) : v = w := by
  rcases hv with ⟨hnone, rfl⟩ | ⟨r, hr, hnewest, rfl, hlabel⟩ <;>
    rcases hw with ⟨hnone', rfl⟩ | ⟨s, hs, hnewest', rfl, hlabel'⟩
  · rfl
  · exact absurd (hnone s ((hsame s).mpr hs)) hlabel'
  · exact absurd (hnone' r ((hsame r).mp hr)) hlabel
  · have hs' : s ∈ group := (hsame s).mpr hs
    have hle := hnewest s hs' hlabel'
    have hge := hnewest' r ((hsame r).mp hr) hlabel
    rw [hdistinct r hr s hs' (Nat.le_antisymm hge hle)]

theorem IsArgMaxNullable.congr {v : Option β} (h : IsArgMaxNullable label version group v)
    (hsame : ∀ r, r ∈ group ↔ r ∈ group') : IsArgMaxNullable label version group' v := by
  unfold IsArgMaxNullable at h ⊢
  simpa only [hsame] using h

end Aggregates

section Grouping

variable {key : α → κ} {rows : List α} {groups : List (κ × List α)}

theorem IsGrouping.mem_of_mem_group (h : IsGrouping key rows groups) {g : κ × List α}
    (hg : g ∈ groups) {r : α} (hr : r ∈ g.2) : r ∈ rows ∧ key r = g.1 :=
  (h.whole g hg r).mp hr

/-- The group of a row. -/
theorem IsGrouping.group_of_mem (h : IsGrouping key rows groups) {r : α} (hr : r ∈ rows) :
    ∃ g ∈ groups, g.1 = key r ∧ r ∈ g.2 := by
  obtain ⟨g, hg, e⟩ := List.mem_map.mp (h.covers r hr)
  exact ⟨g, hg, e, (h.whole g hg r).mpr ⟨hr, e.symm⟩⟩

/-- One row for each group, each with its key. -/
theorem IsGrouping.nodup_map (h : IsGrouping key rows groups) {agg : κ × List α → β}
    {keyOf : β → κ} (hkey : ∀ g ∈ groups, keyOf (agg g) = g.1) :
    ((groups.map agg).map keyOf).Nodup := by
  have hkeys : (groups.map agg).map keyOf = groups.map Prod.fst := by
    rw [List.map_map]
    exact List.map_congr_left hkey
  exact hkeys ▸ h.once

end Grouping

/-! ## The first rows in an order -/

section Page

variable [LinearOrder ρ] {γ : Type} {rank : γ → ρ} {n : Nat} {rows rows' page : List γ}
  {e e' : Engine α}

/-- **Rows of distinct ranks come in one order.** -/
theorem orderBy_unique (he : e.Documented) (he' : e'.Documented) (h : rows.Perm rows')
    (hinj : ∀ r ∈ rows, ∀ s ∈ rows, rank r = rank s → r = s) :
    e.orderBy rank rows = e'.orderBy rank rows' := by
  have hperm : (e.orderBy rank rows).Perm (e'.orderBy rank rows') :=
    ((he.orderBy_perm rank rows).trans h).trans (he'.orderBy_perm rank rows').symm
  refine hperm.eq_of_pairwise (fun r s hr hs hrs hsr => ?_)
    (he.orderBy_sorted rank rows) (he'.orderBy_sorted rank rows')
  have hr' : r ∈ rows := (he.orderBy_perm rank rows).mem_iff.mp hr
  have hs' : s ∈ rows := h.mem_iff.mpr ((he'.orderBy_perm rank rows').mem_iff.mp hs)
  exact hinj r hr' s hs' (le_antisymm hrs hsr)

/-- `page` is the first `n` of `rows` in the order of `rank`, in that order. -/
structure IsPage (rank : γ → ρ) (n : Nat) (rows page : List γ) : Prop where
  sorted : page.Pairwise fun r s => rank r ≤ rank s
  full : page.length = min n rows.length
  first : ∃ rest, (page ++ rest).Perm rows ∧ ∀ r ∈ page, ∀ s ∈ rest, rank r ≤ rank s

/-- `ORDER BY rank LIMIT n`. -/
theorem isPage_orderBy (he : e.Documented) (rank : γ → ρ) (n : Nat) (rows : List γ) :
    IsPage rank n rows ((e.orderBy rank rows).take n) where
  sorted := (he.orderBy_sorted rank rows).sublist (List.take_sublist _ _)
  full := by rw [List.length_take, (he.orderBy_perm rank rows).length_eq]
  first := by
    refine ⟨(e.orderBy rank rows).drop n, ?_, ?_⟩
    · rw [List.take_append_drop]
      exact he.orderBy_perm rank rows
    · have h := he.orderBy_sorted rank rows
      rw [← List.take_append_drop n (e.orderBy rank rows), List.pairwise_append] at h
      exact h.2.2

/-- A page that is not cut has all the rows. -/
theorem IsPage.perm_of_le (h : IsPage rank n rows page) (hle : rows.length ≤ n) :
    page.Perm rows := by
  obtain ⟨rest, hperm, -⟩ := h.first
  have hlen := hperm.length_eq
  rw [List.length_append, h.full, Nat.min_eq_right hle] at hlen
  obtain rfl : rest = [] := List.eq_nil_of_length_eq_zero (by omega)
  rwa [List.append_nil] at hperm

end Page

/-! ## The first of equal rows -/

/-- An engine that takes the first of equal rows. -/
def Engine.first [Inhabited α] : Engine α where
  groupBy key rows := (rows.map key).dedup.map fun k => (k, rows.filter fun r => key r = k)
  count rows := rows.length
  countIf p rows := rows.countP p
  sum value rows := (rows.map value).sum % 2 ^ 64
  maxOf value rows := (rows.map value).foldl max 0
  argMax value version group := value ((group.argmax version).getD default)
  argMaxNullable value version group :=
    ((group.filter fun r => (value r).isSome).argmax version).bind value
  orderBy rank rows := rows.mergeSort fun r s => rank r ≤ rank s

theorem isArgMax_argmax [Inhabited α] (value : α → β) (version : α → Nat) {group : List α}
    (h : group ≠ []) :
    IsArgMax value version group (value ((group.argmax version).getD default)) := by
  cases e : group.argmax version with
  | none => exact absurd (List.argmax_eq_none.mp e) h
  | some r => exact ⟨r, List.argmax_mem e, fun s hs => List.le_of_mem_argmax hs e, rfl⟩

theorem first_documented [Inhabited α] : (Engine.first : Engine α).Documented where
  groupBy key rows := by
    have hkeys : (Engine.first.groupBy key rows).map Prod.fst = (rows.map key).dedup := by
      simp [Engine.first, Function.comp_def]
    refine ⟨hkeys ▸ List.nodup_dedup _, fun g hg r => ?_, fun g hg => ?_, fun r hr => ?_⟩
    · obtain ⟨k, -, rfl⟩ := List.mem_map.mp hg
      simp
    · obtain ⟨k, hk, rfl⟩ := List.mem_map.mp hg
      obtain ⟨r, hr, rfl⟩ := List.mem_map.mp (List.mem_dedup.mp hk)
      exact List.ne_nil_of_mem (List.mem_filter.mpr ⟨hr, decide_eq_true rfl⟩)
    · rw [hkeys]
      exact List.mem_dedup.mpr (List.mem_map_of_mem hr)
  count _ := rfl
  countIf _ _ := rfl
  sum _ _ := rfl
  maxOf _ _ := rfl
  argMax value version _ h := isArgMax_argmax value version h
  argMaxNullable value version group _ := by
    show IsArgMaxNullable value version group
      (((group.filter fun r => (value r).isSome).argmax version).bind value)
    cases e : (group.filter fun r => (value r).isSome).argmax version with
    | none =>
      have hnone := List.filter_eq_nil_iff.mp (List.argmax_eq_none.mp e)
      exact Or.inl ⟨fun r hr => by simpa using hnone r hr, rfl⟩
    | some r =>
      obtain ⟨hr, hlabel⟩ := List.mem_filter.mp (List.argmax_mem e)
      refine Or.inr ⟨r, hr, fun s hs hs' => ?_, rfl, Option.isSome_iff_ne_none.mp hlabel⟩
      exact List.le_of_mem_argmax (List.mem_filter.mpr ⟨hs, Option.isSome_iff_ne_none.mpr hs'⟩) e
  orderBy_perm rank rows := List.mergeSort_perm _ _
  orderBy_sorted rank rows := by
    have h := @List.pairwise_mergeSort _ (fun r s => decide (rank r ≤ rank s))
      (fun a b c hab hbc => by simpa using (of_decide_eq_true hab).trans (of_decide_eq_true hbc))
      (fun a b => by simpa using le_total (rank a) (rank b)) rows
    exact h.imp fun hrs => of_decide_eq_true hrs

end Statix.Lib
