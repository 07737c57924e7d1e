import Mathlib.Data.List.Nodup
import Mathlib.Data.List.Perm.Basic

/-!
# Reading a replacing table

A table that keeps, per key, one row of the greatest version, read after all its parts are merged.

* `Final`: what such a read returns of the rows inserted, in any order and with duplicates.
* `Final.perm`: if the rows have distinct keys up to duplicates, it returns each of them once.
-/

namespace Statix.Lib

variable {α κ : Type} {key : α → κ} {version : α → Nat} {rows view all : List α}

/-- `view` has one row of greatest version for each key of `rows`. -/
structure Final (key : α → κ) (version : α → Nat) (rows view : List α) : Prop where
  stored : ∀ v ∈ view, v ∈ rows
  newest : ∀ v ∈ view, ∀ r ∈ rows, key r = key v → version r ≤ version v
  single : (view.map key).Nodup
  covers : ∀ r ∈ rows, ∃ v ∈ view, key v = key r

/-- **Duplicates have no effect where keys tell the rows apart.** -/
theorem Final.perm (h : Final key version rows view) (hkeys : (all.map key).Nodup)
    (hrows : ∀ r, r ∈ rows ↔ r ∈ all) : view.Perm all := by
  refine (List.perm_ext_iff_of_nodup h.single.of_map hkeys.of_map).mpr fun r => ?_
  constructor
  · exact fun hr => (hrows r).mp (h.stored r hr)
  · intro hr
    obtain ⟨v, hv, e⟩ := h.covers r ((hrows r).mpr hr)
    have hv' : v ∈ all := (hrows v).mp (h.stored v hv)
    rwa [← List.inj_on_of_nodup_map hkeys hv' hr e]

end Statix.Lib
