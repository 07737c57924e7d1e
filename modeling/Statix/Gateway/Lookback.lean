import Statix.Gateway.Handlers

/-!
# Lookback cutoffs

The two read endpoints turn a lookback into the oldest `window_start_ns` they ask ClickHouse for:
`cutoff_ns_from_hours` (`statix-gateway/src/routes/query.rs`) from the caller's `hours`, and
`cutoff_ns` (`routes/dashboard/mod.rs`) from a range that `NormalizedQuery::new` has clamped. Both
subtract with saturation. Of the two products of the first only one saturates; the other one wraps.

* `lookback`: what a cutoff is, over the integers.
* `cutoffNsFromHours_iff`: for which hours the code computes it, for every clock value.
* `cutoffNs_eq`: the dashboard always does.

Result:

* **`cutoffs_exact`**: both laws in one, with the bound on `hours`.
* `lookback_wraps`: 584 years back are the last 26 minutes.
-/

namespace Statix.Gateway

/-- The time `span` before `now`, not before the epoch. -/
def lookback (now span : Nat) : Int := max 0 ((now : Int) - span)

/-- An hour in nanoseconds. -/
def hourNs : Nat := 3600 * 1000000000

/-- The last `hours` for which the products of `cutoff_ns_from_hours` fit in a `u64`. -/
def maxExactHours : Nat := 5124095

theorem lookback_eq (now span : Nat) : lookback now span = ((now - span : Nat) : Int) := by
  unfold lookback
  omega

theorem lookback_anti (now : Nat) {span span' : Nat} (h : span ≤ span') :
    lookback now span' ≤ lookback now span := by
  unfold lookback
  omega

/-- The products fit exactly up to `maxExactHours`. -/
theorem products_fit_iff (hours : Nat) :
    saturatingMul hours 3600 * 1000000000 < 2 ^ 64 ↔ hours ≤ maxExactHours := by
  unfold saturatingMul maxExactHours
  omega

theorem cutoffNsFromHours_exact {hours : Nat} (h : hours ≤ maxExactHours) {now : Nat}
    (hnow : now < 2 ^ 64) : (cutoffNsFromHours now hours : Int) = lookback now (hours * hourNs) := by
  have hfit := (products_fit_iff hours).mpr h
  have hmul : saturatingMul hours 3600 * 1000000000 = hours * hourNs := by
    unfold saturatingMul hourNs
    unfold maxExactHours at h
    omega
  unfold cutoffNsFromHours
  rw [Nat.mod_eq_of_lt hnow, Nat.mod_eq_of_lt hfit, hmul, lookback_eq]

/-- Past that the law fails at the last clock value: the wrapped product is even, so it stays below,
and the cutoff is above the epoch. -/
theorem cutoffNsFromHours_wraps {hours : Nat} (h : maxExactHours < hours) :
    (cutoffNsFromHours (2 ^ 64 - 1) hours : Int) ≠ lookback (2 ^ 64 - 1) (hours * hourNs) := by
  have hzero : 2 ^ 64 - 1 - hours * hourNs = 0 := by
    unfold hourNs
    unfold maxExactHours at h
    omega
  have heven : saturatingMul hours 3600 * 1000000000 % 2 ^ 64 % 2 = 0 := by omega
  have hlt : saturatingMul hours 3600 * 1000000000 % 2 ^ 64 < 2 ^ 64 := Nat.mod_lt _ (by decide)
  rw [lookback_eq, hzero]
  unfold cutoffNsFromHours
  omega

/-- **`cutoff_ns_from_hours` is the lookback for every clock value exactly up to
`maxExactHours`.** -/
theorem cutoffNsFromHours_iff (hours : Nat) :
    (∀ now < 2 ^ 64, (cutoffNsFromHours now hours : Int) = lookback now (hours * hourNs)) ↔
      hours ≤ maxExactHours := by
  constructor
  · intro h
    by_contra hlt
    exact cutoffNsFromHours_wraps (Nat.lt_of_not_le hlt) (h _ (by decide))
  · intro h now hnow
    exact cutoffNsFromHours_exact h hnow

/-- A clamped range is far below the bound of its product. -/
theorem cutoffNs_eq (ext : Externals) (p : StateParams) (maxLimit now : Nat) :
    let q := NormalizedQuery.new ext p maxLimit
    q.rangeSecs * 1000000000 < 2 ^ 64 ∧
      (q.cutoffNs now : Int) = lookback now (q.rangeSecs * 1000000000) := by
  intro q
  have hrange : q.rangeSecs ≤ 3600 := by
    show clamp (p.rangeSecs.getD 300) 60 3600 ≤ 3600
    unfold clamp
    omega
  refine ⟨by omega, ?_⟩
  have hmul : saturatingMul q.rangeSecs 1000000000 = q.rangeSecs * 1000000000 := by
    unfold saturatingMul
    omega
  unfold NormalizedQuery.cutoffNs
  rw [hmul, lookback_eq]

/-- **Lookback cutoffs.** For `cutoff_ns_from_hours` the law of the integers, over all clock values,
holds exactly for `hours` up to `maxExactHours`, which are those whose products do not overflow; up
to there the cutoff does not grow with the hours. For the dashboard it holds for every request. -/
theorem cutoffs_exact (hours : Nat) (ext : Externals) (p p' : StateParams) (maxLimit : Nat) :
    ((∀ now < 2 ^ 64, (cutoffNsFromHours now hours : Int) = lookback now (hours * hourNs)) ↔
      hours ≤ maxExactHours) ∧
    (saturatingMul hours 3600 * 1000000000 < 2 ^ 64 ↔ hours ≤ maxExactHours) ∧
    (hours ≤ maxExactHours → ∀ now < 2 ^ 64, ∀ fewer ≤ hours,
      cutoffNsFromHours now hours ≤ cutoffNsFromHours now fewer) ∧
    ∀ now, let q := NormalizedQuery.new ext p maxLimit
      let q' := NormalizedQuery.new ext p' maxLimit
      q.rangeSecs * 1000000000 < 2 ^ 64 ∧
      (q.cutoffNs now : Int) = lookback now (q.rangeSecs * 1000000000) ∧
      (q.rangeSecs ≤ q'.rangeSecs → q'.cutoffNs now ≤ q.cutoffNs now) := by
  refine ⟨cutoffNsFromHours_iff hours, products_fit_iff hours, ?_, ?_⟩
  · intro hmax now hnow fewer hle
    have hanti := lookback_anti now (Nat.mul_le_mul_right hourNs hle)
    rw [← cutoffNsFromHours_exact hmax hnow,
      ← cutoffNsFromHours_exact (Nat.le_trans hle hmax) hnow] at hanti
    exact Int.ofNat_le.mp hanti
  · intro now q q'
    obtain ⟨hfit, hlaw⟩ := cutoffNs_eq ext p maxLimit now
    obtain ⟨-, hlaw'⟩ := cutoffNs_eq ext p' maxLimit now
    refine ⟨hfit, hlaw, fun hle => ?_⟩
    have hanti := lookback_anti now (Nat.mul_le_mul_right 1000000000 hle)
    rw [← hlaw, ← hlaw'] at hanti
    exact Int.ofNat_le.mp hanti

/-- **584 years back are the last 26 minutes**: at a clock value of the year 2025, one more hour than
the products hold makes the cutoff jump from the epoch to 1526 seconds before now. -/
theorem lookback_wraps :
    cutoffNsFromHours 1760000000000000000 5124095 = 0 ∧
      cutoffNsFromHours 1760000000000000000 5124096 = 1760000000000000000 - 1526290448384 ∧
      lookback 1760000000000000000 (5124096 * hourNs) = 0 ∧
      (cutoffNsFromHours 1760000000000000000 5124096 : Int) ≠
        lookback 1760000000000000000 (5124096 * hourNs) := by
  decide

end Statix.Gateway
