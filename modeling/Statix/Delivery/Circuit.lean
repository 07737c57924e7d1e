import Mathlib.Data.List.Basic
import Mathlib.Data.List.Induction
import Mathlib.Logic.Relation

/-!
# The circuit breaker

Model of the gateway-health circuit of `statix/src/wal/mod.rs`: `record_post_success`,
`record_post_failure` and `try_half_open`. `CONSECUTIVE_FAILURES` is an `AtomicU8`, so its count
wraps; each call is one atomic step here.

* `state_failure`: a failure opens the circuit unless the count has just wrapped.
* **`breaker_spec_iff`**: what a sequence of calls leaves behind is what the breaker is for, except
  after a `try_half_open` between a failure that wraps the count and the second one after it.
* `trial_not_reopened`: 256 failures, a `try_half_open` and a failed trial.
-/

namespace Statix.Delivery

/-- `CircuitState`. -/
inductive CircuitState where
  | closed
  | halfOpen
  | opened
  deriving DecidableEq

/-- `CIRCUIT` and `CONSECUTIVE_FAILURES`. -/
structure Circuit where
  state : CircuitState
  failures : UInt8
  deriving DecidableEq

/-- `OPEN_THRESHOLD`. -/
def openThreshold : Nat := 3

/-- The circuit at startup. -/
def Circuit.start : Circuit := ⟨.closed, 0⟩

/-- `record_post_success`. -/
def Circuit.recordPostSuccess (_ : Circuit) : Circuit := ⟨.closed, 0⟩

/-- `record_post_failure`. -/
def Circuit.recordPostFailure (c : Circuit) : Circuit where
  state := if min (c.failures.toNat + 1) 255 ≥ openThreshold then .opened else c.state
  failures := c.failures + 1

/-- `try_half_open`. -/
def Circuit.tryHalfOpen (c : Circuit) : Circuit :=
  if c.state = .opened then { c with state := .halfOpen } else c

/-! ## Sequences of calls -/

/-- The calls that drive the circuit. -/
inductive CircuitCall where
  | recordPostSuccess
  | recordPostFailure
  | tryHalfOpen
  deriving DecidableEq

/-- One call. -/
def Circuit.call (c : Circuit) : CircuitCall → Circuit
  | .recordPostSuccess => c.recordPostSuccess
  | .recordPostFailure => c.recordPostFailure
  | .tryHalfOpen => c.tryHalfOpen

/-- The circuit after `calls`. -/
def circuitAfter (calls : List CircuitCall) : Circuit := calls.foldl Circuit.call .start

/-- The calls since the last success, the latest first. -/
def sinceSuccess (calls : List CircuitCall) : List CircuitCall :=
  calls.reverse.takeWhile (· ≠ .recordPostSuccess)

/-- The failures since the last success. -/
def failuresSince (calls : List CircuitCall) : Nat := (sinceSuccess calls).count .recordPostFailure

/-- **What the breaker is for**, said of the state after the last of `calls`. -/
structure BreakerSpec (calls : List CircuitCall) : Prop where
  opened : calls.getLast? = some .recordPostFailure → openThreshold ≤ failuresSince calls →
    (circuitAfter calls).state = .opened
  closed : calls.getLast? = some .recordPostSuccess → (circuitAfter calls).state = .closed
  /-- In the half-open circuit the last call that changed the state was `try_half_open`. -/
  halfOpen : (circuitAfter calls).state = .halfOpen → ∃ before after,
    calls = before ++ .tryHalfOpen :: after ∧ (circuitAfter before).state ≠ .halfOpen ∧
    ∀ mid, mid <+: after → (circuitAfter (before ++ .tryHalfOpen :: mid)).state = .halfOpen
  reopened : ∀ before, calls = before ++ [.recordPostFailure] →
    (circuitAfter before).state = .halfOpen → (circuitAfter calls).state = .opened

/-- If the last call is the first or second failure after one whose number since the last success is
a multiple of 256, there was no `try_half_open` since that one. -/
def NoProbeAtWrap (calls : List CircuitCall) : Prop :=
  ∀ r, r = 1 ∨ r = 2 → calls.getLast? = some .recordPostFailure → 256 < failuresSince calls →
    failuresSince calls % 256 = r →
    (sinceSuccess calls).take (r + 1) = List.replicate (r + 1) .recordPostFailure

section Calls

variable {calls : List CircuitCall}

theorem circuitAfter_snoc (calls : List CircuitCall) (c : CircuitCall) :
    circuitAfter (calls ++ [c]) = (circuitAfter calls).call c := List.foldl_concat _ _ _ _

theorem sinceSuccess_snoc (calls : List CircuitCall) (c : CircuitCall) :
    sinceSuccess (calls ++ [c]) = if c = .recordPostSuccess then [] else c :: sinceSuccess calls := by
  unfold sinceSuccess
  rw [List.reverse_concat, List.takeWhile_cons]
  by_cases h : c = .recordPostSuccess <;> simp [h]

theorem failuresSince_success (calls : List CircuitCall) :
    failuresSince (calls ++ [.recordPostSuccess]) = 0 := by
  rw [failuresSince, sinceSuccess_snoc, if_pos rfl, List.count_nil]

theorem failuresSince_failure (calls : List CircuitCall) :
    failuresSince (calls ++ [.recordPostFailure]) = failuresSince calls + 1 := by
  rw [failuresSince, sinceSuccess_snoc, if_neg (by decide), List.count_cons_self, failuresSince]

theorem failuresSince_tryHalfOpen (calls : List CircuitCall) :
    failuresSince (calls ++ [.tryHalfOpen]) = failuresSince calls := by
  rw [failuresSince, sinceSuccess_snoc, if_neg (by decide), List.count_cons_of_ne (by decide),
    failuresSince]

/-- **The count is that of the failures since the last success, modulo 256.** -/
theorem failures_circuitAfter (calls : List CircuitCall) :
    (circuitAfter calls).failures.toNat = failuresSince calls % 256 := by
  induction calls using List.reverseRecOn with
  | nil => rfl
  | append_singleton calls c ih =>
    rw [circuitAfter_snoc]
    cases c with
    | recordPostSuccess =>
      rw [failuresSince_success]
      rfl
    | recordPostFailure =>
      rw [failuresSince_failure]
      show ((circuitAfter calls).failures + 1).toNat = _
      rw [UInt8.toNat_add, ih]
      simp
    | tryHalfOpen =>
      rw [failuresSince_tryHalfOpen, ← ih]
      show (circuitAfter calls).tryHalfOpen.failures.toNat = _
      unfold Circuit.tryHalfOpen
      split <;> rfl

/-- **A failure opens the circuit unless the count has just wrapped.** -/
theorem state_failure (calls : List CircuitCall) :
    (circuitAfter (calls ++ [.recordPostFailure])).state =
      if 2 ≤ failuresSince calls % 256 then .opened else (circuitAfter calls).state := by
  rw [circuitAfter_snoc]
  show (circuitAfter calls).recordPostFailure.state = _
  unfold Circuit.recordPostFailure openThreshold
  rw [failures_circuitAfter]
  by_cases h : 2 ≤ failuresSince calls % 256
  · rw [if_pos h, if_pos (by omega)]
  · rw [if_neg h, if_neg (by omega)]

theorem state_success (calls : List CircuitCall) :
    (circuitAfter (calls ++ [.recordPostSuccess])).state = .closed := by
  rw [circuitAfter_snoc]
  rfl

theorem state_tryHalfOpen (calls : List CircuitCall) :
    (circuitAfter (calls ++ [.tryHalfOpen])).state =
      if (circuitAfter calls).state = .opened then .halfOpen else (circuitAfter calls).state := by
  rw [circuitAfter_snoc]
  show (circuitAfter calls).tryHalfOpen.state = _
  unfold Circuit.tryHalfOpen
  split <;> rfl

/-- The circuit is closed exactly while there are fewer failures than the threshold. -/
theorem closed_iff (calls : List CircuitCall) :
    (circuitAfter calls).state = .closed ↔ failuresSince calls < openThreshold := by
  unfold openThreshold
  induction calls using List.reverseRecOn with
  | nil => decide
  | append_singleton calls c ih =>
    cases c with
    | recordPostSuccess => simp [state_success, failuresSince_success]
    | tryHalfOpen =>
      rw [state_tryHalfOpen, failuresSince_tryHalfOpen, ← ih]
      by_cases h : (circuitAfter calls).state = .opened <;> simp [h]
    | recordPostFailure =>
      rw [state_failure, failuresSince_failure]
      by_cases h : 2 ≤ failuresSince calls % 256
      · rw [if_pos h]
        constructor
        · intro e
          cases e
        · intro hlt
          omega
      · rw [if_neg h, ih]
        omega

/-- With enough failures a `try_half_open` leaves the circuit half-open. -/
theorem halfOpen_of_tryHalfOpen (h : openThreshold ≤ failuresSince calls) :
    (circuitAfter (calls ++ [.tryHalfOpen])).state = .halfOpen := by
  have hne : (circuitAfter calls).state ≠ .closed := fun e =>
    absurd ((closed_iff calls).mp e) (Nat.not_lt_of_le h)
  rw [state_tryHalfOpen]
  cases hs : (circuitAfter calls).state with
  | closed => exact absurd hs hne
  | halfOpen => rfl
  | opened => rfl

/-- The call before, when there were failures and no success came after. -/
theorem last_cases (h : 0 < failuresSince calls) :
    ∃ before, calls = before ++ [.recordPostFailure] ∨ calls = before ++ [.tryHalfOpen] := by
  rcases List.eq_nil_or_concat' calls with rfl | ⟨before, c, rfl⟩
  · exact absurd h (by decide)
  · cases c with
    | recordPostSuccess =>
      rw [failuresSince_success] at h
      exact absurd h (Nat.lt_irrefl 0)
    | recordPostFailure => exact ⟨before, Or.inl rfl⟩
    | tryHalfOpen => exact ⟨before, Or.inr rfl⟩

/-- The half-open circuit was left so by a `try_half_open`. -/
theorem halfOpen_since (h : (circuitAfter calls).state = .halfOpen) : ∃ before after,
    calls = before ++ .tryHalfOpen :: after ∧ (circuitAfter before).state ≠ .halfOpen ∧
    ∀ mid, mid <+: after → (circuitAfter (before ++ .tryHalfOpen :: mid)).state = .halfOpen := by
  induction calls using List.reverseRecOn with
  | nil => cases h
  | append_singleton calls c ih =>
    -- either the last call made it half-open, or it was half-open before
    by_cases hbefore : (circuitAfter calls).state = .halfOpen
    · obtain ⟨before, after, rfl, hne, hstay⟩ := ih hbefore
      refine ⟨before, after ++ [c], by simp, hne, fun mid hmid => ?_⟩
      rcases List.prefix_concat_iff.mp hmid with rfl | hmid
      · rw [← List.cons_append, ← List.append_assoc]
        exact h
      · exact hstay mid hmid
    · cases c with
      | recordPostSuccess =>
        rw [state_success] at h
        cases h
      | recordPostFailure =>
        rw [state_failure] at h
        split at h
        · cases h
        · exact absurd h hbefore
      | tryHalfOpen =>
        refine ⟨calls, [], rfl, hbefore, fun mid hmid => ?_⟩
        rw [List.prefix_nil.mp hmid]
        exact h

/-- When the count has just wrapped, the failure before left the circuit open. -/
theorem opened_at_wrap (h : failuresSince (calls ++ [.recordPostFailure]) % 256 = 0) :
    (circuitAfter (calls ++ [.recordPostFailure])).state = .opened := by
  rw [failuresSince_failure] at h
  rw [state_failure, if_pos (by omega)]

/-- The first failure after the wrap leaves the circuit open exactly if it follows the one that
wrapped the count. -/
theorem opened_first_after_wrap (hn : 256 ≤ failuresSince calls)
    (hm : failuresSince calls % 256 = 0) :
    (circuitAfter (calls ++ [.recordPostFailure])).state = .opened ↔
      (sinceSuccess calls).take 1 = [.recordPostFailure] := by
  rw [state_failure, if_neg (by omega)]
  have hpos : 0 < failuresSince calls := by omega
  obtain ⟨before, rfl | rfl⟩ := last_cases hpos
  · rw [sinceSuccess_snoc, if_neg (by decide)]
    exact ⟨fun _ => rfl, fun _ => opened_at_wrap hm⟩
  · rw [failuresSince_tryHalfOpen] at hn
    rw [halfOpen_of_tryHalfOpen (Nat.le_trans (by decide) hn), sinceSuccess_snoc,
      if_neg (by decide)]
    constructor
    · intro e
      cases e
    · intro e
      cases e

/-- The second one, exactly if both follow it. -/
theorem opened_second_after_wrap (hn : 256 ≤ failuresSince calls)
    (hm : failuresSince calls % 256 = 1) :
    (circuitAfter (calls ++ [.recordPostFailure])).state = .opened ↔
      (sinceSuccess calls).take 2 = [.recordPostFailure, .recordPostFailure] := by
  rw [state_failure, if_neg (by omega)]
  have hpos : 0 < failuresSince calls := by omega
  obtain ⟨before, rfl | rfl⟩ := last_cases hpos
  · rw [failuresSince_failure] at hn hm
    rw [opened_first_after_wrap (by omega) (by omega), sinceSuccess_snoc, if_neg (by decide),
      List.take_succ_cons, List.cons.injEq]
    exact ⟨fun h => ⟨rfl, h⟩, fun h => h.2⟩
  · rw [failuresSince_tryHalfOpen] at hn
    rw [halfOpen_of_tryHalfOpen (Nat.le_trans (by decide) hn), sinceSuccess_snoc,
      if_neg (by decide)]
    constructor
    · intro e
      cases e
    · intro e
      cases e

/-- A failure at or past the threshold opens the circuit exactly if no probe fell at a wrap. -/
theorem opened_iff (hn : openThreshold ≤ failuresSince (calls ++ [.recordPostFailure])) :
    (circuitAfter (calls ++ [.recordPostFailure])).state = .opened ↔
      NoProbeAtWrap (calls ++ [.recordPostFailure]) := by
  unfold openThreshold at hn
  have hsince : ∀ r, (sinceSuccess (calls ++ [.recordPostFailure])).take (r + 1) =
      List.replicate (r + 1) .recordPostFailure ↔
      (sinceSuccess calls).take r = List.replicate r .recordPostFailure := fun r => by
    rw [sinceSuccess_snoc, if_neg (by decide), List.take_succ_cons, List.replicate_succ,
      List.cons.injEq]
    exact ⟨fun h => h.2, fun h => ⟨rfl, h⟩⟩
  unfold NoProbeAtWrap
  simp only [hsince]
  rw [failuresSince_failure] at hn ⊢
  by_cases h₂ : 2 ≤ failuresSince calls % 256
  · rw [state_failure, if_pos h₂]
    refine ⟨fun _ r hr _ _ hmod => ?_, fun _ => rfl⟩
    omega
  · have hbig : 256 ≤ failuresSince calls := by omega
    by_cases h₀ : failuresSince calls % 256 = 0
    · rw [opened_first_after_wrap hbig h₀]
      constructor
      · intro h r hr _ _ hmod
        obtain rfl : r = 1 := by omega
        exact h
      · intro h
        exact h 1 (Or.inl rfl) List.getLast?_concat (by omega) (by omega)
    · have h₁ : failuresSince calls % 256 = 1 := by omega
      rw [opened_second_after_wrap hbig h₁]
      constructor
      · intro h r hr _ _ hmod
        obtain rfl : r = 2 := by omega
        exact h
      · intro h
        exact h 2 (Or.inr rfl) List.getLast?_concat (by omega) (by omega)

/-- **The circuit breaker meets its specification exactly when no probe falls at a wrap**, after
every sequence of calls. -/
theorem breaker_spec_iff (calls : List CircuitCall) :
    BreakerSpec calls ↔ NoProbeAtWrap calls := by
  constructor
  · intro h r hr hlast hn
    obtain ⟨before, rfl⟩ := List.getLast?_eq_some_iff.mp hlast
    have hle : openThreshold ≤ failuresSince (before ++ [.recordPostFailure]) :=
      Nat.le_trans (by decide) (Nat.le_of_lt hn)
    exact (opened_iff hle).mp (h.opened hlast hle) r hr hlast hn
  · intro h
    refine ⟨fun hlast hn => ?_, fun hlast => ?_, halfOpen_since, ?_⟩
    · obtain ⟨before, rfl⟩ := List.getLast?_eq_some_iff.mp hlast
      exact (opened_iff hn).mpr h
    · obtain ⟨before, rfl⟩ := List.getLast?_eq_some_iff.mp hlast
      exact state_success before
    · rintro before rfl htrial
      -- a half-open circuit has seen enough failures
      have hn : openThreshold ≤ failuresSince before := by
        by_contra hlt
        rw [(closed_iff before).mpr (Nat.lt_of_not_le hlt)] at htrial
        cases htrial
      refine (opened_iff ?_).mpr h
      rw [failuresSince_failure]
      exact Nat.le_succ_of_le hn

/-- **A failed trial that does not reopen the circuit**: the 257th failure in a row, after a probe. -/
theorem trial_not_reopened :
    let calls := List.replicate 256 CircuitCall.recordPostFailure ++ [.tryHalfOpen]
    (circuitAfter calls).state = .halfOpen ∧
    (circuitAfter (calls ++ [.recordPostFailure])).state = .halfOpen ∧
    failuresSince (calls ++ [.recordPostFailure]) = 257 ∧
    ¬BreakerSpec (calls ++ [.recordPostFailure]) := by
  intro calls
  have hstate : (circuitAfter (calls ++ [.recordPostFailure])).state = .halfOpen := by decide +kernel
  have hcount : failuresSince (calls ++ [.recordPostFailure]) = 257 := by decide +kernel
  refine ⟨by decide +kernel, hstate, hcount, fun h => ?_⟩
  have hopen := h.opened List.getLast?_concat (by rw [hcount]; decide)
  rw [hstate] at hopen
  cases hopen

end Calls

end Statix.Delivery
